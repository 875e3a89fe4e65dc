import AutoBattler.Board
import AutoBattler.Event
import AutoBattler.Random.Draw

/-!
# Targets

From a selector to the pets it designates. Selectors relative to the actor read its line from the
snapshot of the event when the snapshot covers the actor, so that a fainted pet still finds its
former neighbours; of the snapshot only the actor, the source and pets still in line are kept.
-/
namespace AutoBattler

open AutoBattler.Random (Generator)

namespace Targeting

/-- What a selector is read against. -/
structure View where
  board : Board
  event : Event
  actor : Option PetId

namespace View

/-- The side whose pets count as friends. -/
def side (v : View) : Side := (v.actor.bind v.board.sideOf?).getD v.event.side

def friends (v : View) : List PetId :=
  (v.board.roster v.side).filter fun id => some id ≠ v.actor

def enemies (v : View) : List PetId := v.board.roster v.side.opponent

/-! ## The actor's line -/

/-- The line as the event saw it, without the pets that have left it since. -/
def survivors (v : View) (actor : PetId) (snapshot : List PetId) : List PetId :=
  snapshot.filter fun id => id = actor || v.board.isAlive id || v.event.source = some id

def line (v : View) (actor : PetId) : List PetId :=
  match v.event.snapshot with
  | some snapshot =>
    if v.event.side = v.side ∧ snapshot.contains actor then v.survivors actor snapshot
    else v.board.roster v.side
  | none => v.board.roster v.side

/-- The pets behind and ahead of the actor, the nearest first. -/
def around (v : View) : List PetId × List PetId :=
  match v.actor with
  | none => ([], [])
  | some actor =>
    match (v.line actor).idxOf? actor with
    | none => ([], [])
    | some place => (((v.line actor).take place).reverse, (v.line actor).drop (place + 1))

def behind (v : View) (n : Nat) : List PetId := v.around.1.take n

def ahead (v : View) (n : Nat) : List PetId := v.around.2.take n

/-! ## Choices by stats -/

/-- Keeps the better of the best so far and a further pet. A tie goes to the earlier one. -/
def better (score : PetId → Option Int) (best : Option (PetId × Int)) (id : PetId) :
    Option (PetId × Int) :=
  match score id, best with
  | none, _ => best
  | some s, none => some (id, s)
  | some s, some (_, top) => if top < s then some (id, s) else best

/-- The first pet of the pool with the highest score. Pets without a score do not count. -/
def best? (score : PetId → Option Int) (pool : List PetId) : Option PetId :=
  (pool.foldl (better score) none).map (·.1)

def lowHealth (b : Board) (id : PetId) : Option Int := (b.pet? id).map fun pet => -pet.health

def highHealth (b : Board) (id : PetId) : Option Int := (b.pet? id).map fun pet => pet.health

def strength (b : Board) (id : PetId) : Option Int :=
  (b.pet? id).map fun pet => int32 (pet.attack + pet.health)

def isSeasoned (b : Board) (id : PetId) : Bool := (b.pet? id).any fun pet => 2 ≤ pet.level

/-- The first pet of each tier that is not among those seen. -/
def firstOfTiers (b : Board) : (seen : List Nat) → List PetId → List PetId
  | _, [] => []
  | seen, id :: rest =>
    match b.pet? id with
    | none => firstOfTiers b seen rest
    | some pet =>
      if seen.contains pet.tier then firstOfTiers b seen rest
      else id :: firstOfTiers b (pet.tier :: seen) rest

end View

open View

/-- The targets of a selector and the generator after the draws it took. -/
def resolve (v : View) (selector : Selector) (g : Generator) : List PetId × Generator :=
  match selector with
  | .self => (v.actor.toList, g)
  | .triggeringEntity => (v.event.source.toList, g)
  | .purchaseTarget => (v.event.purchaseTarget?.toList, g)
  | .randomFriend n => g.pick v.friends n
  | .randomEnemy n => g.pick v.enemies n
  | .eachFriend => (v.friends, g)
  | .eachEnemy => (v.enemies, g)
  | .all => (v.friends ++ v.enemies, g)
  | .seasonedFriends => (v.friends.filter (isSeasoned v.board), g)
  | .differentTierAnimals => (firstOfTiers v.board [] (v.board.roster v.side), g)
  | .adjacentFriends => (v.behind 1 ++ v.ahead 1, g)
  | .leftMostFriend => ((v.board.roster v.side).head?.toList, g)
  | .rightMostFriend => ((v.board.roster v.side).getLast?.toList, g)
  | .firstEnemy => (v.enemies.getLast?.toList, g)
  | .lastEnemy => (v.enemies.head?.toList, g)
  | .lowestHealthEnemy => ((best? (lowHealth v.board) v.enemies).toList, g)
  | .highestHealthEnemy => ((best? (highHealth v.board) v.enemies).toList, g)
  | .friendBehind n => (v.behind n, g)
  | .friendAhead n => (v.ahead n, g)
  | .adjacentAnimals => (v.enemies.getLast?.toList ++ v.behind 1, g)
  | .strongestFriend => ((best? (strength v.board) v.friends).toList, g)
  | .eachShopAnimal _ => ([], g)

end Targeting

end AutoBattler
