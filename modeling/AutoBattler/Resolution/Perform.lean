import AutoBattler.Resolution.Attack
import AutoBattler.Resolution.Summon
import AutoBattler.Targeting

/-!
# Performing effects

What each effect does for an actor in answer to an event. The result lists the pets it touched.
How further events are raised is a parameter, so that this module stands before the dispatcher.
-/
namespace AutoBattler

namespace Resolve

/-- The pets that a selector designates for the actor. -/
def targets (event : Event) (actor : Option PetId) (selector : Selector) :
    Resolve (List PetId) := fun s =>
  let (ids, g) := Targeting.resolve ⟨s.board, event, actor⟩ selector s.random
  (.ok ids, { s with random := g })

/-! ## Stats, experience and gold -/

/-- Pets in the shop change in shop turns only and are not touched in the sense of the result. -/
def modifyStats (event : Event) (actor : Option PetId) (attack health : Int) (target : Selector)
    (temporary : Bool) : Resolve (List PetId) :=
  match target with
  | .eachShopAnimal includingFuture =>
    if event.isBattle then pure []
    else do
      modifyShop (if includingFuture then Shop.buffAll attack health
        else Shop.buffCurrent attack health)
      pure []
  | target => do
    let ids ← targets event actor target
    modifyPets ids (Pet.buff attack health temporary)
    pure ids

/-- Gives points one at a time and announces a level before the pet has it. -/
def grantExperience (raise : Raise) (event : Event) (side : Side) (id : PetId) :
    (amount : Nat) → Resolve Unit
  | 0 => pure ()
  | amount + 1 => do
    match ← pet? id with
    | none => pure ()
    | some pet =>
      if maxLevel ≤ pet.level then pure ()
      else do
        modifyPet id Pet.gainPoint
        match pet.gainPoint.earnedLevel? with
        | none => grantExperience raise event side id amount
        | some level => do
          raise (event.followUp .levelUp side id)
          modifyPet id (Pet.promote level)
          if maxLevel ≤ level then pure () else grantExperience raise event side id amount

def teach (raise : Raise) (event : Event) (amount : Nat) (id : PetId) : Resolve Unit := do
  match (← board).sideOf? id with
  | none => pure ()
  | some side => grantExperience raise event side id amount

/-- Loses a share of the health, but never the last point. -/
def reduceHealth (percentage : Int) (pet : Pet) : Pet :=
  let cut := max 0 (min ((int32 (pet.health * percentage)).tdiv 100) (int32 (pet.health - 1)))
  pet.setHealth (int32 (pet.health - cut))

/-! ## Damage -/

/-- Before attacks and at the start of a battle damage is dealt at once, else it is queued. -/
def launch (rules : Rules) (raise : Raise) (event : Event) (attacker : PetId)
    (targets : List PetId) (damage : Int) : Resolve Unit := do
  match (← board).sideOf? attacker with
  | none => pure ()
  | some side =>
    if targets = [] then pure ()
    else
      let attack : Attack := ⟨attacker, side, targets, damage, false⟩
      if event.trigger = .beforeAttack ∨ event.trigger = .startOfBattle then
        playAttacks rules raise [attack]
      else enqueue attack

def dealDamage (rules : Rules) (raise : Raise) (event : Event) (actor : Option PetId)
    (amount : DamageAmount) (target : Selector) : Resolve (List PetId) := do
  match actor, event.isBattle with
  | some attacker, true =>
    let damage := match ← pet? attacker with
      | some pet => amount.resolve pet.attack
      | none => 0
    let ids ← targets event actor target
    launch rules raise event attacker ids damage
    pure ids
  | _, _ => pure []

/-- The pet behind the foremost of a line. -/
def second? (line : List PetId) : Option PetId := line.reverse[1]?

def splashDamage (event : Event) (actor : Option PetId) (amount : Int) :
    Resolve (List PetId) := do
  match actor, event.isBattle with
  | some attacker, true =>
    let b ← board
    match b.sideOf? attacker with
    | none => pure []
    | some side =>
      match second? (b.roster side.opponent) with
      | none => pure []
      | some target => do
        enqueue ⟨attacker, side, [target], amount, false⟩
        pure [target]
  | _, _ => pure []

/-! ## Transfers -/

/-- The first pet that a selector designates, if it is stored. -/
def donor (event : Event) (actor : Option PetId) (selector : Selector) :
    Resolve (Option Pet) := do
  let ids ← targets event actor selector
  let b ← board
  pure (ids.head?.bind b.pet?)

def copyStats (donor : Pet) (copyAttack copyHealth : Bool) (pet : Pet) : Pet :=
  let pet := if copyAttack then pet.setAttack donor.attack else pet
  if copyHealth then pet.setHealth donor.health else pet

def transferStats (event : Event) (actor : Option PetId) (giver receivers : Selector)
    (copyAttack copyHealth : Bool) : Resolve (List PetId) := do
  match ← donor event actor giver with
  | none => pure []
  | some pet =>
    let ids ← targets event actor receivers
    modifyPets ids (copyStats pet copyAttack copyHealth)
    pure ids

def transferAbility (event : Event) (actor : Option PetId) (giver receivers : Selector)
    (level : Option Nat) : Resolve (List PetId) := do
  match ← donor event actor giver with
  | none => pure []
  | some pet =>
    let ids ← targets event actor receivers
    modifyPets ids (Pet.borrow pet.abilityKind (level.getD pet.abilityLevel))
    pure ids

/-! ## Summons -/

def summonRandom (rules : Rules) (raise : Raise) (event : Event) (actor : Option PetId)
    (tier : Nat) (attack health : Option Int) (level : Option Nat) : Resolve (List PetId) := do
  let candidates := rules.catalog.kindsInTier tier
  let index ← draw fun g => g.index? candidates.length
  match index.bind (candidates[·]?) with
  | none => fail (.emptyTier tier)
  | some kind => summon rules raise event actor ⟨kind.id, .friendly, attack, health, level⟩

def respawn (rules : Rules) (raise : Raise) (event : Event) (actor : Option PetId)
    (attack health : Int) : Resolve (List PetId) := do
  match actor.bind (← board).pet? with
  | none => pure []
  | some pet =>
    summon rules raise event actor ⟨pet.kind, .friendly, some attack, some health, some pet.level⟩

def evolve (rules : Rules) (actor : Option PetId) (into : PetKindId) : Resolve (List PetId) := do
  let kind ← ofExcept (rules.catalog.petKind into)
  match actor with
  | none => pure []
  | some id => do
    let new ← replace id (.ofKind kind)
    pure new.toList

/-! ## Repeats -/

/-- How a pet performs an effect in answer to the event behind a cast. -/
abbrev Again := PetId → Effect → Resolve Unit

/-- Every target performs the ability of the pet that cast, at the given level or its own. -/
def repeatAbility (rules : Rules) (again : Option Again) (event : Event) (actor : Option PetId)
    (target : Selector) (level : Option Nat) : Resolve (List PetId) := do
  match event.source, again with
  | some caster, some again =>
    match ← pet? caster with
    | none => pure []
    | some pet =>
      let kind ← ofExcept (rules.catalog.petKind pet.abilityKind)
      match kind.ability (level.getD pet.abilityLevel) with
      | none => pure []
      | some ability =>
        let ids ← targets event actor target
        forEach ids fun id => again id ability.effect
        pure ids
  | _, _ => pure []

/-! ## All effects -/

mutual

/-- Performs an effect for the actor. There is an `again` if the event has a cause. -/
def performWith (rules : Rules) (raise : Raise) (again : Option Again) (event : Event)
    (actor : Option PetId) : Effect → Resolve (List PetId)
  | .oneOf effects => do
    match ← draw fun g => g.index? effects.length with
    | none => pure []
    | some i => performNth rules raise again event actor effects i
  | .allOf effects => performAll rules raise again event actor [] effects
  | .modifyStats attack health target temporary =>
    modifyStats event actor attack health target temporary
  | .gainExperience amount target => do
    let ids ← targets event actor target
    forEach ids (teach raise event amount)
    pure ids
  | .applyStatus status target => do
    let _ ← ofExcept (rules.catalog.status status)
    let ids ← targets event actor target
    modifyPets ids (Pet.setStatus (some status))
    pure ids
  | .dealDamage amount target => dealDamage rules raise event actor amount target
  | .splashDamage amount => splashDamage event actor amount
  | .reduceHealth percentage target => do
    let ids ← targets event actor target
    modifyPets ids (reduceHealth percentage)
    pure ids
  | .summonPet kind team attack health =>
    summon rules raise event actor ⟨kind, team, attack, health, none⟩
  | .summonRandomPet tier attack health level =>
    summonRandom rules raise event actor tier attack health level
  | .respawnPet attack health => respawn rules raise event actor attack health
  | .transferStats giver receivers copyAttack copyHealth =>
    transferStats event actor giver receivers copyAttack copyHealth
  | .transferAbility giver receivers level => transferAbility event actor giver receivers level
  | .gainGold amount => do
    modifyShop (Shop.addGold amount)
    pure []
  | .evolve into => evolve rules actor into
  | .repeatAbility target level => repeatAbility rules again event actor target level
  | .modifyDamage _ _ => pure []

/-- Performs the effect at an index. -/
def performNth (rules : Rules) (raise : Raise) (again : Option Again) (event : Event)
    (actor : Option PetId) : List Effect → Nat → Resolve (List PetId)
  | [], _ => pure []
  | e :: _, 0 => performWith rules raise again event actor e
  | _ :: rest, i + 1 => performNth rules raise again event actor rest i

/-- Performs effects in their order. What earlier ones touched comes newest first. -/
def performAll (rules : Rules) (raise : Raise) (again : Option Again) (event : Event)
    (actor : Option PetId) (touched : List (List PetId)) : List Effect → Resolve (List PetId)
  | [] => pure touched.reverse.flatten
  | e :: rest => do
    let ids ← performWith rules raise again event actor e
    performAll rules raise again event actor (ids :: touched) rest

end

/-- Performs an effect in answer to an event. Repeats go back along the causes of the event. -/
def perform (rules : Rules) (raise : Raise) (event : Event) (actor : Option PetId)
    (effect : Effect) : Resolve (List PetId) :=
  match event with
  | ⟨trigger, source, side, snapshot, phase, repeated, none⟩ =>
    performWith rules raise none ⟨trigger, source, side, snapshot, phase, repeated, none⟩ actor
      effect
  | ⟨trigger, source, side, snapshot, phase, repeated, some cause⟩ =>
    performWith rules raise
      (some fun id effect => do
        let _ ← perform rules raise cause (some id) effect
        pure ())
      ⟨trigger, source, side, snapshot, phase, repeated, some cause⟩ actor effect
termination_by structural event

end Resolve

end AutoBattler
