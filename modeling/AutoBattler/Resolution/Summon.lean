import AutoBattler.Resolution.Arena

/-!
# Summoning

Bringing new pets into line. A few kinds summon in ways that the effect does not say; they are
listed in `SummonRule.of?`.
-/
namespace AutoBattler

/-- What an exception changes about a summon. -/
inductive SummonRule where
  /-- Two pets come. -/
  | twins
  /-- The pet has the attack of its summoner. -/
  | inheritsAttack
  /-- No pet comes for the sake of one of its own kind. -/
  | notForOwnKind
  /-- The pet joins at the back. -/
  | backline
deriving DecidableEq

/-- The exception for a summoner, a summoned kind and a team. The first that applies counts. -/
def SummonRule.of? (summoner : Option PetKindId) (summoned : PetKindId) (team : SummonTeam) :
    Option SummonRule :=
  if team = .friendly then
    if summoner = some ⟨"pet-sheep"⟩ then some .twins
    else if summoned = ⟨"pet-chick"⟩ then some .inheritsAttack
    else if summoned = ⟨"pet-zombie-fly"⟩ then some .notForOwnKind
    else none
  else if summoner = some ⟨"pet-rat"⟩ then some .backline
  else none

/-- What an effect says about the pet to summon. -/
structure Summons where
  kind : PetKindId
  team : SummonTeam
  attack : Option Int
  health : Option Int
  level : Option Nat

namespace Summons

/-- The pet to summon, before exceptions. -/
def pet (request : Summons) (kind : PetKind) : Pet :=
  let pet := Pet.ofKind kind
  let pet := match request.level with
    | some level => pet.withLevel level
    | none => pet
  let pet := match request.attack with
    | some attack => pet.setAttack attack
    | none => pet
  match request.health with
  | some health => pet.setHealth health
  | none => pet

def side (request : Summons) (home : Side) : Side :=
  match request.team with
  | .friendly => home
  | .enemy => home.opponent

end Summons

namespace Resolve

/-- Copies of one pet, as many as there is room for. -/
def spawnCopies (side : Side) (pet : Pet) (placement : Placement) : Nat → Resolve (List PetId)
  | 0 => pure []
  | copies + 1 => do
    let first ← spawn side pet placement
    let more ← spawnCopies side pet placement copies
    pure (first.toList ++ more)

/-- Brings the copies into line and then announces each of them. -/
def bringIn (raise : Raise) (event : Event) (side : Side) (pet : Pet) (placement : Placement)
    (copies : Nat) : Resolve (List PetId) := do
  let summoned ← spawnCopies side pet placement copies
  forEach summoned fun id => raise (event.followUp .summoned side id)
  pure summoned

def summon (rules : Rules) (raise : Raise) (event : Event) (actor : Option PetId)
    (request : Summons) : Resolve (List PetId) := do
  let kind ← ofExcept (rules.catalog.petKind request.kind)
  let b ← board
  let summoner := actor.bind b.pet?
  let side := request.side ((actor.bind b.sideOf?).getD event.side)
  let pet := request.pet kind
  match SummonRule.of? (summoner.map (·.kind)) request.kind request.team with
  | some .twins => bringIn raise event side pet .front 2
  | some .inheritsAttack =>
    let pet := match summoner with
      | some summoner => pet.setAttack summoner.attack
      | none => pet
    bringIn raise event side pet .front 1
  | some .notForOwnKind =>
    if (event.source.bind b.pet?).map (·.kind) = some request.kind then pure []
    else bringIn raise event side pet .front 1
  | some .backline => bringIn raise event side pet .back 1
  | none => bringIn raise event side pet .front 1

end Resolve

end AutoBattler
