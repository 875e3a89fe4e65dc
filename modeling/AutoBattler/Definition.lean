import AutoBattler.Effect
import AutoBattler.Trigger

/-!
# Abilities and their holders

A pet kind has an ability for each level, a status and a food have one. Tiers, costs and levels
are small natural numbers whose ranges the data format fixes.
-/
namespace AutoBattler

structure Ability where
  description : String
  trigger : Trigger
  audience : Audience
  effect : Effect
  /-- How often the ability may fire before the next battle ends. -/
  maxTriggers : Option Nat

structure PetKind where
  id : PetKindId
  name : String
  tier : Nat
  baseAttack : Int
  baseHealth : Int
  packs : List String
  level1 : Option Ability
  level2 : Option Ability
  level3 : Option Ability

namespace PetKind

/-- Levels below one count as one, levels above three as three. -/
def ability (kind : PetKind) : Nat → Option Ability
  | 0 => kind.level1
  | 1 => kind.level1
  | 2 => kind.level2
  | _ => kind.level3

def abilities (kind : PetKind) : List Ability :=
  [kind.level1, kind.level2, kind.level3].filterMap fun ability => ability

/-- Whether some ability hands abilities on. What such a kind may use is known only in play. -/
def transfersAbility (kind : PetKind) : Bool :=
  kind.abilities.any fun ability => ability.effect.any Effect.isTransferAbility

/-- The triggers that the kind may answer. -/
def triggers (kind : PetKind) : List Trigger :=
  if kind.transfersAbility then Trigger.all else kind.abilities.map (·.trigger)

end PetKind

structure StatusKind where
  id : StatusId
  name : String
  ability : Ability

structure Food where
  id : FoodId
  name : String
  tier : Nat
  cost : Nat
  ability : Ability

end AutoBattler
