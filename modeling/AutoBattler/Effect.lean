import AutoBattler.Identifier
import AutoBattler.Selector
import AutoBattler.Width

/-!
# Effects

What an ability does when it fires. `OneOf` and `AllOf` nest; every other effect is a single act.
Percentages of whole numbers drop the fraction.
-/
namespace AutoBattler

inductive SummonTeam where
  | friendly
  | enemy
deriving DecidableEq

inductive DamageAmount where
  | fixed (amount : Int)
  | attackPercent (percent : Int)
deriving DecidableEq

/-- The damage dealt by a pet with the given attack. -/
def DamageAmount.resolve (attack : Int) : DamageAmount → Int
  | fixed amount => amount
  | attackPercent percent => (int32 (attack * percent)).tdiv 100

inductive Effect where
  /-- One of the effects at random. -/
  | oneOf (effects : List Effect)
  | allOf (effects : List Effect)
  /-- A temporary change is taken back when the battle ends. -/
  | modifyStats (attack health : Int) (target : Selector) (temporary : Bool)
  | gainExperience (amount : Nat) (target : Selector)
  | applyStatus (status : StatusId) (target : Selector)
  | dealDamage (amount : DamageAmount) (target : Selector)
  /-- Damage to the enemy behind the foremost. -/
  | splashDamage (amount : Int)
  /-- Takes a share of the health and leaves at least one point. -/
  | reduceHealth (percentage : Int) (target : Selector)
  | summonPet (kind : PetKindId) (team : SummonTeam) (attack health : Option Int)
  | summonRandomPet (tier : Nat) (attack health : Option Int) (level : Option Nat)
  /-- Summons a pet of the actor's kind and level. -/
  | respawnPet (attack health : Int)
  /-- The donor is the first pet that its selector gives. -/
  | transferStats (donor receivers : Selector) (copyAttack copyHealth : Bool)
  | transferAbility (donor receivers : Selector) (level : Option Nat)
  | gainGold (amount : Int)
  | evolve (into : PetKindId)
  /-- Lets the targets perform the ability that was just cast. -/
  | repeatAbility (target : Selector) (level : Option Nat)
  /-- Read while damage is computed. Without a number the modifier is absolute. -/
  | modifyDamage (modifier : Option Int) (once : Bool)

namespace Effect

mutual

/-- Whether the effect or one nested in it satisfies `p`. -/
def any (p : Effect → Bool) (e : Effect) : Bool :=
  p e || match e with
    | oneOf effects => anyOf p effects
    | allOf effects => anyOf p effects
    | _ => false

def anyOf (p : Effect → Bool) : List Effect → Bool
  | [] => false
  | e :: rest => any p e || anyOf p rest

end

def isTransferAbility : Effect → Bool
  | transferAbility .. => true
  | _ => false

def isRepeatAbility : Effect → Bool
  | repeatAbility .. => true
  | _ => false

end Effect

end AutoBattler
