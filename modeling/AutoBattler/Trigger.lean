import AutoBattler.Order

/-!
# Triggers

The named occurrences that abilities answer, and which pets an ability listens to. A trigger has
one fixed place in the list of all triggers, which also orders them.
-/
namespace AutoBattler

inductive Trigger where
  | startOfBattle
  | beforeAttack
  | afterAttack
  /-- A pet lost health and survived. -/
  | hurt
  | faint
  /-- An attack made a pet of the other side faint. -/
  | knockout
  | summoned
  /-- The ability of a pet has been performed in battle. -/
  | castsAbility
  | levelUp
  /-- Never raised: consulted on the status of the attacker while damage is computed. -/
  | whenAttacking
  /-- Never raised: consulted on the status of the target while damage is computed. -/
  | whenDamaged
  | buy
  | buyFood
  | buyTierOneAnimal
  | buyAfterLoss
  | sell
  | startOfTurn
  | endOfTurn
  | endOfTurnWithThreeGold
  | endOfTurnWithTwoGold
  | endOfTurnWithFourAnimals
  | endOfTurnWithTopLevelFriend
  | eatsShopFood
deriving DecidableEq

namespace Trigger

def all : List Trigger :=
  [startOfBattle, beforeAttack, afterAttack, hurt, faint, knockout, summoned, castsAbility,
    levelUp, whenAttacking, whenDamaged, buy, buyFood, buyTierOneAnimal, buyAfterLoss, sell,
    startOfTurn, endOfTurn, endOfTurnWithThreeGold, endOfTurnWithTwoGold,
    endOfTurnWithFourAnimals, endOfTurnWithTopLevelFriend, eatsShopFood]

/-- The name in data files and printed events. -/
def name : Trigger → String
  | startOfBattle => "StartOfBattle"
  | beforeAttack => "BeforeAttack"
  | afterAttack => "AfterAttack"
  | hurt => "Hurt"
  | faint => "Faint"
  | knockout => "Knockout"
  | summoned => "Summoned"
  | castsAbility => "CastsAbility"
  | levelUp => "LevelUp"
  | whenAttacking => "WhenAttacking"
  | whenDamaged => "WhenDamaged"
  | buy => "Buy"
  | buyFood => "BuyFood"
  | buyTierOneAnimal => "BuyTier1Animal"
  | buyAfterLoss => "BuyAfterLoss"
  | sell => "Sell"
  | startOfTurn => "StartOfTurn"
  | endOfTurn => "EndOfTurn"
  | endOfTurnWithThreeGold => "EndOfTurnWith3PlusGold"
  | endOfTurnWithTwoGold => "EndOfTurnWith2PlusGold"
  | endOfTurnWithFourAnimals => "EndOfTurnWith4OrLessAnimals"
  | endOfTurnWithTopLevelFriend => "EndOfTurnWithLvl3Friend"
  | eatsShopFood => "EatsShopFood"

def ofName? (s : String) : Option Trigger := all.find? (·.name = s)

/-- The place in the list of all triggers. -/
def position (t : Trigger) : Nat := t.ctorIdx

theorem getElem?_position (t : Trigger) : all[t.position]? = some t := by cases t <;> rfl

theorem mem_all (t : Trigger) : t ∈ all := by cases t <;> decide

theorem ofName?_name (t : Trigger) : ofName? t.name = some t := by cases t <;> decide

theorem eq_of_position {s t : Trigger} (h : s.position = t.position) : s = t := by
  have hs := getElem?_position s
  rw [h, getElem?_position t] at hs
  exact (Option.some.inj hs).symm

instance : Ord Trigger := ⟨fun s t => compare s.position t.position⟩

instance : Std.TransOrd Trigger := transOrd_of_key position fun _ _ => rfl

instance : Std.LawfulEqOrd Trigger :=
  lawfulEqOrd_of_key position (fun _ _ => rfl) fun _ _ => eq_of_position

end Trigger

/-- Which pets an ability listens to, seen from the pet that holds it. -/
inductive Audience where
  /-- The source of the event itself. -/
  | self
  /-- Every pet but the source. -/
  | eachFriend
  /-- The pet right behind the source. -/
  | friendAhead
  | player
deriving DecidableEq

end AutoBattler
