import AutoBattler.Team

/-!
# The shop

Gold, the pets on offer, and the changes made to every pet stocked later. Prices and what is on
offer are decided elsewhere.
-/
namespace AutoBattler

/-- The gold that a turn begins with. -/
def startingGold : Int := 10

structure Shop where
  gold : Int
  pets : List Pet
  /-- Changes for every pet stocked later, newest first. -/
  futureBuffs : List StatBuff
deriving DecidableEq

namespace Shop

def ofGold (gold : Int) : Shop := ⟨gold, [], []⟩

/-- The shop of a team's turn takes over the team's pending changes. -/
def forTeam (team : Team) (gold : Int) : Shop := ⟨gold, [], team.shopBuffs.reverse⟩

/-- Puts a pet on offer with all pending changes made, oldest first. -/
def stock (shop : Shop) (pet : Pet) : Shop :=
  let pet := shop.futureBuffs.foldr (fun b pet => pet.buff b.attack b.health false) pet
  { shop with pets := shop.pets ++ [pet] }

def take? (shop : Shop) (index : Nat) : Option (Pet × Shop) :=
  shop.pets[index]?.map fun pet => (pet, { shop with pets := shop.pets.eraseIdx index })

def addGold (amount : Int) (shop : Shop) : Shop :=
  { shop with gold := int32 (shop.gold + amount) }

/-- Changes the pets on offer. -/
def buffCurrent (attack health : Int) (shop : Shop) : Shop :=
  { shop with pets := shop.pets.map (Pet.buff attack health false) }

/-- Changes the pets on offer and every pet stocked from now on. -/
def buffAll (attack health : Int) (shop : Shop) : Shop :=
  { shop.buffCurrent attack health with futureBuffs := ⟨attack, health⟩ :: shop.futureBuffs }

end Shop

end AutoBattler
