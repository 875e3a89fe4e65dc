import AutoBattler.Pet

/-!
# Teams

The pets that a player keeps between battles, from the back of the line to the front. A team takes
new pets while fewer than five of its pets are alive.
-/
namespace AutoBattler

/-- The number of live pets that a roster holds. -/
def teamSize : Nat := 5

structure Team where
  pets : List Pet
  /-- Changes that the shop makes to every pet it stocks, oldest first. -/
  shopBuffs : List StatBuff
deriving DecidableEq

namespace Team

def empty : Team := ⟨[], []⟩

def canAdd (team : Team) : Bool := (team.pets.filter Pet.isAlive).length < teamSize

/-- Inserts a pet at an index, without one or past the end at the front of the line. -/
def add? (team : Team) (pet : Pet) (index : Option Nat) : Option Team :=
  if team.canAdd then
    let last := team.pets.length
    some { team with pets := team.pets.insertIdx (min (index.getD last) last) pet }
  else none

/-- Pets that find the team full are dropped. -/
def ofPets (pets : List Pet) : Team :=
  pets.foldl (fun team pet => (team.add? pet none).getD team) empty

def remove? (team : Team) (index : Nat) : Option (Pet × Team) :=
  team.pets[index]?.map fun pet => (pet, { team with pets := team.pets.eraseIdx index })

def addShopBuff (team : Team) (buff : StatBuff) : Team :=
  { team with shopBuffs := team.shopBuffs ++ [buff] }

def endOfBattle (team : Team) : Team := { team with pets := team.pets.map Pet.endOfBattle }

def describe (team : Team) : String := "[" ++ Pet.describeAll team.pets ++ "]"

end Team

end AutoBattler
