import AutoBattler.Error
import AutoBattler.TriggerIndex

/-!
# The catalog

Every pet kind, status and food by its name, with the trigger index that belongs to them. Looking
up a name that is not there is an error, never a silent skip.
-/
namespace AutoBattler

structure Catalog where
  pets : Table PetKindId PetKind
  statuses : Table StatusId StatusKind
  foods : Table FoodId Food
  index : TriggerIndex
  petsKeyed : pets.KeyedBy PetKind.id
  statusesKeyed : statuses.KeyedBy StatusKind.id
  foodsKeyed : foods.KeyedBy Food.id
  indexed : index = .build pets.inOrder statuses.inOrder foods.inOrder

namespace Catalog

def ofLists (pets : List PetKind) (statuses : List StatusKind) (foods : List Food) : Catalog where
  pets := .ofValues PetKind.id pets
  statuses := .ofValues StatusKind.id statuses
  foods := .ofValues Food.id foods
  index := .build (Table.ofValues PetKind.id pets).inOrder
    (Table.ofValues StatusKind.id statuses).inOrder (Table.ofValues Food.id foods).inOrder
  petsKeyed := Table.keyedBy_ofValues _ _
  statusesKeyed := Table.keyedBy_ofValues _ _
  foodsKeyed := Table.keyedBy_ofValues _ _
  indexed := rfl

def empty : Catalog := ofLists [] [] []

/-- The catalog with only the pet kinds of one pack. -/
def forPack (c : Catalog) (pack : String) : Catalog :=
  ofLists (c.pets.inOrder.filter fun kind => kind.packs.contains pack) c.statuses.inOrder
    c.foods.inOrder

/-- A food that is declared on buying a pet means buying the food. -/
def normalizeFood (food : Food) : Food :=
  if food.ability.trigger = .buy then { food with ability.trigger := .buyFood } else food

/-- A status that is declared on buying a pet acts after attacks. -/
def normalizeStatus (status : StatusKind) : StatusKind :=
  if status.ability.trigger = .buy then { status with ability.trigger := .afterAttack } else status

/-- A catalog from the definitions of a data file. -/
def ofSource (pets : List PetKind) (statuses : List StatusKind) (foods : List Food) : Catalog :=
  ofLists pets (statuses.map normalizeStatus) (foods.map normalizeFood)

def petKind (c : Catalog) (id : PetKindId) : Except EngineError PetKind :=
  match c.pets[id]? with
  | some kind => .ok kind
  | none => .error (.unknownPetKind id)

def status (c : Catalog) (id : StatusId) : Except EngineError StatusKind :=
  match c.statuses[id]? with
  | some status => .ok status
  | none => .error (.unknownStatus id)

def food (c : Catalog) (id : FoodId) : Except EngineError Food :=
  match c.foods[id]? with
  | some food => .ok food
  | none => .error (.unknownFood id)

/-- The pet kinds of a tier in the order of their names. -/
def kindsInTier (c : Catalog) (tier : Nat) : List PetKind :=
  c.pets.inOrder.filter fun kind => kind.tier = tier

/-- The ability that the pet uses now, borrowed or its own. -/
def levelAbility (c : Catalog) (pet : Pet) : Except EngineError (Option Ability) :=
  (c.petKind pet.abilityKind).map fun kind => kind.ability pet.abilityLevel

def statusAbility (c : Catalog) (pet : Pet) : Except EngineError (Option Ability) :=
  match pet.status with
  | some id => (c.status id).map fun status => some status.ability
  | none => .ok none

end Catalog

end AutoBattler
