import AutoBattler.Pet

/-!
# The trigger index

For every trigger the pet kinds, statuses and foods that may answer it, so that the dispatcher
can pass over a pet without looking its abilities up.
-/
namespace AutoBattler

structure Listeners where
  pets : Table PetKindId Unit
  statuses : Table StatusId Unit
  foods : Table FoodId Unit
deriving DecidableEq

def Listeners.none : Listeners := ⟨.empty, .empty, .empty⟩

structure TriggerIndex where
  entries : Table Trigger Listeners
deriving DecidableEq

namespace TriggerIndex

def empty : TriggerIndex := ⟨.empty⟩

def listeners (index : TriggerIndex) (trigger : Trigger) : Listeners :=
  (index.entries[trigger]?).getD .none

def update (index : TriggerIndex) (trigger : Trigger) (f : Listeners → Listeners) : TriggerIndex :=
  ⟨index.entries.insert trigger (f (index.listeners trigger))⟩

def registerPet (index : TriggerIndex) (trigger : Trigger) (id : PetKindId) : TriggerIndex :=
  index.update trigger fun l => { l with pets := l.pets.insert id () }

def registerStatus (index : TriggerIndex) (status : StatusKind) : TriggerIndex :=
  index.update status.ability.trigger fun l => { l with statuses := l.statuses.insert status.id () }

def registerFood (index : TriggerIndex) (food : Food) : TriggerIndex :=
  index.update food.ability.trigger fun l => { l with foods := l.foods.insert food.id () }

def registerKind (index : TriggerIndex) (kind : PetKind) : TriggerIndex :=
  kind.triggers.foldl (fun index trigger => index.registerPet trigger kind.id) index

def build (pets : List PetKind) (statuses : List StatusKind) (foods : List Food) : TriggerIndex :=
  foods.foldl registerFood (statuses.foldl registerStatus (pets.foldl registerKind empty))

/-- The pet kinds registered under a trigger, in the order of their names. -/
def petsFor (index : TriggerIndex) (trigger : Trigger) : List PetKindId :=
  (index.listeners trigger).pets.keys

def foodReacts (index : TriggerIndex) (trigger : Trigger) (food : FoodId) : Bool :=
  (index.listeners trigger).foods.contains food

/-- Whether the kind of the pet, the kind it borrows from or its status is registered. -/
def mayReact (index : TriggerIndex) (trigger : Trigger) (pet : Pet) : Bool :=
  let l := index.listeners trigger
  l.pets.contains pet.kind || l.pets.contains pet.abilityKind ||
    match pet.status with
    | some status => l.statuses.contains status
    | none => false

/-- The number of triggers under which something is registered. -/
def size (index : TriggerIndex) : Nat := index.entries.size

def isEmpty (index : TriggerIndex) : Bool := index.size = 0

end TriggerIndex

end AutoBattler
