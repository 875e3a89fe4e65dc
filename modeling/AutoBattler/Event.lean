import AutoBattler.Identifier
import AutoBattler.Side
import AutoBattler.Trigger

/-!
# Events

What is told to a side when something happens: the trigger, the pet that caused it, and, while a
hit resolves, the line as it stood before any pet was removed.
-/
namespace AutoBattler

inductive Phase where
  | battle
  | purchase (target : Option PetId) (food : Option FoodId)
deriving DecidableEq

structure Event where
  trigger : Trigger
  source : Option PetId
  /-- The side that is told. -/
  side : Side
  /-- The line to walk and to find neighbours in, instead of the roster. -/
  snapshot : Option (List PetId)
  phase : Phase
  /-- Set for the event that a repeated ability answers. -/
  repeated : Bool
  /-- For a cast, the event that the ability answered. -/
  cause : Option Event

namespace Event

def battle (trigger : Trigger) (side : Side) : Event where
  trigger := trigger
  source := none
  side := side
  snapshot := none
  phase := .battle
  repeated := false
  cause := none

/-- An event of the shop turn, which is played on side `a`. -/
def purchase (trigger : Trigger) : Event :=
  { battle trigger .a with phase := .purchase none none }

def withSource (e : Event) (source : PetId) : Event := { e with source := some source }

def withSnapshot (e : Event) (line : List PetId) : Event := { e with snapshot := some line }

def withPurchase (e : Event) (target : PetId) (food : FoodId) : Event :=
  { e with phase := .purchase (some target) (some food) }

/-- An event that follows from this one, in the same phase. -/
def followUp (e : Event) (trigger : Trigger) (side : Side) (source : PetId) : Event where
  trigger := trigger
  source := some source
  side := side
  snapshot := none
  phase := e.phase
  repeated := false
  cause := none

def isBattle (e : Event) : Bool := e.phase = .battle

def purchaseTarget? (e : Event) : Option PetId :=
  match e.phase with
  | .battle => none
  | .purchase target _ => target

/-- The event that an ability repeats in answer to this one. -/
def asCause (e : Event) : Event := { e with repeated := true, cause := none }

end Event

end AutoBattler
