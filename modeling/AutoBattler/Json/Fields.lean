import AutoBattler.Json.Basic

/-!
# Reading fields

Readers for the scalars and for the fields of an object. A field that is read may stand once; the
names of all other fields are passed over. A field with a default takes no null, an optional one
takes null as missing.
-/
namespace AutoBattler.Json

abbrev Fields := List (String × Json)

/-! ## Scalars -/

def asString? : Json → Option String
  | .str s => some s
  | _ => none

def asBool? : Json → Option Bool
  | .bool b => some b
  | _ => none

def asIntBetween? (low high : Int) : Json → Option Int
  | .int n => if low ≤ n ∧ n ≤ high then some n else none
  | _ => none

/-- A signed number of 32 bits. -/
def asInt32? : Json → Option Int := asIntBetween? (-2147483648) 2147483647

/-- A signed number of 64 bits. -/
def asInt64? : Json → Option Int :=
  asIntBetween? (-9223372036854775808) 9223372036854775807

def asNatBelow? (bound : Nat) : Json → Option Nat
  | .int (.ofNat n) => if n < bound then some n else none
  | _ => none

def asNat8? : Json → Option Nat := asNatBelow? UInt8.size

def asNat32? : Json → Option Nat := asNatBelow? UInt32.size

def asNat64? : Json → Option Nat := asNatBelow? UInt64.size

def asList? {α : Type} (read : Json → Option α) : Json → Option (List α)
  | .array items => items.mapM read
  | _ => none

def ofNat (n : Nat) : Json := .int n

def ofOption {α : Type} (write : α → Json) : Option α → Json
  | some x => write x
  | none => .null

def ofList {α : Type} (write : α → Json) (xs : List α) : Json := .array (xs.map write)

/-! ## Fields of an object -/

def asFields? : Json → Option Fields
  | .object fields _ => some fields
  | _ => none

/-- The fields of an object whose names are to be read as numbers. The digits of a number are spelled
without escapes. -/
def asPlainFields? : Json → Option Fields
  | .object fields true => some fields
  | _ => none

/-- The fields of a record, which may be written as an empty list if it gives none. -/
def asRecord? : Json → Option Fields
  | .array [] => some []
  | j => asFields? j

namespace Fields

variable {α : Type}

/-- The only field that has one of the names. Two such fields are refused. -/
def only? {β : Type} (fields : List (String × β)) (names : List String) : Option (Option β) :=
  match fields.filter fun field => names.contains field.1 with
  | [] => some none
  | [field] => some (some field.2)
  | _ => none

def required? (fields : Fields) (name : String) (read : Json → Option α) : Option α :=
  match only? fields [name] with
  | some (some j) => read j
  | _ => none

/-- A field that goes by two names. -/
def requiredAs? (fields : Fields) (names : List String) (read : Json → Option α) : Option α :=
  match only? fields names with
  | some (some j) => read j
  | _ => none

def withDefault? (fields : Fields) (name : String) (default : α) (read : Json → Option α) :
    Option α :=
  match only? fields [name] with
  | some (some j) => read j
  | some none => some default
  | none => none

def optional? (fields : Fields) (name : String) (read : Json → Option α) : Option (Option α) :=
  match only? fields [name] with
  | some (some .null) => some none
  | some (some j) => (read j).map some
  | some none => some none
  | none => none

end Fields

end AutoBattler.Json
