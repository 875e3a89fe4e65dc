/-!
# JSON values

The values of RFC 8259, with object fields in the order of the text and repeated names kept.
Numbers are integers or, when they are written otherwise or do not fit 64 bits, an `inexact` text
that no field takes. `unreadable` stands for what the grammar admits and nothing can hold: text
that names half a surrogate pair, a number beyond every float, or a container nested too deep.
Such a value does no harm where it is passed over.
-/
namespace AutoBattler

inductive Json where
  | null
  | bool (b : Bool)
  | int (n : Int)
  | inexact (text : String)
  | str (s : String)
  | array (items : List Json)
  /-- An object. It is `plain` if no name in the text has an escape that the name does not need. -/
  | object (fields : List (String × Json)) (plain : Bool := true)
  | unreadable

namespace Json

mutual

/-- Whether nothing in the value is `unreadable`. -/
def isReadable : Json → Bool
  | .array items => allReadable items
  | .object fields _ => fieldsReadable fields
  | .unreadable => false
  | _ => true

def allReadable : List Json → Bool
  | [] => true
  | item :: rest => item.isReadable && allReadable rest

def fieldsReadable : List (String × Json) → Bool
  | [] => true
  | (_, value) :: rest => value.isReadable && fieldsReadable rest

end

mutual

/-- How many containers lie around the innermost value, the outermost one included. -/
def depth : Json → Nat
  | .array items => depthList items + 1
  | .object fields _ => depthFields fields + 1
  | _ => 0

def depthList : List Json → Nat
  | [] => 0
  | item :: rest => max item.depth (depthList rest)

def depthFields : List (String × Json) → Nat
  | [] => 0
  | (_, value) :: rest => max value.depth (depthFields rest)

end

end Json

end AutoBattler
