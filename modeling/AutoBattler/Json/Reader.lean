import AutoBattler.Json.Token

/-!
# Reading JSON

A pushdown reader over tokens. The stack holds the containers that are still open, innermost
first, so that a text of any depth is read in one pass.
-/
namespace AutoBattler.Json

/-- An open container with what it holds so far, newest first. A field waits for its value. -/
inductive Frame where
  | array (items : List Json)
  | field (fields : List (Option QuotedText × Json)) (name : Option QuotedText)

/-- What has been read and what may come next. -/
inductive Reading where
  /-- A value must come. -/
  | value (stack : List Frame)
  /-- A value or the end of the array that has just begun. -/
  | item (stack : List Frame)
  /-- A field name, or the end of the object if it has just begun. -/
  | key (fields : List (Option QuotedText × Json)) (stack : List Frame)
  | colon (fields : List (Option QuotedText × Json)) (name : Option QuotedText) (stack : List Frame)
  /-- A value is complete. -/
  | after (value : Json) (stack : List Frame)

namespace Reading

/-- A container that lies within `stack` and is within the limit on nesting. -/
def fits (limit : Nat) (stack : List Frame) : Bool := stack.length < limit

def closeArray (limit : Nat) (items : List Json) (stack : List Frame) : Reading :=
  .after (if fits limit stack then .array items.reverse else .unreadable) stack

/-- The object with the fields in order, if every name can be held. -/
def object? : List (Option QuotedText × Json) → List (String × Json) → Bool → Option Json
  | [], named, plain => some (.object named plain)
  | (some name, v) :: rest, named, plain =>
    object? rest ((name.text, v) :: named) (name.plain && plain)
  | (none, _) :: _, _, _ => none

def closeObject (limit : Nat) (fields : List (Option QuotedText × Json)) (stack : List Frame) :
    Reading :=
  match object? fields [] true with
  | some v => .after (if fits limit stack then v else .unreadable) stack
  | none => .after .unreadable stack

def begin? (stack : List Frame) : Token → Option Reading
  | .beginArray => some (.item stack)
  | .beginObject => some (.key [] stack)
  | .text (some t) => some (.after (.str t.text) stack)
  | .text none => some (.after .unreadable stack)
  | .atom v => some (.after v stack)
  | _ => none

def step? (limit : Nat) : Reading → Token → Option Reading
  | .value stack, t => begin? stack t
  | .item stack, .endArray => some (closeArray limit [] stack)
  | .item stack, t => begin? (.array [] :: stack) t
  | .key fields stack, .text name => some (.colon fields name stack)
  | .key [] stack, .endObject => some (closeObject limit [] stack)
  | .colon fields name stack, .colon => some (.value (.field fields name :: stack))
  | .after v (.array items :: stack), .comma => some (.value (.array (v :: items) :: stack))
  | .after v (.array items :: stack), .endArray => some (closeArray limit (v :: items) stack)
  | .after v (.field fields name :: stack), .comma => some (.key ((name, v) :: fields) stack)
  | .after v (.field fields name :: stack), .endObject =>
    some (closeObject limit ((name, v) :: fields) stack)
  | _, _ => none

def finish? : Reading → Option Json
  | .after v [] => some v
  | _ => none

end Reading

/-- The value of a text in which containers may be nested `limit` deep. -/
def parse? (limit : Nat) (text : String) : Option Json := do
  let tokens ← tokens? text.toList
  let reading ← tokens.foldlM (Reading.step? limit) (.value [])
  reading.finish?

/-- The nesting that data files may have. -/
def nestingLimit : Nat := 127

end AutoBattler.Json
