import AutoBattler.Json.Basic
import AutoBattler.Json.Quoted

/-!
# Writing JSON

A compact form on one line and an indented form. A value is written in front of the text that
follows it, so that a character is laid down once, however deep it stands.
-/
namespace AutoBattler.Json

mutual

/-- The value on one line, without blanks, in front of a text. -/
def writeBefore (rest : List Char) : Json → List Char
  | .null => "null".toList ++ rest
  | .bool true => "true".toList ++ rest
  | .bool false => "false".toList ++ rest
  | .int n => (toString n).toList ++ rest
  | .inexact text => text.toList ++ rest
  | .str s => quote s ++ rest
  | .array [] => '[' :: ']' :: rest
  | .array (item :: more) => '[' :: writeBefore (writeItems rest more) item
  | .object [] _ => '\x7b' :: '\x7d' :: rest
  | .object ((name, value) :: more) _ =>
    '\x7b' :: (quote name ++ ':' :: writeBefore (writeFields rest more) value)
  | .unreadable => "null".toList ++ rest

/-- The items after the first and the closing bracket. -/
def writeItems (rest : List Char) : List Json → List Char
  | [] => ']' :: rest
  | item :: more => ',' :: writeBefore (writeItems rest more) item

/-- The fields after the first and the closing brace. -/
def writeFields (rest : List Char) : List (String × Json) → List Char
  | [] => '\x7d' :: rest
  | (name, value) :: more => ',' :: (quote name ++ ':' :: writeBefore (writeFields rest more) value)

end

def write (j : Json) : List Char := writeBefore [] j

/-- The value on one line, without blanks. -/
def render (j : Json) : String := String.ofList j.write

def newLine (indent : Nat) (rest : List Char) : List Char :=
  '\n' :: List.replicate indent ' ' ++ rest

mutual

/-- The value over several lines in front of a text. Its own first line is not indented. -/
def writeIndented (rest : List Char) (indent : Nat) : Json → List Char
  | .array [] => '[' :: ']' :: rest
  | .object [] _ => '\x7b' :: '\x7d' :: rest
  | .array (item :: more) =>
    '[' :: newLine (indent + 2)
      (writeIndented (writeMoreItems (newLine indent (']' :: rest)) (indent + 2) more)
        (indent + 2) item)
  | .object ((name, value) :: more) _ =>
    '\x7b' :: newLine (indent + 2)
      (quote name ++ ':' :: ' ' ::
        writeIndented (writeMoreFields (newLine indent ('\x7d' :: rest)) (indent + 2) more)
          (indent + 2) value)
  | j => writeBefore rest j

def writeMoreItems (rest : List Char) (indent : Nat) : List Json → List Char
  | [] => rest
  | item :: more =>
    ',' :: newLine indent (writeIndented (writeMoreItems rest indent more) indent item)

def writeMoreFields (rest : List Char) (indent : Nat) : List (String × Json) → List Char
  | [] => rest
  | (name, value) :: more =>
    ',' :: newLine indent
      (quote name ++ ':' :: ' ' ::
        writeIndented (writeMoreFields rest indent more) indent value)

end

/-- The value over several lines, indented by two blanks a level. -/
def renderIndented (j : Json) : String := String.ofList (writeIndented [] 0 j)

end AutoBattler.Json
