/-!
# Command line arguments

A command with options before and after it. An option after the command overrides the same option
before it; the same option twice in one place is an error, as is every unknown word.
-/
namespace AutoBattler.CommandLine

inductive Command where
  | battle (first second : String) (events : Bool)
  | roundRobin
deriving DecidableEq

structure Arguments where
  definitions : String
  teams : String
  seed : Nat
  maxRounds : Nat
  json : Bool
  command : Command
deriving DecidableEq

/-! ## Values -/

def digits? (cs : List Char) : Option Nat :=
  if cs ≠ [] ∧ cs.all Char.isDigit then
    some (cs.foldl (fun n c => 10 * n + (c.toNat - '0'.toNat)) 0)
  else none

/-- A number of 64 bits, with or without a plus sign. -/
def seed? (text : String) : Option Nat := do
  let n ← match text.toList with
    | '+' :: cs => digits? cs
    | cs => digits? cs
  if n < UInt64.size then some n else none

/-- A number of 32 bits with or without a sign. -/
def rounds? (text : String) : Option Nat := do
  match text.toList with
  | '-' :: cs => if (← digits? cs) = 0 then some 0 else none
  | '+' :: cs => do
    let n ← digits? cs
    if n < UInt32.size then some n else none
  | cs => do
    let n ← digits? cs
    if n < UInt32.size then some n else none

def path? (text : String) : Option String := if text = "" then none else some text

/-! ## Tokens -/

inductive Token where
  | word
  /-- Two dashes: all that follows are words. -/
  | separator
  | flag (name : String)
  | option (name : String)
  | assignment (name value : String)
  | shortOption
deriving DecidableEq

def Token.ofString (text : String) : Token :=
  match text.toList with
  | '-' :: '-' :: [] => .separator
  | '-' :: '-' :: body =>
    let name := String.ofList (body.takeWhile (· ≠ '='))
    match body.dropWhile (· ≠ '=') with
    | _ :: value => .assignment name (String.ofList value)
    | [] => if name = "json" ∨ name = "events" then .flag name else .option name
  | '-' :: _ :: _ => .shortOption
  | _ => .word

/-- Whether the token may stand as the value of the option before it. -/
def isValue (text : String) : Bool := Token.ofString text = .word

/-! ## One place of the line -/

/-- What stands in one place, before or after the command. -/
structure Place where
  definitions : Option String := none
  teams : Option String := none
  seed : Option Nat := none
  maxRounds : Option Nat := none
  json : Bool := false
  events : Bool := false
  words : List String := []
deriving DecidableEq

namespace Place

def setOption? (p : Place) (name value : String) : Option Place :=
  match name with
  | "definitions" =>
    if p.definitions = none then (path? value).map fun v => { p with definitions := some v }
    else none
  | "teams" => if p.teams = none then (path? value).map fun v => { p with teams := some v } else none
  | "seed" => if p.seed = none then (seed? value).map fun v => { p with seed := some v } else none
  | "max-rounds" =>
    if p.maxRounds = none then (rounds? value).map fun v => { p with maxRounds := some v } else none
  | _ => none

def setFlag? (p : Place) (name : String) : Option Place :=
  match name with
  | "json" => if p.json then none else some { p with json := true }
  | "events" => if p.events then none else some { p with events := true }
  | _ => none

def addWords (p : Place) (words : List String) : Place := { p with words := p.words ++ words }

/-- Reads the options before the command and leaves the line from the command on. -/
def readBefore? (p : Place) : List String → Option (Place × List String)
  | [] => some (p, [])
  | text :: rest =>
    match Token.ofString text, rest with
    | .word, rest => some (p, text :: rest)
    | .flag name, rest => (p.setFlag? name).bind (readBefore? · rest)
    | .assignment name value, rest => (p.setOption? name value).bind (readBefore? · rest)
    | .option name, value :: rest =>
      if isValue value then (p.setOption? name value).bind (readBefore? · rest) else none
    | _, _ => none

/-- Reads the options and words after the command. -/
def readAfter? (p : Place) : List String → Option Place
  | [] => some p
  | text :: rest =>
    match Token.ofString text, rest with
    | .word, rest => readAfter? (p.addWords [text]) rest
    | .separator, rest => some (p.addWords rest)
    | .flag name, rest => (p.setFlag? name).bind (readAfter? · rest)
    | .assignment name value, rest => (p.setOption? name value).bind (readAfter? · rest)
    | .option name, value :: rest =>
      if isValue value then (p.setOption? name value).bind (readAfter? · rest) else none
    | _, _ => none

end Place

/-! ## The whole line -/

def command? (name : String) (after : Place) : Option Command :=
  match name, after.words with
  | "battle", [first, second] => some (.battle first second after.events)
  | "round-robin", [] => if after.events then none else some .roundRobin
  | _, _ => none

def Arguments.parse? (line : List String) : Option Arguments := do
  let (before, rest) ← Place.readBefore? {} line
  match rest with
  | [] => none
  | name :: rest =>
    let after ← Place.readAfter? {} rest
    let command ← command? name after
    if before.events then none
    else return {
      definitions := ((after.definitions <|> before.definitions).getD "data/definitions.json")
      teams := ((after.teams <|> before.teams).getD "data/teams.json")
      seed := ((after.seed <|> before.seed).getD 0)
      maxRounds := ((after.maxRounds <|> before.maxRounds).getD 200)
      json := before.json || after.json
      command := command }

end AutoBattler.CommandLine
