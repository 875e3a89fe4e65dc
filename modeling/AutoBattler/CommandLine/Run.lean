import AutoBattler.Codec.State
import AutoBattler.CommandLine.Arguments
import AutoBattler.Json.Writer
import AutoBattler.Roster

/-!
# Running a command

Reads the definitions and the rosters, plays one battle or a round robin, and prints the result as
text or as JSON. How a file is read is a parameter.
-/
namespace AutoBattler.CommandLine

/-- What a run prints and returns. -/
structure Outcome where
  code : Nat
  stdout : String
  stderr : String
deriving DecidableEq

/-- The context of a failure and, after a blank line, its cause. -/
def failureText (f : Failure) : String :=
  match f.cause with
  | some cause => f.context ++ "\n\nCaused by:\n    " ++ "\n    ".intercalate (cause.splitOn "\n")
  | none => f.context

def Outcome.ofResult : Except Failure String → Outcome
  | .ok text => ⟨0, text, ""⟩
  | .error f => ⟨1, "", s!"Error: {failureText f}\n"⟩

def Outcome.usage : Outcome :=
  ⟨2, "", "error: usage: [OPTIONS] battle FIRST SECOND [--events] | [OPTIONS] round-robin\n"⟩

/-! ## Text -/

def padRight (width : Nat) (s : String) : String :=
  s ++ String.ofList (List.replicate (width - s.length) ' ')

def padLeft (width : Nat) (s : String) : String :=
  String.ofList (List.replicate (width - s.length) ' ') ++ s

def idText (id : PetId) : String := s!"PetId({id.number})"

def eventLine (r : EventRecord) : String :=
  let source := match r.source with
    | some id => toString id.number
    | none => "-"
  let notified := ", ".intercalate (r.notified.map idText)
  padLeft (2 * r.depth) "" ++ s!"{r.trigger.name} on {r.side.name} from {source} -> [{notified}]\n"

def survivorLine (name : String) (pets : List Pet) : String :=
  s!"  {name}: [{Pet.describeAll pets}]\n"

def battleText (first second : String) (r : BattleReport) : String :=
  String.join (r.events.map eventLine)
    ++ s!"{first} vs {second}: {r.outcome.describe} after {r.rounds} rounds\n"
    ++ survivorLine first r.survivors.a ++ survivorLine second r.survivors.b

def tableLine (name wins draws losses points : String) : String :=
  " ".intercalate [padRight 12 name, padLeft 3 wins, padLeft 3 draws, padLeft 3 losses,
    padLeft 4 points] ++ "\n"

def standingLine (rosters : List Roster) (s : Standing) : String :=
  let name := match rosters[s.team]? with
    | some roster => roster.name
    | none => ""
  tableLine name (toString s.wins) (toString s.draws) (toString s.losses) (toString s.points)

def tableText (rosters : List Roster) (standings : List Standing) : String :=
  tableLine "team" "W" "D" "L" "pts" ++ String.join (standings.map (standingLine rosters))

def jsonText (j : Json) : String := j.renderIndented ++ "\n"

/-! ## Commands -/

def rules (c : Catalog) (args : Arguments) (events : Bool) : Rules where
  catalog := c
  config := { seed := args.seed, maxRounds := args.maxRounds, recordEvents := events }

def aborted (what : String) (e : EngineError) : Failure := ⟨s!"{what} aborted", some e.message⟩

def runBattle (c : Catalog) (rosters : List Roster) (args : Arguments) (first second : String)
    (events : Bool) : Except Failure String := do
  let a ← (← Roster.find rosters first).build c
  let b ← (← Roster.find rosters second).build c
  let report ← (Battle.fight (rules c args events) ⟨a, b⟩).mapError (aborted "Battle")
  return if args.json then jsonText report.toJson else battleText first second report

def runRoundRobin (c : Catalog) (rosters : List Roster) (args : Arguments) :
    Except Failure String := do
  let teams ← rosters.mapM (Roster.build c)
  let standings ←
    (Tournament.roundRobin (rules c args false) teams).mapError (aborted "Round robin")
  return if args.json then jsonText (Json.ofList Standing.toJson standings)
    else tableText rosters standings

def runCommand (c : Catalog) (rosters : List Roster) (args : Arguments) : Except Failure String :=
  match args.command with
  | .battle first second events => runBattle c rosters args first second events
  | .roundRobin => runRoundRobin c rosters args

/-! ## Files -/

def catalogOf (path : String) (text : Option String) : Except Failure Catalog :=
  match text with
  | none => .error ⟨s!"Failed to read definitions: {path}", some "the file cannot be read"⟩
  | some text =>
    (Catalog.ofText text).mapError fun e =>
      ⟨s!"Failed to parse definitions: {path}", some e.message⟩

def rostersOf (path : String) (text : Option String) : Except Failure (List Roster) :=
  match text with
  | none => .error ⟨s!"Failed to read rosters: {path}", some "the file cannot be read"⟩
  | some text =>
    match Roster.ofText? text with
    | some rosters => .ok rosters
    | none => .error ⟨s!"Failed to parse rosters: {path}", some "invalid roster data"⟩

/-- Runs a command line. The rosters are read only once the definitions are found to be good. -/
def run {m : Type → Type} [Monad m] (readFile : String → m (Option String)) (line : List String) :
    m Outcome := do
  match Arguments.parse? line with
  | none => return .usage
  | some args =>
    match catalogOf args.definitions (← readFile args.definitions) with
    | .error f => return .ofResult (.error f)
    | .ok catalog =>
      match rostersOf args.teams (← readFile args.teams) with
      | .error f => return .ofResult (.error f)
      | .ok rosters => return .ofResult (runCommand catalog rosters args)

end AutoBattler.CommandLine
