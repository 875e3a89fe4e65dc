import AutoBattler.Resolution.Cycle

/-!
# Battles

Two teams fight with copies of their pets: the start of the battle, then attack cycles until a
roster is empty or the limit on cycles is reached. A call that fails leaves the battle where it
stood.
-/
namespace AutoBattler

inductive BattleOutcome where
  | teamOneWins
  | teamTwoWins
  | draw
deriving DecidableEq

def BattleOutcome.describe : BattleOutcome → String
  | teamOneWins => "team 1 wins"
  | teamTwoWins => "team 2 wins"
  | draw => "draw"

inductive BattleState where
  | notStarted
  | running
  | finished (outcome : BattleOutcome)
deriving DecidableEq

structure Battle where
  arena : Arena
  state : BattleState
  rounds : Nat

structure BattleReport where
  outcome : BattleOutcome
  rounds : Nat
  survivors : Sides (List Pet)
  events : List EventRecord
deriving DecidableEq

namespace Battle

def ofTeams (config : EngineConfig) (teams : Sides Team) : Battle where
  arena := .open config (.ofTeams teams) none
  state := .notStarted
  rounds := 0

/-- Plays a step of the resolution within the battle. -/
def play {α : Type} (step : Resolve α) (b : Battle) : Except EngineError α × Battle :=
  ((step b.arena).1, { b with arena := (step b.arena).2 })

/-- Tells the start of the battle to side `a` and then to side `b`, and plays what they queued. -/
def opening (p : Resolve.Procedures) : Resolve Unit := do
  Resolve.forEach Side.all fun side => p.tell (.battle .startOfBattle side)
  p.drain

def startWith (p : Resolve.Procedures) (b : Battle) : Except EngineError Unit × Battle :=
  if b.state = .notStarted then
    match b.play (opening p) with
    | (.ok (), b) => (.ok (), { b with state := .running })
    | (.error e, b) => (.error e, b)
  else (.ok (), b)

/-- Does nothing once the battle has started. -/
def start (rules : Rules) (b : Battle) : Except EngineError Unit × Battle :=
  b.startWith (Resolve.procedures rules)

/-- The outcome once a roster is empty. -/
def decided? (board : Board) : Option BattleOutcome :=
  match (board.roster .a).isEmpty, (board.roster .b).isEmpty with
  | true, true => some .draw
  | false, true => some .teamOneWins
  | true, false => some .teamTwoWins
  | false, false => none

def finish (outcome : BattleOutcome) (b : Battle) : Except EngineError BattleState × Battle :=
  (.ok (.finished outcome), { b with state := .finished outcome })

/-- One attack cycle of a battle that has started, or its end. -/
def advanceWith (rules : Rules) (p : Resolve.Procedures) (b : Battle) :
    Except EngineError BattleState × Battle :=
  match decided? b.arena.board with
  | some outcome => b.finish outcome
  | none =>
    if rules.config.maxRounds ≤ b.rounds then b.finish .draw
    else
      match play (Resolve.attackCycle rules p) { b with rounds := b.rounds + 1 } with
      | (.ok (), b) => (.ok b.state, b)
      | (.error e, b) => (.error e, b)

def stepWith (rules : Rules) (p : Resolve.Procedures) (b : Battle) :
    Except EngineError BattleState × Battle :=
  match b.state with
  | .finished outcome => (.ok (.finished outcome), b)
  | _ =>
    match b.startWith p with
    | (.ok (), b) => b.advanceWith rules p
    | (.error e, b) => (.error e, b)

/-- Starts the battle if need be and plays one attack cycle. A finished battle stays as it is. -/
def step (rules : Rules) (b : Battle) : Except EngineError BattleState × Battle :=
  b.stepWith rules (Resolve.procedures rules)

def report (outcome : BattleOutcome) (b : Battle) : BattleReport where
  outcome := outcome
  rounds := b.rounds
  survivors := .tabulate b.arena.board.livePets
  events := b.arena.log.records.toList

/-! ## Playing to the end -/

theorem start_rounds (rules : Rules) (b : Battle) : (b.start rules).2.rounds = b.rounds := by
  unfold start startWith
  split
  · split <;> rename_i h <;> exact congrArg (fun r => r.2.rounds) h.symm
  · rfl

/-- A step after which the battle goes on has played one more round within the limit. -/
theorem rounds_of_step {rules : Rules} {b b' : Battle} {state : BattleState}
    (h : b.step rules = (.ok state, b')) (hs : ∀ outcome, state ≠ .finished outcome) :
    b'.rounds = b.rounds + 1 ∧ b.rounds < rules.config.maxRounds := by
  unfold step stepWith at h
  split at h
  · cases h
    exact absurd rfl (hs _)
  · split at h
    · rename_i b₁ h₁
      have hr : b₁.rounds = b.rounds := by
        have := start_rounds rules b
        rw [start, h₁] at this
        exact this
      unfold advanceWith at h
      split at h
      · cases h
        exact absurd rfl (hs _)
      · split at h
        · cases h
          exact absurd rfl (hs _)
        · rename_i hlt
          split at h
          · rename_i b₂ h₂
            cases h
            have : b'.rounds = b₁.rounds + 1 := congrArg (fun r => r.2.rounds) h₂.symm
            exact ⟨by omega, by omega⟩
          · cases h
    · cases h

/-- Plays the battle to its end. -/
def finishFrom (rules : Rules) (b : Battle) : Except EngineError BattleReport × Battle :=
  match _ : b.step rules with
  | (.error e, b') => (.error e, b')
  | (.ok (.finished outcome), b') => (.ok (b'.report outcome), b')
  | (.ok .notStarted, b') => finishFrom rules b'
  | (.ok .running, b') => finishFrom rules b'
termination_by rules.config.maxRounds - b.rounds
decreasing_by
  · rename_i h
    have := rounds_of_step h (fun _ => nofun)
    omega
  · rename_i h
    have := rounds_of_step h (fun _ => nofun)
    omega

def run (rules : Rules) (b : Battle) : Except EngineError BattleReport := (b.finishFrom rules).1

/-- The battle of two teams under the seed and limits of the rules. -/
def fight (rules : Rules) (teams : Sides Team) : Except EngineError BattleReport :=
  (ofTeams rules.config teams).run rules

end Battle

/-- Lets the teams fight and then ends the battle for both. If the battle fails the teams stay as
they are. -/
def runBattle (rules : Rules) (teams : Sides Team) : Except EngineError BattleOutcome × Sides Team :=
  match Battle.fight rules teams with
  | .ok report => (.ok report.outcome, teams.map Team.endOfBattle)
  | .error e => (.error e, teams)

end AutoBattler
