import AutoBattler.Proofs.Settings

/-!
# Outcomes

A battle is over as soon as a roster is empty or no further round is allowed, and then nothing
changes any more. Which outcome it has can be read off what is left of both lines and the number
of rounds, whatever calls led there and however they ended.
-/
namespace AutoBattler

variable {α β : Type}

/-- What an outcome says about the two lines after so many rounds. -/
def BattleOutcome.Fits (maxRounds rounds : Nat) (left : Sides (List α)) : BattleOutcome → Prop
  | teamOneWins => left.a ≠ [] ∧ left.b = []
  | teamTwoWins => left.a = [] ∧ left.b ≠ []
  | draw => left.a = [] ∧ left.b = [] ∨ left.a ≠ [] ∧ left.b ≠ [] ∧ rounds = maxRounds

namespace BattleOutcome

variable {outcome outcome' : BattleOutcome} {maxRounds rounds : Nat} {left : Sides (List α)}
  {left' : Sides (List β)}

/-- No two outcomes fit the same end. -/
theorem Fits.unique (h : outcome.Fits maxRounds rounds left)
    (h' : outcome'.Fits maxRounds rounds left) : outcome = outcome' := by
  unfold Fits at h h'
  cases outcome <;> cases outcome' <;> simp_all

/-- Only which lines are empty counts. -/
theorem fits_congr (h : ∀ side, left.get side = [] ↔ left'.get side = []) :
    outcome.Fits maxRounds rounds left ↔ outcome.Fits maxRounds rounds left' := by
  have ha : left.a = [] ↔ left'.a = [] := h .a
  have hb : left.b = [] ↔ left'.b = [] := h .b
  cases outcome <;> simp only [Fits, ne_eq, ha, hb]

end BattleOutcome

theorem Board.WellFormed.livePets_eq_nil_iff {b : Board} (h : b.WellFormed) (side : Side) :
    b.livePets side = [] ↔ b.roster side = [] := by
  refine ⟨fun hnil => ?_, fun hnil => ?_⟩
  · by_contra hne
    exact h.livePets_ne_nil hne hnil
  · unfold Board.livePets
    rw [hnil, List.filterMap_nil]

namespace Battle

variable {rules : Rules} {teams : Sides Team} {b b' : Battle} {outcome : BattleOutcome}

theorem fits_of_decided? {board : Board} (h : decided? board = some outcome)
    (maxRounds rounds : Nat) : outcome.Fits maxRounds rounds board.lines := by
  unfold decided? at h
  split at h <;> rename_i ha hb <;> cases h <;> rw [List.isEmpty_iff] at * <;>
    simp_all [BattleOutcome.Fits, Board.lines, Board.roster, Sides.map, Sides.get]

theorem fits_draw_of_undecided {board : Board} (h : decided? board = none) (rounds : Nat) :
    BattleOutcome.draw.Fits rounds rounds board.lines :=
  .inr ⟨roster_ne_nil h .a, roster_ne_nil h .b, rfl⟩

/-! ## What every call keeps -/

/-- The rounds are within the limit, and the outcome, if there is one, is the right one. -/
structure Orderly (maxRounds : Nat) (b : Battle) : Prop where
  rounds : b.rounds ≤ maxRounds
  outcome : ∀ outcome, b.state = .finished outcome →
    outcome.Fits maxRounds b.rounds b.arena.board.lines

variable {p : Resolve.Procedures} {maxRounds : Nat}

/-- Starting plays no round and never ends a battle. -/
theorem startWith_changes (p : Resolve.Procedures) (b : Battle) :
    (b.startWith p).2.rounds = b.rounds ∧
      ∀ outcome, (b.startWith p).2.state = .finished outcome → (b.startWith p).2 = b := by
  unfold startWith play
  split
  · rename_i hnew
    generalize opening p b.arena = r
    obtain ⟨r, s⟩ := r
    cases r with
    | ok _ => exact ⟨rfl, nofun⟩
    | error e =>
      refine ⟨rfl, fun outcome hf => ?_⟩
      rw [show b.state = .finished outcome from hf] at hnew
      cases hnew
  · exact ⟨rfl, fun _ _ => rfl⟩

theorem Orderly.start (h : Orderly maxRounds b) : Orderly maxRounds (b.startWith p).2 := by
  obtain ⟨hrounds, hsame⟩ := startWith_changes p b
  refine ⟨hrounds ▸ h.rounds, fun outcome hf => ?_⟩
  have hb := hsame outcome hf
  rw [hb] at hf ⊢
  exact h.outcome outcome hf

/-- The outcome is settled before a cycle is played, on the lines and rounds as they are then. -/
theorem Orderly.advance (h : Orderly rules.config.maxRounds b)
    (hu : ∀ outcome, b.state ≠ .finished outcome) :
    Orderly rules.config.maxRounds (b.advanceWith rules p).2 := by
  have finish (outcome : BattleOutcome)
      (hfits : outcome.Fits rules.config.maxRounds b.rounds b.arena.board.lines) :
      Orderly rules.config.maxRounds (b.finish outcome).2 := by
    refine ⟨h.rounds, fun outcome' hf => ?_⟩
    cases hf
    exact hfits
  unfold advanceWith
  split
  · rename_i outcome hdecided
    exact finish outcome (fits_of_decided? hdecided _ _)
  · rename_i hundecided
    split
    · rename_i hlimit
      have hlast := Nat.le_antisymm h.rounds hlimit
      rw [hlast] at finish
      exact finish .draw (fits_draw_of_undecided hundecided _)
    · rename_i hlimit
      have cycled (s : Arena) : Orderly rules.config.maxRounds ⟨s, b.state, b.rounds + 1⟩ :=
        ⟨Nat.not_le.1 hlimit, fun outcome hf => absurd hf (hu outcome)⟩
      unfold play
      generalize Resolve.attackCycle rules p b.arena = r
      obtain ⟨r, s⟩ := r
      cases r with
      | ok _ => exact cycled s
      | error e => exact cycled s

theorem Orderly.step (h : Orderly rules.config.maxRounds b) :
    Orderly rules.config.maxRounds (b.step rules).2 := by
  unfold Battle.step stepWith
  split
  · exact h
  · rename_i hu
    have started := h.start (p := Resolve.procedures rules)
    have hsame := (startWith_changes (Resolve.procedures rules) b).2
    generalize b.startWith (Resolve.procedures rules) = r at started hsame
    obtain ⟨r, b'⟩ := r
    cases r with
    | error e => exact started
    | ok _ =>
      refine started.advance fun outcome hf => ?_
      have hb : b' = b := hsame outcome hf
      exact hu outcome (hb ▸ hf)

theorem orderly_of_reachable (h : Reachable rules teams b) : Orderly rules.config.maxRounds b := by
  induction h with
  | new => exact ⟨Nat.zero_le _, nofun⟩
  | start _ ih => exact ih.start
  | step _ ih => exact ih.step

/-! ## Reports -/

theorem state_of_advanceWith {state : BattleState}
    (h : b.advanceWith rules p = (.ok state, b')) : b'.state = state := by
  unfold advanceWith finish at h
  split at h
  · cases h
    rfl
  · split at h
    · cases h
      rfl
    · split at h <;> cases h
      rfl

/-- A step gives the state that it leaves the battle in. -/
theorem state_of_step {state : BattleState} (h : b.step rules = (.ok state, b')) :
    b'.state = state := by
  unfold step stepWith at h
  split at h
  · rename_i outcome hf
    cases h
    exact hf
  · split at h
    · exact state_of_advanceWith h
    · cases h

/-- A report is that of a finished battle. -/
theorem finished_of_run {report : BattleReport} (h : Reachable rules teams b)
    (hr : b.run rules = .ok report) :
    ∃ b' outcome, Reachable rules teams b' ∧ b'.state = .finished outcome ∧
      report = b'.report outcome := by
  unfold run at hr
  fun_induction finishFrom rules b with
  | case1 b e b₁ hs => cases hr
  | case2 b outcome b₁ hs =>
    have reached := h.step
    rw [hs] at reached
    cases hr
    exact ⟨b₁, outcome, reached, state_of_step hs, rfl⟩
  | case3 b b₁ hs ih | case4 b b₁ hs ih =>
    have reached := h.step
    rw [hs] at reached
    exact ih reached hr

/-- The survivors of a report tell of the same lines as the rosters. -/
theorem fits_survivors (h : b.arena.board.WellFormed)
    (hf : outcome.Fits maxRounds b.rounds b.arena.board.lines) :
    outcome.Fits maxRounds (b.report outcome).rounds (b.report outcome).survivors := by
  refine (BattleOutcome.fits_congr fun side => ?_).1 hf
  rw [report, Sides.get_tabulate, h.livePets_eq_nil_iff]
  unfold Board.lines
  rw [Sides.get_map]
  rfl

/-- Whatever calls were made and however they ended, no more rounds have been played than allowed,
and a finished battle stays as it is, with an outcome that fits its lines and rounds. Of a battle
played to its end the outcome is the only one that fits the survivors and the rounds. -/
theorem outcome_follows_from_lines (h : Reachable rules teams b) :
    b.rounds ≤ rules.config.maxRounds ∧
      (∀ outcome, b.state = .finished outcome →
        b.start rules = (.ok (), b) ∧ b.step rules = (.ok (.finished outcome), b) ∧
          outcome.Fits rules.config.maxRounds b.rounds b.arena.board.lines) ∧
      ∀ report, b.run rules = .ok report → report.rounds ≤ rules.config.maxRounds ∧
        ∀ outcome, report.outcome = outcome ↔
          outcome.Fits rules.config.maxRounds report.rounds report.survivors := by
  have orderly := orderly_of_reachable h
  refine ⟨orderly.rounds, fun outcome hf => ⟨?_, ?_, orderly.outcome outcome hf⟩, ?_⟩
  · unfold start startWith
    rw [if_neg (by rw [hf]; exact nofun)]
  · unfold step stepWith
    split
    · rename_i outcome' hf'
      rw [hf] at hf'
      cases hf'
      rfl
    · rename_i hu
      exact absurd hf (hu outcome)
  · intro report hr
    obtain ⟨b', outcome, reached, hf, rfl⟩ := finished_of_run h hr
    have orderly' := orderly_of_reachable reached
    have fits := fits_survivors (wellFormed_of_reachable reached) (orderly'.outcome outcome hf)
    refine ⟨orderly'.rounds, fun outcome' => ⟨fun he => ?_, fun fits' => fits.unique fits'⟩⟩
    cases he
    exact fits

/-- The hippo's line has won after the one round that is allowed, and the battle is over. -/
theorem outcome_follows_from_lines_rescue :
    Reachable tightRules (rescueTeams callAnt healSelf) tightEnd.2 ∧
      tightEnd.2.state = .finished .teamOneWins ∧ tightEnd.2.rounds = 1 ∧
      tightEnd.2.step tightRules = (.ok (.finished .teamOneWins), tightEnd.2) ∧
      BattleOutcome.teamOneWins.Fits 1 1 tightEnd.2.arena.board.lines := by
  have reached : Reachable tightRules (rescueTeams callAnt healSelf) tightEnd.2 :=
    .step (.step .new)
  have finished : tightEnd.2.state = .finished .teamOneWins := by decide +kernel
  have rounds : tightEnd.2.rounds = 1 := by decide +kernel
  obtain ⟨_, settled, _⟩ := outcome_follows_from_lines reached
  obtain ⟨_, stays, fits⟩ := settled .teamOneWins finished
  rw [rounds] at fits
  exact ⟨reached, finished, rounds, stays, fits⟩

end Battle

end AutoBattler
