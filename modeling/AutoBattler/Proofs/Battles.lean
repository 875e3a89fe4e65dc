import AutoBattler.Battle
import AutoBattler.Proofs.Cycles
import Mathlib.Logic.Function.Iterate

/-!
# Calls of a battle

A battle changes by `start` and `step` only. A property of the arena that the opening and the
attack cycle keep holds after every sequence of calls; if failures need not keep it, after every
sequence of calls that succeeded.
-/
namespace AutoBattler

open Resolve (Triple procedures)

namespace Battle

variable {rules : Rules} {teams : Sides Team} {α : Type} {b b' : Battle}
  {E : EngineError → Arena → Prop} {I : Arena → Prop}

/-- The battles that calls lead to, whatever they give. -/
inductive Reachable (rules : Rules) (teams : Sides Team) : Battle → Prop
  | new : Reachable rules teams (ofTeams rules.config teams)
  | start {b : Battle} (h : Reachable rules teams b) : Reachable rules teams (b.start rules).2
  | step {b : Battle} (h : Reachable rules teams b) : Reachable rules teams (b.step rules).2

/-- The battles that calls lead to, all of which succeeded. -/
inductive Sound (rules : Rules) (teams : Sides Team) : Battle → Prop
  | new : Sound rules teams (ofTeams rules.config teams)
  | start {b b' : Battle} (h : Sound rules teams b) (hs : b.start rules = (.ok (), b')) :
    Sound rules teams b'
  | step {b b' : Battle} {state : BattleState} (h : Sound rules teams b)
    (hs : b.step rules = (.ok state, b')) : Sound rules teams b'

/-- The battle that calls lead to from another one, all of which succeeded. -/
inductive Continues (rules : Rules) (b : Battle) : Battle → Prop
  | refl : Continues rules b b
  | start {b' b'' : Battle} (h : Continues rules b b') (hs : b'.start rules = (.ok (), b'')) :
    Continues rules b b''
  | step {b' b'' : Battle} {state : BattleState} (h : Continues rules b b')
    (hs : b'.step rules = (.ok state, b'')) : Continues rules b b''

theorem Sound.played {state : BattleState} (h : Sound rules teams b)
    (hs : (b.step rules).1 = .ok state) : Sound rules teams (b.step rules).2 :=
  .step h (Prod.ext hs rfl)

theorem Sound.reachable (h : Sound rules teams b) : Reachable rules teams b := by
  induction h with
  | new => exact .new
  | start _ hs ih =>
    have hr := Reachable.start ih
    rwa [hs] at hr
  | step _ hs ih =>
    have hr := Reachable.step ih
    rwa [hs] at hr

/-! ## What the calls keep -/

theorem keeps_opening (hplay : Resolve.PlaysPairs rules E I)
    (hpop : ∀ s, I s → I { s with queues := Resolve.withoutForemost s.queues })
    (htell : ∀ side, Triple E I (Resolve.dispatch rules (.battle .startOfBattle side))
      fun _ => I) :
    Triple E I (opening (procedures rules)) fun _ => I := by
  unfold opening
  refine Resolve.Couples.bind (Resolve.keeps_forEach _ fun side _ => htell side) fun _ => ?_
  exact Resolve.keeps_drainQueues hplay hpop

/-- How a call ends. -/
def Ends (E : EngineError → Arena → Prop) (I : Arena → Prop) : Except EngineError α × Battle → Prop
  | (.ok _, b) => I b.arena
  | (.error e, b) => E e b.arena

theorem Ends.ok {r : Except EngineError α × Battle} {x : α} (h : Ends E I r) (hr : r = (.ok x, b)) :
    I b.arena := by
  subst hr
  exact h

theorem Ends.error {r : Except EngineError α × Battle} {e : EngineError} (h : Ends E I r)
    (hr : r = (.error e, b)) : E e b.arena := by
  subst hr
  exact h

theorem ends_play {m : Resolve α} (hm : Triple E I m fun _ => I) (h : I b.arena) :
    Ends E I (b.play m) := by
  have he := Resolve.triple_iff.1 hm b.arena h
  unfold play
  generalize m b.arena = r at he
  obtain ⟨r, s⟩ := r
  cases r with
  | ok x => exact he
  | error e => exact he

theorem ends_start (hopen : Triple E I (opening (procedures rules)) fun _ => I) (h : I b.arena) :
    Ends E I (b.start rules) := by
  unfold start startWith
  split
  · have he := ends_play hopen h
    split
    · rename_i hp
      have hi := he.ok hp
      exact hi
    · rename_i hp
      exact he.error hp
  · exact h

theorem ends_advanceWith (hcycle : Triple E I (Resolve.attackCycle rules (procedures rules)) fun _ => I)
    (h : I b.arena) : Ends E I (b.advanceWith rules (procedures rules)) := by
  unfold advanceWith
  split
  · exact h
  · split
    · exact h
    · have he := ends_play (b := { b with rounds := b.rounds + 1 }) hcycle h
      split
      · rename_i hp
        exact he.ok hp
      · rename_i hp
        exact he.error hp

theorem ends_step (hopen : Triple E I (opening (procedures rules)) fun _ => I)
    (hcycle : Triple E I (Resolve.attackCycle rules (procedures rules)) fun _ => I) (h : I b.arena) :
    Ends E I (b.step rules) := by
  unfold step stepWith
  split
  · exact h
  · have he := ends_start hopen h
    split
    · rename_i hs
      exact ends_advanceWith hcycle (he.ok hs)
    · rename_i hs
      exact he.error hs

theorem Sound.induct (hopen : Triple E I (opening (procedures rules)) fun _ => I)
    (hcycle : Triple E I (Resolve.attackCycle rules (procedures rules)) fun _ => I)
    (hnew : I (ofTeams rules.config teams).arena) (h : Sound rules teams b) : I b.arena := by
  induction h with
  | new => exact hnew
  | start _ hs ih => exact (ends_start hopen ih).ok hs
  | step _ hs ih => exact (ends_step hopen hcycle ih).ok hs

theorem Continues.induct (hopen : Triple E I (opening (procedures rules)) fun _ => I)
    (hcycle : Triple E I (Resolve.attackCycle rules (procedures rules)) fun _ => I)
    (hb : I b.arena) (h : Continues rules b b') : I b'.arena := by
  induction h with
  | refl => exact hb
  | start _ hs ih => exact (ends_start hopen ih).ok hs
  | step _ hs ih => exact (ends_step hopen hcycle ih).ok hs

theorem Reachable.induct (hopen : Triple E I (opening (procedures rules)) fun _ => I)
    (hcycle : Triple E I (Resolve.attackCycle rules (procedures rules)) fun _ => I)
    (hnew : I (ofTeams rules.config teams).arena) (hE : ∀ e s, E e s → I s)
    (h : Reachable rules teams b) : I b.arena := by
  have after {β : Type} {r : Except EngineError β × Battle} (hr : Ends E I r) : I r.2.arena := by
    obtain ⟨r, b⟩ := r
    cases r with
    | ok x => exact hr
    | error e => exact hE _ _ hr
  induction h with
  | new => exact hnew
  | start _ ih => exact after (ends_start hopen ih)
  | step _ ih => exact after (ends_step hopen hcycle ih)

/-! ## Playing to the end -/

theorem finishFrom_of_error {e : EngineError} (h : b.step rules = (.error e, b')) :
    b.finishFrom rules = (.error e, b') := by
  rw [finishFrom]
  split <;> rename_i hs <;> rw [h] at hs <;> cases hs
  rfl

theorem finishFrom_of_finished {outcome : BattleOutcome}
    (h : b.step rules = (.ok (.finished outcome), b')) :
    b.finishFrom rules = (.ok (b'.report outcome), b') := by
  rw [finishFrom]
  split <;> rename_i hs <;> rw [h] at hs <;> cases hs
  rfl

theorem finishFrom_of_unfinished {state : BattleState} (h : b.step rules = (.ok state, b'))
    (hu : state = .notStarted ∨ state = .running) :
    b.finishFrom rules = b'.finishFrom rules := by
  rw [finishFrom]
  split <;> rename_i hs <;> rw [h] at hs <;> cases hs
  · rcases hu with hu | hu <;> cases hu
  · rfl
  · rfl

theorem Reachable.finishFrom (h : Reachable rules teams b) :
    Reachable rules teams (b.finishFrom rules).2 := by
  fun_induction Battle.finishFrom rules b with
  | case1 b e b₁ hs | case2 b outcome b₁ hs =>
    have hr := h.step
    rwa [hs] at hr
  | case3 b b₁ hs ih | case4 b b₁ hs ih =>
    have hr := h.step
    rw [hs] at hr
    exact ih hr

/-- Playing a battle to its end is making steps. -/
theorem finishFrom_eq_steps (rules : Rules) (b : Battle) :
    ∃ n, (b.finishFrom rules).2 = (fun b : Battle => (b.step rules).2)^[n] b := by
  fun_induction Battle.finishFrom rules b with
  | case1 b e b₁ hs | case2 b outcome b₁ hs => exact ⟨1, by rw [Function.iterate_succ_apply, hs]; rfl⟩
  | case3 b b₁ hs ih | case4 b b₁ hs ih =>
    obtain ⟨n, hn⟩ := ih
    exact ⟨n + 1, by rw [hn, Function.iterate_succ_apply, hs]⟩

/-- A battle played to its end fails in one of its steps. -/
theorem error_of_finishFrom {e : EngineError} (h : Reachable rules teams b)
    (hf : b.finishFrom rules = (.error e, b')) :
    ∃ b₁, Reachable rules teams b₁ ∧ b₁.step rules = (.error e, b') := by
  fun_induction finishFrom rules b with
  | case1 b e' b₁ hs =>
    cases hf
    exact ⟨b, h, hs⟩
  | case2 b outcome b₁ hs => cases hf
  | case3 b b₁ hs ih =>
    have hr := h.step
    rw [hs] at hr
    exact ih hr hf
  | case4 b b₁ hs ih =>
    have hr := h.step
    rw [hs] at hr
    exact ih hr hf

end Battle

end AutoBattler
