import AutoBattler.Proofs.Walking
import AutoBattler.Resolution.Cycle

/-!
# Cycles step by step

What the attacks of at most two sides and the removal of queued attacks keep is kept by draining
the queues and by a whole cycle.
-/
namespace AutoBattler

namespace Resolve

variable {rules : Rules} {E : EngineError → Arena → Prop} {I : Arena → Prop}

/-- The attacks that are played together are at most two and keep the property. -/
def PlaysPairs (rules : Rules) (E : EngineError → Arena → Prop) (I : Arena → Prop) : Prop :=
  ∀ attacks : List Attack, attacks.length ≤ 2 →
    Triple E I (playAttacks rules (dispatch rules) attacks) fun _ => I

theorem length_foremost_le (queues : Sides (Queue Attack)) : (foremost queues).length ≤ 2 := by
  unfold foremost
  cases queues.a.head? <;> cases queues.b.head? <;> simp

theorem keeps_playForemost (hplay : PlaysPairs rules E I)
    (hpop : ∀ s, I s → I { s with queues := withoutForemost s.queues }) :
    Triple E I (playForemost rules (dispatch rules)) fun _ => I := by
  apply Triple.intro
  intro s hs
  exact triple_iff.1 (hplay _ (length_foremost_le s.queues)) _ (hpop s hs)

/-! ## Draining by the step that it repeats -/

def timesBy (step : Resolve Unit) : Nat → Resolve Unit
  | 0 => pure ()
  | n + 1 => do
    step
    timesBy step n

def drainWithinBy (step : Resolve Unit) : (passes : Nat) → Resolve Unit
  | 0 => pure ()
  | passes + 1 => do
    let n ← look fun s => waiting s.queues
    if n = 0 then pure ()
    else do
      timesBy step n
      drainWithinBy step passes

/-- Draining the queues by a step that takes the foremost attacks in some way. -/
def drainBy (rules : Rules) (step : Resolve Unit) : Resolve Unit := do
  let spent ← look (·.dispatched)
  drainWithinBy step (rules.config.maxEvents - spent + 1)

theorem drainQueues_eq (rules : Rules) :
    drainQueues rules = drainBy rules (playForemost rules (dispatch rules)) := by
  have times (n : Nat) :
      playForemostTimes rules n = timesBy (playForemost rules (dispatch rules)) n := by
    induction n with
    | zero => rfl
    | succ n ih =>
      unfold playForemostTimes timesBy
      rw [ih]
  have passing (passes : Nat) :
      drainWithin rules passes = drainWithinBy (playForemost rules (dispatch rules)) passes := by
    induction passes with
    | zero => rfl
    | succ passes ih =>
      unfold drainWithin drainWithinBy
      simp only [times, ih]
  unfold drainQueues drainBy
  simp only [passing]

/-- What the step keeps is kept by draining, if the arenas agree on what waits and on how many
events were told. -/
theorem keeps_drainBy {V : Verdict} {R : Arena → Arena → Prop} {step step' : Resolve Unit}
    (hq : ∀ s t, R s t → s.queues = t.queues) (hd : ∀ s t, R s t → s.dispatched = t.dispatched)
    (h : Keeps V R step step') : Keeps V R (drainBy rules step) (drainBy rules step') := by
  have times (n : Nat) : Keeps V R (timesBy step n) (timesBy step' n) := by
    induction n with
    | zero => exact keeps_pure _
    | succ n ih => exact Couples.bind h fun _ => ih
  have passing (passes : Nat) :
      Keeps V R (drainWithinBy step passes) (drainWithinBy step' passes) := by
    induction passes with
    | zero => exact keeps_pure _
    | succ passes ih =>
      have counted : Keeps V R (look fun s => waiting s.queues) (look fun s => waiting s.queues) :=
        couples_look fun s t hst => ⟨by rw [hq s t hst], hst⟩
      refine Couples.bind counted fun n => ?_
      split
      · exact keeps_pure _
      · exact Couples.bind (times n) fun _ => ih
  have spent : Keeps V R (look (·.dispatched)) (look (·.dispatched)) :=
    couples_look fun s t hst => ⟨hd s t hst, hst⟩
  exact Couples.bind spent fun n => passing _

/-- What is kept by playing the foremost attacks, whichever wait. -/
theorem keeps_drainQueues_of_foremost
    (hpair : Triple E I (playForemost rules (dispatch rules)) fun _ => I) :
    Triple E I (drainQueues rules) fun _ => I := by
  rw [drainQueues_eq]
  exact keeps_drainBy (fun _ _ hst => congrArg Arena.queues hst.1)
    (fun _ _ hst => congrArg Arena.dispatched hst.1) hpair

theorem keeps_drainQueues (hplay : PlaysPairs rules E I)
    (hpop : ∀ s, I s → I { s with queues := withoutForemost s.queues }) :
    Triple E I (drainQueues rules) fun _ => I :=
  keeps_drainQueues_of_foremost (keeps_playForemost hplay hpop)

theorem keeps_attackCycle (hplay : PlaysPairs rules E I)
    (hpop : ∀ s, I s → I { s with queues := withoutForemost s.queues }) :
    Triple E I (attackCycle rules (procedures rules)) fun _ => I := by
  unfold attackCycle
  refine Couples.bind (Q := fun _ => Same I) (Triple.intro fun _ hs => hs) fun b => ?_
  have htwo : (Side.all.filterMap (primaryAttack? b)).length ≤ 2 :=
    List.length_filterMap_le _ Side.all
  exact Couples.bind (hplay _ htwo) fun _ => keeps_drainQueues hplay hpop

end Resolve

end AutoBattler
