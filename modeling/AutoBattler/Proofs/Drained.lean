import AutoBattler.Proofs.Recursion

/-!
# Draining the queues

The loop over the queues ends, and `drainQueues` gives what it gives: the number of passes is never
what ends it. A pass either raises an event within the budget or leaves nothing behind.
-/
namespace AutoBattler

namespace Resolve

/-- The loop over the queues, and how it ends. -/
inductive Drains (rules : Rules) : Arena → Except EngineError Unit × Arena → Prop
  | drained {s : Arena} (h : waiting s.queues = 0) : Drains rules s (.ok (), s)
  | next {s t : Arena} {r : Except EngineError Unit × Arena} (h : waiting s.queues ≠ 0)
    (hp : playForemost rules (dispatch rules) s = (.ok (), t)) (hr : Drains rules t r) :
    Drains rules s r
  | failed {s t : Arena} {e : EngineError} (h : waiting s.queues ≠ 0)
    (hp : playForemost rules (dispatch rules) s = (.error e, t)) : Drains rules s (.error e, t)

variable {rules : Rules} {raise : Raise} {s t : Arena} {queues : Sides (Queue Attack)}
  {budget spent n : Nat}

/-- What has been drained is empty. -/
theorem Drains.empties {r : Except EngineError Unit × Arena} (h : Drains rules s r)
    (hr : r.1 = .ok ()) : waiting r.2.queues = 0 := by
  induction h with
  | drained h => exact h
  | next _ _ _ ih => exact ih hr
  | failed _ _ => cases hr

/-- The loop ends in one way. -/
theorem Drains.unique {r r' : Except EngineError Unit × Arena} (h : Drains rules s r)
    (h' : Drains rules s r') : r = r' := by
  induction h with
  | drained hw =>
    cases h' with
    | drained _ => rfl
    | next hw' _ _ | failed hw' _ => exact absurd hw hw'
  | next hw hp _ ih =>
    cases h' with
    | drained hw' => exact absurd hw' hw
    | next _ hp' hr' =>
      rw [hp] at hp'
      cases hp'
      exact ih hr'
    | failed _ hp' =>
      rw [hp] at hp'
      cases hp'
  | failed hw hp =>
    cases h' with
    | drained hw' => exact absurd hw' hw
    | next _ hp' _ =>
      rw [hp] at hp'
      cases hp'
    | failed _ hp' =>
      rw [hp] at hp'
      cases hp'
      rfl

/-! ## Events are counted -/

/-- An event was raised within the budget, after so many had been. -/
def Raised (budget spent : Nat) (s : Arena) : Prop := spent < budget ∧ spent < s.dispatched

theorem blind_raised (budget spent : Nat) : Blind (Raised budget spent) := by
  rintro s t _ hd _ ⟨hb, hs⟩
  exact ⟨hb, hd ▸ hs⟩

theorem guarding_raised (rules : Rules) (budget spent : Nat) :
    Guarding rules rules (.same anyway) (Same (Raised budget spent)) where
  toRecording := (blind_raised budget spent).recording
  refuse := by
    rintro trigger s t ⟨rfl, _⟩
    exact .error ⟨rfl, trivial⟩
  count := by
    apply Triple.intro
    rintro s ⟨hb, hs⟩
    unfold countEvent
    split
    · exact ⟨hb, Nat.lt_succ_of_lt hs⟩
    · trivial
  nested m n hm := couples_nested hm (fun _ hs => hs) (fun _ _ _ => trivial) fun _ _ hs => hs

theorem elementary_raised (c : Catalog) (budget spent : Nat) :
    Elementary .all c (.same anyway) (Same (Raised budget spent)) :=
  (blind_raised budget spent).elementary (fun _ => trivial)
    (fun _ _ _ => Triple.intro fun _ hs => hs) fun _ _ _ => trivial

theorem raised_notifyAll (rules : Rules) (budget spent room : Nat) (event : Event) :
    Triple anyway (Raised budget spent)
      (notifyAll rules (dispatchIn rules room) (perform rules (dispatchIn rules room)) event)
      fun _ => Raised budget spent := by
  have elementary := elementary_raised rules.catalog budget spent
  have guarding := guarding_raised rules budget spent
  have steps : BoardSteps Scope.all rules.catalog (.same anyway) (Same (Raised budget spent)) :=
    (blind_raised budget spent).boardSteps
  have covers := Scope.covers_all rules.catalog
  have closed : Closed Scope.all := .of_all fun _ => trivial
  have telling := steps.telling elementary rfl closed fun event he =>
    keeps_dispatchIn elementary steps guarding covers closed rfl room he
  have told : Scope.all.events event := trivial
  exact keeps_notifyAll elementary telling covers rfl (acts_perform elementary telling covers rfl)
    guarding.toRecording told

/-! ## A pass that raises no event -/

/-- The queues and the number of events stand as they did, or an event was raised. -/
def QuietOr (budget : Nat) (queues : Sides (Queue Attack)) (spent : Nat) (s : Arena) : Prop :=
  s.queues = queues ∧ s.dispatched = spent ∨ Raised budget spent s

theorem blind_quietOr (budget : Nat) (queues : Sides (Queue Attack)) (spent : Nat) :
    Blind (QuietOr budget queues spent) := by
  rintro s t hn hd hq (⟨hs, hspent⟩ | hs)
  · exact .inl ⟨hq ▸ hs, hd ▸ hspent⟩
  · exact .inr (blind_raised budget spent s t hn hd hq hs)

theorem quietOr_dispatchIn (rules : Rules) (queues : Sides (Queue Attack)) (spent room : Nat)
    (event : Event) :
    Triple anyway (QuietOr rules.config.maxEvents queues spent) (dispatchIn rules room event)
      fun _ => QuietOr rules.config.maxEvents queues spent := by
  cases room with
  | zero => exact couples_fail fun _ _ hst => ⟨hst.1, trivial⟩
  | succ room =>
    have count : Triple anyway (QuietOr rules.config.maxEvents queues spent)
        (countEvent rules.config.maxEvents) fun _ => Raised rules.config.maxEvents spent := by
      apply Triple.intro
      intro s hs
      unfold countEvent
      split
      · rename_i hbelow
        rcases hs with ⟨_, rfl⟩ | ⟨hb, hd⟩
        · exact ⟨hbelow, Nat.lt_succ_self _⟩
        · exact ⟨hb, Nat.lt_succ_of_lt hd⟩
      · trivial
    refine Couples.bind count fun _ => ?_
    exact couples_nested (raised_notifyAll rules _ spent room event) (fun _ hs => hs)
      (fun _ _ _ => trivial) fun _ _ hs => .inr hs

/-- The scope in which no effect answers an event. -/
def unanswered : Scope := ⟨fun _ => False, fun _ => True, fun _ => True⟩

theorem quietOr_playAttacks (rules : Rules) (queues : Sides (Queue Attack)) (spent : Nat)
    (attacks : List Attack) :
    Triple anyway (QuietOr rules.config.maxEvents queues spent)
      (playAttacks rules (dispatch rules) attacks)
      fun _ => QuietOr rules.config.maxEvents queues spent := by
  have blind := blind_quietOr rules.config.maxEvents queues spent
  have elementary : Elementary unanswered rules.catalog (.same anyway)
      (Same (QuietOr rules.config.maxEvents queues spent)) :=
    blind.elementary (fun _ => trivial) (fun _ he => he.elim) fun _ _ _ => trivial
  have steps : BoardSteps unanswered rules.catalog (.same anyway)
      (Same (QuietOr rules.config.maxEvents queues spent)) := blind.boardSteps
  exact keeps_playAttacks elementary rfl steps.damage steps.remove
    (fun event _ => quietOr_dispatchIn rules queues spent _ event) attacks

theorem waiting_withoutForemost_le (queues : Sides (Queue Attack)) :
    waiting (withoutForemost queues) ≤ waiting queues - 1 := by
  simp only [waiting, withoutForemost, Sides.map, Queue.length_tail]
  omega

theorem quiet_or_raised_of_playForemost
    (h : playForemost rules (dispatch rules) s = (.ok (), t)) :
    waiting t.queues ≤ waiting s.queues - 1 ∧ t.dispatched = s.dispatched ∨
      Raised rules.config.maxEvents s.dispatched t := by
  have quiet := quietOr_playAttacks rules (withoutForemost s.queues) s.dispatched (foremost s.queues)
  have ends : QuietOr rules.config.maxEvents (withoutForemost s.queues) s.dispatched t :=
    quiet.ok (s := { s with queues := withoutForemost s.queues }) (.inl ⟨rfl, rfl⟩) h
  rcases ends with ⟨hq, hd⟩ | hr
  · exact .inl ⟨hq ▸ waiting_withoutForemost_le s.queues, hd⟩
  · exact .inr hr

theorem quiet_or_raised_of_playForemostTimes (h : playForemostTimes rules n s = (.ok (), t)) :
    waiting t.queues ≤ waiting s.queues - n ∧ t.dispatched = s.dispatched ∨
      Raised rules.config.maxEvents s.dispatched t := by
  induction n generalizing s with
  | zero =>
    cases h
    exact .inl ⟨Nat.le_refl _, rfl⟩
  | succ n ih =>
    rw [playForemostTimes, bind_run] at h
    split at h
    · rename_i u hu
      unfold Raised at ih ⊢
      have first := quiet_or_raised_of_playForemost hu
      have rest := ih h
      unfold Raised at first
      omega
    · cases h

/-! ## The passes are the loop -/

theorem Queue.tail_of_length {α : Type} {q : Queue α} (h : q.length = 0) :
    q.head? = none ∧ q.tail = q := by
  obtain ⟨front, back, hback⟩ := q
  obtain rfl : front = [] := List.eq_nil_of_length_eq_zero (Nat.eq_zero_of_add_eq_zero_right h)
  obtain rfl := hback rfl
  exact ⟨rfl, rfl⟩

/-- Nothing happens if nothing waits. -/
theorem playForemost_of_none (h : waiting s.queues = 0) :
    playForemost rules raise s = (.ok (), s) := by
  obtain ⟨ha, hb⟩ := Nat.add_eq_zero_iff.1 h
  obtain ⟨heada, taila⟩ := Queue.tail_of_length ha
  obtain ⟨headb, tailb⟩ := Queue.tail_of_length hb
  have none : foremost s.queues = [] := by rw [foremost, heada, headb]; rfl
  have same : withoutForemost s.queues = s.queues := by
    rw [withoutForemost, Sides.map, taila, tailb]
  unfold playForemost
  rw [none, same]
  rfl

theorem drains_of_playForemostTimes {r : Except EngineError Unit × Arena}
    (h : playForemostTimes rules n s = (.ok (), t)) (hr : Drains rules t r) : Drains rules s r := by
  induction n generalizing s with
  | zero =>
    cases h
    exact hr
  | succ n ih =>
    rw [playForemostTimes, bind_run] at h
    split at h
    · rename_i u hu
      by_cases hw : waiting s.queues = 0
      · rw [playForemost_of_none hw] at hu
        cases hu
        exact ih h
      · exact .next hw hu (ih h)
    · cases h

theorem drains_of_playForemostTimes_error {e : EngineError}
    (h : playForemostTimes rules n s = (.error e, t)) : Drains rules s (.error e, t) := by
  induction n generalizing s with
  | zero => cases h
  | succ n ih =>
    rw [playForemostTimes, bind_run] at h
    by_cases hw : waiting s.queues = 0
    · rw [playForemost_of_none hw] at h
      exact ih h
    · split at h
      · rename_i u hu
        exact .next hw hu (ih h)
      · rename_i e' u hu
        cases h
        exact .failed hw hu

theorem drainWithin_of_none (passes : Nat) (h : waiting s.queues = 0) :
    drainWithin rules passes s = (.ok (), s) := by
  cases passes with
  | zero => rfl
  | succ passes =>
    rw [drainWithin, bind_run]
    dsimp only [look]
    rw [if_pos h]
    rfl

theorem drains_drainWithin {passes : Nat} (hp : rules.config.maxEvents - s.dispatched < passes) :
    Drains rules s (drainWithin rules passes s) := by
  induction passes generalizing s with
  | zero => omega
  | succ passes ih =>
    by_cases hw : waiting s.queues = 0
    · rw [drainWithin_of_none _ hw]
      exact .drained hw
    · rw [drainWithin, bind_run]
      dsimp only [look]
      rw [if_neg hw, bind_run]
      cases hr : playForemostTimes rules (waiting s.queues) s with
      | mk r t =>
        cases r with
        | error e => exact drains_of_playForemostTimes_error hr
        | ok _ =>
          apply drains_of_playForemostTimes hr
          rcases quiet_or_raised_of_playForemostTimes hr with ⟨hq, _⟩ | ⟨hb, hd⟩
          · have none : waiting t.queues = 0 := by omega
            dsimp only
            rw [drainWithin_of_none _ none]
            exact .drained none
          · exact ih (by omega)

theorem drains_drainQueues (rules : Rules) (s : Arena) : Drains rules s (drainQueues rules s) :=
  drains_drainWithin (Nat.lt_succ_self _)

/-- Draining succeeds with empty queues only. -/
theorem waiting_of_drainQueues (h : drainQueues rules s = (.ok (), t)) : waiting t.queues = 0 := by
  have drains := drains_drainQueues rules s
  rw [h] at drains
  exact drains.empties rfl

end Resolve

end AutoBattler
