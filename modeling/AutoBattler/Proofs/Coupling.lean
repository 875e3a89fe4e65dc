import AutoBattler.Resolution.Arena

/-!
# Comparing resolutions

Two steps are compared from arenas that stand in a relation. Either both succeed with the same
value, in arenas that again stand in a relation, or both fail with the same error, or the first
fails in a way after which nothing is said of the second. A property of one step is the comparison
of the step with itself.
-/
namespace AutoBattler

namespace Resolve

variable {α β : Type}

structure Verdict where
  /-- What holds of the arenas of two steps that fail with the same error. -/
  together : EngineError → Arena → Arena → Prop
  /-- The errors with which the first step may fail whatever the second does. -/
  alone : EngineError → Prop

inductive Agree (V : Verdict) (Q : α → Arena → Arena → Prop) :
    Except EngineError α × Arena → Except EngineError α × Arena → Prop
  | ok {x : α} {s t : Arena} (h : Q x s t) : Agree V Q (.ok x, s) (.ok x, t)
  | error {e : EngineError} {s t : Arena} (h : V.together e s t) :
    Agree V Q (.error e, s) (.error e, t)
  | alone {e : EngineError} {s : Arena} {r : Except EngineError α × Arena} (h : V.alone e) :
    Agree V Q (.error e, s) r

/-- From arenas related by `P` both steps succeed related by `Q` or fail as `V` says. -/
structure Couples (V : Verdict) (P : Arena → Arena → Prop) (m n : Resolve α)
    (Q : α → Arena → Arena → Prop) : Prop where
  agree : ∀ s t, P s t → Agree V Q (m s) (n t)

/-- The steps give values with `F` and leave the arenas related. -/
abbrev Yields (V : Verdict) (R : Arena → Arena → Prop) (F : α → Prop) (m n : Resolve α) : Prop :=
  Couples V R m n fun x s t => F x ∧ R s t

abbrev Keeps (V : Verdict) (R : Arena → Arena → Prop) (m n : Resolve α) : Prop :=
  Couples V R m n fun _ => R

variable {V : Verdict} {P P' R : Arena → Arena → Prop} {Q Q' : α → Arena → Arena → Prop}
  {T : β → Arena → Arena → Prop} {F : α → Prop} {m n : Resolve α} {f g : α → Resolve β}

/-! ## Sequences of steps -/

/-- How a sequence of steps runs. -/
theorem bind_run (m : Resolve α) (f : α → Resolve β) (s : Arena) :
    (m >>= f) s = match m s with
      | (.ok x, t) => f x t
      | (.error e, t) => (.error e, t) := rfl

theorem Agree.weaken {p q : Except EngineError α × Arena} (h : Agree V Q p q)
    (hQ : ∀ x s t, Q x s t → Q' x s t) : Agree V Q' p q := by
  cases h with
  | ok h => exact .ok (hQ _ _ _ h)
  | error h => exact .error h
  | alone h => exact .alone h

theorem Couples.weaken (h : Couples V P m n Q) (hP : ∀ s t, P' s t → P s t)
    (hQ : ∀ x s t, Q x s t → Q' x s t) : Couples V P' m n Q' := by
  constructor
  intro s t hst
  exact (h.agree s t (hP s t hst)).weaken hQ

theorem Couples.bind (hm : Couples V P m n Q) (hf : ∀ x, Couples V (Q x) (f x) (g x) T) :
    Couples V P (m >>= f) (n >>= g) T := by
  constructor
  intro s t hst
  have h := hm.agree s t hst
  rw [bind_run, bind_run]
  generalize m s = p at h
  generalize n t = q at h
  cases h with
  | ok h => exact (hf _).agree _ _ h
  | error h => exact .error h
  | alone h => exact .alone h

/-- The second step may be followed by one that succeeds and gives the same value. -/
theorem Couples.bind_right {g : α → Resolve α} (h : Couples V P m n Q)
    (hg : ∀ x s t, Q x s t → ∃ t', g x t = (.ok x, t') ∧ Q' x s t') :
    Couples V P m (n >>= g) Q' := by
  constructor
  intro s t hst
  have ends := h.agree s t hst
  rw [bind_run]
  generalize m s = p at ends
  generalize n t = q at ends
  cases ends with
  | ok h =>
    obtain ⟨t', run, hQ⟩ := hg _ _ _ h
    dsimp only
    rw [run]
    exact .ok hQ
  | error h => exact .error h
  | alone h => exact .alone h

theorem Yields.bind (hm : Yields V R F m n) (hf : ∀ x, F x → Couples V R (f x) (g x) T) :
    Couples V R (m >>= f) (n >>= g) T := by
  apply Couples.bind hm
  intro x
  constructor
  intro s t h
  exact (hf x h.1).agree s t h.2

/-- A fact about the value that the first step gives from any arena. -/
theorem Keeps.yields (h : Keeps V R m n) (hF : ∀ s x t, m s = (.ok x, t) → F x) :
    Yields V R F m n := by
  constructor
  intro s t hst
  have ha := h.agree s t hst
  have hx := hF s
  generalize m s = p at ha hx
  generalize n t = q at ha
  cases ha with
  | ok h => exact .ok ⟨hx _ _ rfl, h⟩
  | error h => exact .error h
  | alone h => exact .alone h

theorem keeps_forEach (xs : List α) {body body' : α → Resolve Unit}
    (h : ∀ x ∈ xs, Keeps V R (body x) (body' x)) :
    Keeps V R (forEach xs body) (forEach xs body') := by
  induction xs with
  | nil => exact ⟨fun s t hst => .ok hst⟩
  | cons x rest ih =>
    refine Couples.bind (h x List.mem_cons_self) fun _ => ?_
    exact ih fun y hy => h y (List.mem_cons_of_mem x hy)

/-! ## Elementary steps -/

theorem couples_pure (x : α) (h : ∀ s t, P s t → Q x s t) : Couples V P (pure x) (pure x) Q :=
  ⟨fun s t hst => .ok (h s t hst)⟩

theorem keeps_pure (x : α) : Keeps V R (pure x) (pure x) := couples_pure x fun _ _ h => h

theorem couples_fail {e : EngineError} (h : ∀ s t, P s t → V.together e s t) :
    Couples V P (fail e : Resolve α) (fail e) Q := ⟨fun s t hst => .error (h s t hst)⟩

theorem yields_ofExcept {r : Except EngineError α}
    (h : ∀ e, r = .error e → ∀ s t, R s t → V.together e s t) :
    Yields V R (fun x => r = .ok x) (ofExcept r) (ofExcept r) := by
  constructor
  intro s t hst
  cases hr : r with
  | ok x => exact .ok ⟨rfl, hst⟩
  | error e => exact .error (h e hr s t hst)

theorem couples_look {k l : Arena → α} (h : ∀ s t, P s t → k s = l t ∧ Q (k s) s t) :
    Couples V P (look k) (look l) Q := by
  constructor
  intro s t hst
  obtain ⟨hv, hq⟩ := h s t hst
  unfold look
  rw [← hv]
  exact .ok hq

/-! ## One step -/

/-- Both arenas are one, and it satisfies `I`. -/
def Same (I : Arena → Prop) (s t : Arena) : Prop := s = t ∧ I s

def Verdict.same (E : EngineError → Arena → Prop) : Verdict :=
  ⟨fun e s t => s = t ∧ E e s, fun _ => False⟩

/-- From an arena with `P` the step succeeds with `Q` or fails with `E`. -/
abbrev Triple (E : EngineError → Arena → Prop) (P : Arena → Prop) (m : Resolve α)
    (Q : α → Arena → Prop) : Prop :=
  Couples (.same E) (Same P) m m fun x => Same (Q x)

/-- Nothing is said of a failure. -/
def anyway : EngineError → Arena → Prop := fun _ _ => True

/-- How one step ends. -/
def Ends (E : EngineError → Arena → Prop) (Q : α → Arena → Prop) :
    Except EngineError α × Arena → Prop
  | (.ok x, s) => Q x s
  | (.error e, s) => E e s

variable {E E' : EngineError → Arena → Prop} {I I' : Arena → Prop} {A A' : α → Arena → Prop}

theorem triple_iff : Triple E I m A ↔ ∀ s, I s → Ends E A (m s) := by
  constructor
  · intro h s hs
    have ha := h.agree s s ⟨rfl, hs⟩
    generalize m s = p at ha
    cases ha with
    | ok h => exact h.2
    | error h => exact h.2
    | alone h => exact h.elim
  · intro h
    constructor
    rintro s t ⟨rfl, hs⟩
    have he := h s hs
    generalize m s = p at he
    obtain ⟨r, s'⟩ := p
    cases r with
    | ok x => exact .ok ⟨rfl, he⟩
    | error e => exact .error ⟨rfl, he⟩

theorem Triple.intro (h : ∀ s, I s → Ends E A (m s)) : Triple E I m A := triple_iff.2 h

/-- Steps that end in the same arena with the same result are equal. -/
theorem Couples.eq (h : Couples (.same E) (Same I) m n fun x => Same (A x)) {s : Arena} (hs : I s) :
    m s = n s := by
  have ha := h.agree s s ⟨rfl, hs⟩
  generalize m s = p at ha
  generalize n s = q at ha
  cases ha with
  | ok h =>
    rw [h.1]
  | error h =>
    rw [h.1]
  | alone h => exact h.elim

/-- The second step may be replaced by one that is equal where it is run. -/
theorem Couples.congr_right {n' : Resolve α} (h : Couples V (Same I) m n Q)
    (hn : ∀ s, I s → n' s = n s) : Couples V (Same I) m n' Q := by
  constructor
  rintro s t ⟨rfl, hs⟩
  rw [hn s hs]
  exact h.agree s s ⟨rfl, hs⟩

theorem Triple.ok (h : Triple E I m A) {s t : Arena} {x : α} (hs : I s)
    (hm : m s = (.ok x, t)) : A x t := by
  have he := triple_iff.1 h s hs
  rw [hm] at he
  exact he

theorem Ends.weaken {p : Except EngineError α × Arena} (h : Ends E A p)
    (hE : ∀ e s, E e s → E' e s) (hA : ∀ x s, A x s → A' x s) : Ends E' A' p := by
  obtain ⟨r, s⟩ := p
  cases r with
  | ok x => exact hA x s h
  | error e => exact hE e s h

theorem Triple.weaken (h : Triple E I m A) (hE : ∀ e s, E e s → E' e s) (hI : ∀ s, I' s → I s)
    (hA : ∀ x s, A x s → A' x s) : Triple E' I' m A' :=
  Triple.intro fun s hs => (triple_iff.1 h s (hI s hs)).weaken hE hA

theorem Ends.and {p : Except EngineError α × Arena} (h : Ends E A p) (h' : Ends E' A' p) :
    Ends (fun e s => E e s ∧ E' e s) (fun x s => A x s ∧ A' x s) p := by
  obtain ⟨r, s⟩ := p
  cases r with
  | ok x => exact ⟨h, h'⟩
  | error e => exact ⟨h, h'⟩

theorem Triple.and (h : Triple E I m A) (h' : Triple E' I' m A') :
    Triple (fun e s => E e s ∧ E' e s) (fun s => I s ∧ I' s) m (fun x s => A x s ∧ A' x s) :=
  Triple.intro fun s hs => (triple_iff.1 h s hs.1).and (triple_iff.1 h' s hs.2)

theorem Yields.triple (h : Yields (.same E) (Same I) F m m) :
    Triple E I m fun x s => F x ∧ I s :=
  h.weaken (fun _ _ hst => hst) fun _ _ _ ⟨hx, hst, hi⟩ => ⟨hst, hx, hi⟩

/-- A sequence of steps from one arena. -/
theorem Ends.bind {B : β → Arena → Prop} {s : Arena} (h : Ends E A (m s))
    (hf : ∀ x t, A x t → Ends E B (f x t)) : Ends E B ((m >>= f) s) := by
  rw [bind_run]
  generalize m s = p at h
  obtain ⟨r, t⟩ := p
  cases r with
  | ok x => exact hf x t h
  | error e => exact h

/-- What holds however a step ends, holds of the arena in which it ends. -/
theorem ends_always {p : Except EngineError α × Arena} :
    Ends (fun _ => I) (fun _ => I) p ↔ I p.2 := by
  obtain ⟨r, s⟩ := p
  cases r <;> exact Iff.rfl

/-- Nothing is said of any end. -/
theorem triple_anyway (m : Resolve α) : Triple anyway I m fun _ _ => True :=
  Triple.intro fun s _ => by
    generalize m s = p
    obtain ⟨r, t⟩ := p
    cases r <;> trivial

/-- The inner steps run one level deeper and come back up however they end. -/
theorem couples_nested
    (hm : Couples (.same E') (Same I') m n fun x => Same (A' x))
    (hI : ∀ s, I s → I' { s with nesting := s.nesting + 1 })
    (hE : ∀ e s, E' e s → E e { s with nesting := s.nesting - 1 })
    (hA : ∀ x s, A' x s → A x { s with nesting := s.nesting - 1 }) :
    Couples (.same E) (Same I) (nested m) (nested n) fun x => Same (A x) := by
  constructor
  rintro s t ⟨rfl, hs⟩
  have ha := hm.agree _ _ ⟨rfl, hI s hs⟩
  unfold nested
  generalize m { s with nesting := s.nesting + 1 } = p at ha
  generalize n { s with nesting := s.nesting + 1 } = q at ha
  cases ha with
  | ok h =>
    obtain ⟨rfl, h⟩ := h
    exact .ok ⟨rfl, hA _ _ h⟩
  | error h =>
    obtain ⟨rfl, h⟩ := h
    exact .error ⟨rfl, hE _ _ h⟩
  | alone h => exact h.elim

end Resolve

end AutoBattler
