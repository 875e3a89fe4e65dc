import AutoBattler.Proofs.BoardInvariant

/-!
# Resolutions side by side

Two arenas are alike if they differ at most in their logs and their generators. The steps of a
resolution keep arenas alike where what they draw agrees. No step reads the log, so the logs may
even be written differently.
-/
namespace AutoBattler

open AutoBattler.Random (Generator)
open Resolve

/-- How far two arenas may differ, and with what the first resolution alone may fail. -/
structure Likeness where
  logs : EventLog → EventLog → Prop
  generators : Generator → Generator → Prop
  /-- What holds of the board that both have. -/
  board : Board → Prop
  alone : EngineError → Prop

structure Arena.Alike (K : Likeness) (s t : Arena) : Prop where
  board : s.board = t.board
  random : K.generators s.random t.random
  queues : s.queues = t.queues
  shop : s.shop = t.shop
  log : K.logs s.log t.log
  nesting : s.nesting = t.nesting
  dispatched : s.dispatched = t.dispatched
  holds : K.board s.board

/-- Resolutions that fail together end in arenas that are alike. -/
def Resolve.Verdict.alike (K : Likeness) : Verdict := ⟨fun _ => Arena.Alike K, K.alone⟩

/-- From arenas that are alike both steps end in such arenas, with the same result. -/
abbrev Resolve.Matches {α : Type} (K : Likeness) (m n : Resolve α) : Prop :=
  Keeps (.alike K) (Arena.Alike K) m n

variable {α : Type} {K K' : Likeness} {V : Verdict} {S : Scope} {c : Catalog} {s t : Arena}

/-! ## Calls -/

/-- Both calls give values that `F` relates, or fail with one error, in states that `P` relates; or
the first fails with an error of `alone`. -/
inductive Concur {α σ : Type} (alone : EngineError → Prop) (F : α → α → Prop) (P : σ → σ → Prop) :
    Except EngineError α × σ → Except EngineError α × σ → Prop
  | ok {x y : α} {s t : σ} (hv : F x y) (h : P s t) : Concur alone F P (.ok x, s) (.ok y, t)
  | error {e : EngineError} {s t : σ} (h : P s t) : Concur alone F P (.error e, s) (.error e, t)
  | alone {e : EngineError} {s : σ} {r : Except EngineError α × σ} (h : alone e) :
    Concur alone F P (.error e, s) r

namespace Concur

variable {σ β : Type} {alone : EngineError → Prop} {P : σ → σ → Prop}
  {r r' : Except EngineError α × σ}

theorem of_ok {x : α} {s : σ} (h : Concur alone Eq P (.ok x, s) r) :
    ∃ t, r = (.ok x, t) ∧ P s t := by
  cases h with
  | ok hv h => exact ⟨_, by rw [hv], h⟩

theorem map (h : Concur alone Eq P r r') (f : α → β) :
    Concur alone Eq P (r.1.map f, r.2) (r'.1.map f, r'.2) := by
  cases h with
  | ok hv h => exact .ok (congrArg f hv) h
  | error h => exact .error h
  | alone he => exact .alone he

theorem imp {F : α → α → Prop} {P' : σ → σ → Prop} (h : Concur alone F P r r')
    (hP : ∀ s t, P s t → P' s t) : Concur alone F P' r r' := by
  cases h with
  | ok hv h => exact .ok hv (hP _ _ h)
  | error h => exact .error (hP _ _ h)
  | alone he => exact .alone he

/-- What the states have in them is related, too. -/
theorem part {τ : Type} {F : α → α → Prop} {P' : τ → τ → Prop} (h : Concur alone F P r r') (f : σ → τ)
    (hP : ∀ s t, P s t → P' (f s) (f t)) : Concur alone F P' (Prod.map id f r) (Prod.map id f r') := by
  cases h with
  | ok hv h => exact .ok hv (hP _ _ h)
  | error h => exact .error (hP _ _ h)
  | alone he => exact .alone he

theorem together (h : Concur alone Eq P r r') (ha : ∀ e, ¬ alone e) :
    r.1 = r'.1 ∧ P r.2 r'.2 := by
  cases h with
  | ok hv h => exact ⟨congrArg Except.ok hv, h⟩
  | error h => exact ⟨rfl, h⟩
  | alone he => exact absurd he (ha _)

end Concur

theorem Resolve.Keeps.concur {m n : Resolve α} (h : Matches K m n) (hst : s.Alike K t) :
    Concur K.alone Eq (Arena.Alike K) (m s) (n t) := by
  have ends := h.agree s t hst
  generalize m s = r at ends
  generalize n t = r' at ends
  cases ends with
  | ok hst => exact .ok rfl hst
  | error hst => exact .error hst
  | alone he => exact .alone he

/-! ## Draws -/

/-- The draw gives the same from related generators and leaves them related. -/
def Likeness.Agrees (K : Likeness) (f : Generator → α × Generator) : Prop :=
  ∀ g g', K.generators g g' → (f g).1 = (f g').1 ∧ K.generators (f g).2 (f g').2

/-- What the effects of the scope draw agrees. -/
structure Scope.Draws (S : Scope) (K : Likeness) : Prop where
  select : ∀ effect selector, S.effects effect → selector ∈ effect.selectors →
    ∀ v, K.Agrees (Targeting.resolve v selector)
  choose : ∀ effect, S.effects effect → effect.chooses = true → ∀ n, K.Agrees (·.index? n)

/-- Equal generators draw the same. -/
theorem Scope.draws_of_eq (S : Scope) (hK : K.generators = Eq) : S.Draws K := by
  have agrees {β : Type} (f : Generator → β × Generator) : K.Agrees f := by
    intro g g' h
    rw [hK] at h ⊢
    subst h
    exact ⟨rfl, rfl⟩
  exact ⟨fun _ _ _ _ _ => agrees _, fun _ _ _ _ => agrees _⟩

/-! ## Elementary steps -/

namespace Arena.Alike

theorem withBoard (h : Alike K s t) {b : Board} (hb : K.board b) :
    Alike K { s with board := b } { t with board := b } :=
  { h with board := rfl, holds := hb }

theorem modifyBoard {f : Board → Board} (hf : ∀ b, K.board b → K.board (f b)) :
    Keeps V (Alike K) (change fun s => { s with board := f s.board })
      (change fun s => { s with board := f s.board }) := by
  constructor
  intro s t h
  have changed := h.withBoard (hf _ h.holds)
  refine .ok { changed with board := ?_ }
  exact congrArg f h.board

theorem draw {f : Generator → α × Generator} (hf : K.Agrees f) :
    Keeps V (Alike K) (draw f) (draw f) := by
  constructor
  intro s t h
  obtain ⟨hv, hg⟩ := hf _ _ h.random
  unfold Resolve.draw
  rw [hv]
  exact .ok { h with random := hg }

theorem targets {event : Event} {actor : Option PetId} {selector : Selector}
    (hs : ∀ v, K.Agrees (Targeting.resolve v selector)) :
    Keeps V (Alike K) (targets event actor selector) (targets event actor selector) := by
  constructor
  intro s t h
  obtain ⟨hv, hg⟩ := hs ⟨s.board, event, actor⟩ _ _ h.random
  have hb : (⟨t.board, event, actor⟩ : Targeting.View) = ⟨s.board, event, actor⟩ := by
    rw [h.board]
  unfold Resolve.targets
  dsimp only
  rw [hb, hv]
  exact .ok { h with random := hg }

theorem spawn {side : Side} {pet : Pet} {placement : Placement}
    (ha : ∀ b id b', K.board b → b.Arrives side pet id b' → K.board b') :
    Keeps V (Alike K) (spawn side pet placement) (spawn side pet placement) := by
  constructor
  intro s t h
  unfold Resolve.spawn
  rw [← h.board]
  cases hb : s.board.spawn? side pet placement with
  | none => exact .ok h
  | some r => exact .ok (h.withBoard (ha _ r.1 r.2 h.holds (Board.arrives_of_spawn? hb)))

theorem elementaryIf_of {counted : Prop}
    (hp : ∀ b, K.board b → ∀ id pet, b.pet? id = some pet → S.pets pet)
    (he : ∀ f, Edit c S f → counted ∨ (∀ p, (f p).counters = p.counters) →
      ∀ b, K.board b → ∀ id, K.board (b.modifyPet id f))
    (hd : S.Draws K) (hm : ∀ e, Missing c S e → ∀ s t, Alike K s t → V.together e s t) :
    ElementaryIf counted S c V (Alike K) where
  boards _ _ h := h.board
  known s _ h := hp s.board h.holds
  selects effect selector _ hs hm _ _ := targets (hd.select effect selector hs hm)
  choose effect hs hc n := draw (hd.choose effect hs hc n)
  edit f hf hc id := modifyBoard fun b hb => he f hf hc b hb id
  shop f _ := ⟨fun s t h => .ok { h with shop := congrArg (Option.map f) h.shop }⟩
  queue _ _ _ attack := by
    constructor
    intro s t h
    refine .ok { h with queues := ?_ }
    exact congrArg (·.update attack.side (·.push attack)) h.queues
  missing := hm

theorem elementary_of (hK : EditInvariant S c K.board) (hd : S.Draws K)
    (hm : ∀ e, Missing c S e → ∀ s t, Alike K s t → V.together e s t) :
    Elementary S c V (Alike K) :=
  elementaryIf_of hK.known (fun f hf _ b hb id => hK.edit b hb f hf id) hd hm

theorem elementary (hK : EditInvariant S c K.board) (hd : S.Draws K) :
    Elementary S c (.alike K) (Alike K) := elementary_of hK hd fun _ _ _ _ h => h

theorem boardSteps_of (hK : StepInvariant S c K.board) : BoardSteps S c V (Alike K) where
  gainPoint amount target hg hpos id :=
    modifyBoard fun b hb => hK.gainPoint b hb amount target hg hpos id
  promote id level := modifyBoard fun b hb => hK.promote b hb id level
  damage amount id := modifyBoard fun b hb => hK.damage b hb amount id
  spawn pet hp side placement := spawn fun b id b' hb => hK.arrive b hb side pet id b' hp
  replace into kind hi hk id := by
    constructor
    intro s t h
    unfold replace
    rw [← h.board]
    cases hb : s.board.replace? id (.ofKind kind) with
    | none => exact .ok h
    | some r =>
      obtain ⟨side, he⟩ := Board.exchanges_of_replace? hb
      exact .ok (h.withBoard (hK.exchange s.board h.holds into kind hi hk id side r.1 r.2 he))
  remove id := by
    constructor
    intro s t h
    unfold remove
    rw [← h.board]
    cases hb : s.board.remove? id with
    | none => exact .ok h
    | some b =>
      obtain ⟨side, hl⟩ := Board.leaves_of_remove? hb
      exact .ok (h.withBoard (hK.leave s.board h.holds id side b hl))

theorem boardSteps (hK : BoardInvariant S c K.board) : BoardSteps S c V (Alike K) :=
  boardSteps_of hK.toStepInvariant

theorem shallower (h : Alike K s t) :
    Alike K { s with nesting := s.nesting - 1 } { t with nesting := t.nesting - 1 } :=
  { h with nesting := congrArg (· - 1) h.nesting }

/-- One level deeper the steps may make arenas alike in another way. -/
theorem couples_nested {m n : Resolve α}
    (hV : ∀ e s t, V.together e s t →
      V.together e { s with nesting := s.nesting - 1 } { t with nesting := t.nesting - 1 })
    (h : Couples V (fun s t => Alike K s t ∧ 0 < s.nesting) m n fun _ => Alike K') :
    Couples V (Alike K) (Resolve.nested m) (Resolve.nested n) fun _ => Alike K' := by
  constructor
  intro s t hst
  have deeper : Alike K { s with nesting := s.nesting + 1 } { t with nesting := t.nesting + 1 } :=
    { hst with nesting := congrArg (· + 1) hst.nesting }
  have ends := h.agree _ _ ⟨deeper, s.nesting.succ_pos⟩
  unfold Resolve.nested
  generalize m { s with nesting := s.nesting + 1 } = p at ends
  generalize n { t with nesting := t.nesting + 1 } = q at ends
  cases ends with
  | ok hst => exact .ok (shallower hst)
  | error hst => exact .error (hV _ _ _ hst)
  | alone he => exact .alone he

theorem nested {m n : Resolve α} (h : Matches K m n) :
    Matches K (Resolve.nested m) (Resolve.nested n) :=
  couples_nested (fun _ _ _ => shallower) (h.weaken (fun _ _ hst => hst.1) fun _ _ _ hst => hst)

/-- Where the budgets differ, the first step may fail alone. -/
theorem countEvent {budget budget' : Nat} (hb : budget ≤ budget')
    (hl : budget = budget' ∨ ∀ e : EngineError, e.isLimit = true → K.alone e) :
    Matches K (countEvent budget) (countEvent budget') := by
  constructor
  intro s t h
  have counted : Alike K { s with dispatched := s.dispatched + 1 }
      { t with dispatched := t.dispatched + 1 } :=
    { h with dispatched := congrArg (· + 1) h.dispatched }
  unfold Resolve.countEvent
  rw [← h.dispatched] at counted ⊢
  by_cases hs : s.dispatched < budget
  · rw [if_pos hs, if_pos (Nat.lt_of_lt_of_le hs hb)]
    exact .ok counted
  · rw [if_neg hs]
    rcases hl with rfl | ha
    · rw [if_neg hs]
      exact .error counted
    · exact .alone (ha _ rfl)

end Arena.Alike

/-! ## Logs -/

namespace Resolve

/-- A step without the value that it gives. -/
def silent (m : Resolve α) : Resolve Unit := do
  let _ ← m
  pure ()

variable {V : Verdict} {P R : Arena → Arena → Prop} {β : Type} {Q : Unit → Arena → Arena → Prop}
  {T : β → Arena → Arena → Prop} {m n : Resolve α} {f g : α → Resolve β}

theorem Keeps.silent (h : Keeps V R m n) : Keeps V R (silent m) (silent n) :=
  Couples.bind h fun _ => keeps_pure _

/-- Two steps that may give different values are followed by steps for any two of them. -/
theorem Couples.bind_silent (hm : Couples V P (silent m) (silent n) Q)
    (hf : ∀ x y, Couples V (Q ()) (f x) (g y) T) : Couples V P (m >>= f) (n >>= g) T := by
  constructor
  intro s t hst
  have h := hm.agree s t hst
  unfold Resolve.silent at h
  rw [bind_run, bind_run] at h
  rw [bind_run, bind_run]
  generalize m s = p at h
  generalize n t = q at h
  obtain ⟨_ | x, s'⟩ := p <;> obtain ⟨_ | y, t'⟩ := q
  · cases h with
    | error he => exact .error he
    | alone he => exact .alone he
  · cases h with
    | alone he => exact .alone he
  · cases h
  · cases h with
    | ok h => exact (hf x y).agree _ _ h

end Resolve

namespace Arena.Alike

variable {m n : Resolve (List PetId)} {record : EventRecord}

theorem withLog (h : Alike K s t) {log log' : EventLog} (hl : K.logs log log') :
    Alike K { s with log := log } { t with log := log' } :=
  { h with log := hl }

theorem recording (hK : K.logs = Eq) : Recording (.alike K) (Alike K) where
  depth _ _ h := h.nesting
  record record := by
    constructor
    intro s t h
    have same : s.log = t.log := hK ▸ h.log
    unfold openRecord
    rw [← same]
    exact .ok (h.withLog (by rw [hK]))
  notified slot ids := by
    cases slot with
    | none => exact keeps_pure ()
    | some slot =>
      constructor
      intro s t h
      have same : s.log = t.log := hK ▸ h.log
      unfold setNotified change
      dsimp only
      rw [← same]
      exact .ok (h.withLog (by rw [hK]))

/-- Logs that are equal are written alike. -/
theorem logged_of_eq (hK : K.logs = Eq) (h : Matches K m n) :
    Matches K (logged record m) (logged record n) := by
  refine Couples.bind ((recording hK).record record) fun slot => ?_
  exact Couples.bind h fun notified => (recording hK).notified slot notified

end Arena.Alike

/-- Logs of which the pets that were reached do not matter. -/
structure EventLog.Unaddressed (L : EventLog → EventLog → Prop) : Prop where
  left : ∀ l l' slot ids, L l l' → L (l.setNotified slot ids) l'
  right : ∀ l l' slot ids, L l l' → L l (l'.setNotified slot ids)

/-- Logs of which neither matter the pets that were reached nor the places of the records. -/
structure EventLog.Loose (L : EventLog → EventLog → Prop) : Prop extends Unaddressed L where
  openRecord : ∀ l l' record, L l l' → L (l.openRecord record).2 (l'.openRecord record).2

namespace Arena.Alike

variable {m n : Resolve (List PetId)} {record : EventRecord}

theorem setNotified (hK : EventLog.Unaddressed K.logs) (slot slot' : Option Nat)
    (ids ids' : List PetId) :
    Keeps V (Alike K) (setNotified slot ids) (setNotified slot' ids') := by
  constructor
  intro s t h
  cases slot with
  | none =>
    cases slot' with
    | none => exact .ok h
    | some slot' => exact .ok { h with log := hK.right _ _ slot' ids' h.log }
  | some slot =>
    have left := hK.left _ _ slot ids h.log
    cases slot' with
    | none => exact .ok { h with log := left }
    | some slot' => exact .ok { h with log := hK.right _ _ slot' ids' left }

/-- What a walk reached need not be the same if the logs do not show it. -/
theorem logged_of_loose (hK : EventLog.Loose K.logs) (h : Matches K (silent m) (silent n)) :
    Matches K (logged record m) (logged record n) := by
  have opened : Matches K (silent (openRecord record)) (silent (openRecord record)) :=
    ⟨fun s t h => .ok (h.withLog (hK.openRecord _ _ record h.log))⟩
  refine Couples.bind_silent opened fun slot slot' => ?_
  exact Couples.bind_silent h fun ids ids' => setNotified hK.toUnaddressed slot slot' ids ids'

end Arena.Alike

end AutoBattler
