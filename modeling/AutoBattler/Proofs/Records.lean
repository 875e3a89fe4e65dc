import AutoBattler.Proofs.Walking

/-!
# What was told

A log grows by the records of the events that are told, each at the level on which it was told. The
pets that an event reached are entered later and left out here. Where no log is kept the records
are those that would have been entered.
-/
namespace AutoBattler

open Resolve

/-- The record without the pets that were reached. -/
def EventRecord.heading (r : EventRecord) : EventRecord := { r with notified := [] }

/-- The record is of this event of the pet. -/
def EventRecord.Reports (r : EventRecord) (trigger : Trigger) (id : PetId) : Prop :=
  r.trigger = trigger ∧ r.source = some id

instance (r : EventRecord) (trigger : Trigger) (id : PetId) : Decidable (r.Reports trigger id) :=
  inferInstanceAs (Decidable (r.trigger = trigger ∧ r.source = some id))

/-- The record of an event before it has reached anyone. -/
def Event.record (event : Event) (depth : Nat) : EventRecord :=
  ⟨event.trigger, event.side, event.source, [], depth⟩

namespace EventLog

def headings (log : EventLog) : List EventRecord := log.records.toList.map EventRecord.heading

/-- A log that is kept grows by the heading of the record. -/
theorem headings_openRecord_eq (log : EventLog) (record : EventRecord) :
    (log.openRecord record).2.headings =
      if log.enabled then log.headings ++ [record.heading] else log.headings := by
  unfold openRecord headings
  split
  · simp
  · rfl

theorem headings_openRecord {log : EventLog} (h : log.enabled = true) (event : Event)
    (depth : Nat) : (log.openRecord (event.record depth)).2.headings =
      log.headings ++ [event.record depth] := by
  rw [headings_openRecord_eq, if_pos h]
  rfl

theorem enabled_openRecord (log : EventLog) (record : EventRecord) :
    (log.openRecord record).2.enabled = log.enabled := by
  unfold openRecord
  split <;> rfl

theorem headings_setNotified (log : EventLog) (slot : Nat) (notified : List PetId) :
    (log.setNotified slot notified).headings = log.headings := by
  unfold setNotified headings
  rw [Array.toList_modify]
  refine List.ext_getElem? fun i => ?_
  rw [List.getElem?_map, List.getElem?_map, List.getElem?_modify]
  cases log.records.toList[i]? with
  | none => rfl
  | some r => by_cases h : slot = i <;> simp [h, EventRecord.heading]

end EventLog

/-! ## Successors -/

/-- The first record after the one at `i` that lies no deeper stands at `j`. -/
structure IsNext (records : List EventRecord) (i j : Nat) : Prop where
  later : i < j
  level : ∃ r r', records[i]? = some r ∧ records[j]? = some r' ∧ r'.depth ≤ r.depth
  deeper : ∀ m r x, i < m → m < j → records[i]? = some r → records[m]? = some x →
    r.depth < x.depth

theorem isNext_of_append {before inner rest : List EventRecord} {r r' : EventRecord}
    (level : r'.depth ≤ r.depth) (deeper : ∀ x ∈ inner, r.depth < x.depth) :
    IsNext (before ++ r :: (inner ++ r' :: rest)) before.length
      (before.length + (inner.length + 1)) where
  later := by omega
  level := ⟨r, r', by simp, by simp, level⟩
  deeper m s x hlo hhi hs hx := by
    obtain ⟨n, rfl⟩ : ∃ n, m = before.length + (n + 1) := ⟨m - before.length - 1, by omega⟩
    rw [List.getElem?_append_right (Nat.le_refl _), Nat.sub_self, List.getElem?_cons_zero] at hs
    rw [List.getElem?_append_right (Nat.le_add_right _ _), Nat.add_sub_cancel_left,
      List.getElem?_cons_succ, List.getElem?_append_left (by omega)] at hx
    cases hs
    exact deeper x (List.mem_of_getElem? hx)

theorem append_eq_append_cons {α : Type} {xs ys before later : List α} {x : α}
    (h : xs ++ ys = before ++ x :: later) :
    (∃ rest, xs = before ++ x :: rest ∧ later = rest ++ ys) ∨
      ∃ rest, before = xs ++ rest ∧ ys = rest ++ x :: later := by
  rcases List.append_eq_append_iff.1 h with ⟨rest, hbefore, hys⟩ | ⟨rest, hxs, hlater⟩
  · exact .inr ⟨rest, hbefore, hys⟩
  · rcases List.cons_eq_append_iff.1 hlater with ⟨hrest, hys⟩ | ⟨tail, hrest, hl⟩
    · refine .inr ⟨[], ?_, by rw [hys]; rfl⟩
      rw [hxs, hrest, List.append_nil, List.append_nil]
    · exact .inl ⟨tail, by rw [hxs, hrest], hl⟩

/-- A record with what stands before and behind it. -/
theorem eq_append_cons_of_getElem? {α : Type} {xs : List α} {i : Nat} {x : α}
    (h : xs[i]? = some x) : ∃ before later, xs = before ++ x :: later ∧ before.length = i := by
  obtain ⟨hi, rfl⟩ := List.getElem?_eq_some_iff.1 h
  refine ⟨xs.take i, xs.drop (i + 1), ?_, List.length_take_of_le (Nat.le_of_lt hi)⟩
  rw [← List.drop_eq_getElem_cons hi, List.take_append_drop]

namespace EventLog

variable {log : EventLog} {i j : Nat}

theorem getElem?_headings (log : EventLog) (i : Nat) :
    log.headings[i]? = log.records.toList[i]?.map EventRecord.heading := List.getElem?_map

/-- A heading is that of a record. -/
theorem record_of_heading {r : EventRecord} (h : log.headings[i]? = some r) :
    ∃ r', log.records.toList[i]? = some r' ∧ r'.heading = r := by
  rw [getElem?_headings] at h
  exact Option.map_eq_some_iff.1 h

theorem heading_of_record {r : EventRecord} (h : log.records.toList[i]? = some r) :
    log.headings[i]? = some r.heading := by
  rw [getElem?_headings, h, Option.map_some]

theorem isNext_of_headings (h : IsNext log.headings i j) : IsNext log.records.toList i j where
  later := h.later
  level := by
    obtain ⟨r, r', hi, hj, hle⟩ := h.level
    obtain ⟨x, hx, rfl⟩ := record_of_heading hi
    obtain ⟨x', hx', rfl⟩ := record_of_heading hj
    exact ⟨x, x', hx, hx', hle⟩
  deeper m r x hlo hhi hr hx :=
    h.deeper m r.heading x.heading hlo hhi (heading_of_record hr) (heading_of_record hx)

theorem length_headings (log : EventLog) : log.headings.length = log.records.size := by
  unfold headings
  rw [List.length_map, Array.length_toList]

end EventLog

/-! ## Growing logs -/

/-- From `s` to `t` a list with `A` was told. -/
structure Grown (A : List EventRecord → Prop) (s t : Arena) : Prop where
  enabled : t.log.enabled = s.log.enabled
  nesting : t.nesting = s.nesting
  told : ∃ told, A told ∧ (s.log.enabled = true → t.log.headings = s.log.headings ++ told)

namespace Grown

variable {A B C : List EventRecord → Prop} {s t u : Arena}

theorem refl (h : A []) : Grown A s s :=
  ⟨rfl, rfl, [], h, fun _ => (List.append_nil _).symm⟩

/-- A change of the arena that leaves the log and the nesting as they are. -/
theorem congr (h : Grown A s t) (hl : u.log = t.log) (hn : u.nesting = t.nesting) :
    Grown A s u where
  enabled := hl ▸ h.enabled
  nesting := hn ▸ h.nesting
  told := hl ▸ h.told

theorem mono (h : Grown A s t) (hA : ∀ told, A told → B told) : Grown B s t where
  enabled := h.enabled
  nesting := h.nesting
  told := by
    obtain ⟨told, ha, hlog⟩ := h.told
    exact ⟨told, hA told ha, hlog⟩

theorem trans (h : Grown A s t) (h' : Grown B t u)
    (hC : ∀ told told', A told → B told' → C (told ++ told')) : Grown C s u where
  enabled := h'.enabled.trans h.enabled
  nesting := h'.nesting.trans h.nesting
  told := by
    obtain ⟨told, ha, hlog⟩ := h.told
    obtain ⟨told', hb, hlog'⟩ := h'.told
    refine ⟨told ++ told', hC _ _ ha hb, fun hs => ?_⟩
    rw [hlog' (h.enabled.trans hs), hlog hs, List.append_assoc]

/-- All that was told, if a log is kept. -/
theorem headings (h : Grown A s t) (hs : s.log.enabled = true) :
    ∃ told, A told ∧ t.log.headings = s.log.headings ++ told := by
  obtain ⟨told, ha, hlog⟩ := h.told
  exact ⟨told, ha, hlog hs⟩

end Grown

/-! ## One event -/

namespace Arena

/-- The arena in which the line of an event is walked. -/
def opened (s : Arena) (event : Event) : Arena :=
  { s with
    log := (s.log.openRecord (event.record (s.nesting + 1))).2
    nesting := s.nesting + 1
    dispatched := s.dispatched + 1 }

/-- The arena once the pets that were reached have been entered. -/
def closed (t : Arena) (slot : Option Nat) (notified : List PetId) : Arena :=
  { t with
    log := match slot with
      | some slot => t.log.setNotified slot notified
      | none => t.log
    nesting := t.nesting - 1 }

theorem enabled_closed (t : Arena) (slot : Option Nat) (notified : List PetId) :
    (t.closed slot notified).log.enabled = t.log.enabled := by
  cases slot <;> rfl

theorem headings_closed (t : Arena) (slot : Option Nat) (notified : List PetId) :
    (t.closed slot notified).log.headings = t.log.headings := by
  cases slot with
  | none => rfl
  | some slot => exact t.log.headings_setNotified slot notified

end Arena

/-- What is told while the line is walked stands behind the record of the event. -/
theorem Grown.closed {A : List EventRecord → Prop} {s t : Arena} {event : Event}
    (h : Grown A (s.opened event) t) (slot : Option Nat) (notified : List PetId) :
    Grown (fun told => ∃ inner, A inner ∧ told = event.record (s.nesting + 1) :: inner) s
      (t.closed slot notified) where
  enabled := by
    rw [Arena.enabled_closed, h.enabled]
    exact s.log.enabled_openRecord _
  nesting := by
    show t.nesting - 1 = s.nesting
    rw [h.nesting]
    rfl
  told := by
    obtain ⟨inner, ha, hlog⟩ := h.told
    refine ⟨_, ⟨inner, ha, rfl⟩, fun hs => ?_⟩
    have hopened : (s.opened event).log.headings = s.log.headings ++ [event.record (s.nesting + 1)] :=
      EventLog.headings_openRecord hs event _
    rw [Arena.headings_closed, hlog ((s.log.enabled_openRecord _).trans hs), hopened,
      List.append_assoc]
    rfl

namespace Resolve

variable {E F : EngineError → Arena → Prop} {I Q : Arena → Prop} {J : List PetId → Arena → Prop}
  {rules : Rules} {room : Nat} {event : Event} {s : Arena}

/-- How an event within the budget is told, whatever is done with its line: one level deeper, and
those that were reached are entered into the record. -/
theorem tellLine_run {budget : Nat} (h : s.dispatched < budget)
    (walked : List PetId → Resolve (List PetId)) :
    (countEvent budget >>= fun _ => nested (tellLine event walked)) s =
      match walked (event.snapshot.getD (s.board.roster event.side)) (s.opened event) with
      | (.ok notified, t) =>
        (.ok (), t.closed (s.log.openRecord (event.record (s.nesting + 1))).1 notified)
      | (.error e, t) => (.error e, { t with nesting := t.nesting - 1 }) := by
  have hcount : countEvent budget s = (.ok (), { s with dispatched := s.dispatched + 1 }) := if_pos h
  rw [bind_run, hcount]
  show nested (tellLine event walked) { s with dispatched := s.dispatched + 1 } = _
  have hwalk : tellLine event walked
      { s with dispatched := s.dispatched + 1, nesting := s.nesting + 1 } =
      (walked (event.snapshot.getD (s.board.roster event.side)) >>=
        setNotified (s.log.openRecord (event.record (s.nesting + 1))).1) (s.opened event) := rfl
  unfold nested
  dsimp only
  rw [hwalk, bind_run]
  generalize walked _ _ = r
  obtain ⟨r, t⟩ := r
  cases r with
  | ok notified =>
    dsimp only
    cases (s.log.openRecord (event.record (s.nesting + 1))).1 <;> rfl
  | error e => rfl

theorem tellLine_exhausted {budget : Nat} (h : ¬ s.dispatched < budget)
    (walked : List PetId → Resolve (List PetId)) :
    (countEvent budget >>= fun _ => nested (tellLine event walked)) s =
      (.error (.eventBudgetExceeded budget), { s with dispatched := s.dispatched + 1 }) := by
  have hcount : countEvent budget s =
      (.error (.eventBudgetExceeded budget), { s with dispatched := s.dispatched + 1 }) := if_neg h
  rw [bind_run, hcount]

/-- The steps around the walk of an event. -/
theorem ends_dispatchIn
    (budget : ¬ s.dispatched < rules.config.maxEvents →
      E (.eventBudgetExceeded rules.config.maxEvents) { s with dispatched := s.dispatched + 1 })
    (opened : I (s.opened event))
    (walks : ∀ line, Triple F I (walk rules (dispatchIn rules room)
      (perform rules (dispatchIn rules room)) event line [] line) J)
    (failed : ∀ e t, F e t → E e { t with nesting := t.nesting - 1 })
    (closed : ∀ t notified, J notified t →
      Q (t.closed (s.log.openRecord (event.record (s.nesting + 1))).1 notified)) :
    Ends E (fun _ => Q) (dispatchIn rules (room + 1) event s) := by
  show Ends E (fun _ => Q) ((countEvent rules.config.maxEvents >>= fun _ => nested
    (tellLine event fun line => walk rules (dispatchIn rules room)
      (perform rules (dispatchIn rules room)) event line [] line)) s)
  by_cases hroom : s.dispatched < rules.config.maxEvents
  · rw [tellLine_run hroom]
    have he := triple_iff.1 (walks (event.snapshot.getD (s.board.roster event.side))) _ opened
    generalize walk .. = r at he
    obtain ⟨r, t⟩ := r
    cases r with
    | ok notified => exact closed t notified he
    | error e => exact failed e t he
  · rw [tellLine_exhausted hroom]
    exact budget hroom

end Resolve

end AutoBattler
