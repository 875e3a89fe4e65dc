import AutoBattler.Proofs.Notes

/-!
# Resolutions with notes of their own

A resolution beside the same one that also takes notes. The arenas differ in the log alone, and
there in the notes alone. The notes may be tied to the board that both have: where the board changes
as the notes allow, the relation is kept. Notes are taken even if no log is kept.
-/
namespace AutoBattler

open Resolve

/-! ## Logs with notes -/

namespace EventLog

variable {log marked : EventLog} {notes : List EventRecord} {record note : EventRecord}

/-- Apart from these notes the second log says what the first says. -/
structure Marked (notes : List EventRecord) (log marked : EventLog) : Prop where
  enabled : marked.enabled = log.enabled
  told : marked.headings.filter (¬ ·.IsNote) = log.headings
  noted : marked.headings.filter (·.IsNote) = notes

/-- The notes of a log. -/
def marks (log : EventLog) : List EventRecord := log.headings.filter (·.IsNote)

theorem notes_eq (log : EventLog) : log.notes = log.marks.length := List.countP_eq_length_filter

/-- Takes a note, whether the log is kept or not. -/
def mark (log : EventLog) (note : EventRecord) : EventLog :=
  { log with records := log.records.push note }

theorem headings_mark (log : EventLog) (note : EventRecord) :
    (log.mark note).headings = log.headings ++ [note.heading] := by
  unfold mark headings
  simp

theorem marks_mark (log : EventLog) (hn : note.heading.IsNote) :
    (log.mark note).marks = log.marks ++ [note.heading] := by
  unfold marks
  rw [headings_mark, List.filter_append]
  simp [hn]

theorem unaddressed_marked (notes : List EventRecord) : Unaddressed (Marked notes) where
  left log marked slot ids h :=
    ⟨h.enabled, h.told.trans (log.headings_setNotified slot ids).symm, h.noted⟩
  right log marked slot ids h := by
    have same := marked.headings_setNotified slot ids
    exact ⟨h.enabled, same ▸ h.told, same ▸ h.noted⟩

/-- An event that is told is no note. -/
theorem Marked.tell (h : Marked notes log marked) (hr : ¬ record.heading.IsNote) :
    Marked notes (log.openRecord record).2 (marked.openRecord record).2 := by
  refine ⟨?_, ?_, ?_⟩
  · rw [enabled_openRecord, enabled_openRecord, h.enabled]
  · rw [headings_openRecord_eq, headings_openRecord_eq, h.enabled]
    split
    · rw [List.filter_append, h.told]
      simp [hr]
    · exact h.told
  · rw [headings_openRecord_eq]
    split
    · rw [List.filter_append, h.noted]
      simp [hr]
    · exact h.noted

theorem Marked.mark (h : Marked notes log marked) (hn : note.heading.IsNote) :
    Marked (notes ++ [note.heading]) log (marked.mark note) := by
  refine ⟨h.enabled, ?_, ?_⟩
  · rw [headings_mark, List.filter_append, h.told]
    simp [hn]
  · rw [headings_mark, List.filter_append, h.noted]
    simp [hn]

end EventLog

/-! ## Arenas with notes -/

/-- The second arena has these notes, and both have a board with the property. -/
def Likeness.marked (notes : List EventRecord) (B : Board → Prop) : Likeness where
  logs := EventLog.Marked notes
  generators := Eq
  board := B
  alone _ := False

/-- Apart from its notes the second arena is the first, and the notes fit the board. -/
def Arena.Marked (B : List EventRecord → Board → Prop) (s t : Arena) : Prop :=
  ∃ notes, s.Alike (.marked notes (B notes)) t

theorem Arena.marked_self {B : List EventRecord → Board → Prop} {s : Arena}
    (hl : s.log.records = #[]) (hb : B [] s.board) : s.Marked B s := by
  have empty : s.log.headings = [] := by
    unfold EventLog.headings
    rw [hl]
    rfl
  exact ⟨[], rfl, rfl, rfl, rfl, ⟨rfl, by rw [empty]; rfl, by rw [empty]; rfl⟩, rfl, rfl, hb⟩

namespace Resolve

/-- Takes a note. -/
def mark (note : EventRecord) : Resolve Unit := change fun s => { s with log := s.log.mark note }

abbrev Verdict.marked (B : List EventRecord → Board → Prop) : Verdict :=
  .kept (Arena.Marked B) fun _ => False

variable {α : Type} {counted : Prop} {S : Scope} {c : Catalog} {rules : Rules} {event : Event}
  {B : List EventRecord → Board → Prop} {m n : Resolve α} {s t : Arena}

theorem keeps_marked
    (h : ∀ notes, Keeps (.marked B) (Arena.Alike (.marked notes (B notes))) m n) :
    Keeps (.marked B) (Arena.Marked B) m n := by
  constructor
  rintro s t ⟨notes, hst⟩
  exact ((h notes).agree s t hst).weaken fun _ _ _ hst => ⟨notes, hst⟩

theorem boards_marked : ∀ s t, Arena.Marked B s t → s.board = t.board := by
  rintro s t ⟨notes, hst⟩
  exact hst.board

/-- The relation is kept by the elementary steps where what the notes say is. -/
theorem elementaryIf_marked (hp : ∀ p, S.pets p)
    (he : ∀ notes f, Edit c S f → counted ∨ (∀ p, (f p).counters = p.counters) →
      ∀ b, B notes b → ∀ id, B notes (b.modifyPet id f)) :
    ElementaryIf counted S c (.marked B) (Arena.Marked B) := by
  have each notes : ElementaryIf counted S c (.marked B) (Arena.Alike (.marked notes (B notes))) :=
    Arena.Alike.elementaryIf_of (fun _ _ _ _ _ => hp _) (he notes) (S.draws_of_eq rfl)
      fun _ _ s t hst => ⟨notes, hst⟩
  exact {
    boards := boards_marked
    known := fun _ _ _ _ pet _ => hp pet
    selects := fun effect selector event hs hm he actor =>
      keeps_marked fun notes => (each notes).selects effect selector event hs hm he actor
    choose := fun effect hs hc n => keeps_marked fun notes => (each notes).choose effect hs hc n
    edit := fun f hf hc id => keeps_marked fun notes => (each notes).edit f hf hc id
    shop := fun f hf => keeps_marked fun notes => (each notes).shop f hf
    queue := fun event he hb attack => keeps_marked fun notes => (each notes).queue event he hb attack
    missing := fun _ _ _ _ hst => hst }

theorem boardSteps_marked (h : ∀ notes, StepInvariant S c (B notes)) :
    BoardSteps S c (.marked B) (Arena.Marked B) := by
  have each notes : BoardSteps S c (.marked B) (Arena.Alike (.marked notes (B notes))) :=
    Arena.Alike.boardSteps_of (h notes)
  exact {
    gainPoint := fun amount target hg hpos id =>
      keeps_marked fun notes => (each notes).gainPoint amount target hg hpos id
    promote := fun id level => keeps_marked fun notes => (each notes).promote id level
    damage := fun amount id => keeps_marked fun notes => (each notes).damage amount id
    spawn := fun pet hp side placement =>
      keeps_marked fun notes => (each notes).spawn pet hp side placement
    replace := fun into kind hi hk id =>
      keeps_marked fun notes => (each notes).replace into kind hi hk id
    remove := fun id => keeps_marked fun notes => (each notes).remove id }

/-- After a change of a pet the notes may fit the board in another way. -/
theorem marked_modifyPet {notes : List EventRecord} {B B' : Board → Prop} (x : PetId)
    {f : Pet → Pet} (h : s.Alike (.marked notes B) t) (hB : B' (s.board.modifyPet x f)) :
    Arena.Alike (.marked notes B') { s with board := s.board.modifyPet x f }
      { t with board := t.board.modifyPet x f } :=
  ⟨congrArg (·.modifyPet x f) h.board, h.random, h.queues, h.shop, h.log, h.nesting, h.dispatched,
    hB⟩

/-- A note that fits a board with the property is taken. -/
theorem marked_mark {notes : List EventRecord} {B' : Board → Prop} {note : EventRecord}
    (h : s.Alike (.marked notes B') t) (hn : note.heading.IsNote)
    (hB : B' s.board → B (notes ++ [note.heading]) s.board) :
    s.Marked B { t with log := t.log.mark note } :=
  ⟨_, { h with log := h.log.mark hn, holds := hB h.holds }⟩

/-! ## Telling events -/

/-- The record of an event stands in both logs. As the notes shift the places of records, nothing is
said of the slots. -/
theorem keeps_logged_marked {m n : Resolve (List PetId)} (depth : Nat)
    (h : Keeps (.marked B) (Arena.Marked B) m n) :
    Couples (.marked B) (fun s t => (s.Marked B t ∧ 0 < s.nesting) ∧ s.nesting = depth)
      (logged (event.record depth) m) (logged (event.record depth) n) fun _ => Arena.Marked B := by
  have opened : Couples (.marked B) (fun s t => (s.Marked B t ∧ 0 < s.nesting) ∧ s.nesting = depth)
      (silent (openRecord (event.record depth))) (silent (openRecord (event.record depth)))
      fun _ => Arena.Marked B := by
    constructor
    rintro s t ⟨⟨⟨notes, hst⟩, hpos⟩, rfl⟩
    exact .ok ⟨notes, { hst with log := hst.log.tell (Nat.ne_of_gt hpos) }⟩
  refine Couples.bind_silent opened fun slot slot' => ?_
  refine Couples.bind h fun ids => keeps_marked fun notes => ?_
  exact Arena.Alike.setNotified (EventLog.unaddressed_marked notes) slot slot' ids ids

theorem keeps_nested_marked {m n : Resolve Unit}
    (h : Couples (.marked B) (fun s t => s.Marked B t ∧ 0 < s.nesting) m n fun _ => Arena.Marked B) :
    Keeps (.marked B) (Arena.Marked B) (nested m) (nested n) := by
  constructor
  rintro s t ⟨notes, hst⟩
  have deeper : Arena.Marked B { s with nesting := s.nesting + 1 } { t with nesting := t.nesting + 1 } :=
    ⟨notes, { hst with nesting := congrArg (· + 1) hst.nesting }⟩
  have ends := h.agree _ _ ⟨deeper, s.nesting.succ_pos⟩
  unfold nested
  generalize m { s with nesting := s.nesting + 1 } = p at ends
  generalize n { t with nesting := t.nesting + 1 } = q at ends
  cases ends with
  | ok h =>
    obtain ⟨notes, h⟩ := h
    exact .ok ⟨notes, h.shallower⟩
  | error h =>
    obtain ⟨notes, h⟩ := h
    exact .error ⟨notes, h.shallower⟩
  | alone h => exact h.elim

/-- Telling an event keeps the relation if the walk of its line does. -/
theorem keeps_told_marked {walked walked' : List PetId → Resolve (List PetId)} (budget : Nat)
    (h : ∀ line, Keeps (.marked B) (Arena.Marked B) (walked line) (walked' line)) :
    Keeps (.marked B) (Arena.Marked B)
      (do
        countEvent budget
        nested (tellLine event walked))
      (do
        countEvent budget
        nested (tellLine event walked')) := by
  have counted : Keeps (.marked B) (Arena.Marked B) (countEvent budget) (countEvent budget) := by
    constructor
    rintro s t ⟨notes, hst⟩
    unfold countEvent
    rw [← hst.dispatched]
    split
    · exact .ok ⟨notes, { hst with dispatched := rfl }⟩
    · exact .error ⟨notes, { hst with dispatched := rfl }⟩
  refine Couples.bind counted fun _ => keeps_nested_marked ?_
  refine couples_tellLine (fun _ _ hst => boards_marked _ _ hst.1) ?_ fun depth line => ?_
  · rintro s t ⟨⟨notes, hst⟩, _⟩
    exact hst.nesting
  · exact keeps_logged_marked depth (h line)

theorem drainable_marked : Wrapping.Drainable (Arena.Marked B) where
  queues := by
    rintro s t ⟨notes, hst⟩
    exact hst.queues
  dispatched := by
    rintro s t ⟨notes, hst⟩
    exact hst.dispatched
  pop := by
    rintro s t ⟨notes, hst⟩
    exact ⟨notes, { hst with queues := congrArg withoutForemost hst.queues }⟩

end Resolve

/-- The battles differ in the notes alone, and the notes of the second fit the board. -/
abbrev Battle.Marked (B : List EventRecord → Board → Prop) : Battle → Battle → Prop :=
  Related (Arena.Marked B)

theorem Battle.marked_ofTeams {B : List EventRecord → Board → Prop} (config : EngineConfig)
    {teams : Sides Team} (h : B [] (.ofTeams teams)) :
    (ofTeams config teams).Marked B (ofTeams config teams) :=
  ⟨Arena.marked_self rfl h, rfl, rfl⟩

end AutoBattler
