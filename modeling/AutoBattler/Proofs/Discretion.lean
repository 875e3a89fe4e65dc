import AutoBattler.Proofs.Chronicle

/-!
# Discretion

What may be told of a pet that has fainted. It faints no more and attacks no more, and of the events
told later it hears those of its own only. A hit that struck it together with the lethal one may
still hurt it, if it has health again by then; the record of that stands right after the knockout.
-/
namespace AutoBattler

open Resolve

/-! ## Records of fainted pets -/

/-- Events whose source may have fainted before. -/
def Trigger.IsPlain (trigger : Trigger) : Prop :=
  trigger ≠ .faint ∧ trigger ≠ .hurt ∧ trigger ≠ .beforeAttack ∧ trigger ≠ .afterAttack

instance (trigger : Trigger) : Decidable trigger.IsPlain :=
  inferInstanceAs (Decidable (trigger ≠ .faint ∧ trigger ≠ .hurt ∧ trigger ≠ .beforeAttack ∧
    trigger ≠ .afterAttack))

/-- Among the records is a faint of the pet. -/
def Fainted (records : List EventRecord) (id : PetId) : Prop :=
  ∃ r ∈ records, r.Reports .faint id

/-- The last two records that lie no deeper are on the level, the faint of the pet and a knockout. -/
def JustFainted (depth : Nat) (records : List EventRecord) (id : PetId) : Prop :=
  ∃ before f inner k inner', records = before ++ f :: (inner ++ k :: inner') ∧
    f.Reports .faint id ∧ f.depth = depth ∧ (∀ r ∈ inner, depth < r.depth) ∧
    k.trigger = .knockout ∧ k.depth = depth ∧ ∀ r ∈ inner', depth < r.depth

/-- What a record may say of a pet that has fainted before. It says of no hit, if the pet is to lie
`still`. -/
structure Discreet (still : Prop) (earlier : List EventRecord) (r : EventRecord) (id : PetId) :
    Prop where
  faint : ¬ r.Reports .faint id
  before : ¬ r.Reports .beforeAttack id
  after : ¬ r.Reports .afterAttack id
  notified : id ∈ r.notified → r.source = some id
  hurt : r.Reports .hurt id → ¬ still ∧ JustFainted r.depth earlier id

def EventLog.IsDiscreet (still : Prop) (log : EventLog) : Prop :=
  ∀ i r id, log.records.toList[i]? = some r → Fainted (log.headings.take i) id →
    Discreet still (log.headings.take i) r id

theorem Fainted.append {xs : List EventRecord} {id : PetId} (h : Fainted xs id)
    (ys : List EventRecord) : Fainted (xs ++ ys) id := by
  obtain ⟨r, hm, hr⟩ := h
  exact ⟨r, List.mem_append_left ys hm, hr⟩

theorem fainted_append {xs ys : List EventRecord} {id : PetId} :
    Fainted (xs ++ ys) id ↔ Fainted xs id ∨ Fainted ys id := by
  simp [Fainted, or_and_right, exists_or]

theorem not_fainted_of_calm {depth : Nat} {xs : List EventRecord} (h : Story false depth xs)
    (id : PetId) : ¬ Fainted xs id := by
  rintro ⟨r, hm, hr⟩
  exact h.not_faint rfl r hm hr.1

theorem fainted_branch {event : Event} {depth : Nat} {told : List EventRecord}
    (h : Branch false event depth told) {id : PetId} (hf : Fainted told id) :
    event.trigger = .faint ∧ event.source = some id := by
  obtain ⟨inner, hi, rfl⟩ := h
  obtain ⟨r, hm, hr⟩ := hf
  rcases List.mem_cons.1 hm with rfl | hm
  · exact hr
  · exact absurd ⟨r, hm, hr⟩ (not_fainted_of_calm hi id)

/-- A follow-up tells of no faint but that of the victim, and nothing after the knockout. -/
theorem Resolve.Aftermath.justFainted {target id : PetId} {depth : Nat} {told : List EventRecord}
    (h : Aftermath target depth told) (hf : Fainted told id) (earlier : List EventRecord) :
    JustFainted (depth + 1) (earlier ++ told) id := by
  cases h with
  | quiet =>
    obtain ⟨r, hm, _⟩ := hf
    cases hm
  | hurt ht branch =>
    have hfaint := (fainted_branch branch hf).1
    rw [ht] at hfaint
    cases hfaint
  | @faint event event' _ _ faints source branch knocks branch' =>
    rcases fainted_append.1 hf with hf | hf
    · obtain ⟨_, hid⟩ := fainted_branch branch hf
      obtain ⟨inner, hi, rfl⟩ := branch
      obtain ⟨inner', hi', rfl⟩ := branch'
      exact ⟨earlier, event.record (depth + 1), inner, event'.record (depth + 1), inner', rfl,
        ⟨faints, hid⟩, rfl, hi.deeper, knocks, rfl, hi'.deeper⟩
    · have hfaint := (fainted_branch branch' hf).1
      rw [knocks] at hfaint
      cases hfaint

/-! ## Discreet logs -/

namespace EventLog

variable {still : Prop} {log : EventLog}

theorem IsDiscreet.openRecord (h : log.IsDiscreet still) (he : log.enabled = true) {event : Event}
    {depth : Nat} (allowed : ∀ id, Fainted log.headings id →
      Discreet still log.headings (event.record depth) id) :
    (log.openRecord (event.record depth)).2.IsDiscreet still := by
  intro i r id hr hf
  rw [headings_openRecord he] at hf ⊢
  unfold EventLog.openRecord at hr
  rw [if_pos he] at hr
  have hr : (log.records.toList ++ [event.record depth])[i]? = some r := by simpa using hr
  have hlength := log.length_headings
  rw [← Array.length_toList] at hlength
  by_cases hi : i < log.records.toList.length
  · rw [List.getElem?_append_left hi] at hr
    rw [List.take_append_of_le_length (by omega)] at hf ⊢
    exact h i r id hr hf
  · have hlast : i = log.records.toList.length := by
      have hlt := (List.getElem?_eq_some_iff.1 hr).1
      rw [List.length_append, List.length_singleton] at hlt
      omega
    subst hlast
    rw [List.getElem?_concat_length] at hr
    cases hr
    rw [List.take_left' hlength] at hf ⊢
    exact allowed id hf

/-- The pets that an event reached are entered. -/
theorem IsDiscreet.setNotified (h : log.IsDiscreet still) {slot : Nat} {notified : List PetId}
    (hn : ∀ r, log.headings[slot]? = some r → ∀ id ∈ notified,
      Fainted (log.headings.take slot) id → r.source = some id) :
    (log.setNotified slot notified).IsDiscreet still := by
  intro i r id hr hf
  rw [headings_setNotified] at hf ⊢
  unfold EventLog.setNotified at hr
  rw [Array.toList_modify, List.getElem?_modify] at hr
  cases hold : log.records.toList[i]? with
  | none => simp [hold] at hr
  | some old =>
    rw [hold] at hr
    have discreet := h i old id hold hf
    by_cases hi : slot = i
    · subst hi
      simp only [if_true, Option.map_eq_map, Option.map_some, Option.some.injEq] at hr
      subst hr
      exact ⟨discreet.faint, discreet.before, discreet.after,
        fun hm => hn _ (heading_of_record hold) id hm hf, discreet.hurt⟩
    · simp only [hi, if_false, Option.map_eq_map, Option.map_some, Option.some.injEq] at hr
      subst hr
      exact discreet

theorem fainted_of_record {i j : Nat} {r : EventRecord} {id : PetId} (hij : i < j)
    (hi : log.records.toList[i]? = some r) (hf : r.Reports .faint id) :
    Fainted (log.headings.take j) id := by
  refine ⟨r.heading, List.mem_of_getElem? (i := i) ?_, hf⟩
  rw [List.getElem?_take_of_lt hij, heading_of_record hi]

/-- No two records are of faints of one pet. -/
theorem IsDiscreet.faints_once (h : log.IsDiscreet still) {i j : Nat} {r r' : EventRecord}
    {id : PetId} (hi : log.records.toList[i]? = some r) (hj : log.records.toList[j]? = some r')
    (hf : r.Reports .faint id) (hf' : r'.Reports .faint id) : i = j := by
  rcases Nat.lt_trichotomy i j with hij | hij | hij
  · exact absurd hf' (h j r' id hj (fainted_of_record hij hi hf)).faint
  · exact hij
  · exact absurd hf (h i r id hi (fainted_of_record hij hj hf')).faint

end EventLog

end AutoBattler
