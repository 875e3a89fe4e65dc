import AutoBattler.Identifier
import AutoBattler.Table

/-!
# Lines

The pets of one side in line, from the back to the front. A line knows its members, so asking
whether a pet stands in it does not walk the line. A pet may stand in it more than once.
-/
namespace AutoBattler

structure Line where
  ids : List PetId
  members : Table PetId Unit
  mem_members : ∀ id, id ∈ members ↔ id ∈ ids
deriving DecidableEq

namespace Line

def empty : Line := ⟨[], ∅, fun _ => by simp⟩

def length (l : Line) : Nat := l.ids.length

def contains (l : Line) (id : PetId) : Bool := l.members.contains id

@[simp] theorem contains_iff (l : Line) (id : PetId) : l.contains id = true ↔ id ∈ l.ids :=
  l.mem_members id

/-! ## Changing a line -/

/-- Puts a pet at an index, at the end for an index past it. -/
def insertIdx (l : Line) (index : Nat) (id : PetId) : Line where
  ids := l.ids.insertIdx (min index l.length) id
  members := l.members.insert id ()
  mem_members x := by
    have h : min index l.length ≤ l.ids.length := Nat.min_le_right ..
    rw [Std.ExtTreeMap.mem_insert, List.mem_insertIdx h, l.mem_members,
      Std.LawfulEqCmp.compare_eq_iff_eq, eq_comm]

def ofList (ids : List PetId) : Line where
  ids := ids
  members := .ofList (ids.map fun id => (id, ()))
  mem_members id := by simp

/-- A pet that is no longer at one place is a member as long as it stands elsewhere. -/
def membersAfter (l : Line) (id : PetId) (rest : List PetId) : Table PetId Unit :=
  if rest.contains id then l.members else l.members.erase id

theorem mem_membersAfter {l : Line} {id : PetId} {rest : List PetId} (hl : ∀ x ∈ rest, x ∈ l.ids)
    (hr : ∀ x ∈ l.ids, x ≠ id → x ∈ rest) (x : PetId) : x ∈ l.membersAfter id rest ↔ x ∈ rest := by
  unfold membersAfter
  split
  · rename_i hid
    have hid : id ∈ rest := List.contains_iff_mem.1 hid
    rw [l.mem_members]
    refine ⟨fun hx => ?_, hl x⟩
    by_cases he : x = id
    · exact he ▸ hid
    · exact hr x hx he
  · rename_i hid
    rw [Std.ExtTreeMap.mem_erase, l.mem_members, Ne, Std.LawfulEqCmp.compare_eq_iff_eq]
    refine ⟨fun h => hr x h.2 (Ne.symm h.1), fun hx => ⟨fun he => hid ?_, hl x hx⟩⟩
    exact List.contains_iff_mem.2 (he ▸ hx)

/-- Takes the pet at an index out. -/
def eraseIdx (l : Line) (index : Nat) : Line :=
  match h : l.ids[index]? with
  | none => l
  | some id => {
    ids := l.ids.eraseIdx index
    members := l.membersAfter id (l.ids.eraseIdx index)
    mem_members := mem_membersAfter (fun _ => List.mem_of_mem_eraseIdx) fun x hx hne => by
      obtain ⟨i, hi⟩ := List.mem_iff_getElem?.1 hx
      refine List.mem_eraseIdx_iff_getElem?.2 ⟨i, fun he => hne ?_, hi⟩
      rw [he, h] at hi
      exact (Option.some.inj hi).symm }

/-- Puts another pet in the place of the one at an index. -/
def set (l : Line) (index : Nat) (id : PetId) : Line :=
  if index < l.length then (l.eraseIdx index).insertIdx index id else l

/-! ## The places of a line -/

@[simp] theorem ids_insertIdx (l : Line) (index : Nat) (id : PetId) :
    (l.insertIdx index id).ids = l.ids.insertIdx (min index l.length) id := rfl

@[simp] theorem ids_eraseIdx (l : Line) (index : Nat) :
    (l.eraseIdx index).ids = l.ids.eraseIdx index := by
  unfold eraseIdx
  split
  · rename_i h
    exact (List.eraseIdx_of_length_le (List.getElem?_eq_none_iff.1 h)).symm
  · rfl

theorem insertIdx_eraseIdx_self {α : Type} {xs : List α} {i : Nat} (x : α) (h : i < xs.length) :
    (xs.eraseIdx i).insertIdx i x = xs.set i x := by
  induction xs generalizing i with
  | nil => exact absurd h (Nat.not_lt_zero i)
  | cons y rest ih =>
    cases i with
    | zero => rfl
    | succ i => simpa using ih (Nat.lt_of_succ_lt_succ h)

@[simp] theorem ids_set (l : Line) (index : Nat) (id : PetId) :
    (l.set index id).ids = l.ids.set index id := by
  unfold set length
  split
  · rename_i h
    have hmin : min index (l.eraseIdx index).length = index := by
      simp only [length, ids_eraseIdx, List.length_eraseIdx, h, if_true]
      omega
    rw [ids_insertIdx, hmin, ids_eraseIdx, insertIdx_eraseIdx_self id h]
  · rename_i h
    exact (List.set_eq_of_length_le (Nat.not_lt.1 h)).symm

end Line

end AutoBattler
