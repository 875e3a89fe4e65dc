/-!
# Queues

First in, first out. The line is kept in two halves, the back half turned round, so that joining
at the end costs as little as leaving at the front. `toList` is the line as one list; each
operation is stated through it.
-/
namespace AutoBattler

structure Queue (α : Type) where
  /-- The front half, oldest first. -/
  front : List α
  /-- The back half, newest first. -/
  back : List α
  back_eq_nil : front = [] → back = []

namespace Queue

variable {α : Type}

def empty : Queue α := ⟨[], [], fun _ => rfl⟩

def toList (q : Queue α) : List α := q.front ++ q.back.reverse

def length (q : Queue α) : Nat := q.front.length + q.back.length

def head? (q : Queue α) : Option α := q.front.head?

/-- The queue with a new last element. -/
def push (q : Queue α) (x : α) : Queue α :=
  match q.front with
  | [] => ⟨[x], [], nofun⟩
  | y :: front => ⟨y :: front, x :: q.back, nofun⟩

/-- The queue without its first element. -/
def tail (q : Queue α) : Queue α :=
  match q.front with
  | [] | [_] => ⟨q.back.reverse, [], fun _ => rfl⟩
  | _ :: y :: front => ⟨y :: front, q.back, nofun⟩

/-! ## The line as a list -/

@[simp] theorem toList_empty : (empty : Queue α).toList = [] := rfl

@[simp] theorem length_toList (q : Queue α) : q.toList.length = q.length := by
  simp [toList, length]

@[simp] theorem head?_toList (q : Queue α) : q.toList.head? = q.head? := by
  cases h : q.front with
  | nil => simp [toList, head?, h, q.back_eq_nil h]
  | cons y front => simp [toList, head?, h]

@[simp] theorem toList_push (q : Queue α) (x : α) : (q.push x).toList = q.toList ++ [x] := by
  unfold push
  split <;> rename_i h
  · simp [toList, h, q.back_eq_nil h]
  · simp [toList, h]

@[simp] theorem toList_tail (q : Queue α) : q.tail.toList = q.toList.tail := by
  unfold tail
  split <;> rename_i h
  · simp [toList, h, q.back_eq_nil h]
  · simp [toList, h]
  · simp [toList, h]

/-- One element less, unless there was none. -/
@[simp] theorem length_tail (q : Queue α) : q.tail.length = q.length - 1 := by
  rw [← length_toList, toList_tail, List.length_tail, length_toList]

end Queue

end AutoBattler
