/-!
# The two sides of a fight

`Sides α` holds one value for each side. Side `a` is the first of a pair everywhere: it is
notified first, its attacks are listed first, and a shop turn is played on it alone.
-/
namespace AutoBattler

inductive Side where
  | a
  | b
deriving DecidableEq

namespace Side

/-- Both sides in the order in which they act. -/
def all : List Side := [.a, .b]

def opponent : Side → Side
  | a => b
  | b => a

def name : Side → String
  | a => "A"
  | b => "B"

@[simp] theorem opponent_opponent (s : Side) : s.opponent.opponent = s := by cases s <;> rfl

theorem opponent_ne (s : Side) : s.opponent ≠ s := by cases s <;> decide

end Side

structure Sides (α : Type) where
  a : α
  b : α
deriving DecidableEq

namespace Sides

variable {α β : Type}

def get (p : Sides α) : Side → α
  | .a => p.a
  | .b => p.b

def set (p : Sides α) (x : α) : Side → Sides α
  | .a => { p with a := x }
  | .b => { p with b := x }

def update (p : Sides α) (s : Side) (f : α → α) : Sides α := p.set (f (p.get s)) s

def map (f : α → β) (p : Sides α) : Sides β := ⟨f p.a, f p.b⟩

/-- One value per side, computed from the side. -/
def tabulate (f : Side → α) : Sides α := ⟨f .a, f .b⟩

def toList (p : Sides α) : List α := [p.a, p.b]

@[simp] theorem get_set_self (p : Sides α) (x : α) (s : Side) : (p.set x s).get s = x := by
  cases s <;> rfl

theorem get_set_of_ne (p : Sides α) (x : α) {s t : Side} (h : t ≠ s) :
    (p.set x s).get t = p.get t := by
  cases s <;> cases t <;> first | rfl | exact absurd rfl h

@[simp] theorem get_update_self (p : Sides α) (s : Side) (f : α → α) :
    (p.update s f).get s = f (p.get s) := get_set_self _ _ _

theorem get_update_of_ne (p : Sides α) (f : α → α) {s t : Side} (h : t ≠ s) :
    (p.update s f).get t = p.get t := get_set_of_ne _ _ h

@[simp] theorem get_map (f : α → β) (p : Sides α) (s : Side) : (p.map f).get s = f (p.get s) := by
  cases s <;> rfl

@[simp] theorem get_tabulate (f : Side → α) (s : Side) : (tabulate f).get s = f s := by
  cases s <;> rfl

end Sides

end AutoBattler
