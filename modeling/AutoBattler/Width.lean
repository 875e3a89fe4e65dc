/-!
# Machine integers

Stats, gold, damage and percentages are signed integers of 32 bits, experience is an unsigned one.
A sum, difference or product that leaves the range wraps around: it is the exact one, and then the
number of the range that it is congruent to.
-/
namespace AutoBattler

/-- Signed numbers of 32 bits. -/
abbrev IsInt32 (n : Int) : Prop := -2147483648 ≤ n ∧ n ≤ 2147483647

/-- Wraps a number around to a signed one of 32 bits. -/
def int32 (n : Int) : Int := (n + 2147483648) % 4294967296 - 2147483648

/-- Wraps a number around to an unsigned one of 32 bits. -/
def nat32 (n : Nat) : Nat := n % 4294967296

theorem isInt32_int32 (n : Int) : IsInt32 (int32 n) := by
  unfold IsInt32 int32
  omega

theorem int32_of_isInt32 {n : Int} (h : IsInt32 n) : int32 n = n := by
  unfold IsInt32 at h
  unfold int32
  omega

/-- A sum that was wrapped on the way is wrapped as if it had not been. -/
theorem int32_int32_add (m n : Int) : int32 (int32 m + n) = int32 (m + n) := by
  unfold int32
  omega

theorem int32_int32_sub (m n : Int) : int32 (int32 m - n) = int32 (m - n) := by
  unfold int32
  omega

theorem nat32_of_lt {n : Nat} (h : n < 4294967296) : nat32 n = n := Nat.mod_eq_of_lt h

end AutoBattler
