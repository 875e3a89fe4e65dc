/-!
# Orders by a key

A type that is compared by a key inherits the laws of the order of the keys, and equal keys must
come from equal values for `compare` to decide equality.
-/
namespace AutoBattler

variable {α β : Type} [Ord α] [Ord β]

theorem transOrd_of_key [Std.TransOrd β] (key : α → β)
    (h : ∀ x y : α, compare x y = compare (key x) (key y)) : Std.TransOrd α where
  eq_swap {x y} := by rw [h, h]; exact Std.OrientedCmp.eq_swap
  isLE_trans {x y z} hxy hyz := by
    rw [h] at *
    exact Std.TransCmp.isLE_trans hxy hyz

theorem lawfulEqOrd_of_key [Std.LawfulEqOrd β] (key : α → β)
    (h : ∀ x y : α, compare x y = compare (key x) (key y))
    (injective : ∀ x y : α, key x = key y → x = y) : Std.LawfulEqOrd α where
  compare_self {x} := by rw [h]; exact Std.ReflCmp.compare_self
  eq_of_compare {x y} hxy := by
    rw [h] at hxy
    exact injective x y (Std.LawfulEqCmp.eq_of_compare hxy)

end AutoBattler
