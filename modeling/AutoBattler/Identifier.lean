import AutoBattler.Order

/-!
# Identifiers

Pet kinds, statuses and foods go by names, pets on a board by numbers. Names are ordered by their
characters.
-/
namespace AutoBattler

inductive Namespace where
  | petKind
  | status
  | food

structure Name (space : Namespace) where
  text : String
deriving DecidableEq

namespace Name

variable {space : Namespace}

instance : Ord (Name space) := ⟨fun x y => compare x.text y.text⟩

instance : Std.TransOrd (Name space) := transOrd_of_key Name.text fun _ _ => rfl

instance : Std.LawfulEqOrd (Name space) :=
  lawfulEqOrd_of_key Name.text (fun _ _ => rfl) fun x y h => by cases x; cases y; simp_all

end Name

abbrev PetKindId := Name .petKind

abbrev StatusId := Name .status

abbrev FoodId := Name .food

/-- A pet on a board. Numbers are given out in the order of arrival. -/
structure PetId where
  number : Nat
deriving DecidableEq

namespace PetId

instance : Ord PetId := ⟨fun x y => compare x.number y.number⟩

instance : Std.TransOrd PetId := transOrd_of_key PetId.number fun _ _ => rfl

instance : Std.LawfulEqOrd PetId :=
  lawfulEqOrd_of_key PetId.number (fun _ _ => rfl) fun x y h => by cases x; cases y; simp_all

end PetId

end AutoBattler
