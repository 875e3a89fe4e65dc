import AutoBattler.Random.Draw
import Mathlib.Data.List.Nodup

/-!
# Distinct draws

Whatever words the generator gives, a sample has as many indices as were asked for, all of them in
range and none twice, whichever of the three ways of drawing is taken. So a pick from a pool without
repetitions has none either. Nothing is said of how likely a pick is.
-/
namespace AutoBattler.Random.Generator

/-- The indices are below the bound and none of them comes twice. -/
structure Distinct (bound : Nat) (indices : List Nat) : Prop where
  lt : ∀ i ∈ indices, i < bound
  nodup : indices.Nodup

variable {bound length amount count : Nat} {l indices chosen : List Nat} {g : Generator}

theorem distinct_nil (bound : Nat) : Distinct bound [] := ⟨nofun, List.nodup_nil⟩

theorem distinct_range (length : Nat) : Distinct length (List.range length) :=
  ⟨fun _ hi => List.mem_range.1 hi, List.nodup_range⟩

theorem Distinct.perm (h : Distinct bound indices) (hp : l.Perm indices) : Distinct bound l :=
  ⟨fun i hi => h.lt i (hp.mem_iff.1 hi), hp.nodup_iff.2 h.nodup⟩

theorem Distinct.sublist (h : Distinct bound indices) (hs : l.Sublist indices) :
    Distinct bound l :=
  ⟨fun i hi => h.lt i (hs.subset hi), h.nodup.sublist hs⟩

/-- A further index that is not among them yet. -/
theorem Distinct.cons {i : Nat} (h : Distinct bound indices) (hi : i < bound + 1)
    (hn : i ∉ indices) : Distinct (bound + 1) (i :: indices) := by
  refine ⟨fun j hj => ?_, List.nodup_cons.2 ⟨hn, h.nodup⟩⟩
  rcases List.mem_cons.1 hj with rfl | hj
  · exact hi
  · exact Nat.lt_succ_of_lt (h.lt j hj)

/-! ## Shuffling -/

theorem swap_perm (l : List Nat) (i j : Nat) : (swap l i j).Perm l := by
  unfold swap
  split
  · rename_i x y hx hy
    obtain ⟨hi, rfl⟩ := List.getElem?_eq_some_iff.1 hx
    obtain ⟨hj, rfl⟩ := List.getElem?_eq_some_iff.1 hy
    exact List.set_set_perm hi hj
  · exact .refl l

theorem shuffleFrom_perm (length count i : Nat) (l : List Nat) (g : Generator) :
    (shuffleFrom length count i l g).1.Perm l := by
  induction count generalizing i l g with
  | zero => exact .refl l
  | succ count ih => exact (ih _ _ _).trans (swap_perm l _ _)

theorem shuffleDown_perm (count : Nat) (l : List Nat) (g : Generator) :
    (shuffleDown count l g).1.Perm l := by
  fun_induction shuffleDown count l g with
  | case1 l g | case2 l g => exact .refl l
  | case3 count l g j g' _ ih => exact ih.trans (swap_perm l _ _)

/-! ## Adding one index after the other -/

/-- What is drawn is added if it is new, and else the bound itself, which always is. -/
theorem addBelow_perm (inPlace : Bool) (h : Distinct bound chosen) (g : Generator) :
    ∃ i, i < bound + 1 ∧ i ∉ chosen ∧ (addBelow inPlace bound chosen g).1.Perm (i :: chosen) := by
  have fresh : bound ∉ chosen := fun hm => Nat.lt_irrefl _ (h.lt bound hm)
  unfold addBelow
  dsimp only
  split
  · rename_i hnone
    exact ⟨(g.below (bound + 1)).1, below_lt g (Nat.succ_pos bound), List.idxOf?_eq_none_iff.1 hnone,
      List.perm_append_singleton _ _⟩
  · rename_i place hplace
    obtain ⟨hlt, _⟩ := List.idxOf?_eq_some_iff.1 hplace
    refine ⟨bound, Nat.lt_succ_self bound, fresh, ?_⟩
    cases inPlace with
    | false => exact List.perm_append_singleton _ _
    | true => exact List.perm_insertIdx bound chosen (Nat.le_of_lt hlt)

theorem addRange_distinct (inPlace : Bool) (count : Nat) (h : Distinct bound chosen)
    (g : Generator) :
    Distinct (bound + count) (addRange inPlace count bound chosen g).1 ∧
      (addRange inPlace count bound chosen g).1.length = chosen.length + count := by
  induction count generalizing bound chosen g with
  | zero => exact ⟨h, rfl⟩
  | succ count ih =>
    obtain ⟨i, hlt, hnew, hperm⟩ := addBelow_perm inPlace h g
    obtain ⟨distinct, length⟩ := ih ((h.cons hlt hnew).perm hperm) (addBelow inPlace bound chosen g).2
    rw [hperm.length_eq, List.length_cons] at length
    have total (n : Nat) : n + (count + 1) = n + 1 + count := by omega
    rw [total, total]
    exact ⟨distinct, length⟩

/-! ## Samples and picks -/

theorem sample_distinct (g : Generator) (h : amount ≤ length) :
    Distinct length (g.sample length amount).1 ∧ (g.sample length amount).1.length = amount := by
  have added (inPlace : Bool) := addRange_distinct inPlace amount (distinct_nil (length - amount)) g
  simp only [Nat.sub_add_cancel h, List.length_nil, Nat.zero_add] at added
  unfold sample
  split
  · have shuffled := shuffleFrom_perm length amount 0 (List.range length) g
    refine ⟨((distinct_range length).perm shuffled).sublist (List.take_sublist _ _), ?_⟩
    rw [List.length_take, shuffled.length_eq, List.length_range]
    exact Nat.min_eq_left h
  · split
    · exact added true
    · obtain ⟨distinct, counted⟩ := added false
      have shuffled := shuffleDown_perm amount
        (addRange false amount (length - amount) [] g).1
        (addRange false amount (length - amount) [] g).2
      exact ⟨distinct.perm shuffled, shuffled.length_eq.trans counted⟩

section

variable {α : Type} {pool : List α}

theorem length_pick (g : Generator) (pool : List α) (amount : Nat) :
    (g.pick pool amount).1.length = min amount pool.length := by
  unfold pick
  dsimp only
  split
  · rename_i hnone
    exact hnone.symm
  · obtain ⟨distinct, length⟩ := sample_distinct g (Nat.min_le_right amount pool.length)
    refine (List.filterMap_length_eq_length.2 fun i hi => ?_).trans length
    rw [List.getElem?_eq_getElem (distinct.lt i hi)]
    rfl

theorem nodup_pick (g : Generator) (h : pool.Nodup) (amount : Nat) :
    (g.pick pool amount).1.Nodup := by
  unfold pick
  dsimp only
  split
  · exact List.nodup_nil
  · obtain ⟨distinct, _⟩ := sample_distinct g (Nat.min_le_right amount pool.length)
    refine distinct.nodup.filterMap fun i j x hi hj => ?_
    obtain ⟨hlt, _⟩ := List.getElem?_eq_some_iff.1 hi
    exact (List.getElem?_inj hlt h).1 (Eq.trans hi hj.symm)

end

end AutoBattler.Random.Generator
