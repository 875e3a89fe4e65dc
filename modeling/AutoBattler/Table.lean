import Std.Data.ExtTreeMap

/-!
# Finite maps in key order

A `Table` is a balanced search tree of which only the contents count: tables with the same entries
are equal, and listing one goes in the order of the keys. A look-up takes one path of the tree, so
a table may hold all pets of a long battle.
-/
namespace AutoBattler

abbrev Table (κ α : Type) [Ord κ] := Std.ExtTreeMap κ α

namespace Table

variable {κ α : Type} [Ord κ] [Std.TransOrd κ]

/-- Files values under their keys. Of values with one key the last counts. -/
def ofValues (key : α → κ) (values : List α) : Table κ α :=
  values.foldl (fun t v => t.insert (key v) v) ∅

/-- The values in the order of their keys. -/
def inOrder (t : Table κ α) : List α := t.toList.map (·.2)

/-- Whether every value is filed under its own key. -/
def KeyedBy (key : α → κ) (t : Table κ α) : Prop := ∀ k v, t[k]? = some v → k = key v

theorem keyedBy_insert [Std.LawfulEqOrd κ] {key : α → κ} {t : Table κ α} (h : KeyedBy key t)
    (v : α) : KeyedBy key (t.insert (key v) v) := by
  intro k w hw
  rw [Std.ExtTreeMap.getElem?_insert] at hw
  split at hw
  · rename_i hk
    cases hw
    exact (Std.LawfulEqCmp.eq_of_compare hk).symm
  · exact h k w hw

theorem keyedBy_ofValues [Std.LawfulEqOrd κ] (key : α → κ) (values : List α) :
    KeyedBy key (ofValues key values) := by
  have fold (t : Table κ α) (ht : KeyedBy key t) :
      KeyedBy key (values.foldl (fun t v => t.insert (key v) v) t) := by
    induction values generalizing t with
    | nil => exact ht
    | cons v rest ih => exact ih _ (keyedBy_insert ht v)
  exact fold ∅ fun k v h => by simp at h

/-- A table is built again from its listing. -/
theorem ofList_toList [DecidableEq κ] [Std.LawfulEqOrd κ] (t : Table κ α) :
    Std.ExtTreeMap.ofList t.toList = t := by
  refine Std.ExtTreeMap.ext_getElem? fun k => ?_
  cases h : t[k]? with
  | some v =>
    exact Std.ExtTreeMap.getElem?_ofList_of_mem Std.ReflCmp.compare_self
      Std.ExtTreeMap.distinct_keys_toList (Std.ExtTreeMap.mem_toList_iff_getElem?_eq_some.2 h)
  | none =>
    refine Std.ExtTreeMap.getElem?_ofList_of_contains_eq_false ?_
    rw [Std.ExtTreeMap.map_fst_toList_eq_keys]
    simpa using h

end Table

end AutoBattler
