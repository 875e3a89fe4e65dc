import AutoBattler.Proofs.Definitions
import AutoBattler.Proofs.Indexing

/-!
# What a catalog has under a name

A catalog that is made from lists has under each name the last definition that bears it. One that is
read from a text has what the text says, but for statuses and foods that wait for the purchase of a
pet, which wait for something else instead. The catalog of a pack leaves kinds out and nothing else.
-/
namespace AutoBattler

/-! ## Tables of values -/

namespace Table

theorem mem_inOrder_iff {κ α : Type} [Ord κ] [Std.TransOrd κ] [Std.LawfulEqOrd κ] {t : Table κ α}
    {v : α} : v ∈ t.inOrder ↔ ∃ k : κ, t[k]? = some v := by
  constructor
  · intro h
    obtain ⟨⟨k, w⟩, hm, rfl⟩ := List.mem_map.1 h
    exact ⟨k, Std.ExtTreeMap.mem_toList_iff_getElem?_eq_some.1 hm⟩
  · rintro ⟨k, h⟩
    exact mem_inOrder h

variable {κ α : Type} [DecidableEq κ] {key : α → κ}

/-- The last of the values with the key. -/
def last? (key : α → κ) (values : List α) (k : κ) : Option α :=
  values.reverse.find? fun v => key v = k

theorem last?_cons (key : α → κ) (v : α) (rest : List α) (k : κ) :
    last? key (v :: rest) k = (last? key rest k).or (if key v = k then some v else none) := by
  unfold last?
  rw [List.reverse_cons, List.find?_append, List.find?_singleton]
  simp only [decide_eq_true_eq]

theorem last?_map {f : α → α} (hf : ∀ v, key (f v) = key v) (values : List α) (k : κ) :
    last? key (values.map f) k = (last? key values k).map f := by
  unfold last?
  rw [← List.map_reverse, List.find?_map]
  simp only [Function.comp_def, hf]

variable [Ord κ] [Std.TransOrd κ] [Std.LawfulEqOrd κ] {t : Table κ α}

/-- By induction on the values, of which a later one takes the place of an earlier one. -/
theorem getElem?_ofValues (key : α → κ) (values : List α) (k : κ) :
    (ofValues key values)[k]? = last? key values k := by
  have fold (t : Table κ α) : (values.foldl (fun t v => t.insert (key v) v) t)[k]? =
      (last? key values k).or t[k]? := by
    induction values generalizing t with
    | nil => rfl
    | cons v rest ih =>
      rw [List.foldl_cons, ih, Std.ExtTreeMap.getElem?_insert, last?_cons, Option.or_assoc]
      simp only [Std.LawfulEqCmp.compare_eq_iff_eq]
      split <;> rfl
  rw [ofValues, fold]
  simp

/-- A table in which some values are left out, filed again. -/
theorem getElem?_ofValues_filter (h : t.KeyedBy key) (p : α → Bool) (k : κ) :
    (ofValues key (t.inOrder.filter p))[k]? = (t[k]?).filter p := by
  have stored {v : α} (hv : (ofValues key (t.inOrder.filter p))[k]? = some v) :
      t[k]? = some v ∧ p v = true := by
    obtain ⟨hm, hp⟩ := List.mem_filter.1 (mem_of_getElem?_ofValues key hv)
    obtain ⟨k', hk'⟩ := mem_inOrder_iff.1 hm
    rw [keyedBy_ofValues key _ k v hv, ← h k' v hk']
    exact ⟨hk', hp⟩
  cases hv : (ofValues key (t.inOrder.filter p))[k]? with
  | some v =>
    obtain ⟨ht, hp⟩ := stored hv
    rw [ht, Option.filter_some, if_pos hp]
  | none =>
    symm
    rw [Option.filter_eq_none_iff]
    intro v ht hp
    rw [getElem?_ofValues] at hv
    have none := List.find?_eq_none.1 hv v
      (List.mem_reverse.2 (List.mem_filter.2 ⟨mem_inOrder ht, hp⟩))
    exact none (decide_eq_true (h k v ht).symm)

theorem ofValues_inOrder (h : t.KeyedBy key) : ofValues key t.inOrder = t := by
  refine Std.ExtTreeMap.ext_getElem? fun k => ?_
  have all := getElem?_ofValues_filter h (fun _ => true) k
  rw [List.filter_true] at all
  rw [all]
  cases t[k]? <;> rfl

end Table

namespace Catalog

/-! ## Packs -/

/-- The index is made from the tables. -/
theorem eq_of_tables {c d : Catalog} (hp : c.pets = d.pets) (hs : c.statuses = d.statuses)
    (hf : c.foods = d.foods) : c = d := by
  have hi : c.index = d.index := by rw [c.indexed, d.indexed, hp, hs, hf]
  cases c
  cases d
  cases hp
  cases hs
  cases hf
  cases hi
  rfl

theorem pets_forPack (c : Catalog) (pack : String) (id : PetKindId) :
    (c.forPack pack).pets[id]? = (c.pets[id]?).filter fun kind => kind.packs.contains pack :=
  Table.getElem?_ofValues_filter c.petsKeyed _ id

theorem pets_forPack_eq_some {c : Catalog} {pack : String} {id : PetKindId} {kind : PetKind} :
    (c.forPack pack).pets[id]? = some kind ↔ c.pets[id]? = some kind ∧ pack ∈ kind.packs := by
  rw [pets_forPack, Option.filter_eq_some_iff, List.contains_iff_mem]

theorem statuses_forPack (c : Catalog) (pack : String) : (c.forPack pack).statuses = c.statuses :=
  Table.ofValues_inOrder c.statusesKeyed

theorem foods_forPack (c : Catalog) (pack : String) : (c.forPack pack).foods = c.foods :=
  Table.ofValues_inOrder c.foodsKeyed

theorem forPack_forPack (c : Catalog) (pack : String) :
    (c.forPack pack).forPack pack = c.forPack pack := by
  refine eq_of_tables (Std.ExtTreeMap.ext_getElem? fun id => ?_) (statuses_forPack _ _)
    (foods_forPack _ _)
  rw [pets_forPack, pets_forPack, Option.filter_filter]
  simp only [Bool.and_self]

/-! ## Texts -/

/-- The text says these definitions, each as it is written. -/
def Source (text : String) (pets : List PetKind) (statuses : List StatusKind) (foods : List Food) :
    Prop :=
  ∃ j fields, Json.parse? Json.nestingLimit text = some j ∧ Json.asRecord? j = some fields ∧
    fields.withDefault? "pets" [] (sectionOf? PetKind.ofJson?) = some pets ∧
    fields.withDefault? "statuses" [] (sectionOf? StatusKind.ofJson?) = some statuses ∧
    fields.withDefault? "foods" [] (sectionOf? Food.ofJson?) = some foods

theorem ofText_eq_ok_iff {text : String} {c : Catalog} : ofText text = .ok c ↔
    ∃ pets statuses foods, Source text pets statuses foods ∧ c = ofSource pets statuses foods := by
  have read : ofText text = .ok c ↔ (Json.parse? Json.nestingLimit text).bind ofJson? = some c := by
    unfold ofText
    cases (Json.parse? Json.nestingLimit text).bind ofJson? <;> simp
  rw [read]
  simp only [ofJson?, Option.bind_eq_bind, Option.bind_eq_some_iff, Option.pure_def,
    Option.some.injEq, Source]
  constructor
  · rintro ⟨j, hj, fields, hfields, pets, hp, statuses, hs, foods, hf, rfl⟩
    exact ⟨pets, statuses, foods, ⟨j, fields, hj, hfields, hp, hs, hf⟩, rfl⟩
  · rintro ⟨pets, statuses, foods, ⟨j, fields, hj, hfields, hp, hs, hf⟩, rfl⟩
    exact ⟨j, hj, fields, hfields, pets, hp, statuses, hs, foods, hf, rfl⟩

/-- A data file with these definitions under these names. -/
def fileOf (pets : List (String × PetKind)) (statuses : List (String × StatusKind))
    (foods : List (String × Food)) : Json :=
  .object [("pets", .object (pets.map fun entry => (entry.1, entry.2.toJson))),
    ("statuses", .object (statuses.map fun entry => (entry.1, entry.2.toJson))),
    ("foods", .object (foods.map fun entry => (entry.1, entry.2.toJson)))]

section

variable {α : Type} {read : Json → Option α} {write : α → Json} {InRange : α → Prop}
  (hf : Json.Form read write InRange) {entries : List (String × α)}
  (h : ∀ entry ∈ entries, InRange entry.2)
include hf h

theorem sectionOf?_written :
    sectionOf? read (.object (entries.map fun entry => (entry.1, write entry.2))) =
      some (Table.inOrder (.ofList entries)) := by
  have pairs : (entries.map fun entry => (entry.1, write entry.2)).mapM
      (fun field => (read field.2).map fun value => (field.1, value)) = some entries := by
    refine Json.mapM_map_eq_some fun entry he => ?_
    rw [hf.back _ (h entry he)]
    rfl
  exact Json.bind_eq_some rfl (Json.bind_eq_some pairs rfl)

theorem writable_section :
    (Json.object (entries.map fun entry => (entry.1, write entry.2))).Writable := by
  refine ⟨rfl, Json.writableFields_iff.2 fun field hm => ?_⟩
  obtain ⟨entry, he, rfl⟩ := List.mem_map.1 hm
  exact hf.writable _ (h entry he)

end

/-- Definitions in range that are written in a file are what its text says, in the order of the
names that they are written under. -/
theorem source_fileOf {pets : List (String × PetKind)} {statuses : List (String × StatusKind)}
    {foods : List (String × Food)} (hp : ∀ entry ∈ pets, entry.2.InRange)
    (hs : ∀ entry ∈ statuses, entry.2.InRange) (hf : ∀ entry ∈ foods, entry.2.InRange)
    (hd : (fileOf pets statuses foods).depth ≤ Json.nestingLimit) {text : String}
    (ht : Json.Spells text (fileOf pets statuses foods)) :
    Source text (Table.inOrder (.ofList pets)) (Table.inOrder (.ofList statuses))
      (Table.inOrder (.ofList foods)) := by
  have writable : (fileOf pets statuses foods).Writable :=
    ⟨rfl, writable_section form_petKind hp, writable_section form_statusKind hs,
      writable_section form_food hf, trivial⟩
  exact ⟨_, _, Json.parse?_of_spells ht writable hd, rfl, sectionOf?_written form_petKind hp,
    sectionOf?_written form_statusKind hs, sectionOf?_written form_food hf⟩

/-- The ability waits for another trigger if it is declared for the purchase of a pet. -/
def retarget (other : Trigger) (ability : Ability) : Ability :=
  { ability with trigger := if ability.trigger = .buy then other else ability.trigger }

theorem trigger_retarget {other : Trigger} (h : other ≠ .buy) (ability : Ability) :
    (retarget other ability).trigger ≠ .buy := by
  unfold retarget
  dsimp only
  split
  · exact h
  · assumption

theorem retarget_of_ne {ability : Ability} (h : ability.trigger ≠ .buy) (other : Trigger) :
    retarget other ability = ability := by
  unfold retarget
  rw [if_neg h]

theorem normalizeStatus_eq (status : StatusKind) :
    normalizeStatus status = { status with ability := retarget .afterAttack status.ability } := by
  unfold normalizeStatus
  split
  · rename_i h
    rw [retarget, if_pos h]
  · rename_i h
    rw [retarget_of_ne h]

theorem normalizeFood_eq (food : Food) :
    normalizeFood food = { food with ability := retarget .buyFood food.ability } := by
  unfold normalizeFood
  split
  · rename_i h
    rw [retarget, if_pos h]
  · rename_i h
    rw [retarget_of_ne h]

/-- The catalog has the last of the definitions of each name, as they are written but for what waits
for the purchase of a pet. -/
structure Holds (c : Catalog) (pets : List PetKind) (statuses : List StatusKind)
    (foods : List Food) : Prop where
  pets : ∀ id, c.pets[id]? = Table.last? PetKind.id pets id
  statuses : ∀ id, c.statuses[id]? = (Table.last? StatusKind.id statuses id).map fun status =>
    { status with ability := retarget .afterAttack status.ability }
  foods : ∀ id, c.foods[id]? = (Table.last? Food.id foods id).map fun food =>
    { food with ability := retarget .buyFood food.ability }

theorem holds_ofSource (pets : List PetKind) (statuses : List StatusKind) (foods : List Food) :
    (ofSource pets statuses foods).Holds pets statuses foods where
  pets := Table.getElem?_ofValues _ pets
  statuses id := by
    have kept (status : StatusKind) : (normalizeStatus status).id = status.id := by
      rw [normalizeStatus_eq]
    rw [ofSource, ofLists, Table.getElem?_ofValues, Table.last?_map kept, funext normalizeStatus_eq]
  foods id := by
    have kept (food : Food) : (normalizeFood food).id = food.id := by rw [normalizeFood_eq]
    rw [ofSource, ofLists, Table.getElem?_ofValues, Table.last?_map kept, funext normalizeFood_eq]

namespace Holds

variable {c d : Catalog} {pets : List PetKind} {statuses : List StatusKind} {foods : List Food}

theorem unique (h : c.Holds pets statuses foods) (h' : d.Holds pets statuses foods) : c = d :=
  eq_of_tables (Std.ExtTreeMap.ext_getElem? fun id => (h.pets id).trans (h'.pets id).symm)
    (Std.ExtTreeMap.ext_getElem? fun id => (h.statuses id).trans (h'.statuses id).symm)
    (Std.ExtTreeMap.ext_getElem? fun id => (h.foods id).trans (h'.foods id).symm)

theorem status_waits (h : c.Holds pets statuses foods) {id : StatusId} {status : StatusKind}
    (hs : c.statuses[id]? = some status) : status.ability.trigger ≠ .buy := by
  rw [h.statuses] at hs
  obtain ⟨written, -, rfl⟩ := Option.map_eq_some_iff.1 hs
  exact trigger_retarget (by decide) _

theorem food_waits (h : c.Holds pets statuses foods) {id : FoodId} {food : Food}
    (hf : c.foods[id]? = some food) : food.ability.trigger ≠ .buy := by
  rw [h.foods] at hf
  obtain ⟨written, -, rfl⟩ := Option.map_eq_some_iff.1 hf
  exact trigger_retarget (by decide) _

end Holds

/-- A text that says definitions is read, as the one catalog that holds them. -/
theorem ofText_eq_ok_iff_holds {text : String} {c : Catalog} : ofText text = .ok c ↔
    ∃ pets statuses foods, Source text pets statuses foods ∧ c.Holds pets statuses foods := by
  rw [ofText_eq_ok_iff]
  constructor
  · rintro ⟨pets, statuses, foods, source, rfl⟩
    exact ⟨pets, statuses, foods, source, holds_ofSource pets statuses foods⟩
  · rintro ⟨pets, statuses, foods, source, holds⟩
    exact ⟨pets, statuses, foods, source, holds.unique (holds_ofSource pets statuses foods)⟩

end Catalog

end AutoBattler
