import AutoBattler.Proofs.Filing

/-!
# The index against the definitions

The index of a catalog says neither less nor more than the definitions. Under a trigger stand the
kinds that wait for it at some level, with the kinds that hand abilities on, and the statuses and foods
that are declared for it; there is an entry for every trigger that some definition stands under, and
for no other.
-/
namespace AutoBattler

namespace Effect

/-- The effect itself or one nested in it, at any depth. -/
inductive Part : Effect → Effect → Prop
  | self (e : Effect) : Part e e
  | oneOf {part e : Effect} {effects : List Effect} (hm : e ∈ effects) (hp : Part part e) :
      Part part (.oneOf effects)
  | allOf {part e : Effect} {effects : List Effect} (hm : e ∈ effects) (hp : Part part e) :
      Part part (.allOf effects)

variable {p : Effect → Bool}

theorem anyOf_of_mem {e : Effect} {effects : List Effect} (hm : e ∈ effects)
    (h : e.any p = true) : anyOf p effects = true := by
  induction hm with
  | head => rw [anyOf, h, Bool.true_or]
  | tail _ _ ih => rw [anyOf, ih, Bool.or_true]

theorem any_of_part {part e : Effect} (hp : Part part e) (h : p part = true) : e.any p = true := by
  induction hp with
  | self =>
    unfold any
    rw [h, Bool.true_or]
  | oneOf hm _ ih =>
    unfold any
    dsimp only
    rw [anyOf_of_mem hm ih, Bool.or_true]
  | allOf hm _ ih =>
    unfold any
    dsimp only
    rw [anyOf_of_mem hm ih, Bool.or_true]

mutual

theorem part_of_any {e : Effect} (h : e.any p = true) : ∃ part, Part part e ∧ p part = true := by
  unfold any at h
  rcases Bool.or_eq_true_iff.1 h with h | h
  · exact ⟨e, .self e, h⟩
  · cases e with
    | oneOf effects =>
      obtain ⟨e, hm, part, hp, h⟩ := part_of_anyOf h
      exact ⟨part, .oneOf hm hp, h⟩
    | allOf effects =>
      obtain ⟨e, hm, part, hp, h⟩ := part_of_anyOf h
      exact ⟨part, .allOf hm hp, h⟩
    | _ => cases h

theorem part_of_anyOf {effects : List Effect} (h : anyOf p effects = true) :
    ∃ e ∈ effects, ∃ part, Part part e ∧ p part = true := by
  cases effects with
  | nil => cases h
  | cons e rest =>
    rcases Bool.or_eq_true_iff.1 h with h | h
    · exact ⟨e, List.mem_cons_self, part_of_any h⟩
    · obtain ⟨e, hm, found⟩ := part_of_anyOf h
      exact ⟨e, List.mem_cons_of_mem _ hm, found⟩

end

end Effect

/-! ## What a definition stands under -/

namespace PetKind

/-- Some ability of the kind hands abilities on, in whatever it is nested. -/
def HandsOn (kind : PetKind) : Prop :=
  ∃ level ability giver receivers bound, kind.ability level = some ability ∧
    Effect.Part (.transferAbility giver receivers bound) ability.effect

/-- The kind waits for the trigger at some level, or may come to use an ability that does. -/
def Covers (kind : PetKind) (trigger : Trigger) : Prop :=
  (∃ level ability, kind.ability level = some ability ∧ ability.trigger = trigger) ∨ kind.HandsOn

theorem transfersAbility_iff {kind : PetKind} : kind.transfersAbility = true ↔ kind.HandsOn := by
  rw [transfersAbility, List.any_eq_true]
  constructor
  · rintro ⟨ability, hm, h⟩
    obtain ⟨level, hl⟩ := mem_abilities.1 hm
    obtain ⟨part, hp, h⟩ := Effect.part_of_any h
    cases part with
    | transferAbility giver receivers bound =>
      exact ⟨level, ability, giver, receivers, bound, hl, hp⟩
    | _ => cases h
  · rintro ⟨level, ability, giver, receivers, bound, hl, hp⟩
    exact ⟨ability, mem_abilities.2 ⟨level, hl⟩, Effect.any_of_part hp rfl⟩

theorem mem_triggers_iff {kind : PetKind} {trigger : Trigger} :
    trigger ∈ kind.triggers ↔ kind.Covers trigger := by
  unfold triggers Covers
  rw [← transfersAbility_iff]
  by_cases h : kind.transfersAbility = true
  · rw [if_pos h]
    exact ⟨fun _ => .inr h, fun _ => trigger.mem_all⟩
  · rw [if_neg h, List.mem_map]
    constructor
    · rintro ⟨ability, hm, rfl⟩
      obtain ⟨level, hl⟩ := mem_abilities.1 hm
      exact .inl ⟨level, ability, hl, rfl⟩
    · rintro (⟨level, ability, hl, rfl⟩ | transfers)
      · exact ⟨ability, mem_abilities.2 ⟨level, hl⟩, rfl⟩
      · exact absurd transfers h

end PetKind

/-- Some kind, status or food stands under the trigger. -/
inductive Catalog.Declares (c : Catalog) (trigger : Trigger) : Prop
  | kind {id : PetKindId} {kind : PetKind} (hk : c.pets[id]? = some kind)
      (h : kind.Covers trigger)
  | status {id : StatusId} {status : StatusKind} (hs : c.statuses[id]? = some status)
      (h : status.ability.trigger = trigger)
  | food {id : FoodId} {food : Food} (hf : c.foods[id]? = some food)
      (h : food.ability.trigger = trigger)

/-! ## What registering adds -/

namespace TriggerIndex

section

variable {α : Type} {P : TriggerIndex → Prop} {Q : α → Prop}
  (step : TriggerIndex → α → TriggerIndex)

/-- What is registered for one is added for each. -/
theorem foldl_iff (h : ∀ index x, P (step index x) ↔ P index ∨ Q x) (xs : List α)
    (index : TriggerIndex) : P (xs.foldl step index) ↔ P index ∨ ∃ x ∈ xs, Q x := by
  induction xs generalizing index with
  | nil => simp
  | cons x rest ih => rw [List.foldl_cons, ih, h, or_assoc, List.exists_mem_cons_iff]

end

variable {pets : List PetKind} {statuses : List StatusKind} {foods : List Food}
  {index : TriggerIndex} {trigger told : Trigger}

theorem mem_update {f : Listeners → Listeners} :
    trigger ∈ (index.update told f).entries ↔ trigger ∈ index.entries ∨ told = trigger := by
  unfold update
  rw [Std.ExtTreeMap.mem_insert, Std.LawfulEqCmp.compare_eq_iff_eq, or_comm]

theorem mem_registerKind_entries (index : TriggerIndex) (kind : PetKind) :
    trigger ∈ (index.registerKind kind).entries ↔
      trigger ∈ index.entries ∨ trigger ∈ kind.triggers := by
  have registered := foldl_iff (P := fun index => trigger ∈ index.entries)
    (fun index told => index.registerPet told kind.id) (fun _ _ => mem_update) kind.triggers index
  unfold registerKind
  simpa using registered

/-- There is an entry for what some definition stands under. -/
theorem mem_build_entries : trigger ∈ (build pets statuses foods).entries ↔
    (∃ kind ∈ pets, trigger ∈ kind.triggers) ∨
      (∃ status ∈ statuses, status.ability.trigger = trigger) ∨
      ∃ food ∈ foods, food.ability.trigger = trigger := by
  let P (index : TriggerIndex) : Prop := trigger ∈ index.entries
  have kinds := foldl_iff (P := P) registerKind mem_registerKind_entries pets empty
  have marked := foldl_iff (P := P) registerStatus (fun _ _ => mem_update) statuses
    (pets.foldl registerKind empty)
  have fed := foldl_iff (P := P) registerFood (fun _ _ => mem_update) foods
    (statuses.foldl registerStatus (pets.foldl registerKind empty))
  have none : ¬ P empty := Std.ExtTreeMap.not_mem_empty
  rw [marked, kinds, or_iff_right none, or_assoc] at fed
  exact fed

theorem petsFor_ordered (index : TriggerIndex) (trigger : Trigger) :
    (index.petsFor trigger).Pairwise fun x y => x.text < y.text := by
  have ordered : (index.petsFor trigger).Pairwise fun x y => compare x y = .lt :=
    Std.ExtTreeMap.ordered_keys
  exact ordered.imp fun h => compareOfLessAndEq_eq_lt.1 h

/-! ### Foods -/

/-- The foods that are registered under the trigger. -/
def foodsFor (trigger : Trigger) (index : TriggerIndex) : Table FoodId Unit :=
  (index.listeners trigger).foods

theorem foodsFor_update {f : Listeners → Listeners} (hf : ∀ l, (f l).foods = l.foods) :
    foodsFor trigger (index.update told f) = foodsFor trigger index := by
  unfold foodsFor
  by_cases h : trigger = told
  · subst h
    rw [listeners_update_self, hf]
  · rw [listeners_update_of_ne h]

theorem foodsFor_foldl {α : Type} {step : TriggerIndex → α → TriggerIndex}
    (h : ∀ index x, foodsFor trigger (step index x) = foodsFor trigger index) (xs : List α)
    (index : TriggerIndex) : foodsFor trigger (xs.foldl step index) = foodsFor trigger index := by
  induction xs generalizing index with
  | nil => rfl
  | cons x rest ih => rw [List.foldl_cons, ih, h]

theorem foodsFor_registerPet (index : TriggerIndex) (told : Trigger) (id : PetKindId) :
    foodsFor trigger (index.registerPet told id) = foodsFor trigger index :=
  foodsFor_update fun _ => rfl

theorem foodsFor_registerKind (index : TriggerIndex) (kind : PetKind) :
    foodsFor trigger (index.registerKind kind) = foodsFor trigger index :=
  foodsFor_foldl (fun index told => foodsFor_registerPet index told kind.id) kind.triggers index

theorem foodsFor_registerStatus (index : TriggerIndex) (status : StatusKind) :
    foodsFor trigger (index.registerStatus status) = foodsFor trigger index :=
  foodsFor_update fun _ => rfl

theorem foodsFor_empty : foodsFor trigger empty = ∅ := by
  unfold foodsFor listeners empty
  simp [Listeners.none]

theorem mem_registerFood {id : FoodId} (index : TriggerIndex) (food : Food) :
    id ∈ foodsFor trigger (index.registerFood food) ↔
      id ∈ foodsFor trigger index ∨ (food.id = id ∧ food.ability.trigger = trigger) := by
  unfold foodsFor registerFood
  by_cases h : trigger = food.ability.trigger
  · subst h
    rw [listeners_update_self, Std.ExtTreeMap.mem_insert, Std.LawfulEqCmp.compare_eq_iff_eq, or_comm,
      and_iff_left rfl]
  · rw [listeners_update_of_ne h, or_iff_left fun found => h found.2.symm]

/-- Only foods register foods. -/
theorem mem_foodsFor_build {id : FoodId} : id ∈ foodsFor trigger (build pets statuses foods) ↔
    ∃ food ∈ foods, food.id = id ∧ food.ability.trigger = trigger := by
  have fed := foldl_iff (P := fun index => id ∈ foodsFor trigger index) registerFood mem_registerFood
    foods (statuses.foldl registerStatus (pets.foldl registerKind empty))
  rw [foodsFor_foldl foodsFor_registerStatus, foodsFor_foldl foodsFor_registerKind, foodsFor_empty,
    or_iff_right Std.ExtTreeMap.not_mem_empty] at fed
  exact fed

end TriggerIndex

/-! ## Neither less nor more -/

/-- The index says of the catalog what the definitions say. -/
structure TriggerIndex.Matches (index : TriggerIndex) (c : Catalog) : Prop where
  ordered : ∀ trigger, (index.petsFor trigger).Pairwise fun x y => x.text < y.text
  kinds : ∀ trigger id, id ∈ index.petsFor trigger ↔
    ∃ kind, c.pets[id]? = some kind ∧ kind.Covers trigger
  foods : ∀ trigger id, index.foodReacts trigger id = true ↔
    ∃ food, c.foods[id]? = some food ∧ food.ability.trigger = trigger
  size : ∃ declared : List Trigger, declared.Nodup ∧
    (∀ trigger, trigger ∈ declared ↔ c.Declares trigger) ∧ index.size = declared.length

namespace Catalog

variable {c : Catalog} {trigger : Trigger}

theorem mem_petsFor_iff {id : PetKindId} : id ∈ c.index.petsFor trigger ↔
    ∃ kind, c.pets[id]? = some kind ∧ kind.Covers trigger := by
  rw [TriggerIndex.petsFor, Std.ExtTreeMap.mem_keys, c.indexed]
  constructor
  · intro h
    obtain ⟨kind, hm, rfl, ht⟩ := TriggerIndex.ofKinds_build _ _ _ trigger id h
    obtain ⟨id, hk⟩ := Table.mem_inOrder_iff.1 hm
    exact ⟨kind, c.petsKeyed id kind hk ▸ hk, PetKind.mem_triggers_iff.1 ht⟩
  · rintro ⟨kind, hk, ht⟩
    rw [c.petsKeyed id kind hk]
    exact TriggerIndex.mem_build_of_kind (Table.mem_inOrder hk) (PetKind.mem_triggers_iff.2 ht)

theorem foodReacts_iff {id : FoodId} : c.index.foodReacts trigger id = true ↔
    ∃ food, c.foods[id]? = some food ∧ food.ability.trigger = trigger := by
  show id ∈ TriggerIndex.foodsFor trigger c.index ↔ _
  rw [c.indexed, TriggerIndex.mem_foodsFor_build]
  constructor
  · rintro ⟨food, hm, rfl, ht⟩
    obtain ⟨id, hf⟩ := Table.mem_inOrder_iff.1 hm
    exact ⟨food, c.foodsKeyed id food hf ▸ hf, ht⟩
  · rintro ⟨food, hf, ht⟩
    exact ⟨food, Table.mem_inOrder hf, (c.foodsKeyed id food hf).symm, ht⟩

theorem mem_entries_iff : trigger ∈ c.index.entries ↔ c.Declares trigger := by
  rw [c.indexed, TriggerIndex.mem_build_entries]
  constructor
  · rintro (⟨kind, hm, ht⟩ | ⟨status, hm, ht⟩ | ⟨food, hm, ht⟩)
    · obtain ⟨id, hk⟩ := Table.mem_inOrder_iff.1 hm
      exact .kind hk (PetKind.mem_triggers_iff.1 ht)
    · obtain ⟨id, hs⟩ := Table.mem_inOrder_iff.1 hm
      exact .status hs ht
    · obtain ⟨id, hf⟩ := Table.mem_inOrder_iff.1 hm
      exact .food hf ht
  · rintro (⟨hk, ht⟩ | ⟨hs, ht⟩ | ⟨hf, ht⟩)
    · exact .inl ⟨_, Table.mem_inOrder hk, PetKind.mem_triggers_iff.2 ht⟩
    · exact .inr (.inl ⟨_, Table.mem_inOrder hs, ht⟩)
    · exact .inr (.inr ⟨_, Table.mem_inOrder hf, ht⟩)

theorem matches_index (c : Catalog) : c.index.Matches c where
  ordered := c.index.petsFor_ordered
  kinds _ _ := mem_petsFor_iff
  foods _ _ := foodReacts_iff
  size := ⟨c.index.entries.keys, Std.ExtTreeMap.nodup_keys,
    fun _ => Std.ExtTreeMap.mem_keys.trans mem_entries_iff, Std.ExtTreeMap.length_keys.symm⟩

end Catalog

/-- The index of every catalog matches its definitions: the kinds under a trigger are listed in the
order of their names, none without waiting for it and none left out. From lists a catalog has the last
definition of each name. A text is read if it says definitions, and the catalog has them as they are
written, but that what a status or food does on the purchase of a pet it does on another occasion. The
catalog of a pack has the kinds of the pack with all statuses and foods, and is its own catalog of the
pack. -/
theorem index_matches_definitions :
    (∀ c : Catalog, c.index.Matches c) ∧
    (∀ (pets : List PetKind) (statuses : List StatusKind) (foods : List Food),
      (∀ id, (Catalog.ofLists pets statuses foods).pets[id]? = Table.last? PetKind.id pets id) ∧
      (∀ id, (Catalog.ofLists pets statuses foods).statuses[id]? =
        Table.last? StatusKind.id statuses id) ∧
      ∀ id, (Catalog.ofLists pets statuses foods).foods[id]? = Table.last? Food.id foods id) ∧
    (∀ (text : String) (c : Catalog),
      (Catalog.ofText text = .ok c ↔ ∃ pets statuses foods,
        Catalog.Source text pets statuses foods ∧ c.Holds pets statuses foods) ∧
      (Catalog.ofText text = .ok c →
        (∀ (id : StatusId) (status : StatusKind), c.statuses[id]? = some status →
          status.ability.trigger ≠ .buy) ∧
        ∀ (id : FoodId) (food : Food), c.foods[id]? = some food → food.ability.trigger ≠ .buy)) ∧
    ∀ (c : Catalog) (pack : String),
      (∀ (id : PetKindId) (kind : PetKind), (c.forPack pack).pets[id]? = some kind ↔
        c.pets[id]? = some kind ∧ pack ∈ kind.packs) ∧
      (c.forPack pack).statuses = c.statuses ∧ (c.forPack pack).foods = c.foods ∧
      (c.forPack pack).forPack pack = c.forPack pack := by
  refine ⟨Catalog.matches_index, fun pets statuses foods => ?_, fun text c => ?_, fun c pack => ?_⟩
  · exact ⟨Table.getElem?_ofValues _ pets, Table.getElem?_ofValues _ statuses,
      Table.getElem?_ofValues _ foods⟩
  · refine ⟨Catalog.ofText_eq_ok_iff_holds, fun read => ?_⟩
    obtain ⟨pets, statuses, foods, -, holds⟩ := Catalog.ofText_eq_ok_iff_holds.1 read
    exact ⟨fun _ _ hs => holds.status_waits hs, fun _ _ hf => holds.food_waits hf⟩
  · exact ⟨fun _ _ => Catalog.pets_forPack_eq_some, c.statuses_forPack pack, c.foods_forPack pack,
      c.forPack_forPack pack⟩

/-! ## A larder -/

def onPurchase : Ability := ⟨"", .buy, .self, .gainGold 1, none⟩

/-- The parrot waits for the end of the turn, with an effect in which it takes an ability over. -/
def parrot : PetKind :=
  ⟨⟨"pet-parrot"⟩, "Parrot", 4, 5, 3, ["Turtle"],
    some ⟨"", .endOfTurn, .self, .allOf [.transferAbility (.friendAhead 1) .self none], none⟩, none,
    none⟩

def coconut : StatusKind := ⟨⟨"status-coconut"⟩, "Coconut", onPurchase⟩

def apple : Food := ⟨⟨"food-apple"⟩, "Apple", 1, 3, onPurchase⟩

/-- The parrot is there twice. The one under the later name counts. -/
def larderJson : Json :=
  Catalog.fileOf [("2", parrot), ("1", { parrot with level1 := none })] [("1", coconut)] [("1", apple)]

def larder : Catalog := .ofSource [{ parrot with level1 := none }, parrot] [coconut] [apple]

theorem inRange_onPurchase : onPurchase.InRange where
  effect := by simp [onPurchase, Effect.InRange, Effect.Every, Effect.FieldsInRange, IsInt32]
  maxTriggers := nofun

theorem inRange_parrot : parrot.InRange where
  tier := by decide
  baseAttack := by decide
  baseHealth := by decide
  level1 := by
    intro ability ha
    cases ha
    constructor <;>
      simp [Effect.InRange, Effect.Every, Effect.EveryOf, Effect.FieldsInRange, Selector.InRange]
  level2 := by simp [parrot]
  level3 := by simp [parrot]

theorem source_larder : Catalog.Source larderJson.render
    [{ parrot with level1 := none }, parrot] [coconut] [apple] := by
  refine Catalog.source_fileOf (fun entry he => ?_) (fun entry he => ?_) (fun entry he => ?_)
    (by decide) (.inl rfl)
  · simp only [List.mem_cons, List.not_mem_nil, or_false] at he
    rcases he with rfl | rfl
    · exact inRange_parrot
    · exact { inRange_parrot with level1 := nofun }
  · rw [List.mem_singleton.1 he]
    exact ⟨inRange_onPurchase⟩
  · rw [List.mem_singleton.1 he]
    exact ⟨by decide, by decide, inRange_onPurchase⟩

/-- Nothing is left to wait for the purchase of a pet, but the parrot stands under it as under
everything. -/
theorem index_matches_definitions_larder :
    Catalog.ofText larderJson.render = .ok larder ∧
      larder.index.petsFor .buy = [parrot.id] ∧ larder.index.size = 23 ∧
      larder.pets[parrot.id]? = some parrot ∧
      larder.index.foodReacts .buyFood apple.id = true ∧
      (∀ food, larder.foods[apple.id]? = some food → food.ability.trigger ≠ .buy) ∧
      (larder.forPack "Star").pets[parrot.id]? = none ∧
      ((larder.forPack "Turtle").forPack "Turtle") = larder.forPack "Turtle" := by
  obtain ⟨index, -, texts, packs⟩ := index_matches_definitions
  have read : Catalog.ofText larderJson.render = .ok larder :=
    (texts _ _).1.2 ⟨_, _, _, source_larder, Catalog.holds_ofSource _ _ _⟩
  have stored : larder.pets[parrot.id]? = some parrot := rfl
  refine ⟨read, by decide +kernel, by decide +kernel, stored,
    ((index larder).foods _ _).2 ⟨_, rfl, by decide⟩, ((texts _ _).2 read).2 _, ?_,
    (packs larder _).2.2.2⟩
  refine Option.eq_none_iff_forall_ne_some.2 fun kind hk => ?_
  obtain ⟨hk, listed⟩ := ((packs larder _).1 _ _).1 hk
  rw [stored] at hk
  cases hk
  revert listed
  decide

end AutoBattler
