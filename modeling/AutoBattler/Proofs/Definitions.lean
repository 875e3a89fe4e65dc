import AutoBattler.Proofs.EffectForms
import Mathlib

/-!
# Definition data reads back

Abilities, pet kinds, statuses and foods are records whose parts are read and written on their own.
The main result says of every type of definition data that a value reads back from its text, and that
a text that is accepted may be replaced by the one that is written for its value.
-/
namespace AutoBattler

open Json

/-- The numbers of an ability fit their types. -/
structure Ability.InRange (a : Ability) : Prop where
  effect : a.effect.InRange
  maxTriggers : ∀ n ∈ a.maxTriggers, n < UInt32.size

theorem form_ability : Form Ability.ofJson? Ability.toJson Ability.InRange where
  back _ h :=
    bind_eq_some rfl <|
    bind_eq_some (form_string.withDefault rfl trivial) <|
    bind_eq_some (form_trigger.required rfl trivial) <|
    bind_eq_some (form_audience.required rfl trivial) <|
    bind_eq_some (form_effect.required rfl h.effect) <|
    bind_eq_some (form_nat32.optional rfl h.maxTriggers) rfl
  writable _ h :=
    ⟨rfl, trivial, trivial, form_audience.writable _ trivial, form_effect.writable _ h.effect,
      form_nat32.writable_option h.maxTriggers, trivial⟩
  present _ := nofun

theorem accepts_ability : Accepts Ability.ofJson? Ability.toJson Ability.InRange := by
  intro j a h
  simp only [Ability.ofJson?, Option.bind_eq_bind, Option.bind_eq_some_iff, Option.pure_def,
    Option.some.injEq] at h
  obtain ⟨fields, hj, description, -, trigger, -, audience, ha, effect, he, maxTriggers, hm, rfl⟩ :=
    h
  have hj := depthFields_lt_of_asRecord? hj
  have ha := accepts_audience.required ha
  have he := accepts_effect.required he
  have hm := (accepts_nat _).optional hm
  refine ⟨⟨he.1, hm.1⟩, ?_⟩
  simp only [Ability.toJson, Trigger.toJson, depth, depthFields]
  omega

structure PetKind.InRange (k : PetKind) : Prop where
  tier : k.tier < UInt8.size
  baseAttack : IsInt32 k.baseAttack
  baseHealth : IsInt32 k.baseHealth
  level1 : ∀ a ∈ k.level1, a.InRange
  level2 : ∀ a ∈ k.level2, a.InRange
  level3 : ∀ a ∈ k.level3, a.InRange

theorem form_petKind : Form PetKind.ofJson? PetKind.toJson PetKind.InRange where
  back _ h :=
    bind_eq_some rfl <|
    bind_eq_some (form_name.required rfl trivial) <|
    bind_eq_some (form_string.required rfl trivial) <|
    bind_eq_some (form_nat8.required rfl h.tier) <|
    bind_eq_some (form_int32.required rfl h.baseAttack) <|
    bind_eq_some (form_int32.required rfl h.baseHealth) <|
    bind_eq_some (form_string.list.withDefault rfl fun _ _ => trivial) <|
    bind_eq_some (form_ability.optional rfl h.level1) <|
    bind_eq_some (form_ability.optional rfl h.level2) <|
    bind_eq_some (form_ability.optional rfl h.level3) rfl
  writable _ h :=
    ⟨rfl, trivial, trivial, form_nat8.writable _ h.tier, form_int32.writable _ h.baseAttack,
      form_int32.writable _ h.baseHealth, form_string.list.writable _ fun _ _ => trivial,
      form_ability.writable_option h.level1, form_ability.writable_option h.level2,
      form_ability.writable_option h.level3, trivial⟩
  present _ := nofun

/-- The packs are written as a list even if none were found, so the kind may come to have two
containers where it had one. -/
theorem accepts_petKind (j : Json) (k : PetKind) (h : PetKind.ofJson? j = some k) :
    k.InRange ∧ k.toJson.depth ≤ max 2 j.depth := by
  simp only [PetKind.ofJson?, Option.bind_eq_bind, Option.bind_eq_some_iff, Option.pure_def,
    Option.some.injEq] at h
  obtain ⟨fields, hj, id, -, name, -, tier, ht, attack, ha, health, hh, packs, hp, level1, h1,
    level2, h2, level3, h3, rfl⟩ := h
  have hj := depthFields_lt_of_asRecord? hj
  have ht := (accepts_nat _).required ht
  have ha := accepts_int32.required ha
  have hh := accepts_int32.required hh
  have hp := accepts_string.list.withDefault hp (List.forall_mem_nil _)
  have h1 := accepts_ability.optional h1
  have h2 := accepts_ability.optional h2
  have h3 := accepts_ability.optional h3
  refine ⟨⟨ht.1, ha.1, hh.1, h1.1, h2.1, h3.1⟩, ?_⟩
  have none : (ofList Json.str []).depth = 1 := rfl
  simp only [PetKind.toJson, Name.toJson, depth, depthFields]
  omega

structure StatusKind.InRange (s : StatusKind) : Prop where
  ability : s.ability.InRange

theorem form_statusKind : Form StatusKind.ofJson? StatusKind.toJson StatusKind.InRange where
  back _ h :=
    bind_eq_some rfl <|
    bind_eq_some (form_name.required rfl trivial) <|
    bind_eq_some (form_string.required rfl trivial) <|
    bind_eq_some (form_ability.required rfl h.ability) rfl
  writable _ h := ⟨rfl, trivial, trivial, form_ability.writable _ h.ability, trivial⟩
  present _ := nofun

theorem accepts_statusKind : Accepts StatusKind.ofJson? StatusKind.toJson StatusKind.InRange := by
  intro j s h
  simp only [StatusKind.ofJson?, Option.bind_eq_bind, Option.bind_eq_some_iff, Option.pure_def,
    Option.some.injEq] at h
  obtain ⟨fields, hj, id, -, name, -, ability, ha, rfl⟩ := h
  have hj := depthFields_lt_of_asRecord? hj
  have ha := accepts_ability.required ha
  refine ⟨⟨ha.1⟩, ?_⟩
  simp only [StatusKind.toJson, Name.toJson, depth, depthFields]
  omega

structure Food.InRange (f : Food) : Prop where
  tier : f.tier < UInt8.size
  cost : f.cost < UInt32.size
  ability : f.ability.InRange

theorem form_food : Form Food.ofJson? Food.toJson Food.InRange where
  back _ h :=
    bind_eq_some rfl <|
    bind_eq_some (form_name.required rfl trivial) <|
    bind_eq_some (form_string.required rfl trivial) <|
    bind_eq_some (form_nat8.withDefault rfl h.tier) <|
    bind_eq_some (form_nat32.withDefault rfl h.cost) <|
    bind_eq_some (form_ability.required rfl h.ability) rfl
  writable _ h :=
    ⟨rfl, trivial, trivial, form_nat8.writable _ h.tier, form_nat32.writable _ h.cost,
      form_ability.writable _ h.ability, trivial⟩
  present _ := nofun

theorem accepts_food : Accepts Food.ofJson? Food.toJson Food.InRange := by
  intro j f h
  simp only [Food.ofJson?, Option.bind_eq_bind, Option.bind_eq_some_iff, Option.pure_def,
    Option.some.injEq] at h
  obtain ⟨fields, hj, id, -, name, -, tier, ht, cost, hc, ability, ha, rfl⟩ := h
  have hj := depthFields_lt_of_asRecord? hj
  have ht := (accepts_nat _).withDefault ht (by decide)
  have hc := (accepts_nat _).withDefault hc (by decide)
  have ha := accepts_ability.required ha
  refine ⟨⟨ht.1, hc.1, ha.1⟩, ?_⟩
  simp only [Food.toJson, Name.toJson, ofNat, depth, depthFields]
  omega

/-- Definition data reads back from the text that is written for it, and a text that is accepted has
a value whose own text is accepted with the same value. -/
theorem definitions_round_trip :
    RoundTrips Effect.ofJson? Effect.toJson Effect.InRange ∧
      RoundTrips Selector.ofJson? Selector.toJson Selector.InRange ∧
      RoundTrips Audience.ofJson? Audience.toJson (fun _ => True) ∧
      RoundTrips Ability.ofJson? Ability.toJson Ability.InRange ∧
      RoundTrips PetKind.ofJson? PetKind.toJson PetKind.InRange ∧
      RoundTrips StatusKind.ofJson? StatusKind.toJson StatusKind.InRange ∧
      RoundTrips Food.ofJson? Food.toJson Food.InRange :=
  ⟨form_effect.roundTrips accepts_effect.loose, form_selector.roundTrips accepts_selector.loose,
    form_audience.roundTrips accepts_audience.loose, form_ability.roundTrips accepts_ability.loose,
    form_petKind.roundTrips accepts_petKind, form_statusKind.roundTrips accepts_statusKind.loose,
    form_food.roundTrips accepts_food.loose⟩

/-- A name that needs every kind of escape, and the least and the greatest of the numbers. -/
def nestedEffect : Effect :=
  .oneOf [.allOf [.summonPet ⟨"\"\\\n\x01é🐝"⟩ .enemy (some (-2147483648)) none],
    .repeatAbility (.randomEnemy 18446744073709551615) none]

/-- An effect by the other name of its receivers, with its kind at the end and without its flags. -/
def aliasedText : String :=
  "\x7b\"target\": \x7b\"kind\": \"All\"\x7d, \"from\": \x7b\"kind\": \"Self\"\x7d, " ++
    "\"kind\": \"TransferStats\"\x7d"

theorem nestedEffect_inRange : nestedEffect.InRange := by
  simp [nestedEffect, Effect.InRange, Effect.Every, Effect.EveryOf, Effect.FieldsInRange,
    Selector.InRange, IsInt32, UInt64.size]

theorem ofText?_aliasedText :
    ofText? Effect.ofJson? aliasedText = some (.transferStats .self .all false false) := by
  cbv

theorem definitions_round_trip_nested :
    nestedEffect.InRange ∧ nestedEffect.toJson.depth ≤ nestingLimit ∧
      ofText? Effect.ofJson? nestedEffect.toJson.renderIndented = some nestedEffect ∧
      ofText? Effect.ofJson? aliasedText = some (.transferStats .self .all false false) ∧
      ofText? Effect.ofJson? (Effect.transferStats .self .all false false).toJson.render =
        some (.transferStats .self .all false false) :=
  ⟨nestedEffect_inRange, by decide,
    definitions_round_trip.1.1 _ nestedEffect_inRange (by decide) _ (.inr rfl),
    ofText?_aliasedText, (definitions_round_trip.1.2 _ _ ofText?_aliasedText).2 _ (.inl rfl)⟩

end AutoBattler
