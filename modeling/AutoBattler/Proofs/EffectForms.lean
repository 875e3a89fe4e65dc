import AutoBattler.Proofs.Forms
import AutoBattler.Proofs.Scope

/-!
# Selectors and effects are read and written

Selectors, audiences and effects are objects that say their kind. An effect in range reads back from
what is written for it, whatever effects are nested in it. What is read as an effect, be it by another
name of a field or with fields left out, is in range and is written no deeper than it was found.
-/
namespace AutoBattler

open Json
open Json.Fields (only?)

namespace Json

mutual

theorem isReadable_of_writable : (j : Json) → j.Writable → j.isReadable = true
  | .null, _ | .bool _, _ | .int _, _ | .str _, _ => rfl
  | .array items, hw => allReadable_of_writable items hw
  | .object fields _, hw => fieldsReadable_of_writable fields hw.2

theorem allReadable_of_writable :
    (items : List Json) → WritableItems items → allReadable items = true
  | [], _ => rfl
  | item :: rest, hw =>
    Bool.and_eq_true_iff.2 ⟨isReadable_of_writable item hw.1, allReadable_of_writable rest hw.2⟩

theorem fieldsReadable_of_writable :
    (fields : List (String × Json)) → WritableFields fields → fieldsReadable fields = true
  | [], _ => rfl
  | (_, value) :: rest, hw =>
    Bool.and_eq_true_iff.2 ⟨isReadable_of_writable value hw.1, fieldsReadable_of_writable rest hw.2⟩

end

/-! ## Objects that say their kind -/

theorem writable_tagged {kind : String} {fields : Fields} (h : WritableFields fields) :
    (tagged kind fields).Writable :=
  ⟨rfl, trivial, h⟩

theorem tagged?_tagged {kind : String} {fields : Fields} (hw : WritableFields fields)
    (hk : only? (("kind", .str kind) :: fields) ["kind"] = some (some (.str kind))) :
    (tagged kind fields).tagged? = some (kind, ("kind", .str kind) :: fields) := by
  unfold tagged?
  rw [if_pos (isReadable_of_writable _ (writable_tagged hw))]
  exact bind_eq_some rfl (bind_eq_some (form_string.required hk trivial) rfl)

theorem eq_object_of_tagged? {j : Json} {kind : String} {fields : Fields}
    (h : j.tagged? = some (kind, fields)) : ∃ plain, j = .object fields plain := by
  unfold tagged? at h
  split at h
  · obtain ⟨fs, hf, h⟩ := Option.bind_eq_some_iff.1 h
    obtain ⟨k, -, h⟩ := Option.bind_eq_some_iff.1 h
    cases h
    cases j with
    | object fields plain =>
      cases hf
      exact ⟨plain, rfl⟩
    | _ => cases hf
  · cases h

theorem depth_pos_of_tagged? {j : Json} {entry : String × Fields} (h : j.tagged? = some entry) :
    1 ≤ j.depth := by
  obtain ⟨plain, rfl⟩ := eq_object_of_tagged? h
  exact Nat.succ_le_succ (Nat.zero_le _)

end Json

/-! ## Names and words -/

theorem form_name {space : Namespace} :
    Form (Name.ofJson? : Json → Option (Name space)) Name.toJson fun _ => True where
  back _ _ := rfl
  writable _ _ := trivial
  present _ := nofun

theorem form_trigger : Form Trigger.ofJson? Trigger.toJson fun _ => True where
  back t _ := Trigger.ofName?_name t
  writable _ _ := trivial
  present _ := nofun

theorem form_summonTeam : Form SummonTeam.ofJson? SummonTeam.toJson fun _ => True where
  back t _ := by cases t <;> rfl
  writable t _ := by cases t <;> trivial
  present t := by cases t <;> nofun

theorem SummonTeam.depth_toJson (t : SummonTeam) : t.toJson.depth = 0 := by cases t <;> rfl

theorem form_audience : Form Audience.ofJson? Audience.toJson fun _ => True where
  back a _ := bind_eq_some (tagged?_tagged trivial rfl) (by cases a <;> rfl)
  writable _ _ := writable_tagged trivial
  present _ := nofun

theorem accepts_audience : Accepts Audience.ofJson? Audience.toJson fun _ => True := by
  intro j a h
  obtain ⟨entry, hj, -⟩ := Option.bind_eq_some_iff.1 h
  exact ⟨trivial, depth_pos_of_tagged? hj⟩

/-! ## Selectors -/

namespace Selector

def InRange : Selector → Prop
  | randomFriend n | randomEnemy n | friendBehind n | friendAhead n => n < UInt64.size
  | _ => True

theorem depth_toJson (s : Selector) : s.toJson.depth = 1 := by cases s <;> rfl

theorem mem_of_lookup {α : Type} {entries : List (String × α)} {kind : String} {v : α}
    (h : entries.lookup kind = some v) : (kind, v) ∈ entries := by
  obtain ⟨before, after, rfl, -⟩ := List.lookup_eq_some_iff.1 h
  simp

theorem inRange_plain : ∀ entry ∈ plain, entry.2.InRange := by simp [plain, InRange]

theorem inRange_counted : ∀ entry ∈ counted, ∀ n < UInt64.size, (entry.2 n).InRange := by
  simp [counted, InRange]

end Selector

theorem form_selector : Form Selector.ofJson? Selector.toJson Selector.InRange where
  back s h := by
    cases s with
    | randomFriend n | randomEnemy n | friendBehind n | friendAhead n =>
      refine bind_eq_some (tagged?_tagged ⟨form_nat64.writable n h, trivial⟩ rfl) ?_
      exact Option.map_eq_some_iff.2 ⟨n, form_nat64.required rfl h, rfl⟩
    | eachShopAnimal future =>
      refine bind_eq_some (tagged?_tagged ⟨trivial, trivial⟩ rfl) ?_
      refine (if_pos rfl).trans ?_
      exact Option.map_eq_some_iff.2 ⟨future, form_bool.withDefault rfl trivial, rfl⟩
    | _ => exact bind_eq_some (tagged?_tagged trivial rfl) rfl
  writable s h := by
    cases s with
    | randomFriend n | randomEnemy n | friendBehind n | friendAhead n =>
      exact writable_tagged ⟨form_nat64.writable n h, trivial⟩
    | _ => exact ⟨rfl, trivial, by trivial⟩
  present s := by cases s <;> nofun

theorem accepts_selector : Accepts Selector.ofJson? Selector.toJson Selector.InRange := by
  intro j s h
  obtain ⟨⟨kind, fields⟩, hj, h⟩ := Option.bind_eq_some_iff.1 h
  refine ⟨?_, Selector.depth_toJson s ▸ depth_pos_of_tagged? hj⟩
  dsimp only at h
  split at h
  · rename_i hk
    cases h
    exact Selector.inRange_plain _ (Selector.mem_of_lookup hk)
  · rename_i f _ hk
    obtain ⟨n, hn, rfl⟩ := Option.map_eq_some_iff.1 h
    exact Selector.inRange_counted _ (Selector.mem_of_lookup hk) n ((accepts_nat _).required hn).1
  · split_ifs at h
    obtain ⟨future, -, rfl⟩ := Option.map_eq_some_iff.1 h
    trivial

/-! ## Amounts of damage -/

namespace DamageAmount

def InRange : DamageAmount → Prop
  | fixed amount => IsInt32 amount
  | attackPercent percent => IsInt32 percent

theorem depth_toField (a : DamageAmount) : a.toField.2.depth = 0 := by cases a <;> rfl

theorem ofFields?_inRange {fields : Fields} {a : DamageAmount} (h : ofFields? fields = some a) :
    a.InRange := by
  unfold ofFields? at h
  split at h
  · rename_i amount ha
    cases h
    exact (accepts_int32.required ha).1
  · obtain ⟨percent, hp, rfl⟩ := Option.map_eq_some_iff.1 h
    exact (accepts_int32.required hp).1

/-- The amount of an effect reads back from the fields of the effect. -/
theorem ofFields?_toField {a : DamageAmount} (h : a.InRange) (kind target : Json) :
    ofFields? [("kind", kind), a.toField, ("target", target)] = some a := by
  unfold ofFields?
  cases a with
  | fixed amount =>
    rw [form_int32.required (v := amount) rfl h]
  | attackPercent percent =>
    have missing : Fields.required? [("kind", kind), (attackPercent percent).toField,
        ("target", target)] "amount" asInt32? = none := rfl
    rw [missing]
    exact Option.map_eq_some_iff.2 ⟨percent, form_int32.required rfl h, rfl⟩

end DamageAmount

/-! ## Effects -/

namespace Effect

/-- The numbers that stand in the effect itself fit their types. -/
def FieldsInRange : Effect → Prop
  | oneOf _ | allOf _ => True
  | modifyStats attack health target _ => IsInt32 attack ∧ IsInt32 health ∧ target.InRange
  | gainExperience amount target => amount < UInt32.size ∧ target.InRange
  | applyStatus _ target => target.InRange
  | dealDamage amount target => amount.InRange ∧ target.InRange
  | splashDamage amount => IsInt32 amount
  | reduceHealth percentage target => IsInt32 percentage ∧ target.InRange
  | summonPet _ _ attack health => (∀ n ∈ attack, IsInt32 n) ∧ ∀ n ∈ health, IsInt32 n
  | summonRandomPet tier attack health level =>
    tier < UInt8.size ∧ (∀ n ∈ attack, IsInt32 n) ∧ (∀ n ∈ health, IsInt32 n) ∧
      ∀ n ∈ level, n < UInt8.size
  | respawnPet attack health => IsInt32 attack ∧ IsInt32 health
  | transferStats giver receivers _ _ => giver.InRange ∧ receivers.InRange
  | transferAbility giver receivers level =>
    giver.InRange ∧ receivers.InRange ∧ ∀ n ∈ level, n < UInt8.size
  | gainGold amount => IsInt32 amount
  | evolve _ => True
  | repeatAbility target level => target.InRange ∧ ∀ n ∈ level, n < UInt8.size
  | modifyDamage modifier _ => ∀ n ∈ modifier, IsInt32 n

/-- The numbers of the effect and of all effects nested in it fit their types. -/
def InRange (e : Effect) : Prop := e.Every FieldsInRange

mutual

theorem writable_toFields : (e : Effect) → e.InRange → WritableFields e.toFields
  | .oneOf effects, h => ⟨writable_toItems effects h.2, trivial⟩
  | .allOf effects, h => ⟨writable_toItems effects h.2, trivial⟩
  | .modifyStats _ _ _ _, ⟨⟨ha, hh, ht⟩, _⟩ =>
    ⟨form_int32.writable _ ha, form_int32.writable _ hh, form_selector.writable _ ht, trivial,
      trivial⟩
  | .gainExperience _ _, ⟨⟨ha, ht⟩, _⟩ =>
    ⟨form_nat32.writable _ ha, form_selector.writable _ ht, trivial⟩
  | .applyStatus _ _, ⟨ht, _⟩ => ⟨trivial, form_selector.writable _ ht, trivial⟩
  | .dealDamage (.fixed _) _, ⟨⟨ha, ht⟩, _⟩ 
  | .dealDamage (.attackPercent _) _, ⟨⟨ha, ht⟩, _⟩ =>
    ⟨form_int32.writable _ ha, form_selector.writable _ ht, trivial⟩
  | .splashDamage _, ⟨ha, _⟩ => ⟨form_int32.writable _ ha, trivial⟩
  | .reduceHealth _ _, ⟨⟨hp, ht⟩, _⟩ =>
    ⟨form_int32.writable _ hp, form_selector.writable _ ht, trivial⟩
  | .summonPet _ team _ _, ⟨⟨ha, hh⟩, _⟩ =>
    ⟨trivial, form_summonTeam.writable team trivial, form_int32.writable_option ha,
      form_int32.writable_option hh, trivial⟩
  | .summonRandomPet _ _ _ _, ⟨⟨ht, ha, hh, hl⟩, _⟩ =>
    ⟨form_nat8.writable _ ht, form_int32.writable_option ha, form_int32.writable_option hh,
      form_nat8.writable_option hl, trivial⟩
  | .respawnPet _ _, ⟨⟨ha, hh⟩, _⟩ =>
    ⟨form_int32.writable _ ha, form_int32.writable _ hh, trivial⟩
  | .transferStats _ _ _ _, ⟨⟨hg, hr⟩, _⟩ =>
    ⟨form_selector.writable _ hg, form_selector.writable _ hr, trivial, trivial, trivial⟩
  | .transferAbility _ _ _, ⟨⟨hg, hr, hl⟩, _⟩ =>
    ⟨form_selector.writable _ hg, form_selector.writable _ hr, form_nat8.writable_option hl,
      trivial⟩
  | .gainGold _, ⟨ha, _⟩ => ⟨form_int32.writable _ ha, trivial⟩
  | .evolve _, _ => ⟨trivial, trivial⟩
  | .repeatAbility _ _, ⟨⟨ht, hl⟩, _⟩ =>
    ⟨form_selector.writable _ ht, form_nat8.writable_option hl, trivial⟩
  | .modifyDamage _ _, ⟨hm, _⟩ => ⟨form_int32.writable_option hm, trivial, trivial⟩

theorem writable_toItems :
    (effects : List Effect) → EveryOf FieldsInRange effects → WritableItems (toItems effects)
  | [], _ => trivial
  | e :: rest, h => ⟨writable_tagged (writable_toFields e h.1), writable_toItems rest h.2⟩

end

theorem toJson_eq (e : Effect) : e.toJson = .tagged e.kindName e.toFields := rfl

theorem ofJson?_tagged {kind : String} {fields : Fields} (hw : WritableFields fields)
    (hk : only? (("kind", .str kind) :: fields) ["kind"] = some (some (.str kind))) :
    ofJson? (.tagged kind fields) =
      ofFields? kind (("kind", .str kind) :: fields) (listsOf (("kind", .str kind) :: fields)) := by
  have ht := tagged?_tagged hw hk
  unfold tagged at ht ⊢
  rw [ofJson?, ht]
  rfl

theorem only?_kind (e : Effect) :
    only? (("kind", .str e.kindName) :: e.toFields) ["kind"] = some (some (.str e.kindName)) := by
  cases e with
  | dealDamage amount target => cases amount <;> rfl
  | _ => rfl

mutual

theorem ofJson?_toJson (e : Effect) (h : e.InRange) : ofJson? e.toJson = some e := by
  rw [toJson_eq, ofJson?_tagged (writable_toFields e h) (only?_kind e)]
  cases e with
  | oneOf effects =>
    exact bind_eq_some rfl (bind_eq_some rfl (bind_eq_some (itemsOf?_toItems effects h.2) rfl))
  | allOf effects =>
    exact bind_eq_some rfl (bind_eq_some rfl (bind_eq_some (itemsOf?_toItems effects h.2) rfl))
  | modifyStats attack health target temporary =>
    obtain ⟨⟨ha, hh, ht⟩, -⟩ := h
    exact bind_eq_some (form_int32.withDefault rfl ha) <|
      bind_eq_some (form_int32.withDefault rfl hh) <|
      bind_eq_some (form_selector.required rfl ht) <|
      bind_eq_some (form_bool.withDefault rfl trivial) rfl
  | gainExperience amount target =>
    obtain ⟨⟨ha, ht⟩, -⟩ := h
    exact bind_eq_some (form_nat32.required rfl ha) <|
      bind_eq_some (form_selector.required rfl ht) rfl
  | applyStatus status target =>
    exact bind_eq_some (form_name.required rfl trivial) <|
      bind_eq_some (form_selector.required rfl h.1) rfl
  | dealDamage amount target =>
    obtain ⟨⟨ha, ht⟩, -⟩ := h
    have back : Fields.required? [("kind", .str "DealDamage"), amount.toField,
        ("target", target.toJson)] "target" Selector.ofJson? = some target := by
      cases amount <;> exact form_selector.required rfl ht
    exact bind_eq_some (DamageAmount.ofFields?_toField ha _ _) (bind_eq_some back rfl)
  | splashDamage amount => exact bind_eq_some (form_int32.required rfl h.1) rfl
  | reduceHealth percentage target =>
    obtain ⟨⟨hp, ht⟩, -⟩ := h
    exact bind_eq_some (form_int32.required rfl hp) <|
      bind_eq_some (form_selector.required rfl ht) rfl
  | summonPet kind team attack health =>
    obtain ⟨⟨ha, hh⟩, -⟩ := h
    exact bind_eq_some (form_name.required rfl trivial) <|
      bind_eq_some (form_summonTeam.withDefault rfl trivial) <|
      bind_eq_some (form_int32.optional rfl ha) <|
      bind_eq_some (form_int32.optional rfl hh) rfl
  | summonRandomPet tier attack health level =>
    obtain ⟨⟨ht, ha, hh, hl⟩, -⟩ := h
    exact bind_eq_some (form_nat8.required rfl ht) <|
      bind_eq_some (form_int32.optional rfl ha) <|
      bind_eq_some (form_int32.optional rfl hh) <|
      bind_eq_some (form_nat8.optional rfl hl) rfl
  | respawnPet attack health =>
    obtain ⟨⟨ha, hh⟩, -⟩ := h
    exact bind_eq_some (form_int32.required rfl ha) <|
      bind_eq_some (form_int32.required rfl hh) rfl
  | transferStats giver receivers copyAttack copyHealth =>
    obtain ⟨⟨hg, hr⟩, -⟩ := h
    exact bind_eq_some (form_selector.required rfl hg) <|
      bind_eq_some (form_selector.requiredAs rfl hr) <|
      bind_eq_some (form_bool.withDefault rfl trivial) <|
      bind_eq_some (form_bool.withDefault rfl trivial) rfl
  | transferAbility giver receivers level =>
    obtain ⟨⟨hg, hr, hl⟩, -⟩ := h
    exact bind_eq_some (form_selector.required rfl hg) <|
      bind_eq_some (form_selector.requiredAs rfl hr) <|
      bind_eq_some (form_nat8.optional rfl hl) rfl
  | gainGold amount => exact bind_eq_some (form_int32.required rfl h.1) rfl
  | evolve into => exact bind_eq_some (form_name.required rfl trivial) rfl
  | repeatAbility target level =>
    obtain ⟨⟨ht, hl⟩, -⟩ := h
    exact bind_eq_some (form_selector.required rfl ht) <|
      bind_eq_some (form_nat8.optional rfl hl) rfl
  | modifyDamage modifier once =>
    exact bind_eq_some (form_int32.optional rfl h.1) <|
      bind_eq_some (form_bool.withDefault rfl trivial) rfl

theorem itemsOf?_toItems (effects : List Effect) (h : EveryOf FieldsInRange effects) :
    itemsOf? (toItems effects) = some effects := by
  cases effects with
  | nil => rfl
  | cons e rest =>
    exact bind_eq_some (ofJson?_toJson e h.1) (bind_eq_some (itemsOf?_toItems rest h.2) rfl)

end

/-- What is read from the fields of an effect is in range and is written no deeper, given as much of
its list of effects. -/
theorem accepts_fields {kind : String} {fields : Fields}
    {lists : List (String × Option (List Effect))} {e : Effect}
    (hl : ∀ effects, only? lists ["effects"] = some (some (some effects)) →
      EveryOf FieldsInRange effects ∧ (Json.array (toItems effects)).depth ≤ depthFields fields)
    (h : ofFields? kind fields lists = some e) :
    e.InRange ∧ depthFields e.toFields ≤ depthFields fields := by
  unfold ofFields? at h
  dsimp only at h
  split at h
  all_goals
    simp only [Option.bind_eq_bind, Option.bind_eq_some_iff, Option.pure_def, Option.some.injEq,
      reduceCtorEq] at h
  -- one case for each kind, in the order in which they are told apart
  · obtain ⟨_, hl', _, rfl, effects, rfl, rfl⟩ := h
    obtain ⟨hr, hd⟩ := hl effects hl'
    exact ⟨⟨trivial, hr⟩, Nat.max_le.2 ⟨hd, Nat.zero_le _⟩⟩
  · obtain ⟨_, hl', _, rfl, effects, rfl, rfl⟩ := h
    obtain ⟨hr, hd⟩ := hl effects hl'
    exact ⟨⟨trivial, hr⟩, Nat.max_le.2 ⟨hd, Nat.zero_le _⟩⟩
  · obtain ⟨attack, ha, health, hh, target, ht, temporary, -, rfl⟩ := h
    have ha := accepts_int32.withDefault ha (by decide)
    have hh := accepts_int32.withDefault hh (by decide)
    have ht := accepts_selector.required ht
    refine ⟨⟨⟨ha.1, hh.1, ht.1⟩, trivial⟩, ?_⟩
    simp only [toFields, depthFields, Json.depth]
    omega
  · obtain ⟨amount, ha, target, ht, rfl⟩ := h
    have ha := (accepts_nat _).required ha
    have ht := accepts_selector.required ht
    refine ⟨⟨⟨ha.1, ht.1⟩, trivial⟩, ?_⟩
    simp only [toFields, depthFields]
    omega
  · obtain ⟨status, -, target, ht, rfl⟩ := h
    have ht := accepts_selector.required ht
    refine ⟨⟨ht.1, trivial⟩, ?_⟩
    simp only [toFields, depthFields, Name.toJson, Json.depth]
    omega
  · obtain ⟨amount, ha, target, ht, rfl⟩ := h
    have ht := accepts_selector.required ht
    refine ⟨⟨⟨DamageAmount.ofFields?_inRange ha, ht.1⟩, trivial⟩, ?_⟩
    simp only [toFields, depthFields, DamageAmount.depth_toField]
    omega
  · obtain ⟨amount, ha, rfl⟩ := h
    exact ⟨⟨(accepts_int32.required ha).1, trivial⟩, Nat.zero_le _⟩
  · obtain ⟨percentage, hp, target, ht, rfl⟩ := h
    have hp := accepts_int32.required hp
    have ht := accepts_selector.required ht
    refine ⟨⟨⟨hp.1, ht.1⟩, trivial⟩, ?_⟩
    simp only [toFields, depthFields, Json.depth]
    omega
  · obtain ⟨kind, -, team, -, attack, ha, health, hh, rfl⟩ := h
    have ha := accepts_int32.optional ha
    have hh := accepts_int32.optional hh
    refine ⟨⟨⟨ha.1, hh.1⟩, trivial⟩, ?_⟩
    simp only [toFields, depthFields, Name.toJson, SummonTeam.depth_toJson, Json.depth]
    omega
  · obtain ⟨tier, ht, attack, ha, health, hh, level, hl, rfl⟩ := h
    have ht := (accepts_nat _).required ht
    have ha := accepts_int32.optional ha
    have hh := accepts_int32.optional hh
    have hl := (accepts_nat _).optional hl
    refine ⟨⟨⟨ht.1, ha.1, hh.1, hl.1⟩, trivial⟩, ?_⟩
    simp only [toFields, depthFields]
    omega
  · obtain ⟨attack, ha, health, hh, rfl⟩ := h
    exact ⟨⟨⟨(accepts_int32.required ha).1, (accepts_int32.required hh).1⟩, trivial⟩, Nat.zero_le _⟩
  · obtain ⟨giver, hg, receivers, hr, copyAttack, -, copyHealth, -, rfl⟩ := h
    have hg := accepts_selector.required hg
    have hr := accepts_selector.requiredAs hr
    refine ⟨⟨⟨hg.1, hr.1⟩, trivial⟩, ?_⟩
    simp only [toFields, depthFields, Json.depth]
    omega
  · obtain ⟨giver, hg, receivers, hr, level, hl, rfl⟩ := h
    have hg := accepts_selector.required hg
    have hr := accepts_selector.requiredAs hr
    have hl := (accepts_nat _).optional hl
    refine ⟨⟨⟨hg.1, hr.1, hl.1⟩, trivial⟩, ?_⟩
    simp only [toFields, depthFields]
    omega
  · obtain ⟨amount, ha, rfl⟩ := h
    exact ⟨⟨(accepts_int32.required ha).1, trivial⟩, Nat.zero_le _⟩
  · obtain ⟨into, -, rfl⟩ := h
    exact ⟨⟨trivial, trivial⟩, Nat.zero_le _⟩
  · obtain ⟨target, ht, level, hl, rfl⟩ := h
    have ht := accepts_selector.required ht
    have hl := (accepts_nat _).optional hl
    refine ⟨⟨⟨ht.1, hl.1⟩, trivial⟩, ?_⟩
    simp only [toFields, depthFields]
    omega
  · obtain ⟨modifier, hm, once, -, rfl⟩ := h
    have hm := accepts_int32.optional hm
    refine ⟨⟨hm.1, trivial⟩, ?_⟩
    simp only [toFields, depthFields, Json.depth]
    omega

/-! ### Effects within effects -/

/-- What the lists of effects among some fields are, all at once. -/
def ListsAccepted (lists : List (String × Option (List Effect))) (n : Nat) : Prop :=
  ∀ entry ∈ lists, ∀ effects ∈ entry.2,
    EveryOf FieldsInRange effects ∧ (Json.array (toItems effects)).depth ≤ n

mutual

theorem accepts_ofJson? : (j : Json) → (e : Effect) → ofJson? j = some e →
    e.InRange ∧ e.toJson.depth ≤ j.depth
  | .object fields _, e, h => by
    obtain ⟨⟨kind, _⟩, ht, h⟩ := Option.bind_eq_some_iff.1 h
    obtain ⟨_, he⟩ := eq_object_of_tagged? ht
    cases he
    have hl := accepts_listsOf fields
    obtain ⟨hr, hd⟩ := accepts_fields (fun effects hm => by
      obtain ⟨name, hm⟩ := mem_of_only? hm
      exact hl _ hm effects rfl) h
    refine ⟨hr, ?_⟩
    simp only [toJson, tagged, Json.depth, depthFields]
    omega

theorem accepts_listsOf : (fields : List (String × Json)) →
    ListsAccepted (listsOf fields) (depthFields fields)
  | [] => nofun
  | (name, j) :: rest => by
    have first := accepts_listOf? j
    have others := accepts_listsOf rest
    intro entry he effects hm
    rcases List.mem_cons.1 he with rfl | he
    · obtain ⟨hr, hd⟩ := first effects hm
      exact ⟨hr, Nat.le_trans hd (Nat.le_max_left ..)⟩
    · obtain ⟨hr, hd⟩ := others entry he effects hm
      exact ⟨hr, Nat.le_trans hd (Nat.le_max_right ..)⟩

theorem accepts_listOf? : (j : Json) → (effects : List Effect) → listOf? j = some effects →
    EveryOf FieldsInRange effects ∧ (Json.array (toItems effects)).depth ≤ j.depth
  | .array items, effects, h => by
    obtain ⟨hr, hd⟩ := accepts_itemsOf? items effects h
    exact ⟨hr, Nat.succ_le_succ hd⟩

theorem accepts_itemsOf? : (items : List Json) → (effects : List Effect) →
    itemsOf? items = some effects →
    EveryOf FieldsInRange effects ∧ depthList (toItems effects) ≤ depthList items
  | [], effects, h => by
    cases h
    exact ⟨trivial, Nat.le_refl _⟩
  | j :: rest, effects, h => by
    obtain ⟨e, he, h⟩ := Option.bind_eq_some_iff.1 h
    obtain ⟨es, hes, h⟩ := Option.bind_eq_some_iff.1 h
    cases h
    obtain ⟨hr, hd⟩ := accepts_ofJson? j e he
    obtain ⟨hrs, hds⟩ := accepts_itemsOf? rest es hes
    exact ⟨⟨hr, hrs⟩, by simp only [toItems, depthList, toJson] at hd ⊢; omega⟩

end

end Effect

theorem form_effect : Form Effect.ofJson? Effect.toJson Effect.InRange where
  back := Effect.ofJson?_toJson
  writable e h := writable_tagged (Effect.writable_toFields e h)
  present _ := nofun

theorem accepts_effect : Accepts Effect.ofJson? Effect.toJson Effect.InRange :=
  Effect.accepts_ofJson?

end AutoBattler
