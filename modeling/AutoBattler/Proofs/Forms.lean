import AutoBattler.Codec.State
import AutoBattler.Proofs.Reading
import AutoBattler.Width

/-!
# Forms

How the values of a type are written and read comes down to two facts: what is in range reads back
once it is written, and what is read is in range and is written no deeper than it was found. Both
pass from the parts of a record to the record. Together they say that a text that is accepted may be
replaced by the one that is written for its value.
-/
namespace AutoBattler.Json

variable {α : Type}

/-- Values in range are written so that they can be read back. None is written as null, which stands
for a missing value. -/
structure Form (read : Json → Option α) (write : α → Json) (InRange : α → Prop) : Prop where
  back : ∀ v, InRange v → read (write v) = some v
  writable : ∀ v, InRange v → (write v).Writable
  present : ∀ v, write v ≠ .null

/-- What is read is in range and is written no deeper than it was found. -/
def Accepts (read : Json → Option α) (write : α → Json) (InRange : α → Prop) : Prop :=
  ∀ j v, read j = some v → InRange v ∧ (write v).depth ≤ j.depth

/-! ## Texts -/

/-- The value of a text that is read as a type. -/
def ofText? (read : Json → Option α) (text : String) : Option α :=
  (parse? nestingLimit text).bind read

/-- A value in range that nests within the limit reads back from its text. If a text is accepted,
then its value is in range and reads back from any text that is written for it. -/
def RoundTrips (read : Json → Option α) (write : α → Json) (InRange : α → Prop) : Prop :=
  (∀ v, InRange v → (write v).depth ≤ nestingLimit →
    ∀ text, Spells text (write v) → ofText? read text = some v) ∧
  ∀ text v, ofText? read text = some v →
    InRange v ∧ ∀ written, Spells written (write v) → ofText? read written = some v

section

variable {read : Json → Option α} {write : α → Json} {InRange : α → Prop}

theorem Form.ofText?_written (hf : Form read write InRange) {v : α} (hv : InRange v)
    (hd : (write v).depth ≤ nestingLimit) {text : String} (ht : Spells text (write v)) :
    ofText? read text = some v := by
  rw [ofText?, parse?_of_spells ht (hf.writable v hv) hd, Option.bind_some, hf.back v hv]

/-- Two containers are always within the limit, so a value may be written with as many even where
fewer were found. -/
theorem Form.roundTrips (hf : Form read write InRange)
    (ha : ∀ j v, read j = some v → InRange v ∧ (write v).depth ≤ max 2 j.depth) :
    RoundTrips read write InRange := by
  refine ⟨fun v hv hd text ht => hf.ofText?_written hv hd ht, fun text v h => ?_⟩
  obtain ⟨j, hj, hv⟩ := Option.bind_eq_some_iff.1 h
  obtain ⟨hr, hd⟩ := ha j v hv
  have hj := depth_le_of_parse? hj
  have two : 2 ≤ nestingLimit := by decide
  exact ⟨hr, fun written hw => hf.ofText?_written hr (by omega) hw⟩

theorem Accepts.loose (ha : Accepts read write InRange) (j : Json) (v : α) (h : read j = some v) :
    InRange v ∧ (write v).depth ≤ max 2 j.depth := by
  obtain ⟨hv, hd⟩ := ha j v h
  exact ⟨hv, Nat.le_trans hd (Nat.le_max_right ..)⟩

end

/-! ## Scalars -/

/-- Signed numbers of 64 bits. -/
abbrev IsInt64 (n : Int) : Prop := -9223372036854775808 ≤ n ∧ n ≤ 9223372036854775807

theorem form_string : Form asString? .str fun _ => True where
  back _ _ := rfl
  writable _ _ := trivial
  present _ := nofun

theorem accepts_string : Accepts asString? .str fun _ => True :=
  fun _ _ _ => ⟨trivial, Nat.zero_le _⟩

theorem form_bool : Form asBool? .bool fun _ => True where
  back _ _ := rfl
  writable _ _ := trivial
  present _ := nofun

theorem form_int {low high : Int} (hl : least ≤ low) (hh : high ≤ greatest) :
    Form (asIntBetween? low high) .int fun n => low ≤ n ∧ n ≤ high where
  back _ h := if_pos h
  writable n h := ⟨by omega, by omega⟩
  present _ := nofun

theorem accepts_int (low high : Int) :
    Accepts (asIntBetween? low high) .int fun n => low ≤ n ∧ n ≤ high := by
  intro j n h
  unfold asIntBetween? at h
  split at h
  · split_ifs at h with hn
    cases h
    exact ⟨hn, Nat.zero_le _⟩
  · cases h

theorem form_int32 : Form asInt32? .int IsInt32 := form_int (by decide) (by decide)

theorem accepts_int32 : Accepts asInt32? .int IsInt32 := accepts_int _ _

theorem form_int64 : Form asInt64? .int IsInt64 := form_int (by decide) (by decide)

theorem form_nat {bound : Nat} (h : bound ≤ UInt64.size) :
    Form (asNatBelow? bound) ofNat fun n => n < bound where
  back _ h := if_pos h
  writable n hn := by
    have h : bound ≤ 18446744073709551616 := h
    show least ≤ (n : Int) ∧ (n : Int) ≤ greatest
    unfold least greatest
    omega
  present _ := nofun

theorem accepts_nat (bound : Nat) : Accepts (asNatBelow? bound) ofNat fun n => n < bound := by
  intro j n h
  unfold asNatBelow? at h
  split at h
  · split_ifs at h with hn
    cases h
    exact ⟨hn, Nat.zero_le _⟩
  · cases h

theorem form_nat8 : Form asNat8? ofNat fun n => n < UInt8.size := form_nat (by decide)

theorem form_nat32 : Form asNat32? ofNat fun n => n < UInt32.size := form_nat (by decide)

theorem form_nat64 : Form asNat64? ofNat fun n => n < UInt64.size := form_nat (Nat.le_refl _)

/-! ## Lists -/

section

variable {read : Json → Option α} {write : α → Json} {InRange : α → Prop}

theorem mapM_map_eq_some {β γ : Type} {f : β → Option γ} {g : γ → β} {xs : List γ}
    (h : ∀ x ∈ xs, f (g x) = some x) : (xs.map g).mapM f = some xs := by
  induction xs with
  | nil => rfl
  | cons x rest ih =>
    rw [List.map_cons, List.mapM_cons, h x List.mem_cons_self,
      ih fun y hy => h y (List.mem_cons_of_mem x hy)]
    rfl

theorem Form.list (hf : Form read write InRange) :
    Form (asList? read) (ofList write) fun xs => ∀ x ∈ xs, InRange x where
  back _ hx := mapM_map_eq_some fun x h => hf.back x (hx x h)
  writable _ hx := writableItems_iff.2 (List.forall_mem_map.2 fun x h => hf.writable x (hx x h))
  present _ := nofun

theorem Accepts.list (ha : Accepts read write InRange) :
    Accepts (asList? read) (ofList write) fun xs => ∀ x ∈ xs, InRange x := by
  intro j xs h
  unfold asList? at h
  split at h
  · rename_i items
    induction items generalizing xs with
    | nil =>
      cases h
      exact ⟨List.forall_mem_nil _, Nat.le_refl _⟩
    | cons item rest ih =>
      rw [List.mapM_cons] at h
      obtain ⟨x, hx, h⟩ := Option.bind_eq_some_iff.1 h
      obtain ⟨xs, hxs, h⟩ := Option.bind_eq_some_iff.1 h
      cases h
      have first := ha item x hx
      have others := ih xs hxs
      refine ⟨List.forall_mem_cons.2 ⟨first.1, others.1⟩, ?_⟩
      simp only [ofList, List.map_cons, depth, depthList] at others ⊢
      omega
  · cases h

/-! ## Fields that are written -/

theorem bind_eq_some {β : Type} {x : Option α} {f : α → Option β} {a : α} {b : β} (hx : x = some a)
    (h : f a = some b) : x >>= f = some b :=
  Option.bind_eq_some_iff.2 ⟨a, hx, h⟩

variable {fields : Fields} {name : String}

theorem Form.requiredAs (hf : Form read write InRange) {names : List String} {v : α}
    (h : Fields.only? fields names = some (some (write v))) (hv : InRange v) :
    fields.requiredAs? names read = some v := by
  simp only [Fields.requiredAs?, h]
  exact hf.back v hv

theorem Form.required (hf : Form read write InRange) {v : α}
    (h : Fields.only? fields [name] = some (some (write v))) (hv : InRange v) :
    fields.required? name read = some v :=
  hf.requiredAs h hv

theorem Form.withDefault (hf : Form read write InRange) {default v : α}
    (h : Fields.only? fields [name] = some (some (write v))) (hv : InRange v) :
    fields.withDefault? name default read = some v := by
  simp only [Fields.withDefault?, h]
  exact hf.back v hv

theorem optional?_of_present {j : Json} (h : Fields.only? fields [name] = some (some j))
    (hj : j ≠ .null) : fields.optional? name read = (read j).map some := by
  unfold Fields.optional?
  rw [h]
  cases j with
  | null => exact absurd rfl hj
  | _ => rfl

theorem Form.optional (hf : Form read write InRange) {o : Option α}
    (h : Fields.only? fields [name] = some (some (ofOption write o))) (ho : ∀ v ∈ o, InRange v) :
    fields.optional? name read = some o := by
  cases o with
  | none =>
    unfold Fields.optional?
    rw [h]
    rfl
  | some v =>
    rw [optional?_of_present h (hf.present v), ofOption, hf.back v (ho v rfl), Option.map_some]

theorem Form.writable_option (hf : Form read write InRange) {o : Option α}
    (ho : ∀ v ∈ o, InRange v) : (ofOption write o).Writable := by
  cases o with
  | none => trivial
  | some v => exact hf.writable v (ho v rfl)

/-! ## Fields that are read -/

theorem mem_of_only? {β : Type} {fields : List (String × β)} {names : List String} {x : β}
    (h : Fields.only? fields names = some (some x)) : ∃ name, (name, x) ∈ fields := by
  unfold Fields.only? at h
  split at h
  · cases h
  · rename_i field hf
    cases h
    have hm : field ∈ fields.filter _ := hf ▸ List.mem_singleton_self field
    exact ⟨field.1, (List.mem_filter.1 hm).1⟩
  · cases h

theorem depth_le_of_only? {names : List String} {j : Json}
    (h : Fields.only? fields names = some (some j)) : j.depth ≤ depthFields fields := by
  obtain ⟨name, hm⟩ := mem_of_only? h
  exact depthFields_le_iff.1 (Nat.le_refl _) _ hm

theorem Accepts.requiredAs (ha : Accepts read write InRange) {names : List String} {v : α}
    (h : fields.requiredAs? names read = some v) :
    InRange v ∧ (write v).depth ≤ depthFields fields := by
  unfold Fields.requiredAs? at h
  split at h
  · rename_i j hj
    obtain ⟨hv, hd⟩ := ha j v h
    exact ⟨hv, Nat.le_trans hd (depth_le_of_only? hj)⟩
  · cases h

theorem Accepts.required (ha : Accepts read write InRange) {v : α}
    (h : fields.required? name read = some v) :
    InRange v ∧ (write v).depth ≤ depthFields fields :=
  ha.requiredAs h

theorem Accepts.withDefault (ha : Accepts read write InRange) {default v : α}
    (h : fields.withDefault? name default read = some v) (hd : InRange default) :
    InRange v ∧ (write v).depth ≤ max (write default).depth (depthFields fields) := by
  unfold Fields.withDefault? at h
  split at h
  · rename_i j hj
    obtain ⟨hv, hd⟩ := ha j v h
    have := depth_le_of_only? hj
    exact ⟨hv, by omega⟩
  · cases h
    exact ⟨hd, Nat.le_max_left ..⟩
  · cases h

theorem Accepts.optional (ha : Accepts read write InRange) {o : Option α}
    (h : fields.optional? name read = some o) :
    (∀ v ∈ o, InRange v) ∧ (ofOption write o).depth ≤ depthFields fields := by
  unfold Fields.optional? at h
  split at h
  · cases h
    exact ⟨nofun, Nat.zero_le _⟩
  · rename_i j _ hj
    obtain ⟨v, hv, rfl⟩ := Option.map_eq_some_iff.1 h
    obtain ⟨hr, hd⟩ := ha j v hv
    refine ⟨?_, Nat.le_trans hd (depth_le_of_only? hj)⟩
    intro w hw
    cases hw
    exact hr
  · cases h
    exact ⟨nofun, Nat.zero_le _⟩
  · cases h

end

/-- The fields of a record lie in it. -/
theorem depthFields_lt_of_asRecord? {j : Json} {fields : Fields} (h : asRecord? j = some fields) :
    depthFields fields < j.depth := by
  unfold asRecord? at h
  split at h
  · cases h
    exact Nat.one_pos
  · unfold asFields? at h
    split at h
    · cases h
      exact Nat.lt_succ_self _
    · cases h

end AutoBattler.Json
