import AutoBattler.Proofs.Scanning

/-!
# Reading back what was written

The reader goes through the tokens of a value and is left with that value, as long as its containers
are within the limit on nesting. What it accepts of any text lies within the limit too.
-/
namespace AutoBattler.Json

open Reading (step? finish? closeArray closeObject object? fits)

/-- The value of tokens that are read on from a state. -/
def run? (limit : Nat) (r : Reading) (ts : List Token) : Option Json :=
  (ts.foldlM (step? limit) r).bind finish?

theorem run?_cons (limit : Nat) (r : Reading) (t : Token) (ts : List Token) :
    run? limit r (t :: ts) = (step? limit r t).bind fun r => run? limit r ts := by
  unfold run?
  rw [List.foldlM_cons]
  exact Option.bind_assoc ..

theorem run?_step {limit : Nat} {r r' : Reading} {t : Token} (h : step? limit r t = some r')
    (ts : List Token) : run? limit r (t :: ts) = run? limit r' ts := by
  rw [run?_cons, h]
  rfl

/-- The field as the reader keeps it, under the name that its spelling stands for. -/
def kept (field : String × Json) : Option QuotedText × Json := (some ⟨field.1, true⟩, field.2)

theorem object?_kept (fields named : List (String × Json)) :
    object? (fields.map kept) named true = some (.object (fields.reverse ++ named)) := by
  induction fields generalizing named with
  | nil => rfl
  | cons field rest ih =>
    rw [List.map_cons, kept, object?, Bool.true_and, ih]
    simp

variable {limit : Nat}

/-- No value begins with the end of an array. -/
theorem run?_item {stack : List Frame} (ts : List Token) :
    (j : Json) → run? limit (.item stack) (tokensBefore ts j) =
      run? limit (.value (.array [] :: stack)) (tokensBefore ts j)
  | .null | .bool _ | .int _ | .inexact _ | .str _ | .unreadable | .array [] | .array (_ :: _)
  | .object [] _ | .object (_ :: _) _ => rfl

/-- The end of an array that is within the limit. -/
theorem run?_closeArray {stack : List Frame} (h : stack.length < limit) (items : List Json)
    (ts : List Token) :
    run? limit (closeArray limit items stack) ts =
      run? limit (.after (.array items.reverse) stack) ts := by
  simp [closeArray, fits, h]

theorem run?_closeObject {stack : List Frame} (h : stack.length < limit)
    (fields : List (String × Json)) (ts : List Token) :
    run? limit (closeObject limit (fields.map kept) stack) ts =
      run? limit (.after (.object fields.reverse) stack) ts := by
  simp [closeObject, object?_kept, fits, h]

mutual

theorem run?_value (ts : List Token) (stack : List Frame) :
    (j : Json) → j.Writable → stack.length + j.depth ≤ limit →
      run? limit (.value stack) (tokensBefore ts j) = run? limit (.after j stack) ts
  | .null, _, _ | .bool _, _, _ | .int _, _, _ | .str _, _, _ => run?_step rfl ts
  | .array [], _, h => by
    have h : stack.length < limit := by simp only [depth] at h; omega
    rw [tokensBefore, run?_step rfl, run?_step rfl, run?_closeArray h, List.reverse_nil]
  | .array (item :: more), hw, h => by
    simp only [depth, depthList] at h
    rw [tokensBefore, run?_step rfl, run?_item,
      run?_value _ _ item hw.1 (by simp only [List.length_cons]; omega),
      run?_items _ _ [] item more hw.2 (by omega), List.reverse_nil, List.nil_append]
  | .object [] plain, hw, h => by
    have h : stack.length < limit := by simp only [depth] at h; omega
    have hw : plain = true := hw.1
    subst hw
    rw [tokensBefore, run?_step rfl, run?_step rfl]
    exact run?_closeObject h [] ts
  | .object ((name, value) :: more) plain, hw, h => by
    simp only [depth, depthFields] at h
    have hp : plain = true := hw.1
    subst hp
    rw [tokensBefore, run?_step rfl, run?_step rfl, run?_step rfl,
      run?_value _ _ value hw.2.1 (by simp only [List.length_cons]; omega)]
    exact run?_fields _ _ [] (name, value) more hw.2.2 (by omega)

/-- The items that follow the last one that was read, before which `done` was read. -/
theorem run?_items (ts : List Token) (stack : List Frame) (done : List Json) (last : Json) :
    (items : List Json) → WritableItems items → stack.length + 1 + depthList items ≤ limit →
      run? limit (.after last (.array done :: stack)) (itemTokens ts items) =
        run? limit (.after (.array (done.reverse ++ last :: items)) stack) ts
  | [], _, h => by
    have h : stack.length < limit := by omega
    rw [itemTokens, run?_step rfl, run?_closeArray h, List.reverse_cons]
  | item :: more, hw, h => by
    simp only [depthList] at h
    rw [itemTokens, run?_step rfl,
      run?_value _ _ item hw.1 (by simp only [List.length_cons]; omega),
      run?_items _ _ (last :: done) item more hw.2 (by omega), List.reverse_cons, List.append_assoc,
      List.singleton_append]

/-- The fields that follow the last one that was read, before which `done` was read. -/
theorem run?_fields (ts : List Token) (stack : List Frame) (done : List (String × Json))
    (last : String × Json) :
    (fields : List (String × Json)) → WritableFields fields →
      stack.length + 1 + depthFields fields ≤ limit →
      run? limit (.after last.2 (.field (done.map kept) (kept last).1 :: stack))
          (fieldTokens ts fields) =
        run? limit (.after (.object (done.reverse ++ last :: fields)) stack) ts
  | [], _, h => by
    have h : stack.length < limit := by omega
    rw [fieldTokens, run?_step rfl]
    have close := run?_closeObject h (last :: done) ts
    rw [List.reverse_cons] at close
    exact close
  | (name, value) :: more, hw, h => by
    simp only [depthFields] at h
    rw [fieldTokens, run?_step rfl, run?_step rfl, run?_step rfl,
      run?_value _ _ value hw.1 (by simp only [List.length_cons]; omega)]
    have rest := run?_fields ts stack (last :: done) (name, value) more hw.2 (by omega)
    rw [List.reverse_cons, List.append_assoc, List.singleton_append] at rest
    exact rest

end

/-- What was written reads back. -/
theorem parse?_of_spells {text : String} {j : Json} (h : Spells text j) (hw : j.Writable)
    (hd : j.depth ≤ limit) : parse? limit text = some j := by
  have read : run? limit (.value []) (tokensBefore [] j) = run? limit (.after j []) [] :=
    run?_value [] [] j hw (by simpa using hd)
  unfold parse?
  rw [tokens?_of_spells h hw]
  exact read

/-! ## Values that are accepted lie within the limit -/

theorem depthList_le_iff {items : List Json} {n : Nat} :
    depthList items ≤ n ↔ ∀ item ∈ items, item.depth ≤ n := by
  induction items with
  | nil => simp [depthList]
  | cons item rest ih => rw [depthList, Nat.max_le, ih, List.forall_mem_cons]

theorem depthFields_le_iff {fields : List (String × Json)} {n : Nat} :
    depthFields fields ≤ n ↔ ∀ field ∈ fields, field.2.depth ≤ n := by
  induction fields with
  | nil => simp [depthFields]
  | cons field rest ih => rw [depthFields, Nat.max_le, ih, List.forall_mem_cons]

/-- The values that an open container holds so far. -/
def Frame.held : Frame → List Json
  | .array items => items
  | .field fields _ => fields.map (·.2)

/-- What the open containers hold fits below them. -/
def Shallow (limit : Nat) : List Frame → Prop
  | [] => True
  | frame :: rest =>
    (∀ v ∈ frame.held, v.depth ≤ limit - (rest.length + 1)) ∧ Shallow limit rest

/-- Whatever has been read fits within the limit at its place. -/
def Reading.Within (limit : Nat) : Reading → Prop
  | .value stack => Shallow limit stack
  | .item stack => Shallow limit stack
  | .key fields stack => Shallow limit (.field fields none :: stack)
  | .colon fields name stack => Shallow limit (.field fields name :: stack)
  | .after v stack => v.depth ≤ limit - stack.length ∧ Shallow limit stack

theorem within_begin? {stack : List Frame} {t : Token} {r : Reading} (ht : t.Flat)
    (hs : Shallow limit stack) (h : Reading.begin? stack t = some r) : r.Within limit := by
  unfold Reading.begin? at h
  split at h <;> cases h
  · exact hs
  · exact ⟨nofun, hs⟩
  · exact ⟨Nat.zero_le _, hs⟩
  · exact ⟨Nat.zero_le _, hs⟩
  · exact ⟨ht ▸ Nat.zero_le _, hs⟩

theorem within_closeArray {stack : List Frame} {items : List Json}
    (h : Shallow limit (.array items :: stack)) : (closeArray limit items stack).Within limit := by
  refine ⟨?_, h.2⟩
  split
  · rename_i hf
    have hf : stack.length < limit := of_decide_eq_true hf
    have : depthList items.reverse ≤ limit - (stack.length + 1) :=
      depthList_le_iff.2 fun v hv => h.1 v (List.mem_reverse.1 hv)
    simp only [depth]
    omega
  · exact Nat.zero_le _

theorem depth_object? {fields : List (Option QuotedText × Json)} {named : List (String × Json)}
    {plain : Bool} {v : Json} {n : Nat} (hf : ∀ f ∈ fields, f.2.depth ≤ n)
    (hn : depthFields named ≤ n) (h : object? fields named plain = some v) : v.depth ≤ n + 1 := by
  fun_induction object? fields named plain with
  | case1 named plain =>
    cases h
    simpa [depth] using hn
  | case2 named plain name v rest ih =>
    refine ih (fun f hf' => hf f (List.mem_cons_of_mem _ hf')) ?_ h
    exact Nat.max_le.2 ⟨hf _ List.mem_cons_self, hn⟩
  | case3 => cases h

theorem within_closeObject {stack : List Frame} {fields : List (Option QuotedText × Json)}
    (h : Shallow limit (.field fields none :: stack)) :
    (closeObject limit fields stack).Within limit := by
  unfold closeObject
  split
  · rename_i v hv
    refine ⟨?_, h.2⟩
    split
    · rename_i hl
      have hl : stack.length < limit := of_decide_eq_true hl
      have := depth_object? (fun f hf => h.1 _ (List.mem_map_of_mem hf)) (Nat.zero_le _) hv
      omega
    · exact Nat.zero_le _
  · exact ⟨Nat.zero_le _, h.2⟩

/-- One more value in the innermost container. -/
theorem shallow_cons {v : Json} {frame frame' : Frame} {stack : List Frame}
    (hv : v.depth ≤ limit - (frame :: stack).length) (hs : Shallow limit (frame :: stack))
    (h : frame'.held = v :: frame.held) : Shallow limit (frame' :: stack) := by
  refine ⟨fun w hw => ?_, hs.2⟩
  rw [h] at hw
  rcases List.mem_cons.1 hw with rfl | hw
  · exact hv
  · exact hs.1 w hw

/-- One case for each rule of the reader. -/
theorem within_step? {r r' : Reading} {t : Token} (ht : t.Flat) (hr : r.Within limit)
    (h : step? limit r t = some r') : r'.Within limit := by
  unfold step? at h
  split at h
  · exact within_begin? ht hr h
  · cases h
    exact within_closeArray ⟨nofun, hr⟩
  · rename_i stack _
    have hs : Shallow limit (.array [] :: stack) := ⟨nofun, hr⟩
    exact within_begin? ht hs h
  · cases h
    exact hr
  · cases h
    exact within_closeObject hr
  · cases h
    exact hr
  · cases h
    exact shallow_cons hr.1 hr.2 rfl
  · cases h
    exact within_closeArray (shallow_cons hr.1 hr.2 rfl)
  · cases h
    exact shallow_cons hr.1 hr.2 rfl
  · cases h
    exact within_closeObject (shallow_cons hr.1 hr.2 rfl)
  · cases h

theorem depth_le_of_parse? {text : String} {j : Json} (h : parse? limit text = some j) :
    j.depth ≤ limit := by
  unfold parse? at h
  obtain ⟨ts, hts, h⟩ := Option.bind_eq_some_iff.1 h
  obtain ⟨r, hr, h⟩ := Option.bind_eq_some_iff.1 h
  have start : (Reading.value []).Within limit := trivial
  have hr : r.Within limit :=
    foldlM_keeps (fun _ _ t ht hs => within_step? (flat_tokens? hts t ht) hs) start hr
  unfold finish? at h
  split at h
  · cases h
    exact hr.1
  · cases h

end AutoBattler.Json
