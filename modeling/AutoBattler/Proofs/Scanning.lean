import AutoBattler.Json.Reader
import AutoBattler.Json.Writer
import AutoBattler.Proofs.Spelling

/-!
# Cutting written text into tokens

A value that is written, on one line or indented, is cut into its own tokens. A number ends only where
a character follows that cannot belong to it, so every statement is about a value in front of a text
that is itself cut into tokens.
-/
namespace AutoBattler.Json

mutual

/-- Whether the value is one that its text can stand for: its integers fit 64 bits, and the names of
its objects are spelled as they are written. -/
def Writable : Json → Prop
  | .int n => least ≤ n ∧ n ≤ greatest
  | .inexact _ => False
  | .unreadable => False
  | .array items => WritableItems items
  | .object fields plain => plain = true ∧ WritableFields fields
  | _ => True

def WritableItems : List Json → Prop
  | [] => True
  | item :: rest => item.Writable ∧ WritableItems rest

def WritableFields : List (String × Json) → Prop
  | [] => True
  | (_, value) :: rest => value.Writable ∧ WritableFields rest

end

theorem writableItems_iff {items : List Json} :
    WritableItems items ↔ ∀ item ∈ items, item.Writable := by
  induction items with
  | nil => simp [WritableItems]
  | cons item rest ih => simp [WritableItems, ih]

theorem writableFields_iff {fields : List (String × Json)} :
    WritableFields fields ↔ ∀ field ∈ fields, field.2.Writable := by
  induction fields with
  | nil => simp [WritableFields]
  | cons field rest ih => simp [WritableFields, ih]

/-! ## The tokens of a value -/

/-- Quoted text that is spelled as `quote` spells it. -/
def textToken (s : String) : Token := .text (some ⟨s, true⟩)

mutual

/-- The tokens of a value in front of others. -/
def tokensBefore (rest : List Token) : Json → List Token
  | .array [] => .beginArray :: .endArray :: rest
  | .array (item :: more) => .beginArray :: tokensBefore (itemTokens rest more) item
  | .object [] _ => .beginObject :: .endObject :: rest
  | .object ((name, value) :: more) _ =>
    .beginObject :: textToken name :: .colon :: tokensBefore (fieldTokens rest more) value
  | .str s => textToken s :: rest
  | j => .atom j :: rest

/-- The tokens of the items after the first and of the closing bracket. -/
def itemTokens (rest : List Token) : List Json → List Token
  | [] => .endArray :: rest
  | item :: more => .comma :: tokensBefore (itemTokens rest more) item

/-- The tokens of the fields after the first and of the closing brace. -/
def fieldTokens (rest : List Token) : List (String × Json) → List Token
  | [] => .endObject :: rest
  | (name, value) :: more =>
    .comma :: textToken name :: .colon :: tokensBefore (fieldTokens rest more) value

end

/-! ## Scanning from a state on -/

namespace Scanner

/-- The tokens of a text that is scanned on from a state. -/
def scan? (s : Scanner) (cs : List Char) : Option (List Token) := (cs.foldlM step? s).bind finish?

theorem scan?_cons (s : Scanner) (c : Char) (cs : List Char) :
    scan? s (c :: cs) = (step? s c).bind fun s => scan? s cs := by
  unfold scan?
  rw [List.foldlM_cons]
  exact Option.bind_assoc ..

theorem scan?_step {s s' : Scanner} {c : Char} (h : step? s c = some s') (cs : List Char) :
    scan? s (c :: cs) = scan? s' cs := by
  rw [scan?_cons, h]
  rfl

/-- A text that is cut into the given tokens, whatever tokens stand before it. -/
def Cuts (cs : List Char) (ts : List Token) : Prop :=
  ∀ tokens, scan? ⟨tokens, .between⟩ cs = some (tokens.reverse ++ ts)

theorem cuts_nil : Cuts [] [] := fun tokens => by simp [scan?, finish?]

variable {cs rest : List Char} {ts : List Token} {t : Token}

theorem Cuts.blank {c : Char} (h : isBlank c = true) (hr : Cuts rest ts) : Cuts (c :: rest) ts := by
  intro tokens
  have hc : step? ⟨tokens, .between⟩ c = some ⟨tokens, .between⟩ := if_pos h
  rw [scan?_step hc, hr]

theorem Cuts.newLine (hr : Cuts rest ts) (indent : Nat) : Cuts (newLine indent rest) ts := by
  refine Cuts.blank rfl ?_
  induction indent with
  | zero => exact hr
  | succ indent ih =>
    rw [List.replicate_succ]
    exact ih.blank rfl

/-- A token is complete and further text is scanned. -/
theorem Cuts.next (hr : Cuts rest ts) (tokens : List Token) :
    scan? ⟨t :: tokens, .between⟩ rest = some (tokens.reverse ++ t :: ts) := by
  rw [hr]
  simp

/-- A bracket, a brace, a colon or a comma. -/
theorem Cuts.mark {c : Char} (hr : Cuts rest ts)
    (h : ∀ tokens, step? ⟨tokens, .between⟩ c = some ⟨t :: tokens, .between⟩) :
    Cuts (c :: rest) (t :: ts) := by
  intro tokens
  rw [scan?_step (h tokens), hr.next]

/-! ## Numbers and words -/

/-- A state that collects the characters of a token as long as they belong to it and reads them when
the first other character comes. -/
structure Collects (state : List Char → Scan) (belongs : Char → Bool)
    (token? : List Char → Option Token) : Prop where
  go : ∀ tokens read c, belongs c = true →
    step? ⟨tokens, state read⟩ c = some ⟨tokens, state (c :: read)⟩
  stop : ∀ tokens read c t, belongs c = false → token? read.reverse = some t →
    step? ⟨tokens, state read⟩ c = step? ⟨t :: tokens, .between⟩ c
  finish : ∀ tokens read t, token? read.reverse = some t →
    finish? ⟨tokens, state read⟩ = finish? ⟨t :: tokens, .between⟩

theorem collects_number :
    Collects .number continuesNumber fun cs => (number? cs).map Token.atom where
  go tokens read c h := if_pos h
  stop tokens read c t h ht := by
    obtain ⟨v, hv, rfl⟩ := Option.map_eq_some_iff.1 ht
    simp [step?, h, hv]
  finish tokens read t ht := by
    obtain ⟨v, hv, rfl⟩ := Option.map_eq_some_iff.1 ht
    simp [finish?, hv]

theorem collects_word : Collects .word Char.isLower word? where
  go tokens read c h := if_pos h
  stop tokens read c t h ht := by simp [step?, h, ht]
  finish tokens read t ht := by simp [finish?, ht]

namespace Collects

variable {state : List Char → Scan} {belongs : Char → Bool} {token? : List Char → Option Token}

/-- By induction on the characters that the token goes on with. -/
theorem scan?_append (h : Collects state belongs token?) (tokens : List Token)
    (hcs : ∀ c ∈ cs, belongs c = true) (read rest : List Char) :
    scan? ⟨tokens, state read⟩ (cs ++ rest) = scan? ⟨tokens, state (cs.reverse ++ read)⟩ rest := by
  induction cs generalizing read with
  | nil => rfl
  | cons c cs ih =>
    rw [List.cons_append, scan?_step (h.go _ _ _ (hcs c List.mem_cons_self)),
      ih fun d hd => hcs d (List.mem_cons_of_mem c hd)]
    simp

theorem scan?_end (h : Collects state belongs token?) {read : List Char}
    (ht : token? read.reverse = some t) (hr : ∀ c ∈ rest.head?, belongs c = false)
    (tokens : List Token) :
    scan? ⟨tokens, state read⟩ rest = scan? ⟨t :: tokens, .between⟩ rest := by
  cases rest with
  | nil => exact h.finish tokens read t ht
  | cons c rest => rw [scan?_cons, scan?_cons, h.stop tokens read c t (hr c rfl) ht]

/-- The token of its characters, the first of which says what state begins. -/
theorem cuts (h : Collects state belongs token?) {c : Char}
    (hc : ∀ tokens, step? ⟨tokens, .between⟩ c = some ⟨tokens, state [c]⟩)
    (hcs : ∀ d ∈ cs, belongs d = true) (ht : token? (c :: cs) = some t)
    (hr : ∀ d ∈ rest.head?, belongs d = false) (hts : Cuts rest ts) :
    Cuts (c :: cs ++ rest) (t :: ts) := by
  intro tokens
  have collected : token? (cs.reverse ++ [c]).reverse = some t := by simpa using ht
  rw [List.cons_append, scan?_step (hc tokens), h.scan?_append tokens hcs, h.scan?_end collected hr,
    hts.next]

end Collects

/-- The next character, if there is one, belongs neither to a number nor to a word. -/
def Delimited (rest : List Char) : Prop :=
  ∀ c ∈ rest.head?, continuesNumber c = false ∧ c.isLower = false

theorem delimited_nil : Delimited [] := nofun

theorem delimited_cons {c : Char} (h : continuesNumber c = false ∧ c.isLower = false)
    (rest : List Char) : Delimited (c :: rest) := by
  intro d hd
  cases hd
  exact h

theorem cuts_word (c : Char) (cs : List Char)
    (hc : ∀ tokens, step? ⟨tokens, .between⟩ c = some ⟨tokens, .word [c]⟩)
    (hcs : cs.all Char.isLower = true) (ht : word? (c :: cs) = some t) (hd : Delimited rest)
    (hr : Cuts rest ts) : Cuts (c :: cs ++ rest) (t :: ts) :=
  collects_word.cuts hc (List.all_eq_true.1 hcs) ht (fun d h => (hd d h).2) hr

theorem step?_digit {c : Char} (h : c.isDigit = true) (tokens : List Token) :
    step? ⟨tokens, .between⟩ c = some ⟨tokens, .number [c]⟩ := by
  have other {d : Char} (hd : d.isDigit = false) : c ≠ d := by
    intro he
    rw [he, hd] at h
    cases h
  have blank : isBlank c = false := by simp [isBlank, other]
  simp [step?, fresh?, blank, other, h]

theorem continuesNumber_digit {c : Char} (h : c.isDigit = true) : continuesNumber c = true := by
  simp [continuesNumber, h]

/-- An integer begins with a digit or a sign and goes on with digits. -/
theorem cuts_int {n : Int} (hn : least ≤ n ∧ n ≤ greatest) (hd : Delimited rest)
    (hr : Cuts rest ts) : Cuts ((toString n).toList ++ rest) (.atom (.int n) :: ts) := by
  have number : ∀ c cs, (toString n).toList = c :: cs →
      (∀ tokens, step? ⟨tokens, .between⟩ c = some ⟨tokens, .number [c]⟩) →
      (∀ d ∈ cs, continuesNumber d = true) →
      Cuts ((toString n).toList ++ rest) (.atom (.int n) :: ts) := by
    intro c cs h hc hcs
    have hv := number?_toString hn
    rw [h] at hv ⊢
    exact collects_number.cuts hc hcs (by rw [hv]; rfl) (fun d h => (hd d h).1) hr
  cases n with
  | ofNat n =>
    obtain ⟨c, cs, h⟩ := List.exists_cons_of_ne_nil (Nat.toDigits_ne_nil (b := 10) (n := n))
    have digits : ∀ d ∈ c :: cs, d.isDigit = true := fun d hd => isDigit_toDigits (h ▸ hd)
    exact number c cs ((toList_toString_ofNat n).trans h)
      (step?_digit (digits c List.mem_cons_self))
      fun d hd => continuesNumber_digit (digits d (List.mem_cons_of_mem c hd))
  | negSucc n =>
    exact number '-' _ (toList_toString_negSucc n) (fun _ => rfl)
      fun d hd => continuesNumber_digit (isDigit_toDigits hd)

/-! ## Quoted text -/

theorem scan?_plain {c : Char} (h : Plain c) (tokens : List Token) (read rest : List Char) :
    scan? ⟨tokens, .quoted read⟩ (c :: rest) = scan? ⟨tokens, .quoted (c :: read)⟩ rest := by
  refine scan?_step ?_ rest
  simp [step?, h.1, h.2.1, h.2.2]

theorem scan?_escaped (c : Char) (tokens : List Token) (read rest : List Char) :
    scan? ⟨tokens, .quoted read⟩ ('\\' :: c :: rest) =
      scan? ⟨tokens, .quoted (c :: '\\' :: read)⟩ rest := by
  have slash : step? ⟨tokens, .quoted read⟩ '\\' = some ⟨tokens, .escape ('\\' :: read)⟩ := rfl
  have escaped : step? ⟨tokens, .escape ('\\' :: read)⟩ c =
      some ⟨tokens, .quoted (c :: '\\' :: read)⟩ := rfl
  rw [scan?_step slash, scan?_step escaped]

theorem scan?_spelling {c : Char} (h : Spelling c cs) (tokens : List Token)
    (read rest : List Char) :
    scan? ⟨tokens, .quoted read⟩ (cs ++ rest) =
      scan? ⟨tokens, .quoted (cs.reverse ++ read)⟩ rest := by
  cases h with
  | short => exact scan?_escaped _ tokens read rest
  | unit _ _ ha hb =>
    have zero : Plain '0' := by decide
    simp only [List.cons_append, List.nil_append]
    rw [scan?_escaped, scan?_plain zero, scan?_plain zero, scan?_plain ha, scan?_plain hb]
    rfl
  | plain h => exact scan?_plain h tokens read rest

/-- By induction on the characters of the text. -/
theorem scan?_escape (cs : List Char) (tokens : List Token) (read rest : List Char) :
    scan? ⟨tokens, .quoted read⟩ (escape cs ++ rest) =
      scan? ⟨tokens, .quoted ((escape cs).reverse ++ read)⟩ rest := by
  induction cs generalizing read with
  | nil => rfl
  | cons c cs ih =>
    rw [show escape (c :: cs) = escapeChar c ++ escape cs from rfl, List.append_assoc,
      scan?_spelling (spelling_escapeChar c), ih]
    simp

theorem text?_escape (s : String) : text? (escape s.toList) = some (textToken s) := by
  rw [text?, if_pos (isWellEscaped_escape _), QuotedText.read?_escape]
  rfl

theorem cuts_quote (s : String) (hr : Cuts rest ts) :
    Cuts (quote s ++ rest) (textToken s :: ts) := by
  intro tokens
  have quoted : step? ⟨tokens, .quoted (escape s.toList).reverse⟩ '"' =
      some ⟨textToken s :: tokens, .between⟩ := by
    simp [step?, text?_escape]
  have begins : step? ⟨tokens, .between⟩ '"' = some ⟨tokens, .quoted []⟩ := rfl
  show scan? _ ('"' :: (escape s.toList ++ ['"'] ++ rest)) = _
  rw [scan?_step begins, List.append_assoc, scan?_escape, List.append_nil]
  show scan? _ ('"' :: rest) = _
  rw [scan?_step quoted, hr.next]

end Scanner

open Scanner

/-! ## Values on one line -/

theorem delimited_writeItems (rest : List Char) (items : List Json) :
    Delimited (writeItems rest items) := by
  cases items with
  | nil => exact delimited_cons (by decide) _
  | cons item more => exact delimited_cons (by decide) _

theorem delimited_writeFields (rest : List Char) (fields : List (String × Json)) :
    Delimited (writeFields rest fields) := by
  cases fields with
  | nil => exact delimited_cons (by decide) _
  | cons field more => exact delimited_cons (by decide) _

/-- The name of a field in front of its value. -/
theorem cuts_name {written : List Char} {ts : List Token} (name : String) (h : Cuts written ts) :
    Cuts (quote name ++ ':' :: written) (textToken name :: .colon :: ts) :=
  cuts_quote name (h.mark fun _ => rfl)

mutual

theorem cuts_writeBefore {rest : List Char} {ts : List Token} (hr : Cuts rest ts)
    (hd : Delimited rest) :
    (j : Json) → j.Writable → Cuts (writeBefore rest j) (tokensBefore ts j)
  | .null, _ => cuts_word 'n' ['u', 'l', 'l'] (fun _ => rfl) rfl rfl hd hr
  | .bool true, _ => cuts_word 't' ['r', 'u', 'e'] (fun _ => rfl) rfl rfl hd hr
  | .bool false, _ => cuts_word 'f' ['a', 'l', 's', 'e'] (fun _ => rfl) rfl rfl hd hr
  | .int _, hw => cuts_int hw hd hr
  | .str s, _ => cuts_quote s hr
  | .array [], _ => (hr.mark fun _ => rfl).mark fun _ => rfl
  | .array (item :: more), hw => by
    have items := cuts_writeItems hr more hw.2
    have first := cuts_writeBefore items (delimited_writeItems _ more) item hw.1
    exact first.mark fun _ => rfl
  | .object [] _, _ => (hr.mark fun _ => rfl).mark fun _ => rfl
  | .object ((name, value) :: more) _, hw => by
    have fields := cuts_writeFields hr more hw.2.2
    have first := cuts_writeBefore fields (delimited_writeFields _ more) value hw.2.1
    exact (cuts_name name first).mark fun _ => rfl

theorem cuts_writeItems {rest : List Char} {ts : List Token} (hr : Cuts rest ts) :
    (items : List Json) → WritableItems items → Cuts (writeItems rest items) (itemTokens ts items)
  | [], _ => hr.mark fun _ => rfl
  | item :: more, hw => by
    have items := cuts_writeItems hr more hw.2
    have first := cuts_writeBefore items (delimited_writeItems _ more) item hw.1
    exact first.mark fun _ => rfl

theorem cuts_writeFields {rest : List Char} {ts : List Token} (hr : Cuts rest ts) :
    (fields : List (String × Json)) → WritableFields fields →
      Cuts (writeFields rest fields) (fieldTokens ts fields)
  | [], _ => hr.mark fun _ => rfl
  | (name, value) :: more, hw => by
    have fields := cuts_writeFields hr more hw.2
    have first := cuts_writeBefore fields (delimited_writeFields _ more) value hw.1
    exact (cuts_name name first).mark fun _ => rfl

end

/-! ## Values over several lines -/

theorem delimited_newLine (indent : Nat) (rest : List Char) : Delimited (newLine indent rest) :=
  delimited_cons (by decide) _

theorem delimited_writeMoreItems {rest : List Char} (hd : Delimited rest) (indent : Nat)
    (items : List Json) : Delimited (writeMoreItems rest indent items) := by
  cases items with
  | nil => exact hd
  | cons item more => exact delimited_cons (by decide) _

theorem delimited_writeMoreFields {rest : List Char} (hd : Delimited rest) (indent : Nat)
    (fields : List (String × Json)) : Delimited (writeMoreFields rest indent fields) := by
  cases fields with
  | nil => exact hd
  | cons field more => exact delimited_cons (by decide) _

mutual

theorem cuts_writeIndented {rest : List Char} {ts : List Token} (hr : Cuts rest ts)
    (hd : Delimited rest) (indent : Nat) :
    (j : Json) → j.Writable → Cuts (writeIndented rest indent j) (tokensBefore ts j)
  | .null, hw | .bool _, hw | .int _, hw | .str _, hw => cuts_writeBefore hr hd _ hw
  | .array [], _ => (hr.mark fun _ => rfl).mark fun _ => rfl
  | .array (item :: more), hw => by
    have stop := delimited_newLine indent (']' :: rest)
    have items := cuts_writeMoreItems ((hr.mark fun _ => rfl).newLine indent) stop (indent + 2)
      more hw.2
    have first := cuts_writeIndented items (delimited_writeMoreItems stop _ more) (indent + 2)
      item hw.1
    exact (first.newLine _).mark fun _ => rfl
  | .object [] _, _ => (hr.mark fun _ => rfl).mark fun _ => rfl
  | .object ((name, value) :: more) _, hw => by
    have stop := delimited_newLine indent ('\x7d' :: rest)
    have fields := cuts_writeMoreFields ((hr.mark fun _ => rfl).newLine indent) stop (indent + 2)
      more hw.2.2
    have first := cuts_writeIndented fields (delimited_writeMoreFields stop _ more) (indent + 2)
      value hw.2.1
    exact ((cuts_name name (first.blank rfl)).newLine _).mark fun _ => rfl

theorem cuts_writeMoreItems {rest : List Char} {ts : List Token} (hr : Cuts rest (.endArray :: ts))
    (hd : Delimited rest) (indent : Nat) :
    (items : List Json) → WritableItems items →
      Cuts (writeMoreItems rest indent items) (itemTokens ts items)
  | [], _ => hr
  | item :: more, hw => by
    have first := cuts_writeIndented (cuts_writeMoreItems hr hd indent more hw.2)
      (delimited_writeMoreItems hd _ more) indent item hw.1
    exact (first.newLine _).mark fun _ => rfl

theorem cuts_writeMoreFields {rest : List Char} {ts : List Token}
    (hr : Cuts rest (.endObject :: ts)) (hd : Delimited rest) (indent : Nat) :
    (fields : List (String × Json)) → WritableFields fields →
      Cuts (writeMoreFields rest indent fields) (fieldTokens ts fields)
  | [], _ => hr
  | (name, value) :: more, hw => by
    have first := cuts_writeIndented (cuts_writeMoreFields hr hd indent more hw.2)
      (delimited_writeMoreFields hd _ more) indent value hw.1
    exact ((cuts_name name (first.blank rfl)).newLine _).mark fun _ => rfl

end

/-- The two forms in which a value is written. -/
def Spells (text : String) (j : Json) : Prop := text = j.render ∨ text = j.renderIndented

theorem tokens?_of_spells {text : String} {j : Json} (h : Spells text j) (hw : j.Writable) :
    tokens? text.toList = some (tokensBefore [] j) := by
  rcases h with rfl | rfl
  · rw [render, String.toList_ofList]
    exact cuts_writeBefore cuts_nil delimited_nil j hw []
  · rw [renderIndented, String.toList_ofList]
    exact cuts_writeIndented cuts_nil delimited_nil 0 j hw []

/-! ## Tokens hold no containers -/

/-- What every step keeps holds after all of them. By induction on the steps. -/
theorem foldlM_keeps {σ α : Type} {step : σ → α → Option σ} {I : σ → Prop} {xs : List α}
    (h : ∀ s s', ∀ x ∈ xs, I s → step s x = some s' → I s') {s s' : σ} (hs : I s)
    (hf : xs.foldlM step s = some s') : I s' := by
  induction xs generalizing s with
  | nil => exact Option.some.inj hf ▸ hs
  | cons x xs ih =>
    rw [List.foldlM_cons] at hf
    obtain ⟨s₁, h₁, hf⟩ := Option.bind_eq_some_iff.1 hf
    exact ih (fun s s' y hy => h s s' y (List.mem_cons_of_mem x hy))
      (h s s₁ x List.mem_cons_self hs h₁) hf

/-- A token without containers in it. -/
def Token.Flat : Token → Prop
  | .atom v => v.depth = 0
  | _ => True

theorem flat_number? {cs : List Char} {v : Json} (h : number? cs = some v) :
    (Token.atom v).Flat := by
  obtain ⟨t, -, rfl⟩ := Option.map_eq_some_iff.1 h
  simp only [Token.Flat, NumberText.value, apply_ite depth]
  simp [depth]

theorem flat_word? {cs : List Char} {t : Token} (h : word? cs = some t) : t.Flat := by
  unfold word? at h
  split_ifs at h <;> cases h <;> rfl

theorem flat_text? {cs : List Char} {t : Token} (h : text? cs = some t) : t.Flat := by
  unfold text? at h
  split_ifs at h
  cases h
  exact trivial

theorem flat_punctuation? {c : Char} {t : Token} (h : punctuation? c = some t) : t.Flat := by
  unfold punctuation? at h
  split_ifs at h <;> cases h <;> exact trivial

/-- Whether the tokens that are complete hold no containers. -/
def Scanner.Flat (s : Scanner) : Prop := ∀ t ∈ s.tokens, t.Flat

theorem flat_fresh? {tokens : List Token} {c : Char} {s : Scanner} (ht : ∀ t ∈ tokens, t.Flat)
    (h : fresh? tokens c = some s) : s.Flat := by
  unfold fresh? at h
  split_ifs at h
  · exact Option.some.inj h ▸ ht
  · exact Option.some.inj h ▸ ht
  · exact Option.some.inj h ▸ ht
  · exact Option.some.inj h ▸ ht
  · obtain ⟨t, hp, rfl⟩ := Option.map_eq_some_iff.1 h
    exact List.forall_mem_cons.2 ⟨flat_punctuation? hp, ht⟩

theorem flat_step? {s s' : Scanner} {c : Char} (hs : s.Flat) (h : Scanner.step? s c = some s') :
    s'.Flat := by
  unfold Scanner.step? at h
  split at h
  · exact flat_fresh? hs h
  · split_ifs at h
    · exact Option.some.inj h ▸ hs
    · obtain ⟨v, hv, h⟩ := Option.bind_eq_some_iff.1 h
      exact flat_fresh? (List.forall_mem_cons.2 ⟨flat_number? hv, hs⟩) h
  · split_ifs at h
    · exact Option.some.inj h ▸ hs
    · obtain ⟨t, ht, h⟩ := Option.bind_eq_some_iff.1 h
      exact flat_fresh? (List.forall_mem_cons.2 ⟨flat_word? ht, hs⟩) h
  · split_ifs at h
    · obtain ⟨t, ht, rfl⟩ := Option.map_eq_some_iff.1 h
      exact List.forall_mem_cons.2 ⟨flat_text? ht, hs⟩
    · exact Option.some.inj h ▸ hs
    · exact Option.some.inj h ▸ hs
  · exact Option.some.inj h ▸ hs

theorem flat_tokens? {text : List Char} {ts : List Token} (h : tokens? text = some ts) :
    ∀ t ∈ ts, t.Flat := by
  obtain ⟨s, hs, h⟩ := Option.bind_eq_some_iff.1 h
  have start : Scanner.start.Flat := List.forall_mem_nil _
  have hs : s.Flat := foldlM_keeps (fun _ _ _ _ => flat_step?) start hs
  have last {t : Token} (ht : t.Flat) : ∀ u ∈ (t :: s.tokens).reverse, u.Flat := fun u hu =>
    List.forall_mem_cons.2 ⟨ht, hs⟩ u (List.mem_reverse.1 hu)
  unfold Scanner.finish? at h
  split at h
  · exact Option.some.inj h ▸ fun t ht => hs t (List.mem_reverse.1 ht)
  · obtain ⟨v, hv, rfl⟩ := Option.map_eq_some_iff.1 h
    exact last (flat_number? hv)
  · obtain ⟨t, ht, rfl⟩ := Option.map_eq_some_iff.1 h
    exact last (flat_word? ht)
  · cases h
  · cases h

end AutoBattler.Json
