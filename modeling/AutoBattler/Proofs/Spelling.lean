import AutoBattler.Json.Number
import AutoBattler.Json.Quoted
import Mathlib.Data.List.TakeWhile
import Mathlib.Tactic.SplitIfs

/-!
# How numbers and texts are spelled

An integer is spelled in decimal digits without leading zeros, and these read back as the integer if
64 bits hold it. A text is spelled one character at a time, each as itself or as an escape, and reads
back whatever characters it has.
-/
namespace AutoBattler.Json

/-! ## Integers -/

theorem natOfDigits_toDigits (n : Nat) : natOfDigits (Nat.toDigits 10 n) = n :=
  Nat.ofDigitChars_eq_foldl.symm.trans Nat.ofDigitChars_ten_toDigits

theorem isDigit_toDigits {n : Nat} {c : Char} (h : c ∈ Nat.toDigits 10 n) : c.isDigit = true :=
  Nat.isDigit_of_mem_toDigits (by decide) (by decide) h

theorem leadingDigits_toDigits (n : Nat) :
    leadingDigits (Nat.toDigits 10 n) = (Nat.toDigits 10 n, []) := by
  have digits : ∀ c ∈ Nat.toDigits 10 n, c.isDigit = true := fun c => isDigit_toDigits
  rw [leadingDigits, List.takeWhile_eq_self_iff.2 digits, List.dropWhile_eq_nil_iff.2 digits]

/-- Only zero begins with the digit zero. By induction on the number of digits. -/
theorem eq_zero_of_head?_toDigits {n : Nat} (h : (Nat.toDigits 10 n).head? = some '0') : n = 0 := by
  induction n using Nat.strongRecOn with
  | ind n ih =>
    by_cases hn : n < 10
    · rw [Nat.toDigits_of_lt_base hn] at h
      have digit : ∀ d < 10, [Nat.digitChar d].head? = some '0' → d = 0 := by decide
      exact digit n hn h
    · rw [Nat.toDigits_of_base_le (by decide) (Nat.not_lt.1 hn), List.head?_append,
        Option.or_of_isSome (by simp)] at h
      have := ih (n / 10) (by omega) h
      omega

/-- The digits of a number are not empty and have no zero in front. -/
theorem wellFormed_toDigits (n : Nat) : ¬ (Nat.toDigits 10 n = [] ∨
    (Nat.toDigits 10 n).head? = some '0' ∧ Nat.toDigits 10 n ≠ ['0']) := by
  rintro (empty | ⟨zero, more⟩)
  · exact Nat.toDigits_ne_nil empty
  · rw [eq_zero_of_head?_toDigits zero] at more
    exact more (Nat.toDigits_zero 10)

theorem NumberText.read?_neg_toDigits (n : Nat) :
    NumberText.read? ('-' :: Nat.toDigits 10 n) = some ⟨true, Nat.toDigits 10 n, [], none⟩ := by
  simp only [NumberText.read?, leadingDigits_toDigits]
  rw [if_neg (wellFormed_toDigits n)]
  rfl

theorem NumberText.read?_toDigits (n : Nat) :
    NumberText.read? (Nat.toDigits 10 n) = some ⟨false, Nat.toDigits 10 n, [], none⟩ := by
  have unsigned : ∀ ds, Nat.toDigits 10 n ≠ '-' :: ds := by
    intro ds h
    have : '-'.isDigit = true := isDigit_toDigits (n := n) (h ▸ List.mem_cons_self)
    simp at this
  unfold NumberText.read?
  split
  rename_i negative cs h
  split at h
  · rename_i ds hds
    exact absurd hds (unsigned ds)
  · cases h
    simp only [leadingDigits_toDigits]
    rw [if_neg (wellFormed_toDigits n)]
    rfl

theorem toList_toString_ofNat (n : Nat) : (toString (Int.ofNat n)).toList = Nat.toDigits 10 n :=
  Nat.toList_repr

theorem toList_toString_negSucc (n : Nat) :
    (toString (Int.negSucc n)).toList = '-' :: Nat.toDigits 10 (n + 1) := by
  show ("-" ++ Nat.repr (n + 1)).toList = _
  rw [String.toList_append, Nat.toList_repr]
  rfl

/-- An integer that 64 bits hold reads back from its digits. -/
theorem number?_toString {n : Int} (h : least ≤ n ∧ n ≤ greatest) :
    number? (toString n).toList = some (.int n) := by
  cases n with
  | ofNat n =>
    rw [toList_toString_ofNat, number?, NumberText.read?_toDigits]
    simp only [Option.map_some, NumberText.value, natOfDigits_toDigits]
    exact congrArg some (if_pos ⟨trivial, trivial, nofun, h⟩)
  | negSucc n =>
    rw [toList_toString_negSucc, number?, NumberText.read?_neg_toDigits]
    simp only [Option.map_some, NumberText.value, natOfDigits_toDigits]
    exact congrArg some (if_pos ⟨trivial, trivial, nofun, h⟩)

/-! ## Texts -/

/-- A character that stands between quotes as itself. -/
def Plain (c : Char) : Prop := c ≠ '"' ∧ c ≠ '\\' ∧ ¬ c < ' '

instance (c : Char) : Decidable (Plain c) := inferInstanceAs (Decidable (_ ∧ _ ∧ _))

/-- The three ways in which a character is spelled. -/
inductive Spelling : Char → List Char → Prop where
  | short {c e : Char} (he : e ≠ 'u') (h : simpleEscape? e = some c) : Spelling c ['\\', e]
  | unit {c a b : Char} (h : hexUnit? '0' '0' a b = some c.toNat) (hc : c < ' ') (ha : Plain a)
      (hb : Plain b) : Spelling c ['\\', 'u', '0', '0', a, b]
  | plain {c : Char} (h : Plain c) : Spelling c [c]

/-- The codes of the control characters are spelled with two digits that stand as themselves. -/
theorem hexUnit?_hexChar : ∀ n < 32,
    hexUnit? '0' '0' (hexChar (n / 16)) (hexChar (n % 16)) = some n ∧
      Plain (hexChar (n / 16)) ∧ Plain (hexChar (n % 16)) := by
  decide

theorem spelling_escapeChar (c : Char) : Spelling c (escapeChar c) := by
  have short (e : Char) (he : e ≠ 'u') {d : Char} (h : simpleEscape? e = some d) (hc : c = d) :
      Spelling c ['\\', e] := .short he (hc ▸ h)
  unfold escapeChar
  split_ifs with quote slash back feed line ret tab control
  · exact short '"' (by decide) rfl quote
  · exact short '\\' (by decide) rfl slash
  · exact short 'b' (by decide) rfl back
  · exact short 'f' (by decide) rfl feed
  · exact short 'n' (by decide) rfl line
  · exact short 'r' (by decide) rfl ret
  · exact short 't' (by decide) rfl tab
  · obtain ⟨h, ha, hb⟩ := hexUnit?_hexChar c.toNat control
    exact .unit h control ha hb
  · exact .plain ⟨quote, slash, control⟩

theorem isWellEscaped_spelling {c : Char} {cs : List Char} (h : Spelling c cs) (rest : List Char) :
    isWellEscaped (cs ++ rest) = isWellEscaped rest := by
  cases h with
  | short he h => simp [isWellEscaped, he, h]
  | unit h => simp [isWellEscaped, h]
  | plain h => simp [isWellEscaped, h.2.1]

theorem unescape?_spelling {c : Char} {cs : List Char} (h : Spelling c cs) (rest : List Char) :
    unescape? (cs ++ rest) = (unescape? rest).bind fun s => some (c :: s) := by
  cases h with
  | short he h => simp [unescape?, he, h]
  | unit h hc =>
    -- A control character is far below the surrogates.
    have hc : c.toNat < 32 := hc
    have low : isLowSurrogate c.toNat = false := by simp [isLowSurrogate]; omega
    have high : isHighSurrogate c.toNat = false := by simp [isHighSurrogate]; omega
    simp [unescape?, h, low, high]
  | plain h => simp [unescape?, h.2.1]

theorem isWellEscaped_escape (cs : List Char) : isWellEscaped (escape cs) = true := by
  induction cs with
  | nil => rfl
  | cons c cs ih => exact (isWellEscaped_spelling (spelling_escapeChar c) _).trans ih

theorem unescape?_escape (cs : List Char) : unescape? (escape cs) = some cs := by
  induction cs with
  | nil => rfl
  | cons c cs ih =>
    have h := unescape?_spelling (spelling_escapeChar c) (escape cs)
    rw [ih] at h
    exact h

/-- A text reads back from its spelling, which is the plain one. -/
theorem QuotedText.read?_escape (s : String) :
    QuotedText.read? (escape s.toList) = some ⟨s, true⟩ := by
  simp [QuotedText.read?, unescape?_escape]

end AutoBattler.Json
