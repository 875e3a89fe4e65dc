/-!
# Quoted text

How the characters of a text are spelled between quotes. Quotes, backslashes and control characters
are escaped on output and all others stand as they are; on input any character may be escaped.
-/
namespace AutoBattler.Json

/-! ## Output -/

def hexChar (n : Nat) : Char := if n < 10 then Char.ofNat (48 + n) else Char.ofNat (87 + n)

def escapeChar (c : Char) : List Char :=
  if c = '"' then ['\\', '"']
  else if c = '\\' then ['\\', '\\']
  else if c = '\x08' then ['\\', 'b']
  else if c = '\x0c' then ['\\', 'f']
  else if c = '\n' then ['\\', 'n']
  else if c = '\r' then ['\\', 'r']
  else if c = '\t' then ['\\', 't']
  else if c < ' ' then ['\\', 'u', '0', '0', hexChar (c.toNat / 16), hexChar (c.toNat % 16)]
  else [c]

def escape (cs : List Char) : List Char := cs.flatMap escapeChar

def quote (s : String) : List Char := '"' :: escape s.toList ++ ['"']

/-! ## Input -/

def hexDigit? (c : Char) : Option Nat :=
  if c.isDigit then some (c.toNat - '0'.toNat)
  else if 'a' ≤ c ∧ c ≤ 'f' then some (c.toNat - 'a'.toNat + 10)
  else if 'A' ≤ c ∧ c ≤ 'F' then some (c.toNat - 'A'.toNat + 10)
  else none

def hexUnit? (a b c d : Char) : Option Nat := do
  return (((← hexDigit? a) * 16 + (← hexDigit? b)) * 16 + (← hexDigit? c)) * 16 + (← hexDigit? d)

def simpleEscape? (c : Char) : Option Char :=
  if c = '"' ∨ c = '\\' ∨ c = '/' then some c
  else if c = 'b' then some '\x08'
  else if c = 'f' then some '\x0c'
  else if c = 'n' then some '\n'
  else if c = 'r' then some '\r'
  else if c = 't' then some '\t'
  else none

/-- Whether every backslash begins an escape of the grammar. -/
def isWellEscaped : List Char → Bool
  | '\\' :: 'u' :: a :: b :: c :: d :: rest => (hexUnit? a b c d).isSome && isWellEscaped rest
  | '\\' :: c :: rest => (simpleEscape? c).isSome && isWellEscaped rest
  | '\\' :: [] => false
  | _ :: rest => isWellEscaped rest
  | [] => true

def isHighSurrogate (n : Nat) : Bool := 0xd800 ≤ n && n < 0xdc00

def isLowSurrogate (n : Nat) : Bool := 0xdc00 ≤ n && n < 0xe000

/-- The text that well escaped text stands for. A surrogate must be one half of a pair. -/
def unescape? : List Char → Option (List Char)
  | '\\' :: 'u' :: a :: b :: c :: d :: rest => do
    let n ← hexUnit? a b c d
    if isLowSurrogate n then none
    else if isHighSurrogate n then
      match rest with
      | '\\' :: 'u' :: a' :: b' :: c' :: d' :: rest =>
        let m ← hexUnit? a' b' c' d'
        if isLowSurrogate m then
          return Char.ofNat (0x10000 + (n - 0xd800) * 0x400 + (m - 0xdc00)) :: (← unescape? rest)
        else none
      | _ => none
    else return Char.ofNat n :: (← unescape? rest)
  | '\\' :: c :: rest => do return (← simpleEscape? c) :: (← unescape? rest)
  | '\\' :: [] => none
  | c :: rest => do return c :: (← unescape? rest)
  | [] => some []
termination_by structural cs => cs

structure QuotedText where
  text : String
  /-- Whether it is spelled as `quote` spells it, without an escape that it does not need. -/
  plain : Bool

def QuotedText.read? (cs : List Char) : Option QuotedText :=
  (unescape? cs).map fun s => ⟨String.ofList s, escape s == cs⟩

end AutoBattler.Json
