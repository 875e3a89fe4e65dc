import AutoBattler.Json.Number
import AutoBattler.Json.Quoted

/-!
# JSON tokens

Cutting a text into tokens, one character at a time. Quoted text is cut first and its escapes are
read afterwards; a number or a word ends before the first character that cannot belong to it.
-/
namespace AutoBattler.Json

inductive Token where
  | beginArray
  | endArray
  | beginObject
  | endObject
  | colon
  | comma
  /-- Quoted text, or `none` if it names half a surrogate pair. -/
  | text (t : Option QuotedText)
  | atom (value : Json)

/-! ## Words and quoted text -/

def word? (cs : List Char) : Option Token :=
  if cs = ['n', 'u', 'l', 'l'] then some (.atom .null)
  else if cs = ['t', 'r', 'u', 'e'] then some (.atom (.bool true))
  else if cs = ['f', 'a', 'l', 's', 'e'] then some (.atom (.bool false))
  else none

def text? (cs : List Char) : Option Token :=
  if isWellEscaped cs then some (.text (QuotedText.read? cs)) else none

/-! ## The scanner -/

/-- What is being read, with the characters of the unfinished token newest first. -/
inductive Scan where
  | between
  | number (read : List Char)
  | word (read : List Char)
  | quoted (read : List Char)
  | escape (read : List Char)

/-- Tokens are kept newest first. -/
structure Scanner where
  tokens : List Token
  scan : Scan

namespace Scanner

def start : Scanner := ⟨[], .between⟩

def isBlank (c : Char) : Bool := c = ' ' || c = '\n' || c = '\r' || c = '\t'

def punctuation? (c : Char) : Option Token :=
  if c = '[' then some .beginArray
  else if c = ']' then some .endArray
  else if c = '\x7b' then some .beginObject
  else if c = '\x7d' then some .endObject
  else if c = ':' then some .colon
  else if c = ',' then some .comma
  else none

def continuesNumber (c : Char) : Bool :=
  c.isDigit || c = '.' || c = 'e' || c = 'E' || c = '+' || c = '-'

def fresh? (tokens : List Token) (c : Char) : Option Scanner :=
  if isBlank c then some ⟨tokens, .between⟩
  else if c = '"' then some ⟨tokens, .quoted []⟩
  else if c.isDigit || c = '-' then some ⟨tokens, .number [c]⟩
  else if c.isLower then some ⟨tokens, .word [c]⟩
  else (punctuation? c).map fun t => ⟨t :: tokens, .between⟩

def step? (s : Scanner) (c : Char) : Option Scanner :=
  match s.scan with
  | .between => fresh? s.tokens c
  | .number read =>
    if continuesNumber c then some ⟨s.tokens, .number (c :: read)⟩
    else (number? read.reverse).bind fun v => fresh? (.atom v :: s.tokens) c
  | .word read =>
    if c.isLower then some ⟨s.tokens, .word (c :: read)⟩
    else (word? read.reverse).bind fun t => fresh? (t :: s.tokens) c
  | .quoted read =>
    if c = '"' then (text? read.reverse).map fun t => ⟨t :: s.tokens, .between⟩
    else if c < ' ' then none
    else if c = '\\' then some ⟨s.tokens, .escape (c :: read)⟩
    else some ⟨s.tokens, .quoted (c :: read)⟩
  | .escape read => some ⟨s.tokens, .quoted (c :: read)⟩

def finish? (s : Scanner) : Option (List Token) :=
  match s.scan with
  | .between => some s.tokens.reverse
  | .number read => (number? read.reverse).map fun v => (.atom v :: s.tokens).reverse
  | .word read => (word? read.reverse).map fun t => (t :: s.tokens).reverse
  | .quoted _ => none
  | .escape _ => none

end Scanner

def tokens? (text : List Char) : Option (List Token) :=
  (text.foldlM Scanner.step? .start).bind Scanner.finish?

end AutoBattler.Json
