import AutoBattler.Json.Basic

/-!
# Numbers as they are written

A number is taken apart into its digits and its exponent. An integer of 64 bits is kept as such. Any
other number is kept as text, if it lies within the floats of 64 bits.
-/
namespace AutoBattler.Json

def leadingDigits (cs : List Char) : List Char × List Char :=
  (cs.takeWhile Char.isDigit, cs.dropWhile Char.isDigit)

def digitValue (d : Char) : Nat := d.toNat - '0'.toNat

def natOfDigits (ds : List Char) : Nat := ds.foldl (fun n d => 10 * n + digitValue d) 0

/-- A number in parts: sign, digits before and after the point, and the exponent if one stands
there. -/
structure NumberText where
  negative : Bool
  whole : List Char
  fraction : List Char
  exponent : Option Int

def readExponent? : List Char → Option (Option Int)
  | [] => some none
  | e :: cs =>
    if e = 'e' ∨ e = 'E' then
      let (negative, ds) := match cs with
        | '-' :: ds => (true, ds)
        | '+' :: ds => (false, ds)
        | ds => (false, ds)
      if ds ≠ [] ∧ ds.all Char.isDigit then
        some (some (if negative then -(natOfDigits ds : Int) else natOfDigits ds))
      else none
    else none

def NumberText.read? (cs : List Char) : Option NumberText :=
  let (negative, cs) := match cs with
    | '-' :: cs => (true, cs)
    | cs => (false, cs)
  let (whole, cs) := leadingDigits cs
  if whole = [] ∨ (whole.head? = some '0' ∧ whole ≠ ['0']) then none
  else match cs with
    | '.' :: cs =>
      let (fraction, cs) := leadingDigits cs
      if fraction = [] then none
      else (readExponent? cs).map fun exponent => ⟨negative, whole, fraction, exponent⟩
    | cs => (readExponent? cs).map fun exponent => ⟨negative, whole, [], exponent⟩

/-! ## The range of the floats -/

/-- The number with digits appended as long as it fits 64 bits, and the digits that are left. -/
def appendDigits (n : Nat) : List Char → Nat × List Char
  | [] => (n, [])
  | d :: ds =>
    if 10 * n + digitValue d < UInt64.size then appendDigits (10 * n + digitValue d) ds
    else (n, d :: ds)

/-- The digits that 64 bits hold, and the power of ten that they are multiples of. Digits of the
whole part that are left out still count as places. -/
def NumberText.scaled (t : NumberText) : Nat × Int :=
  let (n, wholeLeft) := appendDigits 0 t.whole
  let (n, fractionLeft) := appendDigits n t.fraction
  let places : Int := t.fraction.length - fractionLeft.length
  (n, t.exponent.getD 0 + wholeLeft.length - places)

/-- A number rounded to 53 binary digits, which is what a float has. A tie goes to the even
neighbour. -/
def roundToFloat (n : Nat) : Nat :=
  let unit := 1 <<< (n.log2 - 52)
  let (quotient, rest) := (n / unit, n % unit)
  if unit < 2 * rest ∨ (unit = 2 * rest ∧ quotient % 2 = 1) then (quotient + 1) * unit
  else quotient * unit

/-- The least number that rounds to none of the floats. -/
def floatLimit : Nat := 1 <<< 1024 - 1 <<< 970

/-- Whether the number lies beyond all floats. Its digits and its power of ten are rounded to floats
before they are multiplied, so that near the limit this is not quite the question whether the
number itself rounds to a float. -/
def NumberText.overflows (t : NumberText) : Bool :=
  let (digits, power) := t.scaled
  if digits = 0 ∨ power < 0 then false
  else if 308 < power then true
  else floatLimit ≤ roundToFloat digits * roundToFloat (Nat.pow 10 power.toNat)

/-! ## Values -/

def least : Int := -9223372036854775808

def greatest : Int := 18446744073709551615

def NumberText.value (t : NumberText) (source : List Char) : Json :=
  let magnitude : Int := natOfDigits t.whole
  let n := if t.negative then -magnitude else magnitude
  if t.fraction = [] ∧ t.exponent = none ∧ ¬ (t.negative ∧ n = 0) ∧ least ≤ n ∧ n ≤ greatest then
    .int n
  else if t.overflows then .unreadable
  else .inexact (String.ofList source)

def number? (cs : List Char) : Option Json :=
  (NumberText.read? cs).map fun t => t.value cs

end AutoBattler.Json
