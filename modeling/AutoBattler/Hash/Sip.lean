/-!
# Keyed hashing of words

SipHash with one mixing round per word and three closing rounds, over 64-bit words only and with
the key zero.
-/
namespace AutoBattler.Hash

structure SipState where
  v0 : UInt64
  v1 : UInt64
  v2 : UInt64
  v3 : UInt64
deriving DecidableEq

namespace SipState

def turnLeft (x : UInt64) (n : UInt64) : UInt64 := (x <<< n) ||| (x >>> (64 - n))

/-- The constants that a zero key leaves unchanged. -/
def start : SipState :=
  ⟨0x736f6d6570736575, 0x646f72616e646f6d, 0x6c7967656e657261, 0x7465646279746573⟩

def round (s : SipState) : SipState :=
  let v0 := s.v0 + s.v1
  let v1 := turnLeft s.v1 13 ^^^ v0
  let v0 := turnLeft v0 32
  let v2 := s.v2 + s.v3
  let v3 := turnLeft s.v3 16 ^^^ v2
  let v0 := v0 + v3
  let v3 := turnLeft v3 21 ^^^ v0
  let v2 := v2 + v1
  let v1 := turnLeft v1 17 ^^^ v2
  let v2 := turnLeft v2 32
  ⟨v0, v1, v2, v3⟩

def absorb (s : SipState) (word : UInt64) : SipState :=
  let t := round { s with v3 := s.v3 ^^^ word }
  { t with v0 := t.v0 ^^^ word }

def close (s : SipState) : UInt64 :=
  let t := round (round (round { s with v2 := s.v2 ^^^ 0xff }))
  t.v0 ^^^ t.v1 ^^^ t.v2 ^^^ t.v3

end SipState

/-- The last word absorbed carries the number of bytes in its top byte. -/
def sip (words : List UInt64) : UInt64 :=
  ((words.foldl SipState.absorb .start).absorb (UInt64.ofNat (8 * words.length) <<< 56)).close

end AutoBattler.Hash
