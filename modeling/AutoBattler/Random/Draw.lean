import AutoBattler.Random.Generator

/-!
# Drawing indices

Uniform draws below a bound, one index of a list, and several distinct indices. A draw below a
bound multiplies a word by the bound and keeps the upper half, refusing words whose lower half
lies in the incomplete last interval. Every index drawn is in range whatever the words are.
-/
namespace AutoBattler.Random

namespace Generator

/-- Lower halves up to this one are accepted: the largest multiple of `bound` by a power of two
below `2 ^ 32`, less one. -/
def lastAccepted (bound : Nat) : Nat := bound <<< (31 - bound.log2) - 1

/-- After `attempts` refusals the next word counts as it is. The `rand` library has no such limit: it
refuses words until one is accepted. -/
def belowWithin (bound : Nat) : (attempts : Nat) → Generator → Nat × Generator
  | 0, g => (g.next.1.toNat * bound / UInt32.size, g.next.2)
  | attempts + 1, g =>
    let product := g.next.1.toNat * bound
    if product % UInt32.size ≤ lastAccepted bound then (product / UInt32.size, g.next.2)
    else belowWithin bound attempts g.next.2

/-- A uniform index below `bound`. Fewer than half of all words are refused, so the limit on
refusals is never met in practice. -/
def below (g : Generator) (bound : Nat) : Nat × Generator := belowWithin bound 1000 g

theorem belowWithin_lt {bound : Nat} (h : 0 < bound) (attempts : Nat) (g : Generator) :
    (belowWithin bound attempts g).1 < bound := by
  have product_lt (w : UInt32) : w.toNat * bound / UInt32.size < bound :=
    (Nat.div_lt_iff_lt_mul (by decide)).2
      (by rw [Nat.mul_comm bound]; exact (Nat.mul_lt_mul_right h).2 w.toNat_lt_size)
  induction attempts generalizing g with
  | zero => exact product_lt _
  | succ n ih =>
    simp only [belowWithin]
    split
    · exact product_lt _
    · exact ih _

theorem below_lt (g : Generator) {bound : Nat} (h : 0 < bound) : (g.below bound).1 < bound :=
  belowWithin_lt h _ _

/-- An index of a list of the given length. An empty list costs no word. -/
def index? (g : Generator) (length : Nat) : Option Nat × Generator :=
  if length = 0 then (none, g) else ((some (g.below length).1), (g.below length).2)

/-! ## Several distinct indices -/

def swap (l : List Nat) (i j : Nat) : List Nat :=
  match l[i]?, l[j]? with
  | some x, some y => (l.set i y).set j x
  | _, _ => l

/-- Moves a random element of the part from `i` on to place `i`, for the next `count` places. -/
def shuffleFrom (length : Nat) : (count i : Nat) → List Nat → Generator → List Nat × Generator
  | 0, _, l, g => (l, g)
  | count + 1, i, l, g =>
    let (offset, g) := g.below (length - i)
    shuffleFrom length count (i + 1) (swap l i (i + offset)) g

/-- Shuffles the first `count` places among themselves, the last place first. -/
def shuffleDown : (count : Nat) → List Nat → Generator → List Nat × Generator
  | 0, l, g => (l, g)
  | 1, l, g => (l, g)
  | count + 2, l, g =>
    let (j, g) := g.below (count + 2)
    shuffleDown (count + 1) (swap l (count + 1) j) g

/-- Adds one index below `bound + 1` to distinct indices below `bound`. An index that is there
already makes way for `bound` itself: in its place if `inPlace`, else at the end. -/
def addBelow (inPlace : Bool) (bound : Nat) (chosen : List Nat) (g : Generator) :
    List Nat × Generator :=
  let (t, g) := g.below (bound + 1)
  match chosen.idxOf? t with
  | none => (chosen ++ [t], g)
  | some place => (if inPlace then chosen.insertIdx place bound else chosen ++ [bound], g)

def addRange (inPlace : Bool) : (count bound : Nat) → List Nat → Generator → List Nat × Generator
  | 0, _, chosen, g => (chosen, g)
  | count + 1, bound, chosen, g =>
    let (chosen, g) := addBelow inPlace bound chosen g
    addRange inPlace count (bound + 1) chosen g

/-- Whether `amount` indices out of `length` are many enough to shuffle the whole range. -/
def isDense (length amount : Nat) : Bool :=
  if amount < 163 then amount > 11 && 5 * length < (50 + 8 * amount) * amount
  else length < 270 * amount

/-- `amount` distinct indices below `length`, in random order. The `rand` library weighs its methods
differently from half a million indices on, and 163 or more indices out of at least 270 times as
many it draws one by one, refusing those that it has. Both are left out: here such indices are added
as those of a smaller range are. -/
def sample (g : Generator) (length amount : Nat) : List Nat × Generator :=
  if isDense length amount then
    let (l, g) := shuffleFrom length amount 0 (List.range length) g
    (l.take amount, g)
  else if amount < 50 then addRange true amount (length - amount) [] g
  else
    let (l, g) := addRange false amount (length - amount) [] g
    shuffleDown amount l g

/-- Up to `amount` distinct elements. None costs no word. -/
def pick {α : Type} (g : Generator) (pool : List α) (amount : Nat) : List α × Generator :=
  let amount := min amount pool.length
  if amount = 0 then ([], g)
  else
    let (indices, g) := g.sample pool.length amount
    (indices.filterMap (pool[·]?), g)

end Generator

end AutoBattler.Random
