import AutoBattler.Line
import AutoBattler.Side
import AutoBattler.Team

/-!
# The board

All pets of one resolution and the two rosters of those still in line, each from the back to the
front. A pet that leaves its roster stays stored, so that events under way can still read it.
-/
namespace AutoBattler

/-- A stored pet with its number and the side it fights on. -/
structure Entrant where
  id : PetId
  side : Side
  pet : Pet
deriving DecidableEq

/-- Where a new pet joins a roster. -/
inductive Placement where
  /-- The end of the roster, which attacks next. -/
  | front
  | back
  /-- An index, or the front if the roster is shorter. -/
  | at (index : Nat)
deriving DecidableEq

/-- The index at which a pet is to enter a roster of the given length. -/
def Placement.index (length : Nat) : Placement → Nat
  | .front => length
  | .back => 0
  | .at index => index

structure Board where
  nextId : Nat
  entrants : Table PetId Entrant
  rosters : Sides Line
deriving DecidableEq

namespace Board

def empty : Board := ⟨0, .empty, ⟨.empty, .empty⟩⟩

/-! ## Reading -/

def entrant? (b : Board) (id : PetId) : Option Entrant := b.entrants[id]?

def pet? (b : Board) (id : PetId) : Option Pet := (b.entrant? id).map (·.pet)

def sideOf? (b : Board) (id : PetId) : Option Side := (b.entrant? id).map (·.side)

def roster (b : Board) (side : Side) : List PetId := (b.rosters.get side).ids

/-- The pet at the front of the line. -/
def front? (b : Board) (side : Side) : Option PetId := (b.roster side).getLast?

/-- The place of a pet on the roster of its side. -/
def position? (b : Board) (id : PetId) : Option Nat :=
  (b.sideOf? id).bind fun side => (b.roster side).idxOf? id

def isInLine (b : Board) (side : Side) (id : PetId) : Bool := (b.rosters.get side).contains id

/-- Whether the pet stands on its roster. -/
def isAlive (b : Board) (id : PetId) : Bool := (b.sideOf? id).any (b.isInLine · id)

/-- The rosters of both sides. -/
def lines (b : Board) : Sides (List PetId) := b.rosters.map Line.ids

def livePets (b : Board) (side : Side) : List Pet := (b.roster side).filterMap b.pet?

def canAdd (b : Board) (side : Side) : Bool :=
  ((b.livePets side).filter Pet.isAlive).length < teamSize

/-- The number of pets ever placed. -/
def size (b : Board) : Nat := b.entrants.size

theorem isAlive_iff (b : Board) (id : PetId) :
    b.isAlive id = true ↔ ∃ side, b.sideOf? id = some side ∧ id ∈ b.roster side := by
  unfold isAlive
  cases b.sideOf? id with
  | none => simp
  | some side => simp [roster, isInLine]

/-- A pet has a place exactly if it stands on its roster. -/
theorem isSome_position? (b : Board) (id : PetId) : (b.position? id).isSome = b.isAlive id := by
  rw [Bool.eq_iff_iff, isAlive_iff]
  unfold position?
  cases b.sideOf? id with
  | none => simp
  | some side => simp [List.isSome_idxOf?]

/-! ## Changing -/

def modifyPet (b : Board) (id : PetId) (f : Pet → Pet) : Board :=
  { b with entrants := b.entrants.modify id fun e => { e with pet := f e.pet } }

def modifyRoster (b : Board) (side : Side) (f : Line → Line) : Board :=
  { b with rosters := b.rosters.update side f }

/-- Stores a pet under a new number, on no roster yet. -/
def store (b : Board) (side : Side) (pet : Pet) : PetId × Board :=
  let id : PetId := ⟨b.nextId⟩
  (id, { b with nextId := b.nextId + 1, entrants := b.entrants.insert id ⟨id, side, pet⟩ })

/-- Adds a pet, unless as many live pets as fit are on the roster. -/
def spawn? (b : Board) (side : Side) (pet : Pet) (placement : Placement) :
    Option (PetId × Board) :=
  if b.canAdd side then
    let (id, b) := b.store side pet
    some (id, b.modifyRoster side fun line => line.insertIdx (placement.index line.length) id)
  else none

/-- Puts a new pet in the place of one that stands on its roster. -/
def replace? (b : Board) (id : PetId) (pet : Pet) : Option (PetId × Board) := do
  let side ← b.sideOf? id
  let index ← b.position? id
  let (new, b) := b.store side pet
  return (new, b.modifyRoster side fun line => line.set index new)

/-- Takes a pet off its roster, if it stands there. -/
def remove? (b : Board) (id : PetId) : Option Board := do
  let side ← b.sideOf? id
  let index ← b.position? id
  return b.modifyRoster side fun line => line.eraseIdx index

/-! ## Boards of teams -/

/-- Adds pets at the front, one after the other. -/
def enlist (b : Board) (side : Side) (pets : List Pet) : Board :=
  pets.foldl (fun b pet => ((b.spawn? side pet .front).map (·.2)).getD b) b

/-- The board of a battle, with copies of both teams. -/
def ofTeams (teams : Sides Team) : Board :=
  (empty.enlist .a (teams.a.pets.map Pet.battleCopy)).enlist .b (teams.b.pets.map Pet.battleCopy)

/-- The board of a shop turn: the team itself on side `a`. -/
def ofTeam (team : Team) : Board := empty.enlist .a team.pets

def describe (b : Board) : String :=
  " | ".intercalate (Side.all.map fun side =>
    s!"{side.name} [{Pet.describeAll (b.livePets side)}]")

end Board

end AutoBattler
