import AutoBattler.Definition
import AutoBattler.Table
import AutoBattler.Width

/-!
# Pets

One creature with its stats. Stats set through these operations lie between zero and fifty; a pet
that is read from a file is taken as it stands. Experience raises the level at fixed thresholds.
-/
namespace AutoBattler

def maxAttack : Int := 50

def maxHealth : Int := 50

def maxLevel : Nat := 3

/-- The level that an amount of experience is worth. -/
def levelForExperience (experience : Nat) : Nat :=
  if 5 ≤ experience then 3 else if 2 ≤ experience then 2 else 1

/-- The least experience of a level. -/
def experienceForLevel : Nat → Nat
  | 2 => 2
  | 3 => 5
  | _ => 0

def clampLevel (level : Nat) : Nat := max 1 (min level maxLevel)

/-- A change of attack and health. -/
structure StatBuff where
  attack : Int
  health : Int
deriving DecidableEq

/-- The ability of another kind, used until the next battle ends. -/
structure BorrowedAbility where
  kind : PetKindId
  level : Nat
deriving DecidableEq

structure Pet where
  kind : PetKindId
  tier : Nat
  attack : Int
  health : Int
  level : Nat
  experience : Nat
  status : Option StatusId
  borrowed : Option BorrowedAbility
  /-- Changes that the end of the battle takes back, newest first. -/
  activeBuffs : List StatBuff
  /-- Counters that the end of the battle clears. -/
  counters : Table String Int
deriving DecidableEq

namespace Pet

def clampAttack (x : Int) : Int := max 0 (min x maxAttack)

def clampHealth (x : Int) : Int := max 0 (min x maxHealth)

/-- A pet of level one with the base stats of its kind. -/
def ofKind (kind : PetKind) : Pet where
  kind := kind.id
  tier := kind.tier
  attack := clampAttack kind.baseAttack
  health := clampHealth kind.baseHealth
  level := 1
  experience := 0
  status := none
  borrowed := none
  activeBuffs := []
  counters := .empty

def setAttack (x : Int) (p : Pet) : Pet := { p with attack := clampAttack x }

def setHealth (x : Int) (p : Pet) : Pet := { p with health := clampHealth x }

def setStatus (status : Option StatusId) (p : Pet) : Pet := { p with status := status }

/-- Sets the level together with its least experience. -/
def withLevel (level : Nat) (p : Pet) : Pet :=
  { p with level := clampLevel level, experience := experienceForLevel (clampLevel level) }

def isAlive (p : Pet) : Bool := 0 < p.health

def abilityKind (p : Pet) : PetKindId :=
  match p.borrowed with
  | some borrowed => borrowed.kind
  | none => p.kind

def abilityLevel (p : Pet) : Nat :=
  match p.borrowed with
  | some borrowed => borrowed.level
  | none => p.level

def borrow (kind : PetKindId) (level : Nat) (p : Pet) : Pet :=
  { p with borrowed := some ⟨kind, clampLevel level⟩ }

/-- A negative amount does no damage. -/
def takeDamage (amount : Int) (p : Pet) : Pet :=
  p.setHealth (int32 (p.health - max (int32 amount) 0))

/-- The health that the pet loses to the damage. -/
def healthLost (amount : Int) (p : Pet) : Int := int32 (p.health - (p.takeDamage amount).health)

/-- What a change of the stats amounts to after clamping. -/
def applied (attack health : Int) (p : Pet) : StatBuff :=
  ⟨int32 (clampAttack (int32 (p.attack + attack)) - p.attack),
    int32 (clampHealth (int32 (p.health + health)) - p.health)⟩

/-- Changes attack and health. A temporary change is noted as far as it took effect. -/
def buff (attack health : Int) (temporary : Bool) (p : Pet) : Pet :=
  { p with
    attack := clampAttack (int32 (p.attack + attack))
    health := clampHealth (int32 (p.health + health))
    activeBuffs := if temporary then p.applied attack health :: p.activeBuffs else p.activeBuffs }

/-! ## Experience -/

/-- One point of experience with its permanent gain. The level stays as it is. -/
def gainPoint (p : Pet) : Pet :=
  if maxLevel ≤ p.level then p
  else { p with experience := nat32 (p.experience + 1) }.buff 1 1 false

/-- The level that a pet below the highest has earned and not yet been given. -/
def earnedLevel? (p : Pet) : Option Nat :=
  if p.level < levelForExperience p.experience then some (levelForExperience p.experience) else none

def promote (level : Nat) (p : Pet) : Pet := { p with level := clampLevel level }

/-- Gives up to `amount` points and as many levels, and stops at the highest level. Returns the
points used. -/
def addExperience : (amount : Nat) → Pet → Nat × Pet
  | 0, p => (0, p)
  | amount + 1, p =>
    if maxLevel ≤ p.level then (0, p)
    else
      let p := p.gainPoint
      let p := match p.earnedLevel? with
        | some level => p.promote level
        | none => p
      let (used, p) := addExperience amount p
      (used + 1, p)

/-! ## Counters and the end of a battle -/

def counter (key : String) (p : Pet) : Int := p.counters[key]?.getD 0

def bump (key : String) (p : Pet) : Pet :=
  { p with counters := p.counters.insert key (p.counter key + 1) }

def revert (b : StatBuff) (p : Pet) : Pet :=
  (p.setAttack (int32 (p.attack - b.attack))).setHealth (int32 (p.health - b.health))

/-- Takes temporary changes back, the newest first, and forgets counters and borrowed abilities. -/
def endOfBattle (p : Pet) : Pet :=
  { p.activeBuffs.foldl (fun p b => p.revert b) p with
    activeBuffs := []
    counters := .empty
    borrowed := none }

/-- The copy that fights. It takes no notes of temporary changes and no counters along. -/
def battleCopy (p : Pet) : Pet := { p with activeBuffs := [], counters := .empty }

/-- Kind, level and stats, as in `pet-ant L1 2/1`. -/
def describe (p : Pet) : String := s!"{p.kind.text} L{p.level} {p.attack}/{p.health}"

def describeAll (pets : List Pet) : String := ", ".intercalate (pets.map describe)

end Pet

end AutoBattler
