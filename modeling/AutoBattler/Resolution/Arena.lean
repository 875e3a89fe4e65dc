import AutoBattler.Board
import AutoBattler.Config
import AutoBattler.Catalog
import AutoBattler.Event
import AutoBattler.EventLog
import AutoBattler.Queue
import AutoBattler.Random.Draw
import AutoBattler.Shop

/-!
# The state of a resolution

`Arena` is everything that one battle or shop turn changes, `Rules` what it only reads. A
`Resolve` step works on an arena and may fail; what it changed before it failed stays changed.
-/
namespace AutoBattler

open AutoBattler.Random (Generator)

/-- Damage on its way from one pet to a list of targets. -/
structure Attack where
  attacker : PetId
  side : Side
  /-- The pets that are hit, in this order. -/
  targets : List PetId
  /-- The damage to each target before modifiers. -/
  damage : Int
  /-- Set for the exchange of the two foremost pets. -/
  isPrimary : Bool
deriving DecidableEq

structure Rules where
  catalog : Catalog
  config : EngineConfig

structure Arena where
  board : Board
  random : Generator
  /-- Attacks that wait to be played. -/
  queues : Sides (Queue Attack)
  /-- There is a shop in shop turns only. -/
  shop : Option Shop
  log : EventLog
  /-- The number of events that are being told right now, one within the other. -/
  nesting : Nat
  /-- The number of events raised so far. -/
  dispatched : Nat

def Arena.open (config : EngineConfig) (board : Board) (shop : Option Shop) : Arena where
  board := board
  random := .ofSeed config.seed
  queues := ⟨.empty, .empty⟩
  shop := shop
  log := .start config.recordEvents
  nesting := 0
  dispatched := 0

def Resolve (α : Type) : Type := Arena → Except EngineError α × Arena

namespace Resolve

variable {α β : Type}

@[always_inline]
instance : Monad Resolve where
  pure x := fun s => (.ok x, s)
  bind m f := fun s => match m s with
    | (.ok x, s') => f x s'
    | (.error e, s') => (.error e, s')

/-! ## Elementary steps -/

@[inline]
def fail (e : EngineError) : Resolve α := fun s => (.error e, s)

@[inline]
def ofExcept (r : Except EngineError α) : Resolve α := fun s => (r, s)

@[inline]
def look (f : Arena → α) : Resolve α := fun s => (.ok (f s), s)

@[inline]
def change (f : Arena → Arena) : Resolve Unit := fun s => (.ok (), f s)

@[inline]
def draw (f : Generator → α × Generator) : Resolve α := fun s =>
  (.ok (f s.random).1, { s with random := (f s.random).2 })

@[specialize]
def forEach (xs : List α) (body : α → Resolve Unit) : Resolve Unit :=
  match xs with
  | [] => pure ()
  | x :: rest => do
    body x
    forEach rest body

/-! ## The board -/

@[inline]
def board : Resolve Board := look (·.board)

@[inline]
def pet? (id : PetId) : Resolve (Option Pet) := look (·.board.pet? id)

@[inline]
def modifyPet (id : PetId) (f : Pet → Pet) : Resolve Unit :=
  change fun s => { s with board := s.board.modifyPet id f }

def modifyPets (ids : List PetId) (f : Pet → Pet) : Resolve Unit :=
  forEach ids fun id => modifyPet id f

/-- The number of the new pet, if there was room for it. -/
def spawn (side : Side) (pet : Pet) (placement : Placement) : Resolve (Option PetId) := fun s =>
  match s.board.spawn? side pet placement with
  | some (id, b) => (.ok (some id), { s with board := b })
  | none => (.ok none, s)

/-- The number of the pet that stands in the place now, if the old one stood there. -/
def replace (id : PetId) (pet : Pet) : Resolve (Option PetId) := fun s =>
  match s.board.replace? id pet with
  | some (new, b) => (.ok (some new), { s with board := b })
  | none => (.ok none, s)

/-- Whether the pet was taken off its roster. -/
def remove (id : PetId) : Resolve Bool := fun s =>
  match s.board.remove? id with
  | some b => (.ok true, { s with board := b })
  | none => (.ok false, s)

/-! ## Queues, shop and log -/

def enqueue (attack : Attack) : Resolve Unit :=
  change fun s => { s with queues := s.queues.update attack.side (·.push attack) }

def modifyShop (f : Shop → Shop) : Resolve Unit := change fun s => { s with shop := s.shop.map f }

def openRecord (record : EventRecord) : Resolve (Option Nat) := fun s =>
  (.ok (s.log.openRecord record).1, { s with log := (s.log.openRecord record).2 })

def setNotified (slot : Option Nat) (notified : List PetId) : Resolve Unit :=
  match slot with
  | some slot => change fun s => { s with log := s.log.setNotified slot notified }
  | none => pure ()

/-! ## Limits -/

/-- Counts one event against the budget. An event over the budget is counted, too. -/
def countEvent (budget : Nat) : Resolve Unit := fun s =>
  if s.dispatched < budget then (.ok (), { s with dispatched := s.dispatched + 1 })
  else (.error (.eventBudgetExceeded budget), { s with dispatched := s.dispatched + 1 })

/-- Runs a step one level deeper, and comes back up even if it fails. -/
@[inline]
def nested (body : Resolve α) : Resolve α := fun s =>
  match body { s with nesting := s.nesting + 1 } with
  | (r, s') => (r, { s' with nesting := s'.nesting - 1 })

end Resolve

/-- How a step makes an event known. -/
abbrev Raise := Event → Resolve Unit

end AutoBattler
