import AutoBattler.Resolution.Dispatch

/-!
# Attack cycles

The exchange of the foremost pets and the queued attacks that follow. Attacks come to wait only
when an event is raised, and events are counted against a budget. So a pass over the queues that
raises no event empties them, and the budget bounds the number of passes.
-/
namespace AutoBattler

namespace Resolve

/-! ## Draining the queues -/

def foremost (queues : Sides (Queue Attack)) : List Attack :=
  queues.a.head?.toList ++ queues.b.head?.toList

def withoutForemost (queues : Sides (Queue Attack)) : Sides (Queue Attack) :=
  queues.map Queue.tail

def waiting (queues : Sides (Queue Attack)) : Nat := queues.a.length + queues.b.length

/-- Plays the foremost queued attack of each side. -/
def playForemost (rules : Rules) (raise : Raise) : Resolve Unit := fun s =>
  playAttacks rules raise (foremost s.queues) { s with queues := withoutForemost s.queues }

/-- Plays the foremost attacks so many times. -/
def playForemostTimes (rules : Rules) : Nat → Resolve Unit
  | 0 => pure ()
  | n + 1 => do
    playForemost rules (dispatch rules)
    playForemostTimes rules n

/-- Plays what waits, then what came to wait meanwhile, and so on in so many passes. -/
def drainWithin (rules : Rules) : (passes : Nat) → Resolve Unit
  | 0 => pure ()
  | passes + 1 => do
    let n ← look fun s => waiting s.queues
    if n = 0 then pure ()
    else do
      playForemostTimes rules n
      drainWithin rules passes

/-- Plays the foremost queued attack of each side until none is left. -/
def drainQueues (rules : Rules) : Resolve Unit := do
  let spent ← look (·.dispatched)
  drainWithin rules (rules.config.maxEvents - spent + 1)

/-! ## The exchange -/

/-- The procedures that the calls of a battle and of a shop turn start from. -/
structure Procedures where
  tell : Raise
  act : Act
  drain : Resolve Unit

def procedures (rules : Rules) : Procedures where
  tell := dispatch rules
  act := perform rules (dispatch rules)
  drain := drainQueues rules

/-- The foremost pet of a side attacks the foremost of the other. -/
def primaryAttack? (b : Board) (side : Side) : Option Attack := do
  let attacker ← b.front? side
  let target ← b.front? side.opponent
  let pet ← b.pet? attacker
  return ⟨attacker, side, [target], pet.attack, true⟩

def attackCycle (rules : Rules) (p : Procedures) : Resolve Unit := do
  let b ← board
  playAttacks rules p.tell (Side.all.filterMap (primaryAttack? b))
  p.drain

end Resolve

end AutoBattler
