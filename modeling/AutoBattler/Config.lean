/-!
# Configuration

The seed of a resolution and the limits that bound it.
-/
namespace AutoBattler

structure EngineConfig where
  seed : Nat := 0
  /-- How deep events may nest. -/
  maxDispatchDepth : Nat := 64
  /-- How many events one resolution may raise. -/
  maxEvents : Nat := 50000
  /-- After this many attack cycles a battle is a draw. -/
  maxRounds : Nat := 200
  recordEvents : Bool := false
deriving DecidableEq

end AutoBattler
