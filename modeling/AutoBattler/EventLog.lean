import AutoBattler.Identifier
import AutoBattler.Side
import AutoBattler.Trigger

/-!
# The event log

A record for every event, opened when the event is raised and completed with the pets it reached.
Nested events therefore stand after the event that led to them. The log has no influence on what
happens.
-/
namespace AutoBattler

structure EventRecord where
  trigger : Trigger
  side : Side
  source : Option PetId
  notified : List PetId
  depth : Nat
deriving DecidableEq

structure EventLog where
  enabled : Bool
  records : Array EventRecord
deriving DecidableEq

namespace EventLog

def start (enabled : Bool) : EventLog := ⟨enabled, #[]⟩

/-- Appends a record and gives its place. A log that is off keeps nothing. -/
def openRecord (log : EventLog) (record : EventRecord) : Option Nat × EventLog :=
  if log.enabled then
    (some log.records.size, { log with records := log.records.push record })
  else (none, log)

def setNotified (log : EventLog) (slot : Nat) (notified : List PetId) : EventLog :=
  { log with records := log.records.modify slot fun r => { r with notified := notified } }

def clear (log : EventLog) : EventLog := { log with records := #[] }

end EventLog

end AutoBattler
