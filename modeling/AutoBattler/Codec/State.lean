import AutoBattler.Codec.Definition
import AutoBattler.Tournament
import AutoBattler.Shop

/-!
# The form of saved state

Pets, teams, boards, shops, configurations and reports. What is saved is read back as it stands,
stats out of range included. Lists of changes are saved oldest first.
-/
namespace AutoBattler

open Json (Fields asString? asBool? asInt32? asInt64? asNat8? asNat32? asNat64? asList? asFields?
  asPlainFields? asRecord? ofNat ofOption ofList)

namespace PetId

def ofJson? (j : Json) : Option PetId := (asNat64? j).map fun n => ⟨n⟩

def toJson (id : PetId) : Json := ofNat id.number

end PetId

namespace Side

def ofJson? (j : Json) : Option Side := do
  let name ← asString? j
  all.find? (·.name = name)

def toJson (s : Side) : Json := .str s.name

end Side

namespace Sides

variable {α : Type}

def ofJson? (read : Json → Option α) : Json → Option (Sides α)
  | .array [a, b] => do return ⟨← read a, ← read b⟩
  | _ => none

def toJson (write : α → Json) (p : Sides α) : Json := ofList write p.toList

end Sides

/-! ## Pets and teams -/

namespace StatBuff

def ofJson? (j : Json) : Option StatBuff := do
  let fields ← asRecord? j
  return ⟨← fields.required? "attack" asInt32?, ← fields.required? "health" asInt32?⟩

def toJson (b : StatBuff) : Json := .object [("attack", .int b.attack), ("health", .int b.health)]

end StatBuff

namespace BorrowedAbility

def ofJson? (j : Json) : Option BorrowedAbility := do
  let fields ← asRecord? j
  return ⟨← fields.required? "kind" Name.ofJson?, ← fields.required? "level" asNat8?⟩

def toJson (b : BorrowedAbility) : Json :=
  .object [("kind", b.kind.toJson), ("level", ofNat b.level)]

end BorrowedAbility

namespace Pet

def countersOfJson? (j : Json) : Option (Table String Int) := do
  let fields ← asFields? j
  let entries ← fields.mapM fun field => (asInt64? field.2).map fun n => (field.1, n)
  return .ofList entries

def countersToJson (t : Table String Int) : Json :=
  .object (t.toList.map fun e => (e.1, .int e.2))

def ofJson? (j : Json) : Option Pet := do
  let fields ← asRecord? j
  return {
    kind := ← fields.required? "kind" Name.ofJson?
    tier := ← fields.required? "tier" asNat8?
    attack := ← fields.required? "attack" asInt32?
    health := ← fields.required? "health" asInt32?
    level := ← fields.required? "level" asNat8?
    experience := ← fields.required? "experience" asNat32?
    status := ← fields.optional? "status" Name.ofJson?
    borrowed := ← fields.optional? "borrowed_ability" BorrowedAbility.ofJson?
    activeBuffs := (← fields.withDefault? "active_buffs" [] (asList? StatBuff.ofJson?)).reverse
    counters := ← fields.withDefault? "transient_state" .empty countersOfJson? }

def toJson (p : Pet) : Json :=
  .object [("kind", p.kind.toJson), ("tier", ofNat p.tier), ("attack", .int p.attack),
    ("health", .int p.health), ("level", ofNat p.level), ("experience", ofNat p.experience),
    ("status", ofOption Name.toJson p.status),
    ("borrowed_ability", ofOption BorrowedAbility.toJson p.borrowed),
    ("active_buffs", ofList StatBuff.toJson p.activeBuffs.reverse),
    ("transient_state", countersToJson p.counters)]

end Pet

namespace Team

def ofJson? (j : Json) : Option Team := do
  let fields ← asRecord? j
  return ⟨← fields.required? "pets" (asList? Pet.ofJson?),
    ← fields.withDefault? "shop_buffs" [] (asList? StatBuff.ofJson?)⟩

def toJson (t : Team) : Json :=
  .object [("pets", ofList Pet.toJson t.pets), ("shop_buffs", ofList StatBuff.toJson t.shopBuffs)]

end Team

namespace Shop

def ofJson? (j : Json) : Option Shop := do
  let fields ← asRecord? j
  return ⟨← fields.required? "gold" asInt32?, ← fields.required? "pets" (asList? Pet.ofJson?),
    (← fields.required? "future_buffs" (asList? StatBuff.ofJson?)).reverse⟩

def toJson (s : Shop) : Json :=
  .object [("gold", .int s.gold), ("pets", ofList Pet.toJson s.pets),
    ("future_buffs", ofList StatBuff.toJson s.futureBuffs.reverse)]

end Shop

/-! ## Boards -/

namespace Line

def ofJson? (j : Json) : Option Line := (asList? PetId.ofJson? j).map ofList

def toJson (l : Line) : Json := Json.ofList PetId.toJson l.ids

end Line

namespace Entrant

def ofJson? (j : Json) : Option Entrant := do
  let fields ← asRecord? j
  return ⟨← fields.required? "id" PetId.ofJson?, ← fields.required? "side" Side.ofJson?,
    ← fields.required? "pet" Pet.ofJson?⟩

def toJson (e : Entrant) : Json :=
  .object [("id", e.id.toJson), ("side", e.side.toJson), ("pet", e.pet.toJson)]

end Entrant

namespace Board

/-- A number as the name of a field: decimal digits without a leading zero. -/
def idOfName? (name : String) : Option PetId :=
  match Json.NumberText.read? name.toList with
  | some text => PetId.ofJson? (text.value name.toList)
  | none => none

def entrantsOfJson? (j : Json) : Option (Table PetId Entrant) := do
  let fields ← asPlainFields? j
  let entries ← fields.mapM fun field => do
    return (← idOfName? field.1, ← Entrant.ofJson? field.2)
  return .ofList entries

def entrantsToJson (t : Table PetId Entrant) : Json :=
  .object (t.toList.map fun e => (toString e.1.number, e.2.toJson))

def ofJson? (j : Json) : Option Board := do
  let fields ← asRecord? j
  return ⟨← fields.required? "next_id" asNat64?, ← fields.required? "pets" entrantsOfJson?,
    ← fields.required? "rosters" (Sides.ofJson? Line.ofJson?)⟩

def toJson (b : Board) : Json :=
  .object [("next_id", ofNat b.nextId), ("pets", entrantsToJson b.entrants),
    ("rosters", b.rosters.toJson Line.toJson)]

end Board

/-! ## Configurations, events and attacks -/

namespace EngineConfig

def ofJson? (j : Json) : Option EngineConfig := do
  let fields ← asRecord? j
  let preset : EngineConfig := {}
  return {
    seed := ← fields.withDefault? "seed" preset.seed asNat64?
    maxDispatchDepth :=
      ← fields.withDefault? "max_dispatch_depth" preset.maxDispatchDepth asNat64?
    maxEvents := ← fields.withDefault? "max_events" preset.maxEvents asNat64?
    maxRounds := ← fields.withDefault? "max_rounds" preset.maxRounds asNat32?
    recordEvents := ← fields.withDefault? "record_events" preset.recordEvents asBool? }

def toJson (c : EngineConfig) : Json :=
  .object [("seed", ofNat c.seed), ("max_dispatch_depth", ofNat c.maxDispatchDepth),
    ("max_events", ofNat c.maxEvents), ("max_rounds", ofNat c.maxRounds),
    ("record_events", .bool c.recordEvents)]

end EngineConfig

namespace EventRecord

def ofJson? (j : Json) : Option EventRecord := do
  let fields ← asRecord? j
  return {
    trigger := ← fields.required? "trigger" Trigger.ofJson?
    side := ← fields.required? "side" Side.ofJson?
    source := ← fields.optional? "source" PetId.ofJson?
    notified := ← fields.required? "notified" (asList? PetId.ofJson?)
    depth := ← fields.required? "depth" asNat64? }

def toJson (r : EventRecord) : Json :=
  .object [("trigger", r.trigger.toJson), ("side", r.side.toJson),
    ("source", ofOption PetId.toJson r.source), ("notified", ofList PetId.toJson r.notified),
    ("depth", ofNat r.depth)]

end EventRecord

namespace Attack

def ofJson? (j : Json) : Option Attack := do
  let fields ← asRecord? j
  return {
    attacker := ← fields.required? "attacker" PetId.ofJson?
    side := ← fields.required? "side" Side.ofJson?
    targets := ← fields.required? "targets" (asList? PetId.ofJson?)
    damage := ← fields.required? "damage" asInt32?
    isPrimary := ← fields.required? "is_primary" asBool? }

def toJson (a : Attack) : Json :=
  .object [("attacker", a.attacker.toJson), ("side", a.side.toJson),
    ("targets", ofList PetId.toJson a.targets), ("damage", .int a.damage),
    ("is_primary", .bool a.isPrimary)]

end Attack

/-! ## Battles and tournaments -/

namespace BattleOutcome

def name : BattleOutcome → String
  | teamOneWins => "Team1Win"
  | teamTwoWins => "Team2Win"
  | draw => "Draw"

def ofJson? (j : Json) : Option BattleOutcome := do
  let name ← asString? j
  [teamOneWins, teamTwoWins, draw].find? (·.name = name)

def toJson (o : BattleOutcome) : Json := .str o.name

end BattleOutcome

namespace BattleState

def ofJson? : Json → Option BattleState
  | .str "NotStarted" => some notStarted
  | .str "Running" => some running
  | .object [("Finished", j)] _ => (BattleOutcome.ofJson? j).map finished
  | _ => none

def toJson : BattleState → Json
  | notStarted => .str "NotStarted"
  | running => .str "Running"
  | finished outcome => .object [("Finished", outcome.toJson)]

end BattleState

namespace BattleReport

def ofJson? (j : Json) : Option BattleReport := do
  let fields ← asRecord? j
  return {
    outcome := ← fields.required? "outcome" BattleOutcome.ofJson?
    rounds := ← fields.required? "rounds" asNat32?
    survivors := ← fields.required? "survivors" (Sides.ofJson? (asList? Pet.ofJson?))
    events := ← fields.required? "events" (asList? EventRecord.ofJson?) }

def toJson (r : BattleReport) : Json :=
  .object [("outcome", r.outcome.toJson), ("rounds", ofNat r.rounds),
    ("survivors", r.survivors.toJson (ofList Pet.toJson)),
    ("events", ofList EventRecord.toJson r.events)]

end BattleReport

namespace Standing

def ofJson? (j : Json) : Option Standing := do
  let fields ← asRecord? j
  return {
    team := ← fields.required? "team" asNat64?
    wins := ← fields.required? "wins" asNat32?
    draws := ← fields.required? "draws" asNat32?
    losses := ← fields.required? "losses" asNat32? }

def toJson (s : Standing) : Json :=
  .object [("team", ofNat s.team), ("wins", ofNat s.wins), ("draws", ofNat s.draws),
    ("losses", ofNat s.losses)]

end Standing

namespace Pairing

def ofJson? (j : Json) : Option Pairing := do
  let fields ← asRecord? j
  return {
    first := ← fields.required? "first" asNat64?
    second := ← fields.required? "second" asNat64?
    outcome := ← fields.required? "outcome" BattleOutcome.ofJson?
    rounds := ← fields.required? "rounds" asNat32? }

def toJson (p : Pairing) : Json :=
  .object [("first", ofNat p.first), ("second", ofNat p.second), ("outcome", p.outcome.toJson),
    ("rounds", ofNat p.rounds)]

end Pairing

end AutoBattler
