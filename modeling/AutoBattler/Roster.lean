import AutoBattler.Catalog
import AutoBattler.Codec.Definition
import AutoBattler.Team

/-!
# Rosters

Named teams as they stand in a roster file, and the teams they describe. Building a team fails at
the first pet whose kind or status the catalog does not have.
-/
namespace AutoBattler

open Json (asString? asInt32? asNat8? asList? asRecord?)

structure RosterPet where
  kind : PetKindId
  level : Option Nat
  attack : Option Int
  health : Option Int
  status : Option StatusId
deriving DecidableEq

/-- The pets stand from the back of the line to the front. -/
structure Roster where
  name : String
  pets : List RosterPet
deriving DecidableEq

/-- What went wrong, with the error behind it. -/
structure Failure where
  context : String
  cause : Option String
deriving DecidableEq

namespace RosterPet

def ofJson? (j : Json) : Option RosterPet := do
  let fields ← asRecord? j
  return {
    kind := ← fields.required? "kind" Name.ofJson?
    level := ← fields.optional? "level" asNat8?
    attack := ← fields.optional? "attack" asInt32?
    health := ← fields.optional? "health" asInt32?
    status := ← fields.optional? "status" Name.ofJson? }

def build (c : Catalog) (rosterName : String) (p : RosterPet) : Except Failure Pet := do
  let unknown (what : String) (e : EngineError) : Failure :=
    ⟨s!"Roster '{rosterName}' uses an unknown {what}", some e.message⟩
  let kind ← (c.petKind p.kind).mapError (unknown "pet")
  let pet := (Pet.ofKind kind).withLevel (p.level.getD 1)
  let pet := match p.attack with
    | some attack => pet.setAttack attack
    | none => pet
  let pet := match p.health with
    | some health => pet.setHealth health
    | none => pet
  match p.status with
  | none => return pet
  | some status =>
    let _ ← (c.status status).mapError (unknown "status")
    return pet.setStatus (some status)

end RosterPet

namespace Roster

def ofJson? (j : Json) : Option Roster := do
  let fields ← asRecord? j
  return ⟨← fields.required? "name" asString?, ← fields.required? "pets" (asList? RosterPet.ofJson?)⟩

def ofText? (text : String) : Option (List Roster) :=
  (Json.parse? Json.nestingLimit text).bind (asList? ofJson?)

def build (c : Catalog) (r : Roster) : Except Failure Team := do
  let pets ← r.pets.mapM (RosterPet.build c r.name)
  return Team.ofPets pets

def find (rosters : List Roster) (name : String) : Except Failure Roster :=
  match rosters.find? (·.name = name) with
  | some roster => .ok roster
  | none => .error ⟨s!"No roster named '{name}'", none⟩

end Roster

end AutoBattler
