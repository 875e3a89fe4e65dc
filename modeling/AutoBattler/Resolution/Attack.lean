import AutoBattler.Resolution.Arena

/-!
# Attacks

Playing at most one attack of each side at the same time. The hits of a round are computed and
applied before anything answers them, so two pets can make each other faint. What follows from
the hits sees the lines as they stood before the first hit.
-/
namespace AutoBattler

namespace Resolve

/-! ## The damage of a hit -/

/-- A change of damage by a status. Without a number it is absolute. -/
structure DamageModifier where
  amount : Option Int
  /-- Whether the status is used up. -/
  once : Bool
deriving DecidableEq

/-- The modifier that the status of a pet has for a trigger. -/
def damageModifier (rules : Rules) (id : PetId) (trigger : Trigger) :
    Resolve (Option DamageModifier) := do
  match ← pet? id with
  | none => pure none
  | some pet =>
    match ← ofExcept (rules.catalog.statusAbility pet) with
    | none => pure none
    | some ability =>
      if ability.trigger = trigger then
        match ability.effect with
        | .modifyDamage amount once => pure (some ⟨amount, once⟩)
        | _ => pure none
      else pure none

/-- Damage while modifiers are worked in. Lethal damage takes all health, whatever the number. -/
structure Impact where
  damage : Int
  lethal : Bool
deriving DecidableEq

namespace Impact

/-- The attacker adds to the damage or makes it lethal. -/
def strengthen (i : Impact) (m : DamageModifier) : Impact :=
  match m.amount with
  | some bonus => { i with damage := int32 (i.damage + bonus) }
  | none => { i with lethal := true }

/-- The target takes some damage off. An absolute modifier blocks the hit, and any modifier blocks
a lethal one. -/
def weaken (i : Impact) (m : DamageModifier) : Impact :=
  match m.amount with
  | some reduction => if i.lethal then ⟨0, false⟩ else { i with damage := int32 (i.damage - reduction) }
  | none => ⟨0, false⟩

def total (i : Impact) : Int := max 0 (if i.lethal then max i.damage maxHealth else i.damage)

end Impact

/-- Works in the modifier of a pet, if it has one, and takes away a status that is used up. -/
def applyModifier (rules : Rules) (id : PetId) (trigger : Trigger)
    (work : Impact → DamageModifier → Impact) (i : Impact) : Resolve Impact := do
  match ← damageModifier rules id trigger with
  | none => pure i
  | some m =>
    if m.once then modifyPet id (Pet.setStatus none)
    pure (work i m)

def damageFor (rules : Rules) (attack : Attack) (target : PetId) : Resolve Int := do
  let i : Impact := ⟨attack.damage, false⟩
  let i ← if attack.isPrimary then
      applyModifier rules attack.attacker .whenAttacking Impact.strengthen i
    else pure i
  let i ← applyModifier rules target .whenDamaged Impact.weaken i
  pure i.total

/-! ## Hits -/

/-- A hit with the damage it is going to do. -/
structure Aim where
  attack : Attack
  target : PetId
  damage : Int
deriving DecidableEq

/-- A hit that was applied, with the health it cost. -/
structure Hit where
  attacker : PetId
  side : Side
  target : PetId
  lost : Int
deriving DecidableEq

/-- The hits of one round: the target of each attack at this place, if it is still in line. -/
def aim (rules : Rules) (slot : Nat) : List Attack → Resolve (List Aim)
  | [] => pure []
  | attack :: rest => do
    match attack.targets[slot]? with
    | none => aim rules slot rest
    | some target =>
      if (← board).isAlive target then
        let damage ← damageFor rules attack target
        let aims ← aim rules slot rest
        pure (⟨attack, target, damage⟩ :: aims)
      else aim rules slot rest

def applyHits : List Aim → Resolve (List Hit)
  | [] => pure []
  | aim :: rest => do
    let before ← pet? aim.target
    modifyPet aim.target (Pet.takeDamage aim.damage)
    let lost := match before with
      | some pet => pet.healthLost aim.damage
      | none => 0
    let hits ← applyHits rest
    pure (⟨aim.attack.attacker, aim.attack.side, aim.target, lost⟩ :: hits)

/-- An event of the attack whose line is the one before the hits. -/
def attackEvent (trigger : Trigger) (side : Side) (source : PetId) (lines : Sides (List PetId)) :
    Event :=
  ((Event.battle trigger side).withSource source).withSnapshot (lines.get side)

/-- A pet that lost health is hurt if it has some left. Else it leaves the line, faints, and the
attacker has knocked it out. -/
def followUp (raise : Raise) (lines : Sides (List PetId)) (hit : Hit) : Resolve Unit := do
  if hit.lost ≤ 0 then pure ()
  else match (← board).entrant? hit.target with
    | none => pure ()
    | some target =>
      if target.pet.isAlive then raise (attackEvent .hurt target.side hit.target lines)
      else if ← remove hit.target then do
        raise (attackEvent .faint target.side hit.target lines)
        raise (attackEvent .knockout hit.side hit.attacker lines)
      else pure ()

/-! ## Whole attacks -/

def anyAlive (b : Board) (targets : List PetId) : Bool := targets.any b.isAlive

def playRound (rules : Rules) (raise : Raise) (attacks : List Attack) (lines : Sides (List PetId))
    (slot : Nat) : Resolve Unit := do
  let aims ← aim rules slot attacks
  let hits ← applyHits aims
  forEach hits (followUp raise lines)

/-- The most targets that one of the attacks has. -/
def width (attacks : List Attack) : Nat :=
  attacks.foldl (fun n attack => max n attack.targets.length) 0

def announceBefore (raise : Raise) (attack : Attack) : Resolve Unit := do
  let b ← board
  if attack.isPrimary && b.isAlive attack.attacker && anyAlive b attack.targets then
    raise ((Event.battle .beforeAttack attack.side).withSource attack.attacker)

def announceAfter (raise : Raise) (attack : Attack) : Resolve Unit := do
  let b ← board
  if attack.isPrimary && b.isAlive attack.attacker then
    raise ((Event.battle .afterAttack attack.side).withSource attack.attacker)

/-- Plays the attacks of both sides at once. An attack none of whose targets is in line is
dropped. -/
def playAttacks (rules : Rules) (raise : Raise) (attacks : List Attack) : Resolve Unit := do
  forEach attacks (announceBefore raise)
  let b ← board
  let attacks := attacks.filter fun attack => anyAlive b attack.targets
  forEach (List.range (width attacks)) (playRound rules raise attacks b.lines)
  forEach attacks (announceAfter raise)

end Resolve

end AutoBattler
