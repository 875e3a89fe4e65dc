import AutoBattler.Proofs.Boards
import AutoBattler.Proofs.Fighting
import AutoBattler.Proofs.Health

/-!
# The damage of a hit

What two statuses make of a hit, as a table. A status bears on a hit only if the effect of its
ability is itself a change of damage. A status that bears on the hit and works once is taken away
while the damage is computed, and nothing else on the board changes.
-/
namespace AutoBattler

open Resolve

/-! ## What bears on a hit -/

/-- The change of damage that the effect itself is. -/
def Effect.damageModifier? : Effect → Option DamageModifier
  | .modifyDamage amount once => some ⟨amount, once⟩
  | _ => none

/-- The change of damage that an ability makes on such an occasion. -/
def Ability.damageModifier? (trigger : Trigger) (ability : Ability) : Option DamageModifier :=
  if ability.trigger = trigger then ability.effect.damageModifier? else none

/-- The change of damage that the status of a pet makes on such an occasion. -/
def Board.damageModifier? (b : Board) (c : Catalog) (id : PetId) (trigger : Trigger) :
    Except EngineError (Option DamageModifier) :=
  match b.pet? id with
  | none => .ok none
  | some pet => (c.statusAbility pet).map fun ability => ability.bind (·.damageModifier? trigger)

/-- What the attacker adds. Only the exchange of the foremost pets asks for it. -/
def Attack.bonus? (attack : Attack) (c : Catalog) (b : Board) :
    Except EngineError (Option DamageModifier) :=
  if attack.isPrimary then b.damageModifier? c attack.attacker .whenAttacking else .ok none

/-! ## The table -/

/-- What becomes of a hit: damage, or the loss of all health. -/
inductive Blow where
  | deals (damage : Int)
  | kills
deriving DecidableEq

/-- A bonus is added and a reduction taken off, as machine integers. Without a number a bonus kills and
a reduction blocks; any reduction absorbs a blow that kills. -/
def Blow.ofModifiers (damage : Int) : (bonus reduction : Option (Option Int)) → Blow
  | none, none => .deals (max 0 damage)
  | some (some bonus), none => .deals (max 0 (int32 (damage + bonus)))
  | none, some (some reduction) => .deals (max 0 (int32 (damage - reduction)))
  | some (some bonus), some (some reduction) => .deals (max 0 (int32 (damage + bonus - reduction)))
  | none, some none => .deals 0
  | some (some _), some none => .deals 0
  | some none, none => .kills
  | some none, some _ => .deals 0

/-- The number does what the blow is to do. -/
def Blow.IsDone (damage : Int) : Blow → Prop
  | .deals due => damage = due
  | .kills => ∀ pet : Pet, 1 ≤ pet.health → pet.health ≤ maxHealth →
      (pet.takeDamage damage).health = 0

namespace Resolve

/-- The damage in which a hit results. -/
def Impact.ofModifiers (damage : Int) (bonus reduction : Option DamageModifier) : Impact :=
  let i := bonus.elim ⟨damage, false⟩ (Impact.strengthen ⟨damage, false⟩)
  reduction.elim i i.weaken

theorem Impact.total_nonneg (i : Impact) : 0 ≤ i.total := Int.le_max_left ..

/-- Working the modifiers in gives what the table says. -/
theorem Impact.isDone_ofModifiers {damage : Int} (hd : IsInt32 damage)
    (bonus reduction : Option DamageModifier) :
    (Blow.ofModifiers damage (bonus.map (·.amount)) (reduction.map (·.amount))).IsDone
      (Impact.ofModifiers damage bonus reduction).total := by
  rcases bonus with _ | ⟨_ | bonus, once⟩ <;> rcases reduction with _ | ⟨_ | reduction, once'⟩
  case some.none.none =>
    intro pet hlive hp
    have fit : pet.FitHealth := ⟨Int.le_trans (by decide) hlive, hp⟩
    refine Pet.health_takeDamage_eq_zero fit ?_ ?_
    · show IsInt32 (max 0 (max damage maxHealth))
      unfold IsInt32 maxHealth at *
      omega
    · exact Int.le_trans (Int.le_max_right ..) (Int.le_max_right ..)
  case some.some.some.some => exact congrArg (max 0) (int32_int32_sub (damage + bonus) reduction)
  all_goals rfl

end Resolve

/-! ## Consulting the statuses -/

namespace Board

variable {b : Board} {c : Catalog} {id x : PetId} {trigger trigger' : Trigger}
  {m : Option DamageModifier}

/-- The board without the status that made this change, if that works once. -/
def useUp (b : Board) (id : PetId) (m : Option DamageModifier) : Board :=
  if m.any (·.once) then b.modifyPet id (Pet.setStatus none) else b

@[simp] theorem roster_useUp (b : Board) (id : PetId) (m : Option DamageModifier) (side : Side) :
    (b.useUp id m).roster side = b.roster side := by
  unfold useUp
  split <;> rfl

@[simp] theorem nextId_useUp (b : Board) (id : PetId) (m : Option DamageModifier) :
    (b.useUp id m).nextId = b.nextId := by
  unfold useUp
  split <;> rfl

theorem entrant?_useUp (b : Board) (id : PetId) (m : Option DamageModifier) (x : PetId) :
    (b.useUp id m).entrant? x =
      if x = id ∧ m.any (·.once) then (b.entrant? x).map fun e => { e with pet := e.pet.setStatus none }
      else b.entrant? x := by
  unfold useUp
  by_cases hm : m.any (·.once) = true
  · rw [if_pos hm, entrant?_modifyPet]
    simp only [hm, and_true]
  · rw [if_neg hm, if_neg fun h => hm h.2]

/-- A pet whose status changes damage has a status that answers on this occasion. -/
theorem ability_of_damageModifier? {n : DamageModifier}
    (h : b.damageModifier? c id trigger = .ok (some n)) :
    ∃ pet ability, b.pet? id = some pet ∧ c.statusAbility pet = .ok (some ability) ∧
      ability.trigger = trigger ∧ ability.effect.damageModifier? = some n := by
  unfold damageModifier? at h
  split at h
  · cases h
  · rename_i pet hp
    cases hs : c.statusAbility pet with
    | error e =>
      rw [hs] at h
      cases h
    | ok ability =>
      rw [hs] at h
      obtain ⟨ability, rfl, ha⟩ := Option.bind_eq_some_iff.1 (Except.ok.inj h)
      unfold Ability.damageModifier? at ha
      split at ha
      · exact ⟨pet, ability, hp, hs, ‹_›, ha⟩
      · cases ha

/-- A status answers on one occasion only. So what is used up on one makes no difference on
another, even if it is the same pet that is consulted. -/
theorem damageModifier?_useUp (h : b.damageModifier? c id trigger = .ok m) (ht : trigger ≠ trigger') :
    (b.useUp id m).damageModifier? c x trigger' = b.damageModifier? c x trigger' := by
  unfold useUp
  split
  · cases m with
    | none => contradiction
    | some n =>
      obtain ⟨pet, ability, hp, hs, rfl, _⟩ := ability_of_damageModifier? h
      unfold damageModifier?
      by_cases hx : x = id
      · subst hx
        have other : ability.damageModifier? trigger' = none := if_neg ht
        rw [pet?_modifyPet, if_pos rfl, hp]
        show Except.ok none =
          (c.statusAbility pet).map fun ability => ability.bind (·.damageModifier? trigger')
        rw [hs]
        exact congrArg Except.ok other.symm
      · rw [pet?_modifyPet, if_neg hx]
  · rfl

end Board

namespace Resolve

variable {rules : Rules} {id : PetId} {trigger : Trigger} {s : Arena}

theorem damageModifier_run (rules : Rules) (id : PetId) (trigger : Trigger) (s : Arena) :
    damageModifier rules id trigger s = (s.board.damageModifier? rules.catalog id trigger, s) := by
  unfold damageModifier Board.damageModifier?
  rw [bind_run]
  unfold pet? look
  dsimp only
  cases s.board.pet? id with
  | none => rfl
  | some pet =>
    dsimp only
    rw [bind_run]
    unfold ofExcept
    cases rules.catalog.statusAbility pet with
    | error e => rfl
    | ok ability =>
      cases ability with
      | none => rfl
      | some ability =>
        show (if ability.trigger = trigger then _ else _ : Resolve (Option DamageModifier)) s =
          (.ok (ability.damageModifier? trigger), s)
        unfold Ability.damageModifier?
        split
        · cases ability.effect <;> rfl
        · rfl

/-- A way of working modifiers in. It fails only where no status is to be read, and leaves such an
arena with the board as it is to be left. -/
structure WorksIn (c : Catalog) (apply : Working)
    (after : PetId → Option DamageModifier → Arena → Arena) : Prop where
  ok : ∀ {id trigger work i s m}, s.board.damageModifier? c id trigger = .ok m →
    apply id trigger work i s = (.ok (m.elim i (work i)), after id m s)
  error : ∀ {id trigger work i s e}, s.board.damageModifier? c id trigger = .error e →
    apply id trigger work i s = (.error e, s)
  board : ∀ id m s, (after id m s).board = s.board.useUp id m
  unmodified : ∀ id s, after id none s = s

theorem worksIn_applyModifier (rules : Rules) :
    WorksIn rules.catalog (applyModifier rules) fun id m s => { s with board := s.board.useUp id m } where
  ok h := by
    rename_i m
    unfold applyModifier
    rw [bind_run, damageModifier_run, h]
    rcases m with _ | ⟨amount, once⟩
    · rfl
    · cases once <;> rfl
  error h := by
    unfold applyModifier
    rw [bind_run, damageModifier_run, h]
  board _ _ _ := rfl
  unmodified _ _ := rfl

end Resolve

/-! ## Whole hits -/

/-- What the attacker adds to the hit and what the target takes off. -/
def Attack.modifiers? (attack : Attack) (c : Catalog) (b : Board) (target : PetId) :
    Except EngineError (Option DamageModifier × Option DamageModifier) :=
  match attack.bonus? c b with
  | .error e => .error e
  | .ok bonus => (b.damageModifier? c target .whenDamaged).map fun reduction => (bonus, reduction)

/-- The damage is by the table, if that of the attack is a machine integer, and the board is left
without the statuses that worked once. -/
structure Attack.Ruled (attack : Attack) (target : PetId) (bonus reduction : Option DamageModifier)
    (b : Board) (damage : Int) (b' : Board) : Prop where
  done : IsInt32 attack.damage →
    (Blow.ofModifiers attack.damage (bonus.map (·.amount)) (reduction.map (·.amount))).IsDone damage
  nonneg : 0 ≤ damage
  numbers : b'.nextId = b.nextId
  lines : ∀ side, b'.roster side = b.roster side
  pets : ∀ x, b'.entrant? x =
    if x = attack.attacker ∧ bonus.any (·.once) ∨ x = target ∧ reduction.any (·.once) then
      (b.entrant? x).map fun e => { e with pet := e.pet.setStatus none }
    else b.entrant? x

theorem Attack.ruled_total (attack : Attack) (target : PetId) (bonus reduction : Option DamageModifier)
    (b : Board) :
    attack.Ruled target bonus reduction b (Impact.ofModifiers attack.damage bonus reduction).total
      ((b.useUp attack.attacker bonus).useUp target reduction) where
  done hd := Impact.isDone_ofModifiers hd bonus reduction
  nonneg := Impact.total_nonneg _
  numbers := by simp
  lines side := by simp
  pets x := by
    rw [Board.entrant?_useUp, Board.entrant?_useUp]
    by_cases ht : x = target ∧ reduction.any (·.once)
    · rw [if_pos ht]
      simp only [ht, and_self, or_true, if_true]
      split
      · rw [Option.map_map]
        rfl
      · rfl
    · rw [if_neg ht]
      simp only [ht, or_false]

/-- A status is consulted in vain if it is not defined, and not otherwise. -/
theorem Board.undefined_of_damageModifier? {b : Board} {c : Catalog} {id : PetId} {trigger : Trigger}
    {e : EngineError} (h : b.damageModifier? c id trigger = .error e) :
    ∃ pet status, b.pet? id = some pet ∧ pet.status = some status ∧ c.status status = .error e := by
  unfold damageModifier? at h
  split at h
  · cases h
  · rename_i pet hp
    unfold Catalog.statusAbility at h
    cases hs : pet.status with
    | none =>
      rw [hs] at h
      cases h
    | some status =>
      rw [hs] at h
      dsimp only at h
      cases hk : c.status status with
      | error e' =>
        rw [hk] at h
        cases h
        exact ⟨pet, status, hp, hs, hk⟩
      | ok kind =>
        rw [hk] at h
        cases h

namespace Resolve

variable {rules : Rules} {s : Arena}

/-- What the attacker works in. -/
theorem WorksIn.attacker {c : Catalog} {apply : Working}
    {after : PetId → Option DamageModifier → Arena → Arena} (h : WorksIn c apply after)
    (attack : Attack) (i : Impact) (s : Arena) :
    (if attack.isPrimary then apply attack.attacker .whenAttacking Impact.strengthen i
      else pure i : Resolve Impact) s =
      match attack.bonus? c s.board with
      | .error e => (.error e, s)
      | .ok bonus => (.ok (bonus.elim i i.strengthen), after attack.attacker bonus s) := by
  unfold Attack.bonus?
  split
  · cases hm : s.board.damageModifier? c attack.attacker .whenAttacking with
    | error e => exact h.error hm
    | ok bonus => exact h.ok hm
  · exact congrArg (Prod.mk _) (h.unmodified _ s).symm

/-- The target is consulted on the board without the status that the attacker used up, which makes
no difference. -/
theorem WorksIn.damageForBy_run {c : Catalog} {apply : Working}
    {after : PetId → Option DamageModifier → Arena → Arena} (h : WorksIn c apply after)
    (attack : Attack) (target : PetId) (s : Arena) :
    match attack.modifiers? c s.board target with
    | .error e => (damageForBy apply attack target s).1 = .error e
    | .ok (bonus, reduction) =>
      damageForBy apply attack target s =
        (.ok (Impact.ofModifiers attack.damage bonus reduction).total,
          after target reduction (after attack.attacker bonus s)) := by
  have split : damageForBy apply attack target =
      (if attack.isPrimary then
          apply attack.attacker .whenAttacking Impact.strengthen ⟨attack.damage, false⟩
        else pure ⟨attack.damage, false⟩) >>= fun i =>
          apply target .whenDamaged Impact.weaken i >>= fun i => pure i.total := by
    unfold damageForBy
    split <;> rfl
  rw [split, bind_run, h.attacker]
  unfold Attack.modifiers?
  cases hb : attack.bonus? c s.board with
  | error e => rfl
  | ok bonus =>
    have same : (after attack.attacker bonus s).board.damageModifier? c target .whenDamaged =
        s.board.damageModifier? c target .whenDamaged := by
      rw [h.board]
      unfold Attack.bonus? at hb
      split at hb
      · exact Board.damageModifier?_useUp hb nofun
      · cases hb
        rfl
    dsimp only
    rw [bind_run]
    cases hr : s.board.damageModifier? c target .whenDamaged with
    | error e =>
      rw [h.error (same.trans hr)]
      rfl
    | ok reduction =>
      rw [h.ok (same.trans hr)]
      rfl

/-- Every hit is by the table. It fails only if a consulted status is not defined. -/
theorem damageFor_ruled (rules : Rules) (attack : Attack) (target : PetId) (s : Arena) :
    match attack.modifiers? rules.catalog s.board target with
    | .ok (bonus, reduction) => ∃ damage b,
        damageFor rules attack target s = (.ok damage, { s with board := b }) ∧
          attack.Ruled target bonus reduction s.board damage b
    | .error e => (damageFor rules attack target s).1 = .error e ∧
        ∃ id pet status, (id = attack.attacker ∨ id = target) ∧ s.board.pet? id = some pet ∧
          pet.status = some status ∧ rules.catalog.status status = .error e := by
  have run := (worksIn_applyModifier rules).damageForBy_run attack target s
  cases h : attack.modifiers? rules.catalog s.board target with
  | ok modifiers =>
    rw [h] at run
    exact ⟨_, _, run, attack.ruled_total target modifiers.1 modifiers.2 s.board⟩
  | error e =>
    rw [h] at run
    refine ⟨run, ?_⟩
    unfold Attack.modifiers? Attack.bonus? at h
    split at h
    · rename_i hb
      cases h
      split at hb
      · exact ⟨attack.attacker, (Board.undefined_of_damageModifier? hb).imp fun _ =>
          Exists.imp fun _ hp => ⟨.inl rfl, hp⟩⟩
      · cases hb
    · cases hr : s.board.damageModifier? rules.catalog target .whenDamaged with
      | error e' =>
        rw [hr] at h
        cases h
        exact ⟨target, (Board.undefined_of_damageModifier? hr).imp fun _ =>
          Exists.imp fun _ hp => ⟨.inr rfl, hp⟩⟩
      | ok reduction =>
        rw [hr] at h
        cases h

end Resolve

end AutoBattler
