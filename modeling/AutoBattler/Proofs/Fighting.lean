import AutoBattler.Proofs.Performing

/-!
# Attacks step by step

The hits of a round are aimed and applied before anything follows from them, so the relation that
an attack keeps may be a weaker one between the hits and their follow-ups. The whole attack is
taken apart into announcements and rounds, a round into hits and follow-ups.
-/
namespace AutoBattler

namespace Resolve

variable {counted : Prop} {S : Scope} {c : Catalog} {V : Verdict} {R : Arena → Arena → Prop}
  {rules rules' : Rules} {raise raise' : Raise}

/-! ## Aiming -/

theorem missing_statusAbility {pet : Pet} {e : EngineError} (hp : S.pets pet)
    (h : c.statusAbility pet = .error e) : Missing c S e := by
  unfold Catalog.statusAbility at h
  split at h
  · rename_i status hs
    cases hr : c.status status with
    | ok kind => rw [hr] at h; cases h
    | error e' =>
      rw [hr] at h
      cases h
      exact .status hp hs hr
  · cases h

theorem keeps_damageModifier (h : ElementaryIf counted S rules.catalog V R)
    (hc : rules'.catalog = rules.catalog) (id : PetId) (trigger : Trigger) :
    Keeps V R (damageModifier rules id trigger) (damageModifier rules' id trigger) := by
  unfold damageModifier
  rw [hc]
  refine Yields.bind (h.yields_pet? id) fun found hfound => ?_
  split
  · exact keeps_pure _
  · rename_i pet
    have hp := hfound pet rfl
    refine Yields.bind (h.lookUp fun e he => missing_statusAbility hp he) fun _ _ => ?_
    repeat' split
    all_goals exact keeps_pure _

theorem keeps_applyModifier (h : ElementaryIf counted S rules.catalog V R)
    (hc : rules'.catalog = rules.catalog) (id : PetId) (trigger : Trigger)
    (work : Impact → DamageModifier → Impact) (i : Impact) :
    Keeps V R (applyModifier rules id trigger work i) (applyModifier rules' id trigger work i) := by
  unfold applyModifier
  refine Couples.bind (keeps_damageModifier h hc id trigger) fun m => ?_
  split
  · exact keeps_pure _
  · split
    · exact Couples.bind (h.edit _ .useUp (.inr fun _ => rfl) id) fun _ => keeps_pure _
    · exact keeps_pure _

/-- How the modifier of a pet is worked in. -/
abbrev Working := PetId → Trigger → (Impact → DamageModifier → Impact) → Impact → Resolve Impact

/-- The damage of a hit with modifiers worked in in some way. -/
def damageForBy (apply : Working) (attack : Attack) (target : PetId) : Resolve Int := do
  let i : Impact := ⟨attack.damage, false⟩
  let i ← if attack.isPrimary then apply attack.attacker .whenAttacking Impact.strengthen i else pure i
  let i ← apply target .whenDamaged Impact.weaken i
  pure i.total

theorem damageFor_eq (rules : Rules) : damageFor rules = damageForBy (applyModifier rules) := rfl

theorem keeps_damageForBy {apply apply' : Working}
    (h : ∀ id trigger work i, Keeps V R (apply id trigger work i) (apply' id trigger work i))
    (attack : Attack) (target : PetId) :
    Keeps V R (damageForBy apply attack target) (damageForBy apply' attack target) := by
  have weaken (i : Impact) : Keeps V R
      (do
        let i ← apply target .whenDamaged Impact.weaken i
        pure i.total)
      (do
        let i ← apply' target .whenDamaged Impact.weaken i
        pure i.total) :=
    Couples.bind (h ..) fun _ => keeps_pure _
  unfold damageForBy
  split
  · exact Couples.bind (h ..) weaken
  · exact Couples.bind (keeps_pure _) weaken

theorem keeps_damageFor (h : ElementaryIf counted S rules.catalog V R)
    (hc : rules'.catalog = rules.catalog) (attack : Attack) (target : PetId) :
    Keeps V R (damageFor rules attack target) (damageFor rules' attack target) := by
  rw [damageFor_eq, damageFor_eq]
  exact keeps_damageForBy (keeps_applyModifier h hc) attack target

/-- Aiming hits whose damage is computed in some way. -/
def aimBy (damageOf : Attack → PetId → Resolve Int) (slot : Nat) : List Attack → Resolve (List Aim)
  | [] => pure []
  | attack :: rest => do
    match attack.targets[slot]? with
    | none => aimBy damageOf slot rest
    | some target =>
      if (← board).isAlive target then
        let damage ← damageOf attack target
        let aims ← aimBy damageOf slot rest
        pure (⟨attack, target, damage⟩ :: aims)
      else aimBy damageOf slot rest

theorem aim_eq (rules : Rules) (slot : Nat) (attacks : List Attack) :
    aim rules slot attacks = aimBy (damageFor rules) slot attacks := by
  induction attacks with
  | nil => rfl
  | cons attack rest ih =>
    unfold aim aimBy
    cases attack.targets[slot]? with
    | none => exact ih
    | some target =>
      dsimp only
      rw [ih]

/-- There is at most one hit for each attack, and it is aimed at a pet in line. -/
theorem yields_aimBy_alive {damageOf damageOf' : Attack → PetId → Resolve Int}
    {G : PetId → Prop} (h : ElementaryIf counted S c V R)
    (hd : ∀ attack target, Keeps V R (damageOf attack target) (damageOf' attack target))
    (alive : ∀ s t, R s t → ∀ id, s.board.isAlive id = true → G id) (slot : Nat)
    (attacks : List Attack) :
    Yields V R (fun aims => aims.length ≤ attacks.length ∧ ∀ aim ∈ aims, G aim.target)
      (aimBy damageOf slot attacks) (aimBy damageOf' slot attacks) := by
  have inLine : Yields V R (fun b => ∀ id, b.isAlive id = true → G id) board board :=
    couples_look fun s t hst => ⟨h.boards s t hst, alive s t hst, hst⟩
  induction attacks with
  | nil => exact couples_pure _ fun s t hst => ⟨⟨Nat.le_refl _, nofun⟩, hst⟩
  | cons attack rest ih =>
    have skip : Yields V R
        (fun aims => aims.length ≤ (attack :: rest).length ∧ ∀ aim ∈ aims, G aim.target)
        (aimBy damageOf slot rest) (aimBy damageOf' slot rest) :=
      ih.weaken (fun _ _ hst => hst) fun _ _ _ h => ⟨⟨Nat.le_succ_of_le h.1.1, h.1.2⟩, h.2⟩
    unfold aimBy
    split
    · exact skip
    · rename_i target _
      refine Yields.bind inLine fun b hb => ?_
      split
      · rename_i halive
        refine Couples.bind (hd attack _) fun damage => ?_
        refine Yields.bind ih fun aims haims => couples_pure _ fun s t hst => ⟨⟨?_, ?_⟩, hst⟩
        · exact Nat.succ_le_succ haims.1
        · exact List.forall_mem_cons.2 ⟨hb target halive, haims.2⟩
      · exact skip

theorem yields_aim_alive {G : PetId → Prop} (h : ElementaryIf counted S rules.catalog V R)
    (hc : rules'.catalog = rules.catalog)
    (alive : ∀ s t, R s t → ∀ id, s.board.isAlive id = true → G id) (slot : Nat)
    (attacks : List Attack) :
    Yields V R (fun aims => aims.length ≤ attacks.length ∧ ∀ aim ∈ aims, G aim.target)
      (aim rules slot attacks) (aim rules' slot attacks) := by
  rw [aim_eq, aim_eq]
  exact yields_aimBy_alive h (keeps_damageFor h hc) alive slot attacks

theorem yields_aim (h : ElementaryIf counted S rules.catalog V R)
    (hc : rules'.catalog = rules.catalog) (slot : Nat) (attacks : List Attack) :
    Yields V R (fun aims => aims.length ≤ attacks.length) (aim rules slot attacks)
      (aim rules' slot attacks) :=
  (yields_aim_alive (G := fun _ => True) h hc (fun _ _ _ _ _ => trivial) slot attacks).weaken
    (fun _ _ hst => hst) fun _ _ _ h => ⟨h.1.1, h.2⟩

/-! ## Hits and what follows -/

theorem keeps_applyHits (h : ElementaryIf counted S c V R)
    (hd : ∀ amount id, Keeps V R (modifyPet id (Pet.takeDamage amount))
      (modifyPet id (Pet.takeDamage amount))) (aims : List Aim) :
    Keeps V R (applyHits aims) (applyHits aims) := by
  induction aims with
  | nil => exact keeps_pure _
  | cons aim rest ih =>
    unfold applyHits
    refine Yields.bind (h.yields_pet? _) fun before _ => ?_
    refine Couples.bind (hd _ _) fun _ => ?_
    exact Couples.bind ih fun hits => keeps_pure _

/-- The triggers of what is told after a hit. -/
def FollowsHit (trigger : Trigger) : Prop :=
  trigger = .hurt ∨ trigger = .faint ∨ trigger = .knockout

theorem attackEvent_of_followsHit {trigger : Trigger} (h : FollowsHit trigger) (side : Side)
    (id : PetId) (lines : Sides (List PetId)) :
    AttackEvent (attackEvent trigger side id lines) := by
  rcases h with rfl | rfl | rfl
  · exact .hurt side id lines
  · exact .faint side id lines
  · exact .knockout side id lines

theorem keeps_followUp (h : ElementaryIf counted S c V R)
    (hr : ∀ id, Keeps V R (remove id) (remove id)) (lines : Sides (List PetId))
    (ht : ∀ trigger, FollowsHit trigger → ∀ side id,
      Keeps V R (raise (attackEvent trigger side id lines))
        (raise' (attackEvent trigger side id lines)))
    (hit : Hit) : Keeps V R (followUp raise lines hit) (followUp raise' lines hit) := by
  unfold followUp
  split
  · exact keeps_pure _
  · refine Yields.bind h.yields_board fun b _ => ?_
    split
    · exact keeps_pure _
    · rename_i target _
      split
      · exact ht _ (.inl rfl) target.side hit.target
      · refine Couples.bind (hr hit.target) fun removed => ?_
        split
        · refine Couples.bind (ht _ (.inr (.inl rfl)) target.side hit.target) fun _ => ?_
          exact ht _ (.inr (.inr rfl)) hit.side hit.attacker
        · exact keeps_pure _

/-- A round of attacks whose hits are aimed in some way. -/
def playRoundBy (aims : Nat → List Attack → Resolve (List Aim)) (raise : Raise)
    (attacks : List Attack) (lines : Sides (List PetId)) (slot : Nat) : Resolve Unit := do
  let aims ← aims slot attacks
  let hits ← applyHits aims
  forEach hits (followUp raise lines)

theorem keeps_playRoundBy {aims aims' : Nat → List Attack → Resolve (List Aim)}
    (h : ElementaryIf counted S c V R)
    (ha : ∀ slot attacks, Keeps V R (aims slot attacks) (aims' slot attacks))
    (hd : ∀ amount id, Keeps V R (modifyPet id (Pet.takeDamage amount))
      (modifyPet id (Pet.takeDamage amount)))
    (attacks : List Attack) {lines : Sides (List PetId)}
    (hf : ∀ hit, Keeps V R (followUp raise lines hit) (followUp raise' lines hit)) (slot : Nat) :
    Keeps V R (playRoundBy aims raise attacks lines slot)
      (playRoundBy aims' raise' attacks lines slot) := by
  refine Couples.bind (ha slot attacks) fun aims => ?_
  refine Couples.bind (keeps_applyHits h hd aims) fun hits => ?_
  exact keeps_forEach hits fun hit _ => hf hit

theorem keeps_playRound (h : ElementaryIf counted S rules.catalog V R)
    (hc : rules'.catalog = rules.catalog)
    (hd : ∀ amount id, Keeps V R (modifyPet id (Pet.takeDamage amount))
      (modifyPet id (Pet.takeDamage amount)))
    (attacks : List Attack) {lines : Sides (List PetId)}
    (hf : ∀ hit, Keeps V R (followUp raise lines hit) (followUp raise' lines hit)) (slot : Nat) :
    Keeps V R (playRound rules raise attacks lines slot)
      (playRound rules' raise' attacks lines slot) :=
  keeps_playRoundBy h (fun slot attacks => (yields_aim h hc slot attacks).weaken (fun _ _ hst => hst)
    fun _ _ _ h => h.2) hd attacks hf slot

/-! ## Whole attacks -/

theorem keeps_announceBefore (h : ElementaryIf counted S c V R) {attack : Attack}
    (hr : Keeps V R (raise ((Event.battle .beforeAttack attack.side).withSource attack.attacker))
      (raise' ((Event.battle .beforeAttack attack.side).withSource attack.attacker))) :
    Keeps V R (announceBefore raise attack) (announceBefore raise' attack) := by
  refine Yields.bind h.yields_board fun b _ => ?_
  split
  · exact hr
  · exact keeps_pure _

theorem keeps_announceAfter (h : ElementaryIf counted S c V R) {attack : Attack}
    (hr : Keeps V R (raise ((Event.battle .afterAttack attack.side).withSource attack.attacker))
      (raise' ((Event.battle .afterAttack attack.side).withSource attack.attacker))) :
    Keeps V R (announceAfter raise attack) (announceAfter raise' attack) := by
  refine Yields.bind h.yields_board fun b _ => ?_
  split
  · exact hr
  · exact keeps_pure _

/-- The lines of an arena in the relation. -/
def Lined (R : Arena → Arena → Prop) (lines : Sides (List PetId)) : Prop :=
  ∃ s t, R s t ∧ s.board.lines = lines

/-- Attacks whose rounds are played in some way. -/
def playAttacksBy (round : List Attack → Sides (List PetId) → Nat → Resolve Unit) (raise : Raise)
    (attacks : List Attack) : Resolve Unit := do
  forEach attacks (announceBefore raise)
  let b ← board
  let attacks := attacks.filter fun attack => anyAlive b attack.targets
  forEach (List.range (width attacks)) (round attacks b.lines)
  forEach attacks (announceAfter raise)

theorem playAttacks_eq (rules : Rules) (raise : Raise) :
    playAttacks rules raise = playAttacksBy (playRound rules raise) raise := rfl

/-- The rounds are those of the attacks that still have a target in line, and look back at the lines
before them. -/
theorem keeps_playAttacksBy {round round' : List Attack → Sides (List PetId) → Nat → Resolve Unit}
    (h : ElementaryIf counted S c V R) {attacks : List Attack}
    (before : ∀ attack ∈ attacks,
      Keeps V R (announceBefore raise attack) (announceBefore raise' attack))
    (rounds : ∀ played, played.Sublist attacks → ∀ lines, Lined R lines → ∀ slot,
      Keeps V R (round played lines slot) (round' played lines slot))
    (after : ∀ attack ∈ attacks,
      Keeps V R (announceAfter raise attack) (announceAfter raise' attack)) :
    Keeps V R (playAttacksBy round raise attacks) (playAttacksBy round' raise' attacks) := by
  have lined : Yields V R (fun b => Lined R b.lines) board board :=
    couples_look fun s t hst => ⟨h.boards s t hst, ⟨s, t, hst, rfl⟩, hst⟩
  refine Couples.bind (keeps_forEach attacks before) fun _ => ?_
  refine Yields.bind lined fun b hb => ?_
  have played := List.filter_sublist (p := fun attack => anyAlive b attack.targets) (l := attacks)
  refine Couples.bind (keeps_forEach _ fun slot _ => rounds _ played b.lines hb slot) fun _ => ?_
  exact keeps_forEach _ fun attack hm => after attack (played.subset hm)

theorem keeps_playAttacks_of_parts (h : ElementaryIf counted S rules.catalog V R)
    {attacks : List Attack}
    (before : ∀ attack ∈ attacks,
      Keeps V R (announceBefore raise attack) (announceBefore raise' attack))
    (round : ∀ played, played.Sublist attacks → ∀ lines, Lined R lines → ∀ slot,
      Keeps V R (playRound rules raise played lines slot)
        (playRound rules' raise' played lines slot))
    (after : ∀ attack ∈ attacks,
      Keeps V R (announceAfter raise attack) (announceAfter raise' attack)) :
    Keeps V R (playAttacks rules raise attacks) (playAttacks rules' raise' attacks) := by
  rw [playAttacks_eq, playAttacks_eq]
  exact keeps_playAttacksBy h before round after

theorem keeps_playAttacks_of_rounds (h : ElementaryIf counted S rules.catalog V R)
    {attacks : List Attack}
    (hr : ∀ side attacker trigger, trigger = .beforeAttack ∨ trigger = .afterAttack →
      Keeps V R (raise ((Event.battle trigger side).withSource attacker))
        (raise' ((Event.battle trigger side).withSource attacker)))
    (hround : ∀ played, played.Sublist attacks → ∀ lines, Lined R lines → ∀ slot,
      Keeps V R (playRound rules raise played lines slot)
        (playRound rules' raise' played lines slot)) :
    Keeps V R (playAttacks rules raise attacks) (playAttacks rules' raise' attacks) :=
  keeps_playAttacks_of_parts h (fun _ _ => keeps_announceBefore h (hr _ _ _ (.inl rfl))) hround
    fun _ _ => keeps_announceAfter h (hr _ _ _ (.inr rfl))

/-- What is told of an attack is told to a roster, or to the lines of an arena in the relation. -/
theorem keeps_playAttacks_along (h : ElementaryIf counted S rules.catalog V R)
    (hc : rules'.catalog = rules.catalog)
    (hd : ∀ amount id, Keeps V R (modifyPet id (Pet.takeDamage amount))
      (modifyPet id (Pet.takeDamage amount)))
    (hm : ∀ id, Keeps V R (remove id) (remove id))
    (hr : ∀ event, AttackEvent event →
      (∀ line, event.snapshot = some line → ∃ lines side, Lined R lines ∧ line = lines.get side) →
      Keeps V R (raise event) (raise' event))
    (attacks : List Attack) :
    Keeps V R (playAttacks rules raise attacks) (playAttacks rules' raise' attacks) := by
  apply keeps_playAttacks_of_rounds h
  · rintro side attacker trigger (rfl | rfl)
    · exact hr _ (.before side attacker) nofun
    · exact hr _ (.after side attacker) nofun
  · intro played _ lines hlines slot
    refine keeps_playRound h hc hd played (fun hit => ?_) slot
    refine keeps_followUp h hm lines (fun trigger ht side id => ?_) hit
    refine hr _ (attackEvent_of_followsHit ht side id lines) fun line hline => ?_
    exact ⟨lines, side, hlines, (Option.some.inj hline).symm⟩

theorem keeps_playAttacks (h : ElementaryIf counted S rules.catalog V R)
    (hc : rules'.catalog = rules.catalog)
    (hd : ∀ amount id, Keeps V R (modifyPet id (Pet.takeDamage amount))
      (modifyPet id (Pet.takeDamage amount)))
    (hm : ∀ id, Keeps V R (remove id) (remove id))
    (hr : ∀ event, AttackEvent event → Keeps V R (raise event) (raise' event))
    (attacks : List Attack) :
    Keeps V R (playAttacks rules raise attacks) (playAttacks rules' raise' attacks) :=
  keeps_playAttacks_along h hc hd hm (fun event ht _ => hr event ht) attacks

end Resolve

end AutoBattler
