import AutoBattler.Proofs.BoardInvariant
import AutoBattler.Proofs.Health
import AutoBattler.Proofs.Rescue
import Mathlib.Data.List.Perm.Subperm

/-!
# Pets without health

In a moderate catalog pets arrive with health and effects take none away: none takes health by what
it says, and none gives so much that the sum overruns the machine integers. So only hits leave a pet
without health. It stays in line until the hit is followed up. When other events are told at most
one such pet is pending, since the first of two victims has left before anyone hears of it.
-/
namespace AutoBattler

open Resolve

/-- The effect itself takes no health away and summons pets with health only. -/
def Effect.IsLively : Effect → Prop
  | modifyStats _ health _ _ => 0 ≤ health
  | transferStats _ _ _ copyHealth => copyHealth = false
  | summonPet _ _ _ health => ∀ h, health = some h → 1 ≤ h
  | summonRandomPet _ _ health _ => ∀ h, health = some h → 1 ≤ h
  | respawnPet _ health => 1 ≤ health
  | _ => True

structure Catalog.IsLively (c : Catalog) : Prop where
  base : ∀ id kind, c.petKind id = .ok kind → 1 ≤ kind.baseHealth
  effects : c.Every Effect.IsLively

/-- The effect itself gives no more health than this by a change of stats. -/
def Effect.GainsAtMost (most : Int) : Effect → Prop
  | modifyStats _ health _ _ => health ≤ most
  | _ => True

/-- A lively catalog whose effects give no health that overruns the machine integers. -/
structure Catalog.IsModerate (c : Catalog) : Prop extends c.IsLively where
  gains : c.Every (Effect.GainsAtMost Pet.maxGain)

/-! ## Calm events -/

/-- Damage dealt in answer to the event is dealt at once. -/
def Trigger.IsLoud (trigger : Trigger) : Prop := trigger = .beforeAttack ∨ trigger = .startOfBattle

/-- Neither the event nor one behind it is loud. -/
def Event.IsCalm : Event → Prop
  | ⟨trigger, _, _, _, _, _, none⟩ => ¬ trigger.IsLoud
  | ⟨trigger, _, _, _, _, _, some cause⟩ => ¬ trigger.IsLoud ∧ cause.IsCalm

theorem Event.isCalm_iff (event : Event) :
    event.IsCalm ↔ ¬ event.trigger.IsLoud ∧ ∀ cause, event.cause = some cause → cause.IsCalm := by
  obtain ⟨trigger, source, side, snapshot, phase, repeated, cause⟩ := event
  cases cause with
  | none => simp [IsCalm]
  | some cause => simp [IsCalm]

theorem Event.isCalm_of_no_cause {event : Event} (ht : ¬ event.trigger.IsLoud)
    (hc : event.cause = none) : event.IsCalm := by
  rw [isCalm_iff]
  refine ⟨ht, fun cause h => ?_⟩
  rw [hc] at h
  cases h

theorem Event.isCalm_castEvent {event : Event} (h : event.IsCalm) (caster : PetId) (side : Side) :
    (castEvent caster side event).IsCalm := by
  rw [isCalm_iff]
  refine ⟨by simp [castEvent, Trigger.IsLoud], ?_⟩
  rintro cause hc
  cases hc
  exact isCalm_of_no_cause ((isCalm_iff event).1 h).1 rfl

theorem Event.isCalm_followUp (event : Event) {trigger : Trigger} (side : Side) (id : PetId)
    (h : ¬ trigger.IsLoud) : (event.followUp trigger side id).IsCalm := isCalm_of_no_cause h rfl

/-! ## Boards with a pending faint -/

namespace Board

/-- Whether the pet has health left. -/
def lives (b : Board) (id : PetId) : Bool := (b.pet? id).any Pet.isAlive

/-- The number of pets in line that have health left. -/
def liveCount (b : Board) (side : Side) : Nat := ((b.livePets side).filter Pet.isAlive).length

theorem liveCount_eq (b : Board) (side : Side) :
    b.liveCount side = (b.roster side).countP b.lives := by
  unfold liveCount livePets
  induction b.roster side with
  | nil => rfl
  | cons id rest ih =>
    rw [List.countP_cons, ← ih, List.filterMap_cons]
    unfold lives
    cases b.pet? id with
    | none => rfl
    | some pet => cases h : pet.isAlive <;> simp [h]

theorem liveCount_le (b : Board) (side : Side) : b.liveCount side ≤ (b.roster side).length := by
  rw [liveCount_eq]
  exact List.countP_le_length

theorem canAdd_iff (b : Board) (side : Side) :
    b.canAdd side = true ↔ b.liveCount side < teamSize := by
  unfold canAdd liveCount
  rw [decide_eq_true_iff]

/-- A pet in line that has no health left is pending, and the lines are not overlong. -/
structure Settling (pending : List PetId) (b : Board) : Prop where
  wellFormed : b.WellFormed
  fit : b.AllPets Pet.FitHealth
  alive : ∀ side id pet, id ∈ b.roster side → b.pet? id = some pet → 0 < pet.health ∨ id ∈ pending
  crowd : ∀ side, (b.roster side).length ≤ teamSize + 1

variable {pending more : List PetId} {b b' : Board} {side : Side} {pet : Pet} {id new : PetId}

theorem Settling.mono (h : b.Settling pending) (hp : ∀ id ∈ pending, id ∈ more) :
    b.Settling more where
  wellFormed := h.wellFormed
  fit := h.fit
  alive side id pet hm hpet := (h.alive side id pet hm hpet).imp_right (hp id)
  crowd := h.crowd

theorem Settling.pet?_isSome (h : b.Settling pending) (hm : id ∈ b.roster side) :
    ∃ pet, b.pet? id = some pet := h.wellFormed.pet?_of_mem hm

/-- At most the pending pets of a line do not live. -/
theorem Settling.length_le (h : b.Settling pending) (side : Side) :
    (b.roster side).length ≤ b.liveCount side + pending.length := by
  have split := List.length_eq_countP_add_countP b.lives (l := b.roster side)
  have dead : (b.roster side).countP (fun id => decide (¬ b.lives id = true)) ≤ pending.length := by
    rw [List.countP_eq_length_filter]
    apply List.Subperm.length_le
    apply List.Nodup.subperm ((h.wellFormed.nodup side).filter _)
    intro id hid
    obtain ⟨hm, hdead⟩ := List.mem_filter.1 hid
    obtain ⟨pet, hpet⟩ := h.pet?_isSome hm
    rcases h.alive side id pet hm hpet with hpos | hp
    · simp [lives, hpet, Pet.isAlive, hpos] at hdead
    · exact hp
  rw [liveCount_eq]
  omega

theorem Settling.modifyPet (h : b.Settling pending) (id : PetId) {f : Pet → Pet}
    (hfit : ∀ p, p.FitHealth → (f p).FitHealth)
    (hf : ∀ p, b.pet? id = some p → p.FitHealth → 0 < p.health → 0 < (f p).health) :
    (b.modifyPet id f).Settling pending where
  wellFormed := h.wellFormed.modifyPet id f
  fit := h.fit.modifyPet id hfit
  alive side x pet hm hpet := by
    obtain ⟨old, hold, heq⟩ := pet?_of_modifyPet hpet
    rcases h.alive side x old hm hold with hpos | hp
    · left
      rcases heq with rfl | ⟨rfl, rfl⟩
      · exact hpos
      · exact hf old hold (h.fit x old hold) hpos
    · exact .inr hp
  crowd := h.crowd

/-- One more pet may become pending. -/
theorem Settling.strike (h : b.Settling pending) (id : PetId) {f : Pet → Pet}
    (hfit : ∀ p, p.FitHealth → (f p).FitHealth) :
    (b.modifyPet id f).Settling (id :: pending) where
  wellFormed := h.wellFormed.modifyPet id f
  fit := h.fit.modifyPet id hfit
  alive side x pet hm hpet := by
    obtain ⟨old, hold, rfl | ⟨rfl, _⟩⟩ := pet?_of_modifyPet hpet
    · exact (h.alive side x pet hm hold).imp_right (List.mem_cons_of_mem id)
    · exact .inr List.mem_cons_self
  crowd := h.crowd

/-- There was room for the newcomer beside at most one pending pet. -/
theorem Settling.arrive (h : b.Settling pending) (hp : pending.length ≤ 1)
    (hfit : pet.FitHealth) (hpos : 0 < pet.health) (ha : b.Arrives side pet id b') :
    b'.Settling pending where
  wellFormed := ha.wellFormed h.wellFormed
  fit := h.fit.stores ha.toStores hfit
  alive s x q hm hq := by
    rw [ha.pet?] at hq
    split at hq
    · cases hq
      exact .inl hpos
    · rename_i hne
      exact h.alive s x q ((ha.mem hm).resolve_right fun hx => hne hx.1) hq
  crowd s := by
    rw [ha.length s]
    split
    · rename_i hs
      subst hs
      have hroom := (b.canAdd_iff s).1 ha.room
      have hlength := h.length_le s
      omega
    · exact h.crowd s

theorem Settling.exchange (h : b.Settling pending) (hfit : pet.FitHealth) (hpos : 0 < pet.health)
    (he : b.Exchanges id side pet new b') : b'.Settling pending where
  wellFormed := he.wellFormed h.wellFormed
  fit := h.fit.stores he.toStores hfit
  alive s x q hm hq := by
    rw [he.pet?] at hq
    split at hq
    · cases hq
      exact .inl hpos
    · rename_i hne
      exact h.alive s x q ((he.mem hm).resolve_right fun hx => hne hx.1) hq
  crowd s := by
    rw [he.length s]
    exact h.crowd s

/-- A pet that has left its line, or has health, is no longer pending. -/
theorem Settling.forget (h : b.Settling (id :: pending))
    (hid : ∀ pet, b.pet? id = some pet → (∀ side, id ∉ b.roster side) ∨ 0 < pet.health) :
    b.Settling pending where
  wellFormed := h.wellFormed
  fit := h.fit
  alive side x pet hm hpet := by
    rcases h.alive side x pet hm hpet with hpos | hp
    · exact .inl hpos
    · rcases List.mem_cons.1 hp with rfl | hp
      · exact .inl ((hid pet hpet).resolve_left fun hnone => hnone side hm)
      · exact .inr hp
  crowd := h.crowd

/-- The pet that leaves is no longer pending. -/
theorem Settling.leave (h : b.Settling (id :: pending)) (hl : b.Leaves id side b') :
    b'.Settling pending where
  wellFormed := hl.wellFormed h.wellFormed
  fit := h.fit.leave hl
  alive s x q hm hq := by
    rw [hl.pet?] at hq
    have hne : x ≠ id := by
      rintro rfl
      exact hl.not_mem h.wellFormed s hm
    rcases h.alive s x q ((hl.sublist s).subset hm) hq with hpos | hp
    · exact .inl hpos
    · exact .inr ((List.mem_cons.1 hp).resolve_left hne)
  crowd s := Nat.le_trans (hl.sublist s).length_le (h.crowd s)

end Board

/-! ## Lively scopes -/

/-- Loud events are told only while nothing is pending. -/
def livelyScope (pending : List PetId) : Scope :=
  ⟨fun event => pending = [] ∨ event.IsCalm, fun e => e.IsLively ∧ e.GainsAtMost Pet.maxGain, fun _ => True⟩

variable {c : Catalog} {rules : Rules} {raise : Raise} {pending : List PetId}

theorem covers_livelyScope (hc : c.IsModerate) (pending : List PetId) :
    (livelyScope pending).Covers c := by
  refine ⟨fun ability ho => (hc.effects ability ho).imp₂ (fun _ => And.intro) (hc.gains ability ho),
    fun event cause he hcause => ?_⟩
  exact he.imp_right fun h => ((Event.isCalm_iff event).1 h).2 cause hcause

theorem health_edit_pos {f : Pet → Pet} (hf : Edit c (livelyScope pending) f) {p : Pet}
    (hfit : p.FitHealth) (hp : 0 < p.health) : 0 < (f p).health := by
  cases hf with
  | buff h => exact Pet.health_buff_pos hfit hp h.1 h.2
  | status _ _ => exact hp
  | reduce _ => exact health_reduceHealth_pos _ hfit hp
  | copy h _ =>
    obtain ⟨rfl, -⟩ := h
    rw [health_copyStats]
    exact hp
  | borrow _ _ => exact hp
  | useUp => exact hp
  | bump _ => exact hp

theorem health_newcomer_pos (hc : c.IsModerate) {p : Pet}
    (h : Newcomer c (livelyScope pending) p) : 0 < p.health := by
  have override {request : Summons} (ha : Asked c (livelyScope pending) request) :
      ∀ h, request.health = some h → 1 ≤ h := by
    cases ha with
    | named h => exact h.1
    | random h _ => exact h.1
    | again h _ =>
      rintro health hh
      cases hh
      exact h.1
  cases h with
  | plain ha hk => exact Summons.health_pet_pos (hc.base _ _ hk) (override ha)
  | inheriting ha hk _ => exact Summons.health_pet_pos (hc.base _ _ hk) (override ha)

theorem editInvariant_settling (pending : List PetId) (c : Catalog) :
    EditInvariant (livelyScope pending) c (Board.Settling pending) where
  known _ _ _ _ _ := trivial
  edit _ hb _ hf id := hb.modifyPet id (fun _ => fitHealth_edit hf) fun _ _ => health_edit_pos hf

theorem elementary_settling (pending : List PetId) (c : Catalog) :
    Elementary (livelyScope pending) c (.same anyway)
      (Same (BoardInvariant.holds (Board.Settling pending))) :=
  BoardInvariant.elementary (editInvariant_settling pending c) fun _ _ _ _ => trivial

/-! ## A round of hits -/

abbrev settled (pending : List PetId) : Arena → Prop :=
  BoardInvariant.holds (Board.Settling pending)

/-- The victims of hits that are still to be followed up. -/
def victims : List Hit → List PetId
  | [] => []
  | hit :: rest => if 0 < hit.lost then hit.target :: victims rest else victims rest

theorem victims_cons (hit : Hit) (rest : List Hit) :
    victims (hit :: rest) = if 0 < hit.lost then hit.target :: victims rest else victims rest := rfl

theorem length_victims_le (hits : List Hit) : (victims hits).length ≤ hits.length := by
  induction hits with
  | nil => exact Nat.le_refl _
  | cons hit rest ih =>
    rw [victims_cons]
    split
    · exact Nat.succ_le_succ ih
    · exact Nat.le_succ_of_le ih

/-- Only a hit that costs health can leave a pet without any. -/
theorem settling_takeDamage {b : Board} (h : b.Settling pending) (target : PetId) (damage : Int)
    {lost : Int} (hl : lost = match b.pet? target with
      | some pet => pet.healthLost damage
      | none => 0) :
    (b.modifyPet target (Pet.takeDamage damage)).Settling
      (if 0 < lost then target :: pending else pending) := by
  have fit : ∀ p : Pet, p.FitHealth → (p.takeDamage damage).FitHealth := fun p _ =>
    Pet.fitHealth_setHealth _ p
  split
  · exact h.strike target fit
  · rename_i hlost
    refine h.modifyPet target fit fun pet hpet hfit hpos => ?_
    rw [hpet] at hl
    have cost : lost = pet.health - (pet.takeDamage damage).health :=
      hl.trans (Pet.healthLost_eq hfit damage)
    omega

theorem settled_applyHits (aims : List Aim) (pending : List PetId) :
    Triple anyway (settled pending) (applyHits aims)
      fun hits s => hits.length = aims.length ∧ settled (victims hits ++ pending) s := by
  induction aims generalizing pending with
  | nil => exact couples_pure _ fun s t hst => ⟨hst.1, rfl, hst.2⟩
  | cons aim rest ih =>
    have strike (before : Option Pet) (lost : Int) (hl : lost = match before with
          | some pet => pet.healthLost aim.damage
          | none => 0) :
        Triple anyway (fun s => settled pending s ∧ before = s.board.pet? aim.target)
          (do
            modifyPet aim.target (Pet.takeDamage aim.damage)
            let hits ← applyHits rest
            pure (⟨aim.attack.attacker, aim.attack.side, aim.target, lost⟩ :: hits))
          fun hits s => hits.length = (aim :: rest).length ∧ settled (victims hits ++ pending) s := by
      refine Couples.bind (Q := fun _ => Same (settled (if 0 < lost then aim.target :: pending else
        pending))) ?_ fun _ => ?_
      · apply Triple.intro
        rintro s ⟨hs, rfl⟩
        exact settling_takeDamage hs aim.target aim.damage hl
      · refine Couples.bind (ih _) fun hits => couples_pure _ fun s t hst => ?_
        obtain ⟨rfl, hlength, hs⟩ := hst
        refine ⟨rfl, congrArg Nat.succ hlength, Board.Settling.mono hs fun id hid => ?_⟩
        rw [victims_cons]
        by_cases hpos : 0 < lost
        · rw [if_pos hpos] at hid ⊢
          simp only [List.mem_append, List.mem_cons] at hid ⊢
          tauto
        · rw [if_neg hpos] at hid ⊢
          exact hid
    refine Couples.bind (Q := fun before => Same fun s => settled pending s ∧
      before = s.board.pet? aim.target) (Triple.intro fun s hs => ⟨hs, rfl⟩) fun before => ?_
    cases before with
    | none => exact strike none 0 rfl
    | some pet => exact strike (some pet) _ rfl

/-- Every event leaves the pets that were pending when it was told, if they are few. -/
def Settles (raise : Raise) : Prop :=
  ∀ pending : List PetId, pending.length ≤ 1 → ∀ event, pending = [] ∨ event.IsCalm →
    Triple anyway (settled pending) (raise event) fun _ => settled pending

theorem isCalm_attackEvent {trigger : Trigger} (h : ¬ trigger.IsLoud) (side : Side) (source : PetId)
    (lines : Sides (List PetId)) : (attackEvent trigger side source lines).IsCalm :=
  Event.isCalm_of_no_cause h rfl

/-- The victim of a hit is up again, or leaves before anyone hears of it. -/
theorem settled_followUp (h : Settles raise) (lines : Sides (List PetId)) (hit : Hit)
    (rest : List Hit) (hr : rest.length ≤ 1) :
    Triple anyway (settled (victims (hit :: rest))) (followUp raise lines hit)
      fun _ => settled (victims rest) := by
  have few := Nat.le_trans (length_victims_le rest) hr
  have tell (trigger : Trigger) (ht : ¬ trigger.IsLoud) (side : Side) (source : PetId) :=
    h (victims rest) few _ (.inr (isCalm_attackEvent ht side source lines))
  rw [victims_cons]
  unfold followUp
  by_cases hlost : hit.lost ≤ 0
  · rw [if_pos hlost, if_neg (Int.not_lt.2 hlost)]
    exact keeps_pure _
  · rw [if_neg hlost, if_pos (Int.not_le.1 hlost)]
    refine Couples.bind (Q := fun b => Same fun s => settled (hit.target :: victims rest) s ∧
      s.board = b) (Triple.intro fun s hs => ⟨hs, rfl⟩) fun b => ?_
    split
    · rename_i hnone
      refine couples_pure _ fun s t hst => ⟨hst.1, ?_⟩
      obtain ⟨_, hs, rfl⟩ := hst
      exact hs.forget fun pet hpet => by simp [Board.pet?, hnone] at hpet
    · rename_i target htarget
      split
      · rename_i halive
        refine (tell .hurt (by simp [Trigger.IsLoud]) _ _).weaken (fun _ _ he => he) ?_ fun _ _ hs => hs
        rintro s ⟨hs, rfl⟩
        refine hs.forget fun pet hpet => ?_
        rw [Board.pet?, htarget] at hpet
        cases hpet
        exact .inr (by simpa [Pet.isAlive] using halive)
      · refine Couples.bind (Q := fun _ => Same (settled (victims rest))) ?_ fun removed => ?_
        · apply Triple.intro
          rintro s ⟨hs, rfl⟩
          unfold Resolve.remove
          cases hb : s.board.remove? hit.target with
          | none => exact hs.forget fun _ _ => .inl (Board.not_mem_of_remove? hb hs.wellFormed)
          | some b' =>
            obtain ⟨side, hl⟩ := Board.leaves_of_remove? hb
            exact hs.leave hl
        · split
          · refine Couples.bind (tell .faint (by simp [Trigger.IsLoud]) _ _) fun _ => ?_
            exact tell .knockout (by simp [Trigger.IsLoud]) _ _
          · exact keeps_pure _

theorem settled_followUps (h : Settles raise) (lines : Sides (List PetId)) (hits : List Hit)
    (hlength : hits.length ≤ 2) :
    Triple anyway (settled (victims hits)) (forEach hits (followUp raise lines))
      fun _ => settled [] := by
  induction hits with
  | nil => exact keeps_pure _
  | cons hit rest ih =>
    have hr : rest.length ≤ 1 := Nat.le_of_succ_le_succ hlength
    exact Couples.bind (settled_followUp h lines hit rest hr) fun _ => ih (Nat.le_succ_of_le hr)

theorem settled_playRound (h : Settles raise) (attacks : List Attack) (ha : attacks.length ≤ 2)
    (lines : Sides (List PetId)) (slot : Nat) :
    Triple anyway (settled []) (playRound rules raise attacks lines slot) fun _ => settled [] := by
  refine Yields.bind (yields_aim (elementary_settling [] rules.catalog) rfl slot attacks)
    fun aims haims => ?_
  refine Couples.bind (settled_applyHits aims []) fun hits => ?_
  constructor
  rintro s t ⟨rfl, hlength, hs⟩
  rw [List.append_nil] at hs
  exact (settled_followUps h lines hits (by omega)).agree s s ⟨rfl, hs⟩

theorem settled_playAttacks (h : Settles raise) (attacks : List Attack) (ha : attacks.length ≤ 2) :
    Triple anyway (settled []) (playAttacks rules raise attacks) fun _ => settled [] := by
  apply keeps_playAttacks_of_rounds (elementary_settling [] rules.catalog)
  · intro side attacker trigger _
    exact h [] (Nat.zero_le 1) _ (.inl rfl)
  · intro played hplayed lines _ slot
    exact settled_playRound h played (Nat.le_trans hplayed.length_le ha) lines slot

/-! ## Whole battles -/

theorem telling_settled (rules : Rules) (hc : rules.catalog.IsModerate) (h : Settles raise)
    (hp : pending.length ≤ 1) :
    Telling (livelyScope pending) rules rules raise raise (.same anyway) (Same (settled pending)) where
  play event he _ htrigger attacker side targets damage := by
    rcases he with rfl | hcalm
    · exact settled_playAttacks h _ (Nat.le_succ 1)
    · exact absurd htrigger ((Event.isCalm_iff event).1 hcalm).1
  teach event he amount target _ id := by
    refine keeps_teach (elementary_settling pending rules.catalog) (fun _ => ?_) (fun level => ?_)
      fun side => ?_
    · exact Triple.intro fun s hs =>
        hs.modifyPet id (fun _ => Pet.fitHealth_gainPoint) fun _ _ => Pet.health_gainPoint_pos
    · exact Triple.intro fun s hs => hs.modifyPet id (fun _ hf => hf) fun _ _ _ hpos => hpos
    · exact h pending hp _ (.inr (event.isCalm_followUp side id (by simp [Trigger.IsLoud])))
  bringIn event he pet hpet side _ placement copies := by
    refine keeps_bringIn (triple_spawn (fun s hs id b ha => ?_) placement) (fun id => ?_) copies
    · exact hs.arrive hp (fitHealth_newcomer hpet) (health_newcomer_pos hc hpet) ha
    · exact h pending hp _ (.inr (event.isCalm_followUp side id (by simp [Trigger.IsLoud])))
  evolve into kind _ hk id :=
    triple_replace fun _ hs _ _ _ he =>
      hs.exchange (Pet.fitHealth_setHealth _ (.ofKind kind))
        (Pet.health_ofKind_pos (hc.base into kind hk)) he
  cast event he _ _ _ caster side := by
    refine h pending hp _ (he.imp_right fun hcalm => ?_)
    exact Event.isCalm_castEvent hcalm caster side

/-- By induction on the room for nesting: no event leaves more behind than it found. -/
theorem settles_dispatchIn (rules : Rules) (hc : rules.catalog.IsModerate) (room : Nat) :
    Settles (dispatchIn rules room) := by
  induction room with
  | zero =>
    intro pending _ event _
    exact couples_fail fun s t hst => ⟨hst.1, trivial⟩
  | succ room ih =>
    intro pending hp event he
    have elementary := elementary_settling pending rules.catalog
    have telling := telling_settled rules hc ih hp
    have covers := covers_livelyScope hc pending
    have guarding : Guarding rules rules (.same anyway) (Same (settled pending)) :=
      BoardInvariant.guarding rules (fun _ _ _ _ => trivial) fun _ _ _ _ => trivial
    refine Couples.bind guarding.count fun _ => guarding.nested _ _ ?_
    exact keeps_notifyAll elementary telling covers rfl (acts_perform elementary telling covers rfl)
      guarding.toRecording he

namespace Battle

variable {teams : Sides Team} {b : Battle}

/-- The pets that are sent into battle are alive and have no more health than clamping leaves. -/
def FitHealth (teams : Sides Team) : Prop :=
  ∀ side, ∀ pet ∈ (teams.get side).pets, 1 ≤ pet.health ∧ pet.health ≤ maxHealth

theorem settling_enlist {board : Board} (h : board.Settling []) (side : Side) {pets : List Pet}
    (hp : ∀ pet ∈ pets, pet.FitHealth ∧ 0 < pet.health) : (board.enlist side pets).Settling [] :=
  Board.enlist_induction h fun _ pet _ _ hb hm ha =>
    hb.arrive (Nat.zero_le 1) (hp pet hm).1 (hp pet hm).2 ha

theorem copies_fit (ht : FitHealth teams) (side : Side) :
    ∀ pet ∈ (teams.get side).pets.map Pet.battleCopy, pet.FitHealth ∧ 0 < pet.health := by
  intro pet hm
  obtain ⟨old, hold, rfl⟩ := List.mem_map.1 hm
  obtain ⟨least, most⟩ := ht side old hold
  exact ⟨⟨Int.le_trans (by decide) least, most⟩, Int.lt_of_lt_of_le (by decide) least⟩

theorem settling_ofTeams (ht : FitHealth teams) : (Board.ofTeams teams).Settling [] := by
  have empty : Board.empty.Settling [] := by
    refine ⟨Board.wellFormed_empty, Board.allPets_empty _, fun side id pet hm _ => ?_, fun side => ?_⟩
    · cases side <;> cases hm
    · cases side <;> exact Nat.zero_le _
  exact settling_enlist (settling_enlist empty .a (copies_fit ht .a)) .b (copies_fit ht .b)

/-- After a call that succeeded no pet in line lacks health. -/
theorem settling_of_sound (hc : rules.catalog.IsModerate) (ht : FitHealth teams)
    (h : Sound rules teams b) : b.arena.board.Settling [] := by
  have settles := settles_dispatchIn rules hc rules.config.maxDispatchDepth
  have plays : PlaysPairs rules anyway (settled []) :=
    fun attacks ha => settled_playAttacks settles attacks ha
  refine h.induct (I := settled []) (keeps_opening plays (fun _ hs => hs) fun side => ?_)
    (keeps_attackCycle plays fun _ hs => hs) (settling_ofTeams ht)
  exact settles [] (Nat.zero_le 1) _ (.inl rfl)

end Battle

/-! ## Pets in line -/

theorem isLively_rescueCatalog {call heal : Effect} (hc : call.Every Effect.IsLively)
    (hh : heal.Every Effect.IsLively) : (rescueCatalog call heal).IsLively where
  base id kind h := by
    rcases eq_of_petKind_rescueCatalog h with rfl | rfl
    · show (1 : Int) ≤ 5
      decide
    · exact Int.le_refl 1
  effects := every_rescueCatalog hc hh

theorem isModerate_rescueCatalog {call heal : Effect}
    (hc : call.Every fun e => e.IsLively ∧ e.GainsAtMost Pet.maxGain)
    (hh : heal.Every fun e => e.IsLively ∧ e.GainsAtMost Pet.maxGain) :
    (rescueCatalog call heal).IsModerate where
  toIsLively := isLively_rescueCatalog (hc.imp fun _ => And.left) (hh.imp fun _ => And.left)
  gains := every_rescueCatalog (hc.imp fun _ => And.right) (hh.imp fun _ => And.right)

theorem isLively_healSelf : healSelf.IsLively ∧ healSelf.GainsAtMost Pet.maxGain :=
  ⟨Int.le_of_lt Int.zero_lt_one, (by decide : (1 : Int) ≤ Pet.maxGain)⟩

theorem isModerate_callAnt : (rescueCatalog callAnt healSelf).IsModerate :=
  isModerate_rescueCatalog ⟨⟨nofun, trivial⟩, trivial⟩ ⟨isLively_healSelf, trivial⟩

theorem fit_rescueTeams (call heal : Effect) : Battle.FitHealth (rescueTeams call heal) := by
  intro side
  cases side <;> exact of_decide_eq_true rfl

/-! ## Gains that overrun health -/

/-- Whatever lively battle is fought over gains of at most so much, pets in line have health. -/
def KeepsHealth (most : Int) : Prop :=
  ∀ (rules : Rules) (teams : Sides Team) (b : Battle), rules.catalog.IsLively →
    rules.catalog.Every (Effect.GainsAtMost most) → Battle.FitHealth teams → Battle.Sound rules teams b →
    ∀ side, ∀ id ∈ b.arena.board.roster side,
      ∃ pet, b.arena.board.pet? id = some pet ∧ 1 ≤ pet.health

theorem keepsHealth_maxGain : KeepsHealth Pet.maxGain := by
  intro rules teams b hc hg ht hb side id hm
  have settling := Battle.settling_of_sound ⟨hc, hg⟩ ht hb
  obtain ⟨pet, hpet⟩ := settling.pet?_isSome hm
  refine ⟨pet, hpet, ?_⟩
  rcases settling.alive side id pet hm hpet with hpos | pending
  · exact hpos
  · cases pending

/-- At the start of a battle it gains one more point than fits beside its fifty. -/
def glutton : PetKind :=
  ⟨⟨"pet-glutton"⟩, "pet-glutton", 1, 1, 50, [],
    some ⟨"", .startOfBattle, .player, .modifyStats 0 (Pet.maxGain + 1) .self false, none⟩, none, none⟩

def gluttonRules : Rules := ⟨.ofLists [glutton] [] [], { recordEvents := true }⟩

def gluttonTeams : Sides Team := ⟨.ofPets [.ofKind glutton], .ofPets [.ofKind glutton]⟩

/-- The battle of two gluttons after its start. -/
def overfed : Except EngineError Unit × Battle :=
  (Battle.ofTeams gluttonRules.config gluttonTeams).start gluttonRules

theorem every_gluttonCatalog {p : Effect → Prop}
    (hp : p (.modifyStats 0 (Pet.maxGain + 1) .self false)) : gluttonRules.catalog.Every p := by
  apply Catalog.every_ofLists
  · intro kind hm ability ha
    obtain rfl := List.mem_singleton.1 hm
    simp only [glutton, List.mem_cons, Option.some.injEq, reduceCtorEq, List.not_mem_nil,
      or_false] at ha
    rw [ha]
    exact ⟨hp, trivial⟩
  · exact nofun
  · exact nofun

theorem isLively_gluttonCatalog : gluttonRules.catalog.IsLively where
  base id kind h := by
    have hm := Table.mem_of_getElem?_ofValues PetKind.id (Catalog.petKind_eq_ok.1 h)
    obtain rfl := List.mem_singleton.1 hm
    show (1 : Int) ≤ 50
    decide
  effects := every_gluttonCatalog (by decide : (0 : Int) ≤ Pet.maxGain + 1)

theorem fit_gluttonTeams : Battle.FitHealth gluttonTeams := by
  intro side
  cases side <;> exact of_decide_eq_true rfl

/-- Both stand in line, with no health left. -/
theorem sound_overfed : Battle.Sound gluttonRules gluttonTeams overfed.2 ∧
    overfed.2.arena.board.roster .a = [⟨0⟩] ∧
    (overfed.2.arena.board.pet? ⟨0⟩).map (·.health) = some 0 := by
  have started : overfed.1 = .ok () := by decide +kernel
  have run : overfed = (.ok (), overfed.2) := by rw [← started]
  exact ⟨.start .new run, by decide +kernel, by decide +kernel⟩

/-- Gains keep pets alive exactly if they are not so great that a pet of fifty health overruns. -/
theorem keepsHealth_iff (most : Int) : KeepsHealth most ↔ most ≤ Pet.maxGain := by
  constructor
  · intro keeps
    by_contra hnot
    have much : Pet.maxGain + 1 ≤ most := Int.not_le.1 hnot
    obtain ⟨sound, line, health⟩ := sound_overfed
    have stands : ⟨0⟩ ∈ overfed.2.arena.board.roster .a := line ▸ List.mem_cons_self
    obtain ⟨pet, hpet, hpos⟩ := keeps gluttonRules gluttonTeams overfed.2 isLively_gluttonCatalog
      (every_gluttonCatalog much) fit_gluttonTeams sound .a ⟨0⟩ stands
    rw [hpet, Option.map_some, Option.some.injEq] at health
    omega
  · intro few rules teams b hc hg
    refine keepsHealth_maxGain rules teams b hc fun ability ho => (hg ability ho).imp fun e he => ?_
    cases e with
    | modifyStats attack health target temporary => exact Int.le_trans he few
    | _ => trivial

end AutoBattler
