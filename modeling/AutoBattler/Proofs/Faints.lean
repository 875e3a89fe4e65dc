import AutoBattler.Proofs.Discretion

/-!
# Pets that have fainted

A pet is taken off its line before its faint is told, and a number never returns to a line. So it
faints once, and whatever is told of it later is discreet. The hit before has clamped its health, so
it has none left and gets none back unless an effect heals. In a battle whose calls succeeded each
faint is followed by its knockout.
-/
namespace AutoBattler

open Resolve

/-! ## Arenas -/

/-- If pets are to lie `still` no effect heals. -/
def stillScope (still : Prop) : Scope := ⟨fun _ => True, fun e => still → ¬ e.Healing, fun _ => True⟩

/-- Where a pet was hit. -/
theorem Board.petAt_takeDamage (b : Board) (id : PetId) (amount : Int) :
    (b.modifyPet id (Pet.takeDamage amount)).PetAt Pet.FitHealth id := by
  intro pet hpet
  rw [pet?_modifyPet, if_pos rfl] at hpet
  obtain ⟨old, _, rfl⟩ := Option.map_eq_some_iff.1 hpet
  exact Pet.fitHealth_setHealth _ old

namespace Arena

/-- The log is discreet, and the pets that have fainted are gone. -/
structure IsDiscreet (still : Prop) (s : Arena) : Prop where
  enabled : s.log.enabled = true
  wellFormed : s.board.WellFormed
  gone : ∀ id, Fainted s.log.headings id → s.board.Gone id
  dead : still → ∀ id, Fainted s.log.headings id → ∀ pet, s.board.pet? id = some pet →
    pet.health = 0
  log : s.log.IsDiscreet still

/-- The log goes on, and pets whose health is as clamping leaves it keep it so. -/
structure Continues (s t : Arena) : Prop where
  told : s.log.headings <+: t.log.headings
  fit : ∀ id, s.board.PetAt Pet.FitHealth id → t.board.PetAt Pet.FitHealth id

/-- The arena is discreet, and goes on from an earlier one. -/
structure DiscreetSince (still : Prop) (s t : Arena) : Prop where
  discreet : t.IsDiscreet still
  continues : s.Continues t

variable {still : Prop} {s t u : Arena} {event : Event}

theorem Continues.refl (s : Arena) : s.Continues s := ⟨List.prefix_rfl, fun _ h => h⟩

theorem Continues.trans (h : s.Continues t) (h' : t.Continues u) : s.Continues u :=
  ⟨h.told.trans h'.told, fun id hs => h'.fit id (h.fit id hs)⟩

theorem IsDiscreet.since (h : s.IsDiscreet still) : DiscreetSince still s s := ⟨h, .refl s⟩

/-- A change of the arena that leaves the log and the board as they are. -/
theorem IsDiscreet.congr (h : s.IsDiscreet still) (hl : t.log = s.log) (hb : t.board = s.board) :
    t.IsDiscreet still where
  enabled := hl ▸ h.enabled
  wellFormed := hb ▸ h.wellFormed
  gone := by
    rw [hl, hb]
    exact h.gone
  dead := by
    rw [hl, hb]
    exact h.dead
  log := hl ▸ h.log

theorem IsDiscreet.modifyPet (h : s.IsDiscreet still) (id : PetId) {f : Pet → Pet}
    (hf : still → ∀ p, p.health = 0 → (f p).health = 0) :
    IsDiscreet still { s with board := s.board.modifyPet id f } where
  enabled := h.enabled
  wellFormed := h.wellFormed.modifyPet id f
  gone x hx := ⟨(h.gone x hx).placed, (h.gone x hx).off⟩
  dead hs x hx pet hpet := by
    obtain ⟨old, hold, rfl | ⟨_, rfl⟩⟩ := Board.pet?_of_modifyPet hpet
    · exact h.dead hs x hx _ hold
    · exact hf hs old (h.dead hs x hx old hold)
  log := h.log

theorem IsDiscreet.stores (h : s.IsDiscreet still) {b : Board} {side : Side} {pet : Pet} {id : PetId}
    (hs : s.board.Stores side pet id b) (hw : b.WellFormed) (hg : ∀ x, s.board.Gone x → b.Gone x) :
    IsDiscreet still { s with board := b } where
  enabled := h.enabled
  wellFormed := hw
  gone x hx := hg x (h.gone x hx)
  dead hstill x hx p hp := by
    rw [hs.pet?, if_neg ((h.gone x hx).ne_of_stores hs)] at hp
    exact h.dead hstill x hx p hp
  log := h.log

theorem IsDiscreet.leave (h : s.IsDiscreet still) {b : Board} {side : Side} {id : PetId}
    (hl : s.board.Leaves id side b) : IsDiscreet still { s with board := b } where
  enabled := h.enabled
  wellFormed := hl.wellFormed h.wellFormed
  gone x hx := (h.gone x hx).leave hl
  dead hstill x hx p hp := h.dead hstill x hx p (hl.pet? x ▸ hp)
  log := h.log

/-- A pet in line has not fainted. -/
theorem IsDiscreet.not_fainted (h : s.IsDiscreet still) {side : Side} {id : PetId}
    (hm : id ∈ s.board.roster side) : ¬ Fainted s.log.headings id := fun hf =>
  (h.gone id hf).off side hm

theorem DiscreetSince.trans (h : DiscreetSince still s t) (h' : DiscreetSince still t u) :
    DiscreetSince still s u := ⟨h'.discreet, h.continues.trans h'.continues⟩

theorem DiscreetSince.congr (h : DiscreetSince still s t) (hl : u.log = t.log)
    (hb : u.board = t.board) : DiscreetSince still s u :=
  ⟨h.discreet.congr hl hb, hl ▸ h.continues.told, hb ▸ h.continues.fit⟩

theorem DiscreetSince.modifyPet (h : DiscreetSince still s t) (id : PetId) {f : Pet → Pet}
    (hf : still → ∀ p, p.health = 0 → (f p).health = 0) (hfit : ∀ p, p.FitHealth → (f p).FitHealth) :
    DiscreetSince still s { t with board := t.board.modifyPet id f } :=
  ⟨h.discreet.modifyPet id hf, h.continues.told, fun x hx => (h.continues.fit x hx).modifyPet id hfit⟩

theorem DiscreetSince.edit {c : Catalog} {f : Pet → Pet} (h : DiscreetSince still s t)
    (hf : Edit c (stillScope still) f) (id : PetId) :
    DiscreetSince still s { t with board := t.board.modifyPet id f } := by
  refine h.modifyPet id (fun hs p => ?_) fun p => fitHealth_edit hf
  exact health_eq_zero_of_edit (S := stillScope still) (fun _ he => he hs) hf

theorem DiscreetSince.stores (h : DiscreetSince still s t) {b : Board} {side : Side} {pet : Pet}
    {id : PetId} (hs : t.board.Stores side pet id b) (hw : b.WellFormed)
    (hg : ∀ x, t.board.Gone x → b.Gone x) (hp : pet.FitHealth) :
    DiscreetSince still s { t with board := b } :=
  ⟨h.discreet.stores hs hw hg, h.continues.told, fun x hx => (h.continues.fit x hx).stores hs hp⟩

theorem DiscreetSince.leave (h : DiscreetSince still s t) {b : Board} {side : Side} {id : PetId}
    (hl : t.board.Leaves id side b) : DiscreetSince still s { t with board := b } :=
  ⟨h.discreet.leave hl, h.continues.told, fun x hx => (h.continues.fit x hx).leave hl⟩

end Arena

namespace Resolve

open Arena (IsDiscreet DiscreetSince)

variable {still : Prop} {s t : Arena} {rules : Rules} {raise : Raise} {event : Event}

/-- The pet is gone, and if pets are to lie still it has no health. -/
def GoneAndDead (still : Prop) (s : Arena) (id : PetId) : Prop :=
  s.board.Gone id ∧ (still → ∀ pet, s.board.pet? id = some pet → pet.health = 0)

/-- What holds before an event is told, so that its record may stand in the log. -/
structure Allowed (still : Prop) (event : Event) (s : Arena) : Prop where
  discreet : ∀ id, Fainted s.log.headings id →
    Discreet still s.log.headings (event.record (s.nesting + 1)) id
  faints : event.trigger = .faint → ∀ id, event.source = some id → GoneAndDead still s id

/-- The record of an event that has reached no one yet. -/
theorem discreet_record {earlier : List EventRecord} {depth : Nat} {id : PetId}
    (attacks : event.trigger = .beforeAttack ∨ event.trigger = .afterAttack →
      event.source ≠ some id)
    (faints : event.trigger = .faint → event.source ≠ some id)
    (hurts : event.trigger = .hurt → event.source = some id →
      ¬ still ∧ JustFainted depth earlier id) : Discreet still earlier (event.record depth) id where
  faint h := faints h.1 h.2
  before h := attacks (.inl h.1) h.2
  after h := attacks (.inr h.1) h.2
  notified := nofun
  hurt h := hurts h.1 h.2

theorem allowed_of_isPlain (h : Trigger.IsPlain event.trigger) : Allowed still event s where
  discreet _ _ := discreet_record (fun ha => (ha.elim h.2.2.1 h.2.2.2).elim)
    (fun hf => absurd hf h.1) fun hh => absurd hh h.2.1
  faints hf := absurd hf h.1

/-- A pet in line may attack. -/
theorem allowed_attack (h : s.IsDiscreet still) {attacker : PetId} {side : Side} {trigger : Trigger}
    (ht : trigger = .beforeAttack ∨ trigger = .afterAttack)
    (halive : s.board.isAlive attacker = true) :
    Allowed still ((Event.battle trigger side).withSource attacker) s := by
  refine ⟨fun id hf => ?_, by rcases ht with rfl | rfl <;> nofun⟩
  refine discreet_record (fun _ hid => ?_) ?_ ?_
  · cases hid
    rw [(h.gone _ hf).not_isAlive] at halive
    cases halive
  · rcases ht with rfl | rfl <;> nofun
  · rcases ht with rfl | rfl <;> nofun

/-- Telling an event that is allowed keeps the log discreet. -/
def TellsDiscreetly (still : Prop) (raise : Raise) : Prop :=
  ∀ event s, s.IsDiscreet still → Allowed still event s →
    Ends (fun _ => IsDiscreet still) (fun _ => DiscreetSince still s) (raise event s)

theorem TellsDiscreetly.since (h : TellsDiscreetly still raise) (ht : DiscreetSince still s t)
    (ha : Allowed still event t) :
    Ends (fun _ => IsDiscreet still) (fun _ => DiscreetSince still s) (raise event t) :=
  (h event t ht.discreet ha).weaken (fun _ _ he => he) fun _ _ hu => ht.trans hu

theorem TellsDiscreetly.plain (h : TellsDiscreetly still raise)
    (hp : Trigger.IsPlain event.trigger) :
    Triple (fun _ => IsDiscreet still) (DiscreetSince still s) (raise event)
      fun _ => DiscreetSince still s :=
  Triple.intro fun _ hs => h.since hs (allowed_of_isPlain hp)

/-! ## Steps that tell nothing -/

theorem elementary_discreet (still : Prop) (s : Arena) (c : Catalog) :
    Elementary (stillScope still) c (.same fun _ => IsDiscreet still)
      (Same (DiscreetSince still s)) :=
  elementary_of_congr (fun _ _ _ _ _ => trivial) (fun _ _ ht hl _ _ hb => ht.congr hl hb)
    (fun _ ht _ hf id => ht.edit hf id) fun _ _ _ ht => ht.discreet

/-! ## Follow-ups -/

/-- If the pet has fainted, it did so just now. -/
def FaintedOnlyNow (id : PetId) (s : Arena) : Prop :=
  Fainted s.log.headings id → JustFainted (s.nesting + 1) s.log.headings id

theorem discreet_followUp (h : TellsDiscreetly still raise) (lines : Sides (List PetId)) (hit : Hit)
    (hs : s.IsDiscreet still) (only : FaintedOnlyNow hit.target s)
    (fit : s.board.PetAt Pet.FitHealth hit.target) :
    Ends (fun _ => IsDiscreet still) (fun _ => DiscreetSince still s)
      (followUp raise lines hit s) := by
  unfold followUp
  by_cases hlost : hit.lost ≤ 0
  · rw [if_pos hlost]
    exact hs.since
  · rw [if_neg hlost, bind_run]
    dsimp only [board, look]
    cases htarget : s.board.entrant? hit.target with
    | none => exact hs.since
    | some target =>
      have hpet : s.board.pet? hit.target = some target.pet := Board.pet?_of_entrant? htarget
      dsimp only
      by_cases halive : target.pet.isAlive = true
      · rw [if_pos halive]
        have hpos : 0 < target.pet.health := of_decide_eq_true halive
        refine h _ s hs ⟨fun id hf => discreet_record (by rintro (h | h) <;> cases h)
          (by rintro ⟨⟩) fun _ hid => ?_, by rintro ⟨⟩⟩
        cases hid
        refine ⟨fun hstill => ?_, only hf⟩
        rw [hs.dead hstill _ hf _ hpet] at hpos
        exact Int.lt_irrefl 0 hpos
      · rw [if_neg halive, bind_run]
        have hdead : target.pet.health = 0 := by
          have hnot : ¬ 0 < target.pet.health := fun hpos => halive (decide_eq_true hpos)
          exact Int.le_antisymm (Int.not_lt.1 hnot) (fit _ hpet).1
        unfold Resolve.remove
        cases hb : s.board.remove? hit.target with
        | none => exact hs.since
        | some b =>
          obtain ⟨side, hl⟩ := Board.leaves_of_remove? hb
          have hline : hit.target ∈ s.board.roster side := by
            obtain ⟨_, hstands, _⟩ := hl.line
            exact List.mem_of_getElem? hstands.place
          have faint : Allowed still (attackEvent .faint target.side hit.target lines)
              { s with board := b } := by
            constructor
            · refine fun id hf => discreet_record (by rintro (h | h) <;> cases h) (fun _ hid => ?_)
                (by rintro ⟨⟩)
              cases hid
              exact hs.not_fainted hline hf
            · rintro _ id hid
              cases hid
              refine ⟨hl.gone hs.wellFormed, fun _ pet hp => ?_⟩
              rw [hl.pet?, hpet] at hp
              cases hp
              exact hdead
          refine (h.since (hs.since.leave hl) faint).bind fun _ t ht => ?_
          exact h.since ht (allowed_of_isPlain ⟨by rintro ⟨⟩, by rintro ⟨⟩, by rintro ⟨⟩, by rintro ⟨⟩⟩)

/-- Of at most two victims that stood in line, the second may have fainted with the first. -/
theorem discreet_followUps (h : TellsDiscreetly still raise) (ht : Tells raise)
    (lines : Sides (List PetId)) {hits : List Hit} (hlength : hits.length ≤ 2)
    (hs : s.IsDiscreet still) (hv : ∀ hit ∈ hits, ¬ Fainted s.log.headings hit.target)
    (hfit : ∀ hit ∈ hits, s.board.PetAt Pet.FitHealth hit.target) :
    Ends (fun _ => IsDiscreet still) (fun _ => DiscreetSince still s)
      (forEach hits (followUp raise lines) s) := by
  match hits with
  | [] => exact hs.since
  | [hit] =>
    have only : FaintedOnlyNow hit.target s := fun hf => absurd hf (hv hit List.mem_cons_self)
    have fit := hfit hit List.mem_cons_self
    exact (discreet_followUp h lines hit hs only fit).bind fun _ t ht => ht
  | [hit, second] =>
    have only : FaintedOnlyNow hit.target s := fun hf => absurd hf (hv hit List.mem_cons_self)
    have fit := hfit hit List.mem_cons_self
    have first := (discreet_followUp h lines hit hs only fit).and (ends_followUp ht lines hit s)
    refine (first.weaken (fun _ _ he => he.1) fun _ _ ht => ht).bind fun _ t ht => ?_
    obtain ⟨since, hgrown⟩ := ht
    have later : second ∈ [hit, second] := List.mem_cons_of_mem _ List.mem_cons_self
    have only' : FaintedOnlyNow second.target t := by
      intro hf
      obtain ⟨more, aftermath, hlog⟩ := hgrown.headings hs.enabled
      rw [hlog] at hf ⊢
      rw [hgrown.nesting]
      exact aftermath.justFainted ((fainted_append.1 hf).resolve_left (hv second later)) _
    have fit' := since.continues.fit _ (hfit second later)
    exact (discreet_followUp h lines second since.discreet only' fit').bind fun _ u hu =>
      since.trans hu

/-! ## Attacks -/

theorem discreet_applyHits (hs : s.IsDiscreet still) (aims : List Aim) :
    Ends (fun _ => IsDiscreet still)
      (fun hits t => hits.map (·.target) = aims.map (·.target) ∧ DiscreetSince still s t ∧
        t.log = s.log ∧ ∀ aim ∈ aims, t.board.PetAt Pet.FitHealth aim.target)
      (applyHits aims s) := by
  induction aims generalizing s with
  | nil => exact ⟨rfl, hs.since, rfl, nofun⟩
  | cons aim rest ih =>
    unfold applyHits
    refine Ends.bind (A := fun _ t => t = s) rfl fun before t ht => ?_
    subst ht
    have struck : DiscreetSince still t
        { t with board := t.board.modifyPet aim.target (Pet.takeDamage aim.damage) } :=
      hs.since.modifyPet aim.target (fun _ p hp => Pet.health_takeDamage_of_eq_zero hp _)
        fun p _ => Pet.fitHealth_setHealth _ p
    refine Ends.bind (A := fun _ u => u = { t with
      board := t.board.modifyPet aim.target (Pet.takeDamage aim.damage) }) rfl fun _ u hu => ?_
    subst hu
    refine (ih struck.discreet).bind fun hits v hv => ?_
    obtain ⟨targets, since, hlog, hfit⟩ := hv
    refine ⟨congrArg (aim.target :: ·) targets, struck.trans since, hlog, ?_⟩
    exact List.forall_mem_cons.2 ⟨since.continues.fit _ (Board.petAt_takeDamage _ _ _), hfit⟩

theorem discreet_playRound (h : TellsDiscreetly still raise) (ht : Tells raise)
    (attacks : List Attack) (ha : attacks.length ≤ 2) (lines : Sides (List PetId)) (slot : Nat) :
    Triple (fun _ => IsDiscreet still) (DiscreetSince still s)
      (playRound rules raise attacks lines slot) fun _ => DiscreetSince still s := by
  apply Triple.intro
  intro t hs
  have elementary : Elementary (stillScope still) rules.catalog (.same fun _ => IsDiscreet still)
      (Same fun u => DiscreetSince still t u ∧ u.log = t.log) :=
    elementary_of_congr (fun _ _ _ _ _ => trivial)
      (fun _ _ hu hl _ _ hb => ⟨hu.1.congr hl hb, hl.trans hu.2⟩)
      (fun _ hu _ hf id => ⟨hu.1.edit hf id, hu.2⟩) fun _ _ _ hu => hu.1.discreet
  have aimed := yields_aim_alive (G := fun id => ¬ Fainted t.log.headings id) elementary rfl
    (by
      rintro u _ ⟨rfl, hu, hlog⟩ id halive hf
      rw [← hlog] at hf
      rw [(hu.discreet.gone id hf).not_isAlive] at halive
      cases halive) slot attacks
  refine (triple_iff.1 aimed.triple t ⟨hs.discreet.since, rfl⟩).bind fun aims u hu => ?_
  obtain ⟨⟨hlength, hfresh⟩, haimed, hlog⟩ := hu
  refine (discreet_applyHits haimed.discreet aims).bind fun hits v hv => ?_
  obtain ⟨targets, struck, hlog', hfit⟩ := hv
  have hlog : v.log = t.log := hlog'.trans hlog
  have htwo : hits.length ≤ 2 := by
    have same := congrArg List.length targets
    rw [List.length_map, List.length_map] at same
    exact same ▸ Nat.le_trans hlength ha
  have aimedAt : ∀ hit ∈ hits, ∃ aim ∈ aims, aim.target = hit.target := by
    intro hit hm
    have hm := List.mem_map_of_mem (f := (·.target)) hm
    rw [targets] at hm
    exact List.mem_map.1 hm
  have victims : ∀ hit ∈ hits, ¬ Fainted v.log.headings hit.target := by
    intro hit hm
    obtain ⟨aim, ha, htarget⟩ := aimedAt hit hm
    rw [hlog, ← htarget]
    exact hfresh aim ha
  have fit : ∀ hit ∈ hits, v.board.PetAt Pet.FitHealth hit.target := by
    intro hit hm
    obtain ⟨aim, ha, htarget⟩ := aimedAt hit hm
    exact htarget ▸ hfit aim ha
  have followed := discreet_followUps h ht lines htwo struck.discreet victims fit
  exact followed.weaken (fun _ _ he => he) fun _ w hw => ((hs.trans haimed).trans struck).trans hw

/-- An attack is announced, before or after, if its attacker is in line. -/
theorem discreet_announce (h : TellsDiscreetly still raise) {attack : Attack} {trigger : Trigger}
    (ht : trigger = .beforeAttack ∨ trigger = .afterAttack) {ready : Board → Bool}
    (hready : ∀ b, ready b = true → b.isAlive attack.attacker = true) :
    Triple (fun _ => IsDiscreet still) (DiscreetSince still s)
      (do
        let b ← board
        if ready b then raise ((Event.battle trigger attack.side).withSource attack.attacker))
      fun _ => DiscreetSince still s := by
  apply Triple.intro
  intro t hs
  refine Ends.bind (A := fun b u => b = t.board ∧ u = t) ⟨rfl, rfl⟩ ?_
  rintro _ _ ⟨rfl, rfl⟩
  split
  · rename_i halive
    exact h.since hs (allowed_attack hs.discreet ht (hready _ halive))
  · exact hs

theorem discreet_playAttacks (h : TellsDiscreetly still raise) (ht : Tells raise)
    (attacks : List Attack) (ha : attacks.length ≤ 2) :
    Triple (fun _ => IsDiscreet still) (DiscreetSince still s) (playAttacks rules raise attacks)
      fun _ => DiscreetSince still s := by
  refine keeps_playAttacks_of_parts (elementary_discreet still s rules.catalog)
    (fun attack _ => discreet_announce h (.inl rfl) fun b hb => ?_)
    (fun played hsub lines _ slot => ?_)
    fun attack _ => discreet_announce h (.inr rfl) fun b hb => ?_
  · simp only [Bool.and_eq_true] at hb
    exact hb.1.2
  · exact discreet_playRound h ht played (Nat.le_trans hsub.length_le ha) lines slot
  · simp only [Bool.and_eq_true] at hb
    exact hb.2

/-! ## Whole battles -/

theorem discreet_spawn {side : Side} {pet : Pet} (hp : pet.FitHealth) (placement : Placement) :
    Triple (fun _ => IsDiscreet still) (DiscreetSince still s) (spawn side pet placement)
      fun _ => DiscreetSince still s :=
  triple_spawn (fun _ ht _ _ ha => ht.stores ha.toStores (ha.wellFormed ht.discreet.wellFormed)
    (fun _ hx => hx.arrive ha) hp) placement

theorem discreet_replace (id : PetId) {pet : Pet} (hp : pet.FitHealth) :
    Triple (fun _ => IsDiscreet still) (DiscreetSince still s) (replace id pet)
      fun _ => DiscreetSince still s :=
  triple_replace fun _ ht _ _ _ he => ht.stores he.toStores (he.wellFormed ht.discreet.wellFormed)
    (fun _ hx => hx.exchange he) hp

theorem telling_discreet (rules : Rules) (h : TellsDiscreetly still raise) (ht : Tells raise)
    (s : Arena) :
    Telling (stillScope still) rules rules raise raise (.same fun _ => IsDiscreet still)
      (Same (DiscreetSince still s)) where
  play _ _ _ _ _ _ _ _ := discreet_playAttacks h ht _ (Nat.le_succ 1)
  teach event _ amount _ he id := by
    have levelUp : Trigger.IsPlain .levelUp := by decide
    refine keeps_teach (elementary_discreet still s rules.catalog) (fun hpos => ?_) (fun level => ?_)
      fun side => h.plain levelUp
    · refine Triple.intro fun t ht =>
        ht.modifyPet id (fun hstill => ?_) fun _ => Pet.fitHealth_gainPoint
      exact absurd hpos (he hstill)
    · exact Triple.intro fun t ht => ht.modifyPet id (fun _ _ hp => hp) fun _ hp => hp
  bringIn event _ pet hnew side _ placement copies := by
    have summoned : Trigger.IsPlain .summoned := by decide
    exact keeps_bringIn (discreet_spawn (fitHealth_newcomer hnew) placement)
      (fun id => h.plain summoned) copies
  evolve _ kind _ _ id := discreet_replace id (Pet.fitHealth_setHealth kind.baseHealth (.ofKind kind))
  cast event _ _ _ _ caster side := by
    have castsAbility : Trigger.IsPlain .castsAbility := by decide
    exact h.plain castsAbility

/-- The record of an event that is allowed may stand in the log. -/
theorem isDiscreet_opened (h : s.IsDiscreet still) (ha : Allowed still event s) :
    (s.opened event).IsDiscreet still := by
  have hlog : (s.opened event).log.headings =
      s.log.headings ++ [event.record (s.nesting + 1)] :=
    EventLog.headings_openRecord h.enabled event _
  have dead : ∀ id, Fainted (s.opened event).log.headings id → GoneAndDead still s id := by
    intro id hf
    rw [hlog] at hf
    rcases fainted_append.1 hf with hf | ⟨r, hr, hfaint⟩
    · exact ⟨h.gone id hf, fun hstill => h.dead hstill id hf⟩
    · rw [List.mem_singleton] at hr
      subst hr
      exact ha.faints hfaint.1 id hfaint.2
  exact
    { enabled := (s.log.enabled_openRecord _).trans h.enabled
      wellFormed := h.wellFormed
      gone := fun id hf => (dead id hf).1
      dead := fun hstill id hf => (dead id hf).2 hstill
      log := h.log.openRecord h.enabled ha.discreet }

/-- The pets that an event reached: one that has fainted only if it is the source. -/
theorem isDiscreet_closed (h : s.IsDiscreet still) (ht : DiscreetSince still (s.opened event) t)
    {notified : List PetId}
    (hn : ∀ id ∈ notified, Fainted (s.opened event).log.headings id → event.source = some id) :
    IsDiscreet still (t.closed (s.log.openRecord (event.record (s.nesting + 1))).1 notified) := by
  have hopened : (s.opened event).log.headings = s.log.headings ++ [event.record (s.nesting + 1)] :=
    EventLog.headings_openRecord h.enabled event _
  obtain ⟨discreet, ⟨later, hlog⟩, _⟩ := ht
  rw [hopened] at hn hlog
  have slot : (s.log.openRecord (event.record (s.nesting + 1))).1 = some s.log.headings.length := by
    rw [EventLog.length_headings]
    unfold EventLog.openRecord
    rw [if_pos h.enabled]
  have headings := t.headings_closed (s.log.openRecord (event.record (s.nesting + 1))).1 notified
  constructor
  · rw [Arena.enabled_closed]
    exact discreet.enabled
  · exact discreet.wellFormed
  · rw [headings]
    exact discreet.gone
  · rw [headings]
    exact discreet.dead
  · rw [slot]
    refine discreet.log.setNotified fun r hr id hm hf => ?_
    rw [← hlog, List.append_assoc] at hr hf
    rw [List.take_left] at hf
    rw [List.singleton_append, List.getElem?_append_right (Nat.le_refl _), Nat.sub_self,
      List.getElem?_cons_zero] at hr
    cases hr
    exact hn id hm (hf.append _)

/-- An event reaches a pet that is gone only as its source. -/
theorem source_of_reached? {b : Board} {id : PetId} {pet : Pet} (h : b.Gone id)
    (hr : reached? rules event b id = some pet) : event.source = some id := by
  unfold reached? at hr
  split at hr
  · cases hr
  · rename_i entrant _
    split at hr
    · rename_i hreach
      simp only [Bool.and_eq_true, Bool.or_eq_true, decide_eq_true_eq] at hreach
      refine hreach.2.resolve_right fun hline => h.off entrant.side ?_
      simpa [Board.roster, Board.isInLine] using hline
    · cases hr

/-- By induction on the room for nesting. -/
theorem tellsDiscreetly_dispatchIn (still : Prop) (rules : Rules)
    (hc : (stillScope still).Covers rules.catalog) (room : Nat) :
    TellsDiscreetly still (dispatchIn rules room) := by
  induction room with
  | zero =>
    intro event s hs _
    exact hs
  | succ room ih =>
    intro event s hs ha
    have elementary := elementary_discreet still (s.opened event) rules.catalog
    have telling := telling_discreet rules ih (tells_dispatchIn rules room) (s.opened event)
    have reached : ∀ t u, Same (DiscreetSince still (s.opened event)) t u → ∀ id pet,
        reached? rules event t.board id = some pet →
          Fainted (s.opened event).log.headings id → event.source = some id := by
      rintro t _ ⟨rfl, ht, ⟨later, hlog⟩, _⟩ id pet hr hf
      exact source_of_reached? (ht.gone id (hlog ▸ hf.append later)) hr
    refine ends_dispatchIn (F := fun _ => IsDiscreet still) (I := DiscreetSince still (s.opened event))
      (J := fun notified t => (∀ id ∈ notified, Fainted (s.opened event).log.headings id →
        event.source = some id) ∧ DiscreetSince still (s.opened event) t)
      (fun _ => hs.congr rfl rfl) (isDiscreet_opened hs ha).since (fun line => ?_)
      (fun _ t ht => ht.congr rfl rfl)
      fun t notified ht => ⟨isDiscreet_closed hs ht.2 ht.1, ?_, ht.2.continues.fit⟩
    · exact (yields_walk elementary telling hc.effects rfl (acts_perform elementary telling hc rfl) trivial
        reached line line (by simp)).triple
    · rw [Arena.headings_closed]
      refine List.IsPrefix.trans ⟨[event.record (s.nesting + 1)], ?_⟩ ht.2.continues.told
      exact (EventLog.headings_openRecord hs.enabled event _).symm

end Resolve

namespace Battle

variable {still : Prop} {rules : Rules} {teams : Sides Team} {b : Battle}

theorem covers_stillScope {c : Catalog} (hc : still → c.Every fun e => ¬ e.Healing) :
    (stillScope still).Covers c where
  effects ability ha := by
    by_cases hs : still
    · exact (hc hs ability ha).imp fun _ he _ => he
    · exact ability.effect.every_true.imp fun _ _ hstill => absurd hstill hs
  cause _ _ _ _ := trivial

/-- Also after calls that failed the log is discreet. -/
theorem isDiscreet_of_reachable (hr : rules.config.recordEvents = true)
    (hc : still → rules.catalog.Every fun e => ¬ e.Healing) (h : Reachable rules teams b) :
    b.arena.IsDiscreet still := by
  have tellsDiscreetly :=
    tellsDiscreetly_dispatchIn still rules (covers_stillScope hc) rules.config.maxDispatchDepth
  have tells := tells_dispatchIn rules rules.config.maxDispatchDepth
  have since {α : Type} {m : Resolve α} (hm : ∀ s, Triple (fun _ => Arena.IsDiscreet still)
      (Arena.DiscreetSince still s) m fun _ => Arena.DiscreetSince still s) :
      Triple (fun _ => Arena.IsDiscreet still) (Arena.IsDiscreet still) m
        fun _ => Arena.IsDiscreet still :=
    Triple.intro fun s hs => (triple_iff.1 (hm s) s hs.since).weaken (fun _ _ he => he)
      fun _ _ ht => ht.discreet
  have plays : PlaysPairs rules (fun _ => Arena.IsDiscreet still) (Arena.IsDiscreet still) :=
    fun attacks ha => since fun s => discreet_playAttacks tellsDiscreetly tells attacks ha
  have startOfBattle : Trigger.IsPlain .startOfBattle := by decide
  refine h.induct (E := fun _ => Arena.IsDiscreet still)
    (keeps_opening plays (fun _ hs => hs.congr rfl rfl) fun side =>
      since fun s => tellsDiscreetly.plain startOfBattle)
    (keeps_attackCycle plays fun _ hs => hs.congr rfl rfl) ?_ fun _ _ he => he
  exact
    { enabled := hr
      wellFormed := Board.wellFormed_ofTeams teams
      gone := fun id hf => absurd hf (nofun : ¬ Fainted [] id)
      dead := fun _ id hf => absurd hf (nofun : ¬ Fainted [] id)
      log := nofun }

theorem grown_of_sound (h : Sound rules teams b) :
    Chronicle true (ofTeams rules.config teams).arena b.arena := by
  have tells := tells_dispatchIn rules rules.config.maxDispatchDepth
  have plays : PlaysPairs rules anyway (Chronicle true (ofTeams rules.config teams).arena) :=
    fun attacks _ => chronicle_playAttacks tells attacks
  refine h.induct (keeps_opening plays (fun _ hs => hs.congr rfl rfl) fun side => ?_)
    (keeps_attackCycle plays fun _ hs => hs.congr rfl rfl) (.refl .nil)
  exact tells.keeps (.inl rfl) nofun nofun

/-- After calls that succeeded the whole log is a story. -/
theorem story_of_sound (hr : rules.config.recordEvents = true) (h : Sound rules teams b) :
    Story true 0 b.arena.log.headings := by
  obtain ⟨told, story, hlog⟩ := (grown_of_sound h).headings hr
  rw [hlog]
  exact story

end Battle

/-! ## Faints and knockouts -/

/-- All that the battle has told, in the order in which it was told. -/
def Battle.records (b : Battle) : List EventRecord := b.arena.log.records.toList

/-- However abilities answer on the way, in a battle whose calls succeeded a pet faints once and
leaves the lines for good, and each faint is followed by a knockout of its own. -/
theorem faint_and_knockout_correspond (rules : Rules) (hr : rules.config.recordEvents = true)
    (teams : Sides Team) (b : Battle) (hb : Battle.Sound rules teams b) :
    (∀ (id : PetId) (i j : Nat) (r r' : EventRecord), b.records[i]? = some r →
      b.records[j]? = some r' → r.Reports .faint id → r'.Reports .faint id → i = j) ∧
    (∀ id, Fainted b.records id → b.arena.board.Gone id) ∧
    (∀ i r, b.records[i]? = some r → r.trigger = .faint → ∃ j k, b.records[j]? = some k ∧
      IsNext b.records i j ∧ k.trigger = .knockout ∧ k.depth = r.depth) ∧
    (∀ j k, b.records[j]? = some k → k.trigger = .knockout → ∃ i r, b.records[i]? = some r ∧
      IsNext b.records i j ∧ r.trigger = .faint ∧ r.depth = k.depth) := by
  have discreet : b.arena.IsDiscreet False := Battle.isDiscreet_of_reachable hr nofun hb.reachable
  have story := Battle.story_of_sound hr hb
  refine ⟨fun id i j r r' hi hj hf hf' => discreet.log.faints_once hi hj hf hf', fun id hf => ?_,
    fun i r hi hf => ?_, fun j k hj hk => ?_⟩
  · obtain ⟨r, hm, hfaint⟩ := hf
    exact discreet.gone id ⟨r.heading, List.mem_map_of_mem hm, hfaint⟩
  · obtain ⟨j, k, next, hj, knocks, level⟩ :=
      story.faintsFollowed.next (EventLog.heading_of_record hi) hf
    obtain ⟨k', hj', rfl⟩ := EventLog.record_of_heading hj
    exact ⟨j, k', hj', EventLog.isNext_of_headings next, knocks, level⟩
  · obtain ⟨i, f, next, hi, faints, level⟩ :=
      story.knockoutsPreceded.next (EventLog.heading_of_record hj) hk
    obtain ⟨f', hi', rfl⟩ := EventLog.record_of_heading hi
    exact ⟨i, f', hi', EventLog.isNext_of_headings next, faints, level⟩

/-- The ant that faints is gone, and the next record on its level is of the knockout. -/
theorem faint_and_knockout_correspond_rescue :
    (rescue callAnt healSelf).2.arena.board.Gone ⟨5⟩ ∧
      ∃ j k, (rescue callAnt healSelf).2.records[j]? = some k ∧
        IsNext (rescue callAnt healSelf).2.records 4 j ∧ k.trigger = .knockout ∧ k.depth = 1 := by
  have running : (rescue callAnt healSelf).1 = .ok .running := by decide +kernel
  have faint : (rescue callAnt healSelf).2.records[4]? = some ⟨.faint, .b, some ⟨5⟩, [], 1⟩ := by
    decide +kernel
  obtain ⟨-, gone, followed, -⟩ := faint_and_knockout_correspond (rescueRules callAnt healSelf)
    rfl _ _ (sound_rescue running)
  exact ⟨gone _ ⟨_, List.mem_of_getElem? faint, rfl, rfl⟩, followed 4 _ faint rfl⟩

end AutoBattler
