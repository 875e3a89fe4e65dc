import AutoBattler.Proofs.Drained
import AutoBattler.Proofs.Duel
import AutoBattler.Proofs.Facing
import AutoBattler.Proofs.Indexing
import AutoBattler.Proofs.Undefined

/-!
# Plain battles

If no kind has an ability and nobody is under a status, an event that is told does nothing at all,
whether the pets are defined or not. What is left of a battle is the hits of the foremost pets, and
these are a duel.
-/
namespace AutoBattler

open Resolve

/-- No kind of pet has an ability. Statuses and foods may have any. -/
def Catalog.IsUnskilled (c : Catalog) : Prop :=
  ∀ id kind, c.petKind id = .ok kind → kind.abilities = []

theorem Catalog.isUnskilled_ofLists {pets : List PetKind} {statuses : List StatusKind}
    {foods : List Food} (hp : ∀ kind ∈ pets, kind.abilities = []) :
    (ofLists pets statuses foods).IsUnskilled :=
  fun _ kind h => hp kind (Table.mem_of_getElem?_ofValues _ (petKind_eq_ok.1 h))

/-- None of the stored pets is under a status. -/
def Board.Unmarked (b : Board) : Prop := ∀ id pet, b.pet? id = some pet → pet.status = none

variable {rules : Rules} {raise : Raise} {act : Act} {event : Event} {s : Arena} {b : Board}
  {side : Side} {p q id : PetId} {P E pet : Pet} {ids ids' line reached : List PetId}
  {own enemies : List Pet}

/-! ## Events that nobody answers -/

theorem PetKind.triggers_of_abilities {kind : PetKind} (h : kind.abilities = []) :
    kind.triggers = [] := by
  unfold triggers transfersAbility
  rw [h]
  rfl

theorem Catalog.IsUnskilled.mayReact {c : Catalog} (h : c.IsUnskilled) (hp : pet.status = none)
    (trigger : Trigger) : c.index.mayReact trigger pet = false := by
  have unregistered (id : PetKindId) : (c.index.listeners trigger).pets.contains id = false := by
    rw [← Bool.not_eq_true, ← Std.ExtTreeMap.mem_iff_contains, c.indexed]
    intro hm
    obtain ⟨kind, hk, _, ht⟩ := TriggerIndex.ofKinds_build _ _ _ trigger id hm
    obtain ⟨⟨key, _⟩, hkey, rfl⟩ := List.mem_map.1 hk
    have filed := petKind_eq_ok.2 (Std.ExtTreeMap.mem_toList_iff_getElem?_eq_some.1 hkey)
    rw [PetKind.triggers_of_abilities (h key _ filed)] at ht
    cases ht
  unfold TriggerIndex.mayReact
  dsimp only
  rw [unregistered, unregistered, hp]
  rfl

namespace Resolve

section

variable (hc : rules.catalog.IsUnskilled)
include hc

theorem reached?_of_unmarked (hb : b.Unmarked) (id : PetId) : reached? rules event b id = none := by
  unfold reached?
  cases he : b.entrant? id with
  | none => rfl
  | some entrant =>
    dsimp only
    rw [hc.mayReact (hb id _ (Board.pet?_of_entrant? he))]
    rfl

theorem walk_of_unmarked (hb : s.board.Unmarked) (ids : List PetId) :
    walk rules raise act event line reached ids s = (.ok reached.reverse, s) := by
  induction ids with
  | nil => rfl
  | cons id rest ih =>
    unfold walk
    rw [bind_run]
    dsimp only [board, look]
    rw [reached?_of_unmarked hc hb]
    exact ih

/-- Nobody answers an event, so the board and what waits stay as they are. -/
theorem dispatch_of_unmarked (hb : s.board.Unmarked) (event : Event) :
    Ends anyway (fun _ t => t.board = s.board ∧ t.queues = s.queues) (dispatch rules event s) := by
  unfold dispatch
  cases rules.config.maxDispatchDepth with
  -- Of the failures, here and by the budget, nothing is said.
  | zero => exact trivial
  | succ room =>
    refine ends_dispatchIn (F := anyway) (I := fun t => t.board = s.board ∧ t.queues = s.queues)
      (J := fun _ t => t.board = s.board ∧ t.queues = s.queues) (fun _ => trivial) ⟨rfl, rfl⟩
      (fun line => Triple.intro fun t ht => ?_) (fun _ _ _ => trivial) fun _ _ ht => ht
    rw [walk_of_unmarked hc (ht.1 ▸ hb)]
    exact ht

end

/-! ## Hits -/

theorem damageModifier_of_unmarked (hb : s.board.Unmarked) (id : PetId) (trigger : Trigger) :
    damageModifier rules id trigger s = (.ok none, s) := by
  unfold damageModifier
  rw [bind_run]
  dsimp only [Resolve.pet?, look]
  cases hp : s.board.pet? id with
  | none => rfl
  | some pet =>
    dsimp only
    unfold Catalog.statusAbility
    rw [hb id pet hp]
    rfl

theorem applyModifier_of_unmarked (hb : s.board.Unmarked) (id : PetId) (trigger : Trigger)
    (work : Impact → DamageModifier → Impact) (i : Impact) :
    applyModifier rules id trigger work i s = (.ok i, s) := by
  unfold applyModifier
  rw [bind_run, damageModifier_of_unmarked hb]
  rfl

theorem damageFor_of_unmarked (hb : s.board.Unmarked) (attack : Attack) (target : PetId) :
    damageFor rules attack target s = (.ok (max 0 attack.damage), s) := by
  have weakened : (applyModifier rules target .whenDamaged Impact.weaken ⟨attack.damage, false⟩ >>=
      fun i => pure i.total : Resolve Int) s = (.ok (max 0 attack.damage), s) := by
    rw [bind_run, applyModifier_of_unmarked hb]
    rfl
  unfold damageFor
  dsimp only
  split
  · rw [bind_run, applyModifier_of_unmarked hb]
    exact weakened
  · exact weakened

/-- A hit whose target is in line does as much damage as the attacker has attack. -/
theorem aim_of_unmarked {rest : List Attack} {aims : List Aim} (hb : s.board.Unmarked)
    (attack : Attack) (ht : attack.targets = [q]) (hq : s.board.isAlive q = true)
    (hrest : aim rules 0 rest s = (.ok aims, s)) :
    aim rules 0 (attack :: rest) s = (.ok (⟨attack, q, max 0 attack.damage⟩ :: aims), s) := by
  unfold aim
  rw [ht]
  dsimp only [List.getElem?_cons_zero]
  rw [bind_run]
  dsimp only [board, look]
  rw [if_pos hq, bind_run, damageFor_of_unmarked hb]
  dsimp only
  rw [bind_run, hrest]
  rfl

theorem applyHits_run {aims : List Aim} {hits : List Hit} {t : Arena} (attack : Attack)
    (damage : Int) (hp : s.board.pet? q = some E)
    (hrest : applyHits aims { s with board := s.board.modifyPet q (Pet.takeDamage damage) } =
      (.ok hits, t)) :
    applyHits (⟨attack, q, damage⟩ :: aims) s =
      (.ok (⟨attack.attacker, attack.side, q, E.healthLost damage⟩ :: hits), t) := by
  unfold applyHits
  rw [bind_run]
  dsimp only [Resolve.pet?, look]
  rw [hp, bind_run]
  dsimp only [modifyPet, change]
  rw [bind_run, hrest]
  rfl

end Resolve

/-! ## Lines that hit each other -/

theorem Board.Unmarked.modifyPet (h : b.Unmarked) (id : PetId) {f : Pet → Pet}
    (hf : ∀ p, (f p).status = p.status) : (b.modifyPet id f).Unmarked := by
  intro x pet hx
  obtain ⟨old, hold, rfl | ⟨_, rfl⟩⟩ := Board.pet?_of_modifyPet hx
  · exact h x _ hold
  · rw [hf]
    exact h x old hold

theorem Board.Unmarked.enlist (h : b.Unmarked) {pets : List Pet}
    (hp : ∀ pet ∈ pets, pet.status = none) : (b.enlist side pets).Unmarked := by
  refine Board.enlist_induction h fun b new id b' hb hm ha x pet hx => ?_
  rw [ha.toStores.pet?] at hx
  split at hx
  · cases hx
    exact hp new hm
  · exact hb x pet hx

/-- The line after its foremost pet was hit. -/
def Pet.lead (p : Pet) (rest : List Pet) : List Pet := if p.isAlive then p :: rest else rest

theorem Pet.IsPlain.fitHealth (h : P.IsPlain) : P.FitHealth :=
  ⟨Int.le_trans (by decide) h.health_pos, h.health_le⟩

theorem Pet.IsPlain.isAlive_of_healthLost (hP : P.IsPlain) {damage : Int}
    (h : P.healthLost damage ≤ 0) : (P.takeDamage damage).isAlive = true := by
  have pos := hP.health_pos
  rw [Pet.healthLost_eq hP.fitHealth] at h
  have alive : 0 < (P.takeDamage damage).health := by omega
  exact decide_eq_true alive

/-- A side fields one line and its opponent another, nobody is under a status, and no attack
waits. -/
structure Opposed (side : Side) (ids : List PetId) (own : List Pet) (ids' : List PetId)
    (enemies : List Pet) (s : Arena) : Prop where
  own : s.board.Fields side ids own
  enemies : s.board.Fields side.opponent ids' enemies
  unmarked : s.board.Unmarked
  idle : waiting s.queues = 0

/-- The attacks of two pets on each other. -/
abbrev mutualAttacks (side : Side) (p q : PetId) (P E : Pet) : List Attack :=
  [⟨p, side, [q], P.attack, true⟩, ⟨q, side.opponent, [p], E.attack, true⟩]

/-- The pets in front of both lines have hit each other, and who had no health left is gone. -/
def Exchanged (side : Side) (P : Pet) (own : List Pet) (E : Pet) (enemies : List Pet) (s : Arena) :
    Prop :=
  ∃ ids ids', Opposed side ids ((P.takeDamage E.attack).lead own) ids'
    ((E.takeDamage P.attack).lead enemies) s

namespace Opposed

variable {t : Arena} {holds : Board → Bool}

theorem congr (h : Opposed side ids own ids' enemies s) (hb : t.board = s.board)
    (hq : t.queues = s.queues) : Opposed side ids own ids' enemies t :=
  ⟨hb ▸ h.own, hb ▸ h.enemies, hb ▸ h.unmarked, hq ▸ h.idle⟩

theorem symm (h : Opposed side ids own ids' enemies s) :
    Opposed side.opponent ids' enemies ids own s where
  own := h.enemies
  enemies := by
    rw [Side.opponent_opponent]
    exact h.own
  unmarked := h.unmarked
  idle := h.idle

theorem of_symm (h : Opposed side.opponent ids' enemies ids own s) :
    Opposed side ids own ids' enemies s := by
  have hs := h.symm
  rwa [Side.opponent_opponent] at hs

theorem isAlive (h : Opposed side (p :: ids) own ids' enemies s) : s.board.isAlive p = true :=
  h.own.isAlive List.mem_cons_self

theorem hit (h : Opposed side (p :: ids) (P :: own) ids' enemies s) (damage : Int) :
    Opposed side (p :: ids) (P.takeDamage damage :: own) ids' enemies
      { s with board := s.board.modifyPet p (Pet.takeDamage damage) } where
  own := h.own.modify_front _
  enemies := h.enemies.modify_other
    (h.enemies.not_mem (h.own.home p List.mem_cons_self) (side.opponent_ne).symm) _
  unmarked := h.unmarked.modifyPet p fun _ => rfl
  idle := h.idle

theorem leave (h : Opposed side (p :: ids) (P :: own) ids' enemies s) :
    ∃ b, s.board.remove? p = some b ∧ Opposed side ids own ids' enemies { s with board := b } := by
  obtain ⟨b, hr, hl, own⟩ := h.own.leave_front
  refine ⟨b, hr, own, h.enemies.leave_other hl side.opponent_ne, ?_, h.idle⟩
  intro x pet hx
  exact h.unmarked x pet ((hl.pet? x).symm.trans hx)

/-! ## The steps of a cycle -/

theorem aim_run (h : Opposed side (p :: ids) (P :: own) (q :: ids') (E :: enemies) s)
    (hP : 0 ≤ P.attack) (hE : 0 ≤ E.attack) :
    aim rules 0 (mutualAttacks side p q P E) s =
      (.ok [⟨⟨p, side, [q], P.attack, true⟩, q, P.attack⟩,
        ⟨⟨q, side.opponent, [p], E.attack, true⟩, p, E.attack⟩], s) := by
  have none : aim rules 0 [] s = (.ok [], s) := rfl
  have second := aim_of_unmarked h.unmarked ⟨q, side.opponent, [p], E.attack, true⟩ rfl h.isAlive none
  have first := aim_of_unmarked h.unmarked ⟨p, side, [q], P.attack, true⟩ rfl h.symm.isAlive second
  rwa [max_eq_right hP, max_eq_right hE] at first

theorem applyHits_run (h : Opposed side (p :: ids) (P :: own) (q :: ids') (E :: enemies) s)
    (x y : Attack) (damage damage' : Int) :
    ∃ t, applyHits [⟨x, q, damage⟩, ⟨y, p, damage'⟩] s =
      (.ok [⟨x.attacker, x.side, q, E.healthLost damage⟩,
        ⟨y.attacker, y.side, p, P.healthLost damage'⟩], t) ∧
      Opposed side (p :: ids) (P.takeDamage damage' :: own) (q :: ids')
        (E.takeDamage damage :: enemies) t := by
  have first := (h.symm.hit damage).of_symm
  have none (t : Arena) : applyHits [] t = (.ok [], t) := rfl
  exact ⟨_, Resolve.applyHits_run x damage h.enemies.pet?_front
    (Resolve.applyHits_run y damage' first.own.pet?_front (none _)), first.hit damage'⟩

theorem drain (h : Opposed side ids own ids' enemies s) :
    (procedures rules).drain s = (.ok (), s) := drainWithin_of_none _ h.idle

section

variable (hc : rules.catalog.IsUnskilled)
include hc

theorem dispatch (h : Opposed side ids own ids' enemies s) (event : Event) :
    Ends anyway (fun _ => Opposed side ids own ids' enemies) (dispatch rules event s) :=
  (dispatch_of_unmarked hc h.unmarked event).weaken (fun _ _ he => he) fun _ _ ht =>
    h.congr ht.1 ht.2

/-- What is told before and after the hits may or may not be told. -/
theorem announce (h : Opposed side ids own ids' enemies s) (event : Event) :
    Ends anyway (fun _ => Opposed side ids own ids' enemies)
      ((do
        let b ← board
        if holds b then Resolve.dispatch rules event : Resolve Unit) s) := by
  rw [bind_run]
  dsimp only [board, look]
  split
  · exact h.dispatch hc event
  · exact h

/-- What follows from a hit on a pet that stands in front: it leaves if it has no health left. -/
theorem followUp (h : Opposed side (p :: ids) (P :: own) ids' enemies s) (attacker : PetId)
    (other : Side) {lost : Int} (lines : Sides (List PetId)) (hlost : lost ≤ 0 → P.isAlive = true) :
    Ends anyway (fun _ t => ∃ jds, Opposed side jds (P.lead own) ids' enemies t)
      (followUp (Resolve.dispatch rules) lines ⟨attacker, other, p, lost⟩ s) := by
  have stays (halive : P.isAlive = true) (t : Arena)
      (ht : Opposed side (p :: ids) (P :: own) ids' enemies t) :
      ∃ jds, Opposed side jds (P.lead own) ids' enemies t := by
    refine ⟨p :: ids, ?_⟩
    unfold Pet.lead
    rwa [if_pos halive]
  obtain ⟨entrant, he, hpet⟩ := Option.map_eq_some_iff.1 h.own.pet?_front
  subst hpet
  unfold Resolve.followUp
  dsimp only
  by_cases h0 : lost ≤ 0
  -- Nothing follows from a hit that cost nothing, and such a hit has left the pet alive.
  · rw [if_pos h0]
    exact stays (hlost h0) s h
  · rw [if_neg h0, bind_run]
    dsimp only [board, look]
    rw [he]
    dsimp only
    by_cases halive : entrant.pet.isAlive = true
    · rw [if_pos halive]
      exact (h.dispatch hc _).weaken (fun _ _ he => he) fun _ t ht => stays halive t ht
    · obtain ⟨b, hr, left⟩ := h.leave
      have removed : remove p s = (.ok true, { s with board := b }) := by
        unfold remove
        rw [hr]
      rw [if_neg halive, bind_run, removed]
      dsimp only
      rw [if_pos rfl]
      refine Ends.bind (left.dispatch hc _) fun _ t ht => (ht.dispatch hc _).weaken
        (fun _ _ he => he) fun _ u hu => ⟨ids, ?_⟩
      unfold Pet.lead
      rwa [if_neg halive]

/-- Both pets in front are hit before anything follows, and then each of them may leave. -/
theorem playRound (h : Opposed side (p :: ids) (P :: own) (q :: ids') (E :: enemies) s)
    (hP : P.IsPlain) (hE : E.IsPlain) (lines : Sides (List PetId)) :
    Ends anyway (fun _ => Exchanged side P own E enemies)
      (playRound rules (Resolve.dispatch rules) (mutualAttacks side p q P E) lines 0 s) := by
  obtain ⟨t, applied, hit⟩ := h.applyHits_run ⟨p, side, [q], P.attack, true⟩
    ⟨q, side.opponent, [p], E.attack, true⟩ P.attack E.attack
  unfold Resolve.playRound
  rw [bind_run, h.aim_run hP.attack_nonneg hE.attack_nonneg]
  dsimp only
  rw [bind_run, applied]
  refine Ends.bind (hit.symm.followUp hc p side lines
    fun h0 => hE.isAlive_of_healthLost h0) fun _ u ⟨jds', hu⟩ => ?_
  refine Ends.bind (hu.of_symm.followUp hc q side.opponent lines
    fun h0 => hP.isAlive_of_healthLost h0) fun _ v ⟨jds, hv⟩ => ?_
  exact ⟨jds, jds', hv⟩

theorem playAttacks (h : Opposed side (p :: ids) (P :: own) (q :: ids') (E :: enemies) s)
    (hP : P.IsPlain) (hE : E.IsPlain) :
    Ends anyway (fun _ => Exchanged side P own E enemies)
      (playAttacks rules (Resolve.dispatch rules) (mutualAttacks side p q P E) s) := by
  unfold Resolve.playAttacks
  refine Ends.bind (A := fun _ => Opposed side (p :: ids) (P :: own) (q :: ids') (E :: enemies))
    ?_ fun _ t ht => ?_
  · exact Ends.bind (h.announce hc _) fun _ t ht => Ends.bind (ht.announce hc _) fun _ _ hu => hu
  · rw [bind_run]
    dsimp only [board, look]
    have all : (mutualAttacks side p q P E).filter (fun attack => anyAlive t.board attack.targets) =
        mutualAttacks side p q P E := by
      simp [anyAlive, ht.isAlive, ht.symm.isAlive]
    rw [all]
    refine Ends.bind (A := fun _ => Exchanged side P own E enemies) ?_ fun _ u ⟨jds, jds', hu⟩ => ?_
    · exact Ends.bind (ht.playRound hc hP hE t.board.lines) fun _ _ hu => hu
    refine Ends.bind (hu.announce hc _) fun _ v hv => ?_
    exact Ends.bind (hv.announce hc _) fun _ w hw => ⟨jds, jds', hw⟩

end

end Opposed

/-! ## The cycle as a round of a duel -/

theorem Pet.IsPlain.takeDamage (h : P.IsPlain) {damage : Int} (hd : 0 ≤ damage)
    (hm : damage ≤ maxAttack) :
    P.takeDamage damage = { P with health := max 0 (P.health - damage) } := by
  have health := Pet.health_takeDamage h.fitHealth damage
  have word : IsInt32 damage := ⟨Int.le_trans (by decide) hd, Int.le_trans hm (by decide)⟩
  rw [int32_of_isInt32 word, max_eq_left hd] at health
  rw [← health]
  rfl

/-- What a hit leaves of a line is what it leaves in a duel. -/
theorem Pet.IsPlain.lead_eq (hP : P.IsPlain) (hE : E.IsPlain) (own enemies : List Pet) :
    (P.takeDamage E.attack).lead own = Duel.exchange (P :: own) (E :: enemies) := by
  rw [Duel.exchange_cons, hP.takeDamage hE.attack_nonneg hE.attack_le]
  unfold Pet.lead Pet.isAlive
  by_cases h : 0 < P.health - E.attack
  · rw [if_pos h, if_pos (by simpa using h), max_eq_right (Int.le_of_lt h)]
  · rw [if_neg h, if_neg (by simpa using h)]

/-! ## Whole battles -/

/-- The lines of both sides from the front to the back, where nobody is under a status and no attack
waits. -/
def Fielding (lines : Sides (List Pet)) (s : Arena) : Prop :=
  ∃ ids ids', Opposed .a ids lines.a ids' lines.b s

variable {lines : Sides (List Pet)}

section

variable (hc : rules.catalog.IsUnskilled)
include hc

theorem Fielding.opening (h : Fielding lines s) :
    Ends anyway (fun _ => Fielding lines) (Battle.opening (procedures rules) s) := by
  obtain ⟨ids, ids', h⟩ := h
  unfold Battle.opening
  refine Ends.bind (A := fun _ => Opposed .a ids lines.a ids' lines.b) ?_ fun _ t ht => ?_
  · exact Ends.bind (h.dispatch hc _) fun _ t ht => Ends.bind (ht.dispatch hc _) fun _ _ hu => hu
  · rw [ht.drain]
    exact ⟨ids, ids', ht⟩

theorem Fielding.attackCycle (h : Fielding lines s) (hp : Duel.Plain lines)
    (hn : ¬ (lines.a = [] ∨ lines.b = [])) :
    Ends anyway (fun _ => Fielding (Duel.round lines))
      (Resolve.attackCycle rules (procedures rules) s) := by
  obtain ⟨ids, ids', h⟩ := h
  obtain ⟨la, lb⟩ := lines
  obtain ⟨P, own, rfl⟩ := List.exists_cons_of_ne_nil (not_or.1 hn).1
  obtain ⟨E, enemies, rfl⟩ := List.exists_cons_of_ne_nil (not_or.1 hn).2
  obtain ⟨p, ids, rfl⟩ := List.exists_cons_of_length_eq_add_one h.own.length
  obtain ⟨q, ids', rfl⟩ := List.exists_cons_of_length_eq_add_one h.enemies.length
  have hP := hp .a P List.mem_cons_self
  have hE := hp .b E List.mem_cons_self
  unfold Resolve.attackCycle
  rw [bind_run]
  dsimp only [board, look]
  rw [h.own.primaryAttacks h.enemies]
  refine Ends.bind (h.playAttacks hc hP hE) fun _ t ⟨jds, jds', ht⟩ => ?_
  rw [ht.drain]
  rw [hP.lead_eq hE own enemies, hE.lead_eq hP enemies own] at ht
  exact ⟨jds, jds', ht⟩

end

namespace Battle

variable {x y : Battle} {teams : Sides Team}

theorem decided?_of_fielding (h : Fielding lines s) :
    decided? s.board = if lines.a = [] ∨ lines.b = [] then some (Duel.verdict lines) else none := by
  obtain ⟨ids, ids', h⟩ := h
  unfold decided? Duel.verdict
  rw [h.own.isEmpty, (show (s.board.roster .b).isEmpty = _ from h.enemies.isEmpty)]
  cases lines.a <;> cases lines.b <;> simp

theorem survivors_of_fielding (h : Fielding lines s) :
    Sides.tabulate s.board.livePets = lines.map List.reverse := by
  obtain ⟨ids, ids', h⟩ := h
  unfold Sides.tabulate Sides.map
  rw [h.own.livePets, (show s.board.livePets .b = _ from h.enemies.livePets)]

/-- How a step ends from a battle in which the lines face each other. -/
inductive Stepped (rules : Rules) (lines : Sides (List Pet)) (x : Battle) :
    Except EngineError BattleState × Battle → Prop
  | failed (e : EngineError) (y : Battle) : Stepped rules lines x (.error e, y)
  | ended {y : Battle} (h : Fielding lines y.arena) (hr : y.rounds = x.rounds)
    (ho : (lines.a = [] ∨ lines.b = []) ∨ rules.config.maxRounds ≤ x.rounds) :
    Stepped rules lines x (.ok (.finished (Duel.verdict lines)), y)
  | round {y : Battle} (h : Fielding (Duel.round lines) y.arena) (hs : y.state = .running)
    (hr : y.rounds = x.rounds + 1) (hn : ¬ (lines.a = [] ∨ lines.b = []))
    (hl : x.rounds < rules.config.maxRounds) : Stepped rules lines x (.ok .running, y)

section

variable (hc : rules.catalog.IsUnskilled)
include hc

theorem started (h : Fielding lines x.arena) (hs : ∀ outcome, x.state ≠ .finished outcome) :
    (∃ e y, x.startWith (procedures rules) = (.error e, y)) ∨
    ∃ y, x.startWith (procedures rules) = (.ok (), y) ∧ Fielding lines y.arena ∧
      y.rounds = x.rounds ∧ y.state = .running := by
  unfold startWith play
  cases hx : x.state with
  | finished outcome => exact absurd hx (hs outcome)
  | running => exact .inr ⟨x, rfl, h, rfl, hx⟩
  | notStarted =>
    rw [if_pos rfl]
    have opened := h.opening hc
    generalize opening (procedures rules) x.arena = r at opened
    obtain ⟨r, t⟩ := r
    cases r with
    | error e => exact .inl ⟨e, _, rfl⟩
    | ok _ => exact .inr ⟨_, rfl, opened, rfl, rfl⟩

theorem advanced (h : Fielding lines y.arena) (hp : Duel.Plain lines) (hr : y.rounds = x.rounds)
    (hs : y.state = .running) : Stepped rules lines x (y.advanceWith rules (procedures rules)) := by
  unfold advanceWith
  rw [decided?_of_fielding h]
  by_cases hn : lines.a = [] ∨ lines.b = []
  · rw [if_pos hn]
    exact .ended h hr (.inl hn)
  · rw [if_neg hn]
    dsimp only
    by_cases hl : rules.config.maxRounds ≤ y.rounds
    -- The limit is reached with pets on both sides, which is a draw in the duel as well.
    · have drawn : Duel.verdict lines = .draw := by
        obtain ⟨ha, hb⟩ := not_or.1 hn
        unfold Duel.verdict
        rw [List.isEmpty_eq_false_iff.2 ha, List.isEmpty_eq_false_iff.2 hb]
      rw [if_pos hl, ← drawn]
      exact .ended h hr (.inr (hr ▸ hl))
    · rw [if_neg hl]
      have cycled := h.attackCycle hc hp hn
      unfold play
      dsimp only
      generalize attackCycle rules (procedures rules) y.arena = r at cycled
      obtain ⟨r, t⟩ := r
      cases r with
      | error e => exact .failed e _
      | ok _ =>
        dsimp only
        rw [hs]
        exact .round cycled rfl (congrArg (· + 1) hr) hn (by omega)

theorem stepped (h : Fielding lines x.arena) (hp : Duel.Plain lines)
    (hs : ∀ outcome, x.state ≠ .finished outcome) : Stepped rules lines x (x.step rules) := by
  unfold step stepWith
  rcases started hc h hs with ⟨e, y, hy⟩ | ⟨y, hy, hf, hr, hrun⟩
  · rw [hy]
    cases hx : x.state with
    | finished outcome => exact absurd hx (hs outcome)
    | notStarted | running => exact .failed e y
  · rw [hy]
    cases hx : x.state with
    | finished outcome => exact absurd hx (hs outcome)
    | notStarted | running => exact advanced hc hf hp hr hrun

/-- By induction on the steps of the battle, each of which is a round of the duel or its end. -/
theorem finishFrom_eq_duel (h : Fielding lines x.arena) (hp : Duel.Plain lines)
    (hs : ∀ outcome, x.state ≠ .finished outcome) {report : BattleReport}
    (hf : (x.finishFrom rules).1 = .ok report) :
    let duel := Duel.fight (rules.config.maxRounds - x.rounds) lines
    report.outcome = Duel.verdict duel.lines ∧ report.rounds = x.rounds + duel.rounds ∧
      report.survivors = duel.lines.map List.reverse := by
  fun_induction finishFrom rules x generalizing lines with
  | case1 x e y hy => cases hf
  | case2 x outcome y hy =>
    cases hf
    have ends := stepped hc h hp hs
    rw [hy] at ends
    cases ends with
    | ended h hr ho =>
      have stands : Duel.fight (rules.config.maxRounds - x.rounds) lines = ⟨lines, 0⟩ := by
        rcases ho with ho | hl
        · exact Duel.fight_of_over ho _
        · rw [Nat.sub_eq_zero_of_le hl]
          rfl
      rw [stands]
      exact ⟨rfl, hr, survivors_of_fielding h⟩
  | case3 x y hy ih =>
    have ends := stepped hc h hp hs
    rw [hy] at ends
    cases ends
  | case4 x y hy ih =>
    have ends := stepped hc h hp hs
    rw [hy] at ends
    cases ends with
    | round h hrun hr hn hl =>
      have running (outcome : BattleOutcome) : y.state ≠ .finished outcome := fun ho => by
        rw [hrun] at ho
        cases ho
      have later := ih h hp.round running hf
      have rest : rules.config.maxRounds - x.rounds = rules.config.maxRounds - y.rounds + 1 := by
        omega
      rw [rest, Duel.fight_succ hn]
      dsimp only at later ⊢
      exact ⟨later.1, by omega, later.2.2⟩

end

/-! ## Battles of plain teams -/

end Battle

/-- A team that fits on a side, of plain pets. -/
structure Team.IsPlain (team : Team) : Prop where
  size : team.pets.length ≤ teamSize
  plain : ∀ pet ∈ team.pets, pet.IsPlain

/-- The copies of a team from the front to the back. -/
def Team.frontline (team : Team) : List Pet := (team.pets.map Pet.battleCopy).reverse

theorem Team.mem_frontline {team : Team} {p : Pet} :
    p ∈ team.frontline ↔ ∃ pet ∈ team.pets, pet.battleCopy = p := by
  rw [frontline, List.mem_reverse, List.mem_map]

theorem Pet.IsPlain.battleCopy (h : P.IsPlain) : P.battleCopy.IsPlain :=
  ⟨h.status, h.health_pos, h.health_le, h.attack_nonneg, h.attack_le⟩

theorem Team.plain_frontlines {teams : Sides Team} (h : ∀ side, (teams.get side).IsPlain) :
    Duel.Plain (teams.map Team.frontline) := by
  intro side p hm
  rw [Sides.get_map, Team.mem_frontline] at hm
  obtain ⟨pet, hpet, rfl⟩ := hm
  exact ((h side).plain pet hpet).battleCopy

theorem Team.fierce_frontlines {teams : Sides Team} (h : ∀ side, (teams.get side).IsPlain)
    (strikes : ∀ side, ∀ pet ∈ (teams.get side).pets, 1 ≤ pet.attack) :
    Duel.Fierce (teams.map Team.frontline) := by
  intro side p hm
  refine ⟨(plain_frontlines h side p hm).health_pos, ?_⟩
  rw [Sides.get_map, Team.mem_frontline] at hm
  obtain ⟨pet, hpet, rfl⟩ := hm
  exact strikes side pet hpet

namespace Battle

theorem unmarked_ofTeams (h : ∀ side, (teams.get side).IsPlain) :
    (Board.ofTeams teams).Unmarked := by
  have copies (side : Side) :
      ∀ pet ∈ (teams.get side).pets.map Pet.battleCopy, pet.status = none := by
    intro pet hm
    obtain ⟨old, hold, rfl⟩ := List.mem_map.1 hm
    exact ((h side).plain old hold).status
  have empty : Board.empty.Unmarked := by
    intro id pet hp
    simp [Board.empty, Board.pet?, Board.entrant?] at hp
  exact (empty.enlist (copies .a)).enlist (copies .b)

theorem fielding_ofTeams (rules : Rules) (h : ∀ side, (teams.get side).IsPlain) :
    Fielding (teams.map Team.frontline) (ofTeams rules.config teams).arena := by
  have line (side : Side) : ((Board.ofTeams teams).livePets side).reverse =
      (teams.get side).frontline := by
    have fit : Fit teams := fun side pet hm => ((h side).plain pet hm).health_pos
    rw [livePets_ofTeams_of_fit fit, List.take_of_length_le (h side).size]
    rfl
  have own := (Board.wellFormed_ofTeams teams).fields .a
  have enemies := (Board.wellFormed_ofTeams teams).fields .b
  rw [line] at own enemies
  exact ⟨_, _, own, enemies, unmarked_ofTeams h, rfl⟩

theorem health_frontline (team : Team) : Duel.health team.frontline = Duel.health team.pets := by
  unfold Team.frontline
  rw [Duel.health_reverse]
  induction team.pets with
  | nil => rfl
  | cons p rest ih => exact congrArg (p.health + ·) ih

/-- Without abilities of kinds a battle of plain teams that does not fail is the duel of their lines,
in its outcome, its rounds and the pets that survive with their stats. If every pet hits, it takes
no more rounds than the weaker team has health, and with as many rounds allowed it goes on until a
line is empty. -/
theorem plain_battles_are_duels (hc : rules.catalog.IsUnskilled)
    (ht : ∀ side, (teams.get side).IsPlain) {report : BattleReport}
    (hf : fight rules teams = .ok report) :
    let duel := Duel.fight rules.config.maxRounds (teams.map Team.frontline)
    let weaker := min (Duel.health teams.a.pets) (Duel.health teams.b.pets)
    report.outcome = Duel.verdict duel.lines ∧ report.rounds = duel.rounds ∧
      report.survivors = duel.lines.map List.reverse ∧
      ((∀ side, ∀ pet ∈ (teams.get side).pets, 1 ≤ pet.attack) → report.rounds ≤ weaker ∧
        (weaker ≤ rules.config.maxRounds →
          report.survivors.a = [] ∨ report.survivors.b = [])) := by
  intro duel weaker
  obtain ⟨outcome, rounds, survivors⟩ :=
    finishFrom_eq_duel hc (fielding_ofTeams rules ht) (Team.plain_frontlines ht) nofun hf
  have rounds : report.rounds = duel.rounds := rounds.trans (Nat.zero_add _)
  refine ⟨outcome, rounds, survivors, fun strikes => ?_⟩
  have fierce := Team.fierce_frontlines ht strikes
  have least : min (Duel.health (teams.map Team.frontline).a)
      (Duel.health (teams.map Team.frontline).b) = weaker := by
    show min (Duel.health teams.a.frontline) (Duel.health teams.b.frontline) = _
    rw [health_frontline, health_frontline]
  refine ⟨?_, fun hl => ?_⟩
  · rw [rounds, ← least]
    exact Duel.rounds_le_health fierce _
  · rw [← least] at hl
    rw [survivors]
    rcases Duel.over_of_health_le fierce hl with empty | empty
    · exact .inl (congrArg List.reverse empty)
    · exact .inr (congrArg List.reverse empty)

def fieldRules : Rules := ⟨.ofLists [ant] [] [], {}⟩

/-- Two ants, the stronger one behind, and one that outlasts both. -/
def fieldTeams : Sides Team where
  a := ⟨[{ Pet.ofKind ant with attack := 2, health := 3 }, .ofKind ant], []⟩
  b := ⟨[{ Pet.ofKind ant with attack := 3, health := 4 }], []⟩

theorem plain_battles_are_duels_field :
    fieldRules.catalog.IsUnskilled ∧ (∀ side, (fieldTeams.get side).IsPlain) ∧
    ∃ report, fight fieldRules fieldTeams = .ok report ∧ report.outcome = .teamTwoWins ∧
      report.rounds = 2 ∧
      report.survivors = ⟨[], [{ Pet.ofKind ant with attack := 3, health := 1 }]⟩ ∧
      (report.survivors.a = [] ∨ report.survivors.b = []) := by
  have unskilled : fieldRules.catalog.IsUnskilled := by
    refine Catalog.isUnskilled_ofLists fun kind hm => ?_
    rw [List.mem_singleton.1 hm]
    rfl
  have plain (side : Side) : (fieldTeams.get side).IsPlain := by
    refine ⟨by cases side <;> decide, fun pet hm => ?_⟩
    have stats : pet.status = none ∧ 1 ≤ pet.health ∧ pet.health ≤ maxHealth ∧ 0 ≤ pet.attack ∧
        pet.attack ≤ maxAttack := by
      revert pet
      cases side <;> decide
    exact ⟨stats.1, stats.2.1, stats.2.2.1, stats.2.2.2.1, stats.2.2.2.2⟩
  have strikes (side : Side) : ∀ pet ∈ (fieldTeams.get side).pets, 1 ≤ pet.attack := by
    cases side <;> decide
  have fought : (fight fieldRules fieldTeams).isOk = true := by decide +kernel
  obtain ⟨report, hf⟩ : ∃ report, fight fieldRules fieldTeams = .ok report := by
    generalize fight fieldRules fieldTeams = r at fought
    cases r with
    | error e => cases fought
    | ok report => exact ⟨report, rfl⟩
  obtain ⟨outcome, rounds, survivors, bounded⟩ := plain_battles_are_duels unskilled plain hf
  refine ⟨unskilled, plain, report, hf, outcome.trans ?_, rounds.trans ?_, survivors.trans ?_,
    (bounded strikes).2 ?_⟩
  · decide +kernel
  · decide +kernel
  · decide +kernel
  · decide +kernel

end Battle

end AutoBattler
