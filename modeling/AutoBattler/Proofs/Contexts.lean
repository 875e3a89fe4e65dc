import AutoBattler.Proofs.Designation
import AutoBattler.Proofs.Wrapping

/-!
# Contexts

The events that are told and those in answer to which effects are performed, over a whole battle or
shop turn. A told event is not marked as repeated, and has a cause only if it tells of a cast; what
the repeats of a cast answer is marked and has no cause of its own, so there they end. Effects are
performed for stored pets.
-/
namespace AutoBattler

open Resolve

namespace Event

/-- The event is as it is told: not a repeat, and with a cause only for a cast. -/
structure IsProper (event : Event) : Prop where
  unrepeated : event.repeated = false
  cause : ∀ cause, event.cause = some cause →
    event.trigger = .castsAbility ∧ cause.repeated = true ∧ cause.cause = none

/-- The event is one that repeats answer. -/
structure IsRepeat (event : Event) : Prop where
  repeated : event.repeated = true
  uncaused : event.cause = none

/-- The event is one in answer to which effects are performed. -/
def IsAnswered (event : Event) : Prop := event.IsProper ∨ event.IsRepeat

theorem isProper_of_fresh {event : Event} (hr : event.repeated = false) (hc : event.cause = none) :
    event.IsProper := by
  refine ⟨hr, fun cause h => ?_⟩
  rw [hc] at h
  cases h

theorem isProper_castEvent (caster : PetId) (side : Side) (event : Event) :
    (castEvent caster side event).IsProper := by
  refine ⟨rfl, fun cause h => ?_⟩
  cases h
  exact ⟨rfl, rfl, rfl⟩

theorem fresh_of_attackEvent {event : Event} (h : AttackEvent event) :
    event.repeated = false ∧ event.cause = none := by
  cases h <;> exact ⟨rfl, rfl⟩

/-- A kind of events that holds the causes of its events and what is told in answer to them. -/
structure Hereditary (C : Event → Prop) : Prop where
  cause : ∀ event cause, C event → event.cause = some cause → C cause
  levelUp : ∀ event side id, C event → C (event.followUp .levelUp side id)
  summoned : ∀ event side id, C event → C (event.followUp .summoned side id)
  attack : ∀ event, C event → event.isBattle = true →
    event.trigger = .beforeAttack ∨ event.trigger = .startOfBattle → ∀ told, AttackEvent told → C told
  cast : ∀ event caster side, C event → C (castEvent caster side event)

theorem hereditary_true : Hereditary fun _ => True :=
  ⟨fun _ _ _ _ => trivial, fun _ _ _ _ => trivial, fun _ _ _ _ => trivial,
    fun _ _ _ _ _ _ => trivial, fun _ _ _ _ => trivial⟩

/-- The event is of a battle, and so are its causes. -/
def InBattle : Event → Prop
  | ⟨_, _, _, _, phase, _, none⟩ => phase = .battle
  | ⟨_, _, _, _, phase, _, some cause⟩ => phase = .battle ∧ cause.InBattle

theorem inBattle_iff (event : Event) :
    event.InBattle ↔ event.phase = .battle ∧ ∀ cause, event.cause = some cause → cause.InBattle := by
  obtain ⟨trigger, source, side, snapshot, phase, repeated, cause⟩ := event
  cases cause with
  | none => simp [InBattle]
  | some cause => simp [InBattle]

theorem inBattle_of_no_cause {event : Event} (hp : event.phase = .battle) (hc : event.cause = none) :
    event.InBattle := by
  rw [inBattle_iff]
  refine ⟨hp, fun cause h => ?_⟩
  rw [hc] at h
  cases h

theorem hereditary_inBattle : Hereditary InBattle where
  cause event cause h hc := ((inBattle_iff event).1 h).2 cause hc
  levelUp event _ _ h := inBattle_of_no_cause ((inBattle_iff event).1 h).1 rfl
  summoned event _ _ h := inBattle_of_no_cause ((inBattle_iff event).1 h).1 rfl
  attack _ _ _ _ _ ht := by cases ht <;> exact inBattle_of_no_cause rfl rfl
  cast event caster side h := by
    have hp := ((inBattle_iff event).1 h).1
    rw [inBattle_iff]
    refine ⟨hp, fun cause hc => ?_⟩
    cases hc
    exact inBattle_of_no_cause hp rfl

/-- An event with a cause is of a battle, and the pet that cast is known. -/
def Traced (K : PetId → Prop) (event : Event) : Prop :=
  event.cause = none ∨ event.isBattle = true ∧ ∀ id, event.source = some id → K id

end Event

/-! ## Known pets -/

namespace Board

/-- The pet is stored, in line or not. -/
def Stored (b : Board) (id : PetId) : Prop := (b.entrant? id).isSome = true

variable {b b' : Board} {side : Side} {pet : Pet} {id x : PetId}

theorem Stored.modifyPet (h : b.Stored x) (id : PetId) (f : Pet → Pet) :
    (b.modifyPet id f).Stored x := by
  unfold Stored at h ⊢
  rw [entrant?_modifyPet]
  split
  · rw [Option.isSome_map]
    exact h
  · exact h

theorem Stores.keeps_stored (hs : Stores b side pet id b') (h : b.Stored x) : b'.Stored x := by
  unfold Stored at h ⊢
  rw [hs.entrants]
  split
  · rfl
  · exact h

theorem Leaves.keeps_stored (hl : Leaves b id side b') (h : b.Stored x) : b'.Stored x := by
  unfold Stored at h ⊢
  rw [hl.entrants]
  exact h

end Board

theorem Board.stored_of_pet? {b : Board} {id : PetId} {pet : Pet} (h : b.pet? id = some pet) :
    b.Stored id := by
  obtain ⟨entrant, he, _⟩ := Option.map_eq_some_iff.1 h
  exact Option.isSome_iff_exists.2 ⟨entrant, he⟩

/-- A well-formed board with the property, on which the given pets are stored. -/
structure Knowing (B : Board → Prop) (K : PetId → Prop) (b : Board) : Prop where
  wellFormed : b.WellFormed
  holds : B b
  stored : ∀ id, K id → b.Stored id

theorem BoardInvariant.knowing {S : Scope} {c : Catalog} {B : Board → Prop}
    (h : BoardInvariant S c B) (K : PetId → Prop) : BoardInvariant S c (Knowing B K) where
  known b hb := h.known b hb.holds
  edit b hb f hf id :=
    ⟨hb.wellFormed.modifyPet id f, h.edit b hb.holds f hf id, fun x hx => (hb.stored x hx).modifyPet id f⟩
  gainPoint b hb amount target hg hpos id :=
    ⟨hb.wellFormed.modifyPet id _, h.gainPoint b hb.holds amount target hg hpos id,
      fun x hx => (hb.stored x hx).modifyPet id _⟩
  promote b hb id level :=
    ⟨hb.wellFormed.modifyPet id _, h.promote b hb.holds id level,
      fun x hx => (hb.stored x hx).modifyPet id _⟩
  damage b hb amount id :=
    ⟨hb.wellFormed.modifyPet id _, h.damage b hb.holds amount id,
      fun x hx => (hb.stored x hx).modifyPet id _⟩
  arrive b hb side pet id b' hp ha :=
    ⟨ha.wellFormed hb.wellFormed, h.arrive b hb.holds side pet id b' hp ha,
      fun x hx => ha.toStores.keeps_stored (hb.stored x hx)⟩
  exchange b hb into kind hi hk id side new b' he :=
    ⟨he.wellFormed hb.wellFormed, h.exchange b hb.holds into kind hi hk id side new b' he,
      fun x hx => he.toStores.keeps_stored (hb.stored x hx)⟩
  leave b hb id side b' hl :=
    ⟨hl.wellFormed hb.wellFormed, h.leave b hb.holds id side b' hl,
      fun x hx => hl.keeps_stored (hb.stored x hx)⟩

/-! ## Wrappings that make no difference -/

/-- The scope of all effects and pets in answer to such events. -/
def Scope.answering (C : Event → Prop) : Scope := ⟨C, fun _ => True, fun _ => True⟩

/-- The wrapping makes no difference to proper events of the kind on a board with the property, nor
to the effects performed in answer to them and to their repeats for stored pets. -/
structure Wrapping.Idle (w : Wrapping) (C : Event → Prop) (B : Board → Prop) : Prop where
  tell : ∀ event m s, event.IsProper → C event → B s.board → w.tell event m s = m s
  act : ∀ event actor effect m s, event.IsAnswered → C event → B s.board →
    (∀ id, actor = some id → s.board.Stored id) → w.act event actor effect m s = m s
  fire : ∀ holder event id ability m s, event.IsProper → C event → B s.board →
    s.board.Stored id → w.fire holder event id ability m s = m s

namespace Wrapping.Idle

variable {w : Wrapping} {C : Event → Prop} {B : Board → Prop} {rules : Rules} {event : Event}
  {K : PetId → Prop}

/-- The events that are told where the pets are known. -/
structure Told (C : Event → Prop) (K : PetId → Prop) (event : Event) : Prop where
  proper : event.IsProper
  kind : C event
  traced : event.Traced K

/-- The scope in which effects are performed where the pets are known. -/
def scope (C : Event → Prop) (K : PetId → Prop) : Scope :=
  .answering fun event => Told C K event ∨ event.IsRepeat ∧ C event

def failed (B : Board → Prop) (_ : EngineError) (s : Arena) : Prop := s.board.WellFormed ∧ B s.board

/-- Both arenas are one, on whose board the pets are stored. -/
abbrev relation (B : Board → Prop) (K : PetId → Prop) : Arena → Arena → Prop :=
  Same (BoardInvariant.holds (Knowing B K))

theorem told_of_fresh (hr : event.repeated = false) (hc : event.cause = none) (he : C event) :
    Told C K event := ⟨Event.isProper_of_fresh hr hc, he, .inl hc⟩

/-- The property is kept by all changes of a board, whatever they answer. -/
abbrev Kept (c : Catalog) (B : Board → Prop) : Prop :=
  ∀ C : Event → Prop, BoardInvariant (.answering C) c B

theorem elementary (hB : Kept rules.catalog B) (C : Event → Prop) (K : PetId → Prop) :
    Elementary (scope C K) rules.catalog (.same (failed B)) (relation B K) :=
  BoardInvariant.elementary ((hB _).knowing K).toEditInvariant
    fun _ _ _ h => ⟨h.wellFormed, h.holds⟩

/-- What has a cause tells of a cast, and the cause is a repeat. -/
theorem told_of_cause {cause : Event} (he : (scope C K).events event)
    (hc : event.cause = some cause) : Told C K event ∧ cause.IsRepeat := by
  rcases he with ht | ⟨hr, _⟩
  · obtain ⟨_, hrepeated, hnone⟩ := ht.proper.cause cause hc
    exact ⟨ht, hrepeated, hnone⟩
  · rw [hr.uncaused] at hc
    cases hc

theorem covers (hC : Event.Hereditary C) (K : PetId → Prop) (c : Catalog) : (scope C K).Covers c where
  effects ability _ := ability.effect.every_true
  cause event cause he hc :=
    .inr ⟨(told_of_cause he hc).2, hC.cause event cause (told_of_cause he hc).1.kind hc⟩

theorem leads (hC : Event.Hereditary C) (K : PetId → Prop) : Leads (scope C K) (Told C K) := by
  have kind {event : Event} (he : (scope C K).events event) : C event := by
    rcases he with ht | ⟨_, hc⟩
    · exact ht.kind
    · exact hc
  constructor
  · intro event side id he
    exact told_of_fresh rfl rfl (hC.levelUp event side id (kind he))
  · intro event side id he
    exact told_of_fresh rfl rfl (hC.summoned event side id (kind he))
  · intro event he hb hloud told ht
    obtain ⟨hr, hc⟩ := Event.fresh_of_attackEvent ht
    exact told_of_fresh hr hc (hC.attack event (kind he) hb hloud told ht)

/-- The pets that repeat an ability are the actor, the one that cast, or in line. -/
theorem stored_of_candidate {b : Board} {cause : Event} {actor : Option PetId} {id : PetId}
    (hb : Knowing B K b) (ht : Told C K event) (hc : event.cause = some cause)
    (ha : ∀ id, actor = some id → K id) (h : (⟨b, event, actor⟩ : Targeting.View).Candidate id) :
    b.Stored id := by
  obtain ⟨hbattle, hsource⟩ : event.isBattle = true ∧ ∀ id, event.source = some id → K id := by
    rcases ht.traced with hnone | traced
    · rw [hc] at hnone
      cases hnone
    · exact traced
  cases h with
  | actor h => exact hb.stored id (ha id h)
  | source h => exact hb.stored id (hsource id h)
  | bought h =>
    have hphase : event.phase = .battle := of_decide_eq_true hbattle
    simp [Event.purchaseTarget?, hphase] at h
  | inLine side h => exact hb.wellFormed.entrant?_isSome h

theorem hides (hw : w.Idle C B) (hC : Event.Hereditary C) :
    w.Hides (scope C) (fun K actor => ∀ id, actor = some id → K id) (.same (failed B))
      (relation B) where
  act K event actor effect he ha _ m n hm := by
    have answered : event.IsAnswered ∧ C event := by
      rcases he with ht | ⟨hr, hc⟩
      · exact ⟨.inl ht.proper, ht.kind⟩
      · exact ⟨.inr hr, hc⟩
    exact hm.congr_right fun s hs => hw.act event actor effect n s answered.1 answered.2 hs.holds
      fun id h => hs.stored id (ha id h)
  meet K event cause actor target level he hc ha _ := by
    constructor
    rintro s t ⟨rfl, hs⟩
    obtain ⟨ht, hr⟩ := told_of_cause he hc
    let ids := (Targeting.resolve ⟨s.board, event, actor⟩ target s.random).1
    have stored : ∀ id, K id ∨ id ∈ ids → s.board.Stored id := by
      rintro id (hk | hm)
      · exact hs.stored id hk
      · exact stored_of_candidate hs ht hc ha (Targeting.candidate_of_mem_resolve hm)
    refine .ok ⟨fun id => K id ∨ id ∈ ids, ?_, .inr ⟨hr, hC.cause event cause ht.kind hc⟩, ?_, rfl, ?_⟩
    · rintro s t ⟨hst, h⟩
      exact ⟨hst, h.wellFormed, h.holds, fun id hk => h.stored id (.inl hk)⟩
    · rintro id hm x hx
      cases hx
      exact .inr hm
    · exact ⟨hs.wellFormed, hs.holds, stored⟩

/-! ## Dispatch -/

section

variable {raise raise' : Raise}

theorem acting (hB : Kept rules.catalog B) (hC : Event.Hereditary C)
    (hr : ∀ K event, Told C K event →
      Keeps (.same (failed B)) (relation B K) (raise event) (raise' event)) (K : PetId → Prop) :
    Acting (scope C K) rules rules raise raise' (.same (failed B)) (relation B K) :=
  ((hB _).knowing K).boardSteps.acting (elementary hB C K) rfl (leads hC K) (hr K)

/-- A stored pet answers: it is known while its abilities fire, and so is the cast. -/
theorem notify (hw : w.Idle C B) (hB : Kept rules.catalog B) (hC : Event.Hereditary C)
    (hr : ∀ K event, Told C K event →
      Keeps (.same (failed B)) (relation B K) (raise event) (raise' event))
    (he : Told C K event) (line : List PetId) {id : PetId} (hid : K id) (pet : Pet) :
    Keeps (.same (failed B)) (relation B K)
      (Resolve.notify rules raise (Resolve.perform rules raise) event line id pet)
      (w.notify rules raise' (w.perform rules raise') event line id pet) := by
  have known : ∀ x, some id = some x → K x := by
    intro x hx
    cases hx
    exact hid
  have performed (ability : Ability) := keeps_perform (elementary hB C) (acting hB hC hr)
    (covers hC · rules.catalog) (hw.hides hC) event K (.inl he) (some id) known ability.effect
    ability.effect.every_true
  have elementary := elementary hB C K
  have announced (effect : Effect) : Keeps (.same (failed B)) (relation B K)
      (announceCast raise id effect event) (announceCast raise' id effect event) := by
    refine keeps_announceCast_of_raise elementary (fun hbattle _ _ side => hr K _ ?_) effect
    refine ⟨Event.isProper_castEvent id side event, hC.cast event id side he.kind, .inr ⟨hbattle, ?_⟩⟩
    exact fun x hx => known x hx
  refine keeps_notify elementary trivial (fun ability _ => ?_) fun ability _ => ?_
  · have fired := Couples.bind (performed ability) fun _ => announced ability.effect
    exact keeps_fireLevel elementary <| fired.congr_right fun s hs =>
      hw.fire _ event id ability _ s he.proper he.kind hs.holds (hs.stored id hid)
  · have fired := Couples.bind (performed ability) fun _ => keeps_pure ()
    exact keeps_fireStatus elementary <| fired.congr_right fun s hs =>
      hw.fire _ event id ability _ s he.proper he.kind hs.holds (hs.stored id hid)

/-- A pet that is reached is stored, and so becomes known. -/
theorem walk (hw : w.Idle C B) (hB : Kept rules.catalog B) (hC : Event.Hereditary C)
    (hr : ∀ K event, Told C K event →
      Keeps (.same (failed B)) (relation B K) (raise event) (raise' event))
    (he : Told C K event) (line : List PetId) :
    Keeps (.same (failed B)) (relation B K)
      (Resolve.walk rules raise (Resolve.perform rules raise) event line [] line)
      (w.walk rules raise' (w.perform rules raise') event line [] line) := by
  refine keeps_walk (elementary hB C K).boards (fun id pet => ?_) line []
  constructor
  rintro s t ⟨⟨rfl, hs⟩, hreached⟩
  let K' (x : PetId) : Prop := K x ∨ x = id
  have told : Told C K' event :=
    ⟨he.proper, he.kind, he.traced.imp_right fun h => ⟨h.1, fun x hx => .inl (h.2 x hx)⟩⟩
  have stored : ∀ x, K' x → s.board.Stored x := by
    rintro x (hx | rfl)
    · exact hs.stored x hx
    · exact Board.stored_of_pet? (pet?_of_reached? hreached)
  have answered := (notify hw hB hC hr told line (.inr rfl) pet).agree s s
    ⟨rfl, hs.wellFormed, hs.holds, stored⟩
  exact answered.weaken fun _ _ _ h => ⟨h.1, h.2.wellFormed, h.2.holds, fun x hx => h.2.stored x (.inl hx)⟩

end

/-- By induction on the room for nesting. -/
theorem dispatchIn (hw : w.Idle C B) (hB : Kept rules.catalog B) (hC : Event.Hereditary C)
    (room : Nat) (he : Told C K event) :
    Keeps (.same (failed B)) (relation B K) (Resolve.dispatchIn rules room event)
      (w.dispatchIn rules room event) := by
  induction room generalizing K event with
  | zero =>
    refine Couples.congr_right ?_ fun s hs => hw.tell event _ s he.proper he.kind hs.holds
    exact couples_fail fun s t h => ⟨h.1, h.2.wellFormed, h.2.holds⟩
  | succ room ih =>
    refine Couples.congr_right ?_ fun s hs => hw.tell event _ s he.proper he.kind hs.holds
    have guarding : Guarding rules rules (.same (failed B)) (relation B K) :=
      BoardInvariant.guarding rules (fun _ _ _ h => ⟨h.wellFormed, h.holds⟩) fun _ _ _ h => h
    refine Couples.bind guarding.count fun _ => guarding.nested _ _ ?_
    rw [notifyAll_eq]
    refine keeps_tellLine (elementary hB C K).boards guarding.depth fun _ line => ?_
    refine Couples.bind (guarding.record _) fun slot => ?_
    exact Couples.bind (walk hw hB hC (fun _ _ => ih) he line) fun ids => guarding.notified slot ids

/-! ## Whole calls -/

section

variable {b : Battle} {s : Arena}

/-- Events of every kind. -/
abbrev Everywhere (w : Wrapping) (B : Board → Prop) : Prop := w.Idle (fun _ => True) B

theorem dispatch (hw : Everywhere w B) (hB : Kept rules.catalog B) (hr : event.repeated = false)
    (hc : event.cause = none) (K : PetId → Prop) :
    Keeps (.same (failed B)) (relation B K) (Resolve.dispatch rules event) (w.dispatch rules event) :=
  hw.dispatchIn hB Event.hereditary_true _ (told_of_fresh hr hc trivial)

theorem playAttacks (hw : Everywhere w B) (hB : Kept rules.catalog B) (K : PetId → Prop)
    (attacks : List Attack) :
    Keeps (.same (failed B)) (relation B K) (playAttacks rules (Resolve.dispatch rules) attacks)
      (playAttacks rules (w.dispatch rules) attacks) := by
  have steps := ((hB fun _ => True).knowing K).boardSteps (E := failed B)
  have simple : Elementary Scope.all rules.catalog (.same (failed B)) (relation B K) :=
    BoardInvariant.elementary ((hB _).knowing K).toEditInvariant
      fun _ _ _ h => ⟨h.wellFormed, h.holds⟩
  refine keeps_playAttacks simple rfl steps.damage steps.remove (fun event ht => ?_) attacks
  obtain ⟨hr, hc⟩ := Event.fresh_of_attackEvent ht
  exact hw.dispatch hB hr hc K

theorem drainQueues (hw : Everywhere w B) (hB : Kept rules.catalog B) (K : PetId → Prop) :
    Keeps (.same (failed B)) (relation B K) (Resolve.drainQueues rules) (w.drainQueues rules) := by
  refine keeps_drainQueues ⟨?_, ?_, ?_⟩ (hw.playAttacks hB K)
  · rintro s t ⟨rfl, _⟩
    rfl
  · rintro s t ⟨rfl, _⟩
    rfl
  · rintro s t ⟨rfl, hs⟩
    exact ⟨rfl, hs⟩

theorem opening (hw : Everywhere w B) (hB : Kept rules.catalog B) (K : PetId → Prop) :
    Keeps (.same (failed B)) (relation B K) (Battle.opening (Resolve.procedures rules))
      (Battle.opening (w.procedures rules)) :=
  Battle.keeps_opening_of (fun _ => hw.dispatch hB rfl rfl K) (hw.drainQueues hB K)

theorem attackCycle (hw : Everywhere w B) (hB : Kept rules.catalog B) (K : PetId → Prop) :
    Keeps (.same (failed B)) (relation B K) (attackCycle rules (Resolve.procedures rules))
      (attackCycle rules (w.procedures rules)) := by
  refine keeps_attackCycle_of ?_ (hw.playAttacks hB K) (hw.drainQueues hB K)
  rintro s t ⟨rfl, _⟩
  rfl

/-- Starting a battle is the same with the wrapping and without. -/
theorem startWith (hw : Everywhere w B) (hB : Kept rules.catalog B)
    (hb : Knowing B (fun _ => False) b.arena.board) :
    b.startWith (w.procedures rules) = b.start rules := by
  have same := (hw.opening hB fun _ => False).eq hb
  unfold Battle.start Battle.startWith Battle.play
  rw [same]

theorem stepWith (hw : Everywhere w B) (hB : Kept rules.catalog B)
    (hb : Knowing B (fun _ => False) b.arena.board) :
    b.stepWith rules (w.procedures rules) = b.step rules := by
  have kept := ((hB fun _ => True).knowing fun _ => False).opening (Scope.covers_all _)
    (.of_all fun _ => trivial) (.of_all fun _ => trivial)
  have started := Battle.ends_start kept hb
  have same := hw.startWith hB hb
  unfold Battle.step Battle.stepWith
  unfold Battle.start at started same
  split
  · rfl
  · rw [same]
    split
    · rename_i b₁ h₁
      have cycled := (hw.attackCycle hB fun _ => False).eq (started.ok h₁)
      unfold Battle.advanceWith Battle.play
      dsimp only
      rw [cycled]
    · rfl

theorem beside (hw : Everywhere w B) (hB : Kept rules.catalog B) (K : PetId → Prop) :
    PurchasePhase.Beside rules rules (fun _ => True) (.same (failed B)) (relation B K)
      (Resolve.procedures rules) (w.procedures rules) where
  catalog := rfl
  boards := by
    rintro s t ⟨rfl, _⟩
    rfl
  shops := by
    rintro s t ⟨rfl, _⟩
    rfl
  failed := by
    rintro e s t ⟨rfl, hs⟩
    exact ⟨rfl, hs.wellFormed, hs.holds⟩
  tell event he _ _ := hw.dispatch hB he.unrepeated he.uncaused K
  act event he _ ability _ := by
    have told : Told (fun _ => True) K event := told_of_fresh he.unrepeated he.uncaused trivial
    have heard K event (h : Told (fun _ => True) K event) :=
      hw.dispatchIn hB Event.hereditary_true rules.config.maxDispatchDepth h
    exact keeps_perform (elementary hB _) (acting hB Event.hereditary_true heard)
      (covers Event.hereditary_true · rules.catalog) (hw.hides Event.hereditary_true) event K
      (.inl told) none (fun _ => nofun) ability.effect ability.effect.every_true
  remove id := ((hB fun _ => True).knowing K).boardSteps.remove id
  pay _ := Triple.intro fun _ hs => hs

/-- The step of a call of a shop turn is the same with the wrapping and without. -/
theorem resolve (hw : Everywhere w B) (hB : Kept rules.catalog B) (c : PurchasePhase.Call)
    (hplace : c.Brings fun pet => ∀ b id b', B b → b.Arrives .a pet id b' → B b')
    (hs : Knowing B (fun _ => False) s.board) :
    c.resolve rules (w.procedures rules) s = c.resolve rules (Resolve.procedures rules) s := by
  have spawned : c.Brings fun pet => ∀ placement, Triple (failed B)
      (BoardInvariant.holds (Knowing B fun _ => False)) (spawn .a pet placement) fun _ =>
        BoardInvariant.holds (Knowing B fun _ => False) := by
    cases c with
    | placePet pet index tierOne afterLoss =>
      refine triple_spawn fun s hs id b ha => ?_
      exact ⟨ha.wellFormed hs.wellFormed, hplace s.board id b hs.holds ha, fun _ => False.elim⟩
    | _ => trivial
  exact (((hw.beside hB fun _ => False).call c (fun _ _ => trivial) spawned).eq hs).symm

/-- In every battle, whatever calls were made and however they ended. -/
theorem battle (hw : Everywhere w B) (hB : Kept rules.catalog B) {teams : Sides Team}
    (hnew : B (.ofTeams teams)) (hb : Battle.Reachable rules teams b) :
    b.startWith (w.procedures rules) = b.start rules ∧
      b.stepWith rules (w.procedures rules) = b.step rules := by
  have holds := (hB fun _ => True).of_reachable (Scope.covers_all _) (.of_all fun _ => trivial)
    (.of_all fun _ => trivial) hnew hb
  have knowing : Knowing B (fun _ => False) b.arena.board :=
    ⟨Battle.wellFormed_of_reachable hb, holds, fun _ => False.elim⟩
  exact ⟨hw.startWith hB knowing, hw.stepWith hB knowing⟩

/-- In every turn, whatever calls were made and however they ended. -/
theorem turn (hw : Everywhere w B) (hB : Kept rules.catalog B) {team : Team} {shop : Shop}
    {admitted : Pet → Prop} (hnew : B (.ofTeam team))
    (hplace : ∀ pet, admitted pet → ∀ b id b', B b → b.Arrives .a pet id b' → B b')
    {p : PurchasePhase} (hp : PurchasePhase.Reachable rules team shop admitted p)
    (c : PurchasePhase.Call) (hc : c.Brings admitted) :
    c.resolve rules (w.procedures rules) p.arena =
      c.resolve rules (Resolve.procedures rules) p.arena := by
  have holds : p.arena.board.WellFormed ∧ B p.arena.board := by
    induction hp with
    | new => exact ⟨Board.wellFormed_ofTeam team, hnew⟩
    | call _ c hc ih =>
      refine ((hB fun _ => True).wellFormed.call (Scope.covers_all _) (.of_all fun _ => trivial)
        (fun _ _ => trivial) (fun _ hb => hb.1) ih c (hc.imp fun pet hpet b id b' hb ha => ?_)).1
      exact ⟨ha.wellFormed hb.1, hplace pet hpet b id b' hb.2 ha⟩
  exact hw.resolve hB c (hc.imp hplace) ⟨holds.1, holds.2, fun _ => False.elim⟩

end

end Wrapping.Idle

end AutoBattler
