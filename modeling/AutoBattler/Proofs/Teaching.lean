import AutoBattler.Proofs.BoardInvariant
import AutoBattler.Proofs.Levels

/-!
# Levels in battles and shop turns

Throughout a resolution no stored pet has a level that it has not earned. Where nothing fails, the
course of every pet follows from what was told. A pet that has its level announced once at a time
keeps the level that its experience is worth; a pet whose level is announced again meanwhile was
announced more levels than it got. Points come with events, so few events leave room in the range of
experience.
-/
namespace AutoBattler

open Resolve

namespace Resolve

variable {s s₀ t u : Arena} {rules : Rules} {raise : Raise} {event : Event} {b : Board}
  {e : EngineError} {least least' extra : Nat} {admitted : Pet → Prop}

/-! ## From one arena to another -/

/-- The arena `t` has come out of `s`, and the records between say how the pets grew. -/
structure Since (s t : Arena) : Prop where
  wellFormed : t.board.WellFormed
  grown : Grown (fun told => (Forest s.nesting told ∧ Board.Course told s.board t.board) ∧
    s.dispatched + told.length ≤ t.dispatched) s t

/-- The arena `t` has come out of `s`, whatever was told. At least `least` events were raised, and no
more levels of a pet were announced than events were raised, and `extra` ones. -/
structure Rising (admitted : Pet → Prop) (least extra : Nat) (s t : Arena) : Prop where
  wellFormed : t.board.WellFormed
  enabled : t.log.enabled = s.log.enabled
  counted : s.dispatched + least ≤ t.dispatched
  advances : s.board.Advances admitted (t.dispatched - s.dispatched + extra) t.board

/-- What a failure leaves. A point may have been given whose level could not be announced. -/
def failedIn (admitted : Pet → Prop) (least : Nat) (s : Arena) : EngineError → Arena → Prop :=
  fun _ t => Rising admitted 0 0 s t ∨ Rising admitted least 1 s t

theorem Since.refl (h : s.board.WellFormed) : Since s s :=
  ⟨h, .refl ⟨⟨forest_nil, .refl s.board⟩, Nat.le_refl _⟩⟩

theorem Since.congr (h : Since s t) (hl : u.log = t.log) (hn : u.nesting = t.nesting)
    (hd : u.dispatched = t.dispatched) (hb : u.board = t.board) : Since s u := by
  obtain ⟨wellFormed, grown⟩ := h
  rw [← hb] at wellFormed grown
  rw [← hd] at grown
  exact ⟨wellFormed, grown.congr hl hn⟩

theorem Since.trans (h : Since s t) (h' : Since t u) : Since s u where
  wellFormed := h'.wellFormed
  grown := h.grown.trans h'.grown fun told told' hs ht => by
    rw [h.grown.nesting] at ht
    refine ⟨⟨hs.1.1.append ht.1.1, hs.1.2.trans hs.1.1 ht.1.1 ht.1.2⟩, ?_⟩
    rw [List.length_append]
    omega

/-- A change of the board of which nothing is told. -/
theorem Since.board (h : Since s t) (hb : b.WellFormed) (hc : Board.Course [] t.board b) :
    Since s { t with board := b } :=
  h.trans ⟨hb, rfl, rfl, [], ⟨⟨forest_nil, hc⟩, Nat.le_refl _⟩, fun _ => (List.append_nil _).symm⟩

theorem Since.modifyPet (h : Since s t) (id : PetId) {f : Pet → Pet}
    (hf : ∀ p, (f p).level = p.level ∧ (f p).experience = p.experience) :
    Since s { t with board := t.board.modifyPet id f } :=
  h.board (h.wellFormed.modifyPet id f) (.modifyPet fun p _ => .same (hf p).1 (hf p).2 rfl)

theorem Since.rising (h : Since s t) : Rising Pet.Leveled 0 0 s t := by
  obtain ⟨told, ⟨⟨_, course⟩, count⟩, _⟩ := h.grown.told
  exact ⟨h.wellFormed, h.grown.enabled, by omega, course.advances.mono (by omega)⟩

theorem Rising.refl (h : s.board.WellFormed) : Rising admitted 0 0 s s :=
  ⟨h, rfl, Nat.le_refl _, (Board.Advances.refl _).mono (Nat.zero_le _)⟩

theorem Rising.trans (h : Rising admitted 0 0 s t) (h' : Rising admitted least extra t u) :
    Rising admitted least extra s u where
  wellFormed := h'.wellFormed
  enabled := h'.enabled.trans h.enabled
  counted := Nat.le_trans (Nat.add_le_add_right h.counted least) h'.counted
  advances := by
    have first := h.counted
    have second := h'.counted
    exact (h.advances.trans h'.advances).mono (by omega)

theorem Rising.imp {admitted' : Pet → Prop} (h : Rising admitted least extra s t)
    (ha : ∀ p, admitted p → admitted' p) : Rising admitted' least extra s t :=
  ⟨h.wellFormed, h.enabled, h.counted, h.advances.imp ha⟩

theorem Rising.more (h : Rising admitted 0 0 s t) : Rising admitted 0 1 s t :=
  ⟨h.wellFormed, h.enabled, h.counted, h.advances.mono (Nat.le_succ _)⟩

theorem Since.failed (h : Since s t) : failedIn Pet.Leveled least s e t := .inl h.rising

theorem Rising.failedIn (h : Rising admitted 0 0 s t) (he : failedIn admitted least t e u) :
    failedIn admitted least s e u := he.imp h.trans h.trans

/-- A step that goes on from where it starts goes on from anywhere before. -/
theorem since_of_ends {α : Type} {m : Resolve α}
    (h : ∀ s, s.board.WellFormed → Ends (failedIn Pet.Leveled least s) (fun _ => Since s) (m s)) :
    Triple (failedIn Pet.Leveled least s₀) (Since s₀) m fun _ => Since s₀ :=
  Triple.intro fun s hs => (h s hs.wellFormed).weaken (fun _ _ he => hs.rising.failedIn he)
    fun _ _ ht => hs.trans ht

theorem elementary_since (least : Nat) (s₀ : Arena) (c : Catalog) :
    Elementary Scope.all c (.same (failedIn Pet.Leveled least s₀)) (Same (Since s₀)) :=
  elementary_of_congr (fun _ _ _ _ _ => trivial) (fun _ _ h hl hn hd hb => h.congr hl hn hd hb)
    (fun _ h _ hf id => h.modifyPet id (level_edit hf)) fun _ _ _ h => h.failed

/-! ## Events -/

/-- Telling an event adds its record, and the course of every pet follows from what is told while
it is answered. A failure comes after at least `least` events. -/
def Announces (least : Nat) (raise : Raise) : Prop :=
  ∀ event s, s.board.WellFormed → Ends (fun _ => Rising Pet.Leveled least 0 s)
    (fun _ t => t.board.WellFormed ∧ Grown (fun told => ∃ inner, ((Forest (s.nesting + 1) inner ∧
      Board.Course inner s.board t.board) ∧ s.dispatched + 1 + inner.length ≤ t.dispatched) ∧
      told = event.record (s.nesting + 1) :: inner) s t)
    (raise event s)

theorem Rising.weaken (h : Rising admitted least extra s t) : Rising admitted 0 extra s t :=
  ⟨h.wellFormed, h.enabled, Nat.le_trans (Nat.le_add_right ..) h.counted, h.advances⟩

theorem Announces.ends (h : Announces least raise) (he : event.trigger ≠ .levelUp)
    (hs : s.board.WellFormed) :
    Ends (failedIn Pet.Leveled least' s) (fun _ => Since s) (raise event s) := by
  refine (h event s hs).weaken (fun _ _ he => .inl he.weaken) fun _ t ⟨wellFormed, grown⟩ =>
    ⟨wellFormed, ?_⟩
  refine grown.mono ?_
  rintro _ ⟨inner, ⟨⟨forest, course⟩, count⟩, rfl⟩
  refine ⟨⟨forest.branch rfl, course.branch he forest.deeper⟩, ?_⟩
  rw [List.length_cons]
  omega

theorem Announces.keeps (h : Announces least raise) (he : event.trigger ≠ .levelUp) :
    Triple (failedIn Pet.Leveled least' s₀) (Since s₀) (raise event) fun _ => Since s₀ :=
  since_of_ends fun _ hs => h.ends he hs

/-! ## Experience -/

section

variable {id : PetId} {p : Pet} {side : Side}

/-- The arena with a point more for the pet. -/
def taught (s : Arena) (id : PetId) : Arena :=
  { s with board := s.board.modifyPet id Pet.gainPoint }

theorem since_taught (hs : s.board.WellFormed) (hp : s.board.pet? id = some p)
    (hmax : ¬ maxLevel ≤ p.level) (hearned : p.gainPoint.earnedLevel? = none) :
    Since s (taught s id) := by
  refine (Since.refl hs).board (hs.modifyPet id _) (.modifyPet fun q hq => ?_)
  rw [hp] at hq
  cases hq
  exact .point hmax hearned

/-- The level of the point could not be announced. -/
theorem failedIn_taught (hp : s.board.pet? id = some p) (hmax : ¬ maxLevel ≤ p.level)
    (ht : Rising Pet.Leveled least 0 (taught s id) t) : failedIn Pet.Leveled least s e t := by
  have point : s.board.Advances Pet.Leveled 1 (taught s id).board := Board.advances_gainPoint hp hmax
  refine .inr ⟨ht.wellFormed, ht.enabled, ht.counted, (point.trans ht.advances).mono ?_⟩
  exact Nat.le_of_eq (Nat.add_comm ..)

/-- After the announcement the pet gets the level, whatever was done to it meanwhile. -/
theorem since_announced (hp : s.board.pet? id = some p)
    (hmax : ¬ maxLevel ≤ p.level) {level : Nat} (hearned : p.gainPoint.earnedLevel? = some level)
    (ht : t.board.WellFormed)
    (hg : Grown (fun told => ∃ inner, ((Forest (s.nesting + 1) inner ∧
      Board.Course inner (taught s id).board t.board) ∧
      s.dispatched + 1 + inner.length ≤ t.dispatched) ∧
      told = (event.followUp .levelUp side id).record (s.nesting + 1) :: inner) (taught s id) t) :
    Since s { t with board := t.board.modifyPet id (Pet.promote level) } := by
  obtain ⟨told, ⟨inner, ⟨⟨forest, course⟩, count⟩, rfl⟩, hlog⟩ := hg.told
  have announced : Board.Course
      ((event.followUp .levelUp side id).record (s.nesting + 1) :: inner) s.board
      (t.board.modifyPet id (Pet.promote level)) :=
    course.announced hp hmax hearned rfl rfl forest.deeper
  refine ⟨ht.modifyPet id _, hg.enabled, hg.nesting, _, ⟨⟨forest.branch rfl, announced⟩, ?_⟩, hlog⟩
  rw [List.length_cons]
  exact Nat.le_trans (Nat.le_of_eq (by omega)) count

end

theorem ends_grantExperience (h : Announces least raise) (event : Event) (side : Side) (id : PetId)
    (amount : Nat) (hs : s.board.WellFormed) :
    Ends (failedIn Pet.Leveled least s) (fun _ => Since s)
      (grantExperience raise event side id amount s) := by
  induction amount generalizing s with
  | zero => exact .refl hs
  | succ amount ih =>
    unfold grantExperience
    rw [bind_run]
    dsimp only [pet?, look]
    cases hp : s.board.pet? id with
    | none => exact .refl hs
    | some p =>
      dsimp only
      by_cases hmax : maxLevel ≤ p.level
      · rw [if_pos hmax]
        exact .refl hs
      · rw [if_neg hmax]
        refine Ends.bind (A := fun _ u => u = taught s id) rfl ?_
        rintro _ _ rfl
        have wellFormed : (taught s id).board.WellFormed := hs.modifyPet id _
        cases hearned : p.gainPoint.earnedLevel? with
        | none =>
          have point := since_taught hs hp hmax hearned
          exact (ih wellFormed).weaken (fun _ _ he => point.rising.failedIn he)
            fun _ _ ht => point.trans ht
        | some level =>
          have told := h (event.followUp .levelUp side id) (taught s id) wellFormed
          refine (told.weaken (fun _ _ he => failedIn_taught hp hmax he) fun _ _ ht => ht).bind
            fun _ t ht => ?_
          have announced := since_announced hp hmax hearned ht.1 ht.2
          refine Ends.bind (A := fun _ u => Since s u) announced fun _ u hu => ?_
          split
          · exact hu
          · exact (ih hu.wellFormed).weaken (fun _ _ he => hu.rising.failedIn he)
              fun _ _ hv => hu.trans hv

theorem since_teach (h : Announces least raise) (event : Event) (amount : Nat) (id : PetId) :
    Triple (failedIn Pet.Leveled least s₀) (Since s₀) (teach raise event amount id)
      fun _ => Since s₀ := by
  apply since_of_ends
  intro s hs
  unfold teach
  rw [bind_run]
  dsimp only [board, look]
  cases s.board.sideOf? id with
  | none => exact .refl hs
  | some side => exact ends_grantExperience h event side id amount hs

/-! ## Whole resolutions -/

theorem since_spawn {pet : Pet} (hp : pet.Leveled) (side : Side) (placement : Placement) :
    Triple (failedIn Pet.Leveled least s₀) (Since s₀) (spawn side pet placement) fun _ => Since s₀ := by
  refine triple_spawn (fun s hs id b ha => ?_) placement
  have hw := hs.wellFormed
  exact hs.board (ha.wellFormed hw) (.stores hw ha.toStores hp)

theorem since_replace {pet : Pet} (hp : pet.Leveled) (id : PetId) :
    Triple (failedIn Pet.Leveled least s₀) (Since s₀) (replace id pet) fun _ => Since s₀ := by
  refine triple_replace fun s hs side new b he => ?_
  have hw := hs.wellFormed
  exact hs.board (he.wellFormed hw) (.stores hw he.toStores hp)

theorem since_remove (id : PetId) :
    Triple (failedIn Pet.Leveled least s₀) (Since s₀) (remove id) fun _ => Since s₀ :=
  triple_remove fun _ hs _ _ hl => hs.board (hl.wellFormed hs.wellFormed) (.leave hl)

theorem since_playAttacks (h : Announces least raise) (attacks : List Attack) :
    Triple (failedIn Pet.Leveled least' s₀) (Since s₀) (playAttacks rules raise attacks)
      fun _ => Since s₀ := by
  refine keeps_playAttacks (elementary_since least' s₀ rules.catalog) rfl (fun amount id => ?_)
    since_remove (fun event he => h.keeps ?_) attacks
  · exact Triple.intro fun _ hs => hs.modifyPet id fun _ => ⟨rfl, rfl⟩
  · cases he <;> exact nofun

theorem telling_since (rules : Rules) (h : Announces least raise) (s₀ : Arena) : Telling Scope.all rules
    rules raise raise (.same (failedIn Pet.Leveled least s₀)) (Same (Since s₀)) where
  play _ _ _ _ _ _ _ _ := since_playAttacks h _
  teach event _ amount _ _ id := since_teach h event amount id
  bringIn event _ pet hp side _ placement copies := by
    refine keeps_bringIn (since_spawn (leveled_newcomer hp) side placement) (fun id => ?_) copies
    exact h.keeps nofun
  evolve _ kind _ _ id := since_replace (Pet.leveled_ofKind kind) id
  cast event _ _ _ _ caster side := by
    exact h.keeps nofun

/-- The event itself makes up for the point whose level could not be announced. -/
theorem rising_of_opened (h : failedIn Pet.Leveled least (s.opened event) e t) :
    Rising Pet.Leveled 1 0 s { t with nesting := t.nesting - 1 } := by
  have enabled : (s.opened event).log.enabled = s.log.enabled := s.log.enabled_openRecord _
  have one : (s.opened event).dispatched = s.dispatched + 1 := rfl
  obtain ⟨wellFormed, he, counted, advances⟩ | ⟨wellFormed, he, counted, advances⟩ := h
  all_goals
    have counted : s.dispatched + 1 ≤ t.dispatched := by omega
    refine ⟨wellFormed, he.trans enabled, counted, advances.mono ?_⟩
    show _ ≤ t.dispatched - s.dispatched + 0
    omega

/-- By induction on the room for nesting. -/
theorem announces_dispatchIn (rules : Rules) (room : Nat) :
    Announces (min room 1) (dispatchIn rules room) := by
  induction room with
  | zero =>
    intro event s hs
    exact .refl hs
  | succ room ih =>
    intro event s hs
    have elementary := elementary_since (min room 1) (s.opened event) rules.catalog
    have telling := telling_since rules ih (s.opened event)
    have covers := Scope.covers_all rules.catalog
    have one : min (room + 1) 1 = 1 := Nat.min_eq_right (Nat.le_add_left 1 room)
    rw [one]
    refine ends_dispatchIn (F := failedIn Pet.Leveled (min room 1) (s.opened event))
      (I := Since (s.opened event)) (J := fun _ => Since (s.opened event))
      (fun _ => ⟨hs, rfl, Nat.le_refl _, (Board.Advances.refl _).mono (Nat.zero_le _)⟩) (.refl hs)
      (fun line => ?_) (fun _ _ he => rising_of_opened he)
      fun t notified ht => ⟨ht.wellFormed, ht.grown.closed _ notified⟩
    exact keeps_walk elementary telling covers.effects rfl (acts_perform elementary telling covers rfl)
      trivial line [] line

theorem announces_dispatch (rules : Rules) :
    Announces (min rules.config.maxDispatchDepth 1) (dispatch rules) :=
  announces_dispatchIn rules rules.config.maxDispatchDepth

/-! ## Lifetimes -/

/-- Every stored pet came at the level that its experience was worth. A failed call may have
announced a level less than it gave, and raised an event at least. -/
structure FromLeveled (enabled : Bool) (s : Arena) : Prop where
  wellFormed : s.board.WellFormed
  enabled : s.log.enabled = enabled
  came : s.board.CameLeveled (2 * s.dispatched)

variable {enabled : Bool}

theorem FromLeveled.rising (h : FromLeveled enabled s) (ht : Rising Pet.Leveled 0 0 s t) :
    FromLeveled enabled t where
  wellFormed := ht.wellFormed
  enabled := ht.enabled.trans h.enabled
  came := by
    have := ht.counted
    exact (h.came.advances ht.advances).mono (by omega)

theorem FromLeveled.failed (h : FromLeveled enabled s) (ht : failedIn Pet.Leveled 1 s e t) :
    FromLeveled enabled t := by
  obtain ht | ⟨wellFormed, he, counted, advances⟩ := ht
  · exact h.rising ht
  · exact ⟨wellFormed, he.trans h.enabled, (h.came.advances advances).mono (by omega)⟩

theorem fromLeveled_of_since {α : Type} {m : Resolve α}
    (hm : ∀ s, Triple (failedIn Pet.Leveled 1 s) (Since s) m fun _ => Since s) :
    Triple (fun _ => FromLeveled enabled) (FromLeveled enabled) m fun _ => FromLeveled enabled :=
  Triple.intro fun s hs => (triple_iff.1 (hm s) s (.refl hs.wellFormed)).weaken
    (fun _ _ he => hs.failed he) fun _ _ ht => hs.rising ht.rising

end Resolve

/-! ## Battles -/

namespace Battle

variable {rules : Rules} {teams : Sides Team} {b b' : Battle} {s₀ : Arena} {least : Nat}

/-- The teams have pets at the levels that their experience is worth. -/
def LeveledTeams (teams : Sides Team) : Prop := ∀ side, ∀ pet ∈ (teams.get side).pets, pet.Leveled

theorem cameLeveled_ofTeams (ht : LeveledTeams teams) : (Board.ofTeams teams).CameLeveled 0 := by
  have copies : ∀ side, ∀ pet ∈ (teams.get side).pets.map Pet.battleCopy, pet.Leveled := by
    intro side pet hm
    obtain ⟨old, hold, rfl⟩ := List.mem_map.1 hm
    exact ht side old hold
  exact Board.cameLeveled_enlist
    (Board.cameLeveled_enlist Board.cameLeveled_empty Board.wellFormed_empty .a (copies .a))
    (Board.wellFormed_empty.enlist _ _) .b (copies .b)

theorem since_playsPairs (rules : Rules) (least : Nat) (s₀ : Arena) :
    PlaysPairs rules (failedIn Pet.Leveled least s₀) (Since s₀) := fun attacks _ =>
  since_playAttacks (announces_dispatch rules) attacks

theorem since_opening (rules : Rules) (least : Nat) (s₀ : Arena) :
    Triple (failedIn Pet.Leveled least s₀) (Since s₀) (opening (procedures rules)) fun _ => Since s₀ :=
  keeps_opening (since_playsPairs rules least s₀) (fun _ hs => hs.congr rfl rfl rfl rfl) fun _ =>
    (announces_dispatch rules).keeps nofun

theorem since_attackCycle (rules : Rules) (least : Nat) (s₀ : Arena) :
    Triple (failedIn Pet.Leveled least s₀) (Since s₀) (attackCycle rules (procedures rules))
      fun _ => Since s₀ :=
  keeps_attackCycle (since_playsPairs rules least s₀) fun _ hs => hs.congr rfl rfl rfl rfl

theorem since_of_continues (hb : b.arena.board.WellFormed) (h : Continues rules b b') :
    Since b.arena b'.arena :=
  h.induct (since_opening rules 0 _) (since_attackCycle rules 0 _) (.refl hb)

theorem fromLeveled_of_reachable (ht : LeveledTeams teams) (h : Reachable rules teams b) :
    FromLeveled rules.config.recordEvents b.arena :=
  h.induct (fromLeveled_of_since (since_opening rules 1))
    (fromLeveled_of_since (since_attackCycle rules 1))
    ⟨Board.wellFormed_ofTeams teams, rfl, cameLeveled_ofTeams ht⟩ fun _ _ he => he

/-- How a call leaves the pets, whether it fails or not. -/
theorem rising_calls (rules : Rules) (hb : b.arena.board.WellFormed) :
    Rising Pet.Leveled 0 1 b.arena (b.start rules).2.arena ∧
      Rising Pet.Leveled 0 1 b.arena (b.step rules).2.arena := by
  have after {α : Type} {r : Except EngineError α × Battle}
      (hr : Ends (failedIn Pet.Leveled 0 b.arena) (Since b.arena) r) :
      Rising Pet.Leveled 0 1 b.arena r.2.arena := by
    obtain ⟨r, b'⟩ := r
    cases r with
    | ok x => exact (Since.rising hr).more
    | error e => exact Or.elim hr Rising.more id
  exact ⟨after (ends_start (since_opening rules 0 _) (.refl hb)),
    after (ends_step (since_opening rules 0 _) (since_attackCycle rules 0 _) (.refl hb))⟩

end Battle

/-! ## Shop turns -/

namespace Resolve

variable {s s₀ t : Arena} {rules : Rules} {α : Type} {m : Resolve α} {least : Nat}
  {admitted : Pet → Prop}

theorem rising_of_ends (h : ∀ s, s.board.WellFormed →
      Ends (failedIn admitted least s) (fun _ => Rising admitted 0 0 s) (m s)) :
    Triple (failedIn admitted least s₀) (Rising admitted 0 0 s₀) m fun _ => Rising admitted 0 0 s₀ :=
  Triple.intro fun s hs => (h s hs.wellFormed).weaken (fun _ _ he => hs.failedIn he)
    fun _ _ ht => hs.trans ht

theorem rising_of_since (ha : ∀ p, p.Leveled → admitted p)
    (h : ∀ s, Triple (failedIn Pet.Leveled least s) (Since s) m fun _ => Since s) :
    Triple (failedIn admitted least s₀) (Rising admitted 0 0 s₀) m fun _ => Rising admitted 0 0 s₀ :=
  rising_of_ends fun s hs => (triple_iff.1 (h s) s (.refl hs)).weaken
    (fun _ _ he => he.imp (·.imp ha) (·.imp ha)) fun _ _ ht => ht.rising.imp ha

theorem Announces.rising {raise : Raise} {event : Event} {least' : Nat}
    (ha : ∀ p, p.Leveled → admitted p) (h : Announces least' raise) :
    Triple (failedIn admitted least s₀) (Rising admitted 0 0 s₀) (raise event)
      fun _ => Rising admitted 0 0 s₀ := by
  refine rising_of_ends fun s hs => (h event s hs).weaken (fun _ _ he => .inl (he.weaken.imp ha))
    fun _ t ht => ?_
  obtain ⟨_, ⟨inner, ⟨⟨_, course⟩, count⟩, _⟩, _⟩ := ht.2.told
  exact ⟨ht.1, ht.2.enabled, by omega, (course.advances.mono (by omega)).imp ha⟩

theorem rising_spawn {pet : Pet} (hp : admitted pet) (side : Side) (placement : Placement) :
    Triple (failedIn admitted least s₀) (Rising admitted 0 0 s₀) (spawn side pet placement)
      fun _ => Rising admitted 0 0 s₀ := by
  refine triple_spawn (fun s hs id b ha => hs.trans ?_) placement
  have stored := Board.Advances.stores hs.wellFormed ha.toStores hp
  exact ⟨ha.wellFormed hs.wellFormed, rfl, Nat.le_refl _, stored.mono (Nat.zero_le _)⟩

theorem since_perform (s₀ : Arena) (event : Event) (effect : Effect) :
    Triple (failedIn Pet.Leveled (min rules.config.maxDispatchDepth 1) s₀) (Since s₀)
      (perform rules (dispatch rules) event none effect) fun _ => Since s₀ :=
  keeps_perform (elementary_since _ s₀ rules.catalog)
    (telling_since rules (announces_dispatch rules) s₀).toActing (Scope.covers_all rules.catalog) rfl event
    trivial none effect effect.every_true

end Resolve

namespace PurchasePhase

variable {rules : Rules} {team : Team} {shop : Shop} {calls : Call → Prop} {p p' : PurchasePhase}
  {s₀ : Arena} {admitted : Pet → Prop}

/-- Where the caller tells of no level. -/
theorem turnSteps_since (rules : Rules) (s₀ : Arena) : TurnSteps rules (· ≠ .levelUp)
    (failedIn Pet.Leveled (min rules.config.maxDispatchDepth 1) s₀) (Since s₀) where
  tell _ _ ht := (announces_dispatch rules).keeps ht
  perform event _ _ _ _ := since_perform s₀ event _
  remove := since_remove
  stored _ hs _ hm := hs.wellFormed.pet?_of_mem hm
  pay _ _ hs := hs.congr rfl rfl rfl rfl

theorem turnSteps_rising (rules : Rules) (ha : ∀ p, p.Leveled → admitted p) (s₀ : Arena) :
    TurnSteps rules (fun _ => True) (failedIn admitted (min rules.config.maxDispatchDepth 1) s₀)
      (Rising admitted 0 0 s₀) where
  tell _ _ _ := (announces_dispatch rules).rising ha
  perform event _ _ _ _ := rising_of_since ha fun s => since_perform s event _
  remove id := rising_of_since ha fun _ => since_remove id
  stored _ hs _ hm := hs.wellFormed.pet?_of_mem hm
  pay _ _ hs := ⟨hs.wellFormed, hs.enabled, hs.counted, hs.advances⟩

theorem rising_call (rules : Rules) (ha : ∀ p, p.Leveled → admitted p) {c : Call}
    (hc : c.Brings admitted) (hp : Rising admitted 0 0 s₀ p.arena) :
    ((p.call rules c).1 = .ok () → Rising admitted 0 0 s₀ (p.call rules c).2.arena) ∧
      ∀ e, (p.call rules c).1 = .error e →
        failedIn admitted (min rules.config.maxDispatchDepth 1) s₀ e (p.call rules c).2.arena := by
  refine keeps_call (turnSteps_rising rules ha s₀) (fun _ _ hs => .inl hs) c (fun _ _ => trivial) ?_ hp
  cases c with
  | placePet pet _ _ _ => exact fun placement => rising_spawn hc .a placement
  | _ => trivial

/-- How a call leaves the pets, whatever pet it brings. -/
theorem rising_any_call (rules : Rules) (c : Call) (hp : p.arena.board.WellFormed) :
    Rising (fun _ => True) 0 1 p.arena (p.call rules c).2.arena := by
  have brings : c.Brings fun _ => True := by cases c <;> trivial
  have ends := rising_call rules (fun _ _ => trivial) brings (.refl hp)
  cases hr : (p.call rules c).1 with
  | ok x => exact (ends.1 hr).more
  | error e => exact (ends.2 e hr).elim Rising.more Rising.weaken

theorem since_call (rules : Rules) {c : Call} (hc : c.Brings Pet.Leveled)
    (ht : ∀ source, c ≠ .trigger .levelUp source) (hp : Since s₀ p.arena) :
    (p.call rules c).1 = .ok () → Since s₀ (p.call rules c).2.arena := by
  refine (keeps_call (turnSteps_since rules s₀) (fun _ _ hs => hs.failed) c ?_ ?_ hp).1
  · rintro trigger hm rfl
    exact Call.not_tells_levelUp ht hm
  · cases c with
    | placePet pet _ _ _ => exact fun placement => since_spawn hc .a placement
    | _ => trivial

theorem cameLeveled_ofTeam (ht : ∀ pet ∈ team.pets, pet.Leveled) : (Board.ofTeam team).CameLeveled 0 :=
  Board.cameLeveled_enlist Board.cameLeveled_empty Board.wellFormed_empty .a ht

theorem fromLeveled_of_reachable (hd : 0 < rules.config.maxDispatchDepth)
    (ht : ∀ pet ∈ team.pets, pet.Leveled) (h : Reachable rules team shop Pet.Leveled p) :
    FromLeveled rules.config.recordEvents p.arena := by
  have one : min rules.config.maxDispatchDepth 1 = 1 := Nat.min_eq_right hd
  induction h with
  | new => exact ⟨Board.wellFormed_ofTeam team, rfl, cameLeveled_ofTeam ht⟩
  | @call p _ c hc ih =>
    have ends := rising_call rules (fun _ h => h) hc (.refl ih.wellFormed)
    rw [one] at ends
    cases hr : (p.call rules c).1 with
    | ok x => exact ih.rising (ends.1 hr)
    | error e => exact ih.failed (ends.2 e hr)

theorem rising_of_continues (hc : ∀ c, calls c → c.Brings Pet.Leveled)
    (hp : p.arena.board.WellFormed) (h : Continues rules calls p p') :
    Rising Pet.Leveled 0 0 p.arena p'.arena := by
  induction h with
  | refl => exact .refl hp
  | call _ c hm hs ih =>
    have next := (rising_call rules (fun _ h => h) (hc c hm) ih).1
    rw [hs] at next
    exact next rfl

theorem since_of_continues (hc : ∀ c, calls c → c.Brings Pet.Leveled)
    (ht : ∀ source, ¬ calls (.trigger .levelUp source)) (hp : p.arena.board.WellFormed)
    (h : Continues rules calls p p') : Since p.arena p'.arena := by
  induction h with
  | refl => exact .refl hp
  | call _ c hm hs ih =>
    have untold : ∀ source, c ≠ .trigger .levelUp source := by
      rintro source rfl
      exact ht source hm
    have next := since_call rules (hc c hm) untold ih
    rw [hs] at next
    exact next rfl

end PurchasePhase

/-! ## Levels -/

/-- What was told from one arena to the other. -/
def toldSince (s t : Arena) : List EventRecord := t.log.headings.drop s.log.headings.length

/-- So few events were raised that no pet which came at its level can be at the end of the range of
experience: each event stands for a level announced to it at most, and for one that could not be. -/
def Resolve.FewEvents (s : Arena) : Prop := 5 + 2 * s.dispatched < 4294967295

instance (s : Arena) : Decidable (FewEvents s) :=
  inferInstanceAs (Decidable (5 + 2 * s.dispatched < 4294967295))

/-- How every stored pet has grown from one arena to the other. Where what was told is `counted`:
a pet of which no level was announced within the announcement of another got all levels that were
announced, and the one that its experience is worth; else it got less than was announced. -/
def LevelsFollow (counted : Prop) (s t : Arena) : Prop :=
  ∀ id now, t.board.pet? id = some now → now.Ranked ∧
    ∃ start, s.board.Origin Pet.Leveled id start ∧ start.level ≤ now.level ∧
      start.experience ≤ now.experience ∧
      (counted →
        (¬ Repeats id (toldSince s t) → start.level + levelUps id (toldSince s t) ≤ now.level ∧
          (start.Leveled → now.Leveled)) ∧
        (start.Settled → now.level ≤ start.level + levelUps id (toldSince s t) ∧
          (Repeats id (toldSince s t) → now.level < start.level + levelUps id (toldSince s t))))

namespace Resolve

variable {s t : Arena} {enabled : Bool}

/-- Whatever a pet of the later arena comes from has room and has earned its level. -/
theorem FromLeveled.room (h : FromLeveled enabled s) (hd : s.dispatched ≤ t.dispatched)
    (few : FewEvents t) {id : PetId} {start : Pet} (ho : s.board.Origin Pet.Leveled id start) :
    start.HasRoom (t.dispatched - s.dispatched) ∧ start.Ranked := by
  unfold FewEvents at few
  rcases ho with stored | ⟨_, leveled⟩
  · exact h.came.room (by omega) stored
  · exact ⟨Board.hasRoom_of_leveled leveled (by omega), leveled.ranked⟩

theorem Rising.levelsFollow (h : Rising Pet.Leveled 0 0 s t) (hs : FromLeveled enabled s)
    (few : FewEvents t) : LevelsFollow False s t := by
  intro id now hnow
  obtain ⟨start, origin, learns⟩ := h.advances.grown id now hnow
  obtain ⟨room, ranked⟩ := hs.room h.counted few origin
  obtain ⟨level, earned⟩ := learns.level room ranked
  exact ⟨earned, start, origin, level, learns.experience room, False.elim⟩

theorem Since.levelsFollow (h : Since s t) (hs : FromLeveled enabled s) (few : FewEvents t) :
    LevelsFollow (enabled = true) s t := by
  intro id now hnow
  obtain ⟨told, ⟨⟨_, course⟩, count⟩, hlog⟩ := h.grown.told
  obtain ⟨start, origin, follows⟩ := course.grown id now hnow
  obtain ⟨room, ranked⟩ := hs.room h.rising.counted few origin
  have least : levelUps id told ≤ told.length := levelUps_le_length
  have climb := follows.climb (room.mono (by omega)) ranked
  have earned := (follows.learns.level (room.mono (by omega)) ranked).2
  refine ⟨earned, start, origin, climb.level, climb.experience, fun hk => ?_⟩
  have all : toldSince s t = told := by
    unfold toldSince
    rw [hlog (hs.enabled.trans hk), List.drop_left]
  rw [all]
  exact ⟨climb.once, fun hsettled => (climb.settled hsettled).2⟩

end Resolve

theorem LevelsFollow.imp {counted counted' : Prop} {s t : Arena} (h : LevelsFollow counted s t)
    (hc : counted' → counted) : LevelsFollow counted' s t := by
  intro id now hnow
  obtain ⟨ranked, start, origin, hl, he, count⟩ := h id now hnow
  exact ⟨ranked, start, origin, hl, he, fun hc' => count (hc hc')⟩

/-! ## Pupils -/

/-- Whoever gets a level learns on at once. -/
def eager : Ability := ⟨"", .levelUp, .self, .gainExperience 3 .self, some 1⟩

def pupil (ability : Option Ability) : PetKind :=
  ⟨⟨"pet-pupil"⟩, "pet-pupil", 1, 1, 1, [], ability, none, none⟩

def lesson : StatusKind :=
  ⟨⟨"status-lesson"⟩, "status-lesson", ⟨"", .startOfBattle, .player, .gainExperience 2 .self, none⟩⟩

def schoolRules (ability : Option Ability) : Rules :=
  ⟨.ofLists [pupil ability] [lesson] [], { recordEvents := true }⟩

def schoolTeam (ability : Option Ability) : Team :=
  .ofPets [(Pet.ofKind (pupil ability)).setStatus (some lesson.id)]

def schoolBattle (ability : Option Ability) : Battle :=
  .ofTeams (schoolRules ability).config ⟨schoolTeam ability, .empty⟩

/-- The pupil has its lesson as the battle begins. -/
def taughtInBattle (ability : Option Ability) : Except EngineError Unit × Battle :=
  (schoolBattle ability).start (schoolRules ability)

def schoolPhase (ability : Option Ability) : PurchasePhase :=
  .ofTeam (schoolRules ability).config (schoolTeam ability) (.ofGold startingGold)

/-- The caller gives the lesson in the shop. -/
def taughtInShop (ability : Option Ability) : Except EngineError Unit × PurchasePhase :=
  (schoolPhase ability).call (schoolRules ability) (.trigger .startOfBattle none)

theorem leveled_schoolTeam (ability : Option Ability) :
    ∀ pet ∈ (schoolTeam ability).pets, pet.Leveled := by
  intro pet hm
  have hm : pet ∈ [(Pet.ofKind (pupil ability)).setStatus (some lesson.id)] := hm
  rw [List.mem_singleton] at hm
  subst hm
  exact rfl

theorem leveledTeams_school (ability : Option Ability) :
    Battle.LeveledTeams ⟨schoolTeam ability, .empty⟩ := by
  intro side
  cases side with
  | a => exact leveled_schoolTeam ability
  | b => exact nofun

theorem reachable_schoolBattle (ability : Option Ability) :
    Battle.Reachable (schoolRules ability) ⟨schoolTeam ability, .empty⟩ (schoolBattle ability) := .new

theorem reachable_schoolPhase (ability : Option Ability) :
    PurchasePhase.Reachable (schoolRules ability) (schoolTeam ability) (.ofGold startingGold)
      Pet.Leveled (schoolPhase ability) := .new

variable {ability : Option Ability}

theorem start_schoolBattle (h : (taughtInBattle ability).1 = .ok ()) :
    (schoolBattle ability).start (schoolRules ability) = (.ok (), (taughtInBattle ability).2) :=
  Prod.ext h rfl

theorem call_schoolPhase (h : (taughtInShop ability).1 = .ok ()) :
    (schoolPhase ability).call (schoolRules ability) (.trigger .startOfBattle none) =
      (.ok (), (taughtInShop ability).2) := Prod.ext h rfl

def standing (s : Arena) : Option (Nat × Nat) :=
  (s.board.pet? ⟨0⟩).map fun pet => (pet.level, pet.experience)

/-- Three levels are announced, and the eager pupil gets one of the two that it has earned. -/
theorem taughtInBattle_eager :
    (taughtInBattle (some eager)).1 = .ok () ∧
      standing (schoolBattle (some eager)).arena = some (1, 0) ∧
      standing (taughtInBattle (some eager)).2.arena = some (2, 5) ∧
      levelUps ⟨0⟩ (toldSince (schoolBattle (some eager)).arena
        (taughtInBattle (some eager)).2.arena) = 3 := by
  decide +kernel

/-- Another pupil gets the one level that is announced. -/
theorem taughtInShop_other :
    (taughtInShop none).1 = .ok () ∧ standing (schoolPhase none).arena = some (1, 0) ∧
      standing (taughtInShop none).2.arena = some (2, 2) ∧
      levelUps ⟨0⟩ (toldSince (schoolPhase none).arena (taughtInShop none).2.arena) = 1 := by
  decide +kernel

theorem standing_eq_some {s : Arena} {level experience : Nat}
    (h : standing s = some (level, experience)) :
    ∃ pet, s.board.pet? ⟨0⟩ = some pet ∧ pet.level = level ∧ pet.experience = experience := by
  obtain ⟨pet, hpet, hs⟩ := Option.map_eq_some_iff.1 h
  cases hs
  exact ⟨pet, hpet, rfl, rfl⟩

theorem level_of_origin {s : Arena} {p : Pet} {level experience : Nat}
    (h : standing s = some (level, experience)) (hp : s.board.Origin Pet.Leveled ⟨0⟩ p) :
    p.level = level ∧ p.experience = experience := by
  obtain ⟨pet, hpet, hl, he⟩ := standing_eq_some h
  rcases hp with hp | ⟨hnone, _⟩
  · rw [hpet] at hp
    cases hp
    exact ⟨hl, he⟩
  · rw [hpet] at hnone
    cases hnone

/-- How levels grow under calls that succeed, in battles and in shop turns, whatever the abilities
that answer announcements do, as long as few events were raised. In a shop turn some nesting must be
allowed, as each point is to come with an event, and the caller may tell of levels of his own; they
are not counted. -/
theorem levels_follow_unless_announced_again (rules : Rules) :
    (∀ (teams : Sides Team) (b b' : Battle), Battle.LeveledTeams teams →
      Battle.Reachable rules teams b → Battle.Continues rules b b' → FewEvents b'.arena →
      LevelsFollow (rules.config.recordEvents = true) b.arena b'.arena) ∧
    ∀ (team : Team) (shop : Shop) (calls : PurchasePhase.Call → Prop) (p p' : PurchasePhase),
      (∀ pet ∈ team.pets, pet.Leveled) → (∀ c, calls c → c.Brings Pet.Leveled) →
      PurchasePhase.Reachable rules team shop Pet.Leveled p →
      PurchasePhase.Continues rules calls p p' →
      0 < rules.config.maxDispatchDepth → FewEvents p'.arena →
      LevelsFollow (rules.config.recordEvents = true ∧ ∀ source, ¬ calls (.trigger .levelUp source))
        p.arena p'.arena := by
  constructor
  · intro teams b b' ht hb h few
    have start := Battle.fromLeveled_of_reachable ht hb
    exact (Battle.since_of_continues start.wellFormed h).levelsFollow start few
  · intro team shop calls p p' ht hc hp h hd few
    have start := PurchasePhase.fromLeveled_of_reachable hd ht hp
    by_cases hcounted : rules.config.recordEvents = true ∧
        ∀ source, ¬ calls (.trigger .levelUp source)
    · have since := PurchasePhase.since_of_continues hc hcounted.2 start.wellFormed h
      exact (since.levelsFollow start few).imp And.left
    · have rising := PurchasePhase.rising_of_continues hc start.wellFormed h
      exact (rising.levelsFollow start few).imp hcounted

/-- The eager pupil has a level announced within the announcement of another, the one in the shop
has not. -/
theorem levels_follow_unless_announced_again_school :
    Repeats ⟨0⟩ (toldSince (schoolBattle (some eager)).arena
      (taughtInBattle (some eager)).2.arena) ∧
    ¬ Repeats ⟨0⟩ (toldSince (schoolPhase none).arena (taughtInShop none).2.arena) := by
  constructor
  · obtain ⟨started, before, after, announced⟩ := taughtInBattle_eager
    obtain ⟨pet, hpet, hl, -⟩ := standing_eq_some after
    have few : FewEvents (taughtInBattle (some eager)).2.arena := by decide +kernel
    have follow := (levels_follow_unless_announced_again (schoolRules (some eager))).1 _ _ _
      (leveledTeams_school _) (reachable_schoolBattle _) (.start .refl (start_schoolBattle started)) few
    obtain ⟨-, start, origin, -, -, counted⟩ := follow ⟨0⟩ pet hpet
    obtain ⟨hl', -⟩ := level_of_origin before origin
    by_contra once
    have all := ((counted rfl).1 once).1
    omega
  · obtain ⟨called, before, after, announced⟩ := taughtInShop_other
    obtain ⟨pet, hpet, hl, -⟩ := standing_eq_some after
    have calls : ∀ c : PurchasePhase.Call, c = .trigger .startOfBattle none →
        c.Brings Pet.Leveled := by
      rintro c rfl
      trivial
    have few : FewEvents (taughtInShop none).2.arena := by decide +kernel
    have follow := (levels_follow_unless_announced_again (schoolRules none)).2 _ _ _ _ _
      (leveled_schoolTeam _) calls (reachable_schoolPhase _)
      (.call .refl _ rfl (call_schoolPhase called)) (by decide) few
    obtain ⟨-, start, origin, -, -, counted⟩ := follow ⟨0⟩ pet hpet
    obtain ⟨hl', he'⟩ := level_of_origin before origin
    intro repeats
    have settled : start.Settled := fun _ => by omega
    have fewer := ((counted ⟨rfl, fun _ => nofun⟩).2 settled).2 repeats
    omega

/-- Levels do not follow experience whatever answers their announcements. -/
theorem levels_fall_behind :
    ¬ ∀ (rules : Rules) (teams : Sides Team) (b b' : Battle), rules.config.recordEvents = true →
      Battle.LeveledTeams teams → Battle.Reachable rules teams b →
      (b.start rules = (.ok (), b') ∨ ∃ state, b.step rules = (.ok state, b')) →
      ∀ id now, b'.arena.board.pet? id = some now → now.Leveled ∧
        ∀ start, b.arena.board.pet? id = some start → start.level ≤ now.level ∧
          levelUps id (toldSince b.arena b'.arena) ≤ now.level - start.level := by
  intro follow
  obtain ⟨started, -, after, -⟩ := taughtInBattle_eager
  obtain ⟨pet, hpet, hl, he⟩ := standing_eq_some after
  have leveled := (follow (schoolRules (some eager)) _ _ _ rfl (leveledTeams_school _)
    (reachable_schoolBattle _) (.inl (start_schoolBattle started)) ⟨0⟩ pet hpet).1
  unfold Pet.Leveled at leveled
  rw [hl, he] at leveled
  cases leveled

end AutoBattler
