import AutoBattler.Proofs.Notes
import AutoBattler.Proofs.Rescue

/-!
# Casting

Casts and repeats do not feed themselves. What is told is proper, what a repeat answers has no cause,
and repeats within repeats do nothing. In a battle there is one cast for each level ability that an
event other than a cast made fire and that does more than repeat, in a shop turn there is none.
-/
namespace AutoBattler

open Resolve

/-! ## No casts in a shop turn -/

/-- No cast has been told. -/
def Likeness.uncast : Likeness where
  logs log _ := log.casts = 0
  generators := Eq
  board _ := True
  alone _ := False

namespace EventLog

variable {log : EventLog}

theorem casts_openRecord {event : Event} (h : event.trigger ≠ .castsAbility) (depth : Nat)
    (hl : log.casts = 0) : (log.openRecord (event.record depth)).2.casts = 0 := by
  unfold casts at hl ⊢
  rw [headings_openRecord_eq]
  split
  · rw [List.countP_append, hl]
    simp [Event.record, EventRecord.heading, h]
  · exact hl

theorem casts_setNotified (slot : Nat) (ids : List PetId) :
    (log.setNotified slot ids).casts = log.casts := by
  rw [casts, casts, headings_setNotified]

theorem casts_eq (log : EventLog) :
    log.casts = log.records.toList.countP (·.trigger = .castsAbility) := by
  unfold casts headings
  rw [List.countP_map]
  rfl

theorem unaddressed_uncast : Unaddressed Likeness.uncast.logs :=
  ⟨fun _ _ slot ids h => (casts_setNotified slot ids).trans h, fun _ _ _ _ h => h⟩

end EventLog

namespace Resolve

variable {rules : Rules} {event : Event}

/-- Effects performed in answer to events of the shop turn. -/
def shopScope : Scope := .answering fun event => event.isBattle = false ∧ event.cause = none

theorem leads_shopScope : Leads shopScope shopScope.events where
  levelUp _ _ _ he := ⟨he.1, rfl⟩
  summoned _ _ _ he := ⟨he.1, rfl⟩
  attack _ he hb := by
    rw [he.1] at hb
    cases hb

theorem covers_shopScope (c : Catalog) : shopScope.Covers c where
  effects ability _ := ability.effect.every_true
  cause _ _ he hc := by
    rw [he.2] at hc
    cases hc

theorem invariant_uncast (c : Catalog) : BoardInvariant shopScope c fun _ => True :=
  boardInvariant_trivial c (fun _ => trivial) fun _ => trivial

theorem elementary_uncast (c : Catalog) :
    Elementary shopScope c (.alike .uncast) (Arena.Alike .uncast) :=
  Arena.Alike.elementary (invariant_uncast c).toEditInvariant (Scope.draws_of_eq _ rfl)

theorem acting_uncast {raise : Raise}
    (hr : ∀ event, shopScope.events event → event.trigger ≠ .castsAbility →
      Matches .uncast (raise event) (raise event)) :
    Acting shopScope rules rules raise raise (.alike .uncast) (Arena.Alike .uncast) :=
  (Arena.Alike.boardSteps (invariant_uncast rules.catalog)).acting (elementary_uncast rules.catalog)
    rfl (leads_shopScope.and leads_uncast) fun event ht => hr event ht.1 ht.2

/-- By induction on the room for nesting: no cast is announced outside of a battle. -/
theorem uncast_dispatchIn (room : Nat) (he : shopScope.events event)
    (hc : event.trigger ≠ .castsAbility) :
    Matches .uncast (dispatchIn rules room event) (dispatchIn rules room event) := by
  induction room generalizing event with
  | zero => exact couples_fail fun _ _ hst => hst
  | succ room ih =>
    have elementary := elementary_uncast rules.catalog
    have telling : Telling shopScope rules rules (dispatchIn rules room) (dispatchIn rules room)
        (.alike .uncast) (Arena.Alike .uncast) := {
      toActing := acting_uncast fun _ he hc => ih he hc
      cast := fun _ he hb => by
        rw [he.1] at hb
        cases hb }
    refine Couples.bind (Arena.Alike.countEvent (Nat.le_refl _) (.inl rfl)) fun _ => ?_
    refine Arena.Alike.nested (keeps_tellLine (fun _ _ h => h.board) (fun _ _ h => h.nesting) ?_)
    intro depth line
    have opened : Matches .uncast (silent (openRecord (event.record depth)))
        (silent (openRecord (event.record depth))) :=
      ⟨fun _ _ hst => .ok { hst with log := EventLog.casts_openRecord hc depth hst.log }⟩
    have walked := keeps_walk elementary telling (covers_shopScope _).effects rfl
      (acts_perform elementary telling (covers_shopScope _) rfl) he line [] line
    refine Couples.bind_silent opened fun slot slot' => Couples.bind walked fun ids => ?_
    exact Arena.Alike.setNotified EventLog.unaddressed_uncast slot slot' ids ids

end Resolve

namespace PurchasePhase

theorem beside_uncast (rules : Rules) : Beside rules rules (· ≠ .castsAbility) (.alike .uncast)
    (Arena.Alike .uncast) (procedures rules) (procedures rules) where
  catalog := rfl
  boards _ _ hst := hst.board
  shops _ _ hst := hst.shop
  failed _ _ _ hst := hst
  tell _ he _ ht := uncast_dispatchIn _ ⟨he.peaceful, he.uncaused⟩ ht
  act event he _ ability _ :=
    keeps_perform (elementary_uncast rules.catalog) (acting_uncast fun _ => uncast_dispatchIn _)
      (covers_shopScope _) rfl event ⟨he.peaceful, he.uncaused⟩ none ability.effect ability.effect.every_true
  remove := (Arena.Alike.boardSteps (invariant_uncast rules.catalog)).remove
  pay f := ⟨fun _ _ hst => .ok { hst with shop := congrArg (Option.map f) hst.shop }⟩

/-- Only a caller tells of a cast in a shop turn. -/
theorem Call.tells_uncast {c : Call} (h : ∀ source, c ≠ .trigger .castsAbility source)
    {trigger : Trigger} (ht : c.Tells trigger) : trigger ≠ .castsAbility := by
  rintro rfl
  cases c with
  | trigger told source =>
    cases ht
    exact h source rfl
  | placePet pet index tierOne afterLoss => simp [Call.Tells, purchaseTriggers] at ht
  | feed food target => cases ht
  | sell index => cases ht
  | endTurn => simp [Call.Tells, conditionalTriggers] at ht

theorem casts_of_replies {rules : Rules} {team : Team} {shop : Shop} {calls : List Call}
    (h : ∀ c ∈ calls, ∀ source, c ≠ .trigger .castsAbility source) :
    ((ofTeam rules.config team shop).replies rules calls).2.arena.log.casts = 0 := by
  have starts : (ofTeam rules.config team shop).Alike .uncast (ofTeam rules.config team shop) :=
    ⟨⟨rfl, rfl, rfl, rfl, rfl, rfl, rfl, trivial⟩, rfl⟩
  exact (concur_replies (beside_uncast rules) (fun _ => nofun) calls
    (fun c hc _ => Call.tells_uncast (h c hc))
    (fun _ _ => Arena.Alike.spawn fun _ _ _ _ _ => trivial) starts).2.arena.log

end PurchasePhase

/-! ## Casts and repeats -/

/-- What is put around other events than proper ones, and around performing in answer to others than
those and their repeats, makes no difference to any call: no others are told or answered. In answer to
an event without a cause, as every repeat is, repeats do nothing, at any depth of an effect. Performing
tells of no cast, and a repeat is not announced. In a battle without errors there is one cast for each
level ability that an event other than a cast made fire and that does more than repeat. In a shop turn
there is none that no caller told. -/
theorem casts_do_not_feed_themselves (rules : Rules) :
    (∀ w : Wrapping, w.Idle (fun _ => True) (fun _ => True) →
      (∀ teams b, Battle.Reachable rules teams b →
        b.startWith (w.procedures rules) = b.start rules ∧
          b.stepWith rules (w.procedures rules) = b.step rules) ∧
      ∀ team shop p, PurchasePhase.Reachable rules team shop (fun _ => True) p →
        ∀ c : PurchasePhase.Call, c.resolve rules (w.procedures rules) p.arena =
          c.resolve rules (procedures rules) p.arena) ∧
    (∀ raise event actor effect, event.cause = none →
      perform rules raise event actor effect.withoutRepeats = perform rules raise event actor effect ∧
        (effect.OnlyRepeats → OnlyDraws (perform rules raise event actor effect))) ∧
    (∀ (raise raise' : Raise) event actor effect,
      (∀ told : Event, told.trigger ≠ .castsAbility → raise told = raise' told) →
        perform rules raise event actor effect = perform rules raise' event actor effect) ∧
    (∀ raise caster effect event, event.repeated = true →
      announceCast raise caster effect event = pure ()) ∧
    (rules.config.recordEvents = true → ∀ teams calls b,
      (Battle.ofTeams rules.config teams).callsWith rules (procedures rules) calls = (.ok (), b) →
        ∃ noted, (Battle.ofTeams rules.config teams).callsWith rules
            (Wrapping.noting.procedures rules) calls = (.ok (), noted) ∧
          noted.arena.board = b.arena.board ∧
          noted.arena.log.headings.filter (¬ ·.IsNote) = b.arena.log.headings ∧
          b.arena.log.records.toList.countP (·.trigger = .castsAbility) = noted.arena.log.notes) ∧
    ∀ team shop calls,
      (∀ c ∈ calls, ∀ source, c ≠ PurchasePhase.Call.trigger .castsAbility source) →
        ((PurchasePhase.ofTeam rules.config team shop).replies rules calls).2.arena.log.records.toList.countP
          (·.trigger = .castsAbility) = 0 := by
  have kept : Wrapping.Idle.Kept rules.catalog fun _ => True :=
    fun _ => boardInvariant_trivial _ (fun _ => trivial) fun _ => trivial
  refine ⟨fun w hw => ⟨fun teams b hb => ?_, fun team shop p hp c => ?_⟩,
    fun raise event actor effect hc => ⟨?_, fun he => ?_⟩, fun raise raise' event actor effect h => ?_,
    fun raise caster effect event hr => ?_, fun hr teams calls b hb => ?_,
    fun team shop calls h => ?_⟩
  · exact Wrapping.Idle.battle hw kept trivial hb
  · exact Wrapping.Idle.turn hw kept trivial (fun _ _ _ _ _ _ _ => trivial) hp c c.brings_true
  · rw [perform_of_uncaused hc, perform_of_uncaused hc]
    exact performWith_withoutRepeats effect
  · rw [perform_of_uncaused hc]
    exact performWith_of_onlyRepeats effect he
  · exact perform_eq_of_uncast h effect
  · unfold announceCast
    simp [hr]
  · obtain ⟨noted, hnoted, alike⟩ := Battle.noting_callsWith hr hb
    have annotated := alike.arena.log
    rw [← EventLog.casts_eq]
    exact ⟨noted, hnoted, alike.arena.board.symm, annotated.told, annotated.count.symm⟩
  · rw [← EventLog.casts_eq]
    exact PurchasePhase.casts_of_replies h

/-- Fails at an event that is not as events are told. -/
def Wrapping.strict : Wrapping where
  tell event m :=
    if event.repeated || event.cause.isSome && event.trigger ≠ .castsAbility then
      fail (.eventBudgetExceeded 0)
    else m
  act _ _ _ m := m
  fire _ _ _ _ m := m

theorem idle_strict : Wrapping.strict.Idle (fun _ => True) fun _ => True where
  tell event m s hp _ _ := by
    have passed : (event.repeated || event.cause.isSome && event.trigger ≠ .castsAbility) = false := by
      cases hc : event.cause with
      | none => simp [hp.unrepeated]
      | some cause => simp [hp.unrepeated, (hp.cause cause hc).1]
    show (if _ then _ else m) s = m s
    rw [passed]
    rfl
  act _ _ _ _ _ _ _ _ _ := rfl
  fire _ _ _ _ _ _ _ _ _ _ := rfl

/-- In the first exchange the hippo casts once, when it calls an ant to help. -/
theorem casts_do_not_feed_themselves_rescue :
    let rules := rescueRules callAnt healSelf
    let b := Battle.ofTeams rules.config (rescueTeams callAnt healSelf)
    b.stepWith rules (Wrapping.strict.procedures rules) = b.step rules ∧
      (b.step rules).2.arena.log.records.toList.countP (·.trigger = .castsAbility) = 1 ∧
      ∃ noted, b.callsWith rules (Wrapping.noting.procedures rules) [.step] = (.ok (), noted) ∧
        noted.arena.log.notes = 1 := by
  intro rules b
  obtain ⟨unnoticed, _, _, _, counts, _⟩ := casts_do_not_feed_themselves rules
  have once : (b.step rules).2.arena.log.records.toList.countP (·.trigger = .castsAbility) = 1 := by
    decide +kernel
  have succeeds : (b.step rules).1 = .ok .running := by decide +kernel
  have called := Battle.callsWith_step succeeds
  obtain ⟨noted, hnoted, _, _, hcount⟩ := counts rfl (rescueTeams callAnt healSelf) [.step] _ called
  exact ⟨((unnoticed _ idle_strict).1 _ b .new).2, once, noted, hnoted, hcount.symm.trans once⟩

end AutoBattler
