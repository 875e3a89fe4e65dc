import AutoBattler.Proofs.BoardInvariant
import AutoBattler.Proofs.Records
import Mathlib.Data.List.Chain

/-!
# The account of events

A log that is kept has one record for each event that was told within the budget. What any step adds
to it lists a forest in preorder: each record stands right behind what it answers or deeper, and no
deeper than events may nest. This holds however the step ends, since a failure leaves every level that
it goes through.
-/
namespace AutoBattler

open Resolve

/-! ## Listings -/

/-- The depths of a forest in preorder, whose roots lie right below the level and which is no deeper
than the limit. -/
structure IsListing (level limit : Nat) (depths : List Nat) : Prop where
  steps : (level :: depths).IsChain fun d e => e ≤ d + 1
  within : ∀ d ∈ depths, level < d ∧ d ≤ limit

namespace IsListing

variable {level limit : Nat} {xs ys : List Nat}

theorem nil : IsListing level limit [] := ⟨.singleton level, nofun⟩

/-- Whatever comes last lies no higher than the level, so another forest may follow. -/
theorem append (h : IsListing level limit xs) (h' : IsListing level limit ys) :
    IsListing level limit (xs ++ ys) where
  steps := by
    refine List.IsChain.append h.steps h'.steps.tail fun last hlast first hfirst => ?_
    have root : first ≤ level + 1 := h'.steps.rel_head? hfirst
    have low : level ≤ last := by
      rcases List.mem_cons.1 (List.mem_of_getLast? hlast) with rfl | hm
      · exact Nat.le_refl _
      · exact Nat.le_of_lt (h.within last hm).1
    omega
  within := List.forall_mem_append.2 ⟨h.within, h'.within⟩

theorem node (h : IsListing (level + 1) limit xs) (hl : level < limit) :
    IsListing level limit ((level + 1) :: xs) where
  steps := List.isChain_cons_cons.2 ⟨Nat.le_refl _, h.steps⟩
  within := by
    refine List.forall_mem_cons.2 ⟨⟨Nat.lt_succ_self _, hl⟩, fun d hd => ?_⟩
    exact ⟨Nat.lt_of_succ_lt (h.within d hd).1, (h.within d hd).2⟩

end IsListing

namespace EventLog

variable {log : EventLog} {slot : Nat}

theorem openRecord_kept (h : log.enabled = true) (record : EventRecord) :
    log.openRecord record =
      (some log.records.size, { log with records := log.records.push record }) := if_pos h

theorem toList_setNotified {before after : List EventRecord} {r : EventRecord}
    (h : log.records.toList = before ++ r :: after) (ids : List PetId) :
    (log.setNotified before.length ids).records.toList =
      before ++ { r with notified := ids } :: after := by
  unfold setNotified
  rw [Array.toList_modify, h]
  clear h
  induction before with
  | nil => rfl
  | cons x rest ih => exact congrArg (x :: ·) ih

end EventLog

/-! ## What a step adds -/

/-- From `s` to `t` a log that is kept grew by a listing of what was told; and if it had one record
for each event within the budget it still has. -/
structure Accounted (budget limit : Nat) (s t : Arena) : Prop where
  kept : t.log.enabled = true
  nesting : t.nesting = s.nesting
  told : ∃ told, t.log.records.toList = s.log.records.toList ++ told ∧
    IsListing s.nesting limit (told.map (·.depth))
  count : s.log.records.size = min s.dispatched budget →
    t.log.records.size = min t.dispatched budget

/-- The budget is not exceeded if it was not before. -/
def Afforded (budget : Nat) (s t : Arena) : Prop := s.dispatched ≤ budget → t.dispatched ≤ budget

namespace Accounted

variable {budget limit : Nat} {s t u : Arena} {event : Event}

theorem refl (h : s.log.enabled = true) : Accounted budget limit s s :=
  ⟨h, rfl, ⟨[], (List.append_nil _).symm, .nil⟩, id⟩

theorem congr (h : Accounted budget limit s t) (hl : u.log = t.log) (hn : u.nesting = t.nesting)
    (hd : u.dispatched = t.dispatched) : Accounted budget limit s u where
  kept := hl ▸ h.kept
  nesting := hn ▸ h.nesting
  told := hl ▸ h.told
  count := hl ▸ hd ▸ h.count

theorem trans (h : Accounted budget limit s t) (h' : Accounted budget limit t u) :
    Accounted budget limit s u where
  kept := h'.kept
  nesting := h'.nesting.trans h.nesting
  told := by
    obtain ⟨told, ht, listed⟩ := h.told
    obtain ⟨told', hu, listed'⟩ := h'.told
    rw [h.nesting] at listed'
    refine ⟨told ++ told', by rw [hu, ht, List.append_assoc], ?_⟩
    rw [List.map_append]
    exact listed.append listed'
  count hs := h'.count (h.count hs)

theorem toList_opened (h : s.log.enabled = true) (event : Event) :
    (s.opened event).log.records.toList = s.log.records.toList ++ [event.record (s.nesting + 1)] := by
  unfold Arena.opened
  rw [EventLog.openRecord_kept h]
  exact Array.toList_push

/-- The record of the event stands right behind what there was, also once it is completed. -/
theorem toList_closed (h : s.log.enabled = true) {inner : List EventRecord}
    (ht : t.log.records.toList = (s.opened event).log.records.toList ++ inner) (slot : Option Nat)
    (hslot : ∀ k, slot = some k → k = s.log.records.size) (notified : List PetId) :
    ∃ ids, (ids = [] ∨ ids = notified) ∧ (t.closed slot notified).log.records.toList =
      s.log.records.toList ++ { event.record (s.nesting + 1) with notified := ids } :: inner := by
  rw [toList_opened h, List.append_assoc, List.singleton_append] at ht
  cases slot with
  | none => exact ⟨[], .inl rfl, ht⟩
  | some k =>
    obtain rfl : k = s.log.records.toList.length := hslot k rfl
    exact ⟨notified, .inr rfl, EventLog.toList_setNotified ht notified⟩

theorem size_closed (t : Arena) (slot : Option Nat) (notified : List PetId) :
    (t.closed slot notified).log.records.size = t.log.records.size := by
  cases slot with
  | none => rfl
  | some k => exact Array.size_modify

/-- An event that is told adds its record and behind it what was told while its line was walked. -/
theorem closed (h : Accounted budget limit (s.opened event) t) (hs : s.log.enabled = true)
    (hd : s.dispatched < budget) (hn : s.nesting < limit) (slot : Option Nat)
    (hslot : ∀ k, slot = some k → k = s.log.records.size) (notified : List PetId) :
    Accounted budget limit s (t.closed slot notified) where
  kept := by rw [Arena.enabled_closed, h.kept]
  nesting := by
    show t.nesting - 1 = s.nesting
    rw [h.nesting]
    rfl
  told := by
    obtain ⟨inner, ht, listed⟩ := h.told
    obtain ⟨ids, _, hclosed⟩ := toList_closed hs ht slot hslot notified
    exact ⟨_, hclosed, listed.node hn⟩
  count hcount := by
    have opened : (s.opened event).log.records.size = s.log.records.size + 1 := by
      rw [← Array.length_toList, toList_opened hs, List.length_append, Array.length_toList]
      rfl
    have inner := h.count (by
      rw [opened, hcount]
      show _ = min (s.dispatched + 1) budget
      omega)
    rw [size_closed]
    exact inner

/-- An event over the budget is counted without a record. -/
theorem overspent (hs : s.log.enabled = true) (hd : ¬ s.dispatched < budget) :
    Accounted budget limit s { s with dispatched := s.dispatched + 1 } where
  kept := hs
  nesting := rfl
  told := (refl hs : Accounted budget limit s s).told
  count hcount := by
    show s.log.records.size = min (s.dispatched + 1) budget
    omega

end Accounted

namespace Resolve

variable {rules : Rules} {raise : Raise} {event : Event} {room budget limit : Nat} {s t u : Arena}
  {e : EngineError}

/-- The step that led to the arena succeeded. -/
structure Balanced (budget limit : Nat) (s t : Arena) : Prop where
  accounted : Accounted budget limit s t
  afforded : Afforded budget s t

/-- The step that led to the arena failed. -/
structure Aborted (budget limit : Nat) (s : Arena) (e : EngineError) (t : Arena) : Prop where
  accounted : Accounted budget limit s t
  afforded : e ≠ .eventBudgetExceeded budget → Afforded budget s t

theorem Balanced.refl (h : s.log.enabled = true) : Balanced budget limit s s := ⟨.refl h, id⟩

theorem Balanced.trans (h : Balanced budget limit s t) (h' : Balanced budget limit t u) :
    Balanced budget limit s u :=
  ⟨h.accounted.trans h'.accounted, fun hs => h'.afforded (h.afforded hs)⟩

theorem Balanced.abort (h : Balanced budget limit s t) (h' : Aborted budget limit t e u) :
    Aborted budget limit s e u :=
  ⟨h.accounted.trans h'.accounted, fun he hs => h'.afforded he (h.afforded hs)⟩

theorem Balanced.aborted (h : Balanced budget limit s t) (e : EngineError) :
    Aborted budget limit s e t := ⟨h.accounted, fun _ => h.afforded⟩

theorem Balanced.congr (h : Balanced budget limit s t) (hl : u.log = t.log)
    (hn : u.nesting = t.nesting) (hd : u.dispatched = t.dispatched) : Balanced budget limit s u :=
  ⟨h.accounted.congr hl hn hd, fun hs => hd ▸ h.afforded hs⟩

/-- What is told while there is room for so many levels is accounted for. -/
def Tallies (rules : Rules) (room : Nat) (raise : Raise) : Prop :=
  ∀ event s limit, s.log.enabled = true → s.nesting + room ≤ limit →
    Ends (Aborted rules.config.maxEvents limit s) (fun _ => Balanced rules.config.maxEvents limit s)
      (raise event s)

/-- A step that keeps what was told accounted for. -/
abbrev Balances {α : Type} (rules : Rules) (limit : Nat) (s : Arena) (m : Resolve α) : Prop :=
  Triple (Aborted rules.config.maxEvents limit s) (Balanced rules.config.maxEvents limit s) m
    fun _ => Balanced rules.config.maxEvents limit s

theorem Tallies.balances (h : Tallies rules room raise) (hn : s.nesting + room ≤ limit)
    (event : Event) : Balances rules limit s (raise event) := by
  apply Triple.intro
  intro t ht
  have told := h event t limit ht.accounted.kept (ht.accounted.nesting ▸ hn)
  exact told.weaken (fun _ _ he => ht.abort he) fun _ _ hu => ht.trans hu

theorem elementary_balanced (budget limit : Nat) (s : Arena) (c : Catalog) :
    Elementary .all c (.same (Aborted budget limit s)) (Same (Balanced budget limit s)) :=
  elementary_of_congr (fun _ _ _ _ _ => trivial) (fun _ _ h hl hn hd _ => h.congr hl hn hd)
    (fun _ h _ _ _ => h.congr rfl rfl rfl) fun e _ _ h => h.aborted e

theorem boardSteps_balanced (budget limit : Nat) (s : Arena) (c : Catalog) :
    BoardSteps .all c (.same (Aborted budget limit s)) (Same (Balanced budget limit s)) :=
  boardSteps_of_unseen fun _ _ h => h.congr rfl rfl rfl

theorem Tallies.telling (h : Tallies rules room raise) (hn : s.nesting + room ≤ limit) :
    Telling .all rules rules raise raise (.same (Aborted rules.config.maxEvents limit s))
      (Same (Balanced rules.config.maxEvents limit s)) :=
  (boardSteps_balanced ..).telling (elementary_balanced ..) rfl (.of_all fun _ => trivial)
    fun event _ => h.balances hn event

theorem Tallies.perform (h : Tallies rules room raise) (hn : s.nesting + room ≤ limit)
    (event : Event) (actor : Option PetId) (effect : Effect) :
    Balances rules limit s (Resolve.perform rules raise event actor effect) :=
  keeps_perform (elementary_balanced ..) (h.telling hn).toActing (Scope.covers_all _) rfl event trivial
    actor effect effect.every_true

theorem Tallies.walk (h : Tallies rules room raise) (hn : s.nesting + room ≤ limit) (event : Event)
    (line : List PetId) :
    Balances rules limit s
      (Resolve.walk rules raise (Resolve.perform rules raise) event line [] line) := by
  have elementary := elementary_balanced rules.config.maxEvents limit s rules.catalog
  have telling := h.telling hn
  have covers := Scope.covers_all rules.catalog
  have told : Scope.all.events event := trivial
  exact keeps_walk elementary telling covers.effects rfl (acts_perform elementary telling covers rfl) told
    line [] line

theorem slot_of_openRecord (h : s.log.enabled = true) {record : EventRecord} (k : Nat)
    (hk : (s.log.openRecord record).1 = some k) : k = s.log.records.size := by
  rw [EventLog.openRecord_kept h] at hk
  exact (Option.some.inj hk).symm

/-- By induction on the room for nesting. -/
theorem tallies_dispatchIn (rules : Rules) (room : Nat) : Tallies rules room (dispatchIn rules room) := by
  induction room with
  | zero => exact fun event s limit hs _ => (Balanced.refl hs).aborted _
  | succ room ih =>
    intro event s limit hs hn
    by_cases hd : s.dispatched < rules.config.maxEvents
    · have deeper : (s.opened event).nesting + room ≤ limit := by
        show s.nesting + 1 + room ≤ limit
        omega
      have shallow : s.nesting < limit := by omega
      have kept : (s.opened event).log.enabled = true := (s.log.enabled_openRecord _).trans hs
      refine ends_dispatchIn (F := Aborted _ limit (s.opened event))
        (I := Balanced _ limit (s.opened event)) (J := fun _ => Balanced _ limit (s.opened event))
        (absurd hd) (.refl kept) (ih.walk deeper event) (fun e t ht => ?_) fun t notified ht => ?_
      · exact ⟨ht.accounted.closed hs hd shallow none nofun [], fun he _ => ht.afforded he hd⟩
      · exact ⟨ht.accounted.closed hs hd shallow _ (slot_of_openRecord hs) notified,
          fun _ => ht.afforded hd⟩
    · have exhausted : dispatchIn rules (room + 1) event s =
          (.error (.eventBudgetExceeded rules.config.maxEvents),
            { s with dispatched := s.dispatched + 1 }) := tellLine_exhausted hd _
      rw [exhausted]
      exact ⟨.overspent hs hd, fun he => absurd rfl he⟩

/-! ## Calls -/

/-- The arena between calls: no event is being told, and there is one record for each event that was
told within the budget. -/
structure Tallied (config : EngineConfig) (s : Arena) : Prop where
  kept : s.log.enabled = true
  nesting : s.nesting = 0
  count : s.log.records.size = min s.dispatched config.maxEvents

theorem tallied_open {config : EngineConfig} (h : config.recordEvents = true) (board : Board)
    (shop : Option Shop) : Tallied config (.open config board shop) :=
  ⟨h, rfl, (Nat.zero_min _).symm⟩

/-- What a call adds to an arena between calls. -/
abbrev CallAccounted (config : EngineConfig) (s t : Arena) : Prop :=
  Accounted config.maxEvents config.maxDispatchDepth s t

theorem Tallied.call {config : EngineConfig} (h : Tallied config s) (ht : CallAccounted config s t) :
    Tallied config t := ⟨ht.kept, ht.nesting.trans h.nesting, ht.count h.count⟩

/-- The steps of a call tell events with all room for nesting. -/
theorem Tallied.dispatch (h : Tallied rules.config s) (event : Event) :
    Balances rules rules.config.maxDispatchDepth s (dispatch rules event) := by
  refine (tallies_dispatchIn rules _).balances ?_ event
  rw [h.nesting, Nat.zero_add]

theorem Tallied.playsPairs (h : Tallied rules.config s) :
    PlaysPairs rules (Aborted rules.config.maxEvents rules.config.maxDispatchDepth s)
      (Balanced rules.config.maxEvents rules.config.maxDispatchDepth s) := by
  intro attacks _
  have steps := boardSteps_balanced rules.config.maxEvents rules.config.maxDispatchDepth s rules.catalog
  exact keeps_playAttacks (elementary_balanced ..) rfl steps.damage steps.remove
    (fun event _ => h.dispatch event) attacks

theorem Tallied.opening (h : Tallied rules.config s) :
    Balances rules rules.config.maxDispatchDepth s (Battle.opening (procedures rules)) :=
  Battle.keeps_opening h.playsPairs (fun _ ht => ht.congr rfl rfl rfl) fun _ => h.dispatch _

theorem Tallied.attackCycle (h : Tallied rules.config s) :
    Balances rules rules.config.maxDispatchDepth s (attackCycle rules (procedures rules)) :=
  keeps_attackCycle h.playsPairs fun _ ht => ht.congr rfl rfl rfl

end Resolve

namespace Battle

variable {rules : Rules} {teams : Sides Team} {b : Battle} {budget limit : Nat} {s : Arena} {α : Type}

theorem accounted_of_ends {r : Except EngineError α × Battle}
    (h : Ends (Aborted budget limit s) (Balanced budget limit s) r) :
    Accounted budget limit s r.2.arena ∧
      (r.1 ≠ .error (.eventBudgetExceeded budget) → Afforded budget s r.2.arena) := by
  obtain ⟨r, b⟩ := r
  cases r with
  | ok x => exact ⟨h.accounted, fun _ => h.afforded⟩
  | error e => exact ⟨h.accounted, fun he => h.afforded fun heq => he (congrArg Except.error heq)⟩

theorem accounted_start (h : Tallied rules.config b.arena) :
    CallAccounted rules.config b.arena (b.start rules).2.arena ∧
      ((b.start rules).1 ≠ .error (.eventBudgetExceeded rules.config.maxEvents) →
        Afforded rules.config.maxEvents b.arena (b.start rules).2.arena) :=
  accounted_of_ends (ends_start h.opening (.refl h.kept))

theorem accounted_step (h : Tallied rules.config b.arena) :
    CallAccounted rules.config b.arena (b.step rules).2.arena ∧
      ((b.step rules).1 ≠ .error (.eventBudgetExceeded rules.config.maxEvents) →
        Afforded rules.config.maxEvents b.arena (b.step rules).2.arena) :=
  accounted_of_ends (ends_step h.opening h.attackCycle (.refl h.kept))

theorem tallied_of_reachable (hr : rules.config.recordEvents = true) (h : Reachable rules teams b) :
    Tallied rules.config b.arena := by
  induction h with
  | new => exact tallied_open hr _ _
  | start _ ih => exact ih.call (accounted_start ih).1
  | step _ ih => exact ih.call (accounted_step ih).1

/-- Playing a battle to its end adds the listings of its steps, one behind the other. -/
theorem accounted_finishFrom (h : Tallied rules.config b.arena) :
    CallAccounted rules.config b.arena (b.finishFrom rules).2.arena ∧
      ((b.finishFrom rules).1 ≠ .error (.eventBudgetExceeded rules.config.maxEvents) →
        Afforded rules.config.maxEvents b.arena (b.finishFrom rules).2.arena) := by
  fun_induction finishFrom rules b with
  | case1 b e b₁ hs =>
    have stepped := accounted_step h
    rw [hs] at stepped
    exact ⟨stepped.1, fun he => stepped.2 fun heq => he (congrArg Except.error (Except.error.inj heq))⟩
  | case2 b outcome b₁ hs =>
    have stepped := accounted_step h
    rw [hs] at stepped
    exact ⟨stepped.1, fun _ => stepped.2 (by simp)⟩
  | case3 b b₁ hs ih | case4 b b₁ hs ih =>
    have stepped := accounted_step h
    rw [hs] at stepped
    obtain ⟨accounted, afforded⟩ := ih (h.call stepped.1)
    exact ⟨stepped.1.trans accounted, fun he hb => afforded he (stepped.2 (by simp) hb)⟩

/-- The battles that calls lead to, none of which exceeded the budget of events. -/
inductive Unspent (rules : Rules) (teams : Sides Team) : Battle → Prop
  | new : Unspent rules teams (ofTeams rules.config teams)
  | start {b : Battle} (h : Unspent rules teams b)
      (hs : (b.start rules).1 ≠ .error (.eventBudgetExceeded rules.config.maxEvents)) :
      Unspent rules teams (b.start rules).2
  | step {b : Battle} (h : Unspent rules teams b)
      (hs : (b.step rules).1 ≠ .error (.eventBudgetExceeded rules.config.maxEvents)) :
      Unspent rules teams (b.step rules).2
  | finish {b : Battle} (h : Unspent rules teams b)
      (hs : (b.finishFrom rules).1 ≠ .error (.eventBudgetExceeded rules.config.maxEvents)) :
      Unspent rules teams (b.finishFrom rules).2

theorem Unspent.reachable (h : Unspent rules teams b) : Reachable rules teams b := by
  induction h with
  | new => exact .new
  | start _ _ ih => exact .start ih
  | step _ _ ih => exact .step ih
  | finish _ _ ih => exact ih.finishFrom

theorem Unspent.dispatched_le (hr : rules.config.recordEvents = true) (h : Unspent rules teams b) :
    b.arena.dispatched ≤ rules.config.maxEvents := by
  induction h with
  | new => exact Nat.zero_le _
  | start h hs ih => exact (accounted_start (tallied_of_reachable hr h.reachable)).2 hs ih
  | step h hs ih => exact (accounted_step (tallied_of_reachable hr h.reachable)).2 hs ih
  | finish h hs ih => exact (accounted_finishFrom (tallied_of_reachable hr h.reachable)).2 hs ih

theorem Unspent.records_size (hr : rules.config.recordEvents = true) (h : Unspent rules teams b) :
    b.arena.log.records.size = b.arena.dispatched :=
  (tallied_of_reachable hr h.reachable).count.trans (Nat.min_eq_left (h.dispatched_le hr))

end Battle

namespace PurchasePhase

variable {rules : Rules} {team : Team} {shop : Shop} {p : PurchasePhase} {s : Arena}

/-- Pets in line are stored, which the calls rely on. -/
theorem turnSteps_balanced (h : Tallied rules.config s) :
    TurnSteps rules (fun _ => True)
      (Aborted rules.config.maxEvents rules.config.maxDispatchDepth s)
      fun t => Balanced rules.config.maxEvents rules.config.maxDispatchDepth s t ∧
        t.board.WellFormed := by
  have invariant : BoardInvariant .all rules.catalog Board.WellFormed :=
    boardInvariant_wellFormed rules.catalog fun _ => trivial
  have covers := Scope.covers_all rules.catalog
  have closed : Closed Scope.all := .of_all fun _ => trivial
  have both {α : Type} {m : Resolve α} (hm : Balances rules rules.config.maxDispatchDepth s m)
      (hw : Triple (BoardInvariant.failed .all rules.catalog Board.WellFormed)
        (fun t => t.board.WellFormed) m fun _ t => t.board.WellFormed) :=
    (hm.and hw).weaken (fun _ _ he => he.1) (fun _ ht => ht) fun _ _ ht => ht
  exact {
    tell := fun event _ _ => both (h.dispatch event) (invariant.dispatchIn covers closed _ trivial)
    perform := fun event _ id food _ => by
      have room : s.nesting + rules.config.maxDispatchDepth ≤ rules.config.maxDispatchDepth := by
        rw [h.nesting, Nat.zero_add]
      exact both ((tallies_dispatchIn rules _).perform room event none _)
        (invariant.perform covers closed trivial none food.ability.effect.every_true)
    remove := fun id => triple_remove fun t ht side b hl =>
      ⟨ht.1.congr rfl rfl rfl, hl.wellFormed ht.2⟩
    stored := fun t ht id hm => ht.2.pet?_of_mem hm
    pay := fun t _ ht => ⟨ht.1.congr rfl rfl rfl, ht.2⟩ }

theorem accounted_call (h : Tallied rules.config p.arena) (hw : p.arena.board.WellFormed) (c : Call) :
    CallAccounted rules.config p.arena (p.call rules c).2.arena ∧
      ((p.call rules c).1 ≠ .error (.eventBudgetExceeded rules.config.maxEvents) →
        Afforded rules.config.maxEvents p.arena (p.call rules c).2.arena) := by
  have spawned : c.Brings fun pet => ∀ placement,
      Triple (Aborted rules.config.maxEvents rules.config.maxDispatchDepth p.arena)
        (fun t => Balanced rules.config.maxEvents rules.config.maxDispatchDepth p.arena t ∧
          t.board.WellFormed) (spawn .a pet placement)
        fun _ t => Balanced rules.config.maxEvents rules.config.maxDispatchDepth p.arena t ∧
          t.board.WellFormed := by
    cases c with
    | placePet pet index tierOne afterLoss =>
      exact triple_spawn fun t ht id b ha => ⟨ht.1.congr rfl rfl rfl, ha.wellFormed ht.2⟩
    | _ => trivial
  obtain ⟨succeeds, fails⟩ := keeps_call (turnSteps_balanced h) (fun e t ht => ht.1.aborted e) c
    (fun _ _ => trivial) spawned ⟨.refl h.kept, hw⟩
  cases hr : (p.call rules c).1 with
  | ok x => exact ⟨(succeeds hr).1.accounted, fun _ => (succeeds hr).1.afforded⟩
  | error e =>
    exact ⟨(fails e hr).accounted, fun he => (fails e hr).afforded fun heq => he (congrArg Except.error heq)⟩

theorem tallied_of_reachable (hr : rules.config.recordEvents = true)
    (h : Reachable rules team shop (fun _ => True) p) : Tallied rules.config p.arena := by
  induction h with
  | new => exact tallied_open hr _ _
  | call h c _ ih => exact ih.call (accounted_call ih (wellFormed_of_reachable h) c).1

/-- The phases that calls lead to, none of which exceeded the budget of events. -/
inductive Unspent (rules : Rules) (team : Team) (shop : Shop) : PurchasePhase → Prop
  | new : Unspent rules team shop (ofTeam rules.config team shop)
  | call {p : PurchasePhase} (h : Unspent rules team shop p) (c : Call)
      (hc : (p.call rules c).1 ≠ .error (.eventBudgetExceeded rules.config.maxEvents)) :
      Unspent rules team shop (p.call rules c).2

theorem Unspent.reachable (h : Unspent rules team shop p) :
    Reachable rules team shop (fun _ => True) p := by
  induction h with
  | new => exact .new
  | call _ c _ ih => exact .call ih c c.brings_true

theorem Unspent.dispatched_le (hr : rules.config.recordEvents = true)
    (h : Unspent rules team shop p) : p.arena.dispatched ≤ rules.config.maxEvents := by
  induction h with
  | new => exact Nat.zero_le _
  | call h c hc ih =>
    have tallied := tallied_of_reachable hr h.reachable
    exact (accounted_call tallied (wellFormed_of_reachable h.reachable) c).2 hc ih

theorem Unspent.records_size (hr : rules.config.recordEvents = true)
    (h : Unspent rules team shop p) : p.arena.log.records.size = p.arena.dispatched :=
  (tallied_of_reachable hr h.reachable).count.trans (Nat.min_eq_left (h.dispatched_le hr))

end PurchasePhase

end AutoBattler
