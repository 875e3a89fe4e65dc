import AutoBattler.Proofs.Accounts
import AutoBattler.Proofs.Concurrence
import AutoBattler.Proofs.Contexts
import AutoBattler.Proofs.Rescue

/-!
# The lines of events

Beside a resolution runs the same one in which every record lists the whole line of its event, as it
stood when the event was told. Nothing else differs, and what a record lists of the pets that were
reached is a part of that line in its order, in which no pet stands twice.
-/
namespace AutoBattler

open Resolve

/-- Enters the whole line of an event in the place of its record, whether it is told or fails. -/
def Wrapping.lining : Wrapping where
  tell event m := fun s =>
    ((m s).1, { (m s).2 with
      log := (m s).2.log.setNotified s.log.records.size
        (event.snapshot.getD (s.board.roster event.side)) })
  act _ _ _ m := m
  fire _ _ _ _ m := m

namespace EventLog

variable {n slot : Nat} {log lined : EventLog} {ids line : List PetId}

theorem getElem?_setNotified (log : EventLog) (slot : Nat) (ids : List PetId) (i : Nat) :
    (log.setNotified slot ids).records.toList[i]? =
      log.records.toList[i]?.map fun r => if slot = i then { r with notified := ids } else r := by
  unfold setNotified
  rw [Array.toList_modify, List.getElem?_modify]
  rfl

/-- Both logs are kept and have the same records but for the pets that these list. From the `n`th
record on, what the first log lists is a part of what the second one does, in the order of it. -/
structure Lined (n : Nat) (log lined : EventLog) : Prop where
  kept : log.enabled = true
  keptLined : lined.enabled = true
  headings : log.headings = lined.headings
  notified : ∀ i r r', n ≤ i → log.records.toList[i]? = some r →
    lined.records.toList[i]? = some r' → r.notified.Sublist r'.notified ∧ r'.notified.Nodup

theorem Lined.size (h : Lined n log lined) : log.records.size = lined.records.size := by
  rw [← length_headings, ← length_headings, h.headings]

/-- Of records that were there before nothing is said. -/
theorem lined_refl (h : log.enabled = true) : Lined log.records.size log log := by
  refine ⟨h, h, rfl, fun i r _ hi hr _ => ?_⟩
  obtain ⟨hlt, _⟩ := List.getElem?_eq_some_iff.1 hr
  rw [Array.length_toList] at hlt
  omega

theorem Lined.openRecord (h : Lined n log lined) (event : Event) (depth : Nat) :
    Lined n (log.openRecord (event.record depth)).2 (lined.openRecord (event.record depth)).2 where
  kept := (log.enabled_openRecord _).trans h.kept
  keptLined := (lined.enabled_openRecord _).trans h.keptLined
  headings := by
    rw [headings_openRecord h.kept, headings_openRecord h.keptLined, h.headings]
  notified i r r' hi hr hr' := by
    rw [openRecord_kept h.kept, Array.toList_push] at hr
    rw [openRecord_kept h.keptLined, Array.toList_push] at hr'
    have length : log.records.toList.length = lined.records.toList.length := h.size
    by_cases hlt : i < log.records.toList.length
    · rw [List.getElem?_append_left hlt] at hr
      rw [List.getElem?_append_left (length ▸ hlt)] at hr'
      exact h.notified i r r' hi hr hr'
    · rw [List.getElem?_append_right (Nat.not_lt.1 hlt)] at hr
      obtain rfl := List.mem_singleton.1 (List.mem_of_getElem? hr)
      rw [List.getElem?_append_right (length ▸ Nat.not_lt.1 hlt)] at hr'
      obtain rfl := List.mem_singleton.1 (List.mem_of_getElem? hr')
      exact ⟨List.Sublist.refl _, List.nodup_nil⟩

theorem Lined.setNotified (h : Lined n log lined) (slot : Nat) (hn : ids.Nodup) :
    Lined n (log.setNotified slot ids) (lined.setNotified slot ids) where
  kept := h.kept
  keptLined := h.keptLined
  headings := by rw [headings_setNotified, headings_setNotified, h.headings]
  notified i r r' hi hr hr' := by
    rw [getElem?_setNotified] at hr hr'
    obtain ⟨x, hx, rfl⟩ := Option.map_eq_some_iff.1 hr
    obtain ⟨x', hx', rfl⟩ := Option.map_eq_some_iff.1 hr'
    split
    · exact ⟨List.Sublist.refl _, hn⟩
    · exact h.notified i x x' hi hx hx'

/-- The whole line is entered where the first log lists a part of it. -/
theorem Lined.setLine (h : Lined n log lined) (hn : line.Nodup)
    (hs : ∀ r, log.records.toList[slot]? = some r → r.notified.Sublist line) :
    Lined n log (lined.setNotified slot line) where
  kept := h.kept
  keptLined := h.keptLined
  headings := by rw [headings_setNotified, h.headings]
  notified i r r' hi hr hr' := by
    rw [getElem?_setNotified] at hr'
    obtain ⟨x', hx', rfl⟩ := Option.map_eq_some_iff.1 hr'
    split
    · rename_i hslot
      exact ⟨hs r (hslot ▸ hr), hn⟩
    · exact h.notified i r x' hi hr hx'

end EventLog

/-- The second arena has a log in which from the `n`th record on the whole lines are listed. -/
def Likeness.lined (n : Nat) : Likeness := ⟨EventLog.Lined n, Eq, Board.WellFormed, fun _ => False⟩

/-! ## Events whose lines name every pet once -/

namespace Event

/-- A snapshot that the event has names no pet twice. -/
def NamesOnce (event : Event) : Prop := ∀ line, event.snapshot = some line → line.Nodup

/-- So does the event that it repeats an answer to, and that is where this ends. -/
structure IsLined (event : Event) : Prop where
  namesOnce : event.NamesOnce
  cause : ∀ cause, event.cause = some cause → cause.NamesOnce ∧ cause.cause = none

variable {event : Event}

theorem isLined_of_uncaused (h : event.NamesOnce) (hc : event.cause = none) : event.IsLined := by
  refine ⟨h, fun cause hcause => ?_⟩
  rw [hc] at hcause
  cases hcause

theorem isLined_of_fresh (hs : event.snapshot = none) (hc : event.cause = none) : event.IsLined := by
  refine isLined_of_uncaused (fun line hline => ?_) hc
  rw [hs] at hline
  cases hline

theorem IsLined.castEvent (h : event.IsLined) (caster : PetId) (side : Side) :
    (castEvent caster side event).IsLined where
  namesOnce line hline := by
    change (if event.side = side then event.snapshot else none) = some line at hline
    split at hline
    · exact h.namesOnce line hline
    · cases hline
  cause cause hc := by
    cases hc
    exact ⟨h.namesOnce, rfl⟩

end Event

namespace Resolve

variable {rules : Rules} {raise raise' : Raise} {event : Event} {n room : Nat} {s t : Arena}

abbrev liningScope : Scope := .answering Event.IsLined

theorem covers_liningScope (c : Catalog) : liningScope.Covers c where
  effects ability _ := ability.effect.every_true
  cause _ cause he hc :=
    Event.isLined_of_uncaused (he.cause cause hc).1 (he.cause cause hc).2

theorem invariant_lined (c : Catalog) : BoardInvariant liningScope c Board.WellFormed :=
  boardInvariant_wellFormed c fun _ => trivial

theorem elementary_lined (n : Nat) (c : Catalog) :
    Elementary liningScope c (.alike (.lined n)) (Arena.Alike (.lined n)) :=
  Arena.Alike.elementary (invariant_lined c).toEditInvariant (Scope.draws_of_eq _ rfl)

theorem boardSteps_lined (n : Nat) (c : Catalog) :
    BoardSteps liningScope c (.alike (.lined n)) (Arena.Alike (.lined n)) :=
  Arena.Alike.boardSteps (K := .lined n) (invariant_lined c)

/-- How two ways of telling go together. -/
def TellsLined (n : Nat) (raise raise' : Raise) : Prop :=
  ∀ event, event.IsLined → Matches (.lined n) (raise event) (raise' event)

/-- An attack looks back at the rosters of a board, which name every pet once. -/
theorem TellsLined.playAttacks (h : TellsLined n raise raise') (attacks : List Attack) :
    Matches (.lined n) (playAttacks rules raise attacks) (playAttacks rules raise' attacks) := by
  have steps := boardSteps_lined n rules.catalog
  refine keeps_playAttacks_along (elementary_lined n rules.catalog) rfl steps.damage steps.remove
    (fun event ht hlines => h event ?_) attacks
  refine Event.isLined_of_uncaused (fun line hline => ?_) (Event.fresh_of_attackEvent ht).2
  obtain ⟨_, side, ⟨s, t, hst, rfl⟩, rfl⟩ := hlines line hline
  rw [Board.lines, Sides.get_map]
  exact hst.holds.nodup side

theorem TellsLined.telling (h : TellsLined n raise raise') :
    Telling liningScope rules rules raise raise' (.alike (.lined n)) (Arena.Alike (.lined n)) where
  play _ _ _ _ attacker side targets damage := h.playAttacks _
  teach event _ amount target hs id := by
    have steps := boardSteps_lined n rules.catalog
    exact keeps_teach (elementary_lined n rules.catalog)
      (fun hpos => steps.gainPoint amount target hs hpos id) (steps.promote id)
      fun side => h _ (Event.isLined_of_fresh rfl rfl)
  bringIn event _ pet hp side _ placement copies :=
    keeps_bringIn ((boardSteps_lined n rules.catalog).spawn pet hp side placement)
      (fun id => h _ (Event.isLined_of_fresh rfl rfl)) copies
  evolve into kind hs hk id := (boardSteps_lined n rules.catalog).replace into kind hs hk id
  cast event he _ _ _ caster side := h _ (Event.IsLined.castEvent he caster side)

/-! ## What is reached -/

/-- The pets that were reached are a part of the line, in its order. -/
theorem sublist_of_walk {act : Act} {line ids reached notified : List PetId}
    (h : walk rules raise act event line reached ids s = (.ok notified, t)) :
    ∃ found : List PetId, found.Sublist ids ∧ notified = reached.reverse ++ found := by
  induction ids generalizing reached s with
  | nil =>
    cases h
    exact ⟨[], .refl _, (List.append_nil _).symm⟩
  | cons id rest ih =>
    rw [walk, bind_run] at h
    dsimp only [board, look] at h
    cases hreached : reached? rules event s.board id with
    | none =>
      rw [hreached] at h
      obtain ⟨found, hfound, rfl⟩ := ih h
      exact ⟨found, hfound.cons id, rfl⟩
    | some pet =>
      rw [hreached] at h
      dsimp only at h
      rw [bind_run] at h
      generalize notify rules raise act event line id pet s = answered at h
      obtain ⟨r, u⟩ := answered
      cases r with
      | error e => cases h
      | ok _ =>
        obtain ⟨found, hfound, rfl⟩ := ih h
        refine ⟨id :: found, hfound.cons_cons id, ?_⟩
        rw [List.reverse_cons, List.append_assoc, List.singleton_append]

/-- The record of an event that was told lists a part of its line; if it failed, nothing. -/
theorem notified_of_dispatchIn (hs : s.log.enabled = true) (room : Nat) (event : Event) {r : EventRecord}
    (hr : (dispatchIn rules room event s).2.log.records.toList[s.log.records.size]? = some r) :
    r.notified.Sublist (event.snapshot.getD (s.board.roster event.side)) := by
  have beyond : s.log.records.toList[s.log.records.size]? = none :=
    List.getElem?_eq_none (Nat.le_of_eq Array.length_toList)
  cases room with
  | zero => exact absurd (hr.symm.trans beyond) nofun
  | succ room =>
    have kept : (s.opened event).log.enabled = true := (s.log.enabled_openRecord _).trans hs
    have tallies := tallies_dispatchIn rules room
    have walked := triple_iff.1 (tallies.walk (Nat.le_refl ((s.opened event).nesting + room)) event
      (event.snapshot.getD (s.board.roster event.side))) _ (Balanced.refl kept)
    change ((countEvent rules.config.maxEvents >>= fun _ => nested (tellLine event fun line =>
      walk rules (dispatchIn rules room) (perform rules (dispatchIn rules room)) event line []
        line)) s).2.log.records.toList[s.log.records.size]? = some r at hr
    by_cases hd : s.dispatched < rules.config.maxEvents
    · rw [tellLine_run hd] at hr
      split at hr
      · rename_i notified t hw
        rw [hw] at walked
        obtain ⟨inner, ht, _⟩ := walked.accounted.told
        obtain ⟨ids, hids, hclosed⟩ :=
          Accounted.toList_closed hs ht _ (slot_of_openRecord hs) notified
        rw [hclosed, List.getElem?_append_right (Nat.le_of_eq Array.length_toList),
          Array.length_toList, Nat.sub_self, List.getElem?_cons_zero] at hr
        obtain ⟨found, hfound, rfl⟩ := sublist_of_walk hw
        cases hr
        rcases hids with rfl | rfl
        · exact List.nil_sublist _
        · exact hfound
      · rename_i e t hw
        rw [hw] at walked
        obtain ⟨inner, ht, _⟩ := walked.accounted.told
        change t.log.records.toList[s.log.records.size]? = some r at hr
        rw [ht, Accounted.toList_opened hs, List.append_assoc,
          List.getElem?_append_right (Nat.le_of_eq Array.length_toList), Array.length_toList,
          Nat.sub_self] at hr
        cases hr
        exact List.nil_sublist _
    · rw [tellLine_exhausted hd] at hr
      exact absurd (hr.symm.trans beyond) nofun

/-! ## Beside the resolution -/

theorem Event.NamesOnce.nodup {b : Board} (h : event.NamesOnce) (hb : b.WellFormed) :
    (event.snapshot.getD (b.roster event.side)).Nodup := by
  cases hs : event.snapshot with
  | none => exact hb.nodup event.side
  | some line => exact h line hs

/-- Entering the line keeps the arenas alike where the record lists a part of it. -/
theorem lined_tell {m m' : Resolve Unit} (he : event.NamesOnce) (hst : s.Alike (.lined n) t)
    (h : Agree (.alike (.lined n)) (fun _ => Arena.Alike (.lined n)) (m s) (m' t))
    (hr : ∀ r, (m s).2.log.records.toList[s.log.records.size]? = some r →
      r.notified.Sublist (event.snapshot.getD (s.board.roster event.side))) :
    Agree (.alike (.lined n)) (fun _ => Arena.Alike (.lined n)) (m s)
      (Wrapping.lining.tell event m' t) := by
  have nodup := Event.NamesOnce.nodup he hst.holds
  have size := EventLog.Lined.size hst.log
  unfold Wrapping.lining
  dsimp only
  rw [← size, ← hst.board]
  generalize m s = p at h hr
  generalize m' t = q at h
  cases h with
  | ok h => exact .ok (h.withLog (EventLog.Lined.setLine h.log nodup hr))
  | error h => exact .error (Arena.Alike.withLog h (EventLog.Lined.setLine h.log nodup hr))
  | alone h => exact h.elim

theorem logged_lined {m m' : Resolve (List PetId)} {depth : Nat}
    (h : Yields (.alike (.lined n)) (Arena.Alike (.lined n)) List.Nodup m m') :
    Matches (.lined n) (logged (event.record depth) m) (logged (event.record depth) m') := by
  have opened : Matches (.lined n) (openRecord (event.record depth)) (openRecord (event.record depth)) := by
    constructor
    intro s t hst
    have log : EventLog.Lined n s.log t.log := hst.log
    have slot : (s.log.openRecord (event.record depth)).1 = (t.log.openRecord (event.record depth)).1 := by
      rw [EventLog.openRecord_kept log.kept, EventLog.openRecord_kept log.keptLined, log.size]
    unfold openRecord
    rw [slot]
    exact .ok (hst.withLog (log.openRecord event depth))
  refine Couples.bind opened fun slot => Yields.bind h fun ids hids => ?_
  cases slot with
  | none => exact keeps_pure ()
  | some slot => exact ⟨fun s t hst => .ok (hst.withLog (EventLog.Lined.setNotified hst.log slot hids))⟩

/-- By induction on the room for nesting. -/
theorem tellsLined_dispatchIn (rules : Rules) (n room : Nat) :
    TellsLined n (dispatchIn rules room) (Wrapping.lining.dispatchIn rules room) := by
  induction room with
  | zero =>
    intro event he
    constructor
    intro s t hst
    exact lined_tell he.namesOnce hst (.error hst)
      fun r hr => notified_of_dispatchIn (EventLog.Lined.kept hst.log) 0 event hr
  | succ room ih =>
    intro event he
    have told : Matches (.lined n) (dispatchIn rules (room + 1) event) (do
        countEvent rules.config.maxEvents
        nested (tellLine event fun line => Wrapping.lining.walk rules
          (Wrapping.lining.dispatchIn rules room)
          (Wrapping.lining.perform rules (Wrapping.lining.dispatchIn rules room)) event line [] line)) := by
      refine Couples.bind (Arena.Alike.countEvent (Nat.le_refl _) (.inl rfl)) fun _ => ?_
      refine Arena.Alike.nested ?_
      rw [notifyAll_eq]
      refine couples_tellLine_of (G := List.Nodup) (fun _ _ hst => hst.board) (fun _ _ hst => hst.nesting)
        (fun s t hst => Event.NamesOnce.nodup he.namesOnce hst.holds) fun depth line hline => ?_
      have walked := Wrapping.keeps_walk_of_telling (w := Wrapping.lining)
        (elementary_lined n rules.catalog) ih.telling (covers_liningScope _) (fun _ _ _ _ => rfl)
        (fun _ _ _ _ _ => rfl) he line line []
      have found := walked.yields (F := List.Nodup) fun s notified t hw => by
        obtain ⟨found, hfound, rfl⟩ := sublist_of_walk hw
        exact hline.sublist hfound
      exact (logged_lined found).weaken (fun _ _ hst => hst.1) fun _ _ _ hst => hst
    constructor
    intro s t hst
    exact lined_tell he.namesOnce hst (told.agree s t hst)
      fun r hr => notified_of_dispatchIn (EventLog.Lined.kept hst.log) (room + 1) event hr

theorem matches_dispatch_lined (he : event.IsLined) :
    Matches (.lined n) (dispatch rules event) (Wrapping.lining.dispatch rules event) :=
  tellsLined_dispatchIn rules n _ event he

theorem matches_drainQueues_lined (rules : Rules) (n : Nat) :
    Matches (.lined n) (drainQueues rules) (Wrapping.lining.drainQueues rules) :=
  Wrapping.keeps_drainQueues
    ⟨fun _ _ hst => hst.queues, fun _ _ hst => hst.dispatched,
      fun _ _ hst => { hst with queues := congrArg withoutForemost hst.queues }⟩
    (tellsLined_dispatchIn rules n _).playAttacks

theorem matches_opening_lined (rules : Rules) (n : Nat) :
    Matches (.lined n) (Battle.opening (procedures rules))
      (Battle.opening (Wrapping.lining.procedures rules)) :=
  Battle.keeps_opening_of (fun _ => matches_dispatch_lined (Event.isLined_of_fresh rfl rfl))
    (matches_drainQueues_lined rules n)

theorem matches_attackCycle_lined (rules : Rules) (n : Nat) :
    Matches (.lined n) (attackCycle rules (procedures rules))
      (attackCycle rules (Wrapping.lining.procedures rules)) :=
  keeps_attackCycle_of (fun _ _ hst => hst.board) (tellsLined_dispatchIn rules n _).playAttacks
    (matches_drainQueues_lined rules n)

/-! ## Calls -/

theorem alike_lined (hk : s.log.enabled = true) (hb : s.board.WellFormed) :
    s.Alike (.lined s.log.records.size) s :=
  ⟨rfl, rfl, rfl, rfl, EventLog.lined_refl hk, rfl, rfl, hb⟩

/-- How a call goes from an arena between calls: what it adds to the log is accounted for, and but for
what records list it is the call in which they list the whole lines. -/
structure Recorded {α : Type} (config : EngineConfig) (s : Arena)
    (r lined : Except EngineError α × Arena) : Prop where
  accounted : CallAccounted config s r.2
  lined : Concur (fun _ => False) Eq (Arena.Alike (.lined s.log.records.size)) r lined

end Resolve

namespace Battle

variable {rules : Rules} {b : Battle}

theorem alike_lined (h : Tallied rules.config b.arena) (hw : b.arena.board.WellFormed) :
    b.Alike (.lined b.arena.log.records.size) b := ⟨Resolve.alike_lined h.kept hw, rfl, rfl⟩

theorem recorded_start (h : Tallied rules.config b.arena) (hw : b.arena.board.WellFormed) :
    Recorded rules.config b.arena (Prod.map id arena (b.start rules))
      (Prod.map id arena (b.startWith (Wrapping.lining.procedures rules))) where
  accounted := (accounted_start h).1
  lined := (concur_startWith (matches_opening_lined rules _) (alike_lined h hw)).part arena
    fun _ _ hb => hb.arena

theorem recorded_step (h : Tallied rules.config b.arena) (hw : b.arena.board.WellFormed) :
    Recorded rules.config b.arena (Prod.map id arena (b.step rules))
      (Prod.map id arena (b.stepWith rules (Wrapping.lining.procedures rules))) where
  accounted := (accounted_step h).1
  lined := by
    have ends := concur_stepWith (matches_opening_lined rules b.arena.log.records.size)
      (matches_attackCycle_lined rules _) (Nat.le_refl _) (alike_lined h hw)
    rcases ends with ends | ⟨_, _, cut⟩
    · exact ends.part arena fun _ _ hb => hb.arena
    · exact absurd cut.earlier (Nat.lt_irrefl _)

end Battle

namespace PurchasePhase

variable {rules : Rules} {p : PurchasePhase}

/-- A sale looks back at the roster of a board, which names every pet once. -/
theorem beside_lined (rules : Rules) (n : Nat) :
    Beside rules rules (fun _ => True) (.alike (.lined n)) (Arena.Alike (.lined n)) (procedures rules)
      (Wrapping.lining.procedures rules) := by
  have isLined {event : Event} (he : IsOfTurn event) (hw : Witnesses (Arena.Alike (.lined n)) event) :
      event.IsLined := by
    refine Event.isLined_of_uncaused (fun line hline => ?_) he.uncaused
    obtain ⟨s, t, hst, rfl⟩ := hw line hline
    exact hst.holds.nodup .a
  exact {
    catalog := rfl
    boards := fun _ _ hst => hst.board
    shops := fun _ _ hst => hst.shop
    failed := fun _ _ _ hst => hst
    tell := fun event he hw _ => matches_dispatch_lined (isLined he hw)
    act := fun event he hw ability _ =>
      Wrapping.keeps_perform_of_act (elementary_lined n rules.catalog)
        (tellsLined_dispatchIn rules n _).telling.toActing (covers_liningScope _) (fun _ _ _ _ => rfl)
        event (isLined he hw) none ability.effect ability.effect.every_true
    remove := (boardSteps_lined n rules.catalog).remove
    pay := fun f => ⟨fun _ _ hst => .ok { hst with shop := congrArg (Option.map f) hst.shop }⟩ }

theorem recorded_call (h : Tallied rules.config p.arena) (hw : p.arena.board.WellFormed) (c : Call) :
    Recorded rules.config p.arena (Prod.map id arena (p.call rules c))
      (c.resolve rules (Wrapping.lining.procedures rules) p.arena) where
  accounted := (accounted_call h hw c).1
  lined := by
    have spawned : c.Brings fun pet => ∀ placement,
        Matches (.lined p.arena.log.records.size) (spawn .a pet placement) (spawn .a pet placement) := by
      cases c with
      | placePet pet index tierOne afterLoss =>
        exact fun _ => Arena.Alike.spawn fun _ _ _ hb ha => ha.wellFormed hb
      | _ => trivial
    have same : Prod.map id arena (p.call rules c) = c.resolve rules (procedures rules) p.arena :=
      Prod.ext (call_eq rules p c).1 (call_eq rules p c).2
    rw [same]
    exact ((beside_lined rules _).call c (fun _ _ => trivial) spawned).concur (alike_lined h.kept hw)

end PurchasePhase

/-- Between calls no event is being told, and the log has one record for each event that was told
within the budget: so there are no more than that, and as many as events were raised if no call exceeded
it. Whatever a call gives, what it adds to the log lists a forest in preorder that is no deeper than
events may nest, and every record lists a part of the line of its event in the order of it, without
repetition. Playing a battle to its end is making steps, and its listing that of them together. -/
theorem records_account_for_events (rules : Rules) (hr : rules.config.recordEvents = true) :
    (∀ teams b, Battle.Reachable rules teams b →
      Tallied rules.config b.arena ∧
      (Battle.Unspent rules teams b → b.arena.log.records.size = b.arena.dispatched) ∧
      Recorded rules.config b.arena (Prod.map id Battle.arena (b.start rules))
        (Prod.map id Battle.arena (b.startWith (Wrapping.lining.procedures rules))) ∧
      Recorded rules.config b.arena (Prod.map id Battle.arena (b.step rules))
        (Prod.map id Battle.arena (b.stepWith rules (Wrapping.lining.procedures rules))) ∧
      (∃ n, (b.finishFrom rules).2 = (fun b : Battle => (b.step rules).2)^[n] b) ∧
      CallAccounted rules.config b.arena (b.finishFrom rules).2.arena) ∧
    ∀ team shop p, PurchasePhase.Reachable rules team shop (fun _ => True) p →
      Tallied rules.config p.arena ∧
      (PurchasePhase.Unspent rules team shop p → p.arena.log.records.size = p.arena.dispatched) ∧
      ∀ c, Recorded rules.config p.arena (Prod.map id PurchasePhase.arena (p.call rules c))
        (c.resolve rules (Wrapping.lining.procedures rules) p.arena) := by
  refine ⟨fun teams b h => ?_, fun team shop p h => ?_⟩
  · have tallied := Battle.tallied_of_reachable hr h
    have wellFormed := Battle.wellFormed_of_reachable h
    exact ⟨tallied, fun hu => hu.records_size hr, Battle.recorded_start tallied wellFormed,
      Battle.recorded_step tallied wellFormed, Battle.finishFrom_eq_steps rules b,
      (Battle.accounted_finishFrom tallied).1⟩
  · have tallied := PurchasePhase.tallied_of_reachable hr h
    exact ⟨tallied, fun hu => hu.records_size hr,
      fun c => PurchasePhase.recorded_call tallied (PurchasePhase.wellFormed_of_reachable h) c⟩

/-- The battle of the hippo and the ant. -/
def rescueBattle : Battle :=
  .ofTeams (rescueRules callAnt healSelf).config (rescueTeams callAnt healSelf)

/-- After its first step. -/
def rescueStepped : Except EngineError BattleState × Battle :=
  rescueBattle.step (rescueRules callAnt healSelf)

/-- After the same step, in which whole lines are listed. -/
def rescueLined : Except EngineError BattleState × Battle :=
  rescueBattle.stepWith (rescueRules callAnt healSelf)
    (Wrapping.lining.procedures (rescueRules callAnt healSelf))

theorem records_account_for_events_rescue :
    let s := rescueStepped.2.arena
    s.nesting = 0 ∧ s.log.records.size = s.dispatched ∧
      s.log.records.toList.map (·.depth) = [1, 1, 1, 1, 1, 1, 2, 2, 1, 1] ∧
      IsListing 0 64 (s.log.records.toList.map (·.depth)) ∧
      s.log.records.toList.map (·.notified) = [[], [], [], [], [], [⟨4⟩], [], [], [], []] ∧
      s.log.Lined 0 rescueLined.2.arena.log := by
  have battles := (records_account_for_events (rescueRules callAnt healSelf) rfl).1
    (rescueTeams callAnt healSelf)
  obtain ⟨_, _, _, recorded, _⟩ := battles rescueBattle .new
  obtain ⟨tallied, counted, _⟩ := battles rescueStepped.2 (.step .new)
  have succeeds : rescueStepped.1 = .ok .running := by decide +kernel
  have unspent : rescueStepped.1 ≠ .error (.eventBudgetExceeded 50000) := by
    rw [succeeds]
    exact nofun
  have within := counted (.step .new unspent)
  have depths : rescueStepped.2.arena.log.records.toList.map (·.depth) =
      [1, 1, 1, 1, 1, 1, 2, 2, 1, 1] := by decide +kernel
  have reached : rescueStepped.2.arena.log.records.toList.map (·.notified) =
      [[], [], [], [], [], [⟨4⟩], [], [], [], []] := by decide +kernel
  have recorded : Recorded (rescueRules callAnt healSelf).config rescueBattle.arena
      (Prod.map id Battle.arena rescueStepped) (Prod.map id Battle.arena rescueLined) := recorded
  have empty : rescueBattle.arena.log.records = #[] := rfl
  generalize rescueStepped = r at *
  generalize rescueLined = r' at *
  obtain ⟨told, hs, listed⟩ := recorded.accounted.told
  have alike := (recorded.lined.together fun _ => id).2
  rw [empty] at hs alike
  have same : r.2.arena.log.records.toList = told := hs
  rw [← same] at listed
  exact ⟨tallied.nesting, within, depths, listed, reached, alike.log⟩

end AutoBattler
