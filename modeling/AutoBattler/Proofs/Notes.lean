import AutoBattler.Proofs.Concurrence
import AutoBattler.Proofs.Contexts
import AutoBattler.Proofs.Records
import AutoBattler.Proofs.Repeats

/-!
# Noting what fires

A battle beside the same one with a note in the log of every level ability that fires, is to be
announced and has not been yet. Each cast that is told makes up for one note, so at the end of calls
that succeeded there are as many notes as casts.
-/
namespace AutoBattler

open Resolve

/-! ## Notes of what fires -/

/-- A level ability whose cast is announced in battle. -/
def Fires (holder : Holder) (event : Event) (effect : Effect) : Prop :=
  holder = .level ∧ event.trigger ≠ .castsAbility ∧ effect.isRepeatAbility = false

instance (holder : Holder) (event : Event) (effect : Effect) :
    Decidable (Fires holder event effect) := by
  unfold Fires
  infer_instance

/-- A note stands above all events. -/
def EventRecord.IsNote (r : EventRecord) : Prop := r.depth = 0

instance : DecidablePred EventRecord.IsNote := fun r => inferInstanceAs (Decidable (r.depth = 0))

/-- Notes every level ability that fires and is to be announced. -/
def Wrapping.noting : Wrapping where
  tell _ m := m
  act _ _ _ m := m
  fire holder event id ability m :=
    if Fires holder event ability.effect then do
      let _ ← openRecord ⟨event.trigger, event.side, some id, [], 0⟩
      m
    else m

namespace EventLog

variable {log noted : EventLog} {n depth : Nat} {event : Event} {record : EventRecord}

def casts (log : EventLog) : Nat := log.headings.countP (·.trigger = .castsAbility)

def notes (log : EventLog) : Nat := log.headings.countP (·.IsNote)

/-- Both logs are kept. Apart from its notes the second one is the first, and it has so many more
notes than there are casts. -/
structure Annotated (n : Nat) (log noted : EventLog) : Prop where
  kept : log.enabled = true
  keptNoted : noted.enabled = true
  told : noted.headings.filter (¬ ·.IsNote) = log.headings
  count : noted.notes = log.casts + n

theorem unaddressed_annotated (n : Nat) : Unaddressed (Annotated n) where
  left log noted slot ids h := by
    have same := log.headings_setNotified slot ids
    exact ⟨h.kept, h.keptNoted, h.told.trans same.symm, h.count.trans (by rw [casts, casts, same])⟩
  right log noted slot ids h := by
    have same := noted.headings_setNotified slot ids
    exact ⟨h.kept, h.keptNoted, same ▸ h.told, Eq.trans (by rw [notes, notes, same]) h.count⟩

end EventLog

/-- How many casts the event is. -/
def Event.castCount (event : Event) : Nat := if event.trigger = .castsAbility then 1 else 0

namespace EventLog

variable {log noted : EventLog} {n depth : Nat} {event : Event} {record : EventRecord}

/-- An event that is told stands in both logs. -/
theorem Annotated.tell (h : Annotated (n + event.castCount) log noted) (hd : 0 < depth) :
    Annotated n (log.openRecord (event.record depth)).2
      (noted.openRecord (event.record depth)).2 := by
  have unnoted : ¬ (event.record depth).IsNote := Nat.ne_of_gt hd
  refine ⟨?_, ?_, ?_, ?_⟩
  · rw [enabled_openRecord, h.kept]
  · rw [enabled_openRecord, h.keptNoted]
  · rw [headings_openRecord h.kept, headings_openRecord h.keptNoted, List.filter_append, h.told]
    simp [unnoted]
  · have uncounted : [event.record depth].countP (·.IsNote) = 0 := by simp [unnoted]
    have counted : [event.record depth].countP (·.trigger = .castsAbility) = event.castCount := by
      simp only [List.countP_singleton, decide_eq_true_eq]
      rfl
    have before := h.count
    unfold notes casts at before ⊢
    rw [headings_openRecord h.kept, headings_openRecord h.keptNoted, List.countP_append,
      List.countP_append, before, uncounted, counted]
    omega

/-- A note stands in the second log alone. -/
theorem Annotated.note (h : Annotated n log noted) (hr : record.IsNote) :
    Annotated (n + 1) log (noted.openRecord record).2 := by
  have note : record.heading.IsNote := hr
  refine ⟨h.kept, ?_, ?_, ?_⟩
  · rw [enabled_openRecord, h.keptNoted]
  · rw [headings_openRecord_eq, if_pos h.keptNoted, List.filter_append, h.told]
    simp [note]
  · have counted : [record.heading].countP (·.IsNote) = 1 := by simp [note]
    have before := h.count
    unfold notes at before ⊢
    rw [headings_openRecord_eq, if_pos h.keptNoted, List.countP_append, before, counted]
    omega

end EventLog

/-! ## A battle beside the noting one -/

/-- Nothing is said of failures. -/
def Resolve.Verdict.lenient : Verdict := ⟨fun _ _ _ => True, fun _ => True⟩

/-- The second arena has a log with so many more notes than the first has casts. -/
def Likeness.noted (n : Nat) (K : PetId → Prop) : Likeness where
  logs := EventLog.Annotated n
  generators := Eq
  board := Knowing (fun _ => True) K
  alone _ := True

abbrev Noted (n : Nat) (K : PetId → Prop) : Arena → Arena → Prop := Arena.Alike (.noted n K)

namespace Resolve

variable {rules : Rules} {raise raise' : Raise} {event : Event} {n : Nat} {K : PetId → Prop}
  {id : PetId} {ability : Ability}

/-- The scope of a battle in which pets are known. -/
abbrev castScope (K : PetId → Prop) : Scope := Wrapping.Idle.scope Event.InBattle K

abbrev CastTold (K : PetId → Prop) : Event → Prop := Wrapping.Idle.Told Event.InBattle K

theorem invariant_noted (c : Catalog) (K : PetId → Prop) :
    BoardInvariant (castScope K) c (Knowing (fun _ => True) K) :=
  (boardInvariant_trivial c (fun _ => trivial) fun _ => trivial).knowing K

theorem elementary_noted (c : Catalog) (n : Nat) (K : PetId → Prop) :
    Elementary (castScope K) c .lenient (Noted n K) :=
  Arena.Alike.elementary_of (invariant_noted c K).toEditInvariant (Scope.draws_of_eq _ rfl)
    fun _ _ _ _ _ => trivial

/-- How two ways of telling go together: each cast that is told makes up for one note. -/
def TellsNoted (raise raise' : Raise) : Prop :=
  ∀ n K event, CastTold K event → Couples .lenient (Noted (n + event.castCount) K) (raise event)
    (raise' event) fun _ => Noted n K

theorem TellsNoted.keeps (h : TellsNoted raise raise') (he : CastTold K event)
    (hc : event.trigger ≠ .castsAbility) :
    Keeps .lenient (Noted n K) (raise event) (raise' event) := by
  have told := h n K event he
  unfold Event.castCount at told
  rwa [if_neg hc] at told

/-- Performing tells of no cast, so it keeps the number of notes. -/
theorem TellsNoted.perform (h : TellsNoted raise raise') (he : (castScope K).events event)
    (actor : Option PetId) (effect : Effect) :
    Keeps .lenient (Noted n K) (perform rules raise event actor effect)
      (Wrapping.noting.perform rules raise' event actor effect) := by
  have elementary := elementary_noted rules.catalog n K
  have leads := (Wrapping.Idle.leads Event.hereditary_inBattle K).and leads_uncast
  have acting : Acting (castScope K) rules rules raise raise' .lenient (Noted n K) :=
    (Arena.Alike.boardSteps (invariant_noted rules.catalog K)).acting elementary rfl leads
      fun event ht => h.keeps ht.1 ht.2
  have covers := Wrapping.Idle.covers Event.hereditary_inBattle K rules.catalog
  exact Wrapping.keeps_perform_of_act elementary acting covers (fun _ _ _ _ => rfl) event he actor
    effect effect.every_true

theorem announceCast_of_not_fires (h : ¬ Fires .level event ability.effect) :
    announceCast raise id ability.effect event = pure () := by
  unfold announceCast
  rw [if_pos]
  simp only [Fires, true_and, not_and, Bool.not_eq_false] at h
  by_cases ht : event.trigger = .castsAbility
  · simp [ht]
  · simp [h ht]

/-- The cast of an ability that was noted is announced: a known pet is stored, so it has a side. -/
theorem TellsNoted.announce (h : TellsNoted raise raise') (he : CastTold K event) (hid : K id)
    (hf : Fires .level event ability.effect) :
    Couples .lenient (Noted (n + 1) K) (announceCast raise id ability.effect event)
      (announceCast raise' id ability.effect event) fun _ => Noted n K := by
  obtain ⟨_, htrigger, hrepeat⟩ := hf
  have hbattle : event.isBattle = true := decide_eq_true ((Event.inBattle_iff event).1 he.kind).1
  have announced : ¬ (!event.isBattle || event.repeated || event.trigger = .castsAbility ||
      ability.effect.isRepeatAbility) = true := by
    simp [hbattle, he.proper.unrepeated, htrigger, hrepeat]
  unfold announceCast
  rw [if_neg announced, if_neg announced]
  refine Couples.bind (Q := fun b s t => Noted (n + 1) K s t ∧ b.Stored id)
    (couples_look fun s t hst => ⟨hst.board, hst, hst.holds.stored id hid⟩) fun b => ?_
  constructor
  rintro s t ⟨hst, hstored⟩
  obtain ⟨entrant, hentrant⟩ := Option.isSome_iff_exists.1 hstored
  have hside : b.sideOf? id = some entrant.side := by
    unfold Board.sideOf?
    rw [hentrant]
    rfl
  rw [hside]
  have told : CastTold K (castEvent id entrant.side event) := by
    refine ⟨Event.isProper_castEvent .., Event.hereditary_inBattle.cast _ _ _ he.kind, .inr ⟨hbattle, ?_⟩⟩
    intro x hx
    cases hx
    exact hid
  exact (h n K _ told).agree s t hst

/-- What an ability does once it fires, without and with a note. -/
theorem TellsNoted.fire (h : TellsNoted raise raise') (he : CastTold K event) (hid : K id)
    (ability : Ability) :
    Keeps .lenient (Noted n K)
      (do
        let _ ← Resolve.perform rules raise event (some id) ability.effect
        announceCast raise id ability.effect event)
      (Wrapping.noting.fire .level event id ability do
        let _ ← Wrapping.noting.perform rules raise' event (some id) ability.effect
        announceCast raise' id ability.effect event) := by
  have performed (n : Nat) : Keeps .lenient (Noted n K)
      (Resolve.perform rules raise event (some id) ability.effect)
      (Wrapping.noting.perform rules raise' event (some id) ability.effect) :=
    h.perform (.inl he) (some id) ability.effect
  unfold Wrapping.noting
  dsimp only
  split
  · rename_i hf
    have noted : Couples .lenient (Noted (n + 1) K) _ _ _ :=
      Couples.bind (performed (n + 1)) fun _ => h.announce he hid hf
    constructor
    intro s t hst
    exact noted.agree s _ { hst with log := hst.log.note rfl }
  · rename_i hf
    rw [announceCast_of_not_fires hf, announceCast_of_not_fires hf]
    exact Couples.bind (performed n) fun _ => keeps_pure ()

theorem TellsNoted.notify (h : TellsNoted raise raise') (he : CastTold K event) (hid : K id)
    (line : List PetId) (pet : Pet) :
    Keeps .lenient (Noted n K)
      (Resolve.notify rules raise (Resolve.perform rules raise) event line id pet)
      (Wrapping.noting.notify rules raise' (Wrapping.noting.perform rules raise') event line id pet) := by
  have elementary := elementary_noted rules.catalog n K
  refine Wrapping.keeps_notify elementary trivial (fun ability _ => ?_) fun ability _ => ?_
  · exact Wrapping.keeps_fireLevel elementary (h.fire he hid ability)
  · refine Wrapping.keeps_fireStatus elementary ?_
    exact Couples.bind (h.perform (.inl he) (some id) ability.effect) fun _ => keeps_pure ()

/-- A pet that is reached is stored, and so becomes known. -/
theorem TellsNoted.walk (h : TellsNoted raise raise') (he : CastTold K event) (line : List PetId) :
    Keeps .lenient (Noted n K)
      (Resolve.walk rules raise (Resolve.perform rules raise) event line [] line)
      (Wrapping.noting.walk rules raise' (Wrapping.noting.perform rules raise') event line [] line) := by
  refine Wrapping.keeps_walk (fun _ _ hst => hst.board) (fun id pet => ?_) line []
  constructor
  rintro s t ⟨hst, hreached⟩
  let K' (x : PetId) : Prop := K x ∨ x = id
  have stored : ∀ x, K' x → s.board.Stored x := by
    rintro x (hx | rfl)
    · exact hst.holds.stored x hx
    · exact Board.stored_of_pet? (pet?_of_reached? hreached)
  have finer : Noted n K' s t := { hst with holds := ⟨hst.holds.wellFormed, trivial, stored⟩ }
  have told : CastTold K' event :=
    ⟨he.proper, he.kind, he.traced.imp_right fun h => ⟨h.1, fun x hx => .inl (h.2 x hx)⟩⟩
  refine ((h.notify told (.inr rfl) line pet).agree s t finer).weaken fun _ _ _ h => ?_
  exact { h with holds := ⟨h.holds.wellFormed, trivial, fun x hx => h.holds.stored x (.inl hx)⟩ }

/-- The record of an event stands in both logs, in front of what its walk leads to. -/
theorem TellsNoted.dispatch_inner (h : TellsNoted raise raise') (he : CastTold K event) :
    Couples .lenient (fun s t => Noted (n + event.castCount) K s t ∧ 0 < s.nesting)
      (tellLine event fun line =>
        Resolve.walk rules raise (Resolve.perform rules raise) event line [] line)
      (tellLine event fun line =>
        Wrapping.noting.walk rules raise' (Wrapping.noting.perform rules raise') event line [] line)
      fun _ => Noted n K := by
  refine couples_tellLine (fun _ _ hst => hst.1.board) (fun _ _ hst => hst.1.nesting) fun depth line => ?_
  have opened : Couples .lenient
      (fun s t => (Noted (n + event.castCount) K s t ∧ 0 < s.nesting) ∧ s.nesting = depth)
      (silent (openRecord (event.record depth))) (silent (openRecord (event.record depth)))
      fun _ => Noted n K := by
    constructor
    rintro s t ⟨⟨hst, hpos⟩, rfl⟩
    exact .ok { hst with log := hst.log.tell hpos }
  refine Couples.bind_silent opened fun slot slot' => ?_
  exact Couples.bind (h.walk he line) fun ids =>
    Arena.Alike.setNotified (EventLog.unaddressed_annotated n) slot slot' ids ids

/-- By induction on the room for nesting. -/
theorem tellsNoted_dispatchIn (rules : Rules) (room : Nat) :
    TellsNoted (Resolve.dispatchIn rules room) (Wrapping.noting.dispatchIn rules room) := by
  induction room with
  | zero => exact fun n K event _ => ⟨fun _ _ _ => .alone trivial⟩
  | succ room ih =>
    intro n K event he
    have counted : Keeps .lenient (Noted (n + event.castCount) K)
        (countEvent rules.config.maxEvents) (countEvent rules.config.maxEvents) := by
      constructor
      intro s t hst
      unfold countEvent
      rw [← hst.dispatched]
      split
      · exact .ok { hst with dispatched := rfl }
      · exact .alone trivial
    refine Couples.bind counted fun _ => Arena.Alike.couples_nested (fun _ _ _ _ => trivial) ?_
    rw [notifyAll_eq]
    exact ih.dispatch_inner he

theorem keeps_dispatch_noted (he : CastTold K event) (hc : event.trigger ≠ .castsAbility) :
    Keeps .lenient (Noted n K) (Resolve.dispatch rules event) (Wrapping.noting.dispatch rules event) :=
  (tellsNoted_dispatchIn rules _).keeps he hc

theorem keeps_playAttacks_noted (rules : Rules) (n : Nat) (K : PetId → Prop) (attacks : List Attack) :
    Keeps .lenient (Noted n K) (playAttacks rules (Resolve.dispatch rules) attacks)
      (playAttacks rules (Wrapping.noting.dispatch rules) attacks) := by
  have steps := Arena.Alike.boardSteps (V := .lenient) (K := .noted n K) (invariant_noted rules.catalog K)
  refine keeps_playAttacks (elementary_noted rules.catalog n K) rfl steps.damage steps.remove
    (fun event ht => ?_) attacks
  obtain ⟨hr, hc⟩ := Event.fresh_of_attackEvent ht
  have kind : event.InBattle := by cases ht <;> exact Event.inBattle_of_no_cause rfl rfl
  refine keeps_dispatch_noted (Wrapping.Idle.told_of_fresh hr hc kind) ?_
  cases ht <;> exact nofun

theorem keeps_drainQueues_noted (rules : Rules) (n : Nat) (K : PetId → Prop) :
    Keeps .lenient (Noted n K) (drainQueues rules) (Wrapping.noting.drainQueues rules) :=
  Wrapping.keeps_drainQueues
    ⟨fun _ _ hst => hst.queues, fun _ _ hst => hst.dispatched,
      fun _ _ hst => { hst with queues := congrArg withoutForemost hst.queues }⟩
    (keeps_playAttacks_noted rules n K)

theorem Keeps.matches_of_lenient {α : Type} {L : Likeness} {m m' : Resolve α}
    (h : Keeps .lenient (Arena.Alike L) m m') (hl : ∀ e, L.alone e) : Matches L m m' := by
  constructor
  intro s t hst
  have ends := h.agree s t hst
  generalize m s = r at ends
  generalize m' t = r' at ends
  cases ends with
  | ok h => exact .ok h
  | error _ => exact .alone (hl _)
  | alone _ => exact .alone (hl _)

theorem matches_opening_noted (rules : Rules) (n : Nat) (K : PetId → Prop) :
    Matches (.noted n K) (Battle.opening (procedures rules))
      (Battle.opening (Wrapping.noting.procedures rules)) := by
  refine Keeps.matches_of_lenient (Battle.keeps_opening_of (fun side => ?_) ?_) fun _ => trivial
  · have told : CastTold K (.battle .startOfBattle side) :=
      Wrapping.Idle.told_of_fresh rfl rfl (Event.inBattle_of_no_cause rfl rfl)
    exact keeps_dispatch_noted told nofun
  · exact keeps_drainQueues_noted rules n K

theorem matches_attackCycle_noted (rules : Rules) (n : Nat) (K : PetId → Prop) :
    Matches (.noted n K) (attackCycle rules (procedures rules))
      (attackCycle rules (Wrapping.noting.procedures rules)) :=
  Keeps.matches_of_lenient (keeps_attackCycle_of (fun _ _ hst => hst.board)
    (keeps_playAttacks_noted rules n K) (keeps_drainQueues_noted rules n K)) fun _ => trivial

end Resolve

namespace Battle

variable {rules : Rules} {b : Battle}

theorem callsWith_step {state : BattleState} (h : (b.step rules).1 = .ok state) :
    b.callsWith rules (procedures rules) [.step] = (.ok (), (b.step rules).2) := by
  unfold step at h ⊢
  unfold callsWith callWith
  rw [h]
  rfl

/-- If no call fails, the noting battle takes the same course, and notes as many abilities as casts
are told. -/
theorem noting_callsWith (hr : rules.config.recordEvents = true) {teams : Sides Team}
    {calls : List Call}
    (h : (ofTeams rules.config teams).callsWith rules (procedures rules) calls = (.ok (), b)) :
    ∃ b', (ofTeams rules.config teams).callsWith rules (Wrapping.noting.procedures rules) calls =
      (.ok (), b') ∧ b.Alike (.noted 0 fun _ => False) b' := by
  have starts : (ofTeams rules.config teams).Alike (.noted 0 fun _ => False)
      (ofTeams rules.config teams) := by
    refine ⟨⟨rfl, rfl, rfl, rfl, ⟨hr, hr, rfl, rfl⟩, rfl, rfl, ?_⟩, rfl, rfl⟩
    exact ⟨Board.wellFormed_ofTeams teams, trivial, fun _ => False.elim⟩
  have ends := concur_callsWith (matches_opening_noted rules 0 fun _ => False)
    (matches_attackCycle_noted rules 0 _) calls starts
  rw [h] at ends
  exact ends.of_ok

end Battle

end AutoBattler
