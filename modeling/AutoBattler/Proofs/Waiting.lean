import AutoBattler.Proofs.Drained
import AutoBattler.Proofs.Wrapping

/-!
# Waiting attacks

Telling events and performing effects only append to the queues. An attack leaves its queue at the
front, to be played, and draining goes on until nothing waits. So over all calls of a battle what
joined a queue is what was taken from it, in the same order, and then what still waits.
-/
namespace AutoBattler

/-- The attacks that wait on a side, in the order in which they are to be taken. -/
def Arena.waits (s : Arena) (side : Side) : List Attack := (s.queues.get side).toList

namespace Resolve

variable {rules : Rules} {s t u : Arena}

theorem waits_enqueue (attack : Attack) (s : Arena) (side : Side) :
    (enqueue attack s).2.waits side =
      s.waits side ++ if attack.side = side then [attack] else [] := by
  by_cases h : attack.side = side
  · subst h
    rw [if_pos rfl]
    show ((s.queues.update attack.side _).get attack.side).toList = _
    rw [Sides.get_update_self, Queue.toList_push]
    rfl
  · rw [if_neg h, List.append_nil]
    show ((s.queues.update attack.side _).get side).toList = _
    rw [Sides.get_update_of_ne _ _ (Ne.symm h)]
    rfl

theorem waits_withoutForemost (s : Arena) (side : Side) :
    ({ s with queues := withoutForemost s.queues } : Arena).waits side = (s.waits side).tail := by
  show ((s.queues.map Queue.tail).get side).toList = _
  rw [Sides.get_map, Queue.toList_tail]
  rfl

theorem foremost_eq (s : Arena) :
    foremost s.queues = (s.waits .a).head?.toList ++ (s.waits .b).head?.toList := by
  unfold foremost Arena.waits
  rw [Queue.head?_toList, Queue.head?_toList]
  rfl

theorem waits_of_waiting (h : waiting s.queues = 0) (side : Side) : s.waits side = [] := by
  obtain ⟨ha, hb⟩ := Nat.add_eq_zero_iff.1 h
  apply List.eq_nil_of_length_eq_zero
  unfold Arena.waits
  rw [Queue.length_toList]
  cases side with
  | a => exact ha
  | b => exact hb

/-! ## Joining -/

/-- The attacks that waited wait on, in front of those that have joined. -/
def Joined (s t : Arena) : Prop := ∀ side, s.waits side <+: t.waits side

theorem blind_joined (s : Arena) : Blind (Joined s) := by
  rintro t u _ _ hq ht side
  unfold Arena.waits
  rw [← hq]
  exact ht side

theorem Joined.enqueue (h : Joined s t) (attack : Attack) : Joined s (enqueue attack t).2 := by
  intro side
  rw [waits_enqueue]
  exact (h side).trans (List.prefix_append ..)

theorem elementary_joined (s : Arena) (c : Catalog) :
    Elementary .all c (.same fun _ => Joined s) (Same (Joined s)) :=
  (blind_joined s).elementary (fun _ => trivial)
    (fun _ _ attack => Triple.intro fun _ ht => ht.enqueue attack) fun _ _ ht => ht

theorem keeps_dispatchIn_joined (rules : Rules) (s : Arena) (room : Nat) (event : Event) :
    Triple (fun _ => Joined s) (Joined s) (dispatchIn rules room event) fun _ => Joined s := by
  have told : Scope.all.events event := trivial
  have guarding : Guarding rules rules (.same fun _ => Joined s) (Same (Joined s)) := by
    refine guarding_of_congr rules fun t u _ hq _ ht side => ?_
    unfold Arena.waits
    rw [hq]
    exact ht side
  exact keeps_dispatchIn (elementary_joined s rules.catalog) (blind_joined s).boardSteps guarding
    (Scope.covers_all _) (.of_all fun _ => trivial) rfl room told

theorem joined_dispatchIn (rules : Rules) (room : Nat) (event : Event) (s : Arena) :
    Joined s (dispatchIn rules room event s).2 :=
  ends_always.1 (triple_iff.1 (keeps_dispatchIn_joined rules s room event) s fun _ => List.prefix_rfl)

theorem joined_perform (rules : Rules) (room : Nat) (event : Event) (actor : Option PetId)
    (effect : Effect) (s : Arena) :
    Joined s (perform rules (dispatchIn rules room) event actor effect s).2 := by
  have elementary := elementary_joined s rules.catalog
  have steps : BoardSteps Scope.all rules.catalog (.same fun _ => Joined s) (Same (Joined s)) :=
    (blind_joined s).boardSteps
  have telling := steps.telling elementary rfl (.of_all fun _ => trivial) fun event _ =>
    keeps_dispatchIn_joined rules s room event
  have performed := keeps_perform elementary telling.toActing (Scope.covers_all _) rfl event trivial
    actor effect effect.every_true
  exact ends_always.1 (triple_iff.1 performed s fun _ => List.prefix_rfl)

theorem joined_playAttacks (rules : Rules) (attacks : List Attack) (s : Arena) :
    Joined s (playAttacks rules (dispatch rules) attacks s).2 := by
  have steps : BoardSteps Scope.all rules.catalog (.same fun _ => Joined s) (Same (Joined s)) :=
    (blind_joined s).boardSteps
  have played : Triple (fun _ => Joined s) (Joined s) (playAttacks rules (dispatch rules) attacks)
      fun _ => Joined s :=
    keeps_playAttacks (elementary_joined s rules.catalog) rfl steps.damage steps.remove
      (fun event _ => keeps_dispatchIn_joined rules s _ event) attacks
  exact ends_always.1 (triple_iff.1 played s fun _ => List.prefix_rfl)

/-! ## Joining and leaving -/

/-- The steps of calls of a battle, with the attacks that have joined each queue and those that
have been taken from it. Between the steps the state of the battle is of no matter. -/
inductive Played (rules : Rules) (s : Arena) : (joined taken : Side → List Attack) → Arena → Prop
  | refl : Played rules s (fun _ => []) (fun _ => []) s
  | opened {joined taken more : Side → List Attack} {t u : Arena}
    (h : Played rules s joined taken t) (side : Side)
    (hu : u = (dispatch rules (.battle .startOfBattle side) t).2)
    (hq : ∀ side, u.waits side = t.waits side ++ more side) :
    Played rules s (fun side => joined side ++ more side) taken u
  | exchanged {joined taken more : Side → List Attack} {t u : Arena}
    (h : Played rules s joined taken t)
    (hu : u = (playAttacks rules (dispatch rules) (Side.all.filterMap (primaryAttack? t.board)) t).2)
    (hq : ∀ side, u.waits side = t.waits side ++ more side) :
    Played rules s (fun side => joined side ++ more side) taken u
  | took {joined taken more : Side → List Attack} {t u : Arena} (h : Played rules s joined taken t)
    (hu : u = (playAttacks rules (dispatch rules)
      ((t.waits .a).head?.toList ++ (t.waits .b).head?.toList)
      { t with queues := withoutForemost t.queues }).2)
    (hq : ∀ side, u.waits side = (t.waits side).tail ++ more side) :
    Played rules s (fun side => joined side ++ more side)
      (fun side => taken side ++ (t.waits side).head?.toList) u

theorem head_append_tail {α : Type} (xs : List α) : xs.head?.toList ++ xs.tail = xs := by
  cases xs <;> rfl

/-- No attack is lost, taken twice or before one that has waited longer. -/
theorem Played.balance {joined taken : Side → List Attack} (h : Played rules s joined taken t)
    (side : Side) : s.waits side ++ joined side = taken side ++ t.waits side := by
  induction h with
  | refl => exact List.append_nil _
  | opened h _ hu hq ih => rw [hq, ← List.append_assoc, ih, List.append_assoc]
  | exchanged h hu hq ih => rw [hq, ← List.append_assoc, ih, List.append_assoc]
  | @took joined taken more t u h hu hq ih =>
    rw [hq, ← List.append_assoc, ih, List.append_assoc, List.append_assoc]
    rw [← List.append_assoc (t.waits side).head?.toList, head_append_tail]

/-- The arenas that such steps lead to. -/
def Passed (rules : Rules) (s t : Arena) : Prop := ∃ joined taken, Played rules s joined taken t

theorem Joined.append (h : Joined t u) (side : Side) :
    u.waits side = t.waits side ++ (u.waits side).drop (t.waits side).length :=
  (List.prefix_iff_eq_append.1 (h side)).symm

namespace Passed

theorem opening (h : Passed rules s t) (side : Side) :
    Passed rules s (dispatch rules (.battle .startOfBattle side) t).2 := by
  obtain ⟨joined, taken, h⟩ := h
  have later := joined_dispatchIn rules rules.config.maxDispatchDepth (.battle .startOfBattle side) t
  exact ⟨_, _, h.opened side rfl later.append⟩

theorem exchange (h : Passed rules s t) :
    Passed rules s
      (playAttacks rules (dispatch rules) (Side.all.filterMap (primaryAttack? t.board)) t).2 := by
  obtain ⟨joined, taken, h⟩ := h
  have later := joined_playAttacks rules (Side.all.filterMap (primaryAttack? t.board)) t
  exact ⟨_, _, h.exchanged rfl later.append⟩

theorem take (h : Passed rules s t) : Passed rules s (playForemost rules (dispatch rules) t).2 := by
  obtain ⟨joined, taken, h⟩ := h
  have later (side : Side) : (playForemost rules (dispatch rules) t).2.waits side =
      (t.waits side).tail ++
        ((playForemost rules (dispatch rules) t).2.waits side).drop (t.waits side).tail.length := by
    have rest := joined_playAttacks rules (foremost t.queues)
      { t with queues := withoutForemost t.queues }
    have waits := rest.append side
    rw [waits_withoutForemost] at waits
    exact waits
  exact ⟨_, _, h.took (by rw [← foremost_eq]; rfl) later⟩

theorem drain (h : Passed rules s t) {r : Except EngineError Unit × Arena} (hr : Drains rules t r) :
    Passed rules s r.2 := by
  induction hr with
  | drained _ => exact h
  | next _ hp _ ih =>
    have taken := h.take
    rw [hp] at taken
    exact ih taken
  | failed _ hp =>
    have taken := h.take
    rw [hp] at taken
    exact taken

end Passed

/-! ## Calls of a battle -/

theorem passed_drainQueues (rules : Rules) (s : Arena) :
    Triple (fun _ => Passed rules s) (Passed rules s) (drainQueues rules) fun _ => Passed rules s :=
  Triple.intro fun t ht => ends_always.2 (ht.drain (drains_drainQueues rules t))

theorem passed_opening (rules : Rules) (s : Arena) :
    Triple (fun _ => Passed rules s) (Passed rules s) (Battle.opening (procedures rules))
      fun _ => Passed rules s :=
  Battle.keeps_opening_of
    (fun side => Triple.intro fun _ ht => ends_always.2 (ht.opening side))
    (passed_drainQueues rules s)

theorem passed_attackCycle (rules : Rules) (s : Arena) :
    Triple (fun _ => Passed rules s) (Passed rules s) (attackCycle rules (procedures rules))
      fun _ => Passed rules s := by
  refine Couples.bind (Q := fun b => Same fun t => Passed rules s t ∧ t.board = b)
    (Triple.intro fun _ ht => ⟨ht, rfl⟩) fun b => ?_
  refine Couples.bind (Q := fun _ => Same (Passed rules s)) ?_ fun _ => passed_drainQueues rules s
  apply Triple.intro
  rintro t ⟨ht, rfl⟩
  exact ends_always.2 ht.exchange

theorem waiting_drainQueues (rules : Rules) :
    Triple anyway (fun _ => True) (drainQueues rules) fun _ t => waiting t.queues = 0 := by
  apply Triple.intro
  intro s _
  cases hr : drainQueues rules s with
  | mk r t =>
    cases r with
    | ok x => exact waiting_of_drainQueues hr
    | error e => trivial

theorem waiting_opening (rules : Rules) :
    Triple anyway (fun _ => True) (Battle.opening (procedures rules))
      fun _ t => waiting t.queues = 0 :=
  Couples.bind (triple_anyway _) fun _ => waiting_drainQueues rules

theorem waiting_attackCycle (rules : Rules) :
    Triple anyway (fun _ => True) (attackCycle rules (procedures rules))
      fun _ t => waiting t.queues = 0 :=
  Couples.bind (triple_anyway _) fun _ =>
    Couples.bind (triple_anyway _) fun _ => waiting_drainQueues rules

end Resolve

namespace Battle

open Resolve

variable {rules : Rules} {teams : Sides Team} {b b' : Battle} {state : BattleState}

theorem passed_of_reachable (h : Reachable rules teams b) :
    Passed rules (ofTeams rules.config teams).arena b.arena :=
  h.induct (passed_opening rules _) (passed_attackCycle rules _) ⟨_, _, .refl⟩ fun _ _ ht => ht

theorem waits_ofTeams (rules : Rules) (teams : Sides Team) (side : Side) :
    (ofTeams rules.config teams).arena.waits side = [] := by
  cases side <;> rfl

theorem start_eq_of_ok (h : (b.start rules).1 = .ok ()) :
    b.start rules = (.ok (), (b.start rules).2) := Prod.ext h rfl

theorem run_of_play {α : Type} {m : Resolve α} {x : α} (h : b.play m = (.ok x, b')) :
    m b.arena = (.ok x, b'.arena) := by
  obtain ⟨hx, rfl⟩ := Prod.mk.inj h
  exact Prod.ext hx rfl

theorem waiting_of_play {α : Type} {m : Resolve α} {x : α}
    (hm : Triple anyway (fun _ => True) m fun _ t => waiting t.queues = 0)
    (h : b.play m = (.ok x, b')) : waiting b'.arena.queues = 0 :=
  hm.ok trivial (run_of_play h)

/-- Starting a battle leaves nothing waiting, unless it does nothing. -/
theorem waiting_of_start (h : b.start rules = (.ok (), b')) :
    waiting b'.arena.queues = 0 ∨ b.state ≠ .notStarted ∧ b' = b := by
  unfold start startWith at h
  split at h
  · split at h
    · rename_i b₁ hp
      have none := waiting_of_play (waiting_opening rules) hp
      cases h
      exact .inl none
    · cases h
  · rename_i hstate
    cases h
    exact .inr ⟨hstate, rfl⟩

/-- A step leaves nothing waiting, unless it plays nothing since the battle is over. -/
theorem waiting_of_step (h : b.step rules = (.ok state, b')) :
    waiting b'.arena.queues = 0 ∨
      (∃ outcome, state = .finished outcome) ∧ b'.arena = b.arena := by
  unfold step stepWith at h
  split at h
  · cases h
    exact .inr ⟨⟨_, rfl⟩, rfl⟩
  · split at h
    · rename_i b₁ hs
      have ended {outcome : BattleOutcome} (h : b₁.finish outcome = (.ok state, b')) :
          waiting b'.arena.queues = 0 ∨
            (∃ outcome, state = .finished outcome) ∧ b'.arena = b.arena := by
        have started := waiting_of_start hs
        cases h
        exact started.imp_right fun same => ⟨⟨outcome, rfl⟩, by rw [same.2]⟩
      unfold advanceWith at h
      split at h
      · exact ended h
      · split at h
        · exact ended h
        · split at h
          · rename_i b₂ hp
            cases h
            exact .inl (waiting_of_play (waiting_attackCycle rules) hp)
          · cases h
    · cases h

/-- After calls all of which succeeded nothing waits. -/
theorem waiting_of_sound (h : Sound rules teams b) : waiting b.arena.queues = 0 := by
  induction h with
  | new => rfl
  | start _ hs ih =>
    rcases waiting_of_start hs with none | ⟨_, rfl⟩
    · exact none
    · exact ih
  | step _ hs ih =>
    rcases waiting_of_step hs with none | ⟨_, same⟩
    · exact none
    · rw [same]
      exact ih

end Battle

end AutoBattler
