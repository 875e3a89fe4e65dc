import AutoBattler.Proofs.Alike
import AutoBattler.Proofs.Drained

/-!
# Two configurations

One catalog under two configurations, of which the second sets the wider limits. Resolutions that
start alike stay alike; where the limits differ, the first one may stop at a limit alone. A battle
may besides be cut short for the number of its rounds.
-/
namespace AutoBattler

open Resolve

/-- The scope of all events and pets that performs effects with `p`. -/
def Scope.performing (p : Effect → Prop) : Scope := ⟨fun _ => True, p, fun _ => True⟩

/-- What makes resolutions under the two rules run alike. -/
structure Parallel (p : Effect → Prop) (K : Likeness) (rules rules' : Rules) : Prop where
  catalog : rules'.catalog = rules.catalog
  depth : rules.config.maxDispatchDepth ≤ rules'.config.maxDispatchDepth
  events : rules.config.maxEvents ≤ rules'.config.maxEvents
  limits : rules.config.maxDispatchDepth = rules'.config.maxDispatchDepth ∧
      rules.config.maxEvents = rules'.config.maxEvents ∨
    ∀ e : EngineError, e.isLimit = true → K.alone e
  every : rules.catalog.Every p
  draws : (Scope.performing p).Draws K
  holds : ∀ b, K.board b
  logged : ∀ record (m n : Resolve (List PetId)), Matches K m n →
    Matches K (logged record m) (logged record n)

namespace Parallel

variable {p : Effect → Prop} {K : Likeness} {rules rules' : Rules} {s t : Arena}

/-! ## Dispatch -/

theorem elementary (h : Parallel p K rules rules') :
    Elementary (.performing p) rules.catalog (.alike K) (Arena.Alike K) :=
  Arena.Alike.elementary (boardInvariant_trivial _ (fun _ => trivial) h.holds).toEditInvariant
    h.draws

theorem boardSteps (h : Parallel p K rules rules') :
    BoardSteps (.performing p) rules.catalog (.alike K) (Arena.Alike K) :=
  Arena.Alike.boardSteps (boardInvariant_trivial _ (fun _ => trivial) h.holds)

theorem covers (h : Parallel p K rules rules') : (Scope.performing p).Covers rules.catalog :=
  ⟨h.every, fun _ _ _ _ => trivial⟩

theorem telling (h : Parallel p K rules rules') {raise raise' : Raise}
    (hr : ∀ event, Matches K (raise event) (raise' event)) :
    Telling (.performing p) rules rules' raise raise' (.alike K) (Arena.Alike K) :=
  h.boardSteps.telling h.elementary h.catalog (.of_all fun _ => trivial) fun event _ => hr event

theorem refuse (h : Parallel p K rules rules') (event : Event) :
    Matches K (dispatchIn rules 0 event) (dispatchIn rules' 0 event) := by
  constructor
  intro s t hst
  rcases h.limits with ⟨hd, _⟩ | ha
  · rw [dispatchIn, dispatchIn, ← hd]
    exact .error hst
  · exact .alone (ha _ rfl)

/-- By induction on the room under the narrower limits. -/
theorem dispatchIn (h : Parallel p K rules rules') {room room' : Nat} (hr : room ≤ room')
    (hroom : room = room' ∨ ∀ e : EngineError, e.isLimit = true → K.alone e) (event : Event) :
    Matches K (dispatchIn rules room event) (dispatchIn rules' room' event) := by
  induction room generalizing room' event with
  | zero =>
    rcases hroom with rfl | ha
    · exact h.refuse event
    · exact ⟨fun s t _ => .alone (ha _ rfl)⟩
  | succ room ih =>
    obtain ⟨room', rfl⟩ : ∃ n, room' = n + 1 := ⟨room' - 1, by omega⟩
    have told := h.telling fun event =>
      ih (Nat.le_of_succ_le_succ hr) (hroom.imp_left Nat.succ.inj) event
    have acts := acts_perform h.elementary told h.covers h.catalog
    have counted := Arena.Alike.countEvent h.events (h.limits.imp_left And.right)
    refine Couples.bind counted fun _ => Arena.Alike.nested ?_
    rw [notifyAll_eq, notifyAll_eq]
    refine keeps_tellLine (fun _ _ h => h.board) (fun _ _ h => h.nesting) fun _ line => ?_
    exact h.logged _ _ _ (keeps_walk h.elementary told h.covers.effects h.catalog acts trivial line [] line)

theorem dispatch (h : Parallel p K rules rules') (event : Event) :
    Matches K (dispatch rules event) (dispatch rules' event) :=
  h.dispatchIn h.depth (h.limits.imp_left And.left) event

theorem perform (h : Parallel p K rules rules') (event : Event) (actor : Option PetId)
    {effect : Effect} (hs : effect.Every p) :
    Matches K (perform rules (Resolve.dispatch rules) event actor effect)
      (perform rules' (Resolve.dispatch rules') event actor effect) :=
  keeps_perform h.elementary (h.telling h.dispatch).toActing h.covers h.catalog event trivial actor effect hs

/-! ## Attack cycles -/

theorem playAttacks (h : Parallel p K rules rules') (attacks : List Attack) :
    Matches K (playAttacks rules (Resolve.dispatch rules) attacks)
      (playAttacks rules' (Resolve.dispatch rules') attacks) :=
  keeps_playAttacks h.elementary h.catalog h.boardSteps.damage h.boardSteps.remove
    (fun event _ => h.dispatch event) attacks

theorem playForemost (h : Parallel p K rules rules') :
    Matches K (playForemost rules (Resolve.dispatch rules))
      (playForemost rules' (Resolve.dispatch rules')) := by
  constructor
  intro s t hst
  have taken : Arena.Alike K { s with queues := withoutForemost s.queues }
      { t with queues := withoutForemost t.queues } :=
    { hst with queues := congrArg withoutForemost hst.queues }
  unfold Resolve.playForemost
  rw [← hst.queues] at taken ⊢
  exact (h.playAttacks _).agree _ _ taken

/-- The loops over the queues run alike, however many passes each is allowed. -/
theorem drains (h : Parallel p K rules rules') {r : Except EngineError Unit × Arena}
    (hr : Drains rules s r) (hst : s.Alike K t) :
    ∃ r', Drains rules' t r' ∧ Agree (.alike K) (fun _ => Arena.Alike K) r r' := by
  induction hr generalizing t with
  | drained hw => exact ⟨_, .drained (hst.queues ▸ hw), .ok hst⟩
  | next hw hp _ ih =>
    have ends := h.playForemost.agree _ _ hst
    rw [hp] at ends
    generalize hq : Resolve.playForemost rules' (Resolve.dispatch rules') t = q at ends
    cases ends with
    | ok hst' =>
      obtain ⟨r', hr', ha⟩ := ih hst'
      exact ⟨r', .next (hst.queues ▸ hw) hq hr', ha⟩
  | failed hw hp =>
    have ends := h.playForemost.agree _ _ hst
    rw [hp] at ends
    generalize hq : Resolve.playForemost rules' (Resolve.dispatch rules') t = q at ends
    cases ends with
    | error he => exact ⟨_, .failed (hst.queues ▸ hw) hq, .error he⟩
    -- The second loop ends somehow, and nothing is said of how.
    | alone he => exact ⟨_, drains_drainQueues rules' t, .alone he⟩

theorem drainQueues (h : Parallel p K rules rules') :
    Matches K (drainQueues rules) (drainQueues rules') := by
  constructor
  intro s t hst
  obtain ⟨r', hr', ha⟩ := h.drains (drains_drainQueues rules s) hst
  rwa [hr'.unique (drains_drainQueues rules' t)] at ha

theorem attackCycle (h : Parallel p K rules rules') :
    Matches K (attackCycle rules (procedures rules)) (attackCycle rules' (procedures rules')) := by
  refine Yields.bind h.elementary.yields_board fun b _ => ?_
  exact Couples.bind (h.playAttacks _) fun _ => h.drainQueues

theorem opening (h : Parallel p K rules rules') :
    Matches K (Battle.opening (procedures rules)) (Battle.opening (procedures rules')) := by
  refine Couples.bind (keeps_forEach _ fun side _ => ?_) fun _ => h.drainQueues
  exact h.dispatch (.battle .startOfBattle side)

end Parallel

end AutoBattler
