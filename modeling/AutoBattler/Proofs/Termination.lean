import AutoBattler.Proofs.Battles
import AutoBattler.Proofs.Drained
import AutoBattler.Proofs.ShopTurns

/-!
# Every call returns

The calls of a battle and of a shop turn, played with the bodies of the procedures only, come to an
end: with enough levels unfolded they never get to what stands in the calls that are left, and
give what they give with `dispatch`, `perform` and `drainQueues`. Between two steps of a call no
event is being told, so that all room for nesting is there.
-/
namespace AutoBattler

namespace Resolve

/-- The procedures have the property once enough levels are unfolded, whatever is left beyond. -/
def Eventually (rules : Rules) (P : Procedures → Prop) : Prop :=
  ∃ n, ∀ m, n ≤ m → ∀ beyond, P (.unfolded rules m beyond)

/-- While no event is being told, the step with the procedures unfolded does what `m` does. -/
def Converges {α : Type} (rules : Rules) (f : Procedures → Resolve α) (m : Resolve α) : Prop :=
  ∀ s, At 0 s → At 0 (m s).2 ∧ Eventually rules fun p => f p s = m s

variable {α β : Type} {rules : Rules} {P Q : Procedures → Prop} {f : Procedures → Resolve α}
  {m n : Resolve α} {s : Arena} {k : Nat}

theorem eventually_of_forall (h : ∀ p, P p) : Eventually rules P := ⟨0, fun _ _ _ => h _⟩

theorem Eventually.and (hP : Eventually rules P) (hQ : Eventually rules Q) :
    Eventually rules fun p => P p ∧ Q p := by
  obtain ⟨n, hn⟩ := hP
  obtain ⟨n', hn'⟩ := hQ
  refine ⟨max n n', fun m hm beyond => ⟨hn m ?_ beyond, hn' m ?_ beyond⟩⟩
  · exact Nat.le_trans (Nat.le_max_left ..) hm
  · exact Nat.le_trans (Nat.le_max_right ..) hm

theorem Eventually.mono (h : Eventually rules P) (hPQ : ∀ p, P p → Q p) : Eventually rules Q := by
  obtain ⟨n, hn⟩ := h
  exact ⟨n, fun m hm beyond => hPQ _ (hn m hm beyond)⟩

/-! ## Steps that converge -/

/-- Steps that give the same at a nesting are equal there. -/
theorem SameAt.run (h : SameAt k m n) (hs : At k s) : m s = n s ∧ At k (n s).2 := by
  have ha := h.agree s s ⟨rfl, hs⟩
  generalize m s = p at ha ⊢
  generalize n s = q at ha ⊢
  cases ha with
  | ok h =>
    obtain ⟨rfl, hk⟩ := h
    exact ⟨rfl, hk⟩
  | error h =>
    obtain ⟨rfl, hk⟩ := h
    exact ⟨rfl, hk⟩
  | alone h => exact h.elim

theorem converges_of_sameAt (floor : Nat)
    (h : ∀ i, floor ≤ i → ∀ beyond, SameAt 0 (f (.unfolded rules i beyond)) m) :
    Converges rules f m := by
  intro s hs
  have same := fun i hi beyond => (h i hi beyond).run hs
  have rests := (same floor (Nat.le_refl _) (procedures rules)).2
  exact ⟨rests, floor, fun i hi beyond => (same i hi beyond).1⟩

theorem Converges.triple (h : Converges rules f m) :
    Triple (fun _ => At 0) (At 0) m fun _ => At 0 := by
  apply Triple.intro
  intro s hs
  have rests := (h s hs).1
  generalize m s = r at rests
  obtain ⟨r, t⟩ := r
  cases r <;> exact rests

/-- A step that calls no procedure converges. -/
theorem converges_const (h : SameAt 0 m m) : Converges rules (fun _ => m) m :=
  converges_of_sameAt 0 fun _ _ _ => h

theorem Converges.bind {g : Procedures → α → Resolve β} {g' : α → Resolve β}
    (hf : Converges rules f m) (hg : ∀ x, Converges rules (fun p => g p x) (g' x)) :
    Converges rules (fun p => f p >>= g p) (m >>= g') := by
  intro s hs
  obtain ⟨rests, settled⟩ := hf s hs
  simp only [bind_run]
  generalize m s = r at rests settled ⊢
  obtain ⟨r, t⟩ := r
  cases r with
  | ok x =>
    obtain ⟨rests', settled'⟩ := hg x t rests
    refine ⟨rests', (settled.and settled').mono fun p hp => ?_⟩
    rw [hp.1]
    exact hp.2
  | error e =>
    refine ⟨rests, settled.mono fun p hp => ?_⟩
    rw [hp]

theorem converges_forEach (xs : List α) {body : Procedures → α → Resolve Unit}
    {body' : α → Resolve Unit} (h : ∀ x, Converges rules (fun p => body p x) (body' x)) :
    Converges rules (fun p => forEach xs (body p)) (forEach xs body') := by
  induction xs with
  | nil => exact converges_const (keeps_pure _)
  | cons x rest ih => exact (h x).bind fun _ => ih

/-- A read, or a step that changes neither the nesting nor the queues. -/
theorem converges_steady (h : ∀ s, At 0 s → At 0 (m s).2) : Converges rules (fun _ => m) m := by
  intro s hs
  exact ⟨h s hs, eventually_of_forall fun _ => rfl⟩

/-! ## Telling, performing and draining -/

theorem converges_tell (rules : Rules) (event : Event) :
    Converges rules (·.tell event) (dispatch rules event) := by
  have tells := tellsAs_dispatchIn rules event.causes (k := 0) rfl
  exact converges_of_sameAt _ fun i hi beyond => tells i hi beyond event (Nat.le_succ _)

theorem converges_act (rules : Rules) (event : Event) (actor : Option PetId) (effect : Effect) :
    Converges rules (·.act event actor effect)
      (perform rules (dispatch rules) event actor effect) := by
  have tells := tellsAs_dispatchIn rules event.causes (k := 0) rfl
  exact converges_of_sameAt _ fun i hi beyond =>
    tells.acts beyond event (Nat.le_succ _) actor effect i hi

theorem converges_playAttacks (rules : Rules) (attacks : List Attack) :
    Converges rules (fun p => playAttacks rules p.tell attacks)
      (playAttacks rules (dispatch rules) attacks) := by
  have tells := tellsAs_dispatchIn rules 0 (k := 0) rfl
  have steps : BoardSteps (shallow 1 0) rules.catalog (.same fun _ => At 0) (Same (At 0)) :=
    (blind_at 0).boardSteps
  have few : ∀ event, AttackEvent event → event.causes ≤ 0 + 1 := by
    intro event he
    cases he <;> exact Nat.zero_le _
  apply converges_of_sameAt (levels 0 rules.catalog.depth rules.config.maxDispatchDepth)
  intro i hi beyond
  exact keeps_playAttacks (elementary_at 0 1 0 rules.catalog) rfl steps.damage steps.remove
    (fun event he => tells i hi beyond event (few event he)) attacks

theorem converges_playForemost (rules : Rules) :
    Converges rules (fun p => playForemost rules p.tell) (playForemost rules (dispatch rules)) := by
  intro s hs
  exact converges_playAttacks rules (foremost s.queues)
    { s with queues := withoutForemost s.queues } hs

/-- By induction on the loop: each round takes one level more. -/
theorem Drains.converges {r : Except EngineError Unit × Arena} (h : Drains rules s r)
    (hs : At 0 s) : At 0 r.2 ∧ Eventually rules fun p => p.drain s = r := by
  have level {P : Procedures → Prop} (hP : Eventually rules fun p => P (p.unfold rules)) :
      Eventually rules P := by
    obtain ⟨n, hn⟩ := hP
    refine ⟨n + 1, fun m hm beyond => ?_⟩
    obtain ⟨m, rfl⟩ : ∃ i, m = i + 1 := ⟨m - 1, by omega⟩
    exact hn m (Nat.le_of_succ_le_succ hm) beyond
  have round {s : Arena} (hw : waiting s.queues ≠ 0) (p : Procedures) :
      (p.unfold rules).drain s = (playForemost rules p.tell >>= fun _ => p.drain) s := by
    show (if _ then _ else _ : Resolve Unit) s = _
    rw [if_neg hw]
  induction h with
  | @drained s hw =>
    refine ⟨hs, level (eventually_of_forall fun p => ?_)⟩
    show (if _ then _ else _ : Resolve Unit) s = _
    rw [if_pos hw]
    rfl
  | next hw hp _ ih =>
    obtain ⟨rests, settled⟩ := converges_playForemost rules _ hs
    dsimp only at settled
    rw [hp] at rests settled
    obtain ⟨rests', settled'⟩ := ih rests
    refine ⟨rests', level ((settled.and settled').mono fun p hp => ?_)⟩
    rw [round hw, bind_run, hp.1]
    exact hp.2
  | failed hw hp =>
    obtain ⟨rests, settled⟩ := converges_playForemost rules _ hs
    dsimp only at settled
    rw [hp] at rests settled
    refine ⟨rests, level (settled.mono fun p hp => ?_)⟩
    rw [round hw, bind_run, hp]

theorem converges_drain (rules : Rules) : Converges rules (·.drain) (drainQueues rules) :=
  fun s hs => (drains_drainQueues rules s).converges hs

theorem converges_attackCycle (rules : Rules) :
    Converges rules (attackCycle rules) (attackCycle rules (procedures rules)) := by
  have look : Converges rules (fun _ => board) board := converges_steady fun _ hs => hs
  exact look.bind fun _ => (converges_playAttacks rules _).bind fun _ => converges_drain rules

end Resolve

open Resolve

/-! ## Calls of a battle -/

namespace Battle

variable {rules : Rules} {teams : Sides Team} {b : Battle}

theorem converges_opening (rules : Rules) :
    Converges rules opening (opening (procedures rules)) :=
  (converges_forEach _ fun side => converges_tell rules (.battle .startOfBattle side)).bind
    fun _ => converges_drain rules

theorem at_of_ends {α : Type} {r : Except EngineError α × Battle}
    (h : Ends (fun _ => At 0) (At 0) r) : At 0 r.2.arena := by
  obtain ⟨r, b⟩ := r
  cases r <;> exact h

theorem converges_startWith (rules : Rules) (hb : At 0 b.arena) :
    At 0 (b.start rules).2.arena ∧ Eventually rules fun p => b.startWith p = b.start rules := by
  refine ⟨at_of_ends (ends_start (converges_opening rules).triple hb), ?_⟩
  refine (converges_opening rules b.arena hb).2.mono fun p hp => ?_
  unfold start startWith play
  rw [hp]

theorem converges_advanceWith (rules : Rules) (hb : At 0 b.arena) :
    At 0 (b.advanceWith rules (procedures rules)).2.arena ∧
      Eventually rules fun p => b.advanceWith rules p = b.advanceWith rules (procedures rules) := by
  refine ⟨at_of_ends (ends_advanceWith (converges_attackCycle rules).triple hb), ?_⟩
  refine (converges_attackCycle rules b.arena hb).2.mono fun p hp => ?_
  unfold advanceWith play
  rw [hp]

theorem converges_stepWith (rules : Rules) (hb : At 0 b.arena) :
    At 0 (b.step rules).2.arena ∧ Eventually rules fun p => b.stepWith rules p = b.step rules := by
  unfold step stepWith
  split
  · exact ⟨hb, eventually_of_forall fun _ => rfl⟩
  · obtain ⟨rests, settled⟩ := converges_startWith rules hb
    unfold start at rests settled
    generalize b.startWith (procedures rules) = r at rests settled ⊢
    obtain ⟨r, b'⟩ := r
    cases r with
    | ok _ =>
      obtain ⟨rests', settled'⟩ := converges_advanceWith rules rests
      refine ⟨rests', (settled.and settled').mono fun p hp => ?_⟩
      rw [hp.1]
      exact hp.2
    | error e =>
      refine ⟨rests, settled.mono fun p hp => ?_⟩
      rw [hp]

theorem at_of_reachable (h : Reachable rules teams b) : At 0 b.arena :=
  h.induct (converges_opening rules).triple (converges_attackCycle rules).triple rfl
    fun _ _ hs => hs

/-- Plays the battle to its end in at most so many steps. -/
def finishWithin (rules : Rules) (p : Procedures) :
    (steps : Nat) → Battle → Option (Except EngineError BattleReport × Battle)
  | 0, _ => none
  | steps + 1, b =>
    match b.stepWith rules p with
    | (.error e, b) => some (.error e, b)
    | (.ok (.finished outcome), b) => some (.ok (b.report outcome), b)
    | (.ok .notStarted, b) => finishWithin rules p steps b
    | (.ok .running, b) => finishWithin rules p steps b

/-- By recursion on the steps that the battle takes. -/
theorem converges_finishWithin (rules : Rules) (hb : At 0 b.arena) :
    Eventually rules fun p => ∀ steps, rules.config.maxRounds - b.rounds < steps →
      b.finishWithin rules p steps = some (b.finishFrom rules) := by
  fun_induction finishFrom rules b with
  | case1 b e b' hs | case2 b outcome b' hs =>
    refine (converges_stepWith rules hb).2.mono fun p hp steps hsteps => ?_
    obtain ⟨steps, rfl⟩ : ∃ n, steps = n + 1 := ⟨steps - 1, by omega⟩
    rw [finishWithin, hp, hs]
  | case3 b b' hs ih | case4 b b' hs ih =>
    obtain ⟨rests, settled⟩ := converges_stepWith rules hb
    rw [hs] at rests
    refine (settled.and (ih rests)).mono fun p hp steps hsteps => ?_
    obtain ⟨steps, rfl⟩ : ∃ n, steps = n + 1 := ⟨steps - 1, by omega⟩
    have played := rounds_of_step hs fun outcome ho => by cases ho
    rw [finishWithin, hp.1, hs]
    exact hp.2 steps (by omega)

end Battle

/-! ## Calls of a shop turn -/

namespace PurchasePhase

variable {rules : Rules} {team : Team} {shop : Shop} {admitted : Pet → Prop} {p : PurchasePhase}

theorem converges_petAt (index : Nat) : Converges rules (fun _ => petAt index) (petAt index) := by
  apply converges_steady
  intro s hs
  unfold petAt
  rw [bind_run]
  dsimp only [look]
  cases (s.board.roster .a)[index]? <;> exact hs

theorem converges_triggerEvent (rules : Rules) (told : Trigger) (source : Option Nat) :
    Converges rules (fun p => triggerEvent p told source)
      (triggerEvent (procedures rules) told source) := by
  unfold triggerEvent
  cases source with
  | none => exact converges_tell rules _
  | some index => exact (converges_petAt index).bind fun id => converges_tell rules _

theorem converges_placePet (rules : Rules) (pet : Pet) (index : Option Nat)
    (tierOne afterLoss : Bool) :
    Converges rules (fun p => Resolve.placePet p pet index tierOne afterLoss)
      (Resolve.placePet (procedures rules) pet index tierOne afterLoss) := by
  have spawned (placement : Placement) :
      Converges rules (fun _ => spawn .a pet placement) (spawn .a pet placement) := by
    apply converges_steady
    intro s hs
    unfold spawn
    split <;> exact hs
  refine (spawned _).bind fun placed => ?_
  cases placed with
  | none => exact converges_const (keeps_pure _)
  | some id =>
    refine (converges_forEach _ fun trigger => converges_tell rules _).bind fun _ => ?_
    exact converges_steady fun _ hs => hs

theorem converges_feed (rules : Rules) (food : FoodId) (target : Nat) :
    Converges rules (fun p => Resolve.feed rules p food target)
      (Resolve.feed rules (procedures rules) food target) := by
  have lookUp : Converges rules (fun _ => ofExcept (rules.catalog.food food))
      (ofExcept (rules.catalog.food food)) := converges_steady fun _ hs => hs
  refine lookUp.bind fun definition => (converges_petAt target).bind fun id => ?_
  refine (converges_act rules _ none definition.ability.effect).bind fun affected => ?_
  refine (converges_forEach affected fun pet => converges_tell rules _).bind fun _ => ?_
  exact converges_const (keeps_pure _)

theorem converges_sell (rules : Rules) (index : Nat) :
    Converges rules (fun p => Resolve.sell p index) (Resolve.sell (procedures rules) index) := by
  have line : Converges rules (fun _ => look (·.board.roster .a)) (look (·.board.roster .a)) :=
    converges_steady fun _ hs => hs
  have leaves (id : PetId) : Converges rules (fun _ => remove id) (remove id) := by
    apply converges_steady
    intro s hs
    unfold remove
    split <;> exact hs
  have found (id : PetId) : Converges rules (fun _ => pet? id) (pet? id) :=
    converges_steady fun _ hs => hs
  refine (converges_petAt index).bind fun id => line.bind fun ids => ?_
  refine (leaves id).bind fun _ => (found id).bind fun pet => ?_
  cases pet with
  | none => exact converges_steady fun _ hs => hs
  | some sold =>
    have paid : Converges rules (fun _ => modifyShop (Shop.addGold sold.level))
        (modifyShop (Shop.addGold sold.level)) := converges_steady fun _ hs => hs
    refine paid.bind fun _ => (converges_tell rules _).bind fun _ => ?_
    exact converges_const (keeps_pure _)

theorem converges_endTurn (rules : Rules) :
    Converges rules Resolve.endTurn (Resolve.endTurn (procedures rules)) := by
  have looked (trigger : Trigger) : Converges rules (fun _ => holds trigger) (holds trigger) :=
    converges_steady fun _ hs => hs
  refine (converges_tell rules _).bind fun _ => converges_forEach _ fun trigger => ?_
  refine (looked trigger).bind fun told => ?_
  cases told with
  | true => exact converges_tell rules _
  | false => exact converges_const (keeps_pure _)

theorem Call.converges (rules : Rules) (c : Call) :
    Converges rules (fun p => c.resolve rules p) (c.resolve rules (procedures rules)) := by
  have done {α : Type} (_ : α) : Converges rules (fun _ => pure ()) (pure ()) :=
    converges_const (keeps_pure _)
  cases c with
  | trigger told source => exact converges_triggerEvent rules told source
  | placePet pet index tierOne afterLoss =>
    exact (converges_placePet rules pet index tierOne afterLoss).bind done
  | feed food target => exact (converges_feed rules food target).bind done
  | sell index => exact (converges_sell rules index).bind done
  | endTurn => exact converges_endTurn rules

theorem at_of_reachable (h : Reachable rules team shop admitted p) : At 0 p.arena := by
  induction h with
  | new => rfl
  | call _ c _ ih =>
    rw [(call_eq rules _ c).2]
    exact (c.converges rules _ ih).1

end PurchasePhase

/-- The recursion ends within a number of levels that the limit on nesting, the effects of the
catalog and the causes of the event bound, whatever stands beyond. The loop over the queues empties
them or fails, and a battle is played to its end in one step more than rounds are allowed. So every
call of a battle and of a shop turn gives what it gives by the bodies of the procedures alone. -/
theorem every_call_returns (rules : Rules) :
    (∀ event s m beyond,
      levels event.causes rules.catalog.depth (rules.config.maxDispatchDepth - s.nesting) ≤ m →
        (Procedures.unfolded rules m beyond).tell event s =
          dispatchIn rules (rules.config.maxDispatchDepth - s.nesting) event s) ∧
    (∀ event actor effect s m beyond,
      levels event.causes rules.catalog.depth (rules.config.maxDispatchDepth - s.nesting) +
          event.causes * (rules.catalog.depth + 1) + effect.depth + 1 ≤ m →
        (Procedures.unfolded rules m beyond).act event actor effect s =
          perform rules (dispatchIn rules (rules.config.maxDispatchDepth - s.nesting)) event actor
            effect s) ∧
    (∀ s, Drains rules s (drainQueues rules s) ∧
      ∀ t, drainQueues rules s = (.ok (), t) → waiting t.queues = 0) ∧
    (∀ teams b, Battle.Reachable rules teams b → Eventually rules fun p =>
      b.startWith p = b.start rules ∧ b.stepWith rules p = b.step rules ∧
        b.finishWithin rules p (rules.config.maxRounds + 1) = some (b.finishFrom rules)) ∧
    (∀ team shop turn, PurchasePhase.Reachable rules team shop (fun _ => True) turn →
      ∀ call : PurchasePhase.Call, Eventually rules fun p =>
        (turn.call rules call).1 = (call.resolve rules p turn.arena).1 ∧
          (turn.call rules call).2.arena = (call.resolve rules p turn.arena).2) := by
  refine ⟨fun event s m beyond hm => ?_, fun event actor effect s m beyond hm => ?_, fun s => ?_,
    fun teams b hb => ?_, fun team shop turn hturn call => ?_⟩
  · have tells := tellsAs_dispatchIn rules event.causes (k := s.nesting) rfl
    exact ((tells m hm beyond event (Nat.le_succ _)).run rfl).1
  · have tells := tellsAs_dispatchIn rules event.causes (k := s.nesting) rfl
    exact ((tells.acts beyond event (Nat.le_succ _) actor effect m hm).run rfl).1
  · exact ⟨drains_drainQueues rules s, fun t ht => waiting_of_drainQueues ht⟩
  · have rests := Battle.at_of_reachable hb
    have starts := (Battle.converges_startWith rules rests).2
    have steps := (Battle.converges_stepWith rules rests).2
    have finishes := Battle.converges_finishWithin rules rests
    refine (starts.and (steps.and finishes)).mono fun p hp => ⟨hp.1, hp.2.1, hp.2.2 _ ?_⟩
    omega
  · have rests := PurchasePhase.at_of_reachable hturn
    obtain ⟨hresult, harena⟩ := PurchasePhase.call_eq rules turn call
    refine (call.converges rules turn.arena rests).2.mono fun p hp => ?_
    have same : call.resolve rules p turn.arena =
      call.resolve rules (procedures rules) turn.arena := hp
    rw [hresult, harena, same]
    exact ⟨rfl, rfl⟩

end AutoBattler
