import AutoBattler.Proofs.Parallel

/-!
# Calls side by side

The calls of a battle and of a shop turn under two configurations, from battles or phases that are
alike. Where the second configuration allows more rounds, the first may end a battle early.
-/
namespace AutoBattler

open Resolve

variable {p : Effect → Prop} {K : Likeness} {rules rules' : Rules} {α : Type}

/-! ## Battles -/

/-- The battles have come equally far, with arenas that the relation relates. -/
structure Battle.Related (R : Arena → Arena → Prop) (b b' : Battle) : Prop where
  arena : R b.arena b'.arena
  state : b.state = b'.state
  rounds : b.rounds = b'.rounds

structure Battle.Alike (K : Likeness) (b b' : Battle) : Prop where
  arena : b.arena.Alike K b'.arena
  state : b.state = b'.state
  rounds : b.rounds = b'.rounds

theorem Battle.related_alike_iff {b b' : Battle} :
    b.Related (Arena.Alike K) b' ↔ b.Alike K b' :=
  ⟨fun h => ⟨h.arena, h.state, h.rounds⟩, fun h => ⟨h.arena, h.state, h.rounds⟩⟩

/-- The reports of battles that are alike, with one outcome. -/
def BattleReport.Alike (K : Likeness) (r r' : BattleReport) : Prop :=
  ∃ outcome b b', Battle.Alike K b b' ∧ r = b.report outcome ∧ r' = b'.report outcome

/-- The battle was drawn for the number of its rounds, which the other rules would not have done. -/
structure Battle.Cut (rules rules' : Rules) (b : Battle) : Prop where
  undecided : decided? b.arena.board = none
  earlier : rules.config.maxRounds < rules'.config.maxRounds

/-- The relation holds also where the steps fail together. -/
def Resolve.Verdict.kept (R : Arena → Arena → Prop) (alone : EngineError → Prop) : Verdict :=
  ⟨fun _ => R, alone⟩

namespace Battle

variable {b b' : Battle} {m n : Resolve α} {q q' : Procedures}

/-! ### Battles by their opening and their cycle -/

def startBy (opens : Resolve Unit) (b : Battle) : Except EngineError Unit × Battle :=
  if b.state = .notStarted then
    match b.play opens with
    | (.ok (), b) => (.ok (), { b with state := .running })
    | (.error e, b) => (.error e, b)
  else (.ok (), b)

def advanceBy (rules : Rules) (cycle : Resolve Unit) (b : Battle) :
    Except EngineError BattleState × Battle :=
  match decided? b.arena.board with
  | some outcome => b.finish outcome
  | none =>
    if rules.config.maxRounds ≤ b.rounds then b.finish .draw
    else
      match play cycle { b with rounds := b.rounds + 1 } with
      | (.ok (), b) => (.ok b.state, b)
      | (.error e, b) => (.error e, b)

def stepBy (rules : Rules) (opens cycle : Resolve Unit) (b : Battle) :
    Except EngineError BattleState × Battle :=
  match b.state with
  | .finished outcome => (.ok (.finished outcome), b)
  | _ =>
    match b.startBy opens with
    | (.ok (), b) => b.advanceBy rules cycle
    | (.error e, b) => (.error e, b)

theorem stepWith_eq (rules : Rules) (p : Procedures) (b : Battle) :
    b.stepWith rules p = b.stepBy rules (opening p) (attackCycle rules p) := rfl

section

variable {alone : EngineError → Prop} {R : Arena → Arena → Prop} {opens opens' cycle cycle' : Resolve Unit}

theorem related_play (h : Keeps (.kept R alone) R m n) (hb : b.Related R b') :
    Concur alone Eq (Related R) (b.play m) (b'.play n) := by
  have ends := h.agree b.arena b'.arena hb.arena
  unfold play
  generalize m b.arena = r at ends
  generalize n b'.arena = r' at ends
  cases ends with
  | ok hst => exact .ok rfl { hb with arena := hst }
  | error hst => exact .error { hb with arena := hst }
  | alone he => exact .alone he

theorem related_startBy (h : Keeps (.kept R alone) R opens opens') (hb : b.Related R b') :
    Concur alone Eq (Related R) (b.startBy opens) (b'.startBy opens') := by
  have ends := related_play h hb
  unfold startBy
  rw [← hb.state]
  generalize b.play opens = r at ends
  generalize b'.play opens' = r' at ends
  split
  · cases ends with
    | ok _ hp => exact .ok rfl { hp with state := rfl }
    | error hp => exact .error hp
    | alone he => exact .alone he
  · exact .ok rfl hb

theorem related_finish (outcome : BattleOutcome) (hb : b.Related R b') :
    Concur alone Eq (Related R) (b.finish outcome) (b'.finish outcome) :=
  .ok rfl { hb with state := rfl }

theorem related_advanceBy (hR : ∀ s t, R s t → s.board = t.board)
    (h : Keeps (.kept R alone) R cycle cycle')
    (hr : rules.config.maxRounds ≤ rules'.config.maxRounds) (hb : b.Related R b') :
    Concur alone Eq (Related R) (b.advanceBy rules cycle) (b'.advanceBy rules' cycle') ∨
      ∃ b₁, b.advanceBy rules cycle = (.ok (.finished .draw), b₁) ∧ b₁.Cut rules rules' := by
  unfold advanceBy
  rw [← hR _ _ hb.arena, ← hb.rounds]
  cases hd : decided? b.arena.board with
  | some outcome => exact .inl (related_finish outcome hb)
  | none =>
    by_cases hlast : rules.config.maxRounds ≤ b.rounds
    · dsimp only
      rw [if_pos hlast]
      by_cases hlast' : rules'.config.maxRounds ≤ b.rounds
      · rw [if_pos hlast']
        exact .inl (related_finish .draw hb)
      · exact .inr ⟨_, rfl, hd, by omega⟩
    · dsimp only
      rw [if_neg hlast, if_neg (by omega)]
      have further : Related R { b with rounds := b.rounds + 1 } { b' with rounds := b.rounds + 1 } :=
        { hb with rounds := rfl }
      have ends := related_play h further
      generalize play cycle _ = r at ends
      generalize play cycle' _ = r' at ends
      left
      cases ends with
      | ok _ hp => exact .ok hp.state hp
      | error hp => exact .error hp
      | alone he => exact .alone he

/-- One step of both battles, unless the first is cut short by it. -/
theorem related_stepBy (hR : ∀ s t, R s t → s.board = t.board)
    (ho : Keeps (.kept R alone) R opens opens') (hc : Keeps (.kept R alone) R cycle cycle')
    (hr : rules.config.maxRounds ≤ rules'.config.maxRounds) (hb : b.Related R b') :
    Concur alone Eq (Related R) (b.stepBy rules opens cycle) (b'.stepBy rules' opens' cycle') ∨
      ∃ b₁, b.stepBy rules opens cycle = (.ok (.finished .draw), b₁) ∧ b₁.Cut rules rules' := by
  have started := related_startBy ho hb
  unfold stepBy
  rw [← hb.state]
  split
  · exact .inl (.ok rfl hb)
  · generalize b.startBy opens = r at started
    generalize b'.startBy opens' = r' at started
    cases started with
    | ok _ hp => exact related_advanceBy hR hc hr hp
    | error hp => exact .inl (.error hp)
    | alone he => exact .inl (.alone he)

end

/-! ### Battles that are alike -/

theorem concur_startWith (h : Matches K (opening q) (opening q')) (hb : b.Alike K b') :
    Concur K.alone Eq (Alike K) (b.startWith q) (b'.startWith q') :=
  (related_startBy h (related_alike_iff.2 hb)).imp fun _ _ => related_alike_iff.1

theorem concur_stepWith (ho : Matches K (opening q) (opening q'))
    (hc : Matches K (attackCycle rules q) (attackCycle rules' q'))
    (hr : rules.config.maxRounds ≤ rules'.config.maxRounds) (hb : b.Alike K b') :
    Concur K.alone Eq (Alike K) (b.stepWith rules q) (b'.stepWith rules' q') ∨
      ∃ b₁, b.stepWith rules q = (.ok (.finished .draw), b₁) ∧ b₁.Cut rules rules' := by
  rw [stepWith_eq, stepWith_eq]
  refine (related_stepBy (fun _ _ hst => hst.board) ho hc hr (related_alike_iff.2 hb)).imp_left ?_
  exact fun ends => ends.imp fun _ _ => related_alike_iff.1

theorem concur_step (h : Parallel p K rules rules')
    (hr : rules.config.maxRounds ≤ rules'.config.maxRounds) (hb : b.Alike K b') :
    Concur K.alone Eq (Alike K) (b.step rules) (b'.step rules') ∨
      ∃ b₁, b.step rules = (.ok (.finished .draw), b₁) ∧ b₁.Cut rules rules' :=
  concur_stepWith h.opening h.attackCycle hr hb

theorem step_of_undrawn (h : Parallel p K rules rules')
    (hr : rules.config.maxRounds ≤ rules'.config.maxRounds) (hb : b.Alike K b') {b₁ : Battle}
    {state : BattleState} (hs : b.step rules = (.ok state, b₁)) (hu : state ≠ .finished .draw) :
    ∃ b₁', b'.step rules' = (.ok state, b₁') ∧ b₁.Alike K b₁' := by
  have ends := concur_step h hr hb
  rw [hs] at ends
  rcases ends with ends | ⟨_, hcut, _⟩
  · exact ends.of_ok
  · cases hcut
    exact absurd rfl hu

/-- Both battles to their ends, unless the first is cut short. -/
theorem concur_finishFrom (h : Parallel p K rules rules')
    (hr : rules.config.maxRounds ≤ rules'.config.maxRounds) (hb : b.Alike K b') :
    Concur K.alone (BattleReport.Alike K) (Alike K) (b.finishFrom rules) (b'.finishFrom rules') ∨
      ∃ b₁, b.finishFrom rules = (.ok (b₁.report .draw), b₁) ∧ b₁.Cut rules rules' := by
  fun_induction finishFrom rules b generalizing b' with
  | case1 b e b₁ hs =>
    have ends := concur_step h hr hb
    rw [hs] at ends
    rcases ends with ends | ⟨_, hcut, _⟩
    · generalize hs' : b'.step rules' = r at ends
      cases ends with
      | error hp =>
        rw [finishFrom_of_error hs']
        exact .inl (.error hp)
      | alone he => exact .inl (.alone he)
    · cases hcut
  | case2 b outcome b₁ hs =>
    have ends := concur_step h hr hb
    rw [hs] at ends
    rcases ends with ends | ⟨_, hcut, he⟩
    · obtain ⟨b₁', hs', hp⟩ := ends.of_ok
      rw [finishFrom_of_finished hs']
      exact .inl (.ok ⟨outcome, _, _, hp, rfl, rfl⟩ hp)
    · cases hcut
      exact .inr ⟨_, rfl, he⟩
  | case3 b b₁ hs ih =>
    obtain ⟨b₁', hs', hp⟩ := step_of_undrawn h hr hb hs (by decide)
    rw [finishFrom_of_unfinished hs' (.inl rfl)]
    exact ih hp
  | case4 b b₁ hs ih =>
    obtain ⟨b₁', hs', hp⟩ := step_of_undrawn h hr hb hs (by decide)
    rw [finishFrom_of_unfinished hs' (.inr rfl)]
    exact ih hp

/-! ## Calls one after the other -/

inductive Call where
  | start
  | step

def callWith (rules : Rules) (p : Procedures) (b : Battle) : Call → Except EngineError Unit × Battle
  | .start => b.startWith p
  | .step => ((b.stepWith rules p).1.map fun _ => (), (b.stepWith rules p).2)

def callBy (rules : Rules) (opens cycle : Resolve Unit) (b : Battle) :
    Call → Except EngineError Unit × Battle
  | .start => b.startBy opens
  | .step => ((b.stepBy rules opens cycle).1.map fun _ => (), (b.stepBy rules opens cycle).2)

theorem callWith_eq (rules : Rules) (p : Procedures) (b : Battle) (c : Call) :
    b.callWith rules p c = b.callBy rules (opening p) (attackCycle rules p) c := by
  cases c <;> rfl

/-- Calls made one after the other until one of them fails. -/
def callsWith (rules : Rules) (p : Procedures) (b : Battle) :
    List Call → Except EngineError Unit × Battle
  | [] => (.ok (), b)
  | c :: rest =>
    match b.callWith rules p c with
    | (.ok (), b') => b'.callsWith rules p rest
    | (.error e, b') => (.error e, b')

/-- The replies to calls made one after the other, whatever they give, and the battle after them. -/
def replies (call : Battle → Call → Except EngineError Unit × Battle) (b : Battle) :
    List Call → List (Except EngineError Unit) × Battle
  | [] => ([], b)
  | c :: rest =>
    ((call b c).1 :: ((call b c).2.replies call rest).1, ((call b c).2.replies call rest).2)

section

variable {alone : EngineError → Prop} {R : Arena → Arena → Prop} {opens opens' cycle cycle' : Resolve Unit}

theorem related_callBy (hR : ∀ s t, R s t → s.board = t.board)
    (ho : Keeps (.kept R alone) R opens opens') (hc : Keeps (.kept R alone) R cycle cycle')
    (c : Call) (hb : b.Related R b') :
    Concur alone Eq (Related R) (b.callBy rules opens cycle c) (b'.callBy rules opens' cycle' c) := by
  cases c with
  | start => exact related_startBy ho hb
  | step =>
    rcases related_stepBy hR ho hc (Nat.le_refl _) hb with ends | ⟨_, _, cut⟩
    · exact ends.map _
    · exact absurd cut.earlier (Nat.lt_irrefl _)

/-- If no call fails alone, all replies are the same. -/
theorem related_replies {call call' : Battle → Call → Except EngineError Unit × Battle}
    (h : ∀ c b b', b.Related R b' → Concur alone Eq (Related R) (call b c) (call' b' c))
    (ha : ∀ e, ¬ alone e) (calls : List Call) (hb : b.Related R b') :
    (b.replies call calls).1 = (b'.replies call' calls).1 ∧
      (b.replies call calls).2.Related R (b'.replies call' calls).2 := by
  induction calls generalizing b b' with
  | nil => exact ⟨rfl, hb⟩
  | cons c rest ih =>
    obtain ⟨hreply, hnext⟩ := (h c b b' hb).together ha
    obtain ⟨hrest, hlast⟩ := ih hnext
    exact ⟨congrArg₂ List.cons hreply hrest, hlast⟩

end

theorem concur_callWith (ho : Matches K (opening q) (opening q'))
    (hc : Matches K (attackCycle rules q) (attackCycle rules q')) (c : Call) (hb : b.Alike K b') :
    Concur K.alone Eq (Alike K) (b.callWith rules q c) (b'.callWith rules q' c) := by
  rw [callWith_eq, callWith_eq]
  refine (related_callBy (fun _ _ hst => hst.board) ho hc c (related_alike_iff.2 hb)).imp ?_
  exact fun _ _ => related_alike_iff.1

theorem concur_callsWith (ho : Matches K (opening q) (opening q'))
    (hc : Matches K (attackCycle rules q) (attackCycle rules q')) (calls : List Call)
    (hb : b.Alike K b') :
    Concur K.alone Eq (Alike K) (b.callsWith rules q calls) (b'.callsWith rules q' calls) := by
  induction calls generalizing b b' with
  | nil => exact .ok rfl hb
  | cons c rest ih =>
    have ends := concur_callWith ho hc c hb
    unfold callsWith
    generalize b.callWith rules q c = r at ends
    generalize b'.callWith rules q' c = r' at ends
    cases ends with
    | ok _ h => exact ih h
    | error h => exact .error h
    | alone he => exact .alone he

end Battle

/-! ## Shop turns -/

structure PurchasePhase.Alike (K : Likeness) (p p' : PurchasePhase) : Prop where
  arena : p.arena.Alike K p'.arena
  team : p.team = p'.team

/-- The turns run side by side. -/
theorem Parallel.beside (h : Parallel p K rules rules') :
    PurchasePhase.Beside rules rules' (fun _ => True) (.alike K) (Arena.Alike K) (procedures rules)
      (procedures rules') where
  catalog := h.catalog
  boards _ _ hst := hst.board
  shops _ _ hst := hst.shop
  failed _ _ _ hst := hst
  tell event _ _ _ := h.dispatch event
  act event _ _ ability ha := h.perform event none (h.every ability ha)
  remove := h.boardSteps.remove
  pay f := ⟨fun _ _ hst => .ok { hst with shop := congrArg (Option.map f) hst.shop }⟩

namespace PurchasePhase

variable {q q' : PurchasePhase} {m n : Resolve α} {β : Type}

theorem concur_play (h : Matches K m n) (hq : q.Alike K q') :
    Concur K.alone Eq (Alike K) (q.play m) (q'.play n) := by
  have ends := h.concur hq.arena
  unfold play
  generalize m q.arena = r at ends
  generalize n q'.arena = r' at ends
  cases ends with
  | ok hv hst => exact .ok hv ⟨hst, by rw [hq.team, hst.board]⟩
  | error hst => exact .error { hq with arena := hst }
  | alone he => exact .alone he

section

variable {T : Trigger → Prop}

theorem concur_placePet
    (h : Beside rules rules' T (.alike K) (Arena.Alike K) (procedures rules) (procedures rules'))
    (hq : q.Alike K q') {pet : Pet} (index : Option Nat) {tierOne afterLoss : Bool}
    (hT : ∀ trigger ∈ purchaseTriggers tierOne afterLoss, T trigger)
    (hs : ∀ placement, Matches K (spawn .a pet placement) (spawn .a pet placement)) :
    Concur K.alone Eq (Alike K) (q.placePet rules pet index tierOne afterLoss)
      (q'.placePet rules' pet index tierOne afterLoss) := by
  unfold placePet
  rw [← hq.arena.board]
  split
  · exact concur_play (h.placePet hs index hT) hq
  · exact .ok rfl hq

theorem concur_reply
    (h : Beside rules rules' T (.alike K) (Arena.Alike K) (procedures rules) (procedures rules'))
    (hq : q.Alike K q') (c : Call) (hT : ∀ trigger, c.Tells trigger → T trigger)
    (hs : c.Brings fun pet => ∀ placement,
      Matches K (spawn .a pet placement) (spawn .a pet placement)) :
    Concur K.alone Eq (Alike K) (q.reply rules c) (q'.reply rules' c) := by
  cases c with
  | trigger told source => exact (concur_play (h.triggerEvent (hT told rfl) source) hq).map _
  | placePet pet index tierOne afterLoss => exact (concur_placePet h hq index hT hs).map _
  | feed food target => exact (concur_play (h.feed (hT _ rfl) food target) hq).map _
  | sell index => exact (concur_play (h.sell (hT _ rfl) index) hq).map _
  | endTurn =>
    exact (concur_play (h.endTurn (hT _ (.inl rfl)) fun trigger ht => hT trigger (.inr ht)) hq).map _

/-- If no resolution fails alone, all replies are the same. -/
theorem concur_replies
    (h : Beside rules rules' T (.alike K) (Arena.Alike K) (procedures rules) (procedures rules'))
    (hK : ∀ e, ¬ K.alone e) (calls : List Call) (hT : ∀ c ∈ calls, ∀ trigger, c.Tells trigger → T trigger)
    (hs : ∀ pet placement, Matches K (spawn .a pet placement) (spawn .a pet placement))
    (hq : q.Alike K q') :
    (q.replies rules calls).1 = (q'.replies rules' calls).1 ∧
      (q.replies rules calls).2.Alike K (q'.replies rules' calls).2 := by
  induction calls generalizing q q' with
  | nil => exact ⟨rfl, hq⟩
  | cons c rest ih =>
    have brings : c.Brings fun pet => ∀ placement,
        Matches K (spawn .a pet placement) (spawn .a pet placement) := by
      cases c with
      | placePet pet index tierOne afterLoss => exact hs pet
      | _ => trivial
    have same := (concur_reply h hq c (hT c List.mem_cons_self) brings).together hK
    obtain ⟨hrest, hlast⟩ := ih (fun c hc => hT c (List.mem_cons_of_mem _ hc)) same.2
    exact ⟨congrArg₂ List.cons same.1 hrest, hlast⟩

end

theorem replies_alike (h : Parallel p K rules rules') (hK : ∀ e, ¬ K.alone e) (calls : List Call)
    {q q' : PurchasePhase} (hq : q.Alike K q') :
    (q.replies rules calls).1 = (q'.replies rules' calls).1 ∧
      (q.replies rules calls).2.Alike K (q'.replies rules' calls).2 :=
  concur_replies h.beside hK calls (fun _ _ _ _ => trivial)
    (fun _ _ => Arena.Alike.spawn fun _ _ b _ _ => h.holds b) hq

end PurchasePhase

end AutoBattler
