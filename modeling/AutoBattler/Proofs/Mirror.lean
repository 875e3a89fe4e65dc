import AutoBattler.Proofs.Battles
import AutoBattler.Proofs.Capacity
import AutoBattler.Proofs.Exchange

/-!
# Battles with the sides exchanged

Side `a` is told first, hits first and is followed up first. Where only statuses act, and they
change damage and nothing else, none of this decides anything: two teams that change sides fight
the same battle.
-/
namespace AutoBattler

open Resolve

def Sides.swap {α : Type} (p : Sides α) : Sides α := ⟨p.b, p.a⟩

def BattleOutcome.mirrored : BattleOutcome → BattleOutcome
  | teamOneWins => teamTwoWins
  | teamTwoWins => teamOneWins
  | draw => draw

def BattleState.mirrored : BattleState → BattleState
  | finished outcome => finished outcome.mirrored
  | state => state

/-- The same battle with the sides exchanged, but for the events. -/
structure BattleReport.Mirrors (r r' : BattleReport) : Prop where
  outcome : r'.outcome = r.outcome.mirrored
  rounds : r'.rounds = r.rounds
  survivors : r'.survivors = r.survivors.swap

namespace Battle

variable {rules : Rules} {teams : Sides Team} {x y : Battle} {α β : Type}
  {own enemies own' enemies' : List Pet}

/-- The lines of side `a` and of side `b`, from the front to the back. -/
def Lines (c : Catalog) (b : Board) (own enemies : List Pet) : Prop :=
  ∃ ids ids', Facing c b .a ids own ids' enemies

/-- The second battle is the first with the sides exchanged. -/
structure Mirrors (rules : Rules) (x y : Battle) : Prop where
  state : y.state = x.state.mirrored
  rounds : y.rounds = x.rounds
  spent : y.arena.dispatched = x.arena.dispatched
  ready : Ready rules x.arena
  ready' : Ready rules y.arena
  lines : ∃ own enemies, Lines rules.catalog x.arena.board own enemies ∧
    Lines rules.catalog y.arena.board enemies own

/-- Two calls fail with the same error, or they give related values and mirrored battles. -/
inductive Together (rules : Rules) (V : α → β → Prop) :
    Except EngineError α × Battle → Except EngineError β × Battle → Prop
  | ok {v : α} {w : β} {x y : Battle} (hv : V v w) (h : Mirrors rules x y) :
    Together rules V (.ok v, x) (.ok w, y)
  | error (e : EngineError) (x y : Battle) : Together rules V (.error e, x) (.error e, y)

/-! ## Boards -/

theorem Lines.isEmpty {c : Catalog} {b : Board} (h : Lines c b own enemies) :
    (b.roster .a).isEmpty = own.isEmpty ∧ (b.roster .b).isEmpty = enemies.isEmpty := by
  obtain ⟨ids, ids', h⟩ := h
  exact ⟨h.own.isEmpty, h.enemies.isEmpty⟩

theorem Lines.decided? {c : Catalog} {b b' : Board} (h : Lines c b own enemies)
    (h' : Lines c b' enemies own) :
    Battle.decided? b' = (Battle.decided? b).map BattleOutcome.mirrored := by
  unfold Battle.decided?
  rw [h.isEmpty.1, h.isEmpty.2, h'.isEmpty.1, h'.isEmpty.2]
  cases own <;> cases enemies <;> rfl

/-- In a battle that goes on there is a pet in front on both sides. -/
theorem Lines.undecided {c : Catalog} {b : Board} (h : Lines c b own enemies)
    (hd : Battle.decided? b = none) : own ≠ [] ∧ enemies ≠ [] := by
  unfold Battle.decided? at hd
  rw [h.isEmpty.1, h.isEmpty.2] at hd
  constructor
  · rintro rfl
    cases enemies <;> cases hd
  · rintro rfl
    cases own <;> cases hd

theorem Lines.survivors {c : Catalog} {b b' : Board} (h : Lines c b own enemies)
    (h' : Lines c b' enemies own) :
    Sides.tabulate b'.livePets = (Sides.tabulate b.livePets).swap := by
  obtain ⟨ids, ids', h⟩ := h
  obtain ⟨jds, jds', h'⟩ := h'
  unfold Sides.tabulate Sides.swap
  rw [h.own.livePets, h'.own.livePets, (show b.livePets .b = _ from h.enemies.livePets),
    (show b'.livePets .b = _ from h'.enemies.livePets)]

theorem lines_ofTeams (teams : Sides Team)
    (h : ∀ side, ∀ pet ∈ (teams.get side).pets, pet.Defined rules.catalog) :
    Lines rules.catalog (Board.ofTeams teams)
      (Board.welcomed 0 (teams.a.pets.map Pet.battleCopy)).reverse
      (Board.welcomed 0 (teams.b.pets.map Pet.battleCopy)).reverse := by
  have own := (Board.wellFormed_ofTeams teams).fields .a
  have enemies := (Board.wellFormed_ofTeams teams).fields .b
  rw [Board.livePets_ofTeams] at own enemies
  exact ⟨_, _, own, enemies, defined_ofTeams h⟩

/-! ## Calls -/

section

variable (hq : rules.catalog.IsQuiet) (hroom : 0 < rules.config.maxDispatchDepth)
include hq hroom

theorem costs_opening {b : Board} (h : Lines rules.catalog b own enemies) :
    Costs rules 2 b (opening (procedures rules)) fun _ b' =>
      Lines rules.catalog b' (hearingLine rules.catalog .startOfBattle 2 own)
        (hearingLine rules.catalog .startOfBattle 2 enemies) := by
  obtain ⟨ids, ids', h⟩ := h
  have told : Costs rules (1 + 1) b
      (forEach Side.all fun side => dispatch rules (.battle .startOfBattle side)) _ :=
    costs_forEach_pair (h.costs_unsourced hq hroom rfl rfl rfl) fun b₁ h₁ =>
      h₁.symm.costs_unsourced (e := .battle .startOfBattle .b) hq hroom rfl rfl rfl
  exact told.bind fun _ b₂ h₂ => costs_drainQueues.weaken fun _ b₃ hb => by
    subst hb
    exact ⟨ids, ids', h₂.of_symm⟩

theorem costs_cycle {b : Board} (h : Lines rules.catalog b own enemies)
    (hd : Battle.decided? b = none) :
    Costs rules (clashEvents rules.catalog own enemies + clashEvents rules.catalog enemies own) b
      (attackCycle rules (procedures rules)) fun _ b' =>
        Lines rules.catalog b' (clash rules.catalog own enemies)
          (clash rules.catalog enemies own) := by
  obtain ⟨hown, henemies⟩ := h.undecided hd
  obtain ⟨P, own, rfl⟩ := List.exists_cons_of_ne_nil hown
  obtain ⟨E, enemies, rfl⟩ := List.exists_cons_of_ne_nil henemies
  obtain ⟨ids, ids', h⟩ := h
  obtain ⟨p, ids, rfl⟩ := List.exists_cons_of_length_eq_add_one h.own.length
  obtain ⟨q, ids', rfl⟩ := List.exists_cons_of_length_eq_add_one h.enemies.length
  exact h.costs_attackCycle hq hroom

end

/-- A step that both sides of the comparison pay the same for is played together. -/
theorem Mirrors.play {k : Nat} {m m' : Resolve Unit} (h : Mirrors rules x y)
    (hm : Costs rules k x.arena.board m fun _ b => Lines rules.catalog b own enemies)
    (hm' : Costs rules k y.arena.board m' fun _ b => Lines rules.catalog b enemies own) :
    Together rules (fun _ _ => True) (x.play m) (y.play m') := by
  unfold Battle.play
  rcases hm.together hm' rfl rfl h.ready h.ready' h.spent with
    ⟨e, t, t', hx, hy⟩ | ⟨_, t, _, t', hx, hy, hl, hl', ready, ready', spent⟩
  · rw [hx, hy]
    exact .error e _ _
  · rw [hx, hy]
    exact .ok trivial ⟨h.state, h.rounds, spent, ready, ready', own, enemies, hl, hl'⟩

section

variable (hq : rules.catalog.IsQuiet) (hroom : 0 < rules.config.maxDispatchDepth)
include hq hroom

theorem Mirrors.start (h : Mirrors rules x y) :
    Together rules (fun _ _ => True) (x.start rules) (y.start rules) := by
  obtain ⟨own, enemies, hx, hy⟩ := h.lines
  have started : y.state = .notStarted ↔ x.state = .notStarted := by
    rw [h.state]
    cases x.state <;> simp [BattleState.mirrored]
  unfold Battle.start Battle.startWith
  by_cases hs : x.state = .notStarted
  · rw [if_pos hs, if_pos (started.2 hs)]
    have played := h.play (costs_opening hq hroom hx) (costs_opening hq hroom hy)
    generalize x.play _ = r at played
    generalize y.play _ = r' at played
    cases played with
    | error e => exact .error e _ _
    | ok _ h => exact .ok trivial { h with state := rfl }
  · rw [if_neg hs, if_neg (started.not.2 hs)]
    exact .ok trivial h

theorem Mirrors.advance (h : Mirrors rules x y) :
    Together rules (fun s s' => s' = BattleState.mirrored s)
      (x.advanceWith rules (procedures rules)) (y.advanceWith rules (procedures rules)) := by
  obtain ⟨own, enemies, hx, hy⟩ := h.lines
  unfold Battle.advanceWith
  rw [hx.decided? hy]
  cases hd : Battle.decided? x.arena.board with
  | some outcome => exact .ok rfl { h with state := rfl }
  | none =>
    dsimp only [Option.map_none]
    rw [h.rounds]
    split
    · exact .ok rfl { h with state := rfl }
    · have hd' : Battle.decided? y.arena.board = none := by rw [hx.decided? hy, hd]; rfl
      have counted :
          Mirrors rules { x with rounds := x.rounds + 1 } { y with rounds := x.rounds + 1 } :=
        { h with rounds := rfl }
      have played := counted.play (costs_cycle hq hroom hx hd)
        ((costs_cycle hq hroom hy hd').count (Nat.add_comm _ _))
      generalize Battle.play _ _ = r at played
      generalize Battle.play _ _ = r' at played
      cases played with
      | error e => exact .error e _ _
      | ok _ h => exact .ok h.state h

theorem Mirrors.step (h : Mirrors rules x y) :
    Together rules (fun s s' => s' = BattleState.mirrored s) (x.step rules) (y.step rules) := by
  have hs := h.state
  have started := h.start hq hroom
  unfold Battle.start at started
  unfold Battle.step Battle.stepWith
  generalize x.startWith _ = r at started
  generalize y.startWith _ = r' at started
  cases hx : x.state with
  | finished outcome =>
    rw [hs, hx]
    exact .ok rfl h
  | notStarted | running =>
    rw [hs, hx]
    dsimp only [BattleState.mirrored]
    cases started with
    | error e => exact .error e _ _
    | ok _ h => exact h.advance hq hroom

theorem Mirrors.finishFrom (h : Mirrors rules x y) :
    (∃ e, (x.finishFrom rules).1 = .error e ∧ (y.finishFrom rules).1 = .error e) ∨
    ∃ r r', (x.finishFrom rules).1 = .ok r ∧ (y.finishFrom rules).1 = .ok r' ∧ r.Mirrors r' := by
  fun_induction Battle.finishFrom rules x generalizing y with
  | case1 x e x₁ hs =>
    have stepped := h.step hq hroom
    rw [hs] at stepped
    generalize hy : y.step rules = r' at stepped
    cases stepped with
    | error _ _ y₁ => exact .inl ⟨e, rfl, by rw [finishFrom_of_error hy]⟩
  | case2 x outcome x₁ hs =>
    have stepped := h.step hq hroom
    rw [hs] at stepped
    generalize hy : y.step rules = r' at stepped
    cases stepped with
    | ok hv h₁ =>
      subst hv
      obtain ⟨own, enemies, hx, hy'⟩ := h₁.lines
      refine .inr ⟨_, _, rfl, by rw [finishFrom_of_finished hy], rfl, h₁.rounds, ?_⟩
      exact hx.survivors hy'
  | case3 x x₁ hs ih | case4 x x₁ hs ih =>
    have stepped := h.step hq hroom
    rw [hs] at stepped
    generalize hy : y.step rules = r' at stepped
    cases stepped with
    | ok hv h₁ =>
      subst hv
      rw [finishFrom_of_unfinished hy (by simp [BattleState.mirrored])]
      exact ih h₁

end

/-! ## Battles of two teams -/

theorem mirrors_ofTeams (h : ∀ side, ∀ pet ∈ (teams.get side).pets, pet.Defined rules.catalog) :
    Mirrors rules (ofTeams rules.config teams) (ofTeams rules.config teams.swap) where
  state := rfl
  rounds := rfl
  spent := rfl
  ready := ⟨rfl, Nat.zero_le _⟩
  ready' := ⟨rfl, Nat.zero_le _⟩
  lines := by
    refine ⟨_, _, lines_ofTeams teams h, lines_ofTeams teams.swap fun side => ?_⟩
    cases side
    · exact h .b
    · exact h .a

/-- Without room for a level of nesting a battle fails as it starts. -/
theorem fight_of_no_room (h : rules.config.maxDispatchDepth = 0) (teams : Sides Team) :
    fight rules teams = .error (.dispatchDepthExceeded .startOfBattle 0) := by
  have failed : (ofTeams rules.config teams).step rules =
      (.error (.dispatchDepthExceeded .startOfBattle 0), ofTeams rules.config teams) := by
    have told := dispatch_of_no_room h (.battle .startOfBattle .a)
      (ofTeams rules.config teams).arena
    have opened : opening (procedures rules) (ofTeams rules.config teams).arena =
        (.error (.dispatchDepthExceeded .startOfBattle 0), (ofTeams rules.config teams).arena) := by
      show ((dispatch rules (.battle .startOfBattle .a) >>= fun _ => _) >>= fun _ => _) _ = _
      rw [bind_run, bind_run, told]
      rfl
    unfold step stepWith startWith play
    rw [opened]
    rfl
  unfold fight run
  rw [finishFrom_of_error failed]

/-- Where no kind has an ability and statuses only change damage, two teams of defined pets fight
the same battle whichever of them is on which side: both ways it fails with the same error, or it
takes as many rounds, is won by the same team and leaves the same survivors. -/
theorem swapped_teams_mirror_the_battle (hq : rules.catalog.IsQuiet)
    (ht : ∀ side, ∀ pet ∈ (teams.get side).pets, pet.Defined rules.catalog) :
    (∃ e, fight rules teams = .error e ∧ fight rules teams.swap = .error e) ∨
    ∃ r r', fight rules teams = .ok r ∧ fight rules teams.swap = .ok r' ∧ r.Mirrors r' := by
  by_cases hroom : 0 < rules.config.maxDispatchDepth
  · exact (mirrors_ofTeams ht).finishFrom hq hroom
  · have none : rules.config.maxDispatchDepth = 0 := by omega
    exact .inl ⟨_, fight_of_no_room none teams, fight_of_no_room none teams.swap⟩

/-- Twenty points more for the first hit. -/
def steak : StatusKind :=
  ⟨⟨"status-steak-attack"⟩, "status-steak-attack",
    ⟨"", .whenAttacking, .self, .modifyDamage (some 20) true, none⟩⟩

/-- Twenty points less from the first hit. -/
def melon : StatusKind :=
  ⟨⟨"status-melon-armor"⟩, "status-melon-armor",
    ⟨"", .whenDamaged, .self, .modifyDamage (some 20) true, none⟩⟩

def larderRules : Rules := ⟨.ofLists [ant] [steak, melon] [], {}⟩

/-- Three ants with a steak in front of them, and one ant with a melon. -/
def larderTeams : Sides Team where
  a := .ofPets [.ofKind ant, .ofKind ant, (Pet.ofKind ant).setStatus (some steak.id)]
  b := .ofPets [(Pet.ofKind ant).setStatus (some melon.id)]

theorem isQuiet_larder : larderRules.catalog.IsQuiet := by
  apply Catalog.isQuiet_ofLists
  · intro kind hm
    rw [List.mem_singleton.1 hm]
    rfl
  · intro status hm
    simp only [List.mem_cons, List.not_mem_nil, or_false] at hm
    rcases hm with rfl | rfl
    · exact ⟨_, _, rfl⟩
    · exact ⟨_, _, rfl⟩

theorem defined_larderTeams (side : Side) :
    ∀ pet ∈ (larderTeams.get side).pets, pet.Defined larderRules.catalog := by
  have plain : ∀ pet ∈ (larderTeams.get side).pets, pet.kind = ant.id ∧ pet.borrowed = none ∧
      (pet.status = none ∨ pet.status = some steak.id ∨ pet.status = some melon.id) := by
    cases side <;> decide
  have listed : ant.id ∈ larderRules.catalog.pets ∧ steak.id ∈ larderRules.catalog.statuses ∧
      melon.id ∈ larderRules.catalog.statuses := by
    decide +kernel
  intro pet hm
  obtain ⟨hkind, hborrowed, hstatus⟩ := plain pet hm
  refine ⟨hkind ▸ listed.1, fun b hb => ?_, fun id hs => ?_⟩
  · rw [hborrowed] at hb
    cases hb
  · rcases hstatus with hn | hn | hn <;> rw [hn] at hs <;> cases hs
    · exact listed.2.1
    · exact listed.2.2

/-- With the steak and the melon the foremost ants make each other faint, and the first team wins
by the two that are left. With the sides exchanged it is the second team that wins. -/
theorem swapped_teams_mirror_the_battle_larder :
    larderRules.catalog.IsQuiet ∧
    (∀ side, ∀ pet ∈ (larderTeams.get side).pets, pet.Defined larderRules.catalog) ∧
    ∃ r, fight larderRules larderTeams.swap = .ok r ∧ r.outcome = .teamTwoWins ∧ r.rounds = 1 ∧
      r.survivors = ⟨[], [.ofKind ant, .ofKind ant]⟩ := by
  have fought : (fight larderRules larderTeams).map (fun r => (r.outcome, r.rounds, r.survivors)) =
      .ok (.teamOneWins, 1, ⟨[.ofKind ant, .ofKind ant], []⟩) := by
    decide +kernel
  refine ⟨isQuiet_larder, defined_larderTeams, ?_⟩
  rcases swapped_teams_mirror_the_battle isQuiet_larder defined_larderTeams with
    ⟨e, he, _⟩ | ⟨r, r', hr, hr', outcome, rounds, survivors⟩
  · rw [he] at fought
    cases fought
  · rw [hr] at fought
    obtain ⟨houtcome, hfought⟩ := Prod.mk.inj (Except.ok.inj fought)
    obtain ⟨hrounds, hsurvivors⟩ := Prod.mk.inj hfought
    rw [houtcome] at outcome
    rw [hrounds] at rounds
    rw [hsurvivors] at survivors
    exact ⟨r', hr', outcome, rounds, survivors⟩

end Battle

end AutoBattler
