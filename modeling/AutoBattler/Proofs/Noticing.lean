import AutoBattler.Proofs.Holding
import AutoBattler.Proofs.Indexing

/-!
# Undefined names in battle

Which battles fail because a name that a foremost pet bears is not defined. A status is looked up
whenever the pet is hit or hits another one face to face, so it is noticed in the first exchange
unless an effect averts that. A kind is looked up only when the pet may answer an event, and a pet
of an undefined kind may do so for its status alone.
-/
namespace AutoBattler

open Resolve

theorem Side.eq_opponent_of_ne {s side : Side} (h : s ≠ side) : s = side.opponent := by
  cases s <;> cases side <;> trivial

namespace Foremost

variable {P : Foremost} {hit : PetId → Prop} {s : Arena} {rules : Rules} {raise : Raise} {id : PetId}
  {attacks : List Attack} {lines : Sides (List PetId)}

/-! ## Damage -/

/-- The status that the pet is to bear has no ability. -/
def Stateless (P : Foremost) (c : Catalog) : Prop :=
  ∀ pet status, P.bears pet.status pet.abilityKind → c.statusAbility pet ≠ .ok status

theorem fails_damageModifier (h : P.Stateless rules.catalog) (trigger : Trigger) :
    P.Fails hit (damageModifier rules P.pet trigger) := by
  have found : Yields (.same anyway) (Same (P.Held hit))
      (fun found => ∃ pet, found = some pet ∧ P.bears pet.status pet.abilityKind)
      (Resolve.pet? P.pet) (Resolve.pet? P.pet) := by
    apply couples_look
    rintro s _ ⟨rfl, hs⟩
    exact ⟨rfl, hs.names, rfl, hs⟩
  refine Yields.bind found fun found hfound => ?_
  obtain ⟨pet, rfl, hbears⟩ := hfound
  dsimp only
  exact Yields.bind (yields_lookUp _) fun status hstatus => absurd hstatus (h pet status hbears)

theorem stays_damageModifier (id : PetId) (trigger : Trigger) :
    P.Stays hit (damageModifier rules id trigger) := by
  refine Couples.bind (stays_look _) fun found => ?_
  split
  · exact keeps_pure _
  · refine Couples.bind (stays_of_unseen fun _ => ⟨rfl, rfl⟩) fun status => ?_
    repeat' split
    all_goals exact keeps_pure _

/-- A status is used up of another pet only, or there is none that could be. -/
theorem stays_applyModifier (h : id = P.pet → P.Stateless rules.catalog) (trigger : Trigger)
    (work : Impact → DamageModifier → Impact) (i : Impact) :
    P.Stays hit (applyModifier rules id trigger work i) := by
  by_cases hid : id = P.pet
  · subst hid
    exact ((fails_damageModifier (h rfl) trigger).bind _).stays
  · refine Couples.bind (stays_damageModifier id trigger) fun m => ?_
    split
    · exact keeps_pure _
    · split
      · exact Couples.bind (stays_modifyPet id fun heq => absurd heq hid) fun _ => keeps_pure _
      · exact keeps_pure _

theorem stays_damageFor {attack : Attack}
    (ha : attack.isPrimary = true → attack.attacker = P.pet → P.Stateless rules.catalog)
    {target : PetId} (ht : target = P.pet → P.Stateless rules.catalog) :
    P.Stays hit (damageFor rules attack target) := by
  have weaken (i : Impact) : P.Stays hit (do
      let i ← applyModifier rules target .whenDamaged Impact.weaken i
      pure i.total) :=
    Couples.bind (stays_applyModifier ht ..) fun _ => keeps_pure _
  unfold damageFor
  split
  · rename_i hprimary
    exact Couples.bind (stays_applyModifier (ha hprimary) ..) weaken
  · exact Couples.bind (keeps_pure _) weaken

/-! ## Attacks behind the foremost pets -/

/-- Not face to face, and on pets that are known to be hit. -/
def Distant (hit : PetId → Prop) (attacks : List Attack) : Prop :=
  ∀ attack ∈ attacks, attack.isPrimary = false ∧ ∀ id ∈ attack.targets, hit id

def Targeted (attacks : List Attack) (id : PetId) : Prop := ∃ attack ∈ attacks, id ∈ attack.targets

theorem yields_aim_of_distant (slot : Nat) (h : Distant hit attacks) :
    Yields (.same anyway) (Same (P.Held hit)) (fun aims => ∀ aim ∈ aims, hit aim.target)
      (aim rules slot attacks) (aim rules slot attacks) := by
  induction attacks with
  | nil => exact couples_pure _ fun _ _ hst => ⟨nofun, hst⟩
  | cons attack rest ih =>
    obtain ⟨⟨hdistant, htargets⟩, hrest⟩ := List.forall_mem_cons.1 h
    unfold aim
    split
    · exact ih hrest
    · rename_i target htarget
      have hhit := htargets target (List.mem_of_getElem? htarget)
      refine Couples.bind (stays_look _) fun b => ?_
      split
      · have damages : P.Stays hit (damageFor rules attack target) :=
          Triple.intro fun s hs => triple_iff.1
            (stays_damageFor (fun hprimary => absurd hprimary (by simp [hdistant]))
              fun heq => absurd heq (hs.ne_of_rear (hs.rear target hhit))) s hs
        refine Couples.bind damages fun damage => Yields.bind (ih hrest) fun aims haims => ?_
        exact couples_pure _ fun _ _ hst => ⟨List.forall_mem_cons.2 ⟨hhit, haims⟩, hst⟩
      · exact ih hrest

theorem yields_applyHits {aims : List Aim} (h : ∀ aim ∈ aims, hit aim.target) :
    Yields (.same anyway) (Same (P.Held hit)) (fun hits => ∀ h ∈ hits, hit h.target)
      (applyHits aims) (applyHits aims) := by
  induction aims with
  | nil => exact couples_pure _ fun _ _ hst => ⟨nofun, hst⟩
  | cons aim rest ih =>
    obtain ⟨hfirst, hrest⟩ := List.forall_mem_cons.1 h
    unfold applyHits
    refine Couples.bind (stays_look _) fun before => ?_
    refine Couples.bind (stays_modifyPet_of_same aim.target fun _ => ⟨rfl, rfl⟩) fun _ => ?_
    refine Yields.bind (ih hrest) fun hits hhits => ?_
    exact couples_pure _ fun _ _ hst => ⟨List.forall_mem_cons.2 ⟨hfirst, hhits⟩, hst⟩

section

variable (hr : ∀ event, P.Stays hit (raise event))
include hr

/-- A pet that is hit leaves the line from behind the foremost ones. -/
theorem stays_followUp (lines : Sides (List PetId)) {h : Hit} (hh : hit h.target) :
    P.Stays hit (followUp raise lines h) := by
  unfold followUp
  split
  · exact keeps_pure _
  · refine Couples.bind (stays_look _) fun b => ?_
    split
    · exact keeps_pure _
    · split
      · exact hr _
      · have leaves : P.Stays hit (remove h.target) :=
          triple_remove fun s hs side b hl => hs.leave (hs.rear _ hh) hl
        refine Couples.bind leaves fun removed => ?_
        split
        · exact Couples.bind (hr _) fun _ => hr _
        · exact keeps_pure _

theorem stays_playRound (h : Distant hit attacks) (lines : Sides (List PetId)) (slot : Nat) :
    P.Stays hit (playRound rules raise attacks lines slot) :=
  Yields.bind (yields_aim_of_distant slot h) fun _ haims =>
    Yields.bind (yields_applyHits haims) fun hits hhits =>
      keeps_forEach hits fun h hm => stays_followUp hr lines (hhits h hm)

theorem stays_announceBefore (attack : Attack) : P.Stays hit (announceBefore raise attack) := by
  refine Couples.bind (stays_look _) fun b => ?_
  split
  · exact hr _
  · exact keeps_pure _

theorem stays_announceAfter (attack : Attack) : P.Stays hit (announceAfter raise attack) := by
  refine Couples.bind (stays_look _) fun b => ?_
  split
  · exact hr _
  · exact keeps_pure _

theorem stays_playAttacks (h : Distant hit attacks) : P.Stays hit (playAttacks rules raise attacks) := by
  refine Couples.bind (keeps_forEach attacks fun attack _ => stays_announceBefore hr attack) fun _ => ?_
  refine Couples.bind (stays_look _) fun b => ?_
  have played : Distant hit (attacks.filter fun attack => anyAlive b attack.targets) :=
    fun attack hm => h attack (List.mem_of_mem_filter hm)
  refine Couples.bind (keeps_forEach _ fun slot _ => stays_playRound hr played b.lines slot) fun _ => ?_
  exact keeps_forEach _ fun attack _ => stays_announceAfter hr attack

end

/-! ## The opening -/

/-- Nothing is about to be hit. -/
abbrev Idle (P : Foremost) (s : Arena) : Prop := P.Held (fun _ => False) s

theorem Held.idle (h : P.Held hit s) : P.Idle s := { h with rear := fun _ => False.elim }

section

variable (hP : P.Holds rules.catalog)
include hP

/-- The attacks that are taken from the queues aim behind the foremost pets. -/
theorem stays_playForemost :
    P.Stays (fun _ => False) (playForemost rules (dispatch rules)) := by
  apply Triple.intro
  intro s hs
  have waited : ∀ attack ∈ foremost s.queues,
      attack.isPrimary = false ∧ ∀ id ∈ attack.targets, s.board.Rear id := by
    intro attack hm
    rw [foremost_eq, List.mem_append] at hm
    rcases hm with hm | hm
    · exact hs.waiting .a attack (List.mem_of_mem_head? (Option.mem_toList.1 hm))
    · exact hs.waiting .b attack (List.mem_of_mem_head? (Option.mem_toList.1 hm))
  have distant : Distant (Targeted (foremost s.queues)) (foremost s.queues) := fun attack hm =>
    ⟨(waited attack hm).1, fun id hid => ⟨attack, hm, hid⟩⟩
  have popped : P.Held (Targeted (foremost s.queues)) { s with queues := withoutForemost s.queues } := {
    wellFormed := hs.wellFormed
    names := hs.names
    foremost := hs.foremost
    faced := hs.faced
    rear := by
      rintro id ⟨attack, hm, hid⟩
      exact (waited attack hm).2 id hid
    waiting := by
      intro side attack hm
      rw [waits_withoutForemost] at hm
      exact hs.waiting side attack (List.mem_of_mem_tail hm) }
  have played : P.Stays (Targeted (foremost s.queues))
      (playAttacks rules (dispatch rules) (foremost s.queues)) :=
    stays_playAttacks (stays_dispatchIn hP _) distant
  exact (triple_iff.1 played _ popped).weaken (fun _ _ h => h) fun _ _ h => h.idle

theorem stays_opening : P.Stays (fun _ => False) (Battle.opening (procedures rules)) :=
  Couples.bind (keeps_forEach _ fun _ _ => stays_dispatchIn hP _ _) fun _ =>
    keeps_drainQueues_of_foremost (stays_playForemost hP)

/-- A pet that may answer the start of the battle is noticed. -/
theorem fails_opening (ha : P.Answers rules.catalog (.battle .startOfBattle P.side)) :
    P.Fails (fun _ => False) (Battle.opening (procedures rules)) := by
  refine Fails.bind (fails_forEach (fun _ _ => stays_dispatchIn hP _ _) (x := P.side) ?_ ?_) _
  · cases P.side <;> decide
  · exact fails_dispatchIn hP _ rfl rfl ha

end

/-! ## The exchange -/

/-- The two foremost pets are to attack each other. -/
theorem Held.primaryAttacks (h : P.Held hit s) :
    ∃ enemy, P.enemy enemy ∧ s.board.front? P.side.opponent = some enemy ∧
      (∃ damage, ⟨P.pet, P.side, [enemy], damage, true⟩ ∈
        Side.all.filterMap (primaryAttack? s.board)) ∧
      ∃ damage, ⟨enemy, P.side.opponent, [P.pet], damage, true⟩ ∈
        Side.all.filterMap (primaryAttack? s.board) := by
  obtain ⟨enemy, henemy, hallowed⟩ := h.faced
  obtain ⟨own, hown, _⟩ := h.names
  obtain ⟨foe, hfoe⟩ := h.wellFormed.pet?_of_mem (Board.mem_of_front? henemy)
  have attack : primaryAttack? s.board P.side = some ⟨P.pet, P.side, [enemy], own.attack, true⟩ := by
    unfold primaryAttack?
    rw [h.foremost, henemy]
    simp [hown]
  have answer : primaryAttack? s.board P.side.opponent =
      some ⟨enemy, P.side.opponent, [P.pet], foe.attack, true⟩ := by
    unfold primaryAttack?
    rw [Side.opponent_opponent, h.foremost, henemy]
    simp [hfoe]
  have all (side : Side) : side ∈ Side.all := by cases side <;> decide
  exact ⟨enemy, hallowed, henemy, ⟨_, List.mem_filterMap.2 ⟨_, all _, attack⟩⟩,
    _, List.mem_filterMap.2 ⟨_, all _, answer⟩⟩

/-- A hit looks up the status of its target. -/
theorem fails_damageFor (h : P.Stateless rules.catalog) (attack : Attack) :
    P.Fails hit (damageFor rules attack P.pet) := by
  have weaken (i : Impact) : P.Fails hit (do
      let i ← applyModifier rules P.pet .whenDamaged Impact.weaken i
      pure i.total) := ((fails_damageModifier h _).bind _).bind _
  unfold damageFor
  split
  · exact Couples.bind (stays_applyModifier (fun _ => h) ..) weaken
  · exact Couples.bind (keeps_pure _) weaken

/-- The pet is seen standing in line. -/
theorem yields_board_isAlive :
    Yields (.same anyway) (Same (P.Held hit)) (fun b => b.isAlive P.pet = true) board board := by
  apply couples_look
  rintro s _ ⟨rfl, hs⟩
  exact ⟨rfl, hs.isAlive, rfl, hs⟩

theorem fails_aim (h : P.Stateless rules.catalog) {attack : Attack} (hm : attack ∈ attacks)
    (ht : attack.targets = [P.pet]) : P.Fails hit (aim rules 0 attacks) := by
  induction attacks with
  | nil => cases hm
  | cons first rest ih =>
    unfold aim
    rcases List.mem_cons.1 hm with rfl | hm
    · rw [ht]
      refine Yields.bind yields_board_isAlive fun b hb => ?_
      rw [if_pos hb]
      exact (fails_damageFor h attack).bind _
    · split
      · exact ih hm
      · refine Couples.bind (stays_look _) fun b => ?_
        split
        · exact Couples.bind (stays_damageFor (fun _ _ => h) fun _ => h) fun damage => (ih hm).bind _
        · exact ih hm

/-- A round is played if an attack has a target. -/
theorem width_pos {attack : Attack} (hm : attack ∈ attacks) (ht : attack.targets ≠ []) :
    0 < width attacks := by
  have grows (n : Nat) (attacks : List Attack) :
      n ≤ attacks.foldl (fun n attack => max n attack.targets.length) n := by
    induction attacks generalizing n with
    | nil => exact Nat.le_refl n
    | cons first rest ih => exact Nat.le_trans (Nat.le_max_left ..) (ih _)
  have covers (n : Nat) :
      attack.targets.length ≤ attacks.foldl (fun n attack => max n attack.targets.length) n := by
    induction attacks generalizing n with
    | nil => cases hm
    | cons first rest ih =>
      rcases List.mem_cons.1 hm with rfl | hm
      · exact Nat.le_trans (Nat.le_max_right ..) (grows _ rest)
      · exact ih hm _
  exact Nat.lt_of_lt_of_le (List.length_pos_iff.2 ht) (covers 0)

/-- The first exchange looks a missing name up: when the pet is hit, or when its own attack is
announced and nothing can have taken the target away. -/
inductive NoticedInExchange (P : Foremost) (c : Catalog) : Prop
  | hit (h : P.Stateless c)
  | announced (h : P.Answers c (.battle .beforeAttack P.side)) (enemy : PetId)
    (only : ∀ id, P.enemy id → id = enemy)

section

variable (hP : P.Holds rules.catalog)
include hP

/-- An attack that aims at the pet alone does not get past its status. -/
theorem fails_playAttacks_of_stateless (h : P.Stateless rules.catalog) {attack : Attack}
    (hm : attack ∈ attacks) (ht : attack.targets = [P.pet]) :
    P.Fails hit (playAttacks rules (dispatch rules) attacks) := by
  refine Fails.after (keeps_forEach attacks fun a _ =>
    stays_announceBefore (stays_dispatchIn hP _) a) fun _ => ?_
  refine Yields.bind yields_board_isAlive fun b hb => ?_
  have played : attack ∈ attacks.filter fun attack => anyAlive b attack.targets := by
    refine List.mem_filter.2 ⟨hm, ?_⟩
    rw [ht]
    exact List.any_eq_true.2 ⟨P.pet, List.mem_singleton_self _, hb⟩
  dsimp only
  generalize attacks.filter (fun attack => anyAlive b attack.targets) = left at played
  have first : P.Fails hit (playRound rules (dispatch rules) left b.lines 0) :=
    (fails_aim h played ht).bind _
  have wide := width_pos played (by simp [ht])
  obtain ⟨n, hn⟩ := Nat.exists_eq_succ_of_ne_zero (Nat.ne_of_gt wide)
  rw [hn, List.range_succ_eq_map, forEach]
  exact (first.bind _).bind _

/-- Its own attack is announced to the pet as long as the target stands. -/
theorem fails_playAttacks_of_answers (ha : P.Answers rules.catalog (.battle .beforeAttack P.side))
    {enemy : PetId} (only : ∀ id, P.enemy id → id = enemy) {attack : Attack} (hm : attack ∈ attacks)
    (hprimary : attack.isPrimary = true) (hattacker : attack.attacker = P.pet)
    (hside : attack.side = P.side) (ht : attack.targets = [enemy]) :
    P.Fails hit (playAttacks rules (dispatch rules) attacks) := by
  have bothAlive : Yields (.same anyway) (Same (P.Held hit))
      (fun b => b.isAlive P.pet = true ∧ b.isAlive enemy = true) board board := by
    apply couples_look
    rintro s _ ⟨rfl, hs⟩
    refine ⟨rfl, ⟨hs.isAlive, ?_⟩, rfl, hs⟩
    obtain ⟨foe, hfoe, hallowed⟩ := hs.faced
    have stands := Board.mem_of_front? hfoe
    rw [only foe hallowed] at stands
    exact (Board.isAlive_iff _ _).2 ⟨_, hs.wellFormed.member _ _ stands, stands⟩
  have announced : P.Fails hit (announceBefore (dispatch rules) attack) := by
    refine Yields.bind bothAlive fun b hb => ?_
    rw [hprimary, hattacker, hside, ht, hb.1]
    have stands : anyAlive b [enemy] = true := List.any_eq_true.2 ⟨enemy, List.mem_singleton_self _, hb.2⟩
    rw [stands]
    exact fails_dispatchIn hP _ rfl rfl ha
  exact (fails_forEach (fun a _ => stays_announceBefore (stays_dispatchIn hP _) a) hm announced).bind _

/-- The foremost pets attack each other, so that each of them is a target. -/
theorem fails_attackCycle (h : P.NoticedInExchange rules.catalog) :
    P.Fails (fun _ => False) (attackCycle rules (procedures rules)) := by
  apply Triple.intro
  intro s hs
  have exchanged : P.Fails (fun _ => False)
      (playAttacks rules (dispatch rules) (Side.all.filterMap (primaryAttack? s.board))) := by
    obtain ⟨foe, hallowed, _, ⟨_, attack⟩, _, answer⟩ := hs.primaryAttacks
    cases h with
    | hit h => exact fails_playAttacks_of_stateless hP h answer rfl
    | announced ha enemy only =>
      exact fails_playAttacks_of_answers hP ha only attack rfl rfl rfl (by rw [only foe hallowed])
  have failed : P.Fails (fun _ => False) (do
      playAttacks rules (dispatch rules) (Side.all.filterMap (primaryAttack? s.board))
      (procedures rules).drain) := exchanged.bind _
  exact triple_iff.1 failed s hs

end

/-! ## Battles -/

end Foremost

namespace Battle

variable {rules : Rules} {b : Battle} {e : EngineError} {s t : Arena}

theorem step_of_opening_error (hb : b.state = .notStarted)
    (h : opening (procedures rules) b.arena = (.error e, s)) :
    b.step rules = (.error e, { b with arena := s }) := by
  unfold step stepWith startWith play
  rw [hb, if_pos rfl, h]

theorem step_of_cycle_error (hb : b.state = .notStarted)
    (h : opening (procedures rules) b.arena = (.ok (), s)) (hd : decided? s.board = none)
    (hm : b.rounds < rules.config.maxRounds)
    (hc : attackCycle rules (procedures rules) s = (.error e, t)) :
    b.step rules = (.error e, ⟨t, .running, b.rounds + 1⟩) := by
  unfold step stepWith startWith play
  rw [hb, if_pos rfl, h]
  dsimp only
  unfold advanceWith play
  dsimp only
  rw [hd, if_neg (Nat.not_le.2 hm), hc]

/-- A battle that cannot make its first step leaves the teams alone. -/
theorem runBattle_of_error {teams : Sides Team}
    (h : (ofTeams rules.config teams).step rules = (.error e, b)) :
    runBattle rules teams = (.error e, teams) := by
  have fought : fight rules teams = .error e := by
    unfold fight run
    rw [finishFrom_of_error h]
  unfold runBattle
  rw [fought]

end Battle

namespace Foremost

variable {P : Foremost} {hit : PetId → Prop} {s : Arena} {rules : Rules} {teams : Sides Team}

theorem Held.decided? (h : P.Held hit s) : Battle.decided? s.board = none := by
  obtain ⟨foe, hfoe, _⟩ := h.faced
  have staffed : ∀ side, (s.board.roster side).isEmpty = false := by
    intro side
    rw [List.isEmpty_eq_false_iff]
    by_cases hside : side = P.side
    · exact hside ▸ List.ne_nil_of_mem h.mem
    · rw [Side.eq_opponent_of_ne hside]
      exact List.ne_nil_of_mem (Board.mem_of_front? hfoe)
  unfold Battle.decided?
  rw [staffed .a, staffed .b]

theorem Fails.error {α : Type} {m : Resolve α} (h : P.Fails hit m) (hs : P.Held hit s) :
    ∃ e t, m s = (.error e, t) := by
  have failed := triple_iff.1 h s hs
  cases hr : m s with
  | mk r t =>
    rw [hr] at failed
    cases r with
    | ok x => exact failed.elim
    | error e => exact ⟨e, t, rfl⟩

/-- A battle that begins with the pet foremost fails in the opening or in the first cycle. -/
theorem error_of_runBattle (hP : P.Holds rules.catalog)
    (hs : P.Idle (Battle.ofTeams rules.config teams).arena) (hm : 0 < rules.config.maxRounds)
    (hn : P.Answers rules.catalog (.battle .startOfBattle P.side) ∨
      P.NoticedInExchange rules.catalog) :
    ∃ e, runBattle rules teams = (.error e, teams) := by
  have opened := triple_iff.1 (stays_opening hP) _ hs
  cases hr : Battle.opening (procedures rules) (Battle.ofTeams rules.config teams).arena with
  | mk r t =>
    cases r with
    | error e => exact ⟨e, Battle.runBattle_of_error (Battle.step_of_opening_error rfl hr)⟩
    | ok x =>
      rw [hr] at opened
      have held : P.Idle t := opened
      rcases hn with ha | hn
      · obtain ⟨e, t', failed⟩ := (fails_opening hP ha).error hs
        rw [hr] at failed
        cases failed
      · obtain ⟨e, t', failed⟩ := (fails_attackCycle hP hn).error held
        exact ⟨e, Battle.runBattle_of_error
          (Battle.step_of_cycle_error rfl hr held.decided? hm failed)⟩

end Foremost

end AutoBattler
