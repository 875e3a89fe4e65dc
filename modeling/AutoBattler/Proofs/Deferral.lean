import AutoBattler.Proofs.Histories
import AutoBattler.Proofs.Vitality
import AutoBattler.Proofs.Waiting

/-!
# Deferred damage

What is told after a hit leads to calm events only: no cast and no repeat within it answers a loud
one. Damage that is asked for in answer to a calm event waits in the queue of the side that asks.
So no pet is hit before all has been told that follows from the hits before.
-/
namespace AutoBattler

open Resolve

/-! ## Calm events -/

/-- Calm events with effects of a kind. -/
def calmScope (G : Effect → Prop) : Scope := ⟨Event.IsCalm, G, fun _ => True⟩

variable {G : Effect → Prop} {c : Catalog} {rules : Rules} {raise : Raise} {event : Event}

theorem covers_calmScope (hG : c.Every G) : (calmScope G).Covers c :=
  ⟨hG, fun event cause he hc => ((Event.isCalm_iff event).1 he).2 cause hc⟩

theorem isCalm_of_followsHit {trigger : Trigger} (h : FollowsHit trigger) (side : Side)
    (id : PetId) (lines : Sides (List PetId)) : (attackEvent trigger side id lines).IsCalm := by
  refine isCalm_attackEvent ?_ side id lines
  rcases h with rfl | rfl | rfl <;> simp [Trigger.IsLoud]

/-- Calm events of a battle. -/
def Event.CalmInBattle (event : Event) : Prop := event.IsCalm ∧ event.InBattle

theorem Event.hereditary_calmInBattle : Hereditary CalmInBattle where
  cause event cause h hc :=
    ⟨((isCalm_iff event).1 h.1).2 cause hc, hereditary_inBattle.cause event cause h.2 hc⟩
  levelUp event side id h :=
    ⟨event.isCalm_followUp side id (by simp [Trigger.IsLoud]),
      hereditary_inBattle.levelUp event side id h.2⟩
  summoned event side id h :=
    ⟨event.isCalm_followUp side id (by simp [Trigger.IsLoud]),
      hereditary_inBattle.summoned event side id h.2⟩
  attack event h _ hloud := absurd hloud ((isCalm_iff event).1 h.1).1
  cast event caster side h :=
    ⟨isCalm_castEvent h.1 caster side, hereditary_inBattle.cast event caster side h.2⟩

theorem Event.CalmInBattle.isBattle (h : event.CalmInBattle) : event.isBattle = true :=
  decide_eq_true ((inBattle_iff event).1 h.2).1

/-! ## Boards without hits -/

/-- An operation that is no hit: a pet changes as an effect of the kind makes it change, by using up
a status, by a counter, or with experience. -/
inductive HitFree (c : Catalog) (G : Effect → Prop) : Board.Operation → Prop
  | spawn (side : Side) (pet : Pet) (placement : Placement) : HitFree c G (.spawn side pet placement)
  | replace (id : PetId) (pet : Pet) : HitFree c G (.replace id pet)
  | remove (id : PetId) : HitFree c G (.remove id)
  | edit (id : PetId) {f : Pet → Pet} (h : Edit c (calmScope G) f) : HitFree c G (.change id f)
  | gainPoint (id : PetId) : HitFree c G (.change id Pet.gainPoint)
  | promote (id : PetId) (level : Nat) : HitFree c G (.change id (Pet.promote level))

/-- The arenas whose board such operations lead to. -/
abbrev Spared (c : Catalog) (G : Effect → Prop) (b : Board) : Arena → Prop :=
  BoardInvariant.holds (b.LedBy (HitFree c G))

theorem elementary_spared (c : Catalog) (G : Effect → Prop) (b : Board) :
    Elementary (calmScope G) c (.same fun _ => Spared c G b) (Same (Spared c G b)) := by
  have edits : EditInvariant (calmScope G) c (b.LedBy (HitFree c G)) :=
    ⟨fun _ _ _ _ _ => trivial, fun _ h _ hf id => h.change (.edit id hf)⟩
  exact BoardInvariant.elementary edits fun _ _ _ hs => hs

theorem guarding_spared (rules : Rules) (G : Effect → Prop) (b : Board) :
    Guarding rules rules (.same fun _ => Spared rules.catalog G b)
      (Same (Spared rules.catalog G b)) :=
  BoardInvariant.guarding rules (fun _ _ _ hs => hs) fun _ _ _ hs => hs

/-- In answer to a calm event no attack is played. -/
theorem telling_spared (rules : Rules) (G : Effect → Prop) (b : Board) {raise raise' : Raise}
    (hr : ∀ event, (calmScope G).events event →
      Keeps (.same fun _ => Spared rules.catalog G b) (Same (Spared rules.catalog G b)) (raise event)
        (raise' event)) :
    Telling (calmScope G) rules rules raise raise' (.same fun _ => Spared rules.catalog G b)
      (Same (Spared rules.catalog G b)) where
  play event he _ hloud _ _ _ _ := absurd hloud ((Event.isCalm_iff event).1 he).1
  teach event _ _ _ _ id := by
    refine keeps_teach (elementary_spared rules.catalog G b) (fun _ => ?_) (fun level => ?_)
      fun side => hr _ (event.isCalm_followUp side id (by simp [Trigger.IsLoud]))
    · exact Triple.intro fun s hs => hs.change (.gainPoint id)
    · exact Triple.intro fun s hs => hs.change (.promote id level)
  bringIn event _ pet _ side _ placement copies := by
    refine keeps_bringIn (triple_spawn (fun s hs id b' ha => ?_) placement) (fun id => ?_) copies
    · exact hs.arrive (fun placement => .spawn side pet placement) ha
    · exact hr _ (event.isCalm_followUp side id (by simp [Trigger.IsLoud]))
  evolve _ kind _ _ id :=
    triple_replace fun _ hs _ _ _ he => hs.exchange (.replace id (.ofKind kind)) he
  cast _ he _ _ _ caster side := hr _ (Event.isCalm_castEvent he caster side)

theorem spared_dispatchIn (hG : rules.catalog.Every G) (b : Board) (room : Nat)
    (he : event.IsCalm) :
    Triple (fun _ => Spared rules.catalog G b) (Spared rules.catalog G b)
      (dispatchIn rules room event) fun _ => Spared rules.catalog G b :=
  keeps_dispatchIn_of_telling (S := calmScope G) (elementary_spared rules.catalog G b)
    (guarding_spared rules G b) (covers_calmScope hG) rfl
    (fun _ _ hr => telling_spared rules G b hr) room he

theorem spared_followUps (hG : rules.catalog.Every G) (b : Board) (room : Nat)
    (lines : Sides (List PetId)) (hits : List Hit) :
    Triple (fun _ => Spared rules.catalog G b) (Spared rules.catalog G b)
      (forEach hits (followUp (dispatchIn rules room) lines)) fun _ => Spared rules.catalog G b := by
  refine keeps_forEach hits fun hit _ => ?_
  refine keeps_followUp (elementary_spared rules.catalog G b) (fun id => ?_) lines
    (fun trigger ht side id => ?_) hit
  · exact triple_remove fun _ hs _ _ hl => hs.leave (.remove id) hl
  · exact spared_dispatchIn hG b room (isCalm_of_followsHit ht side id lines)

/-- The follow-ups of hits change the board by operations that are no hits, also where they fail. -/
theorem hitFree_followUps (hG : rules.catalog.Every G) (room : Nat) (lines : Sides (List PetId))
    (hits : List Hit) {s : Arena} (hs : s.board.WellFormed) :
    s.board.FollowsBy (HitFree rules.catalog G)
      (forEach hits (followUp (dispatchIn rules room) lines) s).2.board := by
  have followed := spared_followUps hG s.board room lines hits
  have led := ends_always.1 (triple_iff.1 followed s (.refl hs))
  exact led.follows

/-! ## The contexts of follow-ups -/

namespace Wrapping.Idle

variable {w : Wrapping}

/-- What makes no difference to calm events of a battle makes none to the follow-ups of hits. -/
theorem followUps (hw : w.Idle Event.CalmInBattle fun _ => True) (room : Nat)
    (lines : Sides (List PetId)) (hits : List Hit) {s : Arena} (hs : s.board.WellFormed) :
    forEach hits (followUp (w.dispatchIn rules room) lines) s =
      forEach hits (followUp (Resolve.dispatchIn rules room) lines) s := by
  let K (_ : PetId) : Prop := False
  have hB : Kept rules.catalog fun _ => True := fun C =>
    boardInvariant_trivial rules.catalog (fun _ => trivial) fun _ => trivial
  have steps := ((hB fun _ => True).knowing K).boardSteps (E := failed fun _ => True)
  have told (trigger : Trigger) (ht : FollowsHit trigger) (side : Side) (id : PetId) :=
    hw.dispatchIn hB Event.hereditary_calmInBattle room (K := K) <| told_of_fresh rfl rfl
      ⟨isCalm_of_followsHit ht side id lines, Event.inBattle_of_no_cause rfl rfl⟩
  have followed := keeps_forEach hits fun hit _ =>
    keeps_followUp (elementary hB Event.CalmInBattle K) steps.remove lines told hit
  exact (followed.eq ⟨hs, trivial, fun _ => False.elim⟩).symm

end Wrapping.Idle

/-! ## Damage asked for -/

/-- An effect touches the targets of an attack, and the attack joins the queue of its side if it has
any. Nothing else changes but the random generator. -/
structure Asks (s : Arena) (attack : Attack) (r : Except EngineError (List PetId) × Arena) :
    Prop where
  touched : r.1 = .ok attack.targets
  arena : { r.2 with random := s.random, queues := s.queues } = s
  waits : ∀ side, r.2.waits side =
    s.waits side ++ if attack.side = side ∧ attack.targets ≠ [] then [attack] else []

theorem asks_of_enqueue {attack : Attack} {s : Arena} {g : Random.Generator}
    (ht : attack.targets ≠ []) :
    Asks s attack (.ok attack.targets, (enqueue attack { s with random := g }).2) where
  touched := rfl
  arena := rfl
  waits side := by
    rw [waits_enqueue]
    simp only [ht, ne_eq, not_false_eq_true, and_true]
    rfl

theorem asks_nothing {attack : Attack} {s : Arena} {g : Random.Generator}
    (ht : attack.targets = []) : Asks s attack (.ok attack.targets, { s with random := g }) where
  touched := rfl
  arena := rfl
  waits side := by
    simp only [ht, ne_eq, not_true_eq_false, and_false, if_false, List.append_nil]
    rfl

variable {s : Arena} {id : PetId} {entrant : Entrant}

theorem launch_of_not_loud (ht : ¬ event.trigger.IsLoud) (hs : s.board.sideOf? id = some side)
    (targets : List PetId) (damage : Int) :
    launch rules raise event id targets damage s =
      if targets = [] then (.ok (), s) else enqueue ⟨id, side, targets, damage, false⟩ s := by
  unfold launch
  rw [bind_run]
  dsimp only [board, look]
  rw [hs]
  dsimp only
  split
  · rfl
  · exact congrFun (if_neg ht) s

theorem asks_dealDamage (hb : event.isBattle = true) (ht : ¬ event.trigger.IsLoud)
    (hs : s.board.entrant? id = some entrant) (amount : DamageAmount) (target : Selector) :
    Asks s ⟨id, entrant.side, (Targeting.resolve ⟨s.board, event, some id⟩ target s.random).1,
        amount.resolve entrant.pet.attack, false⟩
      (dealDamage rules raise event (some id) amount target s) := by
  have pet : s.board.pet? id = some entrant.pet := by rw [Board.pet?, hs]; rfl
  let drawn := Targeting.resolve ⟨s.board, event, some id⟩ target s.random
  have home : ({ s with random := drawn.2 } : Arena).board.sideOf? id = some entrant.side := by
    rw [Board.sideOf?, hs]
    rfl
  unfold dealDamage
  rw [hb]
  dsimp only
  rw [bind_run]
  dsimp only [Resolve.pet?, look]
  rw [pet]
  dsimp only
  rw [bind_run]
  dsimp only [targets]
  rw [bind_run, launch_of_not_loud ht home]
  by_cases none : drawn.1 = []
  · rw [if_pos none]
    exact asks_nothing none
  · rw [if_neg none]
    exact asks_of_enqueue none

theorem asks_splashDamage (hb : event.isBattle = true) (hs : s.board.entrant? id = some entrant)
    (amount : Int) :
    Asks s ⟨id, entrant.side, (second? (s.board.roster entrant.side.opponent)).toList, amount, false⟩
      (splashDamage event (some id) amount s) := by
  have home : s.board.sideOf? id = some entrant.side := by rw [Board.sideOf?, hs]; rfl
  unfold splashDamage
  rw [hb]
  dsimp only
  rw [bind_run]
  dsimp only [board, look]
  rw [home]
  dsimp only
  cases second? (s.board.roster entrant.side.opponent) with
  | none => exact asks_nothing rfl
  | some target => exact asks_of_enqueue (List.cons_ne_nil target [])

theorem perform_dealDamage (actor : Option PetId) (amount : DamageAmount) (target : Selector) :
    perform rules raise event actor (.dealDamage amount target) =
      dealDamage rules raise event actor amount target := by
  obtain ⟨_, _, _, _, _, _, cause⟩ := event
  cases cause <;> rw [perform, performWith]

theorem perform_splashDamage (actor : Option PetId) (amount : Int) :
    perform rules raise event actor (.splashDamage amount) = splashDamage event actor amount := by
  obtain ⟨_, _, _, _, _, _, cause⟩ := event
  cases cause <;> rw [perform, performWith]

/-! ## An answer that fails after it has asked for damage -/

def strike : Effect := .dealDamage (.fixed 1) .firstEnemy

/-- Calls for a pet of a kind that is not defined. -/
def callSeedling : Effect := .summonPet ⟨"pet-seedling"⟩ .friendly none none

/-- Whoever hurts it, it strikes back. -/
def bramble : PetKind :=
  ⟨⟨"pet-bramble"⟩, "pet-bramble", 1, 1, 3, [],
    some ⟨"", .hurt, .self, .allOf [strike, callSeedling], none⟩, none, none⟩

def brambleRules : Rules := ⟨.ofLists [bramble, ant] [] [], { recordEvents := true }⟩

def brambleTeams : Sides Team where
  a := .ofPets [.ofKind bramble]
  b := .ofPets [(Pet.ofKind ant).setHealth 5]

/-- The bramble is hurt, and its answer is what fails. -/
def brambleBattle : Except EngineError BattleState × Battle :=
  (Battle.ofTeams { recordEvents := true } brambleTeams).step brambleRules

theorem every_bramble {p : Effect → Prop} (ha : p (.allOf [strike, callSeedling])) (hs : p strike)
    (hc : p callSeedling) : brambleRules.catalog.Every p := by
  apply Catalog.every_ofLists
  · intro kind hm ability hability
    simp only [List.mem_cons, List.not_mem_nil, or_false] at hm
    rcases hm with rfl | rfl
    · simp only [bramble, List.mem_cons, Option.some.injEq, reduceCtorEq, List.not_mem_nil,
        or_false] at hability
      rw [hability]
      exact ⟨ha, ⟨hs, trivial⟩, ⟨hc, trivial⟩, trivial⟩
    · simp [ant] at hability
  · simp
  · simp

theorem reachable_bramble : Battle.Reachable brambleRules brambleTeams brambleBattle.2 := .step .new

/-- What the bramble asked for was not played, and starting the battle again does not play it. -/
theorem waits_bramble :
    (brambleBattle.2.start brambleRules).1 = .ok () ∧
      (brambleBattle.2.start brambleRules).2.arena.waits .a = [⟨⟨0⟩, .a, [⟨1⟩], 1, false⟩] := by
  decide +kernel

theorem start_bramble :
    brambleBattle.2.start brambleRules = (.ok (), (brambleBattle.2.start brambleRules).2) :=
  Battle.start_eq_of_ok waits_bramble.1

theorem start_may_leave_attacks_waiting :
    ¬ ∀ rules teams b b', Battle.Reachable rules teams b → b.start rules = (.ok (), b') →
      ∀ side, b'.arena.waits side = [] := by
  intro drained
  have none := drained _ _ _ _ reachable_bramble start_bramble .a
  rw [waits_bramble.2] at none
  cases none

/-! ## Follow-ups defer damage -/

/-- The follow-ups of hits change the board by operations that are no hits, in whatever way they end.
What is put around other events than calm ones of a battle, and around performing in answer to
others, makes no difference to them, casts and repeats included. Damage that a stored pet asks for in
answer to a calm event of a battle joins the queue of its side, if it has a target, and stays there
whatever is told or performed afterwards. Over all calls of a battle, also after errors, what has
joined a queue is what was taken from it to be played, in the same order, and then what still waits.
A call that succeeds leaves nothing waiting, unless it plays nothing and so leaves the arena as it
was; after calls that all succeeded nothing waits. -/
theorem follow_ups_defer_damage (rules : Rules) :
    (∀ G, rules.catalog.Every G → ∀ room lines hits (s : Arena), s.board.WellFormed →
      s.board.FollowsBy (HitFree rules.catalog G)
        (forEach hits (followUp (dispatchIn rules room) lines) s).2.board) ∧
    (∀ w : Wrapping, w.Idle Event.CalmInBattle (fun _ => True) →
      ∀ room lines hits (s : Arena), s.board.WellFormed →
        forEach hits (followUp (w.dispatchIn rules room) lines) s =
          forEach hits (followUp (dispatchIn rules room) lines) s) ∧
    (∀ event : Event, event.CalmInBattle → ∀ raise (s : Arena) id entrant,
      s.board.entrant? id = some entrant →
        (∀ amount target, Asks s
          ⟨id, entrant.side, (Targeting.resolve ⟨s.board, event, some id⟩ target s.random).1,
            amount.resolve entrant.pet.attack, false⟩
          (perform rules raise event (some id) (.dealDamage amount target) s)) ∧
        ∀ amount, Asks s
          ⟨id, entrant.side, (second? (s.board.roster entrant.side.opponent)).toList, amount, false⟩
          (perform rules raise event (some id) (.splashDamage amount) s)) ∧
    (∀ room event s, Joined s (dispatchIn rules room event s).2 ∧ ∀ actor effect,
      Joined s (perform rules (dispatchIn rules room) event actor effect s).2) ∧
    ∀ teams b, Battle.Reachable rules teams b →
      (∃ joined taken, Played rules (Battle.ofTeams rules.config teams).arena joined taken b.arena ∧
        ∀ side, joined side = taken side ++ b.arena.waits side) ∧
      (∀ b', b.start rules = (.ok (), b') →
        (∀ side, b'.arena.waits side = []) ∨ b.state ≠ .notStarted ∧ b' = b) ∧
      (∀ state b', b.step rules = (.ok state, b') →
        (∀ side, b'.arena.waits side = []) ∨
          (∃ outcome, state = .finished outcome) ∧ b'.arena = b.arena) ∧
      (Battle.Sound rules teams b → ∀ side, b.arena.waits side = []) := by
  refine ⟨fun G hG room lines hits s hs => hitFree_followUps hG room lines hits hs,
    fun w hw room lines hits s hs => hw.followUps room lines hits hs,
    fun event he raise s id entrant hs => ⟨fun amount target => ?_, fun amount => ?_⟩,
    fun room event s => ⟨joined_dispatchIn rules room event s, fun actor effect => ?_⟩,
    fun teams b hb => ⟨?_, fun b' h => ?_, fun state b' h => ?_, fun sound => ?_⟩⟩
  · rw [perform_dealDamage]
    have loud := ((Event.isCalm_iff event).1 he.1).1
    exact asks_dealDamage he.isBattle loud hs amount target
  · rw [perform_splashDamage]
    exact asks_splashDamage he.isBattle hs amount
  · exact joined_perform rules room event actor effect s
  · obtain ⟨joined, taken, played⟩ := Battle.passed_of_reachable hb
    refine ⟨joined, taken, played, fun side => ?_⟩
    have balance := played.balance side
    rwa [Battle.waits_ofTeams] at balance
  · exact (Battle.waiting_of_start h).imp_left waits_of_waiting
  · exact (Battle.waiting_of_step h).imp_left waits_of_waiting
  · exact waits_of_waiting (Battle.waiting_of_sound sound)

/-- Fails where an effect answers a loud event. -/
def Wrapping.hushed : Wrapping where
  tell _ m := m
  act event _ _ m :=
    if event.trigger = .beforeAttack ∨ event.trigger = .startOfBattle then
      fail (.eventBudgetExceeded 0)
    else m
  fire _ _ _ _ m := m

theorem idle_hushed : Wrapping.hushed.Idle Event.CalmInBattle fun _ => True where
  tell _ _ _ _ _ _ := rfl
  act event _ _ _ s _ he _ _ := congrFun (if_neg ((Event.isCalm_iff event).1 he.1).1) s
  fire _ _ _ _ _ _ _ _ _ _ := rfl

/-- The effect itself makes pets change, other than with experience. -/
def Effect.AltersPets : Effect → Prop
  | modifyStats .. | applyStatus .. | reduceHealth .. | transferStats .. | transferAbility .. => True
  | _ => False

/-- After the exchange that failed one attack has joined the queue of the bramble and waits. No
follow-up in this battle answers a loud event, and none changes the health of a pet but with
experience. -/
theorem follow_ups_defer_damage_bramble :
    (∃ joined taken, Played brambleRules (Battle.ofTeams brambleRules.config brambleTeams).arena
      joined taken brambleBattle.2.arena ∧ joined .a = taken .a ++ [⟨⟨0⟩, .a, [⟨1⟩], 1, false⟩]) ∧
    (brambleBattle.2.state ≠ .notStarted ∧
      (brambleBattle.2.start brambleRules).2 = brambleBattle.2) ∧
    ∀ room lines hits,
      brambleBattle.2.arena.board.FollowsBy (HitFree brambleRules.catalog (¬ ·.AltersPets))
        (forEach hits (followUp (dispatchIn brambleRules room) lines)
          brambleBattle.2.arena).2.board ∧
      forEach hits (followUp (Wrapping.hushed.dispatchIn brambleRules room) lines)
          brambleBattle.2.arena =
        forEach hits (followUp (dispatchIn brambleRules room) lines) brambleBattle.2.arena := by
  obtain ⟨hitFree, contexts, _, _, calls⟩ := follow_ups_defer_damage brambleRules
  obtain ⟨⟨joined, taken, played, balance⟩, starts, _⟩ := calls brambleTeams _ reachable_bramble
  have wellFormed := Battle.wellFormed_of_reachable reachable_bramble
  have unchanged : brambleBattle.2.state ≠ .notStarted ∧
      (brambleBattle.2.start brambleRules).2 = brambleBattle.2 := by
    refine (starts _ start_bramble).resolve_left fun none => ?_
    have none := none .a
    rw [waits_bramble.2] at none
    cases none
  have defined : brambleRules.catalog.Every (¬ ·.AltersPets) := every_bramble id id id
  refine ⟨⟨joined, taken, played, ?_⟩, unchanged, fun room lines hits => ⟨?_, ?_⟩⟩
  · rw [balance .a, ← waits_bramble.2, unchanged.2]
  · exact hitFree _ defined room lines hits _ wellFormed
  · exact contexts _ idle_hushed room lines hits _ wellFormed

end AutoBattler
