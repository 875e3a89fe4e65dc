import AutoBattler.Proofs.Histories

/-!
# The side of a shop turn

A shop turn is played on side `a`. Of all effects only those that summon a pet for the enemy put one
on side `b`; where no effect does, that side stays empty whatever is called, and each effect that does
leaves a pet there in some turn.
-/
namespace AutoBattler

open Resolve

/-- The effect itself summons a pet for the enemy. -/
def Effect.Invites : Effect → Prop
  | summonPet _ team _ _ => team = .enemy
  | _ => False

namespace Board

variable {b b' : Board} {side : Side} {pet : Pet} {id new : PetId}

/-- All stored pets are of side `a`, and side `b` has none in line. -/
structure AtHome (b : Board) : Prop where
  wellFormed : b.WellFormed
  empty : b.roster .b = []
  home : ∀ id side, b.sideOf? id = some side → side = .a

theorem AtHome.modifyPet (h : b.AtHome) (id : PetId) (f : Pet → Pet) : (b.modifyPet id f).AtHome where
  wellFormed := h.wellFormed.modifyPet id f
  empty := h.empty
  home x side hx := by
    rw [sideOf?_modifyPet] at hx
    exact h.home x side hx

theorem Stores.home (h : b.AtHome) (hs : Stores b .a pet id b') (x : PetId) (side : Side)
    (hx : b'.sideOf? x = some side) : side = .a := by
  rw [hs.sideOf?] at hx
  split at hx
  · exact (Option.some.inj hx).symm
  · exact h.home x side hx

theorem AtHome.arrive (h : b.AtHome) (ha : Arrives b .a pet id b') : b'.AtHome where
  wellFormed := ha.wellFormed h.wellFormed
  empty := (ha.others .b nofun).trans h.empty
  home := ha.toStores.home h

/-- A pet that is exchanged stands on side `a`, so the new one does, too. -/
theorem AtHome.exchange (h : b.AtHome) (he : Exchanges b id side pet new b') : b'.AtHome := by
  obtain ⟨_, stands, _⟩ := he.line
  obtain rfl := h.home id side stands.home
  exact ⟨he.wellFormed h.wellFormed, (he.others .b nofun).trans h.empty, he.toStores.home h⟩

theorem AtHome.leave (h : b.AtHome) (hl : Leaves b id side b') : b'.AtHome where
  wellFormed := hl.wellFormed h.wellFormed
  empty := List.sublist_nil.1 (h.empty ▸ hl.sublist .b)
  home x s hx := by
    rw [hl.sideOf?] at hx
    exact h.home x s hx

theorem atHome_ofTeam (team : Team) : (ofTeam team).AtHome := by
  refine enlist_induction (B := AtHome) ⟨wellFormed_empty, rfl, fun id side hs => ?_⟩
    fun _ _ _ _ hb _ ha => hb.arrive ha
  have none : empty.sideOf? id = none := by simp [empty, sideOf?, entrant?]
  rw [none] at hs
  cases hs

end Board

/-! ## Turns in which nothing is summoned for the enemy -/

/-- Effects that summon nothing for the enemy, in answer to events of side `a`. -/
def homeScope : Scope where
  events event := event.isBattle = false ∧ event.cause = none ∧ event.side = .a
  effects e := ¬ e.Invites
  pets _ := True

namespace Resolve

variable {rules : Rules} {raise : Raise} {event : Event}

abbrev AtHome : Arena → Prop := BoardInvariant.holds Board.AtHome

/-- An arena in which no resolution fails that was at home. -/
abbrev stillHome : EngineError → Arena → Prop := fun _ => AtHome

/-- What is told in answer to events of side `a`: to this side, or to the roster of the other. -/
structure ToldAtHome (event : Event) : Prop where
  peaceful : event.isBattle = false
  uncaused : event.cause = none
  reach : event.side = .a ∨ event.snapshot = none

theorem covers_homeScope {c : Catalog} (h : c.Every fun e => ¬ e.Invites) : homeScope.Covers c where
  effects := h
  cause event cause he hc := by
    rw [he.2.1] at hc
    cases hc

theorem elementary_home (c : Catalog) : Elementary homeScope c (.same stillHome) (Same AtHome) :=
  BoardInvariant.elementary ⟨fun _ _ _ _ _ => trivial, fun _ hb f _ id => hb.modifyPet id f⟩
    fun _ _ _ hs => hs

/-- No request of the scope leads to the other side. -/
theorem side_of_destined {side : Side} (he : homeScope.events event)
    (h : Destined rules.catalog homeScope (Same AtHome) event side) : side = .a := by
  obtain ⟨request, s, _, actor, asked, ⟨rfl, hs⟩, rfl⟩ := h
  have friendly : request.team = .friendly := by
    cases asked with
    | named h =>
      rename_i kind team attack health
      cases team with
      | friendly => rfl
      | enemy => exact absurd rfl h
    | random => rfl
    | again => rfl
  have home : (actor.bind s.board.sideOf?).getD event.side = .a := by
    cases hside : actor.bind s.board.sideOf? with
    | none => exact he.2.2
    | some side =>
      obtain ⟨id, _, hid⟩ := Option.bind_eq_some_iff.1 hside
      exact hs.home id side hid
  unfold Summons.side
  rw [friendly, home]

theorem acting_home (hr : ∀ event, ToldAtHome event → Triple stillHome AtHome (raise event) fun _ => AtHome) :
    Acting homeScope rules rules raise raise (.same stillHome) (Same AtHome) where
  play event he hb := by
    rw [he.1] at hb
    cases hb
  teach event he amount target _ id := by
    refine keeps_teach (elementary_home rules.catalog) (fun _ => ?_) (fun level => ?_)
      fun side => hr _ ⟨he.1, rfl, .inr rfl⟩
    · exact Triple.intro fun s hs => Board.AtHome.modifyPet hs id _
    · exact Triple.intro fun s hs => Board.AtHome.modifyPet hs id _
  bringIn event he pet _ side destined placement copies := by
    obtain rfl := side_of_destined he destined
    exact keeps_bringIn (triple_spawn (fun s hs id b ha => Board.AtHome.arrive hs ha) placement)
      (fun id => hr _ ⟨he.1, rfl, .inr rfl⟩) copies
  evolve into kind _ _ id := triple_replace fun s hs side new b he => Board.AtHome.exchange hs he

theorem telling_home (hr : ∀ event, ToldAtHome event → Triple stillHome AtHome (raise event) fun _ => AtHome) :
    Telling homeScope rules rules raise raise (.same stillHome) (Same AtHome) where
  toActing := acting_home hr
  cast event he hb := by
    rw [he.1] at hb
    cases hb

theorem guarding_home (rules : Rules) : Guarding rules rules (.same stillHome) (Same AtHome) :=
  BoardInvariant.guarding rules (fun _ _ _ hs => hs) fun _ _ _ hs => hs

/-- The line of the other side is empty, so nothing answers what it is told. -/
theorem home_notifyAll_of_empty (hs : event.snapshot = none) (hb : event.side = .b) {act : Act} :
    Triple stillHome AtHome (notifyAll rules raise act event) fun _ => AtHome := by
  have guarding := guarding_home rules
  refine Couples.bind (Q := fun line => Same fun s => AtHome s ∧ line = []) ?_ fun line => ?_
  · refine Triple.intro fun s home => ⟨home, ?_⟩
    rw [hs, hb]
    exact home.empty
  · cases line with
    | nil =>
      refine Triple.weaken (I := AtHome) ?_ (fun _ _ he => he) (fun s hs => hs.1) fun _ _ hs => hs
      refine Couples.bind (Q := fun _ => Same AtHome) (Triple.intro fun _ hs => hs) fun depth => ?_
      refine Couples.bind (guarding.record _) fun slot => ?_
      exact Couples.bind (keeps_pure _) fun ids => guarding.notified slot ids
    | cons id rest =>
      constructor
      rintro s t ⟨_, _, hcons⟩
      cases hcons

/-- By induction on the room for nesting. -/
theorem home_dispatchIn (hc : rules.catalog.Every fun e => ¬ e.Invites) (room : Nat)
    (he : ToldAtHome event) :
    Triple stillHome AtHome (dispatchIn rules room event) fun _ => AtHome := by
  have guarding := guarding_home rules
  induction room generalizing event with
  | zero => exact ⟨guarding.refuse event.trigger⟩
  | succ room ih =>
    refine Couples.bind guarding.count fun _ => guarding.nested _ _ ?_
    cases hside : event.side with
    | a =>
      have telling : Telling homeScope rules rules (dispatchIn rules room) (dispatchIn rules room)
          (.same stillHome) (Same AtHome) := telling_home fun event he => ih he
      have elementary := elementary_home rules.catalog
      have covers := covers_homeScope hc
      exact keeps_notifyAll elementary telling covers rfl (acts_perform elementary telling covers rfl)
        guarding.toRecording ⟨he.peaceful, he.uncaused, hside⟩
    | b =>
      refine home_notifyAll_of_empty (he.reach.resolve_left ?_) hside
      rw [hside]
      exact nofun

end Resolve

namespace PurchasePhase

variable {rules : Rules} {team : Team} {shop : Shop} {p : PurchasePhase}

theorem turnSteps_home (hc : rules.catalog.Every fun e => ¬ e.Invites) :
    TurnSteps rules (fun _ => True) stillHome AtHome where
  tell _ he _ := home_dispatchIn hc _ ⟨he.peaceful, he.uncaused, .inl he.side⟩
  perform event he _ _ hf :=
    keeps_perform (elementary_home rules.catalog) (acting_home fun _ => home_dispatchIn hc _)
      (covers_homeScope hc) rfl event ⟨he.peaceful, he.uncaused, he.side⟩ none _
      (hc _ (offers_food hf))
  remove _ := triple_remove fun _ hs _ _ hl => Board.AtHome.leave hs hl
  stored _ hs _ hm := Board.WellFormed.pet?_of_mem hs.wellFormed hm
  pay _ _ hs := hs

theorem home_call (hc : rules.catalog.Every fun e => ¬ e.Invites) (hp : AtHome p.arena) (c : Call) :
    AtHome (p.call rules c).2.arena := by
  have spawned : c.Brings fun pet => ∀ placement,
      Triple stillHome AtHome (spawn .a pet placement) fun _ => AtHome := by
    cases c with
    | placePet pet index tierOne afterLoss =>
      exact triple_spawn fun s hs id b ha => Board.AtHome.arrive hs ha
    | _ => trivial
  have ends := keeps_call (turnSteps_home hc) (fun _ _ hs => hs) c (fun _ _ => trivial) spawned hp
  cases hr : (p.call rules c).1 with
  | ok x => exact ends.1 hr
  | error e => exact ends.2 e hr

theorem home_of_reachable (hc : rules.catalog.Every fun e => ¬ e.Invites)
    (h : Reachable rules team shop (fun _ => True) p) : p.arena.board.AtHome := by
  induction h with
  | new => exact Board.atHome_ofTeam team
  | call _ c _ ih => exact home_call hc ih c

end PurchasePhase

/-! ## A food that summons for the enemy -/

namespace Resolve

variable {rules : Rules} {raise : Raise} {event : Event} {s : Arena} {kind : PetKind}

/-- A pet of side `b` is stored. -/
structure Visited (s : Arena) : Prop where
  wellFormed : s.board.WellFormed
  guest : ∃ id, s.board.sideOf? id = some .b

/-- Stored pets stay on their side. -/
theorem visited_dispatch (rules : Rules) (event : Event) :
    Triple (fun _ => Visited) Visited (dispatch rules event) fun _ => Visited := by
  refine Triple.intro fun s hs => ends_always.2 ?_
  obtain ⟨ops, _, later⟩ :=
    (follows_of_wellFormed rules rules.config.maxDispatchDepth event hs.wellFormed).1
  obtain ⟨wellFormed, precedes⟩ := hs.wellFormed.after ops
  obtain ⟨id, hid⟩ := hs.guest
  have later : (dispatch rules event s).2.board = s.board.after ops := later
  refine ⟨?_, id, ?_⟩
  · rw [later]
    exact wellFormed
  · rw [later]
    exact precedes.side id .b hid

/-- With nobody on side `b` there is room for a guest. -/
theorem visited_summon (hs : AtHome s) (he : event.side = .a) (request : Summons)
    (ht : request.team = .enemy) (hk : rules.catalog.petKind request.kind = .ok kind) :
    Ends (fun _ => Visited) (fun _ => Visited)
      (summon rules (dispatch rules) event none request s) := by
  have plain : summon rules (dispatch rules) event none request s =
      bringIn (dispatch rules) event .b (request.pet kind) .front 1 s := by
    have side : request.side event.side = .b := by
      unfold Summons.side
      rw [ht, he]
      rfl
    have rule : SummonRule.of? none request.kind request.team = none := by
      unfold SummonRule.of?
      rw [ht]
      rfl
    simp only [summon, bind_run, ofExcept, board, look, Option.bind_none, Option.map_none,
      Option.getD_none, hk, rule, side]
  have room : s.board.canAdd .b = true := by
    unfold Board.canAdd Board.livePets
    rw [hs.empty]
    rfl
  obtain ⟨r, hr⟩ : ∃ r, s.board.spawn? .b (request.pet kind) .front = some r := by
    unfold Board.spawn?
    rw [if_pos room]
    exact ⟨_, rfl⟩
  have arrives := Board.arrives_of_spawn? hr
  have guest : r.2.sideOf? r.1 = some .b := by rw [arrives.toStores.sideOf?, if_pos rfl]
  have spawned : Ends (fun _ => Visited) (fun _ => Visited)
      (spawn .b (request.pet kind) .front s) := by
    unfold spawn
    rw [hr]
    exact ⟨arrives.wellFormed hs.wellFormed, r.1, guest⟩
  have copied : Ends (fun _ => Visited) (fun _ => Visited)
      (spawnCopies .b (request.pet kind) .front 1 s) := spawned.bind fun _ _ ht => ht
  rw [plain]
  refine copied.bind fun ids t ht => ?_
  exact (triple_iff.1 (keeps_forEach ids fun id _ => visited_dispatch rules _) t ht).bind fun _ _ h => h

end Resolve

/-- A food that performs the effect. -/
def treat (e : Effect) : Food := ⟨⟨"food-treat"⟩, "food-treat", 1, 3, ⟨"", .buy, .player, e, none⟩⟩

/-- A kind without abilities under the name. -/
def guest (id : PetKindId) : PetKind := ⟨id, id.text, 1, 1, 1, [], none, none, none⟩

def treatRules (config : EngineConfig) (id : PetKindId) (e : Effect) : Rules :=
  ⟨.ofLists [guest id] [] [treat e], config⟩

theorem every_treatRules {config : EngineConfig} {id : PetKindId} {e : Effect} {P : Effect → Prop}
    (h : e.Every P) : (treatRules config id e).catalog.Every P := by
  apply Catalog.every_ofLists
  · intro kind hm ability ha
    rw [List.mem_singleton.1 hm] at ha
    simp [guest] at ha
  · exact fun status hm => absurd hm List.not_mem_nil
  · intro food hm
    rw [List.mem_singleton.1 hm]
    exact h

namespace PurchasePhase

/-- The turn of a team of one such pet. -/
def treatTurn (config : EngineConfig) (id : PetKindId) : PurchasePhase :=
  ofTeam config (.ofPets [.ofKind (guest id)]) (.ofGold startingGold)

/-- Feeding it lets a guest in, whatever the answers to that are. -/
theorem visited_treat (config : EngineConfig) (id : PetKindId) (attack health : Option Int) :
    Visited ((treatTurn config id).call (treatRules config id (.summonPet id .enemy attack health))
      (.feed ⟨"food-treat"⟩ 0)).2.arena := by
  let e : Effect := .summonPet id .enemy attack health
  let rules := treatRules config id e
  let s := (treatTurn config id).arena
  have food : rules.catalog.food ⟨"food-treat"⟩ = .ok (treat e) :=
    Catalog.food_eq_ok.2 Std.ExtTreeMap.getElem?_insert_self
  have kind : rules.catalog.petKind id = .ok (guest id) :=
    Catalog.petKind_eq_ok.2 Std.ExtTreeMap.getElem?_insert_self
  have first : petAt 0 s = (.ok ⟨0⟩, s) := rfl
  have home : AtHome s := Board.atHome_ofTeam (.ofPets [.ofKind (guest id)])
  have summoned : Ends (fun _ => Visited) (fun _ => Visited)
      (perform rules (dispatch rules) ((Event.purchase .buy).withPurchase ⟨0⟩ ⟨"food-treat"⟩) none e s) :=
    visited_summon home rfl ⟨id, .enemy, attack, health, none⟩ rfl kind
  have fed : Ends (fun _ => Visited) (fun _ => Visited)
      (Resolve.feed rules (procedures rules) ⟨"food-treat"⟩ 0 s) := by
    unfold Resolve.feed
    rw [food, bind_run]
    dsimp only [Resolve.ofExcept]
    rw [bind_run, first]
    refine summoned.bind fun affected t ht => ?_
    have told := keeps_forEach affected fun pet _ => visited_dispatch rules
      (((Event.purchase .buy).withPurchase ⟨0⟩ ⟨"food-treat"⟩).followUp .eatsShopFood .a pet)
    exact (triple_iff.1 told t ht).bind fun _ _ h => h
  rw [(call_eq rules (treatTurn config id) (.feed ⟨"food-treat"⟩ 0)).2]
  exact ends_always.1 (fed.bind fun _ _ h => h)

/-- Whatever turn is played over such effects, side `b` stays empty, and no pet of it is stored. -/
def KeepsHome (config : EngineConfig) (effects : Effect → Prop) : Prop :=
  ∀ (catalog : Catalog) (team : Team) (shop : Shop) (p : PurchasePhase), catalog.Every effects →
    Reachable ⟨catalog, config⟩ team shop (fun _ => True) p →
    p.arena.board.roster .b = [] ∧ ∀ id, p.arena.board.sideOf? id ≠ some .b

/-- Side `b` stays empty exactly where no effect summons a pet for the enemy. -/
theorem side_b_stays_empty_iff_nothing_invites (config : EngineConfig) (effects : Effect → Prop) :
    KeepsHome config effects ↔ ∀ e, effects e → ¬ e.Invites := by
  constructor
  · rintro keeps e he hinvites
    obtain ⟨id, attack, health, rfl⟩ : ∃ id attack health, e = .summonPet id .enemy attack health := by
      cases e with
      | summonPet id team attack health =>
        cases hinvites
        exact ⟨id, attack, health, rfl⟩
      | _ => exact absurd hinvites id
    let rules := treatRules config id (.summonPet id .enemy attack health)
    let turn := treatTurn config id
    have reached : Reachable rules (.ofPets [.ofKind (guest id)]) (.ofGold startingGold)
        (fun _ => True) (turn.call rules (.feed ⟨"food-treat"⟩ 0)).2 := .call .new _ trivial
    have permitted : rules.catalog.Every effects := every_treatRules ⟨he, trivial⟩
    have kept := keeps rules.catalog _ _ _ permitted reached
    obtain ⟨x, hx⟩ := (visited_treat config id attack health).guest
    exact kept.2 x hx
  · intro uninvited catalog team shop p hevery h
    have home := home_of_reachable (fun ability ha => (hevery ability ha).imp uninvited) h
    exact ⟨home.empty, fun id hid => absurd (home.home id .b hid) nofun⟩

/-! ## The rat -/

/-- When it faints it leaves a dirty rat to the enemy. -/
def rat : PetKind :=
  ⟨⟨"pet-rat"⟩, "pet-rat", 2, 4, 5, [],
    some ⟨"", .faint, .self, .summonPet ⟨"pet-dirty-rat"⟩ .enemy none none, none⟩, none, none⟩

def ratRules : Rules := ⟨.ofLists [rat, guest ⟨"pet-dirty-rat"⟩] [] [], {}⟩

/-- The turn of a team of one rat, in which it is told to faint. -/
def ratTurn : Except EngineError Unit × PurchasePhase :=
  (ofTeam ratRules.config (.ofPets [.ofKind rat]) (.ofGold startingGold)).trigger ratRules .faint (some 0)

theorem enemy_of_rat_stands_on_side_b :
    ratTurn.1 = .ok () ∧ ratTurn.2.arena.board.roster .b = [⟨1⟩] ∧
      ratTurn.2.arena.board.sideOf? ⟨1⟩ = some .b := by
  decide +kernel

end PurchasePhase

end AutoBattler
