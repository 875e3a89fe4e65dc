import AutoBattler.Proofs.Casting
import AutoBattler.Proofs.HomeSide
import AutoBattler.Proofs.Writeback

/-!
# Placing a pet

A pet that finds no room is refused, and nothing changes. One that is placed is announced before its
place is looked up; if an answer has put another pet in its place, the reply is that of a refusal.
Only an effect that evolves does that.
-/
namespace AutoBattler

open Resolve

/-- The effect itself puts another pet in the place of its actor. -/
def Effect.Evolving : Effect → Prop
  | evolve _ => True
  | _ => False

namespace Board

variable {b b' : Board} {side : Side} {pet : Pet} {id new : PetId}

theorem Arrives.mem_of_mem (h : Arrives b side pet new b') {s : Side} (hm : id ∈ b.roster s) :
    id ∈ b'.roster s := by
  by_cases hs : s = side
  · subst hs
    exact h.perm.mem_iff.2 (List.mem_cons_of_mem new hm)
  · rwa [h.others s hs]

theorem Arrives.self_mem (h : Arrives b side pet id b') : id ∈ b'.roster side :=
  h.perm.mem_iff.2 List.mem_cons_self

theorem canAdd_iff_spawn? (placement : Placement) :
    b.canAdd side = true ↔ ∃ r, b.spawn? side pet placement = some r := by
  unfold spawn?
  split
  · rename_i hroom
    exact ⟨fun _ => ⟨_, rfl⟩, fun _ => hroom⟩
  · rename_i hfull
    exact ⟨fun hroom => absurd hroom hfull, nofun⟩

/-- A pet of side `a` has the place at which its roster lists it. -/
theorem WellFormed.position?_eq_some_iff (h : b.WellFormed) (hs : b.sideOf? id = some side)
    {index : Nat} : b.position? id = some index ↔ (b.roster side)[index]? = some id :=
  ⟨fun hp => (stands_of_position? hs hp).place, fun hi => Stands.position? h ⟨hs, hi⟩⟩

theorem WellFormed.position?_eq_none_iff (h : b.WellFormed) (hs : b.sideOf? id = some side) :
    b.position? id = none ↔ id ∉ b.roster side := by
  rw [Option.eq_none_iff_forall_ne_some, List.mem_iff_getElem?, not_exists]
  exact forall_congr' fun index => not_congr (h.position?_eq_some_iff hs)

/-- The pet stands on side `a`. -/
structure Hosts (id : PetId) (b : Board) : Prop where
  wellFormed : b.WellFormed
  stands : id ∈ b.roster .a

theorem Hosts.arrive (h : Hosts id b) (ha : Arrives b side pet new b') : Hosts id b' :=
  ⟨ha.wellFormed h.wellFormed, ha.mem_of_mem h.stands⟩

theorem Hosts.modifyPet (h : Hosts id b) (x : PetId) (f : Pet → Pet) : Hosts id (b.modifyPet x f) :=
  ⟨h.wellFormed.modifyPet x f, h.stands⟩

end Board

/-! ## Turns in which no pet evolves -/

namespace Resolve

variable {rules : Rules} {raise : Raise} {event : Event} {id : PetId}

/-- Effects that let no pet evolve, in answer to events of the shop turn. -/
def steadyScope : Scope := ⟨shopScope.events, fun e => ¬ e.Evolving, fun _ => True⟩

theorem covers_steadyScope {c : Catalog} (h : c.Every fun e => ¬ e.Evolving) : steadyScope.Covers c where
  effects := h
  cause := (covers_shopScope c).cause

abbrev Hosts (id : PetId) : Arena → Prop := BoardInvariant.holds (Board.Hosts id)

theorem elementary_hosts (id : PetId) (c : Catalog) :
    Elementary steadyScope c (.same anyway) (Same (Hosts id)) :=
  BoardInvariant.elementary ⟨fun _ _ _ _ _ => trivial, fun _ hb f _ x => hb.modifyPet x f⟩
    fun _ _ _ _ => trivial

theorem telling_hosts {raise' : Raise} (hr : ∀ event, shopScope.events event →
      Keeps (.same anyway) (Same (Hosts id)) (raise event) (raise' event)) :
    Telling steadyScope rules rules raise raise' (.same anyway) (Same (Hosts id)) where
  play event he hb := by
    rw [he.1] at hb
    cases hb
  teach event he amount target _ x := by
    refine keeps_teach (elementary_hosts id rules.catalog) (fun _ => ?_) (fun level => ?_)
      fun side => hr _ ⟨he.1, rfl⟩
    · exact Triple.intro fun s hs => Board.Hosts.modifyPet hs x _
    · exact Triple.intro fun s hs => Board.Hosts.modifyPet hs x _
  bringIn event he pet _ side _ placement copies :=
    keeps_bringIn (triple_spawn (fun s hs _ b ha => Board.Hosts.arrive hs ha) placement)
      (fun _ => hr _ ⟨he.1, rfl⟩) copies
  evolve into kind hs _ _ := absurd trivial hs
  cast event he hb := by
    rw [he.1] at hb
    cases hb

/-- What is told in a turn in which no pet evolves leaves every pet of side `a` in line. -/
theorem hosts_dispatchIn (hc : rules.catalog.Every fun e => ¬ e.Evolving) (id : PetId) (room : Nat)
    (he : shopScope.events event) :
    Triple anyway (Hosts id) (dispatchIn rules room event) fun _ => Hosts id := by
  have guarding : Guarding rules rules (.same anyway) (Same (Hosts id)) :=
    BoardInvariant.guarding rules (fun _ _ _ _ => trivial) fun _ _ _ _ => trivial
  exact keeps_dispatchIn_of_telling (elementary_hosts id rules.catalog) guarding
    (covers_steadyScope hc) rfl (fun _ _ => telling_hosts) room he

end Resolve

/-! ## Placements -/

namespace PurchasePhase

variable {rules : Rules} {team : Team} {shop : Shop} {p : PurchasePhase}

/-- Tells of a pet that was bought. -/
def announce (rules : Rules) (id : PetId) (tierOne afterLoss : Bool) : Resolve Unit :=
  forEach (purchaseTriggers tierOne afterLoss) fun trigger =>
    dispatch rules ((Event.purchase trigger).withSource id)

/-- The reply of a placement when the pet was announced. -/
def settled (team : Team) (id : PetId) :
    Except EngineError Unit × Arena → Except EngineError (Option Nat) × PurchasePhase
  | (.ok _, s) => (.ok (s.board.position? id), ⟨s, { team with pets := s.board.livePets .a }⟩)
  | (.error e, s) => (.error e, ⟨s, team⟩)

/-- Puts the pet in a place that was chosen, announces it and looks its place up. -/
def placeAt (rules : Rules) (pet : Pet) (placement : Placement) (tierOne afterLoss : Bool) :
    Resolve (Option Nat) := do
  match ← spawn .a pet placement with
  | none => pure none
  | some id => do
    announce rules id tierOne afterLoss
    look (·.board.position? id)

theorem play_placeAt (rules : Rules) (hroom : p.arena.board.canAdd .a = true) (pet : Pet)
    (placement : Placement) (tierOne afterLoss : Bool) :
    ∃ b, p.arena.board.Arrives .a pet ⟨p.arena.board.nextId⟩ b ∧
      p.play (placeAt rules pet placement tierOne afterLoss) = settled p.team ⟨p.arena.board.nextId⟩
        (announce rules ⟨p.arena.board.nextId⟩ tierOne afterLoss { p.arena with board := b }) := by
  obtain ⟨⟨id, b⟩, hspawn⟩ := (Board.canAdd_iff_spawn? placement).1 hroom
  have arrives := Board.arrives_of_spawn? hspawn
  obtain rfl := arrives.number
  refine ⟨b, arrives, ?_⟩
  unfold play placeAt
  rw [bind_run]
  unfold Resolve.spawn
  rw [hspawn]
  dsimp only
  rw [bind_run]
  generalize announce rules _ tierOne afterLoss _ = q
  obtain ⟨r, s⟩ := q
  cases r <;> rfl

/-- With room, the new pet has the next number, and its place is looked up when it was announced. -/
theorem placePet_of_canAdd (rules : Rules) (hroom : p.arena.board.canAdd .a = true) (pet : Pet)
    (index : Option Nat) (tierOne afterLoss : Bool) :
    ∃ b, p.arena.board.Arrives .a pet ⟨p.arena.board.nextId⟩ b ∧
      p.placePet rules pet index tierOne afterLoss = settled p.team ⟨p.arena.board.nextId⟩
        (announce rules ⟨p.arena.board.nextId⟩ tierOne afterLoss { p.arena with board := b }) := by
  unfold placePet
  rw [if_pos hroom]
  cases index with
  | none => exact play_placeAt rules hroom pet .front tierOne afterLoss
  | some i => exact play_placeAt rules hroom pet (.at i) tierOne afterLoss

theorem led_announce (rules : Rules) {s : Arena} (h : s.board.WellFormed) (id : PetId)
    (tierOne afterLoss : Bool) :
    s.board.Led (announce rules id tierOne afterLoss s).2.board :=
  led_forEach_dispatchIn rules _ _ (fun trigger => (Event.purchase trigger).withSource id) h

/-- What placing a pet for which there is room comes to. -/
structure Placed (rules : Rules) (p : PurchasePhase) (pet : Pet) (tierOne afterLoss : Bool)
    (r : Except EngineError (Option Nat) × PurchasePhase) (id : PetId) (b : Board) : Prop where
  arrives : p.arena.board.Arrives .a pet id b
  announced : (r.1.map fun _ => (), r.2.arena) =
    announce rules id tierOne afterLoss { p.arena with board := b }
  found : ∀ i, r.1 = .ok (some i) → r.2.Current ∧ (r.2.arena.board.roster .a)[i]? = some id ∧
    ∃ placed, r.2.arena.board.pet? id = some placed ∧ r.2.team.pets[i]? = some placed
  lost : r.1 = .ok none → r.2.Current ∧ id ∉ r.2.arena.board.roster .a

theorem placed_of_settled {pet : Pet} {tierOne afterLoss : Bool} {id : PetId} {b : Board}
    (arrives : p.arena.board.Arrives .a pet id b) {q : Except EngineError Unit × Arena}
    (hq : announce rules id tierOne afterLoss { p.arena with board := b } = q)
    (hw : q.2.board.WellFormed) (home : q.2.board.sideOf? id = some .a) :
    Placed rules p pet tierOne afterLoss (settled p.team id q) id b := by
  obtain ⟨r, s⟩ := q
  cases r with
  | error e => exact ⟨arrives, hq.symm, nofun, nofun⟩
  | ok x =>
    have current : (settled p.team id (.ok x, s)).2.Current := (current_iff hw).2 rfl
    refine ⟨arrives, hq.symm, fun i hi => ?_, fun hn => ⟨current, ?_⟩⟩
    · have stands : (s.board.roster .a)[i]? = some id :=
        (hw.position?_eq_some_iff home).1 (Except.ok.inj hi)
      obtain ⟨placed, hplaced⟩ := hw.pet?_of_mem (List.mem_of_getElem? stands)
      refine ⟨current, stands, placed, hplaced, ?_⟩
      have listed := congrArg (·[i]?) (hw.map_livePets .a)
      simp only [List.getElem?_map, stands, Option.map_some, hplaced] at listed
      obtain ⟨found, hfound, same⟩ := Option.map_eq_some_iff.1 listed
      exact hfound.trans same
    · exact (hw.position?_eq_none_iff home).1 (Except.ok.inj hn)

theorem placed_of_canAdd (rules : Rules) (h : p.arena.board.WellFormed)
    (hroom : p.arena.board.canAdd .a = true) (pet : Pet) (index : Option Nat) (tierOne afterLoss : Bool) :
    ∃ b, Placed rules p pet tierOne afterLoss (p.placePet rules pet index tierOne afterLoss)
      ⟨p.arena.board.nextId⟩ b := by
  obtain ⟨b, arrives, run⟩ := placePet_of_canAdd rules hroom pet index tierOne afterLoss
  have entered := arrives.wellFormed h
  have led := led_announce rules (s := { p.arena with board := b }) entered
    ⟨p.arena.board.nextId⟩ tierOne afterLoss
  obtain ⟨ops, _, later⟩ := led.follows
  refine ⟨b, ?_⟩
  rw [run]
  refine placed_of_settled arrives rfl led.wellFormed ?_
  rw [later]
  refine (entered.after ops).2.side _ _ ?_
  rw [arrives.toStores.sideOf?, if_pos rfl]

/-! ## Where a refusal is told by the reply -/

theorem hosts_announce (hc : rules.catalog.Every fun e => ¬ e.Evolving) (id : PetId)
    (tierOne afterLoss : Bool) :
    Triple anyway (Hosts id) (announce rules id tierOne afterLoss) fun _ => Hosts id := by
  refine keeps_forEach _ fun trigger _ => ?_
  exact hosts_dispatchIn hc id _ ⟨rfl, rfl⟩

/-- Where nothing evolves, a pet that is placed has its place when it was announced. -/
theorem placePet_ne_none (hc : rules.catalog.Every fun e => ¬ e.Evolving)
    (h : p.arena.board.WellFormed) (hroom : p.arena.board.canAdd .a = true) (pet : Pet)
    (index : Option Nat) (tierOne afterLoss : Bool) :
    (p.placePet rules pet index tierOne afterLoss).1 ≠ .ok none := by
  obtain ⟨b, placed⟩ := placed_of_canAdd rules h hroom pet index tierOne afterLoss
  intro hn
  have announced := placed.announced
  rw [hn] at announced
  have hosts := (hosts_announce hc ⟨p.arena.board.nextId⟩ tierOne afterLoss).ok
    (s := { p.arena with board := b }) ⟨placed.arrives.wellFormed h, placed.arrives.self_mem⟩
    announced.symm
  exact (placed.lost hn).2 hosts.stands

/-- Whatever pet is placed in whatever turn over effects of these forms, the reply says whether
there was room. -/
def RepliesTellRoom (forms : Nat → Prop) : Prop :=
  ∀ (rules : Rules) (team : Team) (shop : Shop) (p : PurchasePhase),
    (rules.catalog.Every fun e => forms e.form) → Reachable rules team shop (fun _ => True) p →
    ∀ pet index tierOne afterLoss, (p.placePet rules pet index tierOne afterLoss).1 = .ok none ↔
      p.arena.board.canAdd .a = false

/-! ## A pet that evolves when it is bought -/

def moth : PetKind := guest ⟨"pet-moth"⟩

/-- When it is bought it becomes a moth. -/
def pupa : PetKind :=
  ⟨⟨"pet-pupa"⟩, "pet-pupa", 1, 1, 1, [], some ⟨"", .buy, .self, .evolve ⟨"pet-moth"⟩, none⟩, none, none⟩

def pupaRules : Rules := ⟨.ofLists [pupa, moth] [] [], {}⟩

/-- The turn of a player who has no pets. -/
def firstTurn : PurchasePhase := ofTeam pupaRules.config .empty (.ofGold startingGold)

/-- It is bought as the first pet. -/
def pupaPlacement : Except EngineError (Option Nat) × PurchasePhase :=
  firstTurn.placePet pupaRules (.ofKind pupa) none false false

theorem pupa_has_evolved : firstTurn.arena.board.canAdd .a = true ∧ pupaPlacement.1 = .ok none := by
  decide +kernel

theorem every_pupaRules {forms : Nat → Prop} (h : forms (Effect.evolve ⟨"pet-moth"⟩).form) :
    pupaRules.catalog.Every fun e => forms e.form := by
  apply Catalog.every_ofLists
  · intro kind hm ability ha
    simp only [List.mem_cons, List.not_mem_nil, or_false] at hm
    rcases hm with rfl | rfl
    · simp only [pupa, List.mem_cons, Option.some.injEq, reduceCtorEq, List.not_mem_nil,
        or_false] at ha
      subst ha
      exact ⟨h, trivial⟩
    · simp [moth, guest] at ha
  · exact fun _ hm => absurd hm List.not_mem_nil
  · exact fun _ hm => absurd hm List.not_mem_nil

theorem repliesTellRoom_iff (forms : Nat → Prop) :
    RepliesTellRoom forms ↔ ∀ e : Effect, forms e.form → ¬ e.Evolving := by
  constructor
  · intro tells e he hevolving
    cases e with
    | evolve into =>
      obtain ⟨hroom, hnone⟩ := pupa_has_evolved
      have full := (tells pupaRules .empty (.ofGold startingGold) firstTurn (every_pupaRules he) .new
        (.ofKind pupa) none false false).1 hnone
      rw [hroom] at full
      cases full
    | _ => exact hevolving
  · intro steady rules team shop p hevery h pet index tierOne afterLoss
    have wellFormed := wellFormed_of_reachable h
    constructor
    · intro hn
      rw [← Bool.not_eq_true]
      intro hroom
      exact placePet_ne_none (fun ability ha => (hevery ability ha).imp steady) wellFormed hroom pet
        index tierOne afterLoss hn
    · intro hfull
      unfold placePet
      rw [hfull]
      rfl

/-! ## Every placement -/

/-- A team that is current has room exactly if its board has. -/
theorem Current.canAdd_eq (hw : p.arena.board.WellFormed) (h : p.Current) :
    p.team.canAdd = p.arena.board.canAdd .a := by
  unfold Team.canAdd Board.canAdd
  rw [(current_iff hw).1 h]

/-- A pet for which there is no room is refused and the phase stays as it is. With room it gets the
next number and is announced; if all answers succeed the team is current, and the reply is the index
at which the team lists the pet as the announcements left it, or is that of a refusal if another pet
stands in its place. The reply tells whether there was room exactly over forms of effects that let no
pet evolve. -/
theorem placement_is_refused_without_room_or_evolves (rules : Rules) (team : Team) (shop : Shop)
    (p : PurchasePhase) (h : Reachable rules team shop (fun _ => True) p) (pet : Pet)
    (index : Option Nat) (tierOne afterLoss : Bool) :
    (p.Current → p.team.canAdd = p.arena.board.canAdd .a) ∧
    (p.arena.board.canAdd .a = false →
      p.placePet rules pet index tierOne afterLoss = (.ok none, p)) ∧
    (p.arena.board.canAdd .a = true → ∃ b, Placed rules p pet tierOne afterLoss
      (p.placePet rules pet index tierOne afterLoss) ⟨p.arena.board.nextId⟩ b) ∧
    ∀ forms : Nat → Prop, RepliesTellRoom forms ↔ ∀ e : Effect, forms e.form → ¬ e.Evolving := by
  have wellFormed := wellFormed_of_reachable h
  refine ⟨fun current => current.canAdd_eq wellFormed, fun hfull => ?_, fun hroom => ?_,
    repliesTellRoom_iff⟩
  · unfold placePet
    rw [hfull]
    rfl
  · exact placed_of_canAdd rules wellFormed hroom pet index tierOne afterLoss

/-- The pupa is announced and has left its place; over its effect the replies do not tell whether
there was room. -/
theorem placement_is_refused_without_room_or_evolves_pupa :
    ⟨0⟩ ∉ pupaPlacement.2.arena.board.roster .a ∧ pupaPlacement.2.Current ∧
      ¬ RepliesTellRoom (· = (Effect.evolve ⟨"pet-moth"⟩).form) := by
  obtain ⟨_, _, placed, tells⟩ := placement_is_refused_without_room_or_evolves pupaRules .empty
    (.ofGold startingGold) firstTurn .new (.ofKind pupa) none false false
  obtain ⟨hroom, hnone⟩ := pupa_has_evolved
  have next : firstTurn.arena.board.nextId = 0 := by decide +kernel
  obtain ⟨b, placed⟩ := placed hroom
  rw [next] at placed
  have placed : Placed pupaRules firstTurn (.ofKind pupa) false false pupaPlacement ⟨0⟩ b := placed
  obtain ⟨current, off⟩ := placed.lost hnone
  exact ⟨off, current, fun h => (tells _).1 h (.evolve ⟨"pet-moth"⟩) rfl trivial⟩

/-- There was room for the pupa and the team has changed, and the reply is that of a refusal. -/
theorem placed_pet_is_reported_as_refused :
    firstTurn.arena.board.canAdd .a = true ∧ pupaPlacement.1 = .ok none ∧
      firstTurn.team.pets = [] ∧ pupaPlacement.2.team.pets = [.ofKind moth] := by
  decide +kernel

end PurchasePhase

end AutoBattler
