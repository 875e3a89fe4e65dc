import AutoBattler.Proofs.Teaching
import AutoBattler.Proofs.Writeback

/-!
# Bounds of stats and levels

Whatever writes attack, health, a level or a borrowed level clamps it first, so pets that come within
the bounds stay within them: in line, fainted, in the team, on offer in the shop, and after the end of
the battle. Nothing takes experience away but a point that finds the range of experience used up.
-/
namespace AutoBattler

open Resolve (copyStats reduceHealth)

namespace Pet

/-- Stats between zero and fifty, levels between one and three, also of a borrowed ability. -/
structure Bounded (p : Pet) : Prop where
  attack : 0 ≤ p.attack ∧ p.attack ≤ 50
  health : 0 ≤ p.health ∧ p.health ≤ 50
  level : 1 ≤ p.level ∧ p.level ≤ 3
  borrowed : ∀ ability ∈ p.borrowed, 1 ≤ ability.level ∧ ability.level ≤ 3

theorem bounded_iff (p : Pet) : p.Bounded ↔ (0 ≤ p.attack ∧ p.attack ≤ 50) ∧
    (0 ≤ p.health ∧ p.health ≤ 50) ∧ (1 ≤ p.level ∧ p.level ≤ 3) ∧
    ∀ ability ∈ p.borrowed, 1 ≤ ability.level ∧ ability.level ≤ 3 :=
  ⟨fun h => ⟨h.attack, h.health, h.level, h.borrowed⟩, fun h => ⟨h.1, h.2.1, h.2.2.1, h.2.2.2⟩⟩

instance (p : Pet) : Decidable p.Bounded := decidable_of_iff' _ (bounded_iff p)

theorem clampAttack_bounds (x : Int) : 0 ≤ clampAttack x ∧ clampAttack x ≤ 50 := by
  unfold clampAttack maxAttack
  omega

theorem clampHealth_bounds (x : Int) : 0 ≤ clampHealth x ∧ clampHealth x ≤ 50 := by
  unfold clampHealth maxHealth
  omega

theorem clampLevel_bounds (level : Nat) : 1 ≤ clampLevel level ∧ clampLevel level ≤ 3 := by
  unfold clampLevel maxLevel
  omega

namespace Bounded

variable {p : Pet}

theorem setAttack (h : p.Bounded) (x : Int) : (p.setAttack x).Bounded :=
  { h with attack := clampAttack_bounds x }

theorem setHealth (h : p.Bounded) (x : Int) : (p.setHealth x).Bounded :=
  { h with health := clampHealth_bounds x }

theorem buff (h : p.Bounded) (attack health : Int) (temporary : Bool) :
    (p.buff attack health temporary).Bounded :=
  { h with attack := clampAttack_bounds _, health := clampHealth_bounds _ }

theorem borrow (h : p.Bounded) (kind : PetKindId) (level : Nat) : (p.borrow kind level).Bounded :=
  { h with
    borrowed := by
      intro ability ha
      cases ha
      exact clampLevel_bounds level }

theorem promote (h : p.Bounded) (level : Nat) : (p.promote level).Bounded :=
  { h with level := clampLevel_bounds level }

theorem withLevel (h : p.Bounded) (level : Nat) : (p.withLevel level).Bounded :=
  { h with level := clampLevel_bounds level }

theorem gainPoint (h : p.Bounded) : p.gainPoint.Bounded := by
  unfold Pet.gainPoint
  split
  · exact h
  · have point : Bounded { p with experience := nat32 (p.experience + 1) } :=
      ⟨h.attack, h.health, h.level, h.borrowed⟩
    exact point.buff 1 1 false

theorem copyStats (h : p.Bounded) (donor : Pet) (copyAttack copyHealth : Bool) :
    (copyStats donor copyAttack copyHealth p).Bounded := by
  cases copyAttack <;> cases copyHealth
  · exact h
  · exact h.setHealth _
  · exact h.setAttack _
  · exact (h.setAttack _).setHealth _

theorem revert (h : p.Bounded) (buff : StatBuff) : (p.revert buff).Bounded :=
  (h.setAttack _).setHealth _

/-- By induction on the changes that the end of a battle takes back. -/
theorem reverted (h : p.Bounded) (buffs : List StatBuff) :
    (buffs.foldl (fun p b => p.revert b) p).Bounded := by
  induction buffs generalizing p with
  | nil => exact h
  | cons b rest ih => exact ih (h.revert b)

theorem endOfBattle (h : p.Bounded) : p.endOfBattle.Bounded :=
  { h.reverted p.activeBuffs with borrowed := nofun }

theorem battleCopy (h : p.Bounded) : p.battleCopy.Bounded := ⟨h.attack, h.health, h.level, h.borrowed⟩

end Bounded

theorem bounded_ofKind (kind : PetKind) : (ofKind kind).Bounded :=
  ⟨clampAttack_bounds _, clampHealth_bounds _, ⟨Nat.le_refl 1, Nat.le_add_right 1 2⟩, nofun⟩

/-! ## Experience -/

theorem experience_reverted (buffs : List StatBuff) (p : Pet) :
    (buffs.foldl (fun p b => p.revert b) p).experience = p.experience := by
  induction buffs generalizing p with
  | nil => rfl
  | cons b rest ih => exact ih _

theorem experience_endOfBattle (p : Pet) : p.endOfBattle.experience = p.experience :=
  experience_reverted p.activeBuffs p

end Pet

/-! ## Effects -/

section

variable {c : Catalog} {S : Scope} {f : Pet → Pet} {p : Pet}

theorem bounded_edit (hf : Edit c S f) (h : p.Bounded) : (f p).Bounded := by
  cases hf with
  | buff _ => exact h.buff _ _ _
  | reduce _ => exact h.setHealth _
  | copy _ _ => exact h.copyStats _ _ _
  | borrow _ _ => exact h.borrow _ _
  | status _ _ => exact ⟨h.attack, h.health, h.level, h.borrowed⟩
  | useUp => exact ⟨h.attack, h.health, h.level, h.borrowed⟩
  | bump _ => exact ⟨h.attack, h.health, h.level, h.borrowed⟩

theorem Summons.bounded_pet (request : Summons) (kind : PetKind) : (request.pet kind).Bounded := by
  obtain ⟨_, _, attack, health, level⟩ := request
  unfold Summons.pet
  have base := Pet.bounded_ofKind kind
  cases level <;> cases attack <;> cases health
  · exact base
  · exact base.setHealth _
  · exact base.setAttack _
  · exact (base.setAttack _).setHealth _
  · exact base.withLevel _
  · exact (base.withLevel _).setHealth _
  · exact (base.withLevel _).setAttack _
  · exact ((base.withLevel _).setAttack _).setHealth _

theorem bounded_newcomer (h : Newcomer c S p) : p.Bounded := by
  cases h with
  | plain _ _ => exact Summons.bounded_pet _ _
  | inheriting _ _ _ => exact (Summons.bounded_pet _ _).setAttack _

end

/-! ## Boards -/

namespace Board

/-- Every stored pet, in line or not. -/
def Bounded (b : Board) : Prop := ∀ id pet, b.pet? id = some pet → pet.Bounded

theorem bounded_ofTeam {team : Team} (h : ∀ pet ∈ team.pets, pet.Bounded) : (ofTeam team).Bounded :=
  (allPets_empty _).enlist .a h

theorem bounded_ofTeams {teams : Sides Team}
    (h : ∀ side, ∀ pet ∈ (teams.get side).pets, pet.Bounded) : (ofTeams teams).Bounded := by
  have copies (side : Side) : ∀ pet ∈ (teams.get side).pets.map Pet.battleCopy, pet.Bounded :=
    List.forall_mem_map.2 fun pet hm => (h side pet hm).battleCopy
  exact ((allPets_empty _).enlist .a (copies .a)).enlist .b (copies .b)

end Board

theorem boardInvariant_bounded (c : Catalog) : BoardInvariant .all c Board.Bounded where
  known _ _ _ _ _ := trivial
  edit _ hb _ hf id := Board.AllPets.modifyPet hb id fun _ => bounded_edit hf
  gainPoint _ hb _ _ _ _ id := Board.AllPets.modifyPet hb id fun _ hp => hp.gainPoint
  promote _ hb id level := Board.AllPets.modifyPet hb id fun _ hp => hp.promote level
  damage _ hb _ id := Board.AllPets.modifyPet hb id fun _ hp => hp.setHealth _
  arrive _ hb _ _ _ _ hp ha := Board.AllPets.stores hb ha.toStores (bounded_newcomer hp)
  exchange _ hb _ kind _ _ _ _ _ _ he := Board.AllPets.stores hb he.toStores (Pet.bounded_ofKind kind)
  leave _ hb _ _ _ hl := Board.AllPets.leave hb hl

/-! ## Experience -/

/-- The pets that were stored before are stored still. A pet has no less experience if there was room
for a point for each event that was raised meanwhile, and one more. -/
def Resolve.KeepsExperience (s t : Arena) : Prop :=
  ∀ id pet, s.board.pet? id = some pet → ∃ later, t.board.pet? id = some later ∧
    (pet.HasRoom (t.dispatched - s.dispatched + 1) → pet.experience ≤ later.experience)

theorem Resolve.Rising.keepsExperience {admitted : Pet → Prop} {s t : Arena}
    (h : Rising admitted 0 1 s t) : KeepsExperience s t := fun _ _ hp => h.advances.experience hp

/-! ## Battles -/

namespace Battle

variable {rules : Rules} {teams : Sides Team} {b : Battle}

theorem bounded_of_reachable (h : ∀ side, ∀ pet ∈ (teams.get side).pets, pet.Bounded)
    (hb : Reachable rules teams b) : b.arena.board.Bounded :=
  (boardInvariant_bounded rules.catalog).of_reachable (Scope.covers_all _) (.of_all fun _ => trivial)
    (.of_all fun _ => trivial) (Board.bounded_ofTeams h) hb

end Battle

/-- A battle gives the teams back as they came, or with the changes of the battle taken back. -/
theorem bounded_runBattle {rules : Rules} {teams : Sides Team}
    (h : ∀ side, ∀ pet ∈ (teams.get side).pets, pet.Bounded) (side : Side) :
    (∀ pet ∈ ((runBattle rules teams).2.get side).pets, pet.Bounded) ∧
      ((runBattle rules teams).2.get side).pets.map (·.experience) =
        (teams.get side).pets.map (·.experience) := by
  unfold runBattle
  split
  · dsimp only
    rw [Sides.get_map, Team.endOfBattle, List.map_map]
    refine ⟨List.forall_mem_map.2 fun pet hm => (h side pet hm).endOfBattle, ?_⟩
    exact List.map_congr_left fun pet _ => pet.experience_endOfBattle
  · exact ⟨h side, rfl⟩

/-! ## The shop -/

namespace Shop

def experiences (shop : Shop) : List Nat := shop.pets.map (·.experience)

/-- Every pet on offer. -/
def Bounded (shop : Shop) : Prop := ∀ pet ∈ shop.pets, pet.Bounded

variable {shop : Shop} {S : Scope} {f : Shop → Shop}

theorem bounded_buffCurrent (h : shop.Bounded) (attack health : Int) :
    (shop.buffCurrent attack health).Bounded :=
  List.forall_mem_map.2 fun pet hm => (h pet hm).buff attack health false

theorem experiences_buffCurrent (shop : Shop) (attack health : Int) :
    (shop.buffCurrent attack health).experiences = shop.experiences := by
  unfold experiences buffCurrent
  rw [List.map_map]
  rfl

theorem bounded_edit (hf : ShopEdit S f) (h : shop.Bounded) :
    (f shop).Bounded ∧ (f shop).experiences = shop.experiences := by
  cases hf with
  | gold _ => exact ⟨h, rfl⟩
  | buffCurrent _ => exact ⟨bounded_buffCurrent h _ _, experiences_buffCurrent shop _ _⟩
  | buffAll _ => exact ⟨bounded_buffCurrent h _ _, experiences_buffCurrent shop _ _⟩

/-- By induction on the pending changes, which a pet takes when it is stocked. -/
theorem bounded_stock (h : shop.Bounded) {pet : Pet} (hp : pet.Bounded) :
    (shop.stock pet).Bounded ∧
      (shop.stock pet).experiences = shop.experiences ++ [pet.experience] := by
  have buffed (buffs : List StatBuff) :
      (buffs.foldr (fun b pet => pet.buff b.attack b.health false) pet).Bounded ∧
        (buffs.foldr (fun b pet => pet.buff b.attack b.health false) pet).experience =
          pet.experience := by
    induction buffs with
    | nil => exact ⟨hp, rfl⟩
    | cons b rest ih => exact ⟨ih.1.buff _ _ _, ih.2⟩
  obtain ⟨bounded, same⟩ := buffed shop.futureBuffs
  refine ⟨List.forall_mem_append.2 ⟨h, List.forall_mem_singleton.2 bounded⟩, ?_⟩
  unfold experiences stock
  rw [List.map_append, List.map_singleton, same]

theorem bounded_take? (h : shop.Bounded) {index : Nat} {pet : Pet} {rest : Shop}
    (ht : shop.take? index = some (pet, rest)) :
    pet.Bounded ∧ rest.Bounded ∧ rest.experiences = shop.experiences.eraseIdx index := by
  obtain ⟨found, hfound, hrest⟩ := Option.map_eq_some_iff.1 ht
  obtain ⟨rfl, rfl⟩ := Prod.mk.inj hrest
  refine ⟨h _ (List.mem_of_getElem? hfound), fun pet hm => h pet (List.mem_of_mem_eraseIdx hm), ?_⟩
  exact (List.eraseIdx_map ..).symm

end Shop

/-- The pets on offer have as much experience as given here. -/
structure Offering (experiences : Option (List Nat)) (shop : Option Shop) : Prop where
  bounded : ∀ s ∈ shop, s.Bounded
  experiences : shop.map Shop.experiences = experiences

theorem Offering.map {xs : Option (List Nat)} {shop : Option Shop} (h : Offering xs shop)
    {f : Shop → Shop} {g : List Nat → List Nat}
    (hf : ∀ s : Shop, s.Bounded → (f s).Bounded ∧ (f s).experiences = g s.experiences) :
    Offering (xs.map g) (shop.map f) := by
  obtain ⟨bounded, rfl⟩ := h
  cases shop with
  | none => exact ⟨nofun, rfl⟩
  | some s =>
    have kept := hf s (bounded s rfl)
    refine ⟨fun t ht => ?_, congrArg some kept.2⟩
    cases ht
    exact kept.1

theorem Offering.keep {xs : Option (List Nat)} {shop : Option Shop} (h : Offering xs shop)
    {f : Shop → Shop}
    (hf : ∀ s : Shop, s.Bounded → (f s).Bounded ∧ (f s).experiences = s.experiences) :
    Offering xs (shop.map f) := by
  have kept := h.map hf (g := id)
  rwa [Option.map_id] at kept

namespace Resolve

/-- The shop of the arena has such pets on offer. -/
def Trades (xs : Option (List Nat)) (s : Arena) : Prop := Offering xs s.shop

theorem elementary_trades (xs : Option (List Nat)) (c : Catalog) :
    Elementary .all c (.same fun _ => Trades xs) (Same (Trades xs)) where
  boards := by
    rintro s t ⟨rfl, _⟩
    rfl
  known _ _ _ _ _ _ := trivial
  selects _ _ _ _ _ _ _ := Triple.intro fun _ hs => hs
  choose _ _ _ _ := Triple.intro fun _ hs => hs
  edit _ _ _ _ := Triple.intro fun _ hs => hs
  shop f hf := Triple.intro fun s hs => Offering.keep hs fun _ h => Shop.bounded_edit hf h
  queue _ _ _ _ := Triple.intro fun _ hs => hs
  missing := by
    rintro e _ s t ⟨rfl, hs⟩
    exact ⟨rfl, hs⟩

theorem boardSteps_trades (xs : Option (List Nat)) (c : Catalog) :
    BoardSteps .all c (.same fun _ => Trades xs) (Same (Trades xs)) :=
  boardSteps_of_unseen fun _ _ hs => hs

theorem trades_dispatchIn (rules : Rules) (xs : Option (List Nat)) (room : Nat) (event : Event) :
    Triple (fun _ => Trades xs) (Trades xs) (dispatchIn rules room event) fun _ => Trades xs := by
  have told : Scope.all.events event := trivial
  have guarding : Guarding rules rules (.same fun _ => Trades xs) (Same (Trades xs)) :=
    guarding_of_congr rules fun _ _ _ _ hshop hs => (congrArg (Offering xs) hshop).mpr hs
  exact keeps_dispatchIn (elementary_trades xs _) (boardSteps_trades xs _) guarding
    (Scope.covers_all _) (.of_all fun _ => trivial) rfl room told

theorem trades_perform (rules : Rules) (xs : Option (List Nat)) (event : Event)
    (actor : Option PetId) (effect : Effect) :
    Triple (fun _ => Trades xs) (Trades xs) (perform rules (dispatch rules) event actor effect)
      fun _ => Trades xs := by
  have told : ∀ event, Scope.all.events event → Triple (fun _ => Trades xs) (Trades xs)
      (dispatch rules event) fun _ => Trades xs := fun event _ => trades_dispatchIn rules xs _ event
  have telling := (boardSteps_trades xs rules.catalog).telling (elementary_trades xs _) rfl
    (.of_all fun _ => trivial) told
  exact keeps_perform (elementary_trades xs _) telling.toActing (Scope.covers_all _) rfl event trivial
    actor effect effect.every_true

end Resolve

namespace PurchasePhase

open Resolve

variable {rules : Rules} {team : Team} {shop : Shop} {p : PurchasePhase} {xs : Option (List Nat)}

/-- The board and the shop of an arena. -/
structure Kept (xs : Option (List Nat)) (s : Arena) : Prop where
  wellFormed : s.board.WellFormed
  board : s.board.Bounded
  shop : Offering xs s.shop

theorem turnSteps_kept (rules : Rules) (xs : Option (List Nat)) :
    TurnSteps rules (fun _ => True) (fun _ => Kept xs) (Kept xs) := by
  have invariant := (boardInvariant_bounded rules.catalog).wellFormed
  have covers := Scope.covers_all rules.catalog
  have closed : Closed Scope.all := .of_all fun _ => trivial
  let B (b : Board) : Prop := b.WellFormed ∧ b.Bounded
  have both {α : Type} {m : Resolve α}
      (hb : Triple (BoardInvariant.failed .all rules.catalog B) (BoardInvariant.holds B) m
        fun _ => BoardInvariant.holds B)
      (hs : Triple (fun _ => Trades xs) (Trades xs) m fun _ => Trades xs) :
      Triple (fun _ => Kept xs) (Kept xs) m fun _ => Kept xs :=
    (hb.and hs).weaken (fun _ _ he => ⟨he.1.2.1, he.1.2.2, he.2⟩)
      (fun _ h => ⟨⟨h.wellFormed, h.board⟩, h.shop⟩) fun _ _ h => ⟨h.1.1, h.1.2, h.2⟩
  exact {
    tell := fun event _ _ =>
      both (invariant.dispatchIn covers closed _ trivial) (trades_dispatchIn rules xs _ event)
    perform := fun event _ _ food _ =>
      both (invariant.perform covers closed trivial none food.ability.effect.every_true)
        (trades_perform rules xs event none _)
    remove := fun id =>
      both (invariant.boardSteps.remove id) ((boardSteps_trades xs rules.catalog).remove id)
    stored := fun s hs id hm => hs.wellFormed.pet?_of_mem hm
    pay := fun s _ hs => ⟨hs.wellFormed, hs.board, hs.shop.keep fun _ h => ⟨h, rfl⟩⟩ }

theorem kept_call (h : Kept xs p.arena) (c : Call) (hc : c.Brings Pet.Bounded) :
    Kept xs (p.call rules c).2.arena := by
  have spawned : c.Brings fun pet => ∀ placement,
      Triple (fun _ => Kept xs) (Kept xs) (spawn .a pet placement) fun _ => Kept xs := by
    cases c with
    | placePet pet _ _ _ =>
      exact triple_spawn fun s hs _ _ ha =>
        ⟨ha.wellFormed hs.wellFormed, Board.AllPets.stores hs.board ha.toStores hc, hs.shop⟩
    | _ => trivial
  have ends := keeps_call (turnSteps_kept rules xs) (fun _ _ hs => hs) c (fun _ _ => trivial)
    spawned h
  cases hr : (p.call rules c).1 with
  | ok x => exact ends.1 hr
  | error e => exact ends.2 e hr

/-- A call, or what is done to the shop between the calls: a pet is put on offer or taken. -/
inductive Move where
  | call (c : Call)
  | stock (pet : Pet)
  | take (index : Nat)

/-- The pet that comes with the move, if one does, satisfies `admitted`. -/
def Move.Brings (admitted : Pet → Prop) : Move → Prop
  | call c => c.Brings admitted
  | stock pet => admitted pet
  | take _ => True

/-- The experience of the pets on offer after the move. -/
def Move.offered : Move → List Nat → List Nat
  | call _, xs => xs
  | stock pet, xs => xs ++ [pet.experience]
  | take index, xs => xs.eraseIdx index

def withShop (f : Shop → Shop) (p : PurchasePhase) : PurchasePhase :=
  { p with arena := { p.arena with shop := p.arena.shop.map f } }

def move (rules : Rules) (p : PurchasePhase) : Move → PurchasePhase
  | .call c => (p.call rules c).2
  | .stock pet => p.withShop (·.stock pet)
  | .take index => p.withShop fun shop => ((shop.take? index).map (·.2)).getD shop

/-- The phase after moves made one after the other, whatever the calls among them give. -/
def after (rules : Rules) (p : PurchasePhase) (moves : List Move) : PurchasePhase :=
  moves.foldl (move rules) p

theorem kept_move (rules : Rules) (h : Kept xs p.arena) (m : Move) (hm : m.Brings Pet.Bounded) :
    Kept (xs.map m.offered) (p.move rules m).arena := by
  cases m with
  | call c =>
    show Kept (xs.map id) _
    rw [Option.map_id]
    exact kept_call h c hm
  | stock pet => exact ⟨h.wellFormed, h.board, h.shop.map fun _ hs => Shop.bounded_stock hs hm⟩
  | take index =>
    refine ⟨h.wellFormed, h.board, h.shop.map fun s hs => ?_⟩
    cases ht : s.take? index with
    | some r => exact (Shop.bounded_take? hs ht).2
    | none =>
      have past : s.experiences.length ≤ index := by
        unfold Shop.experiences
        rw [List.length_map]
        exact List.getElem?_eq_none_iff.1 (Option.map_eq_none_iff.1 ht)
      exact ⟨hs, (List.eraseIdx_of_length_le past).symm⟩

/-- A move that is no call leaves the board alone. -/
theorem keepsExperience_move (rules : Rules) (hw : p.arena.board.WellFormed) (m : Move) :
    KeepsExperience p.arena (p.move rules m).arena := by
  cases m with
  | call c => exact (rising_any_call rules c hw).keepsExperience
  | stock pet => exact fun id pet hp => ⟨pet, hp, fun _ => Nat.le_refl _⟩
  | take index => exact fun id pet hp => ⟨pet, hp, fun _ => Nat.le_refl _⟩

/-- Every pet of the phase: on the board, in the team, and on offer. -/
structure Bounded (p : PurchasePhase) : Prop where
  board : p.arena.board.Bounded
  team : ∀ pet ∈ p.team.pets, pet.Bounded
  shop : ∀ s ∈ p.arena.shop, s.Bounded

/-- The team is left alone or written from the board. -/
theorem team_move (rules : Rules) (p : PurchasePhase) (m : Move) :
    (p.move rules m).team = p.team ∨
      (p.move rules m).team.pets = (p.move rules m).arena.board.livePets .a := by
  cases m with
  | call c =>
    have returns := c.returns rules p
    show (p.call rules c).2.team = p.team ∨
      (p.call rules c).2.team.pets = (p.call rules c).2.arena.board.livePets .a
    generalize p.call rules c = r at returns
    cases returns with
    | written s => exact .inr rfl
    | refused _ => exact .inl rfl
    | failed e s => exact .inl rfl
  | stock pet => exact .inl rfl
  | take index => exact .inl rfl

theorem kept_self (hw : p.arena.board.WellFormed) (h : p.Bounded) :
    Kept (p.arena.shop.map Shop.experiences) p.arena := ⟨hw, h.board, h.shop, rfl⟩

theorem bounded_move (rules : Rules) (hw : p.arena.board.WellFormed) (h : p.Bounded) (m : Move)
    (hm : m.Brings Pet.Bounded) :
    (p.move rules m).arena.board.WellFormed ∧ (p.move rules m).Bounded := by
  have kept := kept_move rules (kept_self hw h) m hm
  refine ⟨kept.wellFormed, kept.board, ?_, kept.shop.bounded⟩
  rcases team_move rules p m with same | written
  · rw [same]
    exact h.team
  · rw [written]
    intro pet hp
    obtain ⟨id, _, stored⟩ := List.mem_filterMap.1 hp
    exact kept.board id pet stored

/-- By induction on the moves. -/
theorem bounded_after (rules : Rules) (moves : List Move) (hw : p.arena.board.WellFormed)
    (h : p.Bounded) (hm : ∀ m ∈ moves, m.Brings Pet.Bounded) :
    (p.after rules moves).arena.board.WellFormed ∧ (p.after rules moves).Bounded := by
  induction moves generalizing p with
  | nil => exact ⟨hw, h⟩
  | cons m rest ih =>
    obtain ⟨hm, hrest⟩ := List.forall_mem_cons.1 hm
    obtain ⟨hw, h⟩ := bounded_move rules hw h m hm
    exact ih hw h hrest

theorem bounded_ofTeam (config : EngineConfig) (ht : ∀ pet ∈ team.pets, pet.Bounded)
    (hs : shop.Bounded) : (ofTeam config team shop).Bounded where
  board := Board.bounded_ofTeam ht
  team := ht
  shop s h := by
    cases h
    exact hs

end PurchasePhase

/-! ## All states -/

open Resolve (KeepsExperience)

/-- At the end of the turn pets on offer lose more health than any pet has, and gain as much attack. -/
def gardener : PetKind :=
  ⟨⟨"pet-gardener"⟩, "pet-gardener", 1, 99, 1, [],
    some ⟨"", .endOfTurn, .player, .modifyStats 99 (-99) (.eachShopAnimal true) false, none⟩, none,
    none⟩

def gardenRules : Rules := ⟨.ofLists [gardener] [] [], {}⟩

def gardenTeam : Team := .ofPets [.ofKind gardener]

def gardenMoves : List PurchasePhase.Move :=
  [.stock (.ofKind gardener), .call .endTurn, .stock (.ofKind gardener)]

/-- At the start of a battle it gains a point of experience. -/
def veteran : PetKind :=
  ⟨⟨"pet-veteran"⟩, "pet-veteran", 1, 1, 1, [],
    some ⟨"", .startOfBattle, .player, .gainExperience 1 .self, none⟩, none, none⟩

/-- A veteran that is at level one although the range of experience is used up. -/
def worn : Pet := { Pet.ofKind veteran with experience := 4294967295 }

end AutoBattler
