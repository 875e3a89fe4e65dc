import AutoBattler.Proofs.Capacity
import AutoBattler.Proofs.Histories

/-!
# What a shop turn writes back

The team of a shop turn is written anew by calls that succeed only. A call that fails leaves it as
it was, while the board and the gold stay as the call has left them; so the team then lists a pet
whose sale was paid.
-/
namespace AutoBattler

open Resolve

namespace PurchasePhase

variable {rules : Rules} {team : Team} {shop : Shop} {p p' : PurchasePhase}

/-- The pets of the team are those on the roster, in order. -/
def Current (p : PurchasePhase) : Prop :=
  p.team.pets.map some = (p.arena.board.roster .a).map p.arena.board.pet?

instance (p : PurchasePhase) : Decidable p.Current := inferInstanceAs (Decidable (_ = _))

theorem current_iff (h : p.arena.board.WellFormed) :
    p.Current ↔ p.team.pets = p.arena.board.livePets .a := by
  unfold Current
  rw [← h.map_livePets .a]
  exact (List.map_injective_iff.2 fun _ _ => Option.some.inj).eq_iff

/-! ## How a call ends -/

/-- The call would place a pet for which there is no room. -/
def Call.Refused (p : PurchasePhase) : Call → Prop
  | placePet .. => p.arena.board.canAdd .a = false
  | _ => False

/-- What a call can do to the team. -/
inductive Call.Returns (c : Call) (p : PurchasePhase) : Except EngineError Unit × PurchasePhase → Prop
  | written (s : Arena) : Returns c p (.ok (), ⟨s, { p.team with pets := s.board.livePets .a }⟩)
  | refused (h : c.Refused p) : Returns c p (.ok (), p)
  | failed (e : EngineError) (s : Arena) : Returns c p (.error e, ⟨s, p.team⟩)

theorem Call.returns_play {α : Type} (c : Call) (p : PurchasePhase) (m : Resolve α) :
    c.Returns p ((p.play m).1.map fun _ => (), (p.play m).2) := by
  unfold play
  generalize m p.arena = r
  obtain ⟨r, s⟩ := r
  cases r with
  | ok x => exact .written s
  | error e => exact .failed e s

theorem Call.returns (rules : Rules) (p : PurchasePhase) (c : Call) : c.Returns p (p.call rules c) := by
  have whole (m : Resolve Unit) : p.play m = ((p.play m).1.map fun _ => (), (p.play m).2) := by
    generalize p.play m = r
    obtain ⟨r, p'⟩ := r
    cases r <;> rfl
  cases c with
  | trigger told source =>
    rw [PurchasePhase.call, PurchasePhase.trigger, whole]
    exact returns_play ..
  | placePet pet index tierOne afterLoss =>
    by_cases hroom : p.arena.board.canAdd .a
    · simp only [PurchasePhase.call, PurchasePhase.placePet, if_pos hroom]
      exact returns_play ..
    · simp only [PurchasePhase.call, PurchasePhase.placePet, if_neg hroom]
      exact .refused (Bool.eq_false_iff.2 hroom)
  | feed food target => exact returns_play ..
  | sell index => exact returns_play ..
  | endTurn =>
    rw [PurchasePhase.call, PurchasePhase.endTurn, whole]
    exact returns_play ..

theorem call_error (c : Call) {e : EngineError} (he : (p.call rules c).1 = .error e) :
    (p.call rules c).2.team = p.team := by
  have returns := c.returns rules p
  generalize p.call rules c = r at returns he
  cases returns with
  | written s => cases he
  | refused h => cases he
  | failed e s => rfl

/-- A call that succeeds writes the team, unless it was refused and changed nothing. -/
theorem call_ok (h : Reachable rules team shop (fun _ => True) p) (c : Call)
    (hs : (p.call rules c).1 = .ok ()) :
    (p.call rules c).2.Current ∨ c.Refused p ∧ (p.call rules c).2 = p := by
  have wellFormed := wellFormed_of_reachable (h.call c c.brings_true)
  have returns := c.returns rules p
  generalize p.call rules c = r at returns hs wellFormed
  cases returns with
  | written s => exact .inl ((current_iff wellFormed).2 rfl)
  | refused h => exact .inr ⟨h, rfl⟩
  | failed e s => cases hs

theorem call_shopBuffs (p : PurchasePhase) (c : Call) :
    (p.call rules c).2.team.shopBuffs = p.team.shopBuffs := by
  have returns := c.returns rules p
  generalize p.call rules c = r at returns
  cases returns <;> rfl

theorem shopBuffs_of_reachable (h : Reachable rules team shop (fun _ => True) p) :
    p.team.shopBuffs = team.shopBuffs := by
  induction h with
  | new => rfl
  | call _ c _ ih => rw [call_shopBuffs, ih]

/-! ## Runs of calls -/

/-- The phase that calls lead to from another one, all of which failed or were refused. -/
inductive Stalls (rules : Rules) (p : PurchasePhase) : PurchasePhase → Prop
  | refl : Stalls rules p p
  | call {p' : PurchasePhase} (h : Stalls rules p p') (c : Call)
    (hc : (∃ e, (p'.call rules c).1 = .error e) ∨ c.Refused p' ∧ (p'.call rules c).2 = p') :
    Stalls rules p (p'.call rules c).2

theorem Stalls.same_team (h : Stalls rules p p') : p'.team = p.team := by
  induction h with
  | refl => rfl
  | call _ c hc ih =>
    rcases hc with ⟨e, he⟩ | ⟨_, hsame⟩
    · rw [call_error c he, ih]
    · rw [hsame, ih]

/-- The team is that of the last phase in which it was written. -/
theorem last_written (h : Reachable rules team shop (fun _ => True) p) :
    ∃ last, (last = ofTeam rules.config team shop ∨
      Reachable rules team shop (fun _ => True) last ∧ last.Current) ∧ Stalls rules last p := by
  induction h with
  | new => exact ⟨_, .inl rfl, .refl⟩
  | call h c hc ih =>
    rename_i p
    obtain ⟨last, hlast, stalls⟩ := ih
    cases hs : (p.call rules c).1 with
    | error e => exact ⟨last, hlast, stalls.call c (.inl ⟨e, hs⟩)⟩
    | ok x =>
      rcases call_ok h c hs with current | refused
      · exact ⟨_, .inr ⟨h.call c hc, current⟩, .refl⟩
      · exact ⟨last, hlast, stalls.call c (.inr refused)⟩

/-- From a board that holds the whole team, calls that succeed keep the team current. -/
theorem current_of_continues (ht : team.Fits)
    (h : Continues rules (fun _ => True) (ofTeam rules.config team shop) p) :
    Reachable rules team shop (fun _ => True) p ∧ p.Current := by
  induction h with
  | refl =>
    exact ⟨.new, (current_iff (Board.wellFormed_ofTeam team)).2 ht.livePets.symm⟩
  | call _ c _ hs ih =>
    obtain ⟨reachable, current⟩ := ih
    have later := reachable.call c c.brings_true
    have ends := call_ok reachable c (by rw [hs])
    rw [hs] at later ends
    refine ⟨later, ends.elim id fun refused => ?_⟩
    have same := refused.2
    dsimp only at same
    rwa [same]

/-! ## Sales -/

/-- The event of a sale: the pet has left the line and still hears of it. -/
def saleEvent (id : PetId) (line : List PetId) : Event :=
  ((Event.purchase .sell).withSource id).withSnapshot line

/-- The arena in which a sale is told: the pet is off the board and paid for. -/
def sold (s : Arena) (pet : Pet) (b : Board) : Arena :=
  { s with board := b, shop := s.shop.map (Shop.addGold pet.level) }

/-- A sale is told when the pet has left the board and was paid for. -/
theorem sell_run {s : Arena} (h : s.board.WellFormed) {index : Nat}
    (hi : index < (s.board.roster .a).length) (procedures : Procedures) :
    ∃ id pet b, (s.board.roster .a)[index]? = some id ∧ s.board.pet? id = some pet ∧
      s.board.Leaves id .a b ∧
      Resolve.sell procedures index s =
        (procedures.tell (saleEvent id (s.board.roster .a)) >>= fun _ => pure pet) (sold s pet b) := by
  obtain ⟨id, hid⟩ : ∃ id, (s.board.roster .a)[index]? = some id :=
    ⟨_, List.getElem?_eq_getElem hi⟩
  have stands := List.mem_of_getElem? hid
  obtain ⟨pet, hpet⟩ := h.pet?_of_mem stands
  obtain ⟨b, hb⟩ : ∃ b, s.board.remove? id = some b := by
    by_contra hnone
    have off := Board.not_mem_of_remove? (Option.eq_none_iff_forall_ne_some.2 fun b hb =>
      hnone ⟨b, hb⟩) h .a
    exact off stands
  obtain ⟨side, leaves⟩ := Board.leaves_of_remove? hb
  obtain rfl : side = .a := Option.some.inj (leaves.home.symm.trans (h.member .a id stands))
  refine ⟨id, pet, b, hid, hpet, leaves, ?_⟩
  have atIndex : petAt index s = (.ok id, s) := by
    unfold petAt
    rw [bind_run]
    dsimp only [look]
    rw [hid]
    rfl
  have removed : remove id s = (.ok true, { s with board := b }) := by
    unfold remove
    rw [hb]
  have found : Resolve.pet? id { s with board := b } = (.ok (some pet), { s with board := b }) := by
    unfold Resolve.pet? look
    dsimp only
    rw [leaves.pet? id, hpet]
  unfold Resolve.sell
  rw [bind_run, atIndex]
  dsimp only
  rw [bind_run]
  dsimp only [look]
  rw [bind_run, removed]
  dsimp only
  rw [bind_run, found]
  rfl

/-- The sale of a pet that stands at a place of the roster. -/
structure Sale (rules : Rules) (p : PurchasePhase) (index : Nat) (id : PetId) (pet : Pet)
    (b : Board) : Prop where
  place : (p.arena.board.roster .a)[index]? = some id
  stored : p.arena.board.pet? id = some pet
  leaves : p.arena.board.Leaves id .a b
  told : (p.sell rules index).2.arena =
    (dispatch rules (saleEvent id (p.arena.board.roster .a)) (sold p.arena pet b)).2
  off : id ∉ (p.sell rules index).2.arena.board.roster .a
  settled : ∀ x, (p.sell rules index).1 = .ok x → x = pet ∧ (p.sell rules index).2.Current
  failed : ∀ e, (p.sell rules index).1 = .error e → (p.sell rules index).2.team = p.team

theorem sale_of_reachable (h : Reachable rules team shop (fun _ => True) p) {index : Nat}
    (hi : index < (p.arena.board.roster .a).length) : ∃ id pet b, Sale rules p index id pet b := by
  have wellFormed := wellFormed_of_reachable h
  obtain ⟨id, pet, b, place, stored, leaves, run⟩ := sell_run wellFormed hi (procedures rules)
  obtain ⟨ops, _, later⟩ := (follows_of_wellFormed rules rules.config.maxDispatchDepth
    (saleEvent id (p.arena.board.roster .a)) (s := sold p.arena pet b)
    (leaves.wellFormed wellFormed)).1
  have told : (p.sell rules index).2.arena =
      (dispatch rules (saleEvent id (p.arena.board.roster .a)) (sold p.arena pet b)).2 := by
    refine (play_eq _ p).2.trans ?_
    rw [run, bind_run]
    show _ = ((procedures rules).tell _ _).2
    generalize (procedures rules).tell _ _ = r
    obtain ⟨r, t⟩ := r
    cases r <;> rfl
  have gone : (p.sell rules index).2.arena.board.Gone id := by
    rw [told]
    show (dispatchIn rules _ _ _).2.board.Gone id
    rw [later]
    exact ((leaves.wellFormed wellFormed).after ops).2.gone id (leaves.gone wellFormed)
  have value : ∀ x, (p.sell rules index).1 = .ok x → x = pet := by
    intro x hx
    rw [PurchasePhase.sell, (play_eq _ p).1, run, bind_run] at hx
    generalize (procedures rules).tell _ _ = r at hx
    obtain ⟨r, t⟩ := r
    cases r with
    | ok _ => exact (Except.ok.inj hx).symm
    | error e => cases hx
  refine ⟨id, pet, b, place, stored, leaves, told, gone.off .a, fun x hx => ⟨value x hx, ?_⟩,
    fun e he => ?_⟩
  · have succeeds : (p.call rules (.sell index)).1 = .ok () := by
      dsimp only [PurchasePhase.call]
      rw [hx]
      rfl
    exact (call_ok h (.sell index) succeeds).resolve_right fun refused => refused.1
  · have fails : (p.call rules (.sell index)).1 = .error e := by
      dsimp only [PurchasePhase.call]
      rw [he]
      rfl
    exact call_error (.sell index) fails

/-! ## The team after any calls -/

/-- The team is that of the last phase in which it was written; every call that succeeds writes it,
except for a placement without room, and no call that fails does. So it is current as long as all
calls succeed. A sale takes the pet off the board and pays for it before anything can fail: if the
telling of it fails, a team that was current lists the pet still. -/
theorem team_is_current_until_a_call_fails (rules : Rules) (team : Team) (shop : Shop)
    (p : PurchasePhase) (h : Reachable rules team shop (fun _ => True) p) :
    p.team.shopBuffs = team.shopBuffs ∧
    (∃ last, (last = ofTeam rules.config team shop ∨ last.Current) ∧ Stalls rules last p ∧
      p.team = last.team) ∧
    (team.Fits → Continues rules (fun _ => True) (ofTeam rules.config team shop) p → p.Current) ∧
    (∀ c, (p.call rules c).1 = .ok () →
      (p.call rules c).2.Current ∨ c.Refused p ∧ (p.call rules c).2 = p) ∧
    (∀ c e, (p.call rules c).1 = .error e → (p.call rules c).2.team = p.team) ∧
    ∀ index, index < (p.arena.board.roster .a).length → ∃ id pet b,
      Sale rules p index id pet b ∧ ∀ e, (p.sell rules index).1 = .error e → p.Current →
        (p.sell rules index).2.team.pets[index]? = some pet := by
  refine ⟨shopBuffs_of_reachable h, ?_, fun ht hc => (current_of_continues ht hc).2, call_ok h,
    fun c e he => call_error c he, fun index hi => ?_⟩
  · obtain ⟨last, hlast, stalls⟩ := last_written h
    exact ⟨last, hlast.imp_right And.right, stalls, stalls.same_team⟩
  · obtain ⟨id, pet, b, sale⟩ := sale_of_reachable h hi
    refine ⟨id, pet, b, sale, fun e he current => ?_⟩
    have listed := congrArg (·[index]?) current
    simp only [List.getElem?_map, sale.place, Option.map_some, sale.stored] at listed
    obtain ⟨x, hx, same⟩ := Option.map_eq_some_iff.1 listed
    rw [sale.failed e he, hx, Option.some.inj same]

/-! ## A sale that fails -/

/-- When it is sold a pet of the third tier takes its place. -/
def cocoon : PetKind :=
  ⟨⟨"pet-cocoon"⟩, "pet-cocoon", 1, 1, 1, [],
    some ⟨"", .sell, .self, .summonRandomPet 3 none none none, none⟩, none, none⟩

/-- There is no kind of the third tier. -/
def cocoonRules : Rules := ⟨.ofLists [cocoon] [] [], {}⟩

def cocoonTeam : Team := .ofPets [.ofKind cocoon]

def cocoonTurn : PurchasePhase := ofTeam cocoonRules.config cocoonTeam (.ofGold startingGold)

/-- The sale of the only pet of the team. -/
def cocoonSale : Except EngineError Pet × PurchasePhase := cocoonTurn.sell cocoonRules 0

/-- The pet has left the board and was paid for, and the team lists it still. -/
theorem team_lists_a_sold_pet :
    cocoonSale.1 = .error (.emptyTier 3) ∧
      cocoonSale.2.arena.shop.map (·.gold) = some (startingGold + 1) ∧
      cocoonSale.2.arena.board.roster .a = [] ∧ cocoonSale.2.team.pets = [.ofKind cocoon] ∧
      ¬ cocoonSale.2.Current := by
  decide +kernel

theorem team_is_current_until_a_call_fails_cocoon :
    cocoonSale.2.team.shopBuffs = [] ∧ cocoonSale.2.team.pets[0]? = some (.ofKind cocoon) ∧
      ⟨0⟩ ∉ cocoonSale.2.arena.board.roster .a := by
  obtain ⟨buffs, _, kept, _, _, sales⟩ := team_is_current_until_a_call_fails cocoonRules cocoonTeam
    (.ofGold startingGold) cocoonTurn .new
  have current := kept (Team.fits_ofPets _) .refl
  obtain ⟨id, pet, b, sale, listed⟩ := sales 0 (by decide +kernel)
  have fails : cocoonSale.1 = .error (.emptyTier 3) := by decide +kernel
  have first : (cocoonTurn.arena.board.roster .a)[0]? = some ⟨0⟩ := by decide +kernel
  have stored : cocoonTurn.arena.board.pet? ⟨0⟩ = some (.ofKind cocoon) := by decide +kernel
  obtain rfl : id = ⟨0⟩ := Option.some.inj (sale.place.symm.trans first)
  obtain rfl : pet = .ofKind cocoon := Option.some.inj (sale.stored.symm.trans stored)
  exact ⟨(congrArg Team.shopBuffs (sale.failed _ fails)).trans buffs, listed _ fails current, sale.off⟩

end PurchasePhase

end AutoBattler
