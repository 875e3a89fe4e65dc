import AutoBattler.Proofs.Boards
import AutoBattler.Proofs.Walking
import AutoBattler.Purchase

/-!
# Calls of a shop turn

The calls of a shop turn as one type, and the phases that they lead to, whatever they give. A
property of the arena that telling, performing, selling and placing keep is kept by every call; a
call fails with what these steps fail with, or for an index or food that is not there.
-/
namespace AutoBattler

open Resolve

namespace PurchasePhase

inductive Call where
  | trigger (told : Trigger) (source : Option Nat)
  | placePet (pet : Pet) (index : Option Nat) (tierOne afterLoss : Bool)
  | feed (food : FoodId) (target : Nat)
  | sell (index : Nat)
  | endTurn

/-- A call without the value that it gives. -/
def call (rules : Rules) (p : PurchasePhase) : Call → Except EngineError Unit × PurchasePhase
  | .trigger told source => p.trigger rules told source
  | .placePet pet index tierOne afterLoss =>
    ((p.placePet rules pet index tierOne afterLoss).1.map fun _ => (),
      (p.placePet rules pet index tierOne afterLoss).2)
  | .feed food target =>
    ((p.feed rules food target).1.map fun _ => (), (p.feed rules food target).2)
  | .sell index => ((p.sell rules index).1.map fun _ => (), (p.sell rules index).2)
  | .endTurn => p.endTurn rules

/-- The value that a call gives. -/
inductive Answer where
  | done
  | placed (index : Option Nat)
  | fed (touched : List PetId)
  | sold (pet : Pet)
deriving DecidableEq

/-- A call with the value that it gives. -/
def reply (rules : Rules) (p : PurchasePhase) : Call → Except EngineError Answer × PurchasePhase
  | .trigger told source =>
    ((p.trigger rules told source).1.map fun _ => .done, (p.trigger rules told source).2)
  | .placePet pet index tierOne afterLoss =>
    ((p.placePet rules pet index tierOne afterLoss).1.map .placed,
      (p.placePet rules pet index tierOne afterLoss).2)
  | .feed food target => ((p.feed rules food target).1.map .fed, (p.feed rules food target).2)
  | .sell index => ((p.sell rules index).1.map .sold, (p.sell rules index).2)
  | .endTurn => ((p.endTurn rules).1.map fun _ => .done, (p.endTurn rules).2)

/-- The replies to calls made one after the other, whatever they give, and the phase after them. -/
def replies (rules : Rules) (p : PurchasePhase) :
    List Call → List (Except EngineError Answer) × PurchasePhase
  | [] => ([], p)
  | c :: rest =>
    ((p.reply rules c).1 :: ((p.reply rules c).2.replies rules rest).1,
      ((p.reply rules c).2.replies rules rest).2)

/-- The step that a call plays. -/
def Call.resolve (rules : Rules) (p : Procedures) : Call → Resolve Unit
  | trigger told source => triggerEvent p told source
  | placePet pet index tierOne afterLoss => do
    let _ ← Resolve.placePet p pet index tierOne afterLoss
    pure ()
  | feed food target => do
    let _ ← Resolve.feed rules p food target
    pure ()
  | sell index => do
    let _ ← Resolve.sell p index
    pure ()
  | endTurn => Resolve.endTurn p

variable {rules : Rules} {p : PurchasePhase} {α : Type}

theorem play_eq (m : Resolve α) (p : PurchasePhase) :
    (p.play m).1 = (m p.arena).1 ∧ (p.play m).2.arena = (m p.arena).2 := by
  unfold play
  generalize m p.arena = r
  obtain ⟨r, s⟩ := r
  cases r with
  | ok x => exact ⟨rfl, rfl⟩
  | error e => exact ⟨rfl, rfl⟩

theorem play_erased (m : Resolve α) (p : PurchasePhase) :
    ((p.play m).1.map fun _ => ()) = ((m >>= fun _ => pure ()) p.arena).1 ∧
      (p.play m).2.arena = ((m >>= fun _ => pure ()) p.arena).2 := by
  rw [bind_run, (play_eq m p).1, (play_eq m p).2]
  generalize m p.arena = r
  obtain ⟨r, s⟩ := r
  cases r with
  | ok x => exact ⟨rfl, rfl⟩
  | error e => exact ⟨rfl, rfl⟩

/-- A call gives what its step gives. Without room, placing a pet is no step at all, and the step
would change nothing. -/
theorem call_eq (rules : Rules) (p : PurchasePhase) (c : Call) :
    (p.call rules c).1 = (c.resolve rules (procedures rules) p.arena).1 ∧
      (p.call rules c).2.arena = (c.resolve rules (procedures rules) p.arena).2 := by
  cases c with
  | trigger told source => exact play_eq _ p
  | placePet pet index tierOne afterLoss =>
    by_cases hroom : p.arena.board.canAdd .a
    · simp only [call, placePet, if_pos hroom]
      exact play_erased _ p
    · have hfull (placement : Placement) : p.arena.board.spawn? .a pet placement = none := by
        unfold Board.spawn?
        rw [if_neg hroom]
      simp only [call, placePet, if_neg hroom, Call.resolve, Resolve.placePet, spawn, bind_run, hfull]
      exact ⟨rfl, rfl⟩
  | feed food target => exact play_erased _ p
  | sell index => exact play_erased _ p
  | endTurn => exact play_eq _ p

/-- The pet that a call places, if it places one, satisfies `admitted`. -/
def Call.Brings (admitted : Pet → Prop) : Call → Prop
  | placePet pet .. => admitted pet
  | _ => True

theorem Call.Brings.imp {P Q : Pet → Prop} (h : ∀ pet, P pet → Q pet) {c : Call}
    (hc : c.Brings P) : c.Brings Q := by
  cases c with
  | placePet pet index tierOne afterLoss => exact h pet hc
  | _ => trivial

theorem Call.brings_true (c : Call) : c.Brings fun _ => True := by
  cases c <;> exact trivial

/-- The phases that calls lead to, where every pet that is placed satisfies `admitted`. -/
inductive Reachable (rules : Rules) (team : Team) (shop : Shop) (admitted : Pet → Prop) :
    PurchasePhase → Prop
  | new : Reachable rules team shop admitted (ofTeam rules.config team shop)
  | call {p : PurchasePhase} (h : Reachable rules team shop admitted p) (c : Call)
    (hc : c.Brings admitted) :
    Reachable rules team shop admitted (p.call rules c).2

/-- The phase that calls lead to from another one, all of which are in `calls` and succeeded. -/
inductive Continues (rules : Rules) (calls : Call → Prop) (p : PurchasePhase) : PurchasePhase → Prop
  | refl : Continues rules calls p p
  | call {p' p'' : PurchasePhase} (h : Continues rules calls p p') (c : Call) (hc : calls c)
    (hs : p'.call rules c = (.ok (), p'')) : Continues rules calls p p''

/-! ## What the calls keep -/

/-- The events that the calls of a turn tell and answer themselves. -/
structure IsOfTurn (event : Event) : Prop where
  peaceful : event.isBattle = false
  side : event.side = .a
  unrepeated : event.repeated = false
  uncaused : event.cause = none

theorem isOfTurn_purchase (trigger : Trigger) : IsOfTurn (.purchase trigger) := ⟨rfl, rfl, rfl, rfl⟩

theorem IsOfTurn.withSource {event : Event} (h : IsOfTurn event) (id : PetId) :
    IsOfTurn (event.withSource id) := ⟨h.peaceful, h.side, h.unrepeated, h.uncaused⟩

theorem IsOfTurn.withSnapshot {event : Event} (h : IsOfTurn event) (line : List PetId) :
    IsOfTurn (event.withSnapshot line) := ⟨h.peaceful, h.side, h.unrepeated, h.uncaused⟩

theorem IsOfTurn.withPurchase {event : Event} (h : IsOfTurn event) (id : PetId) (food : FoodId) :
    IsOfTurn (event.withPurchase id food) := ⟨rfl, h.side, h.unrepeated, h.uncaused⟩

theorem IsOfTurn.followUp {event : Event} (h : IsOfTurn event) (trigger : Trigger) (id : PetId) :
    IsOfTurn (event.followUp trigger .a id) := ⟨h.peaceful, rfl, rfl, rfl⟩

/-- A snapshot that the event has is the roster of an arena in the relation. -/
def Witnesses (R : Arena → Arena → Prop) (event : Event) : Prop :=
  ∀ line, event.snapshot = some line → ∃ s t, R s t ∧ s.board.roster .a = line

/-- The triggers of the events that a call tells itself. -/
def Call.Tells : Call → Trigger → Prop
  | trigger told _, t => t = told
  | placePet _ _ tierOne afterLoss, t => t ∈ purchaseTriggers tierOne afterLoss
  | feed _ _, t => t = .eatsShopFood
  | sell _, t => t = .sell
  | endTurn, t => t = .endOfTurn ∨ t ∈ conditionalTriggers

/-- Only a caller tells of a level without more. -/
theorem Call.not_tells_levelUp {c : Call} (h : ∀ source, c ≠ .trigger .levelUp source) :
    ¬ c.Tells .levelUp := by
  cases c with
  | trigger told source =>
    intro ht
    cases ht
    exact h source rfl
  | placePet pet index tierOne afterLoss => simp [Call.Tells, purchaseTriggers]
  | feed food target => exact nofun
  | sell index => exact nofun
  | endTurn => simp [Call.Tells, conditionalTriggers]

/-- What the steps of the calls keep, and fail with, where the events told have triggers in `T`. -/
structure TurnSteps (rules : Rules) (T : Trigger → Prop) (E : EngineError → Arena → Prop)
    (I : Arena → Prop) : Prop where
  tell : ∀ event, IsOfTurn event → T event.trigger → Triple E I (dispatch rules event) fun _ => I
  perform : ∀ event, IsOfTurn event → ∀ id food, rules.catalog.food id = .ok food →
    Triple E I (perform rules (dispatch rules) event none food.ability.effect) fun _ => I
  remove : ∀ id, Triple E I (remove id) fun _ => I
  stored : ∀ s, I s → ∀ id ∈ s.board.roster .a, ∃ pet, s.board.pet? id = some pet
  pay : ∀ s amount, I s → I { s with shop := s.shop.map (Shop.addGold amount) }

/-- The call refers to places of the roster and to foods that are there. -/
def Call.Valid (c : Catalog) (s : Arena) : Call → Prop
  | trigger _ source => ∀ index, source = some index → index < (s.board.roster .a).length
  | placePet .. => True
  | feed food target => (∃ known, c.food food = .ok known) ∧ target < (s.board.roster .a).length
  | sell index => index < (s.board.roster .a).length
  | endTurn => True

variable {T : Trigger → Prop} {E : EngineError → Arena → Prop} {I P : Arena → Prop}

theorem triple_petAt {index : Nat}
    (h : ∀ s, P s → ¬ index < (s.board.roster .a).length → ∀ e, E e s) :
    Triple E P (petAt index) fun id s => P s ∧ id ∈ s.board.roster .a := by
  apply Triple.intro
  intro s hs
  unfold petAt
  rw [bind_run]
  dsimp only [look]
  cases hget : (s.board.roster .a)[index]? with
  | some id => exact ⟨hs, List.mem_of_getElem? hget⟩
  | none => exact h s hs (Nat.not_lt.2 (List.getElem?_eq_none_iff.1 hget)) _

theorem triple_triggerEvent (h : TurnSteps rules T E I) (hP : ∀ s, P s → I s) {told : Trigger}
    {source : Option Nat} (hT : T told) (hinvalid : ∀ s, P s →
      ¬ Call.Valid rules.catalog s (.trigger told source) → ∀ e, E e s) :
    Triple E P (triggerEvent (procedures rules) told source) fun _ => I := by
  unfold triggerEvent
  cases source with
  | none =>
    exact (h.tell _ (isOfTurn_purchase told) hT).weaken (fun _ _ he => he) hP fun _ _ hs => hs
  | some index =>
    have invalid : ∀ s, P s → ¬ index < (s.board.roster .a).length → ∀ e, E e s := by
      intro s hs hi
      exact hinvalid s hs fun hvalid => hi (hvalid index rfl)
    refine Couples.bind (triple_petAt invalid) fun id => ?_
    exact (h.tell _ ((isOfTurn_purchase told).withSource id) hT).weaken (fun _ _ he => he)
      (fun s hs => hP s hs.1) fun _ _ hs => hs

theorem triple_placePet (h : TurnSteps rules T E I) (hP : ∀ s, P s → I s) {pet : Pet}
    (hspawn : ∀ placement, Triple E I (spawn .a pet placement) fun _ => I) (index : Option Nat)
    (tierOne afterLoss : Bool) (hT : ∀ trigger ∈ purchaseTriggers tierOne afterLoss, T trigger) :
    Triple E P (Resolve.placePet (procedures rules) pet index tierOne afterLoss) fun _ => I := by
  refine Triple.weaken ?_ (fun _ _ he => he) hP fun _ _ hs => hs
  unfold Resolve.placePet
  refine Couples.bind (hspawn _) fun placed => ?_
  cases placed with
  | none => exact keeps_pure _
  | some id =>
    have told := fun trigger (ht : trigger ∈ purchaseTriggers tierOne afterLoss) =>
      h.tell _ ((isOfTurn_purchase trigger).withSource id) (hT trigger ht)
    refine Couples.bind (keeps_forEach _ told) fun _ => ?_
    exact Triple.intro fun _ hs => hs

theorem triple_feed (h : TurnSteps rules T E I) (hP : ∀ s, P s → I s) {food : FoodId} {target : Nat}
    (hT : T .eatsShopFood) (hinvalid : ∀ s, P s → ¬ Call.Valid rules.catalog s (.feed food target) → ∀ e, E e s) :
    Triple E P (Resolve.feed rules (procedures rules) food target) fun _ => I := by
  unfold Resolve.feed
  have lookUp : Yields (.same E) (Same P) (fun x => rules.catalog.food food = .ok x)
      (ofExcept (rules.catalog.food food)) (ofExcept (rules.catalog.food food)) := by
    apply yields_ofExcept
    rintro e he s t ⟨rfl, hs⟩
    refine ⟨rfl, hinvalid s hs ?_ e⟩
    rintro ⟨⟨known, hk⟩, _⟩
    rw [he] at hk
    cases hk
  refine Yields.bind lookUp fun definition hd => ?_
  have invalid : ∀ s, P s → ¬ target < (s.board.roster .a).length → ∀ e, E e s := by
    intro s hs hi
    exact hinvalid s hs fun hvalid => hi hvalid.2
  refine Couples.bind (triple_petAt invalid) fun id => ?_
  refine Triple.weaken ?_ (fun _ _ he => he) (fun s hs => hP s hs.1) fun _ _ hs => hs
  have answered := (isOfTurn_purchase definition.ability.trigger).withPurchase id food
  refine Couples.bind (h.perform _ answered food definition hd) fun affected => ?_
  have told := fun pet (_ : pet ∈ affected) => h.tell _ (answered.followUp .eatsShopFood pet) hT
  exact Couples.bind (keeps_forEach _ told) fun _ => keeps_pure _

/-- Leaving the roster does not make a pet forgotten. -/
theorem triple_remove_stored (id x : PetId) :
    Triple (fun _ _ => True) (fun s => ∃ pet, s.board.pet? x = some pet) (remove id)
      fun _ s => ∃ pet, s.board.pet? x = some pet :=
  triple_remove fun _ ⟨pet, hpet⟩ _ _ hl => ⟨pet, hl.pet? x ▸ hpet⟩

theorem triple_sell (h : TurnSteps rules T E I) (hP : ∀ s, P s → I s) {index : Nat} (hT : T .sell)
    (hinvalid : ∀ s, P s → ¬ Call.Valid rules.catalog s (.sell index) → ∀ e, E e s) :
    Triple E P (Resolve.sell (procedures rules) index) fun _ => I := by
  unfold Resolve.sell
  refine Couples.bind (triple_petAt hinvalid) fun id => ?_
  refine Couples.bind (Q := fun _ => Same fun s => I s ∧ ∃ pet, s.board.pet? id = some pet)
    (Triple.intro fun s hs => ⟨hP s hs.1, h.stored s (hP s hs.1) id hs.2⟩) fun line => ?_
  have leaves := ((h.remove id).and (triple_remove_stored id id)).weaken
    (fun _ _ he => he.1) (fun _ hs => hs) fun _ _ hs => hs
  refine Couples.bind leaves fun _ => ?_
  refine Couples.bind (Q := fun found => Same fun s => I s ∧ ∃ pet, found = some pet)
    (Triple.intro fun s hs => hs) fun found => ?_
  cases found with
  | none =>
    constructor
    rintro s t ⟨_, _, _, hnone⟩
    cases hnone
  | some sold =>
    refine Triple.weaken ?_ (fun _ _ he => he) (fun _ hs => hs.1) fun _ _ hs => hs
    refine Couples.bind (Q := fun _ => Same I) (Triple.intro fun s hs => h.pay s _ hs) fun _ => ?_
    have told := ((isOfTurn_purchase .sell).withSource id).withSnapshot line
    exact Couples.bind (h.tell _ told hT) fun _ => keeps_pure _

theorem triple_endTurn (h : TurnSteps rules T E I) (hP : ∀ s, P s → I s)
    (hT : T .endOfTurn) (hT' : ∀ trigger ∈ conditionalTriggers, T trigger) :
    Triple E P (Resolve.endTurn (procedures rules)) fun _ => I := by
  refine Triple.weaken ?_ (fun _ _ he => he) hP fun _ _ hs => hs
  unfold Resolve.endTurn
  refine Couples.bind (h.tell _ (isOfTurn_purchase _) hT) fun _ => keeps_forEach _ fun trigger ht => ?_
  refine Couples.bind (Q := fun _ => Same I) (Triple.intro fun s hs => hs) fun told => ?_
  split
  · exact h.tell _ (isOfTurn_purchase trigger) (hT' trigger ht)
  · exact keeps_pure _

/-- What a call keeps, and what it can fail with. An invalid call may fail with anything. -/
theorem Call.triple (h : TurnSteps rules T E I) (hP : ∀ s, P s → I s) (c : Call)
    (hT : ∀ trigger, c.Tells trigger → T trigger)
    (hspawn : c.Brings fun pet => ∀ placement, Triple E I (spawn .a pet placement) fun _ => I)
    (hinvalid : ∀ s, P s → ¬ c.Valid rules.catalog s → ∀ e, E e s) :
    Triple E P (c.resolve rules (procedures rules)) fun _ => I := by
  cases c with
  | trigger told source => exact triple_triggerEvent h hP (hT told rfl) hinvalid
  | placePet pet index tierOne afterLoss =>
    have placed := triple_placePet h hP hspawn index tierOne afterLoss hT
    exact Couples.bind placed fun _ => keeps_pure _
  | feed food target => exact Couples.bind (triple_feed h hP (hT _ rfl) hinvalid) fun _ => keeps_pure _
  | sell index => exact Couples.bind (triple_sell h hP (hT _ rfl) hinvalid) fun _ => keeps_pure _
  | endTurn => exact triple_endTurn h hP (hT _ (.inl rfl)) fun trigger ht => hT trigger (.inr ht)

/-- What a call keeps that can always fail with what it fails with. -/
theorem keeps_call (h : TurnSteps rules T E I) (hE : ∀ e s, I s → E e s) (c : Call)
    (hT : ∀ trigger, c.Tells trigger → T trigger)
    (hspawn : c.Brings fun pet => ∀ placement, Triple E I (spawn .a pet placement) fun _ => I)
    (hp : I p.arena) : ((p.call rules c).1 = .ok () → I (p.call rules c).2.arena) ∧
      ∀ e, (p.call rules c).1 = .error e → E e (p.call rules c).2.arena := by
  have triple := Call.triple h (fun _ hs => hs) c hT hspawn fun s hs _ e => hE e s hs
  have ends := triple_iff.1 triple p.arena hp
  obtain ⟨hresult, harena⟩ := call_eq rules p c
  rw [hresult, harena]
  generalize c.resolve rules (procedures rules) p.arena = r at ends
  obtain ⟨r, s⟩ := r
  cases r with
  | ok x => exact ⟨fun _ => ends, nofun⟩
  | error e =>
    refine ⟨nofun, fun e' he => ?_⟩
    cases he
    exact ends

/-! ## Two turns side by side -/

/-- What the calls of a shop turn need of two procedures to run side by side, where the events told
have triggers in `T`. -/
structure Beside (rules rules' : Rules) (T : Trigger → Prop) (V : Verdict)
    (R : Arena → Arena → Prop) (p p' : Procedures) : Prop where
  catalog : rules'.catalog = rules.catalog
  boards : ∀ s t, R s t → s.board = t.board
  shops : ∀ s t, R s t → s.shop = t.shop
  failed : ∀ e s t, R s t → V.together e s t
  tell : ∀ event, IsOfTurn event → Witnesses R event → T event.trigger →
    Keeps V R (p.tell event) (p'.tell event)
  act : ∀ event, IsOfTurn event → Witnesses R event → ∀ ability, rules.catalog.Offers ability →
    Keeps V R (p.act event none ability.effect) (p'.act event none ability.effect)
  remove : ∀ id, Keeps V R (remove id) (remove id)
  pay : ∀ f, Keeps V R (modifyShop f) (modifyShop f)

namespace Beside

variable {rules' : Rules} {V : Verdict} {R : Arena → Arena → Prop} {p p' : Procedures}

theorem petAt (h : Beside rules rules' T V R p p') (index : Nat) :
    Keeps V R (Resolve.petAt index) (Resolve.petAt index) := by
  unfold Resolve.petAt
  have roster : Keeps V R (look (·.board.roster .a)) (look (·.board.roster .a)) :=
    couples_look fun s t hst => ⟨by rw [h.boards s t hst], hst⟩
  refine Couples.bind roster fun ids => ?_
  split
  · exact keeps_pure _
  · exact couples_fail (h.failed _)

theorem triggerEvent (h : Beside rules rules' T V R p p') {told : Trigger} (hT : T told)
    (source : Option Nat) :
    Keeps V R (Resolve.triggerEvent p told source) (Resolve.triggerEvent p' told source) := by
  unfold Resolve.triggerEvent
  cases source with
  | none => exact h.tell _ (isOfTurn_purchase told) nofun hT
  | some index =>
    exact Couples.bind (h.petAt index) fun id =>
      h.tell _ ((isOfTurn_purchase told).withSource id) nofun hT

theorem placePet (h : Beside rules rules' T V R p p') {pet : Pet}
    (hs : ∀ placement, Keeps V R (spawn .a pet placement) (spawn .a pet placement))
    (index : Option Nat) {tierOne afterLoss : Bool}
    (hT : ∀ trigger ∈ purchaseTriggers tierOne afterLoss, T trigger) :
    Keeps V R (Resolve.placePet p pet index tierOne afterLoss)
      (Resolve.placePet p' pet index tierOne afterLoss) := by
  refine Couples.bind (hs _) fun placed => ?_
  split
  · exact keeps_pure _
  · rename_i id
    have told := fun trigger (ht : trigger ∈ purchaseTriggers tierOne afterLoss) =>
      h.tell _ ((isOfTurn_purchase trigger).withSource id) nofun (hT trigger ht)
    refine Couples.bind (keeps_forEach _ told) fun _ => ?_
    exact couples_look fun s t hst => ⟨by rw [h.boards s t hst], hst⟩

theorem feed (h : Beside rules rules' T V R p p') (hT : T .eatsShopFood) (food : FoodId)
    (target : Nat) :
    Keeps V R (Resolve.feed rules p food target) (Resolve.feed rules' p' food target) := by
  unfold Resolve.feed
  rw [h.catalog]
  have lookUp : Yields V R (fun x => rules.catalog.food food = .ok x)
      (ofExcept (rules.catalog.food food)) (ofExcept (rules.catalog.food food)) :=
    yields_ofExcept fun e _ s t hst => h.failed e s t hst
  refine Yields.bind lookUp fun definition hd => ?_
  refine Couples.bind (h.petAt target) fun id => ?_
  have answered := (isOfTurn_purchase definition.ability.trigger).withPurchase id food
  refine Couples.bind (h.act _ answered nofun _ (offers_food hd)) fun affected => ?_
  have told := fun pet (_ : pet ∈ affected) => h.tell _ (answered.followUp .eatsShopFood pet) nofun hT
  exact Couples.bind (keeps_forEach _ told) fun _ => keeps_pure _

theorem sell (h : Beside rules rules' T V R p p') (hT : T .sell) (index : Nat) :
    Keeps V R (Resolve.sell p index) (Resolve.sell p' index) := by
  unfold Resolve.sell
  refine Couples.bind (h.petAt index) fun id => ?_
  have roster : Yields V R (fun line => ∃ s t, R s t ∧ s.board.roster .a = line)
      (look (·.board.roster .a)) (look (·.board.roster .a)) :=
    couples_look fun s t hst => ⟨by rw [h.boards s t hst], ⟨s, t, hst, rfl⟩, hst⟩
  refine Yields.bind roster fun line hline => Couples.bind (h.remove id) fun _ => ?_
  have found : Keeps V R (pet? id) (pet? id) :=
    couples_look fun s t hst => ⟨by rw [h.boards s t hst], hst⟩
  refine Couples.bind found fun sold => ?_
  split
  · exact couples_fail (h.failed _)
  · have witnessed : Witnesses R (((Event.purchase .sell).withSource id).withSnapshot line) := by
      intro seen hseen
      cases hseen
      exact hline
    have told := ((isOfTurn_purchase .sell).withSource id).withSnapshot line
    refine Couples.bind (h.pay _) fun _ => Couples.bind (h.tell _ told witnessed hT) fun _ => ?_
    exact keeps_pure _

theorem endTurn (h : Beside rules rules' T V R p p') (hT : T .endOfTurn)
    (hT' : ∀ trigger ∈ conditionalTriggers, T trigger) :
    Keeps V R (Resolve.endTurn p) (Resolve.endTurn p') := by
  have ended := h.tell _ (isOfTurn_purchase .endOfTurn) nofun hT
  refine Couples.bind ended fun _ => keeps_forEach _ fun trigger ht => ?_
  have held : Keeps V R (Resolve.holds trigger) (Resolve.holds trigger) := by
    refine Couples.bind (Q := fun _ => R)
      (couples_look fun s t hst => ⟨by rw [h.shops s t hst], hst⟩) fun gold => ?_
    refine Couples.bind (Q := fun _ => R)
      (couples_look fun s t hst => ⟨h.boards s t hst, hst⟩) fun b => ?_
    exact keeps_pure _
  refine Couples.bind held fun told => ?_
  split
  · exact h.tell _ (isOfTurn_purchase trigger) nofun (hT' trigger ht)
  · exact keeps_pure _

/-- A call made in both turns. -/
theorem call (h : Beside rules rules' T V R p p') (c : Call)
    (hT : ∀ trigger, c.Tells trigger → T trigger)
    (hs : c.Brings fun pet => ∀ placement,
      Keeps V R (spawn .a pet placement) (spawn .a pet placement)) :
    Keeps V R (c.resolve rules p) (c.resolve rules' p') := by
  cases c with
  | trigger told source => exact h.triggerEvent (hT told rfl) source
  | placePet pet index tierOne afterLoss =>
    exact Couples.bind (h.placePet hs index hT) fun _ => keeps_pure _
  | feed food target => exact Couples.bind (h.feed (hT _ rfl) food target) fun _ => keeps_pure _
  | sell index => exact Couples.bind (h.sell (hT _ rfl) index) fun _ => keeps_pure _
  | endTurn => exact h.endTurn (hT _ (.inl rfl)) fun trigger ht => hT trigger (.inr ht)

end Beside

end PurchasePhase

end AutoBattler
