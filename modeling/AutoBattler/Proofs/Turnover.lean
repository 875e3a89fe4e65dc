import AutoBattler.Proofs.Casting
import AutoBattler.Proofs.Population
import AutoBattler.Proofs.Waiting
import AutoBattler.Proofs.Writeback
import Mathlib.Algebra.Ring.Int.Defs

/-!
# The books of a shop turn

A turn is entered twice: on the board and in the shop, and in the log. A pet is in line if it was
there at the start or was announced and has not been sold since, and gold that no effect gives comes
from sales. A sold pet leaves its line without a faint, so one stays due for it. Nothing that belongs
to a fight is told, whatever effects are nested, borrowed or repeated, since none of the events of a
turn is of a battle.
-/
namespace AutoBattler

/-- The triggers of the events that only a battle tells. -/
def fightTriggers : List Trigger :=
  [.beforeAttack, .afterAttack, .hurt, .faint, .knockout, .castsAbility]

theorem levelUp_peaceful : Trigger.levelUp ∉ fightTriggers := by decide

theorem summoned_peaceful : Trigger.summoned ∉ fightTriggers := by decide

/-- The effect itself gives gold. -/
def Effect.Pays : Effect → Prop
  | gainGold _ => True
  | _ => False

/-- No effect in the catalog gives gold, however deep it is nested. -/
def Catalog.PaysNothing (c : Catalog) : Prop := c.Every fun e => ¬ e.Pays

/-! ## Entries of a log -/

namespace EventLog

/-- The number of records of a trigger. -/
def entries (log : EventLog) (trigger : Trigger) : Nat :=
  log.records.toList.countP (·.trigger = trigger)

variable {log : EventLog} {trigger : Trigger}

theorem entries_eq (log : EventLog) (trigger : Trigger) :
    log.entries trigger = log.headings.countP (·.trigger = trigger) := by
  unfold entries headings
  rw [List.countP_map]
  rfl

theorem told_le_entries (log : EventLog) (trigger : Trigger) (side : Side) :
    log.told trigger side ≤ log.entries trigger :=
  List.countP_mono_left fun r _ hr => by
    simp only [decide_eq_true_eq] at hr ⊢
    exact hr.1

end EventLog

namespace Arena

theorem entries_opened {s : Arena} (h : s.log.enabled = true) (event : Event) (trigger : Trigger) :
    (s.opened event).log.entries trigger =
      s.log.entries trigger + if event.trigger = trigger then 1 else 0 := by
  rw [EventLog.entries_eq, EventLog.entries_eq, Arena.opened, EventLog.headings_openRecord h,
    List.countP_append, List.countP_singleton]
  by_cases ht : event.trigger = trigger <;> simp [Event.record, ht]

theorem entries_closed (t : Arena) (slot : Option Nat) (notified : List PetId) (trigger : Trigger) :
    (t.closed slot notified).log.entries trigger = t.log.entries trigger := by
  rw [EventLog.entries_eq, EventLog.entries_eq, headings_closed]

end Arena

namespace Resolve

/-! ## What is kept besides the board -/

/-- So many sales were told and nothing of a fight, no attack waits, and there is so much gold unless
effects may have given some. -/
structure Books (c : Catalog) (sales : Nat) (gold : Int) (s : Arena) : Prop where
  enabled : s.log.enabled = true
  unfought : ∀ trigger ∈ fightTriggers, s.log.entries trigger = 0
  sold : s.log.entries .sell = sales
  idle : ∀ side, s.waits side = []
  purse : c.PaysNothing → s.shop.map (·.gold) = some gold

/-- The events of a turn and of what its effects lead to, and effects that give no gold if none in
the catalog does. -/
def sparing (c : Catalog) : Scope where
  events := shopScope.events
  effects e := c.PaysNothing → ¬ e.Pays
  pets _ := True

variable {rules : Rules} {c : Catalog} {b₀ : Board} {due : List Notice} {sales : Nat} {gold : Int}
  {event : Event}

theorem covers_sparing (c : Catalog) : (sparing c).Covers c where
  effects ability ha := by
    by_cases h : c.PaysNothing
    · exact (h ability ha).imp fun e he _ => he
    · exact ability.effect.every_true.imp fun e _ hc => absurd hc h
  cause := (covers_shopScope c).cause

theorem leads_sparing (c : Catalog) :
    Leads (sparing c) fun event =>
      shopScope.events event ∧ event.trigger ∉ fightTriggers ∧ event.trigger ≠ .sell where
  levelUp event side id he := ⟨leads_shopScope.levelUp event side id he, levelUp_peaceful, nofun⟩
  summoned event side id he := ⟨leads_shopScope.summoned event side id he, summoned_peaceful, nofun⟩
  attack event he hb _ _ _ := by
    rw [he.1] at hb
    cases hb

/-- A change of the arena that leaves the log, the queues and the gold as they are. -/
theorem Books.congr {s t : Arena} (h : Books c sales gold s) (hl : t.log = s.log)
    (hq : t.queues = s.queues) (hg : t.shop.map (·.gold) = s.shop.map (·.gold)) :
    Books c sales gold t where
  enabled := hl ▸ h.enabled
  unfought := hl ▸ h.unfought
  sold := hl ▸ h.sold
  idle side := by
    unfold Arena.waits
    rw [hq]
    exact h.idle side
  purse hc := hg.trans (h.purse hc)

theorem elementary_books (c : Catalog) (sales : Nat) (gold : Int) :
    Elementary (sparing c) c (.same anyway) (Same (Books c sales gold)) where
  boards := by
    rintro s t ⟨rfl, _⟩
    rfl
  known _ _ _ _ _ _ := trivial
  selects _ _ _ _ _ _ _ := Triple.intro fun _ hs => hs.congr rfl rfl rfl
  choose _ _ _ _ := Triple.intro fun _ hs => hs.congr rfl rfl rfl
  edit _ _ _ _ := Triple.intro fun _ hs => hs.congr rfl rfl rfl
  shop f hf := by
    apply Triple.intro
    intro s hs
    cases hf with
    | gold h => exact ⟨hs.enabled, hs.unfought, hs.sold, hs.idle, fun hc => absurd trivial (h hc)⟩
    | buffCurrent _ => exact hs.congr rfl rfl (Option.map_map ..)
    | buffAll _ => exact hs.congr rfl rfl (Option.map_map ..)
  queue event he hb _ := by
    rw [he.1] at hb
    cases hb
  missing := by
    rintro e _ s t ⟨rfl, _⟩
    exact ⟨rfl, trivial⟩

/-- Telling an event of a turn enters it if it is a sale. -/
def Enters (c : Catalog) (gold : Int) (raise : Raise) : Prop :=
  ∀ sales event, shopScope.events event → event.trigger ∉ fightTriggers →
    Triple anyway (Books c sales gold) (raise event)
      fun _ => Books c (sales + if event.trigger = .sell then 1 else 0) gold

theorem Enters.quiet {raise : Raise} (h : Enters c gold raise) (he : shopScope.events event)
    (ht : event.trigger ∉ fightTriggers) (hs : event.trigger ≠ .sell) :
    Triple anyway (Books c sales gold) (raise event) fun _ => Books c sales gold := by
  have told := h sales event he ht
  rwa [if_neg hs] at told

theorem acting_books {raise : Raise} (h : Enters rules.catalog gold raise) (sales : Nat) :
    Acting (sparing rules.catalog) rules rules raise raise (.same anyway)
      (Same (Books rules.catalog sales gold)) :=
  (boardSteps_of_unseen fun _ _ hs => hs.congr rfl rfl rfl).acting (elementary_books ..) rfl
    (leads_sparing _) fun _ ht => h.quiet ht.1 ht.2.1 ht.2.2

/-- A sale that is told is entered. -/
theorem Books.opened {s : Arena} (h : Books c sales gold s) (ht : event.trigger ∉ fightTriggers) :
    Books c (sales + if event.trigger = .sell then 1 else 0) gold (s.opened event) where
  enabled := (s.log.enabled_openRecord _).trans h.enabled
  unfought trigger hm := by
    rw [Arena.entries_opened h.enabled, h.unfought trigger hm, if_neg]
    rintro rfl
    exact ht hm
  sold := by rw [Arena.entries_opened h.enabled, h.sold]
  idle := h.idle
  purse := h.purse

theorem Books.closed {t : Arena} (h : Books c sales gold t) (slot : Option Nat)
    (notified : List PetId) : Books c sales gold (t.closed slot notified) where
  enabled := (t.enabled_closed slot notified).trans h.enabled
  unfought trigger hm := (t.entries_closed slot notified trigger).trans (h.unfought trigger hm)
  sold := (t.entries_closed slot notified _).trans h.sold
  idle := h.idle
  purse := h.purse

/-- By induction on the room for nesting: what an event of a turn leads to enters no sale. -/
theorem enters_dispatchIn (rules : Rules) (gold : Int) (room : Nat) :
    Enters rules.catalog gold (dispatchIn rules room) := by
  induction room with
  | zero =>
    intro sales event _ _
    exact couples_fail fun s t hst => ⟨hst.1, trivial⟩
  | succ room ih =>
    intro sales event he ht
    have told (sales : Nat) : Telling (sparing rules.catalog) rules rules (dispatchIn rules room)
        (dispatchIn rules room) (.same anyway) (Same (Books rules.catalog sales gold)) := {
      toActing := acting_books ih sales
      cast := fun event he hb => by
        rw [he.1] at hb
        cases hb }
    have covers := covers_sparing rules.catalog
    apply Triple.intro
    intro s hs
    apply ends_dispatchIn
    · exact fun _ => trivial
    · exact hs.opened ht
    · exact fun line => keeps_walk (elementary_books ..) (told _) covers.effects rfl
        (acts_perform (elementary_books ..) (told _) covers rfl) he line [] line
    · exact fun _ _ _ => trivial
    · exact fun t notified ht => ht.closed _ notified

/-! ## The ledger -/

/-- The books, with what was made known of the lines. -/
structure Ledger (c : Catalog) (b₀ : Board) (due : List Notice) (sales : Nat) (gold : Int) (s : Arena) :
    Prop where
  announced : Announced c b₀ due s
  books : Books c sales gold s

theorem Triple.ledger {α : Type} {m : Resolve α} {due' : α → List Notice} {sales' : Nat} {gold' : Int}
    (hb : Triple anyway (Announced c b₀ due) m fun x => Announced c b₀ (due' x))
    (hk : Triple anyway (Books c sales gold) m fun _ => Books c sales' gold') :
    Triple anyway (Ledger c b₀ due sales gold) m fun x => Ledger c b₀ (due' x) sales' gold' :=
  (hb.and hk).weaken (fun _ _ _ => trivial) (fun _ hs => ⟨hs.announced, hs.books⟩)
    fun _ _ hs => ⟨hs.1, hs.2⟩

variable (rules b₀ due sales gold)

theorem ledger_tell (he : PurchasePhase.IsOfTurn event) (ht : event.trigger ∉ fightTriggers) :
    Triple anyway (Ledger rules.catalog b₀ (event.notices ++ due) sales gold) (dispatch rules event)
      fun _ => Ledger rules.catalog b₀ due (sales + if event.trigger = .sell then 1 else 0) gold :=
  (makesKnown_dispatchIn rules b₀ rules.config.maxDispatchDepth due event).ledger
    (enters_dispatchIn rules gold _ sales event ⟨he.peaceful, he.uncaused⟩ ht)

theorem ledger_perform (he : PurchasePhase.IsOfTurn event) (actor : Option PetId) {effect : Effect}
    (hs : effect.Every (sparing rules.catalog).effects) :
    Triple anyway (Ledger rules.catalog b₀ due sales gold)
      (perform rules (dispatch rules) event actor effect)
      fun _ => Ledger rules.catalog b₀ due sales gold := by
  have known := makesKnown_dispatchIn rules b₀ rules.config.maxDispatchDepth
  have announced : Triple anyway (Announced rules.catalog b₀ due)
      (perform rules (dispatch rules) event actor effect) fun _ => Announced rules.catalog b₀ due :=
    keeps_perform (elementary_announced rules.catalog b₀ due) (telling_announced rules known due).toActing
      (Scope.covers_all _) rfl event trivial actor effect effect.every_true
  have acting := acting_books (enters_dispatchIn rules gold rules.config.maxDispatchDepth) sales
  exact announced.ledger (keeps_perform (elementary_books rules.catalog sales gold) acting
    (covers_sparing _) rfl event ⟨he.peaceful, he.uncaused⟩ actor effect hs)

theorem ledger_unsold (he : PurchasePhase.IsOfTurn event) (ht : event.trigger ∉ fightTriggers)
    (hs : event.trigger ≠ .sell) :
    Triple anyway (Ledger rules.catalog b₀ (event.notices ++ due) sales gold) (dispatch rules event)
      fun _ => Ledger rules.catalog b₀ due sales gold := by
  have told := ledger_tell rules b₀ due sales gold he ht
  rwa [if_neg hs] at told

/-- Most events of a turn change nothing in the ledger. -/
theorem ledger_plain (he : PurchasePhase.IsOfTurn event) (ht : event.trigger ∉ fightTriggers)
    (hs : event.trigger ≠ .sell) (hn : event.notices = []) :
    Triple anyway (Ledger rules.catalog b₀ due sales gold) (dispatch rules event)
      fun _ => Ledger rules.catalog b₀ due sales gold := by
  have told := ledger_unsold rules b₀ due sales gold he ht hs
  rwa [hn] at told

/-! ## The calls -/

/-- Telling that a pet was bought announces it. -/
theorem ledger_bought (id : PetId) (triggers : List Trigger)
    (h : ∀ trigger ∈ triggers, trigger ∉ fightTriggers ∧ trigger ≠ .sell) :
    Triple anyway (Ledger rules.catalog b₀ (triggers.flatMap (fun trigger =>
        ((Event.purchase trigger).withSource id).notices) ++ due) sales gold)
      (forEach triggers fun trigger => dispatch rules ((Event.purchase trigger).withSource id))
      fun _ => Ledger rules.catalog b₀ due sales gold := by
  induction triggers with
  | nil => exact keeps_pure _
  | cons trigger rest ih =>
    obtain ⟨⟨ht, hs⟩, hrest⟩ := List.forall_mem_cons.1 h
    rw [List.flatMap_cons, List.append_assoc]
    exact Couples.bind (ledger_unsold rules b₀ _ sales gold
      ((PurchasePhase.isOfTurn_purchase trigger).withSource id) ht hs) fun _ => ih hrest

theorem ledger_placePet (pet : Pet) (index : Option Nat) (tierOne afterLoss : Bool) :
    Triple anyway (Ledger rules.catalog b₀ due sales gold)
      (placePet (procedures rules) pet index tierOne afterLoss)
      fun _ => Ledger rules.catalog b₀ due sales gold := by
  have spawned (placement : Placement) :
      Triple anyway (Ledger rules.catalog b₀ due sales gold) (spawn .a pet placement) fun id =>
        Ledger rules.catalog b₀ (Notice.each .summoned .a id.toList ++ due) sales gold :=
    (announced_spawn .a pet placement).ledger
      (triple_spawn (fun _ hs _ _ _ => hs.congr rfl rfl rfl) placement)
  unfold placePet
  refine Couples.bind (spawned _) fun placed => ?_
  cases placed with
  | none => exact keeps_pure _
  | some id =>
    have peaceful : ∀ trigger ∈ purchaseTriggers tierOne afterLoss,
        trigger ∉ fightTriggers ∧ trigger ≠ .sell := by
      cases tierOne <;> cases afterLoss <;> decide
    have announced : ((purchaseTriggers tierOne afterLoss).flatMap fun trigger =>
        ((Event.purchase trigger).withSource id).notices) = Notice.each .summoned .a [id] := by
      cases tierOne <;> cases afterLoss <;> rfl
    have told := ledger_bought rules b₀ due sales gold id _ peaceful
    rw [announced] at told
    exact Couples.bind told fun _ => Triple.intro fun _ hs => hs

theorem ledger_petAt (index : Nat) : Triple anyway (Ledger rules.catalog b₀ due sales gold)
    (petAt index) fun _ => Ledger rules.catalog b₀ due sales gold :=
  (PurchasePhase.triple_petAt fun _ _ _ _ => trivial).weaken (fun _ _ he => he) (fun _ hs => hs)
    fun _ _ hs => hs.1

theorem ledger_feed (food : FoodId) (target : Nat) :
    Triple anyway (Ledger rules.catalog b₀ due sales gold) (feed rules (procedures rules) food target)
      fun _ => Ledger rules.catalog b₀ due sales gold := by
  unfold feed
  refine Yields.bind (yields_ofExcept fun _ _ s t hst => ⟨hst.1, trivial⟩) fun definition hd => ?_
  refine Couples.bind (ledger_petAt rules b₀ due sales gold target) fun id => ?_
  have answered := (PurchasePhase.isOfTurn_purchase definition.ability.trigger).withPurchase id food
  have offered := (covers_sparing rules.catalog).effects _ (offers_food hd)
  refine Couples.bind (ledger_perform rules b₀ due sales gold answered none offered) fun affected => ?_
  have told := fun pet (_ : pet ∈ affected) => ledger_plain rules b₀ due sales gold
    (answered.followUp .eatsShopFood pet) (by decide : Trigger.eatsShopFood ∉ fightTriggers) nofun rfl
  exact Couples.bind (keeps_forEach _ told) fun _ => keeps_pure _

theorem ledger_endTurn : Triple anyway (Ledger rules.catalog b₀ due sales gold)
    (endTurn (procedures rules)) fun _ => Ledger rules.catalog b₀ due sales gold := by
  unfold endTurn
  have noted (trigger : Trigger) (h : trigger ∈ Trigger.endOfTurn :: conditionalTriggers) :
      Triple anyway (Ledger rules.catalog b₀ due sales gold) (dispatch rules (.purchase trigger))
        fun _ => Ledger rules.catalog b₀ due sales gold := by
    have peaceful : ∀ trigger ∈ Trigger.endOfTurn :: conditionalTriggers,
        trigger ∉ fightTriggers ∧ trigger ≠ .sell ∧ (Event.purchase trigger).notices = [] := by decide
    obtain ⟨ht, hs, hn⟩ := peaceful trigger h
    exact ledger_plain rules b₀ due sales gold (PurchasePhase.isOfTurn_purchase trigger) ht hs hn
  refine Couples.bind (noted _ List.mem_cons_self) fun _ => keeps_forEach _ fun trigger ht => ?_
  refine Couples.bind (Q := fun _ => Same (Ledger rules.catalog b₀ due sales gold))
    (Triple.intro fun s hs => hs) fun told => ?_
  split
  · exact noted trigger (List.mem_cons_of_mem _ ht)
  · exact keeps_pure _

/-- The level of the pet at a place of the roster: what its sale brings. -/
def price (b : Board) (index : Nat) : Int :=
  match (b.roster .a)[index]?.bind b.pet? with
  | some pet => pet.level
  | none => 0

variable {b₀ due sales gold} in
/-- The pet has left the line and is paid for, but its sale is not yet told. -/
theorem Ledger.sold {s : Arena} {id : PetId} {b : Board} (h : Ledger c b₀ due sales gold s) (pet : Pet)
    (hb : s.board.Leaves id .a b) :
    Ledger c b₀ (⟨.faint, .a, some id⟩ :: due) sales (int32 (gold + pet.level))
      (PurchasePhase.sold s pet b) where
  announced := (h.announced.leave hb).congr rfl rfl rfl
  books := by
    refine ⟨h.books.enabled, h.books.unfought, h.books.sold, h.books.idle, fun hc => ?_⟩
    obtain ⟨shop, hshop, hgold⟩ := Option.map_eq_some_iff.1 (h.books.purse hc)
    show (s.shop.map (Shop.addGold pet.level)).map (·.gold) = _
    rw [hshop, ← hgold]
    rfl

/-- A sale takes a pet off the line, is entered and paid for. -/
theorem ledger_sell {s : Arena} (h : Ledger rules.catalog b₀ due sales gold s)
    (hw : s.board.WellFormed) (index : Nat) :
    Ends anyway (fun _ t => ∃ id, Ledger rules.catalog b₀ (⟨.faint, .a, some id⟩ :: due) (sales + 1)
      (int32 (gold + price s.board index)) t) (sell (procedures rules) index s) := by
  by_cases hi : index < (s.board.roster .a).length
  · obtain ⟨id, pet, b, place, stored, leaves, run⟩ :=
      PurchasePhase.sell_run hw hi (procedures rules)
    have paid : price s.board index = pet.level := by
      unfold price
      rw [place, Option.bind_some, stored]
    have sale : PurchasePhase.IsOfTurn (PurchasePhase.saleEvent id (s.board.roster .a)) :=
      ((PurchasePhase.isOfTurn_purchase .sell).withSource id).withSnapshot _
    have told : Triple anyway
        (Ledger rules.catalog b₀ (⟨.faint, .a, some id⟩ :: due) sales (int32 (gold + pet.level)))
        (dispatch rules (PurchasePhase.saleEvent id (s.board.roster .a)))
        fun _ => Ledger rules.catalog b₀ (⟨.faint, .a, some id⟩ :: due) (sales + 1)
          (int32 (gold + pet.level)) :=
      ledger_tell rules b₀ _ sales _ sale (by decide : Trigger.sell ∉ fightTriggers)
    rw [run, paid]
    exact (triple_iff.1 told _ (h.sold pet leaves)).bind fun _ _ settled => ⟨id, settled⟩
  · have missing : petAt index s = (.error (.rosterIndex index (s.board.roster .a).length), s) := by
      unfold petAt
      rw [bind_run]
      dsimp only [look]
      rw [List.getElem?_eq_none (Nat.le_of_not_lt hi)]
      rfl
    unfold sell
    rw [bind_run, missing]
    trivial

end Resolve

namespace PurchasePhase

open Resolve

variable {rules : Rules} {team : Team} {shop : Shop} {p : PurchasePhase} {b₀ : Board}
  {due : List Notice} {m : Nat} {gold : Int}

/-- What a call brings in: the level of the pet that it sells. -/
def Call.takings (b : Board) : Call → Int
  | sell index => price b index
  | _ => 0

/-- What calls made one after the other bring in. -/
def takings (rules : Rules) (p : PurchasePhase) : List Call → Int
  | [] => 0
  | c :: rest => c.takings p.arena.board + (p.call rules c).2.takings rules rest

/-- A reply is that of a call, with a value. -/
theorem reply_eq (rules : Rules) (p : PurchasePhase) (c : Call) :
    (p.reply rules c).2 = (p.call rules c).2 ∧
      ∀ answer, (p.reply rules c).1 = .ok answer → (p.call rules c).1 = .ok () := by
  have given {α : Type} {r : Except EngineError α} {f : α → Answer} (answer : Answer)
      (h : r.map f = .ok answer) : (r.map fun _ => ()) = .ok () := by
    cases r with
    | ok _ => rfl
    | error e => cases h
  have whole (r : Except EngineError Unit) : (r.map fun _ => ()) = r := by cases r <;> rfl
  cases c with
  | trigger told source => exact ⟨rfl, fun x h => (whole _).symm.trans (given x h)⟩
  | placePet pet index tierOne afterLoss => exact ⟨rfl, given⟩
  | feed food target => exact ⟨rfl, given⟩
  | sell index => exact ⟨rfl, given⟩
  | endTurn => exact ⟨rfl, fun x h => (whole _).symm.trans (given x h)⟩

/-- The ledger after sales that bring in so much: a faint more is due for each sold pet. -/
def Settled (c : Catalog) (b₀ : Board) (due : List Notice) (m : Nat) (gold takings : Int)
    (s : Arena) : Prop :=
  ∃ sold left, Ledger c b₀ (Notice.each .faint .a sold ++ due) (m + sold.length) left s ∧
    (IsInt32 gold → left = int32 (gold + takings))

theorem Settled.unsold {c : Catalog} {s : Arena} (h : Ledger c b₀ due m gold s) :
    Settled c b₀ due m gold 0 s :=
  ⟨[], gold, h, fun hg => by rw [Int.add_zero, int32_of_isInt32 hg]⟩

theorem Settled.trans {c : Catalog} {s t : Arena} {first later : Int}
    (h : Settled c b₀ due m gold first s)
    (h' : ∀ due m gold, Ledger c b₀ due m gold s → Settled c b₀ due m gold later t) :
    Settled c b₀ due m gold (first + later) t := by
  obtain ⟨sold, between, ledger, hbetween⟩ := h
  obtain ⟨more, left, ledger', hleft⟩ := h' _ _ _ ledger
  refine ⟨more ++ sold, left, ?_, fun hg => ?_⟩
  · unfold Notice.each at ledger' ⊢
    rw [List.map_append, List.append_assoc, List.length_append, Nat.add_comm more.length,
      ← Nat.add_assoc]
    exact ledger'
  · have hb := hbetween hg
    rw [hleft (hb ▸ isInt32_int32 _), hb, int32_int32_add, Int.add_assoc]

/-- What a call that succeeds does to the ledger. -/
theorem ledger_call (h : Ledger rules.catalog b₀ due m gold p.arena) (hw : p.arena.board.WellFormed)
    (c : Call) (hc : ∀ told source, c ≠ .trigger told source) (hs : (p.call rules c).1 = .ok ()) :
    Settled rules.catalog b₀ due m gold (c.takings p.arena.board) (p.call rules c).2.arena := by
  obtain ⟨hresult, harena⟩ := call_eq rules p c
  have unsold {step : Resolve Unit} (hstep : Triple anyway (Ledger rules.catalog b₀ due m gold) step
      fun _ => Ledger rules.catalog b₀ due m gold) :
      Ends anyway (fun _ => Settled rules.catalog b₀ due m gold 0) (step p.arena) :=
    (triple_iff.1 hstep p.arena h).weaken (fun _ _ he => he) fun _ _ => .unsold
  have ends : Ends anyway (fun _ => Settled rules.catalog b₀ due m gold (c.takings p.arena.board))
      (c.resolve rules (procedures rules) p.arena) := by
    cases c with
    | trigger told source => exact absurd rfl (hc told source)
    | sell index =>
      refine (ledger_sell rules b₀ due m gold h hw index).bind fun _ _ hs => ?_
      obtain ⟨id, ledger⟩ := hs
      exact ⟨[id], _, ledger, fun _ => rfl⟩
    | placePet pet index tierOne afterLoss =>
      have placed := ledger_placePet rules b₀ due m gold pet index tierOne afterLoss
      exact unsold (Couples.bind placed fun _ => keeps_pure _)
    | feed food target =>
      exact unsold (Couples.bind (ledger_feed rules b₀ due m gold food target) fun _ => keeps_pure _)
    | endTurn => exact unsold (ledger_endTurn rules b₀ due m gold)
  rw [hresult] at hs
  rw [harena]
  generalize c.resolve rules (procedures rules) p.arena = r at ends hs
  obtain ⟨r, s⟩ := r
  cases hs
  exact ends

/-- By induction on the calls: every sale takes one pet off the line. -/
theorem ledger_replies (calls : List Call) {answers : List Answer} {p' : PurchasePhase}
    (hr : Reachable rules team shop (fun _ => True) p) (h : Ledger rules.catalog b₀ due m gold p.arena)
    (hcalls : ∀ c ∈ calls, ∀ told source, c ≠ .trigger told source)
    (hs : p.replies rules calls = (answers.map .ok, p')) :
    Settled rules.catalog b₀ due m gold (p.takings rules calls) p'.arena := by
  induction calls generalizing p due m gold answers with
  | nil =>
    obtain ⟨_, rfl⟩ := Prod.mk.inj hs
    exact .unsold h
  | cons c rest ih =>
    obtain ⟨hc, hrest⟩ := List.forall_mem_cons.1 hcalls
    obtain ⟨replies, ends⟩ := Prod.mk.inj hs
    obtain ⟨answer, others, rfl, first, later⟩ := List.map_eq_cons_iff.1 replies.symm
    obtain ⟨same, succeeds⟩ := reply_eq rules p c
    have settled := ledger_call h (wellFormed_of_reachable hr) c hc (succeeds answer first.symm)
    rw [same] at later ends
    exact settled.trans fun _ _ _ ledger =>
      ih (hr.call c c.brings_true) ledger hrest (Prod.ext later.symm ends)

/-- A pet is in line after calls that all succeed if it was there at the start or was announced and
was not sold since. Nothing that belongs to a fight is told and no attack waits; and if no effect in
the catalog gives gold, the shop has gained the levels that the sold pets had, counted as a machine
integer. -/
theorem turn_is_accounted_for (rules : Rules) (hr : rules.config.recordEvents = true) (team : Team)
    (shop : Shop) (calls : List Call) (hcalls : ∀ c ∈ calls, ∀ told source, c ≠ .trigger told source)
    (answers : List Answer) (p : PurchasePhase)
    (hs : (ofTeam rules.config team shop).replies rules calls = (answers.map .ok, p)) :
    ((p.arena.board.roster .a).length : Int) =
        ((ofTeam rules.config team shop).arena.board.roster .a).length +
          p.arena.log.told .summoned .a - p.arena.log.entries .sell ∧
      (∀ trigger ∈ fightTriggers, p.arena.log.entries trigger = 0) ∧
      (∀ side, p.arena.waits side = []) ∧
      (rules.catalog.PaysNothing → IsInt32 shop.gold →
        p.arena.shop.map (·.gold) =
            some (int32 (shop.gold + (ofTeam rules.config team shop).takings rules calls)) ∧
          (IsInt32 (shop.gold + (ofTeam rules.config team shop).takings rules calls) →
            p.arena.shop.map (·.gold) =
              some (shop.gold + (ofTeam rules.config team shop).takings rules calls))) := by
  have opens : Ledger rules.catalog (Board.ofTeam team) [] 0 shop.gold
      (ofTeam rules.config team shop).arena := by
    refine ⟨⟨hr, Board.wellFormed_ofTeam team, [], nofun, rfl, .refl []⟩, hr, fun _ _ => rfl, rfl,
      fun side => ?_, fun _ => rfl⟩
    cases side <;> rfl
  obtain ⟨sold, left, ledger, hleft⟩ := ledger_replies calls .new opens hcalls hs
  refine ⟨?_, ledger.books.unfought, ledger.books.idle, fun hc hg => ?_⟩
  · have length := ledger.announced.length .a
    have sales : p.arena.log.entries .sell = 0 + sold.length := ledger.books.sold
    have unfought : p.arena.log.entries .faint = 0 := ledger.books.unfought .faint (by decide)
    have faints := p.arena.log.told_le_entries .faint .a
    rw [List.append_nil, Notice.count_each, Notice.count_each, if_pos rfl, if_neg nofun] at length
    show ((p.arena.board.roster .a).length : Int) = ((Board.ofTeam team).roster .a).length + _ - _
    omega
  · rw [ledger.books.purse hc, hleft hg]
    exact ⟨rfl, fun fits => congrArg some (int32_of_isInt32 fits)⟩

/-- When it is sold its offspring takes its place. -/
def hen : PetKind :=
  ⟨⟨"pet-hen"⟩, "pet-hen", 1, 2, 1, [],
    some ⟨"", .sell, .self, .summonPet ⟨"pet-egg"⟩ .friendly none none, none⟩, none, none⟩

def egg : PetKind := ⟨⟨"pet-egg"⟩, "pet-egg", 1, 1, 1, [], none, none, none⟩

def henRules : Rules := ⟨.ofLists [hen, egg] [] [], { recordEvents := true }⟩

theorem paysNothing_henRules : henRules.catalog.PaysNothing := by
  apply Catalog.every_ofLists
  · intro kind hk ability ha
    simp only [List.mem_cons, List.not_mem_nil, or_false] at hk
    rcases hk with rfl | rfl
    · simp only [hen, List.mem_cons, List.not_mem_nil, or_false, reduceCtorEq, Option.some.injEq] at ha
      rw [ha]
      exact ⟨id, trivial⟩
    · simp [egg] at ha
  · exact fun _ h => absurd h List.not_mem_nil
  · exact fun _ h => absurd h List.not_mem_nil

/-- A hen is sold, another one is bought, and the offspring of the first is sold too. -/
def henCalls : List Call :=
  [.sell 0, .placePet (.ofKind hen) none true false, .sell 0, .endTurn]

def henTurn : PurchasePhase :=
  ofTeam henRules.config (.ofPets [.ofKind hen, .ofKind egg]) (.ofGold startingGold)

def henReplies : List (Except EngineError Answer) × PurchasePhase :=
  henTurn.replies henRules henCalls

def henAnswers : List Answer :=
  [.sold (.ofKind hen), .placed (some 2), .sold (.ofKind egg), .done]

theorem turn_is_accounted_for_hen :
    henReplies.1 = henAnswers.map .ok ∧ henReplies.2.arena.log.told .summoned .a = 2 ∧
      henReplies.2.arena.log.entries .sell = 2 ∧ henReplies.2.arena.log.entries .faint = 0 ∧
      (henReplies.2.arena.board.roster .a).length = 2 ∧
      henReplies.2.arena.shop.map (·.gold) = some (startingGold + 2) := by
  have replied : henTurn.replies henRules henCalls = henReplies := rfl
  have answered : henReplies.1 = henAnswers.map .ok := by decide +kernel
  have summoned : henReplies.2.arena.log.told .summoned .a = 2 := by decide +kernel
  have sold : henReplies.2.arena.log.entries .sell = 2 := by decide +kernel
  have first : (henTurn.arena.board.roster .a).length = 2 := by decide +kernel
  have paid : henTurn.takings henRules henCalls = 2 := by decide +kernel
  generalize henReplies = r at *
  obtain ⟨replies, p⟩ := r
  obtain rfl : replies = henAnswers.map .ok := answered
  dsimp only at summoned sold ⊢
  obtain ⟨line, unfought, _, purse⟩ := turn_is_accounted_for henRules rfl
    (.ofPets [.ofKind hen, .ofKind egg]) (.ofGold startingGold) henCalls (by simp [henCalls])
    henAnswers p replied
  have settled := (purse paysNothing_henRules (by decide)).2
  have length : ((p.arena.board.roster .a).length : Int) = (henTurn.arena.board.roster .a).length +
      p.arena.log.told .summoned .a - p.arena.log.entries .sell := line
  rw [first, summoned, sold] at length
  have fits : IsInt32 (startingGold + henTurn.takings henRules henCalls) := by
    rw [paid]
    decide
  refine ⟨rfl, summoned, sold, unfought .faint (by decide), by omega, (settled fits).trans ?_⟩
  exact congrArg (fun n => some (startingGold + n)) paid

end PurchasePhase

end AutoBattler
