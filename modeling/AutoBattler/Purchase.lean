import AutoBattler.Resolution.Cycle

/-!
# Shop turns

Buying, feeding, selling and ending the turn, told through the same dispatcher as battles. The
team stands on side `a` of a board for the turn; side `b` stays empty. After every call that
succeeds the team is what stands on the roster.
-/
namespace AutoBattler

structure PurchasePhase where
  arena : Arena
  team : Team

namespace Resolve

/-- The pet at a place of the roster of side `a`. -/
def petAt (index : Nat) : Resolve PetId := do
  let roster ← look (·.board.roster .a)
  match roster[index]? with
  | some id => pure id
  | none => fail (.rosterIndex index roster.length)

def gold : Resolve Int := look fun s =>
  match s.shop with
  | some shop => shop.gold
  | none => 0

/-! ## The calls -/

def triggerEvent (p : Procedures) (trigger : Trigger) (source : Option Nat) : Resolve Unit := do
  match source with
  | none => p.tell (.purchase trigger)
  | some index => do
    let id ← petAt index
    p.tell ((Event.purchase trigger).withSource id)

/-- The events that tell of a bought pet, in this order. -/
def purchaseTriggers (tierOne afterLoss : Bool) : List Trigger :=
  [.buy] ++ (if tierOne then [.buyTierOneAnimal] else [])
    ++ (if afterLoss then [.buyAfterLoss] else []) ++ [.summoned]

/-- The place of the pet once all have answered, if there was room for it. -/
def placePet (p : Procedures) (pet : Pet) (index : Option Nat) (tierOne afterLoss : Bool) :
    Resolve (Option Nat) := do
  let placement := match index with
    | some index => Placement.at index
    | none => Placement.front
  match ← spawn .a pet placement with
  | none => pure none
  | some id => do
    forEach (purchaseTriggers tierOne afterLoss) fun trigger =>
      p.tell ((Event.purchase trigger).withSource id)
    look (·.board.position? id)

/-- Performs the ability of a food for no pet in particular and tells of each pet it touched. -/
def feed (rules : Rules) (p : Procedures) (food : FoodId) (target : Nat) :
    Resolve (List PetId) := do
  let definition ← ofExcept (rules.catalog.food food)
  let id ← petAt target
  let event := (Event.purchase definition.ability.trigger).withPurchase id food
  let affected ← p.act event none definition.ability.effect
  forEach affected fun pet => p.tell (event.followUp .eatsShopFood .a pet)
  pure affected

/-- Pays the level of the pet in gold. The pet has left the line and still hears of its sale. -/
def sell (p : Procedures) (index : Nat) : Resolve Pet := do
  let id ← petAt index
  let line ← look (·.board.roster .a)
  let _ ← remove id
  match ← pet? id with
  | none => fail (.rosterIndex index line.length)
  | some sold => do
    modifyShop (Shop.addGold sold.level)
    p.tell (((Event.purchase .sell).withSource id).withSnapshot line)
    pure sold

/-- Whether an event that depends on a condition is told at the end of the turn. -/
def holds (trigger : Trigger) : Resolve Bool := do
  let gold ← gold
  let b ← board
  pure (match trigger with
    | .endOfTurnWithThreeGold => 3 ≤ gold
    | .endOfTurnWithTwoGold => 2 ≤ gold
    | .endOfTurnWithFourAnimals => (b.roster .a).length ≤ 4
    | .endOfTurnWithTopLevelFriend => (b.livePets .a).any fun pet => maxLevel ≤ pet.level
    | _ => false)

def conditionalTriggers : List Trigger :=
  [.endOfTurnWithThreeGold, .endOfTurnWithTwoGold, .endOfTurnWithFourAnimals,
    .endOfTurnWithTopLevelFriend]

/-- Every condition is looked at when the events before it have been told. -/
def endTurn (p : Procedures) : Resolve Unit := do
  p.tell (.purchase .endOfTurn)
  forEach conditionalTriggers fun trigger => do
    if ← holds trigger then p.tell (.purchase trigger)
    else pure ()

end Resolve

namespace PurchasePhase

def ofTeam (config : EngineConfig) (team : Team) (shop : Shop) : PurchasePhase where
  arena := .open config (.ofTeam team) (some shop)
  team := team

/-- Plays a call. If it succeeds the team becomes the roster. -/
def play {α : Type} (step : Resolve α) (p : PurchasePhase) : Except EngineError α × PurchasePhase :=
  match step p.arena with
  | (.ok x, s) => (.ok x, ⟨s, { p.team with pets := s.board.livePets .a }⟩)
  | (.error e, s) => (.error e, { p with arena := s })

def trigger (rules : Rules) (trigger : Trigger) (source : Option Nat) (p : PurchasePhase) :
    Except EngineError Unit × PurchasePhase :=
  p.play (Resolve.triggerEvent (Resolve.procedures rules) trigger source)

/-- A pet for which there is no room changes nothing. -/
def placePet (rules : Rules) (pet : Pet) (index : Option Nat) (tierOne afterLoss : Bool)
    (p : PurchasePhase) : Except EngineError (Option Nat) × PurchasePhase :=
  if p.arena.board.canAdd .a then
    p.play (Resolve.placePet (Resolve.procedures rules) pet index tierOne afterLoss)
  else (.ok none, p)

def feed (rules : Rules) (food : FoodId) (target : Nat) (p : PurchasePhase) :
    Except EngineError (List PetId) × PurchasePhase :=
  p.play (Resolve.feed rules (Resolve.procedures rules) food target)

def sell (rules : Rules) (index : Nat) (p : PurchasePhase) : Except EngineError Pet × PurchasePhase :=
  p.play (Resolve.sell (Resolve.procedures rules) index)

def endTurn (rules : Rules) (p : PurchasePhase) : Except EngineError Unit × PurchasePhase :=
  p.play (Resolve.endTurn (Resolve.procedures rules))

end PurchasePhase

end AutoBattler
