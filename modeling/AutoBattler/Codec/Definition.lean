import AutoBattler.Catalog
import AutoBattler.Json.Fields
import AutoBattler.Json.Reader

/-!
# The form of definition data

Selectors, audiences and effects are objects with a `kind` that says which one they are. Fields
with a default may be left out; on output all fields are written.
-/
namespace AutoBattler

open Json (Fields asString? asBool? asInt32? asNat8? asNat32? asNat64? asList? asFields?
  asRecord? ofNat ofOption ofList)

/-- An object that says its kind. Such an object is read as a whole before its fields are, so
nothing in it may be unreadable. -/
def Json.tagged? (j : Json) : Option (String × Fields) := do
  if j.isReadable then
    let fields ← asFields? j
    let kind ← fields.required? "kind" asString?
    return (kind, fields)
  else none

def Json.tagged (kind : String) (fields : Fields) : Json := .object (("kind", .str kind) :: fields)

namespace Name

variable {space : Namespace}

def ofJson? (j : Json) : Option (Name space) := (asString? j).map fun text => ⟨text⟩

def toJson (n : Name space) : Json := .str n.text

end Name

namespace Trigger

def ofJson? (j : Json) : Option Trigger := (asString? j).bind ofName?

def toJson (t : Trigger) : Json := .str t.name

end Trigger

namespace Audience

def name : Audience → String
  | self => "Self"
  | eachFriend => "EachFriend"
  | friendAhead => "FriendAhead"
  | player => "Player"

def ofJson? (j : Json) : Option Audience := do
  let (kind, _) ← j.tagged?
  [self, eachFriend, friendAhead, player].find? (·.name = kind)

def toJson (a : Audience) : Json := .tagged a.name []

end Audience

namespace Selector

/-- The kinds that have no further fields. -/
def plain : List (String × Selector) :=
  [("Self", self), ("TriggeringEntity", triggeringEntity), ("PurchaseTarget", purchaseTarget),
    ("EachFriend", eachFriend), ("EachEnemy", eachEnemy), ("All", all),
    ("Level2And3Friends", seasonedFriends), ("DifferentTierAnimals", differentTierAnimals),
    ("AdjacentFriends", adjacentFriends), ("LeftMostFriend", leftMostFriend),
    ("RightMostFriend", rightMostFriend), ("FirstEnemy", firstEnemy), ("LastEnemy", lastEnemy),
    ("LowestHealthEnemy", lowestHealthEnemy), ("HighestHealthEnemy", highestHealthEnemy),
    ("AdjacentAnimals", adjacentAnimals), ("StrongestFriend", strongestFriend)]

/-- The kinds that take a number of pets. -/
def counted : List (String × (Nat → Selector)) :=
  [("RandomFriend", randomFriend), ("RandomEnemy", randomEnemy), ("FriendBehind", friendBehind),
    ("FriendAhead", friendAhead)]

def ofJson? (j : Json) : Option Selector := do
  let (kind, fields) ← j.tagged?
  match plain.lookup kind, counted.lookup kind with
  | some selector, _ => return selector
  | none, some selector => (fields.required? "n" asNat64?).map selector
  | none, none =>
    if kind = "EachShopAnimal" then
      (fields.withDefault? "includingFuture" false asBool?).map eachShopAnimal
    else none

def toJson : Selector → Json
  | self => .tagged "Self" []
  | triggeringEntity => .tagged "TriggeringEntity" []
  | purchaseTarget => .tagged "PurchaseTarget" []
  | randomFriend n => .tagged "RandomFriend" [("n", ofNat n)]
  | randomEnemy n => .tagged "RandomEnemy" [("n", ofNat n)]
  | eachFriend => .tagged "EachFriend" []
  | eachEnemy => .tagged "EachEnemy" []
  | all => .tagged "All" []
  | seasonedFriends => .tagged "Level2And3Friends" []
  | differentTierAnimals => .tagged "DifferentTierAnimals" []
  | adjacentFriends => .tagged "AdjacentFriends" []
  | leftMostFriend => .tagged "LeftMostFriend" []
  | rightMostFriend => .tagged "RightMostFriend" []
  | firstEnemy => .tagged "FirstEnemy" []
  | lastEnemy => .tagged "LastEnemy" []
  | lowestHealthEnemy => .tagged "LowestHealthEnemy" []
  | highestHealthEnemy => .tagged "HighestHealthEnemy" []
  | friendBehind n => .tagged "FriendBehind" [("n", ofNat n)]
  | friendAhead n => .tagged "FriendAhead" [("n", ofNat n)]
  | adjacentAnimals => .tagged "AdjacentAnimals" []
  | strongestFriend => .tagged "StrongestFriend" []
  | eachShopAnimal future => .tagged "EachShopAnimal" [("includingFuture", .bool future)]

end Selector

namespace SummonTeam

def ofJson? (j : Json) : Option SummonTeam := do
  match ← asString? j with
  | "Friendly" => return friendly
  | "Enemy" => return enemy
  | _ => none

def toJson : SummonTeam → Json
  | friendly => .str "Friendly"
  | enemy => .str "Enemy"

end SummonTeam

namespace DamageAmount

/-- A fixed amount, or else a percentage. A fixed amount that does not fit is passed over. -/
def ofFields? (fields : Fields) : Option DamageAmount :=
  match fields.required? "amount" asInt32? with
  | some amount => some (fixed amount)
  | none => (fields.required? "attackDamagePercent" asInt32?).map attackPercent

def ofJson? (j : Json) : Option DamageAmount :=
  if j.isReadable then (asFields? j).bind ofFields? else none

def toField : DamageAmount → String × Json
  | fixed amount => ("amount", .int amount)
  | attackPercent percent => ("attackDamagePercent", .int percent)

def toJson (a : DamageAmount) : Json := .object [a.toField]

end DamageAmount

namespace Effect

/-- An effect from the fields of its object, given what each field is as a list of effects. -/
def ofFields? (kind : String) (fields : Fields) (lists : List (String × Option (List Effect))) :
    Option Effect := do
  let int (name : String) := fields.required? name asInt32?
  let target (name : String) := fields.required? name Selector.ofJson?
  let flag (name : String) := fields.withDefault? name false asBool?
  match kind with
  | "OneOf" => return oneOf (← (← (← Fields.only? lists ["effects"])))
  | "AllOf" => return allOf (← (← (← Fields.only? lists ["effects"])))
  | "ModifyStats" =>
    return modifyStats (← fields.withDefault? "attackAmount" 0 asInt32?)
      (← fields.withDefault? "healthAmount" 0 asInt32?) (← target "target")
      (← flag "untilEndOfBattle")
  | "GainExperience" =>
    return gainExperience (← fields.required? "amount" asNat32?) (← target "target")
  | "ApplyStatus" =>
    return applyStatus (← fields.required? "status" Name.ofJson?) (← target "target")
  | "DealDamage" => return dealDamage (← DamageAmount.ofFields? fields) (← target "target")
  | "SplashDamage" => return splashDamage (← int "amount")
  | "ReduceHealth" => return reduceHealth (← int "percentage") (← target "target")
  | "SummonPet" =>
    return summonPet (← fields.required? "pet" Name.ofJson?)
      (← fields.withDefault? "team" .friendly SummonTeam.ofJson?)
      (← fields.optional? "withAttack" asInt32?) (← fields.optional? "withHealth" asInt32?)
  | "SummonRandomPet" =>
    return summonRandomPet (← fields.required? "tier" asNat8?)
      (← fields.optional? "baseAttack" asInt32?) (← fields.optional? "baseHealth" asInt32?)
      (← fields.optional? "level" asNat8?)
  | "RespawnPet" => return respawnPet (← int "baseAttack") (← int "baseHealth")
  | "TransferStats" =>
    return transferStats (← target "from")
      (← fields.requiredAs? ["to", "target"] Selector.ofJson?) (← flag "copyAttack")
      (← flag "copyHealth")
  | "TransferAbility" =>
    return transferAbility (← target "from")
      (← fields.requiredAs? ["to", "target"] Selector.ofJson?) (← fields.optional? "level" asNat8?)
  | "GainGold" => return gainGold (← int "amount")
  | "Evolve" => return evolve (← fields.required? "into" Name.ofJson?)
  | "RepeatAbility" =>
    return repeatAbility (← target "target") (← fields.optional? "level" asNat8?)
  | "ModifyDamage" =>
    return modifyDamage (← fields.optional? "damageModifier" asInt32?) (← flag "appliesOnce")
  | _ => none

mutual

def ofJson? : Json → Option Effect
  | .object fields plain => do
    let (kind, fields') ← (Json.object fields plain).tagged?
    ofFields? kind fields' (listsOf fields)
  | _ => none

def listsOf : List (String × Json) → List (String × Option (List Effect))
  | [] => []
  | (name, j) :: rest => (name, listOf? j) :: listsOf rest

def listOf? : Json → Option (List Effect)
  | .array items => itemsOf? items
  | _ => none

def itemsOf? : List Json → Option (List Effect)
  | [] => some []
  | j :: rest => do return (← ofJson? j) :: (← itemsOf? rest)

end

/-- The kind that the object of an effect says. -/
def kindName : Effect → String
  | oneOf .. => "OneOf"
  | allOf .. => "AllOf"
  | modifyStats .. => "ModifyStats"
  | gainExperience .. => "GainExperience"
  | applyStatus .. => "ApplyStatus"
  | dealDamage .. => "DealDamage"
  | splashDamage .. => "SplashDamage"
  | reduceHealth .. => "ReduceHealth"
  | summonPet .. => "SummonPet"
  | summonRandomPet .. => "SummonRandomPet"
  | respawnPet .. => "RespawnPet"
  | transferStats .. => "TransferStats"
  | transferAbility .. => "TransferAbility"
  | gainGold .. => "GainGold"
  | evolve .. => "Evolve"
  | repeatAbility .. => "RepeatAbility"
  | modifyDamage .. => "ModifyDamage"

mutual

def toFields : Effect → Fields
  | oneOf effects => [("effects", .array (toItems effects))]
  | allOf effects => [("effects", .array (toItems effects))]
  | modifyStats attack health target temporary =>
    [("attackAmount", .int attack), ("healthAmount", .int health), ("target", target.toJson),
      ("untilEndOfBattle", .bool temporary)]
  | gainExperience amount target => [("amount", ofNat amount), ("target", target.toJson)]
  | applyStatus status target => [("status", status.toJson), ("target", target.toJson)]
  | dealDamage amount target => [amount.toField, ("target", target.toJson)]
  | splashDamage amount => [("amount", .int amount)]
  | reduceHealth percentage target => [("percentage", .int percentage), ("target", target.toJson)]
  | summonPet kind team attack health =>
    [("pet", kind.toJson), ("team", team.toJson), ("withAttack", ofOption Json.int attack),
      ("withHealth", ofOption Json.int health)]
  | summonRandomPet tier attack health level =>
    [("tier", ofNat tier), ("baseAttack", ofOption Json.int attack),
      ("baseHealth", ofOption Json.int health), ("level", ofOption ofNat level)]
  | respawnPet attack health => [("baseAttack", .int attack), ("baseHealth", .int health)]
  | transferStats giver receivers copyAttack copyHealth =>
    [("from", giver.toJson), ("to", receivers.toJson), ("copyAttack", .bool copyAttack),
      ("copyHealth", .bool copyHealth)]
  | transferAbility giver receivers level =>
    [("from", giver.toJson), ("to", receivers.toJson), ("level", ofOption ofNat level)]
  | gainGold amount => [("amount", .int amount)]
  | evolve into => [("into", into.toJson)]
  | repeatAbility target level => [("target", target.toJson), ("level", ofOption ofNat level)]
  | modifyDamage modifier once =>
    [("damageModifier", ofOption Json.int modifier), ("appliesOnce", .bool once)]

def toItems : List Effect → List Json
  | [] => []
  | e :: rest => .tagged e.kindName (toFields e) :: toItems rest

end

def toJson (e : Effect) : Json := .tagged e.kindName e.toFields

end Effect

namespace Ability

def ofJson? (j : Json) : Option Ability := do
  let fields ← asRecord? j
  return {
    description := ← fields.withDefault? "description" "" asString?
    trigger := ← fields.required? "trigger" Trigger.ofJson?
    audience := ← fields.required? "triggeredBy" Audience.ofJson?
    effect := ← fields.required? "effect" Effect.ofJson?
    maxTriggers := ← fields.optional? "maxTriggers" asNat32? }

def toJson (a : Ability) : Json :=
  .object [("description", .str a.description), ("trigger", a.trigger.toJson),
    ("triggeredBy", a.audience.toJson), ("effect", a.effect.toJson),
    ("maxTriggers", ofOption ofNat a.maxTriggers)]

end Ability

namespace PetKind

def ofJson? (j : Json) : Option PetKind := do
  let fields ← asRecord? j
  return {
    id := ← fields.required? "id" Name.ofJson?
    name := ← fields.required? "name" asString?
    tier := ← fields.required? "tier" asNat8?
    baseAttack := ← fields.required? "baseAttack" asInt32?
    baseHealth := ← fields.required? "baseHealth" asInt32?
    packs := ← fields.withDefault? "packs" [] (asList? asString?)
    level1 := ← fields.optional? "level1Ability" Ability.ofJson?
    level2 := ← fields.optional? "level2Ability" Ability.ofJson?
    level3 := ← fields.optional? "level3Ability" Ability.ofJson? }

def toJson (k : PetKind) : Json :=
  .object [("id", k.id.toJson), ("name", .str k.name), ("tier", ofNat k.tier),
    ("baseAttack", .int k.baseAttack), ("baseHealth", .int k.baseHealth),
    ("packs", ofList Json.str k.packs), ("level1Ability", ofOption Ability.toJson k.level1),
    ("level2Ability", ofOption Ability.toJson k.level2),
    ("level3Ability", ofOption Ability.toJson k.level3)]

end PetKind

namespace StatusKind

def ofJson? (j : Json) : Option StatusKind := do
  let fields ← asRecord? j
  return {
    id := ← fields.required? "id" Name.ofJson?
    name := ← fields.required? "name" asString?
    ability := ← fields.required? "ability" Ability.ofJson? }

def toJson (s : StatusKind) : Json :=
  .object [("id", s.id.toJson), ("name", .str s.name), ("ability", s.ability.toJson)]

end StatusKind

namespace Food

def ofJson? (j : Json) : Option Food := do
  let fields ← asRecord? j
  return {
    id := ← fields.required? "id" Name.ofJson?
    name := ← fields.required? "name" asString?
    tier := ← fields.withDefault? "tier" 0 asNat8?
    cost := ← fields.withDefault? "cost" 3 asNat32?
    ability := ← fields.required? "ability" Ability.ofJson? }

def toJson (f : Food) : Json :=
  .object [("id", f.id.toJson), ("name", .str f.name), ("tier", ofNat f.tier),
    ("cost", ofNat f.cost), ("ability", f.ability.toJson)]

end Food

namespace Catalog

/-- Values under names, in the order of the names. Of fields with one name the last counts, and
the names themselves are dropped. -/
def sectionOf? {α : Type} (read : Json → Option α) (j : Json) : Option (List α) := do
  let fields ← asFields? j
  let entries ← fields.mapM fun field => (read field.2).map fun value => (field.1, value)
  return Table.inOrder (.ofList entries)

def ofJson? (j : Json) : Option Catalog := do
  let fields ← asRecord? j
  return ofSource (← fields.withDefault? "pets" [] (sectionOf? PetKind.ofJson?))
    (← fields.withDefault? "statuses" [] (sectionOf? StatusKind.ofJson?))
    (← fields.withDefault? "foods" [] (sectionOf? Food.ofJson?))

/-- The catalog of a data file. -/
def ofText (text : String) : Except EngineError Catalog :=
  match (Json.parse? Json.nestingLimit text).bind ofJson? with
  | some catalog => .ok catalog
  | none => .error .invalidDefinitions

end Catalog

end AutoBattler
