import AutoBattler.Resolution.Dispatch

/-!
# What a resolution can do

A scope bounds the events that are told, the effects that are performed and the pets that are
stored. From it follow the ways in which a pet, the line or the shop can change, and the names
whose look-up can fail.
-/
namespace AutoBattler

open Resolve (reduceHealth copyStats attackEvent)

/-! ## Effects and their parts -/

namespace Effect

mutual

/-- The effect and all effects nested in it satisfy `p`. -/
def Every (p : Effect → Prop) (e : Effect) : Prop :=
  p e ∧ match e with
    | oneOf effects => EveryOf p effects
    | allOf effects => EveryOf p effects
    | _ => True

def EveryOf (p : Effect → Prop) : List Effect → Prop
  | [] => True
  | e :: rest => Every p e ∧ EveryOf p rest

end

theorem Every.self {p : Effect → Prop} {e : Effect} (h : e.Every p) : p e := by
  unfold Every at h
  exact h.1

mutual

theorem every_true : (e : Effect) → e.Every fun _ => True
  | .oneOf effects => ⟨trivial, everyOf_true effects⟩
  | .allOf effects => ⟨trivial, everyOf_true effects⟩
  | .modifyStats .. | .gainExperience .. | .applyStatus .. | .dealDamage .. | .splashDamage ..
  | .reduceHealth .. | .summonPet .. | .summonRandomPet .. | .respawnPet .. | .transferStats ..
  | .transferAbility .. | .gainGold .. | .evolve .. | .repeatAbility .. | .modifyDamage .. =>
    ⟨trivial, trivial⟩

theorem everyOf_true : (effects : List Effect) → EveryOf (fun _ => True) effects
  | [] => trivial
  | e :: rest => ⟨every_true e, everyOf_true rest⟩

end

mutual

theorem Every.imp₂ {p q r : Effect → Prop} (h : ∀ e, p e → q e → r e) :
    {e : Effect} → e.Every p → e.Every q → e.Every r
  | .oneOf _, hp, hq => ⟨h _ hp.1 hq.1, EveryOf.imp₂ h hp.2 hq.2⟩
  | .allOf _, hp, hq => ⟨h _ hp.1 hq.1, EveryOf.imp₂ h hp.2 hq.2⟩
  | .modifyStats .., hp, hq | .gainExperience .., hp, hq | .applyStatus .., hp, hq
  | .dealDamage .., hp, hq | .splashDamage .., hp, hq | .reduceHealth .., hp, hq
  | .summonPet .., hp, hq | .summonRandomPet .., hp, hq | .respawnPet .., hp, hq
  | .transferStats .., hp, hq | .transferAbility .., hp, hq | .gainGold .., hp, hq
  | .evolve .., hp, hq | .repeatAbility .., hp, hq | .modifyDamage .., hp, hq =>
    ⟨h _ hp.1 hq.1, trivial⟩

theorem EveryOf.imp₂ {p q r : Effect → Prop} (h : ∀ e, p e → q e → r e) :
    {effects : List Effect} → EveryOf p effects → EveryOf q effects → EveryOf r effects
  | [], _, _ => trivial
  | _ :: _, hp, hq => ⟨Every.imp₂ h hp.1 hq.1, EveryOf.imp₂ h hp.2 hq.2⟩

end

theorem Every.imp {p q : Effect → Prop} (h : ∀ e, p e → q e) {e : Effect} (hp : e.Every p) :
    e.Every q := hp.imp₂ (fun e hp _ => h e hp) (every_true e)

/-- The selectors by which the effect itself finds pets. -/
def selectors : Effect → List Selector
  | modifyStats _ _ target _ => [target]
  | gainExperience _ target => [target]
  | applyStatus _ target => [target]
  | dealDamage _ target => [target]
  | reduceHealth _ target => [target]
  | transferStats donor receivers _ _ => [donor, receivers]
  | transferAbility donor receivers _ => [donor, receivers]
  | repeatAbility target _ => [target]
  | _ => []

/-- Whether the effect itself draws one of several things. -/
def chooses : Effect → Bool
  | oneOf _ => true
  | summonRandomPet .. => true
  | _ => false

/-- The effect consists of no others and lets no other pet perform one. -/
def IsSingle : Effect → Prop
  | oneOf _ | allOf _ | repeatAbility .. => False
  | _ => True

end Effect

/-! ## What a catalog defines -/

namespace Catalog

variable {c : Catalog}

theorem petKind_eq_ok {id : PetKindId} {kind : PetKind} :
    c.petKind id = .ok kind ↔ c.pets[id]? = some kind := by
  unfold petKind
  split <;> simp [*]

theorem status_eq_ok {id : StatusId} {status : StatusKind} :
    c.status id = .ok status ↔ c.statuses[id]? = some status := by
  unfold Catalog.status
  split <;> simp [*]

theorem food_eq_ok {id : FoodId} {food : Food} :
    c.food id = .ok food ↔ c.foods[id]? = some food := by
  unfold Catalog.food
  split <;> simp [*]

/-- The ability that a pet uses is one of the kind that it borrows from or is of. -/
theorem kind_of_levelAbility {pet : Pet} {ability : Ability}
    (h : c.levelAbility pet = .ok (some ability)) :
    ∃ kind, c.petKind pet.abilityKind = .ok kind ∧
      kind.ability pet.abilityLevel = some ability := by
  unfold levelAbility at h
  cases hk : c.petKind pet.abilityKind with
  | error e => rw [hk] at h; cases h
  | ok kind =>
    rw [hk] at h
    exact ⟨kind, rfl, Except.ok.inj h⟩

theorem status_of_statusAbility {pet : Pet} {ability : Ability}
    (h : c.statusAbility pet = .ok (some ability)) :
    ∃ id status, pet.status = some id ∧ c.status id = .ok status ∧ status.ability = ability := by
  unfold statusAbility at h
  split at h
  · rename_i id hid
    cases hs : c.status id with
    | error e => rw [hs] at h; cases h
    | ok status =>
      rw [hs] at h
      cases h
      exact ⟨id, status, hid, hs, rfl⟩
  · cases h

end Catalog

/-- The abilities that a catalog defines, of kinds at some level, statuses and foods. -/
inductive Catalog.Offers (c : Catalog) : Ability → Prop
  | level {id : PetKindId} {kind : PetKind} {level : Nat} {ability : Ability}
      (hk : c.pets[id]? = some kind) (ha : kind.ability level = some ability) : Offers c ability
  | status {id : StatusId} {status : StatusKind} (hs : c.statuses[id]? = some status) :
      Offers c status.ability
  | food {id : FoodId} {food : Food} (hf : c.foods[id]? = some food) : Offers c food.ability

/-- Every effect in the catalog satisfies `p`, however deep it is nested. -/
def Catalog.Every (c : Catalog) (p : Effect → Prop) : Prop :=
  ∀ ability, c.Offers ability → ability.effect.Every p

theorem Table.mem_of_getElem?_ofValues {κ α : Type} [Ord κ] [Std.TransOrd κ] (key : α → κ)
    {values : List α} {k : κ} {v : α} (h : (ofValues key values)[k]? = some v) : v ∈ values := by
  have fold (values : List α) (t : Table κ α)
      (h : (values.foldl (fun t v => t.insert (key v) v) t)[k]? = some v) :
      t[k]? = some v ∨ v ∈ values := by
    induction values generalizing t with
    | nil => exact .inl h
    | cons x rest ih =>
      rcases ih (t.insert (key x) x) h with hx | hx
      · rw [Std.ExtTreeMap.getElem?_insert] at hx
        split at hx
        · cases hx
          exact .inr List.mem_cons_self
        · exact .inl hx
      · exact .inr (List.mem_cons_of_mem x hx)
  rcases fold values ∅ h with he | hm
  · simp at he
  · exact hm

theorem PetKind.mem_levels {kind : PetKind} {level : Nat} {ability : Ability}
    (h : kind.ability level = some ability) :
    some ability ∈ [kind.level1, kind.level2, kind.level3] := by
  rw [← h]
  unfold PetKind.ability
  split <;> simp

/-- What all abilities of the listed kinds, statuses and foods do holds of the whole catalog. -/
theorem Catalog.every_ofLists {p : Effect → Prop} {pets : List PetKind}
    {statuses : List StatusKind} {foods : List Food}
    (hp : ∀ kind ∈ pets, ∀ ability, some ability ∈ [kind.level1, kind.level2, kind.level3] →
      ability.effect.Every p)
    (hs : ∀ status ∈ statuses, status.ability.effect.Every p)
    (hf : ∀ food ∈ foods, food.ability.effect.Every p) : (ofLists pets statuses foods).Every p := by
  intro ability h
  cases h with
  | level hk ha => exact hp _ (Table.mem_of_getElem?_ofValues _ hk) _ (PetKind.mem_levels ha)
  | status h => exact hs _ (Table.mem_of_getElem?_ofValues _ h)
  | food h => exact hf _ (Table.mem_of_getElem?_ofValues _ h)

/-! ## Scopes -/

structure Scope where
  events : Event → Prop
  effects : Effect → Prop
  pets : Pet → Prop

/-- The scope that bounds nothing. -/
def Scope.all : Scope := ⟨fun _ => True, fun _ => True, fun _ => True⟩

structure Scope.Covers (S : Scope) (c : Catalog) : Prop where
  effects : c.Every S.effects
  cause : ∀ event cause, S.events event → event.cause = some cause → S.events cause

theorem Scope.covers_all (c : Catalog) : Scope.all.Covers c :=
  ⟨fun ability _ => ability.effect.every_true, fun _ _ _ _ => trivial⟩

/-- The ways in which effects, used up statuses and counters change a pet. -/
inductive Edit (c : Catalog) (S : Scope) : (Pet → Pet) → Prop
  | buff {attack health : Int} {target : Selector} {temporary : Bool}
      (h : S.effects (.modifyStats attack health target temporary)) :
      Edit c S (Pet.buff attack health temporary)
  | status {status : StatusId} {target : Selector} {kind : StatusKind}
      (h : S.effects (.applyStatus status target)) (hk : c.status status = .ok kind) :
      Edit c S (Pet.setStatus (some status))
  | reduce {percentage : Int} {target : Selector} (h : S.effects (.reduceHealth percentage target)) :
      Edit c S (reduceHealth percentage)
  | copy {giver receivers : Selector} {copyAttack copyHealth : Bool} {donor : Pet}
      (h : S.effects (.transferStats giver receivers copyAttack copyHealth)) (hd : S.pets donor) :
      Edit c S (copyStats donor copyAttack copyHealth)
  | borrow {giver receivers : Selector} {level : Option Nat} {donor : Pet}
      (h : S.effects (.transferAbility giver receivers level)) (hd : S.pets donor) :
      Edit c S (Pet.borrow donor.abilityKind (level.getD donor.abilityLevel))
  | useUp : Edit c S (Pet.setStatus none)
  | bump (key : String) : Edit c S (Pet.bump key)

inductive ShopEdit (S : Scope) : (Shop → Shop) → Prop
  | gold {amount : Int} (h : S.effects (.gainGold amount)) : ShopEdit S (Shop.addGold amount)
  | buffCurrent {attack health : Int} {target : Selector} {temporary : Bool}
      (h : S.effects (.modifyStats attack health target temporary)) :
      ShopEdit S (Shop.buffCurrent attack health)
  | buffAll {attack health : Int} {target : Selector} {temporary : Bool}
      (h : S.effects (.modifyStats attack health target temporary)) :
      ShopEdit S (Shop.buffAll attack health)

/-- What effects ask to be summoned. -/
inductive Asked (c : Catalog) (S : Scope) : Summons → Prop
  | named {kind : PetKindId} {team : SummonTeam} {attack health : Option Int}
      (h : S.effects (.summonPet kind team attack health)) :
      Asked c S ⟨kind, team, attack, health, none⟩
  | random {tier : Nat} {attack health : Option Int} {level : Option Nat} {kind : PetKind}
      (h : S.effects (.summonRandomPet tier attack health level)) (hk : kind ∈ c.kindsInTier tier) :
      Asked c S ⟨kind.id, .friendly, attack, health, level⟩
  | again {attack health : Int} {pet : Pet} (h : S.effects (.respawnPet attack health))
      (hp : S.pets pet) : Asked c S ⟨pet.kind, .friendly, some attack, some health, some pet.level⟩

/-- The pets that come into line in answer to such a request. -/
inductive Newcomer (c : Catalog) (S : Scope) : Pet → Prop
  | plain {request : Summons} {kind : PetKind} (h : Asked c S request)
      (hk : c.petKind request.kind = .ok kind) : Newcomer c S (request.pet kind)
  | inheriting {request : Summons} {kind : PetKind} {summoner : Pet} (h : Asked c S request)
      (hk : c.petKind request.kind = .ok kind) (hs : S.pets summoner) :
      Newcomer c S ((request.pet kind).setAttack summoner.attack)

/-- The errors that do not come from the limits. -/
inductive Missing (c : Catalog) (S : Scope) : EngineError → Prop
  | summoned {request : Summons} {e : EngineError} (h : Asked c S request)
      (he : c.petKind request.kind = .error e) : Missing c S e
  | evolved {into : PetKindId} {e : EngineError} (h : S.effects (.evolve into))
      (he : c.petKind into = .error e) : Missing c S e
  | applied {status : StatusId} {target : Selector} {e : EngineError}
      (h : S.effects (.applyStatus status target)) (he : c.status status = .error e) : Missing c S e
  | abilityKind {pet : Pet} {e : EngineError} (h : S.pets pet)
      (he : c.petKind pet.abilityKind = .error e) : Missing c S e
  | status {pet : Pet} {id : StatusId} {e : EngineError} (h : S.pets pet) (hs : pet.status = some id)
      (he : c.status id = .error e) : Missing c S e
  | emptyTier {tier : Nat} {attack health : Option Int} {level : Option Nat}
      (h : S.effects (.summonRandomPet tier attack health level)) (ht : c.kindsInTier tier = []) :
      Missing c S (.emptyTier tier)

/-- The events that an attack tells. -/
inductive AttackEvent : Event → Prop
  | before (side : Side) (attacker : PetId) :
      AttackEvent ((Event.battle .beforeAttack side).withSource attacker)
  | after (side : Side) (attacker : PetId) :
      AttackEvent ((Event.battle .afterAttack side).withSource attacker)
  | hurt (side : Side) (target : PetId) (lines : Sides (List PetId)) :
      AttackEvent (attackEvent .hurt side target lines)
  | faint (side : Side) (target : PetId) (lines : Sides (List PetId)) :
      AttackEvent (attackEvent .faint side target lines)
  | knockout (side : Side) (attacker : PetId) (lines : Sides (List PetId)) :
      AttackEvent (attackEvent .knockout side attacker lines)

end AutoBattler
