import AutoBattler.Proofs.BoardInvariant

/-!
# Repeats

Performing an effect in answer to an event without a cause, as every repeat is: repeats in it do
nothing, at any depth. Performing tells of no cast; that is left to those who let an ability fire.
-/
namespace AutoBattler

open Resolve

/-! ## Repeats without a cause -/

namespace Effect

mutual

/-- The effect with nothing in place of every repeat in it. -/
def withoutRepeats : Effect → Effect
  | oneOf effects => oneOf (withoutRepeatsOf effects)
  | allOf effects => allOf (withoutRepeatsOf effects)
  | repeatAbility .. => allOf []
  | e => e

def withoutRepeatsOf : List Effect → List Effect
  | [] => []
  | e :: rest => withoutRepeats e :: withoutRepeatsOf rest

end

theorem length_withoutRepeatsOf (effects : List Effect) :
    (withoutRepeatsOf effects).length = effects.length := by
  induction effects with
  | nil => rfl
  | cons e rest ih => exact congrArg Nat.succ ih

/-- The effect repeats, or performs other effects. -/
def IsRepeating : Effect → Prop
  | oneOf _ => True
  | allOf _ => True
  | repeatAbility .. => True
  | _ => False

/-- The effect is put together from repeats alone. -/
abbrev OnlyRepeats (e : Effect) : Prop := e.Every IsRepeating

end Effect

namespace Resolve

variable {rules : Rules} {raise raise' : Raise} {event : Event} {actor : Option PetId}

theorem repeatAbility_of_none (target : Selector) (level : Option Nat) :
    repeatAbility rules none event actor target level = pure [] := by
  unfold repeatAbility
  cases event.source <;> rfl

mutual

theorem performWith_withoutRepeats : (effect : Effect) →
    performWith rules raise none event actor effect.withoutRepeats =
      performWith rules raise none event actor effect
  | .oneOf effects => by
    simp only [Effect.withoutRepeats, performWith, Effect.length_withoutRepeatsOf,
      performNth_withoutRepeats effects]
  | .allOf effects => by
    simp only [Effect.withoutRepeats, performWith, performAll_withoutRepeats effects]
  | .repeatAbility target level => by
    simp only [Effect.withoutRepeats, performWith, performAll, repeatAbility_of_none]
    rfl
  | .modifyStats .. | .gainExperience .. | .applyStatus .. | .dealDamage .. | .splashDamage ..
  | .reduceHealth .. | .summonPet .. | .summonRandomPet .. | .respawnPet .. | .transferStats ..
  | .transferAbility .. | .gainGold .. | .evolve .. | .modifyDamage .. => rfl

theorem performNth_withoutRepeats : (effects : List Effect) → (i : Nat) →
    performNth rules raise none event actor (Effect.withoutRepeatsOf effects) i =
      performNth rules raise none event actor effects i
  | [], _ => rfl
  | e :: _, 0 => performWith_withoutRepeats e
  | _ :: rest, i + 1 => performNth_withoutRepeats rest i

theorem performAll_withoutRepeats : (effects : List Effect) → (touched : List (List PetId)) →
    performAll rules raise none event actor touched (Effect.withoutRepeatsOf effects) =
      performAll rules raise none event actor touched effects
  | [], _ => rfl
  | e :: rest, touched => by
    simp only [Effect.withoutRepeatsOf, performAll, performWith_withoutRepeats e,
      performAll_withoutRepeats rest]

end

/-- Nothing was touched, and at most the generator has moved on. -/
def OnlyDraws (m : Resolve (List PetId)) : Prop := ∀ s, ∃ g, m s = (.ok [], { s with random := g })

theorem onlyDraws_nil : OnlyDraws (pure []) := fun s => ⟨s.random, rfl⟩

mutual

theorem performWith_of_onlyRepeats : (effect : Effect) → effect.OnlyRepeats →
    OnlyDraws (performWith rules raise none event actor effect)
  | .oneOf effects, h => by
    intro s
    unfold performWith
    rw [bind_run]
    dsimp only [draw]
    cases (s.random.index? effects.length).1 with
    | none => exact ⟨_, rfl⟩
    | some i => exact performNth_of_onlyRepeats effects _ h.2 { s with random := _ }
  | .allOf effects, h => by
    unfold performWith
    exact performAll_of_onlyRepeats effects [] rfl h.2
  | .repeatAbility target level, _ => by
    unfold performWith
    rw [repeatAbility_of_none]
    exact onlyDraws_nil
  | .modifyStats .., h | .gainExperience .., h | .applyStatus .., h | .dealDamage .., h
  | .splashDamage .., h | .reduceHealth .., h | .summonPet .., h | .summonRandomPet .., h
  | .respawnPet .., h | .transferStats .., h | .transferAbility .., h | .gainGold .., h
  | .evolve .., h | .modifyDamage .., h => h.1.elim

theorem performNth_of_onlyRepeats : (effects : List Effect) → (i : Nat) →
    Effect.EveryOf Effect.IsRepeating effects →
      OnlyDraws (performNth rules raise none event actor effects i)
  | [], _, _ => onlyDraws_nil
  | e :: _, 0, h => performWith_of_onlyRepeats e h.1
  | _ :: rest, i + 1, h => performNth_of_onlyRepeats rest i h.2

theorem performAll_of_onlyRepeats : (effects : List Effect) → (touched : List (List PetId)) →
    touched.reverse.flatten = [] → Effect.EveryOf Effect.IsRepeating effects →
    OnlyDraws (performAll rules raise none event actor touched effects)
  | [], touched, ht, _ => by
    unfold performAll
    rw [ht]
    exact onlyDraws_nil
  | e :: rest, touched, ht, h => by
    intro s
    obtain ⟨g, hg⟩ := performWith_of_onlyRepeats e h.1 s
    have nothing : ([] :: touched).reverse.flatten = [] := by simpa using ht
    obtain ⟨g', hg'⟩ := performAll_of_onlyRepeats rest _ nothing h.2 { s with random := g }
    unfold performAll
    rw [bind_run, hg]
    exact ⟨g', hg'⟩

end

/-- How an effect is performed in answer to an event without a cause. -/
theorem perform_of_uncaused (h : event.cause = none) (effect : Effect) :
    perform rules raise event actor effect = performWith rules raise none event actor effect := by
  obtain ⟨trigger, source, side, snapshot, phase, repeated, cause⟩ := event
  cases h
  rw [perform]

/-! ## Performing tells of no cast -/

theorem leads_uncast : Leads Scope.all fun event => event.trigger ≠ .castsAbility where
  levelUp _ _ _ _ := nofun
  summoned _ _ _ _ := nofun
  attack _ _ _ _ _ ht := by cases ht <;> exact nofun

/-- How a cast would be told makes no difference to what performing does. -/
theorem perform_eq_of_uncast (h : ∀ told, told.trigger ≠ .castsAbility → raise told = raise' told)
    (effect : Effect) :
    perform rules raise event actor effect = perform rules raise' event actor effect := by
  have invariant := boardInvariant_true rules.catalog
  have elementary : Elementary Scope.all rules.catalog (.same anyway)
      (Same (BoardInvariant.holds fun _ => True)) :=
    BoardInvariant.elementary invariant.toEditInvariant fun _ _ _ _ => trivial
  have told (event : Event) (ht : event.trigger ≠ .castsAbility) :
      Keeps (.same anyway) (Same (BoardInvariant.holds fun _ => True)) (raise event) (raise' event) := by
    rw [h event ht]
    refine Triple.intro fun s _ => ?_
    obtain ⟨_ | _, _⟩ := raise' event s <;> exact trivial
  have acting := invariant.boardSteps.acting elementary rfl leads_uncast told
  funext s
  exact (keeps_perform elementary acting (Scope.covers_all _) rfl event trivial actor effect
    effect.every_true).eq trivial

end Resolve

end AutoBattler
