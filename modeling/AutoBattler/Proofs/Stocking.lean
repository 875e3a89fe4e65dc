import AutoBattler.Shop

/-!
# Stocking sooner or later

A change of all pets in the shop reaches those on offer at once and those stocked later when they are
stocked. Stats are added up as machine integers and clamped after every change, so the order of the
changes matters; it is the same on both ways. A pet on offer is at any time the pet that was stocked
with all pending changes made, until the pets on offer alone are changed.
-/
namespace AutoBattler

namespace Pet

/-- The changes made for good, one after the other. -/
def changed (changes : List StatBuff) (p : Pet) : Pet :=
  changes.foldl (fun p c => p.buff c.attack c.health false) p

theorem changed_append (cs ds : List StatBuff) (p : Pet) :
    p.changed (cs ++ ds) = (p.changed cs).changed ds := List.foldl_append

/-- Changes clamp attack and health one by one and leave the rest of the pet alone. -/
theorem changed_eq (changes : List StatBuff) (p : Pet) : p.changed changes =
    { p with
      attack := changes.foldl (fun x c => clampAttack (int32 (x + c.attack))) p.attack
      health := changes.foldl (fun x c => clampHealth (int32 (x + c.health))) p.health } := by
  induction changes generalizing p with
  | nil => rfl
  | cons c rest ih => exact ih _

end Pet

namespace Shop

/-- The changes for every pet stocked later, oldest first. -/
def pending (shop : Shop) : List StatBuff := shop.futureBuffs.reverse

theorem pending_forTeam (team : Team) (gold : Int) : (forTeam team gold).pending = team.shopBuffs :=
  List.reverse_reverse _

theorem pending_buffAll (shop : Shop) (change : StatBuff) :
    (shop.buffAll change.attack change.health).pending = shop.pending ++ [change] :=
  List.reverse_cons

theorem stock_eq (shop : Shop) (pet : Pet) :
    shop.stock pet = { shop with pets := shop.pets ++ [pet.changed shop.pending] } := by
  unfold stock Pet.changed pending
  rw [List.foldl_reverse]

/-- What can happen to a shop while the pets on offer are not changed alone. -/
inductive Step
  | buffAll (change : StatBuff)
  | stock (pet : Pet)
  | take (index : Nat)
  | addGold (amount : Int)

namespace Step

/-- Taking from a place where no pet is does nothing. -/
def play (shop : Shop) : Step → Shop
  | .buffAll change => shop.buffAll change.attack change.health
  | .stock pet => shop.stock pet
  | .take index => ((shop.take? index).map (·.2)).getD shop
  | .addGold amount => shop.addGold amount

def change? : Step → Option StatBuff
  | .buffAll change => some change
  | _ => none

/-- Where the pet of a place is after the step, unless it is the pet that is taken. -/
def follow (place : Nat) : Step → Option Nat
  | .take index =>
    if index = place then none else some (if index < place then place - 1 else place)
  | _ => some place

end Step

/-- The shop after the steps. -/
def after (shop : Shop) (steps : List Step) : Shop := steps.foldl Step.play shop

/-- The changes of all pets among the steps, in their order. -/
def changes (steps : List Step) : List StatBuff := steps.filterMap Step.change?

/-- Where the pet of a place is after the steps, unless it is taken. -/
def follow (place : Nat) (steps : List Step) : Option Nat := steps.foldlM Step.follow place

variable {shop : Shop} {pet : Pet} {place place' : Nat}

/-- Nothing is erased past the end. -/
theorem play_take (shop : Shop) (index : Nat) :
    (Step.take index).play shop = { shop with pets := shop.pets.eraseIdx index } := by
  show ((shop.take? index).map (·.2)).getD shop = _
  unfold take?
  by_cases found : index < shop.pets.length
  · rw [List.getElem?_eq_getElem found]
    rfl
  · rw [List.getElem?_eq_none (by omega), List.eraseIdx_of_length_le (by omega)]
    rfl

theorem pending_play (shop : Shop) (step : Step) :
    (step.play shop).pending = shop.pending ++ step.change?.toList := by
  cases step with
  | buffAll change => exact pending_buffAll shop change
  | stock pet => exact (List.append_nil _).symm
  | addGold amount => exact (List.append_nil _).symm
  | take index =>
    rw [play_take]
    exact (List.append_nil _).symm

theorem pending_after (shop : Shop) (steps : List Step) :
    (shop.after steps).pending = shop.pending ++ changes steps := by
  induction steps generalizing shop with
  | nil => exact (List.append_nil _).symm
  | cons step rest ih =>
    have split : changes (step :: rest) = step.change?.toList ++ changes rest := by
      unfold changes
      rw [List.filterMap_cons]
      cases step.change? <;> rfl
    rw [split, ← List.append_assoc, ← pending_play]
    exact ih _

/-- At the place is the pet with all that is pending made to it. -/
def Offers (shop : Shop) (pet : Pet) (place : Nat) : Prop :=
  shop.pets[place]? = some (pet.changed shop.pending)

theorem offers_stock (shop : Shop) (pet : Pet) : (shop.stock pet).Offers pet shop.pets.length := by
  rw [stock_eq]
  exact List.getElem?_concat_length

/-- A change reaches the pet and what is pending, and a pet that is taken moves those behind it up. -/
theorem Offers.play (h : shop.Offers pet place) {step : Step} (kept : step.follow place = some place') :
    (step.play shop).Offers pet place' := by
  unfold Offers at h ⊢
  rw [pending_play, Pet.changed_append]
  cases step with
  | buffAll change =>
    cases kept
    show (shop.pets.map _)[place]? = _
    rw [List.getElem?_map, h]
    rfl
  | stock other =>
    cases kept
    show (shop.pets ++ _)[place]? = _
    rw [List.getElem?_append_left (List.getElem?_eq_some_iff.1 h).1]
    exact h
  | addGold amount =>
    cases kept
    exact h
  | take index =>
    rw [play_take]
    show (shop.pets.eraseIdx index)[place']? = _
    unfold Step.follow at kept
    dsimp only at kept
    split at kept
    · cases kept
    · cases kept
      rw [List.getElem?_eraseIdx]
      by_cases ahead : index < place
      · rw [if_pos ahead, if_neg (by omega), Nat.sub_add_cancel (by omega)]
        exact h
      · rw [if_neg ahead, if_pos (by omega)]
        exact h

/-- By induction on the steps. -/
theorem Offers.after (h : shop.Offers pet place) {steps : List Step}
    (kept : follow place steps = some place') : (shop.after steps).Offers pet place' := by
  induction steps generalizing shop place with
  | nil =>
    cases kept
    exact h
  | cons step rest ih =>
    obtain ⟨next, hstep, hrest⟩ := Option.bind_eq_some_iff.1 kept
    exact ih (h.play hstep) hrest

theorem after_stock (shop : Shop) (pet : Pet) (before later : List Step) :
    shop.after (before ++ .stock pet :: later) = ((shop.after before).stock pet).after later :=
  List.foldl_append

theorem changes_stock (pet : Pet) (before later : List Step) :
    changes (before ++ .stock pet :: later) = changes (before ++ later) := by
  unfold changes
  rw [List.filterMap_append, List.filterMap_append]
  rfl

/-- A pet that is stocked among other steps and is still on offer has the stats that come of the
changes that were pending and those of all steps, before it was stocked and later, clamped one by one
in their order. So two runs with the same changes give the same pet, whenever it is stocked in each
and whatever else is stocked or taken. -/
theorem stats_do_not_depend_on_stocking_time (shop : Shop) (pet : Pet) (before later : List Step)
    (place : Nat) (kept : follow (shop.after before).pets.length later = some place) :
    (shop.after (before ++ .stock pet :: later)).pets[place]? = some { pet with
      attack := (shop.pending ++ changes (before ++ later)).foldl
        (fun x c => Pet.clampAttack (int32 (x + c.attack))) pet.attack
      health := (shop.pending ++ changes (before ++ later)).foldl
        (fun x c => Pet.clampHealth (int32 (x + c.health))) pet.health } ∧
    ∀ before' later' place', changes (before' ++ later') = changes (before ++ later) →
      follow (shop.after before').pets.length later' = some place' →
      (shop.after (before' ++ .stock pet :: later')).pets[place']? =
        (shop.after (before ++ .stock pet :: later)).pets[place]? := by
  have ends (before later : List Step) (place : Nat)
      (kept : follow (shop.after before).pets.length later = some place) :
      (shop.after (before ++ .stock pet :: later)).pets[place]? =
        some (pet.changed (shop.pending ++ changes (before ++ later))) := by
    have offered := (offers_stock (shop.after before) pet).after kept
    rw [← after_stock] at offered
    rw [← changes_stock pet, ← pending_after]
    exact offered
  refine ⟨?_, fun before' later' place' same kept' => ?_⟩
  · rw [ends before later place kept, Pet.changed_eq]
  · rw [ends before later place kept, ends before' later' place' kept', same]

/-! ## A strong goat -/

def goat : PetKind := ⟨⟨"pet-goat"⟩, "pet-goat", 1, 40, 3, [], none, none, none⟩

/-- The team brings a change along that takes the attack of a goat to its limit. -/
def goatShop : Shop := forTeam (Team.empty.addShopBuff ⟨20, 1⟩) startingGold

def weakening : Step := .buffAll ⟨-15, 0⟩

def strengthening : Step := .buffAll ⟨20, -4⟩

/-- The goat comes before both changes, behind another that is sold, or after both. With the changes
the other way round it would come out weaker. -/
theorem stats_do_not_depend_on_stocking_time_goat :
    goatShop.pending = [⟨20, 1⟩] ∧
    (goatShop.after ([.stock (.ofKind goat)] ++ .stock (.ofKind goat) ::
        [weakening, .take 0, strengthening])).pets[0]? =
      some { Pet.ofKind goat with attack := 50, health := 0 } ∧
    (goatShop.after ([weakening, .addGold 3, strengthening] ++
        .stock (.ofKind goat) :: [])).pets[0]? =
      some { Pet.ofKind goat with attack := 50, health := 0 } ∧
    (goatShop.after ([strengthening] ++ .stock (.ofKind goat) :: [weakening])).pets[0]? =
      some { Pet.ofKind goat with attack := 35, health := 0 } := by
  have early := stats_do_not_depend_on_stocking_time goatShop (.ofKind goat) [.stock (.ofKind goat)]
    [weakening, .take 0, strengthening] 0 rfl
  have late := early.2 [weakening, .addGold 3, strengthening] [] 0 rfl rfl
  have swapped := stats_do_not_depend_on_stocking_time goatShop (.ofKind goat) [strengthening]
    [weakening] 0 rfl
  exact ⟨pending_forTeam _ _, early.1, late.trans early.1, swapped.1⟩

/-- A change of the pets on offer alone is none for a goat that is stocked later. -/
example : ((goatShop.stock (.ofKind goat)).buffCurrent (-15) 0).pets ≠
    ((goatShop.buffCurrent (-15) 0).stock (.ofKind goat)).pets := by decide

end Shop

end AutoBattler
