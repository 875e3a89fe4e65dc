import AutoBattler.Targeting

/-!
# What a selector can designate

Whatever it asks for, a selector designates only the actor, the pets that the event names and pets
that stand in line.
-/
namespace AutoBattler

open AutoBattler.Random (Generator)

namespace Targeting

/-- The pets that selectors have to choose from. -/
inductive View.Candidate (v : View) (id : PetId) : Prop
  | actor (h : v.actor = some id)
  | source (h : v.event.source = some id)
  | bought (h : v.event.purchaseTarget? = some id)
  | inLine (side : Side) (h : id ∈ v.board.roster side)

theorem mem_of_mem_pick {α : Type} {g : Generator} {pool : List α} {amount : Nat} {x : α}
    (h : x ∈ (g.pick pool amount).1) : x ∈ pool := by
  unfold Generator.pick at h
  dsimp only at h
  split at h
  · cases h
  · obtain ⟨i, _, hi⟩ := List.mem_filterMap.1 h
    exact List.mem_of_getElem? hi

/-! ## Choices by stats -/

variable {v : View} {score : PetId → Option Int} {pool : List PetId} {id : PetId}

/-- The better of two is one of them. -/
theorem View.better_cases (score : PetId → Option Int) (best : Option (PetId × Int)) (id : PetId) :
    better score best id = best ∨ ∃ s, better score best id = some (id, s) := by
  unfold better
  split
  · exact .inl rfl
  · exact .inr ⟨_, rfl⟩
  · split
    · exact .inr ⟨_, rfl⟩
    · exact .inl rfl

theorem View.mem_of_best? (h : best? score pool = some id) : id ∈ pool := by
  have fold (pool : List PetId) (best : Option (PetId × Int))
      (h : (pool.foldl (better score) best).map (·.1) = some id) :
      best.map (·.1) = some id ∨ id ∈ pool := by
    induction pool generalizing best with
    | nil => exact .inl h
    | cons x rest ih =>
      rcases ih _ h with hx | hm
      · rcases better_cases score best x with hb | ⟨s, hs⟩
        · exact .inl (hb ▸ hx)
        · rw [hs] at hx
          cases hx
          exact .inr List.mem_cons_self
      · exact .inr (List.mem_cons_of_mem x hm)
  rcases fold pool none h with hnone | hm
  · cases hnone
  · exact hm

theorem View.sublist_firstOfTiers (b : Board) (seen : List Nat) (ids : List PetId) :
    (firstOfTiers b seen ids).Sublist ids := by
  fun_induction firstOfTiers b seen ids with
  | case1 seen => exact .slnil
  | case2 seen id rest hnone ih => exact ih.cons id
  | case3 seen id rest pet hpet hseen ih => exact ih.cons id
  | case4 seen id rest pet hpet hseen ih => exact ih.cons_cons id

/-! ## The actor's line -/

theorem View.candidate_of_mem_line {actor : PetId} (ha : v.actor = some actor)
    (h : id ∈ v.line actor) : v.Candidate id := by
  unfold line at h
  split at h
  · split at h
    · simp only [survivors, List.mem_filter, Bool.or_eq_true, decide_eq_true_eq] at h
      obtain ⟨_, (rfl | halive) | hsource⟩ := h
      · exact .actor ha
      · obtain ⟨side, _, hm⟩ := (v.board.isAlive_iff id).1 halive
        exact .inLine side hm
      · exact .source hsource
    · exact .inLine _ h
  · exact .inLine _ h

theorem View.candidate_of_mem_around (h : id ∈ v.around.1 ∨ id ∈ v.around.2) : v.Candidate id := by
  unfold around at h
  split at h
  · rcases h with h | h <;> cases h
  · rename_i actor ha
    split at h
    · rcases h with h | h <;> cases h
    · rcases h with h | h
      · exact candidate_of_mem_line ha (List.mem_of_mem_take (List.mem_reverse.1 h))
      · exact candidate_of_mem_line ha (List.mem_of_mem_drop h)

theorem View.candidate_of_mem_behind {n : Nat} (h : id ∈ v.behind n) : v.Candidate id :=
  candidate_of_mem_around (.inl (List.mem_of_mem_take h))

theorem View.candidate_of_mem_ahead {n : Nat} (h : id ∈ v.ahead n) : v.Candidate id :=
  candidate_of_mem_around (.inr (List.mem_of_mem_take h))

theorem View.candidate_of_mem_friends (h : id ∈ v.friends) : v.Candidate id :=
  .inLine _ (List.mem_filter.1 h).1

theorem View.candidate_of_mem_enemies (h : id ∈ v.enemies) : v.Candidate id := .inLine _ h

theorem candidate_of_mem_resolve {selector : Selector} {g : Generator}
    (h : id ∈ (resolve v selector g).1) : v.Candidate id := by
  cases selector with
  | self => exact .actor (Option.mem_toList.1 h)
  | triggeringEntity => exact .source (Option.mem_toList.1 h)
  | purchaseTarget => exact .bought (Option.mem_toList.1 h)
  | randomFriend n => exact View.candidate_of_mem_friends (mem_of_mem_pick h)
  | randomEnemy n => exact View.candidate_of_mem_enemies (mem_of_mem_pick h)
  | eachFriend => exact View.candidate_of_mem_friends h
  | eachEnemy => exact View.candidate_of_mem_enemies h
  | all =>
    rcases List.mem_append.1 h with h | h
    · exact View.candidate_of_mem_friends h
    · exact View.candidate_of_mem_enemies h
  | seasonedFriends => exact View.candidate_of_mem_friends (List.mem_filter.1 h).1
  | differentTierAnimals => exact .inLine _ ((View.sublist_firstOfTiers _ _ _).subset h)
  | adjacentFriends =>
    rcases List.mem_append.1 h with h | h
    · exact View.candidate_of_mem_behind h
    · exact View.candidate_of_mem_ahead h
  | leftMostFriend => exact .inLine _ (List.mem_of_head? (Option.mem_toList.1 h))
  | rightMostFriend => exact .inLine _ (List.mem_of_getLast? (Option.mem_toList.1 h))
  | firstEnemy => exact .inLine _ (List.mem_of_getLast? (Option.mem_toList.1 h))
  | lastEnemy => exact .inLine _ (List.mem_of_head? (Option.mem_toList.1 h))
  | lowestHealthEnemy =>
    exact View.candidate_of_mem_enemies (View.mem_of_best? (Option.mem_toList.1 h))
  | highestHealthEnemy =>
    exact View.candidate_of_mem_enemies (View.mem_of_best? (Option.mem_toList.1 h))
  | friendBehind n => exact View.candidate_of_mem_behind h
  | friendAhead n => exact View.candidate_of_mem_ahead h
  | adjacentAnimals =>
    rcases List.mem_append.1 h with h | h
    · exact .inLine _ (List.mem_of_getLast? (Option.mem_toList.1 h))
    · exact View.candidate_of_mem_behind h
  | strongestFriend => exact View.candidate_of_mem_friends (View.mem_of_best? (Option.mem_toList.1 h))
  | eachShopAnimal _ => cases h

end Targeting

end AutoBattler
