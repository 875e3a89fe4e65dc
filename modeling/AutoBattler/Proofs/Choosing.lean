import AutoBattler.Proofs.Neighbours
import AutoBattler.Proofs.Sampling

/-!
# What selectors choose

On a well-formed board a selector gives no pet twice, whatever the random source does. Selectors for
friends give stored pets of the friend side without the actor, selectors for enemies give pets that
stand in the opposing line, and a random choice is as large as its pool allows.
-/
namespace AutoBattler

open AutoBattler.Random (Generator)

/-- Whether a selector asks for friends of the actor. -/
def Selector.asksFriends : Selector → Bool
  | randomFriend _ | eachFriend | seasonedFriends | friendBehind _ | friendAhead _
  | adjacentFriends | strongestFriend => true
  | _ => false

/-- Whether a selector asks for enemies of the actor. -/
def Selector.asksEnemies : Selector → Bool
  | randomEnemy _ | eachEnemy | firstEnemy | lastEnemy | lowestHealthEnemy
  | highestHealthEnemy => true
  | _ => false

namespace Targeting

variable {v : View} {actor id : PetId} {g : Generator} {selector : Selector}

namespace View

/-- The board is well formed, and the snapshot of the event, if it has one, lists stored pets of the
side that is told, each once. -/
structure WellPosed (v : View) : Prop where
  board : v.board.WellFormed
  nodup : ∀ line, v.event.snapshot = some line → line.Nodup
  home : ∀ line, v.event.snapshot = some line →
    ∀ id ∈ line, v.board.sideOf? id = some v.event.side

/-- A stored pet of the friend side other than the actor. -/
structure IsFriend (v : View) (id : PetId) : Prop where
  home : v.board.sideOf? id = some v.side
  other : v.actor ≠ some id

/-! ## Pools -/

theorem isFriend_of_mem_friends (h : v.board.WellFormed) (hm : id ∈ v.friends) : v.IsFriend id := by
  obtain ⟨hm, hother⟩ := List.mem_filter.1 hm
  exact ⟨h.member v.side id hm, fun ha => of_decide_eq_true hother ha.symm⟩

theorem nodup_friends (h : v.board.WellFormed) : v.friends.Nodup := (h.nodup v.side).filter _

theorem nodup_enemies (h : v.board.WellFormed) : v.enemies.Nodup := h.nodup v.side.opponent

/-- No pet of the friend side stands in the opposing line. -/
theorem not_mem_enemies (h : v.board.WellFormed) (hid : v.board.sideOf? id = some v.side) :
    id ∉ v.enemies := by
  intro hm
  have opposed := h.member v.side.opponent id hm
  rw [hid] at opposed
  exact v.side.opponent_ne (Option.some.inj opposed).symm

/-! ## The actor's line -/

theorem WellPosed.nodup_line (h : v.WellPosed) (actor : PetId) : (v.line actor).Nodup := by
  unfold line
  split
  · rename_i snapshot hs
    split
    · exact (h.nodup snapshot hs).filter _
    · exact h.board.nodup v.side
  · exact h.board.nodup v.side

theorem WellPosed.home_line (h : v.WellPosed) (hm : id ∈ v.line actor) :
    v.board.sideOf? id = some v.side := by
  unfold line at hm
  split at hm
  · rename_i snapshot hs
    split at hm
    · rename_i hcovered
      rw [← hcovered.1]
      exact h.home snapshot hs id (List.mem_filter.1 hm).1
    · exact h.board.member v.side id hm
  · exact h.board.member v.side id hm

/-- The neighbours of an actor are friends of its, and none is both behind and ahead of it. -/
theorem WellPosed.around (h : v.WellPosed) :
    (v.around.1 ++ v.around.2).Nodup ∧ ∀ id ∈ v.around.1 ++ v.around.2, v.IsFriend id := by
  cases ha : v.actor with
  | none =>
    have none : v.around = ([], []) := by
      unfold View.around
      rw [ha]
    rw [none]
    exact ⟨List.nodup_nil, nofun⟩
  | some actor =>
    by_cases hm : actor ∈ v.line actor
    · obtain ⟨back, front, hl, hn⟩ := List.eq_append_cons_of_mem hm
      have nodup := h.nodup_line actor
      have perm : (back.reverse ++ front).Perm (back ++ front) :=
        (List.reverse_perm back).append_right front
      rw [hl, List.nodup_middle, List.nodup_cons] at nodup
      rw [around_of_split ha hl hn]
      refine ⟨perm.nodup_iff.2 nodup.2, fun id hid => ?_⟩
      have among : id ∈ back ++ front := perm.mem_iff.1 hid
      have listed : id ∈ v.line actor := by
        rw [hl]
        rcases List.mem_append.1 among with hb | hf
        · exact List.mem_append_left _ hb
        · exact List.mem_append_right _ (List.mem_cons_of_mem actor hf)
      refine ⟨h.home_line listed, fun he => ?_⟩
      rw [ha] at he
      cases he
      exact nodup.1 among
    · rw [around_of_not_mem ha hm]
      exact ⟨List.nodup_nil, nofun⟩

theorem WellPosed.behind (h : v.WellPosed) (n : Nat) :
    (v.behind n).Nodup ∧ ∀ id ∈ v.behind n, v.IsFriend id := by
  have sublist : (v.behind n).Sublist (v.around.1 ++ v.around.2) :=
    (List.take_sublist n _).trans (List.sublist_append_left _ _)
  exact ⟨h.around.1.sublist sublist, fun id hm => h.around.2 id (sublist.subset hm)⟩

theorem WellPosed.ahead (h : v.WellPosed) (n : Nat) :
    (v.ahead n).Nodup ∧ ∀ id ∈ v.ahead n, v.IsFriend id := by
  have sublist : (v.ahead n).Sublist (v.around.1 ++ v.around.2) :=
    (List.take_sublist n _).trans (List.sublist_append_right _ _)
  exact ⟨h.around.1.sublist sublist, fun id hm => h.around.2 id (sublist.subset hm)⟩

theorem WellPosed.adjacent (h : v.WellPosed) (n : Nat) :
    (v.behind n ++ v.ahead n).Nodup ∧ ∀ id ∈ v.behind n ++ v.ahead n, v.IsFriend id := by
  have sublist : (v.behind n ++ v.ahead n).Sublist (v.around.1 ++ v.around.2) :=
    (List.take_sublist n _).append (List.take_sublist n _)
  exact ⟨h.around.1.sublist sublist, fun id hm => h.around.2 id (sublist.subset hm)⟩

end View

/-! ## All selectors -/

theorem nodup_toList {α : Type} (x : Option α) : x.toList.Nodup := by
  cases x with
  | none => exact List.nodup_nil
  | some x => exact List.nodup_singleton x

/-- No selector gives a pet twice. -/
theorem nodup_resolve (h : v.WellPosed) (selector : Selector) (g : Generator) :
    (resolve v selector g).1.Nodup := by
  have friends := View.nodup_friends h.board
  have enemies := View.nodup_enemies h.board
  cases selector with
  | randomFriend n => exact g.nodup_pick friends n
  | randomEnemy n => exact g.nodup_pick enemies n
  | eachFriend => exact friends
  | eachEnemy => exact enemies
  | all =>
    refine List.nodup_append'.2 ⟨friends, enemies, fun id hf => ?_⟩
    exact View.not_mem_enemies h.board (View.isFriend_of_mem_friends h.board hf).home
  | seasonedFriends => exact friends.filter _
  | differentTierAnimals =>
    exact (h.board.nodup v.side).sublist (View.sublist_firstOfTiers v.board [] _)
  | adjacentFriends => exact (h.adjacent 1).1
  | friendBehind n => exact (h.behind n).1
  | friendAhead n => exact (h.ahead n).1
  | adjacentAnimals =>
    refine List.nodup_append'.2 ⟨nodup_toList _, (h.behind 1).1, fun id hm hb => ?_⟩
    have opposed : id ∈ v.enemies := List.mem_of_getLast? (Option.mem_toList.1 hm)
    exact View.not_mem_enemies h.board ((h.behind 1).2 id hb).home opposed
  | eachShopAnimal _ => exact List.nodup_nil
  | self | triggeringEntity | purchaseTarget | leftMostFriend | rightMostFriend | firstEnemy
  | lastEnemy | lowestHealthEnemy | highestHealthEnemy | strongestFriend => exact nodup_toList _

/-- Where friends are asked for, friends are given. -/
theorem isFriend_of_mem_resolve (h : v.WellPosed) (hs : selector.asksFriends = true)
    (hm : id ∈ (resolve v selector g).1) : v.IsFriend id := by
  have friend : ∀ id ∈ v.friends, v.IsFriend id := fun _ => View.isFriend_of_mem_friends h.board
  cases selector with
  | randomFriend n => exact friend id (mem_of_mem_pick hm)
  | eachFriend => exact friend id hm
  | seasonedFriends => exact friend id (List.mem_filter.1 hm).1
  | adjacentFriends => exact (h.adjacent 1).2 id hm
  | friendBehind n => exact (h.behind n).2 id hm
  | friendAhead n => exact (h.ahead n).2 id hm
  | strongestFriend => exact friend id (View.mem_of_best? (Option.mem_toList.1 hm))
  | _ => cases hs

/-- Where enemies are asked for, pets of the opposing line are given. -/
theorem mem_enemies_of_mem_resolve (hs : selector.asksEnemies = true)
    (hm : id ∈ (resolve v selector g).1) : id ∈ v.enemies := by
  cases selector with
  | randomEnemy n => exact mem_of_mem_pick hm
  | eachEnemy => exact hm
  | firstEnemy => exact List.mem_of_getLast? (Option.mem_toList.1 hm)
  | lastEnemy => exact List.mem_of_head? (Option.mem_toList.1 hm)
  | lowestHealthEnemy | highestHealthEnemy => exact View.mem_of_best? (Option.mem_toList.1 hm)
  | _ => cases hs

/-- So many distinct members of a pool as were asked for, or as many as it has. -/
structure IsPick (pool : List PetId) (n : Nat) (ids : List PetId) : Prop where
  nodup : ids.Nodup
  length : ids.length = min n pool.length
  subset : ids ⊆ pool

theorem isPick_pick {pool : List PetId} (h : pool.Nodup) (n : Nat) (g : Generator) :
    IsPick pool n (g.pick pool n).1 :=
  ⟨g.nodup_pick h n, g.length_pick pool n, fun _ hm => mem_of_mem_pick hm⟩

/-- Whatever the selector and the state of the random source, no pet is given twice, and one that
stands on no roster is given only as the actor, the source or the pet that a food was bought for.
Friends are stored on the friend side and not the actor, enemies stand in the opposing line, and a
random choice is a pick from its pool. -/
theorem targets_are_well_formed (h : v.WellPosed) (g : Generator) :
    (∀ selector, (resolve v selector g).1.Nodup ∧
      (∀ id ∈ (resolve v selector g).1, v.actor ≠ some id → v.event.source ≠ some id →
        v.event.purchaseTarget? ≠ some id → ∃ side, id ∈ v.board.roster side) ∧
      (selector.asksFriends = true → ∀ id ∈ (resolve v selector g).1, v.IsFriend id) ∧
      (selector.asksEnemies = true →
        ∀ id ∈ (resolve v selector g).1, id ∈ v.board.roster v.side.opponent)) ∧
    ∀ n, IsPick v.friends n (resolve v (.randomFriend n) g).1 ∧
      IsPick v.enemies n (resolve v (.randomEnemy n) g).1 := by
  refine ⟨fun selector => ⟨nodup_resolve h selector g, fun id hm ha hs hb => ?_,
    fun hf id hm => isFriend_of_mem_resolve h hf hm,
    fun he id hm => mem_enemies_of_mem_resolve he hm⟩,
    fun n => ⟨isPick_pick (View.nodup_friends h.board) n g,
      isPick_pick (View.nodup_enemies h.board) n g⟩⟩
  cases candidate_of_mem_resolve hm with
  | actor he => exact absurd he ha
  | source he => exact absurd he hs
  | bought he => exact absurd he hb
  | inLine side hr => exact ⟨side, hr⟩

/-- The ant that has fainted picks two of the three that are left. -/
theorem targets_are_well_formed_fallen :
    fallenView.WellPosed ∧ fallenView.friends = [⟨0⟩, ⟨1⟩, ⟨3⟩] ∧
    (resolve fallenView (.randomFriend 2) (.ofSeed 42)).1.Nodup ∧
    (resolve fallenView (.randomFriend 2) (.ofSeed 42)).1.length = 2 ∧
    ∀ id ∈ (resolve fallenView .adjacentFriends (.ofSeed 42)).1, fallenView.IsFriend id := by
  have posed : fallenView.WellPosed := by
    refine ⟨wellFormed_fallenView, ?_, ?_⟩
    · rintro line hl
      cases hl
      decide
    · rintro line hl
      cases hl
      decide +kernel
  have friends : fallenView.friends = [⟨0⟩, ⟨1⟩, ⟨3⟩] := by decide +kernel
  obtain ⟨all, picks⟩ := targets_are_well_formed posed (.ofSeed 42)
  have pick := (picks 2).1
  have length := pick.length
  rw [friends] at length
  exact ⟨posed, friends, pick.nodup, length, (all .adjacentFriends).2.2.1 rfl⟩

end Targeting

end AutoBattler
