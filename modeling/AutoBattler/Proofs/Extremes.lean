import AutoBattler.Proofs.Choosing
import Mathlib.Data.List.Induction

/-!
# Extremes

Selectors that compare pets give the first of the best of their pool, and nobody only if there is
nobody in it. The selector for different tiers gives the first pet of every tier of the line. Stats
may be any integers; attack and health together are a sum of machine integers.
-/
namespace AutoBattler

open AutoBattler.Random (Generator)

namespace Board

variable {b : Board} {beats : Pet → Pet → Prop} {pool line ids : List PetId} {id x : PetId}

/-- The first of the best of a pool: it beats those before it, and none behind it beats it. -/
def FirstBest (b : Board) (beats : Pet → Pet → Prop) (pool : List PetId) (id : PetId) : Prop :=
  ∃ before after pet, pool = before ++ id :: after ∧ b.pet? id = some pet ∧
    (∀ y ∈ before, ∀ other, b.pet? y = some other → beats pet other) ∧
    ∀ y ∈ after, ∀ other, b.pet? y = some other → ¬ beats other pet

/-- What a selector for the best of a pool is to give. -/
structure Extreme (b : Board) (beats : Pet → Pet → Prop) (pool ids : List PetId) : Prop where
  first : ∀ id, ids = [id] ↔ b.FirstBest beats pool id
  nobody : ids = [] ↔ pool = []
  atMostOne : ids.length ≤ 1

def tier? (b : Board) (id : PetId) : Option Nat := (b.pet? id).map (·.tier)

/-- What a selector for different tiers is to give of a line. -/
structure FirstOfTiers (b : Board) (line ids : List PetId) : Prop where
  ordered : ids.Sublist line
  mem_iff : ∀ id, id ∈ ids ↔
    ∃ before after, line = before ++ id :: after ∧ b.tier? id ∉ before.map b.tier?
  distinct : (ids.map b.tier?).Nodup
  covers : ∀ id ∈ line, b.tier? id ∈ ids.map b.tier?

/-! ## The first of the best -/

/-- Of two that are first one does not stand before the other. -/
theorem FirstBest.eq_of_append {before after before' after' : List PetId} {pet pet' : Pet}
    (he : before ++ id :: after = before' ++ x :: after') (hp : b.pet? id = some pet)
    (hp' : b.pet? x = some pet')
    (hafter : ∀ y ∈ after, ∀ other, b.pet? y = some other → ¬ beats other pet)
    (hbefore : ∀ y ∈ before', ∀ other, b.pet? y = some other → beats pet' other)
    (hstart : ∃ between, before' = before ++ between) : id = x := by
  obtain ⟨between, rfl⟩ := hstart
  rw [List.append_assoc, List.append_cancel_left_eq] at he
  cases between with
  | nil => exact (List.cons.inj he).1
  | cons y between =>
    obtain ⟨rfl, hrest⟩ := List.cons.inj he
    have beaten := hbefore id (List.mem_append_right _ List.mem_cons_self) pet hp
    have listed : x ∈ after := by
      rw [hrest]
      exact List.mem_append_right _ List.mem_cons_self
    exact absurd beaten (hafter x listed pet' hp')

theorem FirstBest.unique (h : b.FirstBest beats pool id) (h' : b.FirstBest beats pool x) :
    id = x := by
  obtain ⟨before, after, pet, rfl, hp, hbefore, hafter⟩ := h
  obtain ⟨before', after', pet', he, hp', hbefore', hafter'⟩ := h'
  rcases List.append_eq_append_iff.1 he with ⟨between, hb, _⟩ | ⟨between, hb, _⟩
  · exact eq_of_append he hp hp' hafter hbefore' ⟨between, hb⟩
  · exact (eq_of_append he.symm hp' hp hafter' hbefore ⟨between, hb⟩).symm

/-- Comparisons that agree on the pool have the same first best. -/
theorem FirstBest.congr {beats' : Pet → Pet → Prop}
    (same : ∀ x ∈ pool, ∀ y ∈ pool, ∀ p q, b.pet? x = some p → b.pet? y = some q →
      (beats p q ↔ beats' p q)) : b.FirstBest beats pool id → b.FirstBest beats' pool id := by
  rintro ⟨before, after, pet, rfl, hp, hbefore, hafter⟩
  have listed : id ∈ before ++ id :: after := List.mem_append_right _ List.mem_cons_self
  refine ⟨before, after, pet, rfl, hp, fun y hy other ho => ?_, fun y hy other ho => ?_⟩
  · exact (same id listed y (List.mem_append_left _ hy) pet other hp ho).1 (hbefore y hy other ho)
  · have behind : y ∈ before ++ id :: after :=
      List.mem_append_right _ (List.mem_cons_of_mem _ hy)
    exact mt (same y behind id listed other pet ho hp).2 (hafter y hy other ho)

theorem Extreme.congr {beats' : Pet → Pet → Prop} (h : b.Extreme beats pool ids)
    (same : ∀ x ∈ pool, ∀ y ∈ pool, ∀ p q, b.pet? x = some p → b.pet? y = some q →
      (beats p q ↔ beats' p q)) : b.Extreme beats' pool ids where
  first id := by
    rw [h.first id]
    refine ⟨FirstBest.congr same, FirstBest.congr fun x hx y hy p q hp hq => ?_⟩
    exact (same x hx y hy p q hp hq).symm
  nobody := h.nobody
  atMostOne := h.atMostOne

theorem FirstBest.ne_nil (h : b.FirstBest beats pool id) : pool ≠ [] := by
  obtain ⟨before, after, _, rfl, _⟩ := h
  exact List.append_ne_nil_of_right_ne_nil before (List.cons_ne_nil id after)

/-- A further pet that the first of the best does not let pass. -/
theorem FirstBest.append {pet other : Pet} (h : b.FirstBest beats pool id)
    (hp : b.pet? id = some pet) (hx : b.pet? x = some other) (hb : ¬ beats other pet) :
    b.FirstBest beats (pool ++ [x]) id := by
  obtain ⟨before, after, found, rfl, hfound, hbefore, hafter⟩ := h
  rw [hp] at hfound
  cases hfound
  refine ⟨before, after ++ [x], pet, by simp, hp, hbefore, fun y hy p hy' => ?_⟩
  rcases List.mem_append.1 hy with hm | hm
  · exact hafter y hm p hy'
  · obtain rfl := List.mem_singleton.1 hm
    rw [hx] at hy'
    cases hy'
    exact hb

end Board

namespace Targeting

namespace View

variable {b : Board} {measure : Pet → Int} {pool line ids : List PetId} {seen : List Nat}
  {id : PetId}

/-- To have more of what is measured. -/
def exceeds (measure : Pet → Int) (p q : Pet) : Prop := measure q < measure p

/-- None of the pool exceeds the first of the best. -/
theorem le_of_firstBest {pet other : Pet} {x : PetId}
    (h : b.FirstBest (exceeds measure) pool id) (hp : b.pet? id = some pet) (hm : x ∈ pool)
    (hx : b.pet? x = some other) : measure other ≤ measure pet := by
  obtain ⟨before, after, found, rfl, hfound, hbefore, hafter⟩ := h
  rw [hp] at hfound
  cases hfound
  rcases List.mem_append.1 hm with hm | hm
  · exact Int.le_of_lt (hbefore x hm other hx)
  · rcases List.mem_cons.1 hm with rfl | hm
    · rw [hp] at hx
      cases hx
      exact Int.le_refl _
    · exact Int.not_lt.1 (hafter x hm other hx)

theorem better_of_pet? {pet : Pet} (h : b.pet? id = some pet) (best : Option (PetId × Int)) :
    better (fun id => (b.pet? id).map measure) best id =
      if ∀ found ∈ best, found.2 < measure pet then some (id, measure pet) else best := by
  have scored : (b.pet? id).map measure = some (measure pet) := by rw [h, Option.map_some]
  cases best with
  | none => simp [better, scored]
  | some found => simp [better, scored]

/-- The best so far is the first of the best of what has been looked at. -/
theorem foldl_better (stored : ∀ id ∈ pool, ∃ pet, b.pet? id = some pet) (measure : Pet → Int) :
    pool = [] ∨ ∃ id pet, b.pet? id = some pet ∧ b.FirstBest (exceeds measure) pool id ∧
      pool.foldl (better fun id => (b.pet? id).map measure) none = some (id, measure pet) := by
  induction pool using List.reverseRecOn with
  | nil => exact .inl rfl
  | append_singleton pool x ih =>
    obtain ⟨other, hx⟩ := stored x (List.mem_append_right _ List.mem_cons_self)
    right
    rw [List.foldl_append, List.foldl_cons, List.foldl_nil, better_of_pet? hx]
    rcases ih fun id hm => stored id (List.mem_append_left _ hm) with
      rfl | ⟨id, pet, hp, first, hfold⟩
    · exact ⟨x, other, hx, ⟨[], [], other, rfl, hx, nofun, nofun⟩, if_pos nofun⟩
    -- The new pet takes over only if it has more: a tie goes to the one before it.
    · rw [hfold]
      by_cases hlt : measure pet < measure other
      · refine ⟨x, other, hx, ⟨pool, [], other, rfl, hx, fun y hm p hy => ?_, nofun⟩, if_pos ?_⟩
        · exact Int.lt_of_le_of_lt (le_of_firstBest first hp hm hy) hlt
        · rintro found hf
          cases hf
          exact hlt
      · exact ⟨id, pet, hp, first.append hp hx hlt, if_neg fun all => hlt (all _ rfl)⟩

theorem extreme_best? (stored : ∀ id ∈ pool, ∃ pet, b.pet? id = some pet) (measure : Pet → Int) :
    b.Extreme (exceeds measure) pool
      (best? (fun id => (b.pet? id).map measure) pool).toList := by
  rcases foldl_better stored measure with rfl | ⟨id, pet, _, first, hfold⟩
  · exact ⟨fun id => ⟨nofun, fun h => absurd rfl h.ne_nil⟩, ⟨fun _ => rfl, fun _ => rfl⟩,
      Nat.zero_le 1⟩
  · have best : best? (fun id => (b.pet? id).map measure) pool = some id := by
      rw [best?, hfold, Option.map_some]
    rw [best]
    refine ⟨fun x => ⟨fun hx => ?_, fun hx => ?_⟩, ⟨nofun, fun h => absurd h first.ne_nil⟩,
      Nat.le_refl 1⟩
    · exact List.singleton_inj.1 hx ▸ first
    · rw [first.unique hx]
      rfl

/-! ## The first of every tier -/

theorem tier?_of_pet? {pet : Pet} (h : b.pet? id = some pet) : b.tier? id = some pet.tier := by
  rw [Board.tier?, h, Option.map_some]

theorem firstOfTiers_cons {pet : Pet} {rest : List PetId} (h : b.pet? id = some pet)
    (seen : List Nat) : firstOfTiers b seen (id :: rest) =
      if pet.tier ∈ seen then firstOfTiers b seen rest
      else id :: firstOfTiers b (pet.tier :: seen) rest := by
  rw [firstOfTiers, h]
  dsimp only
  simp only [List.contains_iff_mem]

/-- A pet is chosen if its tier has not been seen, neither before the line nor in it. -/
theorem mem_firstOfTiers (stored : ∀ id ∈ line, ∃ pet, b.pet? id = some pet) (seen : List Nat) :
    id ∈ firstOfTiers b seen line ↔ ∃ before after tier, line = before ++ id :: after ∧
      b.tier? id = some tier ∧ tier ∉ seen ∧ some tier ∉ before.map b.tier? := by
  induction line generalizing seen with
  | nil =>
    refine ⟨nofun, ?_⟩
    rintro ⟨before, after, _, h, _⟩
    exact absurd h.symm (List.append_ne_nil_of_right_ne_nil before (List.cons_ne_nil id after))
  | cons x rest ih =>
    obtain ⟨pet, hx⟩ := stored x List.mem_cons_self
    have later (seen : List Nat) := ih (fun y hy => stored y (List.mem_cons_of_mem x hy)) seen
    rw [firstOfTiers_cons hx]
    by_cases hseen : pet.tier ∈ seen
    -- The tier of the first pet was seen before the line, so the pet stands in nobody's way.
    · rw [if_pos hseen, later]
      constructor
      · rintro ⟨before, after, tier, rfl, htier, hnew, hfirst⟩
        refine ⟨x :: before, after, tier, rfl, htier, hnew, ?_⟩
        rw [List.map_cons, tier?_of_pet? hx, List.mem_cons, not_or]
        exact ⟨fun he => hnew (Option.some.inj he ▸ hseen), hfirst⟩
      · rintro ⟨before, after, tier, hl, htier, hnew, hfirst⟩
        cases before with
        | nil =>
          obtain ⟨rfl, rfl⟩ := List.cons.inj hl
          rw [tier?_of_pet? hx] at htier
          exact absurd (Option.some.inj htier ▸ hseen) hnew
        | cons y before =>
          obtain ⟨rfl, rfl⟩ := List.cons.inj hl
          rw [List.map_cons, List.mem_cons, not_or] at hfirst
          exact ⟨before, after, tier, rfl, htier, hnew, hfirst.2⟩
    · rw [if_neg hseen, List.mem_cons, later]
      constructor
      · rintro (rfl | ⟨before, after, tier, rfl, htier, hnew, hfirst⟩)
        · exact ⟨[], rest, pet.tier, rfl, tier?_of_pet? hx, hseen, nofun⟩
        · rw [List.mem_cons, not_or] at hnew
          refine ⟨x :: before, after, tier, rfl, htier, hnew.2, ?_⟩
          rw [List.map_cons, tier?_of_pet? hx, List.mem_cons, not_or]
          exact ⟨fun he => hnew.1 (Option.some.inj he), hfirst⟩
      · rintro ⟨before, after, tier, hl, htier, hnew, hfirst⟩
        cases before with
        | nil => exact .inl (List.cons.inj hl).1.symm
        | cons y before =>
          obtain ⟨rfl, rfl⟩ := List.cons.inj hl
          rw [List.map_cons, tier?_of_pet? hx, List.mem_cons, not_or] at hfirst
          refine .inr ⟨before, after, tier, rfl, htier, ?_, hfirst.2⟩
          rw [List.mem_cons, not_or]
          exact ⟨fun he => hfirst.1 (congrArg some he), hnew⟩

theorem nodup_firstOfTiers (stored : ∀ id ∈ line, ∃ pet, b.pet? id = some pet) (seen : List Nat) :
    ((firstOfTiers b seen line).map b.tier?).Nodup := by
  induction line generalizing seen with
  | nil => exact List.nodup_nil
  | cons x rest ih =>
    obtain ⟨pet, hx⟩ := stored x List.mem_cons_self
    have behind : ∀ y ∈ rest, ∃ pet, b.pet? y = some pet :=
      fun y hy => stored y (List.mem_cons_of_mem x hy)
    rw [firstOfTiers_cons hx]
    split
    · exact ih behind seen
    · rw [List.map_cons, tier?_of_pet? hx, List.nodup_cons]
      refine ⟨fun hm => ?_, ih behind _⟩
      obtain ⟨y, hy, htier⟩ := List.mem_map.1 hm
      obtain ⟨_, _, tier, _, hfound, hnew, _⟩ := (mem_firstOfTiers behind _).1 hy
      rw [hfound] at htier
      exact hnew (Option.some.inj htier ▸ List.mem_cons_self)

theorem covers_firstOfTiers (stored : ∀ id ∈ line, ∃ pet, b.pet? id = some pet) (seen : List Nat)
    (hm : id ∈ line) :
    (∃ tier ∈ seen, b.tier? id = some tier) ∨
      b.tier? id ∈ (firstOfTiers b seen line).map b.tier? := by
  induction line generalizing seen with
  | nil => cases hm
  | cons x rest ih =>
    obtain ⟨pet, hx⟩ := stored x List.mem_cons_self
    have later (seen : List Nat) (hr : id ∈ rest) :=
      ih (fun y hy => stored y (List.mem_cons_of_mem x hy)) seen hr
    rw [firstOfTiers_cons hx]
    by_cases hseen : pet.tier ∈ seen
    · rw [if_pos hseen]
      rcases List.mem_cons.1 hm with rfl | hr
      · exact .inl ⟨pet.tier, hseen, tier?_of_pet? hx⟩
      · exact later seen hr
    · rw [if_neg hseen, List.map_cons, List.mem_cons]
      rcases List.mem_cons.1 hm with rfl | hr
      · exact .inr (.inl rfl)
      · rcases later (pet.tier :: seen) hr with ⟨tier, ht, htier⟩ | hlater
        · rcases List.mem_cons.1 ht with rfl | ht
          · exact .inr (.inl (htier.trans (tier?_of_pet? hx).symm))
          · exact .inl ⟨tier, ht, htier⟩
        · exact .inr (.inr hlater)

theorem firstOfTiers_firstOfTiers (stored : ∀ id ∈ line, ∃ pet, b.pet? id = some pet) :
    b.FirstOfTiers line (firstOfTiers b [] line) where
  ordered := sublist_firstOfTiers b [] line
  mem_iff id := by
    rw [mem_firstOfTiers stored]
    constructor
    · rintro ⟨before, after, tier, hl, htier, _, hfirst⟩
      exact ⟨before, after, hl, htier ▸ hfirst⟩
    · rintro ⟨before, after, rfl, hfirst⟩
      obtain ⟨pet, hp⟩ := stored id (List.mem_append_right _ List.mem_cons_self)
      rw [tier?_of_pet? hp] at hfirst
      exact ⟨before, after, pet.tier, rfl, tier?_of_pet? hp, nofun, hfirst⟩
  distinct := nodup_firstOfTiers stored []
  covers id hm := by
    rcases covers_firstOfTiers stored [] hm with ⟨_, hnone, _⟩ | hcovered
    · cases hnone
    · exact hcovered

end View

/-! ## Selectors that compare -/

variable {v : View}

/-- The enemy of lowest or highest health and the strongest friend are the first of their kind in the
order of the line, and of every tier on the friend side the first pet is given. Strength is attack and
health added up as machine integers, so it is their sum where the sums of all friends fit. -/
theorem extremal_selectors_are_exact (h : v.board.WellFormed) (g : Generator) :
    v.board.Extreme (fun p q => p.health < q.health) v.enemies
      (resolve v .lowestHealthEnemy g).1 ∧
    v.board.Extreme (fun p q => q.health < p.health) v.enemies
      (resolve v .highestHealthEnemy g).1 ∧
    v.board.Extreme (fun p q => int32 (q.attack + q.health) < int32 (p.attack + p.health)) v.friends
      (resolve v .strongestFriend g).1 ∧
    ((∀ id ∈ v.friends, ∀ pet, v.board.pet? id = some pet → IsInt32 (pet.attack + pet.health)) →
      v.board.Extreme (fun p q => q.attack + q.health < p.attack + p.health) v.friends
        (resolve v .strongestFriend g).1) ∧
    v.board.FirstOfTiers (v.board.roster v.side) (resolve v .differentTierAnimals g).1 := by
  have enemies : ∀ id ∈ v.enemies, ∃ pet, v.board.pet? id = some pet :=
    fun _ hm => h.pet?_of_mem hm
  have friends : ∀ id ∈ v.friends, ∃ pet, v.board.pet? id = some pet :=
    fun _ hm => h.pet?_of_mem (List.mem_filter.1 hm).1
  have lower : View.exceeds (fun p => -p.health) = fun p q => p.health < q.health := by
    funext p q
    exact propext Int.neg_lt_neg_iff
  have strongest := View.extreme_best? friends fun p => int32 (p.attack + p.health)
  refine ⟨?_, View.extreme_best? enemies Pet.health, strongest, fun fits => ?_,
    View.firstOfTiers_firstOfTiers fun _ hm => h.pet?_of_mem hm⟩
  · rw [← lower]
    exact View.extreme_best? enemies fun p => -p.health
  · refine strongest.congr fun x hx y hy p q hp hq => ?_
    show int32 (q.attack + q.health) < int32 (p.attack + p.health) ↔ _
    rw [int32_of_isInt32 (fits x hx p hp), int32_of_isInt32 (fits y hy q hq)]

/-- The ant at the back meets three enemies, of which the two in front are equally weak, with two
friends of one tier before it. -/
def tiedView : View where
  board := (Board.empty.enlist .a [.ofKind ant, { Pet.ofKind ant with tier := 2 },
    { Pet.ofKind ant with tier := 2 }]).enlist .b
      [(Pet.ofKind ant).setHealth 2, .ofKind ant, .ofKind ant]
  event := Event.battle .faint .a
  actor := some ⟨0⟩

/-- Of equals the one that stands further to the back is chosen. -/
theorem extremal_selectors_are_exact_tied :
    tiedView.board.WellFormed ∧ tiedView.enemies = [⟨3⟩, ⟨4⟩, ⟨5⟩] ∧
    (resolve tiedView .lowestHealthEnemy (.ofSeed 42)).1 = [⟨4⟩] ∧
    tiedView.board.roster .a = [⟨0⟩, ⟨1⟩, ⟨2⟩] ∧
    tiedView.board.tier? ⟨1⟩ = tiedView.board.tier? ⟨2⟩ ∧
    ⟨2⟩ ∉ (resolve tiedView .differentTierAnimals (.ofSeed 42)).1 := by
  have wf : tiedView.board.WellFormed := (Board.wellFormed_empty.enlist .a _).enlist .b _
  have enemies : tiedView.enemies = [⟨3⟩, ⟨4⟩, ⟨5⟩] := by decide +kernel
  have line : tiedView.board.roster .a = [⟨0⟩, ⟨1⟩, ⟨2⟩] := by decide +kernel
  have tie : tiedView.board.tier? ⟨1⟩ = tiedView.board.tier? ⟨2⟩ := by decide +kernel
  have strong : tiedView.board.pet? ⟨3⟩ = some ((Pet.ofKind ant).setHealth 2) := by decide +kernel
  have weak : tiedView.board.pet? ⟨4⟩ = some (.ofKind ant) := by decide +kernel
  have weakest : tiedView.board.pet? ⟨5⟩ = some (.ofKind ant) := by decide +kernel
  obtain ⟨lowest, _, _, _, tiers⟩ := extremal_selectors_are_exact wf (.ofSeed 42)
  refine ⟨wf, enemies, (lowest.first _).2 ?_, line, tie, fun hm => ?_⟩
  · rw [enemies]
    refine ⟨[⟨3⟩], [⟨5⟩], .ofKind ant, rfl, weak, ?_, ?_⟩
    · rw [List.forall_mem_singleton, strong]
      rintro other ⟨⟩
      decide
    · rw [List.forall_mem_singleton, weakest]
      rintro other ⟨⟩
      decide
  · have first : ⟨1⟩ ∈ (resolve tiedView .differentTierAnimals (.ofSeed 42)).1 :=
      (tiers.mem_iff _).2 ⟨[⟨0⟩], [⟨2⟩], line, by decide +kernel⟩
    exact absurd (List.inj_on_of_nodup_map tiers.distinct first hm tie) (by decide)

end Targeting

end AutoBattler
