import AutoBattler.Pet
import Mathlib.Algebra.BigOperators.Group.List.Basic
import Mathlib.Algebra.Ring.Int.Defs

/-!
# Reverting

The end of a battle takes temporary changes back one by one, the newest first, and clamps after each
one. Permanent changes may have moved the stats in between, so a bound can be met that was not met
on the way there, and what is cut off there is not given back.
-/
namespace AutoBattler

/-- One call of `Pet.buff`. -/
structure StatChange where
  attack : Int
  health : Int
  temporary : Bool
deriving DecidableEq

def StatChange.moves (c : StatChange) : Bool := c.attack ≠ 0 || c.health ≠ 0

inductive Stat
  | attack
  | health
deriving DecidableEq

namespace Stat

def of : Stat → Pet → Int
  | attack, p => p.attack
  | health, p => p.health

def change : Stat → StatChange → Int
  | attack, c => c.attack
  | health, c => c.health

def noted : Stat → StatBuff → Int
  | attack, b => b.attack
  | health, b => b.health

def limit : Stat → Int
  | attack => maxAttack
  | health => maxHealth

/-- What the changes amount to if none is cut off. -/
def total (stat : Stat) (changes : List StatChange) : Int := (changes.map stat.change).sum

def Fits (stat : Stat) (x : Int) : Prop := 0 ≤ x ∧ x ≤ stat.limit

instance (stat : Stat) (x : Int) : Decidable (stat.Fits x) :=
  inferInstanceAs (Decidable (0 ≤ x ∧ x ≤ stat.limit))

def clamp (stat : Stat) (x : Int) : Int := max 0 (min x stat.limit)

/-- Takes changes back in the order of the list. -/
def undo (stat : Stat) (x : Int) (notes : List Int) : Int :=
  notes.foldl (fun x d => stat.clamp (x - d)) x

variable {stat : Stat} {x y : Int} {notes : List Int}

theorem limit_nonneg (stat : Stat) : 0 ≤ stat.limit := by
  cases stat <;> decide

/-- Whether a change fits shows in what it amounts to. A change that wraps around does not. -/
theorem fits_add_iff (hx : stat.Fits x) (d : Int) :
    stat.Fits (x + d) ↔ int32 (stat.clamp (int32 (x + d)) - x) = d := by
  have : stat.limit = 50 := by cases stat <;> rfl
  unfold Fits at hx ⊢
  unfold clamp int32
  omega

theorem clamp_int32_sub (hx : stat.Fits x) {d : Int} (hd : -stat.limit ≤ d ∧ d ≤ stat.limit) :
    stat.clamp (int32 (x - d)) = stat.clamp (x - d) := by
  have : stat.limit = 50 := by cases stat <;> rfl
  unfold Fits at hx
  rw [int32_of_isInt32]
  omega

theorem fits_clamp (stat : Stat) (x : Int) : stat.Fits (stat.clamp x) := by
  have := stat.limit_nonneg
  unfold Fits clamp
  omega

theorem clamp_eq_iff (stat : Stat) (x : Int) : stat.clamp x = x ↔ stat.Fits x := by
  have := stat.limit_nonneg
  unfold Fits clamp
  omega

/-! ## Taking changes back -/

/-- By induction on the notes, the newest first: what is left to take back is the sum of the older
ones. -/
theorem undo_eq (h : ∀ older, older <:+ notes → stat.Fits (x + older.sum)) :
    stat.undo (x + notes.sum) notes = x := by
  induction notes with
  | nil => simp [undo]
  | cons d rest ih =>
    have older : stat.clamp (x + (d :: rest).sum - d) = x + rest.sum := by
      rw [List.sum_cons, show x + (d + rest.sum) - d = x + rest.sum by omega]
      exact (stat.clamp_eq_iff _).2 (h rest (List.suffix_cons d rest))
    rw [undo, List.foldl_cons, older]
    exact ih fun older hs => h older (hs.trans (List.suffix_cons d rest))

theorem undo_filter (hy : stat.Fits y) (notes : List Int) :
    stat.undo y (notes.filter (· ≠ 0)) = stat.undo y notes := by
  induction notes generalizing y with
  | nil => rfl
  | cons d rest ih =>
    have next : stat.undo y (d :: rest) = stat.undo (stat.clamp (y - d)) rest := rfl
    rw [next, List.filter_cons]
    split
    · exact ih (stat.fits_clamp _)
    · rename_i zero
      have same : stat.clamp (y - d) = y := by
        rw [show d = 0 by simpa using zero, Int.sub_zero]
        exact (stat.clamp_eq_iff y).2 hy
      rw [ih hy, same]

theorem fits_undo (hy : stat.Fits y) (notes : List Int) : stat.Fits (stat.undo y notes) := by
  induction notes generalizing y with
  | nil => exact hy
  | cons d rest ih => exact ih (stat.fits_clamp _)

/-- A stat that is too low stays too low, unless it meets the lower bound where it belongs. -/
theorem undo_lt (stat : Stat) (h : ∀ older, older <:+ notes → 0 < x + older.sum) (hy : y < x + notes.sum) :
    stat.undo y notes < x := by
  induction notes generalizing y with
  | nil => simpa [undo] using hy
  | cons d rest ih =>
    have left := h rest (List.suffix_cons d rest)
    rw [List.sum_cons] at hy
    have lower : stat.clamp (y - d) < x + rest.sum := by
      unfold clamp
      omega
    exact ih (fun older hs => h older (hs.trans (List.suffix_cons d rest))) lower

/-- Where the sums stay above the lower bound, each one above the upper bound costs something. -/
theorem undo_eq_iff_of_pos (h : ∀ older, older <:+ notes → 0 < x + older.sum)
    (hy : stat.Fits (x + notes.sum)) :
    stat.undo (x + notes.sum) notes = x ↔ ∀ older, older <:+ notes → stat.Fits (x + older.sum) := by
  refine ⟨fun exact older hs => ⟨Int.le_of_lt (h older hs), ?_⟩, undo_eq⟩
  by_contra hout
  obtain ⟨newer, rfl⟩ := hs
  have cut : stat.undo (x + (newer ++ older).sum) newer < x + older.sum :=
    Int.lt_of_le_of_lt (fits_undo hy newer).2 (Int.not_le.1 hout)
  have low := undo_lt stat
    (fun least hs => h least (hs.trans (List.suffix_append newer older))) cut
  rw [undo, List.foldl_append] at exact
  exact Int.ne_of_lt low exact

theorem clamp_reflect (stat : Stat) (x : Int) :
    stat.clamp (stat.limit - x) = stat.limit - stat.clamp x := by
  have := stat.limit_nonneg
  unfold clamp
  omega

theorem undo_reflect (stat : Stat) (y : Int) (notes : List Int) :
    stat.undo (stat.limit - y) (notes.map (-·)) = stat.limit - stat.undo y notes := by
  induction notes generalizing y with
  | nil => rfl
  | cons d rest ih =>
    have step : stat.limit - y - -d = stat.limit - (y - d) := by omega
    rw [List.map_cons, undo, List.foldl_cons, step, clamp_reflect]
    exact ih _

theorem fits_reflect (stat : Stat) (x : Int) : stat.Fits (stat.limit - x) ↔ stat.Fits x := by
  unfold Fits
  omega

theorem sum_map_neg (notes : List Int) : (notes.map (-·)).sum = -notes.sum := by
  induction notes with
  | nil => rfl
  | cons d rest ih =>
    rw [List.map_cons, List.sum_cons, List.sum_cons, ih]
    omega

/-- The mirror image, where the sums stay below the upper bound. -/
theorem undo_eq_iff_of_lt (h : ∀ older, older <:+ notes → x + older.sum < stat.limit)
    (hy : stat.Fits (x + notes.sum)) :
    stat.undo (x + notes.sum) notes = x ↔ ∀ older, older <:+ notes → stat.Fits (x + older.sum) := by
  have mirrored : ∀ older : List Int, stat.limit - x + (older.map (-·)).sum = stat.limit - (x + older.sum) := by
    intro older
    rw [sum_map_neg]
    omega
  have suffixes : ∀ P : Int → Prop,
      (∀ older, older <:+ notes.map (-·) → P (stat.limit - x + older.sum)) ↔
      ∀ older, older <:+ notes → P (stat.limit - (x + older.sum)) := by
    intro P
    constructor
    · intro hall older hs
      rw [← mirrored]
      exact hall _ (hs.map _)
    · rintro hall _ ⟨newer, hnotes⟩
      obtain ⟨_, older, rfl, _, rfl⟩ := List.map_eq_append_iff.1 hnotes.symm
      rw [mirrored]
      exact hall older (List.suffix_append _ older)
  have mirror : stat.undo (stat.limit - x + (notes.map (-·)).sum) (notes.map (-·)) =
      stat.limit - x ↔ ∀ older, older <:+ notes.map (-·) →
        stat.Fits (stat.limit - x + older.sum) :=
    undo_eq_iff_of_pos ((suffixes (0 < ·)).2 fun older hs => Int.sub_pos_of_lt (h older hs))
      (by rw [mirrored]; exact (stat.fits_reflect _).2 hy)
  rw [mirrored, undo_reflect, suffixes] at mirror
  simp only [fits_reflect] at mirror
  rw [← mirror]
  omega

end Stat

/-! ## Changing a pet -/

namespace Pet

variable {p : Pet} {c : StatChange} {changes earlier later : List StatChange} {stat : Stat}

def change (c : StatChange) (p : Pet) : Pet := p.buff c.attack c.health c.temporary

def changeAll (changes : List StatChange) (p : Pet) : Pet := changes.foldl (fun p c => p.change c) p

/-- None of the changes is cut off. -/
def TakesInFull : List StatChange → Pet → Prop
  | [], _ => True
  | c :: rest, p =>
    p.applied c.attack c.health = ⟨c.attack, c.health⟩ ∧ (p.change c).TakesInFull rest

theorem of_change (stat : Stat) (c : StatChange) (p : Pet) :
    stat.of (p.change c) = stat.clamp (int32 (stat.of p + stat.change c)) := by
  cases stat <;> rfl

theorem fits_change (c : StatChange) (p : Pet) (stat : Stat) : stat.Fits (stat.of (p.change c)) :=
  (of_change stat c p).symm ▸ stat.fits_clamp _

theorem applied_eq_iff (hp : ∀ stat : Stat, stat.Fits (stat.of p)) (c : StatChange) :
    p.applied c.attack c.health = ⟨c.attack, c.health⟩ ↔
      ∀ stat : Stat, stat.Fits (stat.of p + stat.change c) := by
  rw [applied, StatBuff.mk.injEq]
  constructor
  · rintro ⟨hattack, hhealth⟩ stat
    cases stat
    · exact (Stat.fits_add_iff (hp .attack) c.attack).2 hattack
    · exact (Stat.fits_add_iff (hp .health) c.health).2 hhealth
  · intro h
    exact ⟨(Stat.fits_add_iff (hp .attack) c.attack).1 (h .attack),
      (Stat.fits_add_iff (hp .health) c.health).1 (h .health)⟩

theorem of_change_of_fits (hp : stat.Fits (stat.of p + stat.change c)) :
    stat.of (p.change c) = stat.of p + stat.change c := by
  have : stat.limit = 50 := by cases stat <;> rfl
  have range : IsInt32 (stat.of p + stat.change c) := by
    unfold Stat.Fits at hp
    omega
  rw [of_change, int32_of_isInt32 range]
  exact (stat.clamp_eq_iff _).2 hp

/-- A stat follows the sum of the changes, which fits at any time. -/
theorem of_changeAll (stat : Stat) (hp : ∀ stat : Stat, stat.Fits (stat.of p))
    (h : p.TakesInFull changes) :
    stat.of (p.changeAll changes) = stat.of p + stat.total changes := by
  induction changes generalizing p with
  | nil => simp [changeAll, Stat.total]
  | cons c rest ih =>
    have first := of_change_of_fits ((applied_eq_iff hp c).1 h.1 stat)
    rw [changeAll, List.foldl_cons]
    refine (ih (fits_change c p) h.2).trans ?_
    rw [first, Stat.total, Stat.total, List.map_cons, List.sum_cons, Int.add_assoc]

/-- A change in full leads from one stat within bounds to another. -/
theorem TakesInFull.change_bounds (hp : ∀ stat : Stat, stat.Fits (stat.of p))
    (h : p.TakesInFull changes) (hc : c ∈ changes) (stat : Stat) :
    -stat.limit ≤ stat.change c ∧ stat.change c ≤ stat.limit := by
  induction changes generalizing p with
  | nil => cases hc
  | cons d rest ih =>
    rcases List.mem_cons.1 hc with rfl | hc
    · have before := hp stat
      have after := (applied_eq_iff hp c).1 h.1 stat
      unfold Stat.Fits at before after
      omega
    · exact ih (fits_change d p) h.2 hc

theorem takesInFull_append : p.TakesInFull (earlier ++ later) ↔
    p.TakesInFull earlier ∧ (p.changeAll earlier).TakesInFull later := by
  induction earlier generalizing p with
  | nil => exact (iff_of_eq (true_and _)).symm
  | cons c rest ih =>
    rw [List.cons_append, TakesInFull, TakesInFull, ih, and_assoc]
    rfl

theorem fits_changeAll (hp : ∀ stat : Stat, stat.Fits (stat.of p)) (changes : List StatChange)
    (stat : Stat) : stat.Fits (stat.of (p.changeAll changes)) := by
  induction changes generalizing p with
  | nil => exact hp stat
  | cons c rest ih => exact ih (fits_change c p)

/-- The temporary changes are noted, the newest first. -/
theorem activeBuffs_changeAll (h : p.TakesInFull changes) : (p.changeAll changes).activeBuffs =
    ((changes.filter (·.temporary)).map fun c => ⟨c.attack, c.health⟩).reverse ++ p.activeBuffs := by
  induction changes generalizing p with
  | nil => rfl
  | cons c rest ih =>
    rw [changeAll, List.foldl_cons]
    refine (ih h.2).trans ?_
    have noted : (p.change c).activeBuffs =
        if c.temporary then ⟨c.attack, c.health⟩ :: p.activeBuffs else p.activeBuffs := by
      rw [← h.1]
      rfl
    rw [noted, List.filter_cons]
    cases c.temporary
    · rfl
    · rw [if_pos rfl, if_pos rfl, List.map_cons, List.reverse_cons, List.append_assoc]
      rfl

theorem of_revert {b : StatBuff} (hp : stat.Fits (stat.of p))
    (hb : -stat.limit ≤ stat.noted b ∧ stat.noted b ≤ stat.limit) :
    stat.of (p.revert b) = stat.clamp (stat.of p - stat.noted b) := by
  rw [← Stat.clamp_int32_sub hp hb]
  cases stat <;> rfl

theorem of_reverted {buffs : List StatBuff} (hp : stat.Fits (stat.of p))
    (hb : ∀ b ∈ buffs, -stat.limit ≤ stat.noted b ∧ stat.noted b ≤ stat.limit) :
    stat.of (buffs.foldl (fun p b => p.revert b) p) = stat.undo (stat.of p) (buffs.map stat.noted) := by
  induction buffs generalizing p with
  | nil => rfl
  | cons b rest ih =>
    have first := of_revert hp (hb b List.mem_cons_self)
    have fits : stat.Fits (stat.of (p.revert b)) := first ▸ stat.fits_clamp _
    rw [List.foldl_cons, ih fits fun b hrest => hb b (List.mem_cons_of_mem _ hrest), first]
    rfl

theorem of_endOfBattle (hp : stat.Fits (stat.of p))
    (hb : ∀ b ∈ p.activeBuffs, -stat.limit ≤ stat.noted b ∧ stat.noted b ≤ stat.limit) :
    stat.of p.endOfBattle = stat.undo (stat.of p) (p.activeBuffs.map stat.noted) := by
  rw [← of_reverted hp hb]
  cases stat <;> rfl

/-! ## Changes that come back -/

/-- Where the permanent changes alone put a stat. -/
def settled (stat : Stat) (changes : List StatChange) (p : Pet) : Int :=
  stat.of p + stat.total (changes.filter fun c => !c.temporary)

/-- A pet within bounds and without notes takes all changes in full, and the permanent ones alone
would fit too. -/
structure Changeable (changes : List StatChange) (p : Pet) : Prop where
  fits : ∀ stat : Stat, stat.Fits (stat.of p)
  unnoted : p.activeBuffs = []
  inFull : p.TakesInFull changes
  settles : ∀ stat : Stat, stat.Fits (p.settled stat changes)

/-- The end of the battle leaves what the permanent changes alone make of the pet. -/
def Reverts (changes : List StatChange) (p : Pet) : Prop :=
  (p.changeAll changes).endOfBattle.activeBuffs = [] ∧
    ∀ stat : Stat, stat.of (p.changeAll changes).endOfBattle = p.settled stat changes

/-- The temporary changes of a stat, the newest first. -/
def notes (stat : Stat) (changes : List StatChange) : List Int :=
  ((changes.filter (·.temporary)).map stat.change).reverse

theorem sum_notes (stat : Stat) (changes : List StatChange) (p : Pet) :
    stat.of p + stat.total changes = p.settled stat changes + (notes stat changes).sum := by
  unfold settled notes
  rw [List.sum_reverse]
  induction changes with
  | nil => simp [Stat.total]
  | cons c rest ih =>
    simp only [Stat.total, List.map_cons, List.sum_cons, List.filter_cons] at ih ⊢
    cases c.temporary <;> simp <;> omega

/-- What is taken back last was put on first. -/
theorem forall_suffix_notes (P : Int → Prop) :
    (∀ older, older <:+ notes stat changes → P older.sum) ↔
      ∀ earlier, earlier <+: changes.filter (·.temporary) → P (stat.total earlier) := by
  constructor
  · intro h earlier hp
    have older := h (earlier.map stat.change).reverse (List.reverse_suffix.2 (hp.map _))
    rwa [List.sum_reverse] at older
  · rintro h older ⟨newer, hnotes⟩
    have split := congrArg List.reverse hnotes
    rw [notes, List.reverse_reverse, List.reverse_append] at split
    obtain ⟨earlier, later, hchanges, hearlier, _⟩ := List.map_eq_append_iff.1 split.symm
    have earlierSum := h earlier (hchanges ▸ List.prefix_append earlier later)
    rwa [Stat.total, hearlier, List.sum_reverse] at earlierSum

namespace Changeable

variable (h : p.Changeable changes)
include h

theorem of_endOfBattle (stat : Stat) : stat.of (p.changeAll changes).endOfBattle =
    stat.undo (p.settled stat changes + (notes stat changes).sum) (notes stat changes) := by
  have buffs := activeBuffs_changeAll h.inFull
  rw [h.unnoted, List.append_nil] at buffs
  have noted : (p.changeAll changes).activeBuffs.map stat.noted = notes stat changes := by
    rw [buffs, List.map_reverse, List.map_map]
    cases stat <;> rfl
  have small : ∀ b ∈ (p.changeAll changes).activeBuffs,
      -stat.limit ≤ stat.noted b ∧ stat.noted b ≤ stat.limit := by
    intro b hb
    rw [buffs, List.mem_reverse] at hb
    obtain ⟨c, hc, rfl⟩ := List.mem_map.1 hb
    have bounds := h.inFull.change_bounds h.fits (List.mem_of_mem_filter hc) stat
    cases stat <;> exact bounds
  rw [Pet.of_endOfBattle (fits_changeAll h.fits changes stat) small,
    of_changeAll stat h.fits h.inFull, sum_notes, noted]

theorem fits_settled_add_sum (stat : Stat) :
    stat.Fits (p.settled stat changes + (notes stat changes).sum) := by
  rw [← sum_notes, ← of_changeAll stat h.fits h.inFull]
  exact fits_changeAll h.fits changes stat

/-- A stat comes back if it fits with the permanent changes and those temporary ones that are still
to be taken back. -/
theorem comes_back (fits : ∀ earlier, earlier <+: changes.filter (·.temporary) →
      stat.Fits (p.settled stat changes + stat.total earlier)) :
    stat.of (p.changeAll changes).endOfBattle = p.settled stat changes := by
  rw [h.of_endOfBattle]
  exact Stat.undo_eq ((forall_suffix_notes fun x => stat.Fits (p.settled stat changes + x)).2 fits)

/-- And only then, if it stays off one of its bounds. -/
theorem comes_back_iff
    (off : (∀ earlier, earlier <+: changes.filter (·.temporary) →
        0 < p.settled stat changes + stat.total earlier) ∨
      ∀ earlier, earlier <+: changes.filter (·.temporary) →
        p.settled stat changes + stat.total earlier < stat.limit) :
    stat.of (p.changeAll changes).endOfBattle = p.settled stat changes ↔
      ∀ earlier, earlier <+: changes.filter (·.temporary) →
        stat.Fits (p.settled stat changes + stat.total earlier) := by
  rw [h.of_endOfBattle, ← forall_suffix_notes fun x => stat.Fits (p.settled stat changes + x)]
  rcases off with positive | below
  · exact Stat.undo_eq_iff_of_pos ((forall_suffix_notes (0 < p.settled stat changes + ·)).2 positive)
      (h.fits_settled_add_sum stat)
  · exact Stat.undo_eq_iff_of_lt
      ((forall_suffix_notes (p.settled stat changes + · < stat.limit)).2 below)
      (h.fits_settled_add_sum stat)

/-- No permanent change after two temporary ones leaves only sums that the pet has gone through. -/
theorem fits_of_not_late (late : ¬ [true, true, false].Sublist (changes.map (·.temporary)))
    (hearlier : earlier <+: changes.filter (·.temporary)) (stat : Stat) :
    stat.Fits (p.settled stat changes + stat.total earlier) := by
  obtain ⟨rest, htemporary⟩ := hearlier
  cases earlier with
  | nil => simpa [Stat.total] using h.settles stat
  | cons t others =>
    cases rest with
    | nil =>
      rw [List.append_nil] at htemporary
      have all := h.fits_settled_add_sum stat
      rwa [notes, ← htemporary, List.sum_reverse] at all
    | cons u others' =>
      -- the pet went through the sum right before the next temporary change
      obtain ⟨before, after, rfl, hbefore, hafter⟩ := List.filter_eq_append_iff.1 htemporary.symm
      obtain ⟨between, after, rfl, hbetween, hu, -⟩ := List.filter_eq_cons_iff.1 hafter
      have none : after.filter (fun c => !c.temporary) = [] := by
        refine List.filter_eq_nil_iff.2 fun c hc hpermanent => late ?_
        have ht : t ∈ before.filter (·.temporary) := hbefore ▸ List.mem_cons_self
        obtain ⟨htbefore, httemporary⟩ := List.mem_filter.1 ht
        have three : [t, u, c].Sublist (before ++ (between ++ u :: after)) :=
          (List.singleton_sublist.2 htbefore).append
            (((List.singleton_sublist.2 hc).cons_cons u).trans (List.sublist_append_right _ _))
        have flags := three.map (·.temporary)
        rw [Bool.not_eq_true'] at hpermanent
        simpa [httemporary, hu, hpermanent] using flags
      have went : p.TakesInFull (before ++ between) := by
        have full := h.inFull
        rw [← List.append_assoc] at full
        exact (takesInFull_append.1 full).1
      have passed := fits_changeAll h.fits (before ++ between) stat
      rw [of_changeAll stat h.fits went, sum_notes] at passed
      have hsum : (notes stat (before ++ between)).sum = stat.total (t :: others) := by
        have quiet : between.filter (·.temporary) = [] := List.filter_eq_nil_iff.2 hbetween
        rw [notes, List.sum_reverse, List.filter_append, quiet, List.append_nil, hbefore]
        rfl
      have hsettled : p.settled stat (before ++ (between ++ u :: after)) =
          p.settled stat (before ++ between) := by
        unfold settled
        rw [← List.append_assoc, List.filter_append, List.filter_cons, hu, none]
        simp
      rwa [hsettled, ← hsum]

end Changeable

/-! ## Changes of nothing -/

/-- The changes that ask for something. -/
def moving (changes : List StatChange) : List StatChange := changes.filter (·.moves)

theorem exists_moving_eq (few : List StatChange) {pattern : List Bool}
    (h : (few.map (·.temporary)).Sublist pattern) :
    ∃ changes, changes.map (·.temporary) = pattern ∧ moving changes = moving few := by
  generalize hflags : few.map (·.temporary) = flags at h
  induction h generalizing few with
  | slnil => exact ⟨few, hflags, rfl⟩
  | cons flag _ ih =>
    obtain ⟨changes, rfl, hmoving⟩ := ih few hflags
    exact ⟨⟨0, 0, flag⟩ :: changes, rfl, hmoving⟩
  | cons_cons flag _ ih =>
    obtain ⟨c, rest, rfl, rfl, hrest⟩ := List.map_eq_cons_iff.1 hflags
    obtain ⟨changes, rfl, hmoving⟩ := ih rest hrest
    refine ⟨c :: changes, rfl, ?_⟩
    unfold moving at hmoving ⊢
    rw [List.filter_cons, List.filter_cons, hmoving]

theorem change_eq_zero (hc : ¬ c.moves) (stat : Stat) : stat.change c = 0 := by
  cases stat <;> simp_all [Stat.change, StatChange.moves]

/-- The stats alone decide whether changes are cut off. -/
theorem takesInFull_congr {q : Pet} (h : ∀ stat : Stat, stat.of p = stat.of q) :
    p.TakesInFull changes ↔ q.TakesInFull changes := by
  induction changes generalizing p q with
  | nil => exact Iff.rfl
  | cons c rest ih =>
    have next : ∀ stat : Stat, stat.of (p.change c) = stat.of (q.change c) := fun stat => by
      rw [of_change, of_change, h]
    have same : p.applied c.attack c.health = q.applied c.attack c.health := by
      rw [applied, applied, show p.attack = q.attack from h .attack,
        show p.health = q.health from h .health]
    rw [TakesInFull, TakesInFull, same, ih next]

theorem takesInFull_moving (hp : ∀ stat : Stat, stat.Fits (stat.of p)) :
    p.TakesInFull (moving changes) ↔ p.TakesInFull changes := by
  induction changes generalizing p with
  | nil => exact Iff.rfl
  | cons c rest ih =>
    have next := ih (fits_change c p)
    unfold moving at ih next ⊢
    rw [List.filter_cons]
    split
    · rw [TakesInFull, TakesInFull, next]
    · rename_i still
      have zero := change_eq_zero still
      have applied : p.applied c.attack c.health = ⟨c.attack, c.health⟩ :=
        (applied_eq_iff hp c).2 fun stat => by rw [zero, Int.add_zero]; exact hp stat
      have same : ∀ stat : Stat, stat.of p = stat.of (p.change c) := fun stat => by
        rw [of_change_of_fits (by rw [zero, Int.add_zero]; exact hp stat), zero, Int.add_zero]
      rw [TakesInFull, ih hp, takesInFull_congr same]
      exact (and_iff_right applied).symm

theorem total_moving (stat : Stat) (changes : List StatChange) :
    stat.total (moving changes) = stat.total changes := by
  unfold Stat.total moving
  induction changes with
  | nil => rfl
  | cons c rest ih =>
    rw [List.filter_cons]
    split
    · rw [List.map_cons, List.map_cons, List.sum_cons, List.sum_cons, ih]
    · rename_i still
      rw [List.map_cons, List.sum_cons, change_eq_zero still, Int.zero_add, ih]

theorem settled_moving (stat : Stat) (changes : List StatChange) (p : Pet) :
    p.settled stat (moving changes) = p.settled stat changes := by
  unfold settled
  rw [← total_moving stat (changes.filter fun c => !c.temporary), moving, moving, List.filter_comm]

theorem notes_moving (stat : Stat) (changes : List StatChange) :
    (notes stat (moving changes)).filter (· ≠ 0) = (notes stat changes).filter (· ≠ 0) := by
  unfold notes moving
  simp only [List.filter_reverse, List.filter_map, List.filter_filter]
  congr 3
  funext c
  cases stat <;> grind [Stat.change, StatChange.moves]

theorem sum_filter_ne_zero (xs : List Int) : (xs.filter (· ≠ 0)).sum = xs.sum := by
  induction xs with
  | nil => rfl
  | cons x rest ih =>
    rw [List.filter_cons]
    split
    · rw [List.sum_cons, List.sum_cons, ih]
    · rename_i zero
      rw [ih, List.sum_cons, show x = 0 by simpa using zero, Int.zero_add]

/-- Changes of nothing do nothing to whether all others come back. -/
theorem changeable_moving : p.Changeable (moving changes) ↔ p.Changeable changes := by
  constructor
  · rintro ⟨fits, unnoted, inFull, settles⟩
    exact ⟨fits, unnoted, (takesInFull_moving fits).1 inFull,
      fun stat => settled_moving stat changes p ▸ settles stat⟩
  · rintro ⟨fits, unnoted, inFull, settles⟩
    exact ⟨fits, unnoted, (takesInFull_moving fits).2 inFull,
      fun stat => (settled_moving stat changes p).symm ▸ settles stat⟩

theorem reverts_moving (h : p.Changeable changes) :
    p.Reverts (moving changes) ↔ p.Reverts changes := by
  have h' := changeable_moving.2 h
  have same : ∀ stat : Stat, stat.of (p.changeAll (moving changes)).endOfBattle =
      stat.of (p.changeAll changes).endOfBattle := by
    intro stat
    have sums := sum_filter_ne_zero (notes stat (moving changes))
    rw [notes_moving, sum_filter_ne_zero] at sums
    have fits := h.fits_settled_add_sum stat
    rw [h.of_endOfBattle, h'.of_endOfBattle, settled_moving, ← sums, ← Stat.undo_filter fits,
      notes_moving, Stat.undo_filter fits]
  unfold Reverts
  simp only [same, settled_moving]
  exact and_congr_left' Iff.rfl

/-! ## A late permanent change -/

def fish (attack health : Int) : Pet where
  kind := ⟨"pet-fish"⟩
  tier := 1
  attack := attack
  health := health
  level := 1
  experience := 0
  status := none
  borrowed := none
  activeBuffs := []
  counters := .empty

/-- Attack goes from ten to fifty, to twenty and to fifty again. To take the second change back asks
for eighty. -/
def lateGain : List StatChange := [⟨40, 0, true⟩, ⟨-30, 0, true⟩, ⟨30, 0, false⟩]

theorem changeable_lateGain : (fish 10 10).Changeable lateGain where
  fits stat := by cases stat <;> decide
  unnoted := rfl
  inFull := ⟨rfl, rfl, rfl, trivial⟩
  settles stat := by cases stat <;> decide

theorem not_reverts_lateGain : ¬ (fish 10 10).Reverts lateGain := fun h =>
  absurd (h.2 .attack) (by decide)

/-- What the end of a battle takes back. Afterwards no change is noted. A stat is where the permanent
changes alone would have put it, if it fits with these and the first of the temporary ones, however
many. If it stays off one of the bounds with them, that is the only case, while the sum of all
temporary changes could be taken back at once in any case. The order of temporary and permanent
changes alone ensures it exactly if no permanent one comes after two temporary ones. -/
theorem reverting_is_exact_without_a_late_permanent_change (p : Pet) (changes : List StatChange)
    (h : p.Changeable changes) :
    (p.changeAll changes).endOfBattle.activeBuffs = [] ∧
    (∀ stat : Stat, stat.of ((p.changeAll changes).revert
        ⟨Stat.attack.total (changes.filter (·.temporary)),
          Stat.health.total (changes.filter (·.temporary))⟩) = p.settled stat changes) ∧
    (∀ stat : Stat,
      ((∀ earlier, earlier <+: changes.filter (·.temporary) →
          stat.Fits (p.settled stat changes + stat.total earlier)) →
        stat.of (p.changeAll changes).endOfBattle = p.settled stat changes) ∧
      ((∀ earlier, earlier <+: changes.filter (·.temporary) →
          0 < p.settled stat changes + stat.total earlier) ∨
        (∀ earlier, earlier <+: changes.filter (·.temporary) →
          p.settled stat changes + stat.total earlier < stat.limit) →
        (stat.of (p.changeAll changes).endOfBattle = p.settled stat changes ↔
          ∀ earlier, earlier <+: changes.filter (·.temporary) →
            stat.Fits (p.settled stat changes + stat.total earlier)))) ∧
    ((∀ (q : Pet) (others : List StatChange),
        others.map (·.temporary) = changes.map (·.temporary) →
        q.Changeable others → q.Reverts others) ↔
      ¬ [true, true, false].Sublist (changes.map (·.temporary))) := by
  refine ⟨rfl, fun stat => ?_, fun stat => ⟨h.comes_back, h.comes_back_iff⟩,
    fun hall late => ?_, fun late q others same ho => ?_⟩
  · have sum : (notes stat changes).sum = stat.noted
        ⟨Stat.attack.total (changes.filter (·.temporary)),
          Stat.health.total (changes.filter (·.temporary))⟩ := by
      rw [notes, List.sum_reverse]
      cases stat <;> rfl
    have all := h.fits_settled_add_sum stat
    have left := h.settles stat
    have small : -stat.limit ≤ (notes stat changes).sum ∧ (notes stat changes).sum ≤ stat.limit := by
      unfold Stat.Fits at all left
      omega
    rw [of_revert (fits_changeAll h.fits changes stat) (sum ▸ small),
      of_changeAll stat h.fits h.inFull, sum_notes, sum, Int.add_sub_cancel]
    exact (stat.clamp_eq_iff _).2 left
  -- The three changes of the late gain, and changes of nothing in all other places of the order.
  · obtain ⟨others, hpattern, hmoving⟩ := exists_moving_eq lateGain late
    have unpadded : moving others = lateGain := hmoving.trans rfl
    have changeable : (fish 10 10).Changeable others :=
      changeable_moving.1 (unpadded ▸ changeable_lateGain)
    exact not_reverts_lateGain
      (unpadded ▸ (reverts_moving changeable).2 (hall _ _ hpattern changeable))
  · rw [← same] at late
    exact ⟨rfl, fun stat => ho.comes_back fun earlier hp => ho.fits_of_not_late late hp stat⟩

/-- A permanent gain between two temporary changes. -/
theorem reverting_is_exact_without_a_late_permanent_change_fish :
    (fish 49 10).Reverts [⟨1, 2, true⟩, ⟨-9, 0, false⟩, ⟨3, -5, true⟩] ∧
      (fish 49 10).settled .attack [⟨1, 2, true⟩, ⟨-9, 0, false⟩, ⟨3, -5, true⟩] = 40 := by
  have changeable : (fish 49 10).Changeable [⟨1, 2, true⟩, ⟨-9, 0, false⟩, ⟨3, -5, true⟩] := by
    refine ⟨fun stat => ?_, rfl, ⟨rfl, rfl, rfl, trivial⟩, fun stat => ?_⟩ <;> cases stat <;> decide
  obtain ⟨_, _, _, order⟩ := reverting_is_exact_without_a_late_permanent_change _ _ changeable
  exact ⟨order.2 (by decide) _ _ rfl changeable, rfl⟩

/-- Not all that is applied in full is taken back in full. -/
theorem late_gain_is_cut_off :
    ¬ ∀ (p : Pet) (changes : List StatChange), p.Changeable changes → p.Reverts changes :=
  fun h => not_reverts_lateGain (h _ _ changeable_lateGain)

end Pet

end AutoBattler
