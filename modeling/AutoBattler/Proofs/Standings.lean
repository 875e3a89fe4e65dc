import AutoBattler.Proofs.Pairings
import Mathlib.Algebra.BigOperators.Ring.List
import Mathlib.Algebra.Ring.Nat

/-!
# Standings

The table of a tournament against its pairings. The record of a team counts what its pairings on
either side gave it. Each pairing gives a win and a loss or two draws, which fixes the totals, and
the table is strictly ordered.
-/
namespace AutoBattler

namespace Pairing

/-! ## What a pairing gives a team -/

def wonBy (p : Pairing) (team : Nat) : Bool :=
  p.first = team && p.outcome = .teamOneWins || p.second = team && p.outcome = .teamTwoWins

def lostBy (p : Pairing) (team : Nat) : Bool :=
  p.first = team && p.outcome = .teamTwoWins || p.second = team && p.outcome = .teamOneWins

def drawnBy (p : Pairing) (team : Nat) : Bool :=
  (p.first = team || p.second = team) && p.outcome = .draw

def involves (p : Pairing) (team : Nat) : Bool := p.first = team || p.second = team

def isDrawn (p : Pairing) : Bool := p.outcome = .draw

def isDecisive (p : Pairing) : Bool := !p.isDrawn

end Pairing

/-- More points, or as many and an earlier team. -/
def Standing.Above (s t : Standing) : Prop :=
  t.points < s.points ∨ s.points = t.points ∧ s.team < t.team

namespace Tournament

variable {α β : Type} {pairings : List Pairing} {p : Pairing} {n : Nat}

/-! ## Records -/

theorem credit_eq (s : Standing) (h : p.first ≠ p.second) : credit s p =
    ⟨s.team, s.wins + (if p.wonBy s.team then 1 else 0),
      s.draws + (if p.drawnBy s.team then 1 else 0),
      s.losses + (if p.lostBy s.team then 1 else 0)⟩ := by
  obtain ⟨team, wins, draws, losses⟩ := s
  obtain ⟨first, second, outcome, rounds⟩ := p
  unfold credit Pairing.wonBy Pairing.drawnBy Pairing.lostBy
  dsimp only at h ⊢
  by_cases hf : team = first
  · subst hf
    cases outcome <;> simp [Ne.symm h]
  · by_cases hs : team = second
    · subst hs
      cases outcome <;> simp [hf, Ne.symm hf]
    · cases outcome <;> simp [hf, hs, Ne.symm hf, Ne.symm hs]

theorem foldl_credit (h : ∀ p ∈ pairings, p.first ≠ p.second) (s : Standing) :
    pairings.foldl credit s =
      ⟨s.team, s.wins + pairings.countP (·.wonBy s.team),
        s.draws + pairings.countP (·.drawnBy s.team),
        s.losses + pairings.countP (·.lostBy s.team)⟩ := by
  induction pairings generalizing s with
  | nil => rfl
  | cons p rest ih =>
    obtain ⟨hp, hrest⟩ := List.forall_mem_cons.1 h
    rw [List.foldl_cons, ih hrest, credit_eq s hp]
    simp only [List.countP_cons, Nat.add_assoc, Nat.add_comm]

/-- A team's record counts what its pairings gave it. -/
theorem standing_eq (h : ∀ p ∈ pairings, p.first ≠ p.second) (team : Nat) :
    standing pairings team = ⟨team, pairings.countP (·.wonBy team),
      pairings.countP (·.drawnBy team), pairings.countP (·.lostBy team)⟩ := by
  unfold standing
  rw [foldl_credit h]
  simp only [Nat.zero_add]

/-- A pairing gives a team that takes part a win, a draw or a loss, and nothing to another. -/
theorem played_standing (h : ∀ p ∈ pairings, p.first ≠ p.second) (team : Nat) :
    (standing pairings team).played = pairings.countP (·.involves team) := by
  rw [standing_eq h]
  unfold Standing.played
  dsimp only
  induction pairings with
  | nil => rfl
  | cons p rest ih =>
    obtain ⟨hp, hrest⟩ := List.forall_mem_cons.1 h
    have one : (if p.wonBy team then 1 else 0) + (if p.drawnBy team then 1 else 0) +
        (if p.lostBy team then 1 else 0) = if p.involves team then 1 else 0 := by
      obtain ⟨first, second, outcome, rounds⟩ := p
      unfold Pairing.wonBy Pairing.drawnBy Pairing.lostBy Pairing.involves
      dsimp only at hp ⊢
      by_cases hf : first = team <;> by_cases hs : second = team
      · exact absurd (hf.trans hs.symm) hp
      all_goals cases outcome <;> simp [hf, hs]
    have before := ih hrest
    simp only [List.countP_cons]
    omega

/-! ## How often a team plays -/

/-- Of the pairs of a list without repetitions each element is in one for each other element. -/
theorem countP_pairs {l : List Nat} (h : l.Nodup) {x : Nat} (hx : x ∈ l) :
    (pairs l).countP (fun q => q.1 = x || q.2 = x) = l.length - 1 := by
  induction l with
  | nil => cases hx
  | cons y rest ih =>
    obtain ⟨hy, hrest⟩ := List.nodup_cons.1 h
    rw [pairs, List.countP_append, List.countP_map, List.length_cons, Nat.add_sub_cancel]
    by_cases hxy : y = x
    · subst hxy
      have first : rest.countP ((fun q : Nat × Nat => q.1 = y || q.2 = y) ∘ fun z => (y, z)) =
          rest.length := List.countP_eq_length.2 fun z _ => by simp
      have others : (pairs rest).countP (fun q => q.1 = y || q.2 = y) = 0 := by
        refine List.countP_eq_zero.2 ?_
        rintro ⟨a, b⟩ hq
        obtain ⟨i, j, _, hi, hj⟩ := mem_pairs_iff.1 hq
        have ha : a ≠ y := fun he => hy (he ▸ List.mem_of_getElem? hi)
        have hb : b ≠ y := fun he => hy (he ▸ List.mem_of_getElem? hj)
        simp [ha, hb]
      omega
    · have hm : x ∈ rest := (List.mem_cons.1 hx).resolve_left (Ne.symm hxy)
      have first : rest.countP ((fun q : Nat × Nat => q.1 = x || q.2 = x) ∘ fun z => (y, z)) = 1 := by
        have same : ((fun q : Nat × Nat => decide (q.1 = x) || decide (q.2 = x)) ∘ fun z => (y, z)) =
            (· == x) := by
          funext z
          simp [hxy, Bool.beq_eq_decide_eq]
        rw [same]
        exact List.count_eq_one_of_mem hrest hm
      have others := ih hrest hm
      have long : 0 < rest.length := List.length_pos_of_mem hm
      omega

/-! ## Totals -/

theorem sum_map_one (f : α → Bool) (xs : List α) :
    (xs.map fun x => if f x then 1 else 0).sum = xs.countP f := by
  induction xs with
  | nil => rfl
  | cons x rest ih => rw [List.map_cons, List.sum_cons, ih, List.countP_cons, Nat.add_comm]

/-- Counting for each element of one list in another one, and the other way round. -/
theorem sum_countP_comm (f : α → β → Bool) (xs : List α) (ys : List β) :
    (xs.map fun x => ys.countP (f x)).sum = (ys.map fun y => xs.countP fun x => f x y).sum := by
  induction ys with
  | nil => simp
  | cons y rest ih =>
    simp only [List.countP_cons, List.map_cons, List.sum_cons, List.sum_map_add, ih]
    rw [sum_map_one (fun x => f x y) xs, Nat.add_comm]

theorem countP_range_eq {i : Nat} (h : i < n) : (List.range n).countP (fun t => i = t) = 1 := by
  have one := List.count_eq_one_of_mem List.nodup_range (List.mem_range.2 h)
  rw [← one, List.count]
  congr 1
  funext t
  rw [beq_eq_decide, decide_eq_decide, eq_comm]

/-- Two different teams of a tournament are two. -/
theorem countP_range_or {i j : Nat} (hi : i < n) (hj : j < n) (hij : i ≠ j) :
    (List.range n).countP (fun t => i = t || j = t) = 2 := by
  have split : ∀ t, (if (decide (i = t) || decide (j = t)) = true then 1 else 0) =
      (if decide (i = t) = true then 1 else 0) + (if decide (j = t) = true then 1 else 0) := by
    intro t
    by_cases ht : i = t
    · subst ht
      simp [Ne.symm hij]
    · simp [ht]
  rw [← sum_map_one]
  simp only [split]
  rw [List.sum_map_add, sum_map_one (fun t => decide (i = t)),
    sum_map_one (fun t => decide (j = t)), countP_range_eq hi, countP_range_eq hj]

section

variable (hp : p.first < p.second ∧ p.second < n)
include hp

theorem countP_wonBy :
    ((List.range n).countP fun t => p.wonBy t) = if p.isDecisive then 1 else 0 := by
  have first := countP_range_eq (Nat.lt_trans hp.1 hp.2)
  have second := countP_range_eq hp.2
  cases ho : p.outcome with
  | teamOneWins => simpa [Pairing.wonBy, Pairing.isDecisive, Pairing.isDrawn, ho] using first
  | teamTwoWins => simpa [Pairing.wonBy, Pairing.isDecisive, Pairing.isDrawn, ho] using second
  | draw => simp [Pairing.wonBy, Pairing.isDecisive, Pairing.isDrawn, ho]

theorem countP_lostBy :
    ((List.range n).countP fun t => p.lostBy t) = if p.isDecisive then 1 else 0 := by
  have first := countP_range_eq (Nat.lt_trans hp.1 hp.2)
  have second := countP_range_eq hp.2
  cases ho : p.outcome with
  | teamOneWins => simpa [Pairing.lostBy, Pairing.isDecisive, Pairing.isDrawn, ho] using second
  | teamTwoWins => simpa [Pairing.lostBy, Pairing.isDecisive, Pairing.isDrawn, ho] using first
  | draw => simp [Pairing.lostBy, Pairing.isDecisive, Pairing.isDrawn, ho]

theorem countP_drawnBy :
    ((List.range n).countP fun t => p.drawnBy t) = 2 * if p.isDrawn then 1 else 0 := by
  have both := countP_range_or (Nat.lt_trans hp.1 hp.2) hp.2 (Nat.ne_of_lt hp.1)
  cases ho : p.outcome with
  | draw => simpa [Pairing.drawnBy, Pairing.isDrawn, ho] using both
  | _ => simp [Pairing.drawnBy, Pairing.isDrawn, ho]

end

/-- What all teams are given together, if each pairing gives them so much. -/
theorem sum_standings (given : Pairing → Nat → Bool) {field : Standing → Nat} {test : Pairing → Bool}
    {k : Nat} (hfield : ∀ team, field (standing pairings team) = pairings.countP (given · team))
    (hgiven : ∀ p ∈ pairings, ((List.range n).countP fun t => given p t) = k * if test p then 1 else 0) :
    ((table n pairings).map field).sum = k * pairings.countP test := by
  have perm := (List.mergeSort_perm ((List.range n).map (standing pairings))
    Standing.precedes).map field
  rw [table, perm.sum_nat, List.map_map]
  have counts : field ∘ standing pairings = fun t => pairings.countP fun p => given p t :=
    funext hfield
  rw [counts, sum_countP_comm (fun t p => given p t), List.map_congr_left hgiven, List.sum_map_mul_left,
    sum_map_one]

/-! ## The order of the table -/

theorem pairwise_precedes (n : Nat) (pairings : List Pairing) :
    (table n pairings).Pairwise fun s t => s.precedes t = true := by
  unfold table
  refine List.pairwise_mergeSort (fun s t u => ?_) (fun s t => ?_) _
  · unfold Standing.precedes
    grind
  · unfold Standing.precedes
    grind

theorem perm_table (h : ∀ p ∈ pairings, p.first ≠ p.second) (n : Nat) :
    ((table n pairings).map Standing.team).Perm (List.range n) := by
  have perm := (List.mergeSort_perm ((List.range n).map (standing pairings))
    Standing.precedes).map Standing.team
  have teams : Standing.team ∘ standing pairings = id := by
    funext t
    rw [Function.comp_apply, standing_eq h]
    rfl
  rwa [List.map_map, teams, List.map_id] at perm

/-- No team stands twice in the table, so its order is strict. -/
theorem pairwise_above (h : ∀ p ∈ pairings, p.first ≠ p.second) (n : Nat) :
    (table n pairings).Pairwise Standing.Above := by
  have distinct : (table n pairings).Pairwise fun s t => s.team ≠ t.team :=
    List.pairwise_map.1 ((perm_table h n).nodup_iff.2 List.nodup_range)
  refine ((pairwise_precedes n pairings).and distinct).imp ?_
  intro s t ⟨hprecedes, hne⟩
  unfold Standing.precedes at hprecedes
  simp only [Bool.or_eq_true, Bool.and_eq_true, decide_eq_true_eq] at hprecedes
  rcases hprecedes with hlt | ⟨heq, hle⟩
  · exact .inl hlt
  · exact .inr ⟨heq, Nat.lt_of_le_of_ne hle hne⟩

/-! ## The table of a tournament -/

variable {rules : Rules} {teams : List Team}

theorem places_lt (h : playPairings rules teams = .ok pairings) (hp : p ∈ pairings) :
    p.first < p.second ∧ p.second < teams.length := by
  obtain ⟨hlt, _, _, _, _, hb, _⟩ := (mem_playPairings h).1 hp
  obtain ⟨hsecond, _⟩ := List.getElem?_eq_some_iff.1 hb
  exact ⟨hlt, hsecond⟩

/-- Each team plays each other team. -/
theorem countP_involves (h : playPairings rules teams = .ok pairings) {team : Nat}
    (ht : team < teams.length) :
    pairings.countP (·.involves team) = teams.length - 1 := by
  have count := countP_pairs List.nodup_range (List.mem_range.2 ht)
  rw [← places_playPairings h, List.countP_map, List.length_range] at count
  exact count

/-- What a tournament whose battles all come to an end makes of its pairings. Every team stands once
in the table, above those with fewer points or with as many and a later place. Its record counts the
pairings that it won, drew and lost on either side, one for each other team. All records together
have a win and a loss for each decisive pairing and two draws for each other one. -/
theorem table_follows_from_pairings {rules : Rules} {teams : List Team} {pairings : List Pairing}
    (h : playPairings rules teams = .ok pairings) :
    ∃ standings, roundRobin rules teams = .ok standings ∧
      (standings.map Standing.team).Perm (List.range teams.length) ∧
      standings.Pairwise Standing.Above ∧
      (∀ s ∈ standings, s.played = teams.length - 1 ∧ s.wins = pairings.countP (·.wonBy s.team) ∧
        s.draws = pairings.countP (·.drawnBy s.team) ∧
        s.losses = pairings.countP (·.lostBy s.team)) ∧
      (standings.map Standing.wins).sum = pairings.countP Pairing.isDecisive ∧
      (standings.map Standing.losses).sum = pairings.countP Pairing.isDecisive ∧
      (standings.map Standing.draws).sum = 2 * pairings.countP Pairing.isDrawn ∧
      (standings.map Standing.points).sum =
        3 * pairings.countP Pairing.isDecisive + 2 * pairings.countP Pairing.isDrawn := by
  have places : ∀ p ∈ pairings, p.first < p.second ∧ p.second < teams.length := fun p hp =>
    places_lt h hp
  have distinct : ∀ p ∈ pairings, p.first ≠ p.second := fun p hp => Nat.ne_of_lt (places p hp).1
  have record := standing_eq distinct
  have wins : ((table teams.length pairings).map Standing.wins).sum =
      1 * pairings.countP Pairing.isDecisive :=
    sum_standings Pairing.wonBy (fun t => by rw [record t]) fun p hp => by
      rw [countP_wonBy (places p hp), Nat.one_mul]
  have losses : ((table teams.length pairings).map Standing.losses).sum =
      1 * pairings.countP Pairing.isDecisive :=
    sum_standings Pairing.lostBy (fun t => by rw [record t]) fun p hp => by
      rw [countP_lostBy (places p hp), Nat.one_mul]
  have draws : ((table teams.length pairings).map Standing.draws).sum =
      2 * pairings.countP Pairing.isDrawn :=
    sum_standings Pairing.drawnBy (fun t => by rw [record t]) fun p hp =>
      countP_drawnBy (places p hp)
  refine ⟨table teams.length pairings, ?_, perm_table distinct _, pairwise_above distinct _,
    fun s hs => ?_, wins.trans (Nat.one_mul _), losses.trans (Nat.one_mul _), draws, ?_⟩
  · unfold roundRobin
    rw [h]
    rfl
  · obtain ⟨team, hteam, rfl⟩ := List.mem_map.1 ((List.mergeSort_perm _ _).mem_iff.1 hs)
    refine ⟨(played_standing distinct team).trans ?_, ?_⟩
    · exact countP_involves h (List.mem_range.1 hteam)
    · rw [record team]
      exact ⟨rfl, rfl, rfl⟩
  · have points : Standing.points = fun s => 3 * s.wins + s.draws := rfl
    rw [points, List.sum_map_add, List.sum_map_mul_left, wins, draws, Nat.one_mul]

/-- Three decisive battles give nine points, and the first hippo wins both of its own. -/
theorem table_follows_from_pairings_rescue :
    ∃ standings, roundRobin (rescueRules callAnt healSelf) rescueTeamList = .ok standings ∧
      (standings.map Standing.points).sum = 9 ∧
      ∃ s ∈ standings, s.team = 0 ∧ s.wins = 2 ∧ s.played = 2 := by
  have played : (playPairings (rescueRules callAnt healSelf) rescueTeamList).toOption.map
      (fun pairings => (pairings.countP Pairing.isDecisive, pairings.countP Pairing.isDrawn,
        pairings.countP (·.wonBy 0))) = some (3, 0, 2) := by
    decide +kernel
  cases h : playPairings (rescueRules callAnt healSelf) rescueTeamList with
  | error e =>
    rw [h] at played
    cases played
  | ok pairings =>
    rw [h] at played
    obtain ⟨decisive, rest⟩ := Prod.mk.inj (Option.some.inj played)
    obtain ⟨drawn, won⟩ := Prod.mk.inj rest
    obtain ⟨standings, htable, teams, _, records, _, _, _, points⟩ :=
      table_follows_from_pairings h
    obtain ⟨s, hs, first⟩ := List.mem_map.1 (teams.mem_iff.2 (List.mem_range.2 (by decide : 0 < 3)))
    obtain ⟨all, wins, _⟩ := records s hs
    exact ⟨standings, htable, by rw [points, decisive, drawn], s, hs, first,
      by rw [wins, first, won], all⟩

end Tournament

end AutoBattler
