import AutoBattler.Proofs.Rescue
import AutoBattler.Tournament
import Mathlib.Data.List.Forall2

/-!
# Pairings

The pairings of a tournament are the battles of each team with each later one, in this order. A
battle depends on its two teams, their places and the rules, so teams that are added at the end
change nothing about the earlier ones.
-/
namespace AutoBattler

/-- The places of the two teams. -/
def Pairing.places (p : Pairing) : Nat × Nat := (p.first, p.second)

namespace Tournament

variable {α β ε : Type}

/-! ## Pairs of a list -/

theorem map_pairs (f : α → β) (l : List α) : pairs (l.map f) = (pairs l).map (Prod.map f f) := by
  induction l with
  | nil => rfl
  | cons x rest ih =>
    rw [List.map_cons, pairs, pairs, ih, List.map_append, List.map_map, List.map_map]
    rfl

theorem mem_pairs_iff {l : List α} {x y : α} :
    (x, y) ∈ pairs l ↔ ∃ i j : Nat, i < j ∧ l[i]? = some x ∧ l[j]? = some y := by
  induction l with
  | nil => simp [pairs]
  | cons z rest ih =>
    rw [pairs, List.mem_append, ih]
    constructor
    · rintro (hm | ⟨i, j, hij, hi, hj⟩)
      · obtain ⟨y', hy, he⟩ := List.mem_map.1 hm
        cases he
        obtain ⟨j, hj⟩ := List.mem_iff_getElem?.1 hy
        exact ⟨0, j + 1, j.succ_pos, rfl, hj⟩
      · exact ⟨i + 1, j + 1, Nat.succ_lt_succ hij, hi, hj⟩
    · rintro ⟨i, j, hij, hi, hj⟩
      obtain ⟨j, rfl⟩ := Nat.exists_eq_add_one_of_ne_zero (Nat.ne_zero_of_lt hij)
      cases i with
      | zero =>
        cases hi
        exact .inl (List.mem_map.2 ⟨y, List.mem_of_getElem? hj, rfl⟩)
      | succ i => exact .inr ⟨i, j, Nat.lt_of_succ_lt_succ hij, hi, hj⟩

theorem length_pairs (l : List α) : 2 * (pairs l).length = l.length * (l.length - 1) := by
  induction l with
  | nil => rfl
  | cons x rest ih =>
    rw [pairs, List.length_append, List.length_map, List.length_cons, Nat.mul_add, ih,
      Nat.add_sub_cancel]
    cases rest.length with
    | zero => rfl
    | succ n =>
      rw [Nat.add_sub_cancel, Nat.mul_comm (n + 1) n, ← Nat.add_mul, Nat.add_comm 2 n]

/-- The pairs of a sorted list stand in lexicographic order. -/
theorem pairwise_pairs {r : α → α → Prop} {l : List α} (h : l.Pairwise r) :
    (pairs l).Pairwise fun p q => r p.1 q.1 ∨ p.1 = q.1 ∧ r p.2 q.2 := by
  induction h with
  | nil => exact .nil
  | @cons x rest hx hrest ih =>
    refine List.pairwise_append.2 ⟨?_, ih, ?_⟩
    · exact List.pairwise_map.2 (hrest.imp fun hr => .inr ⟨rfl, hr⟩)
    · rintro p hp ⟨y, z⟩ hq
      obtain ⟨_, _, rfl⟩ := List.mem_map.1 hp
      obtain ⟨i, _, _, hi, _⟩ := mem_pairs_iff.1 hq
      exact .inl (hx y (List.mem_of_getElem? hi))

/-- Of the pairs of a longer list those without a later element are the pairs of its beginning. -/
theorem filter_pairs_append {p : α → Bool} {l m : List α} (hl : ∀ x ∈ l, p x = true)
    (hm : ∀ x ∈ m, p x = false) : (pairs (l ++ m)).filter (fun q => p q.2) = pairs l := by
  induction l with
  | nil =>
    refine List.filter_eq_nil_iff.2 ?_
    rintro ⟨x, y⟩ hq
    obtain ⟨_, _, _, _, hj⟩ := mem_pairs_iff.1 hq
    rw [hm y (List.mem_of_getElem? hj)]
    exact Bool.false_ne_true
  | cons x rest ih =>
    obtain ⟨_, hrest⟩ := List.forall_mem_cons.1 hl
    have kept : rest.filter p = rest := List.filter_eq_self.2 hrest
    have dropped : m.filter p = [] :=
      List.filter_eq_nil_iff.2 fun y hy => by rw [hm y hy]; exact Bool.false_ne_true
    rw [List.cons_append, pairs, List.filter_append, ih hrest, List.filter_map, pairs]
    congr 1
    rw [Function.comp_def, List.filter_append, kept, dropped, List.append_nil]

/-! ## A battle for each pair -/

theorem mapM_eq_ok_iff {f : α → Except ε β} {xs : List α} {ys : List β} :
    xs.mapM f = .ok ys ↔ List.Forall₂ (fun x y => f x = .ok y) xs ys := by
  induction xs generalizing ys with
  | nil => cases ys <;> simp [pure, Except.pure]
  | cons x rest ih =>
    rw [List.mapM_cons]
    cases hx : f x with
    | error e => cases ys <;> simp [bind, Except.bind, hx]
    | ok y =>
      cases hrest : rest.mapM f with
      | error e => cases ys <;> simp [bind, Except.bind, ← ih, hrest, hx]
      | ok zs => cases ys <;> simp [bind, Except.bind, pure, Except.pure, ← ih, hrest, hx]

theorem mapM_eq_error_iff {f : α → Except ε β} {xs : List α} :
    (∃ e, xs.mapM f = .error e) ↔ ∃ x ∈ xs, ∃ e, f x = .error e := by
  induction xs with
  | nil => simp [pure, Except.pure]
  | cons x rest ih =>
    rw [List.mapM_cons, List.exists_mem_cons_iff, ← ih]
    cases hx : f x with
    | error e => simp [bind, Except.bind]
    | ok y => cases hrest : rest.mapM f <;> simp [bind, Except.bind, pure, Except.pure]

theorem exists_of_forall₂ {r : α → β → Prop} {xs : List α} {ys : List β}
    (h : List.Forall₂ r xs ys) {y : β} (hy : y ∈ ys) : ∃ x ∈ xs, r x y := by
  induction h with
  | nil => cases hy
  | @cons x z _ _ hr _ ih =>
    rcases List.mem_cons.1 hy with rfl | hy
    · exact ⟨x, List.mem_cons_self, hr⟩
    · obtain ⟨x', hx', hr'⟩ := ih hy
      exact ⟨x', List.mem_cons_of_mem x hx', hr'⟩

/-- The rules of the battle between the teams at two places. -/
def reseeded (rules : Rules) (first second : Nat) : Rules :=
  { rules with config := { rules.config with
      seed := pairingSeed rules.config.seed first second } }

/-- The pairing tells of the battle between the teams at its two places. -/
def Reports (rules : Rules) (teams : List Team) (p : Pairing) : Prop :=
  ∃ a b report, teams[p.first]? = some a ∧ teams[p.second]? = some b ∧
    Battle.fight (reseeded rules p.first p.second) ⟨a, b⟩ = .ok report ∧
    p.outcome = report.outcome ∧ p.rounds = report.rounds

variable {rules : Rules} {teams : List Team} {pairings : List Pairing} {p : Pairing}
  {first second : Nat × Team}

theorem playPair_eq_ok_iff : playPair rules first second = .ok p ↔ ∃ report,
    Battle.fight (reseeded rules first.1 second.1) ⟨first.2, second.2⟩ = .ok report ∧
      p = ⟨first.1, second.1, report.outcome, report.rounds⟩ := by
  change (Battle.fight (reseeded rules first.1 second.1) ⟨first.2, second.2⟩ >>= _) = _ ↔ _
  generalize Battle.fight (reseeded rules first.1 second.1) ⟨first.2, second.2⟩ = r
  cases r with
  | error e => simp [bind, Except.bind]
  | ok report => simp [bind, Except.bind, pure, Except.pure, eq_comm]

theorem playPair_eq_error_iff {e : EngineError} : playPair rules first second = .error e ↔
    Battle.fight (reseeded rules first.1 second.1) ⟨first.2, second.2⟩ = .error e := by
  change (Battle.fight (reseeded rules first.1 second.1) ⟨first.2, second.2⟩ >>= _) = _ ↔ _
  generalize Battle.fight (reseeded rules first.1 second.1) ⟨first.2, second.2⟩ = r
  cases r <;> simp [bind, Except.bind, pure, Except.pure]

theorem getElem?_numbered {i k : Nat} {t : Team} :
    (numbered teams)[i]? = some (k, t) ↔ k = i ∧ teams[i]? = some t := by
  unfold numbered
  rw [List.getElem?_zip_eq_some]
  constructor
  · rintro ⟨hk, ht⟩
    obtain ⟨_, rfl⟩ := List.getElem?_eq_some_iff.1 hk
    exact ⟨List.getElem_range _, ht⟩
  · rintro ⟨rfl, ht⟩
    obtain ⟨hlt, _⟩ := List.getElem?_eq_some_iff.1 ht
    exact ⟨List.getElem?_range hlt, ht⟩

theorem map_fst_numbered (teams : List Team) :
    (numbered teams).map Prod.fst = List.range teams.length :=
  List.map_fst_zip (Nat.le_of_eq List.length_range)

theorem mem_pairs_numbered : (first, second) ∈ pairs (numbered teams) ↔
    first.1 < second.1 ∧ teams[first.1]? = some first.2 ∧ teams[second.1]? = some second.2 := by
  obtain ⟨i, a⟩ := first
  obtain ⟨j, b⟩ := second
  simp only [mem_pairs_iff, getElem?_numbered]
  constructor
  · rintro ⟨_, _, hij, ⟨rfl, hi⟩, rfl, hj⟩
    exact ⟨hij, hi, hj⟩
  · rintro ⟨hij, hi, hj⟩
    exact ⟨i, j, hij, ⟨rfl, hi⟩, rfl, hj⟩

theorem forall₂_of_playPairings (h : playPairings rules teams = .ok pairings) :
    List.Forall₂ (fun pair p => playPair rules pair.1 pair.2 = .ok p) (pairs (numbered teams))
      pairings := mapM_eq_ok_iff.1 h

theorem places_of_playPair (h : playPair rules first second = .ok p) :
    p.first = first.1 ∧ p.second = second.1 := by
  obtain ⟨report, _, rfl⟩ := playPair_eq_ok_iff.1 h
  exact ⟨rfl, rfl⟩

/-- The places of the pairings are all pairs of places. -/
theorem places_playPairings (h : playPairings rules teams = .ok pairings) :
    pairings.map Pairing.places = pairs (List.range teams.length) := by
  rw [← map_fst_numbered, map_pairs, ← List.forall₂_eq_eq_eq, List.forall₂_map_left_iff,
    List.forall₂_map_right_iff]
  refine (forall₂_of_playPairings h).flip.imp fun p pair hp => ?_
  obtain ⟨hfirst, hsecond⟩ := places_of_playPair hp
  exact Prod.ext hfirst hsecond

theorem mem_playPairings (h : playPairings rules teams = .ok pairings) :
    p ∈ pairings ↔ p.first < p.second ∧ Reports rules teams p := by
  have played := forall₂_of_playPairings h
  constructor
  · intro hp
    obtain ⟨⟨first, second⟩, hm, hplay⟩ := exists_of_forall₂ played hp
    obtain ⟨report, hfight, rfl⟩ := playPair_eq_ok_iff.1 hplay
    obtain ⟨hlt, ha, hb⟩ := mem_pairs_numbered.1 hm
    exact ⟨hlt, first.2, second.2, report, ha, hb, hfight, rfl, rfl⟩
  · rintro ⟨hlt, a, b, report, ha, hb, hfight, ho, hr⟩
    have hm : ((p.first, a), p.second, b) ∈ pairs (numbered teams) :=
      mem_pairs_numbered.2 ⟨hlt, ha, hb⟩
    obtain ⟨p', hp', hplay⟩ := exists_of_forall₂ played.flip hm
    obtain ⟨report', hfight', rfl⟩ := playPair_eq_ok_iff.1 hplay
    cases hfight.symm.trans hfight'
    obtain ⟨first, second, outcome, rounds⟩ := p
    cases ho
    cases hr
    exact hp'

/-- The lexicographic order of the places. -/
def Before (p q : Pairing) : Prop := p.first < q.first ∨ p.first = q.first ∧ p.second < q.second

theorem pairwise_playPairings (h : playPairings rules teams = .ok pairings) :
    pairings.Pairwise Before := by
  have sorted := pairwise_pairs (List.pairwise_lt_range (n := teams.length))
  rw [← places_playPairings h] at sorted
  rwa [List.pairwise_map] at sorted

theorem length_playPairings (h : playPairings rules teams = .ok pairings) :
    pairings.length = teams.length * (teams.length - 1) / 2 := by
  have same := congrArg List.length (places_playPairings h)
  have count := length_pairs (List.range teams.length)
  rw [List.length_map] at same
  rw [List.length_range, ← same] at count
  omega

theorem numbered_append (teams later : List Team) : numbered (teams ++ later) =
    numbered teams ++ ((List.range later.length).map (teams.length + ·)).zip later := by
  unfold numbered
  rw [List.length_append, List.range_add, List.zip_append List.length_range]

/-- The pairings of the first teams of a list are those that name only these. -/
theorem playPairings_of_append {later : List Team}
    (h : playPairings rules (teams ++ later) = .ok pairings) :
    playPairings rules teams = .ok (pairings.filter fun p => p.second < teams.length) := by
  have earlier : (pairs (numbered (teams ++ later))).filter (fun q => q.2.1 < teams.length) =
      pairs (numbered teams) := by
    rw [numbered_append]
    refine filter_pairs_append (p := fun x : Nat × Team => x.1 < teams.length) ?_ ?_
    · rintro ⟨i, t⟩ hm
      have hi := List.mem_map_of_mem (f := Prod.fst) hm
      rw [map_fst_numbered, List.mem_range] at hi
      exact decide_eq_true hi
    · rintro ⟨i, t⟩ hm
      obtain ⟨k, _, rfl⟩ := List.mem_map.1 (List.of_mem_zip hm).1
      exact decide_eq_false (Nat.not_lt.2 (Nat.le_add_right ..))
  have played := List.rel_filter (p := fun q : (Nat × Team) × Nat × Team => q.2.1 < teams.length)
    (q := fun p : Pairing => p.second < teams.length)
    (fun pair p hp => by dsimp only; rw [(places_of_playPair hp).2]) (forall₂_of_playPairings h)
  rw [earlier] at played
  exact mapM_eq_ok_iff.2 played

theorem playPairings_eq_error_iff : (∃ e, playPairings rules teams = .error e) ↔
    ∃ i j a b, i < j ∧ teams[i]? = some a ∧ teams[j]? = some b ∧
      ∃ e, Battle.fight (reseeded rules i j) ⟨a, b⟩ = .error e := by
  unfold playPairings
  rw [mapM_eq_error_iff]
  constructor
  · rintro ⟨⟨first, second⟩, hm, e, he⟩
    obtain ⟨hlt, ha, hb⟩ := mem_pairs_numbered.1 hm
    exact ⟨_, _, _, _, hlt, ha, hb, e, playPair_eq_error_iff.1 he⟩
  · rintro ⟨i, j, a, b, hlt, ha, hb, e, he⟩
    refine ⟨((i, a), j, b), mem_pairs_numbered.2 ⟨hlt, ha, hb⟩, e, ?_⟩
    exact playPair_eq_error_iff.2 he

/-! ## All pairings of a tournament -/

/-- A tournament fails exactly if the battle of some pair does. Else each pair of places occurs
once, in order, with what came of its battle, and the pairings of the first teams are those of the
tournament of these teams alone. -/
theorem pairings_are_complete_and_independent (rules : Rules) (teams : List Team) :
    ((∃ e, playPairings rules teams = .error e) ↔
      ∃ i j a b, i < j ∧ teams[i]? = some a ∧ teams[j]? = some b ∧
        ∃ e, Battle.fight (reseeded rules i j) ⟨a, b⟩ = .error e) ∧
    ∀ pairings, playPairings rules teams = .ok pairings →
      pairings.length = teams.length * (teams.length - 1) / 2 ∧ pairings.Pairwise Before ∧
      (∀ i j, (∃ p ∈ pairings, p.first = i ∧ p.second = j) ↔ i < j ∧ j < teams.length) ∧
      (∀ p, p ∈ pairings ↔ p.first < p.second ∧ Reports rules teams p) ∧
      ∀ earlier later, teams = earlier ++ later →
        playPairings rules earlier = .ok (pairings.filter fun p => p.second < earlier.length) := by
  refine ⟨playPairings_eq_error_iff, fun pairings h => ⟨length_playPairings h,
    pairwise_playPairings h, fun i j => ?_, fun p => mem_playPairings h, ?_⟩⟩
  · have places : (∃ p ∈ pairings, p.first = i ∧ p.second = j) ↔
        (i, j) ∈ pairs (List.range teams.length) := by
      rw [← places_playPairings h, List.mem_map]
      simp only [Pairing.places, Prod.mk.injEq]
    rw [places, mem_pairs_iff]
    constructor
    · rintro ⟨k, l, hkl, hk, hl⟩
      obtain ⟨_, rfl⟩ := List.getElem?_eq_some_iff.1 hk
      obtain ⟨hlt, rfl⟩ := List.getElem?_eq_some_iff.1 hl
      simp only [List.getElem_range, List.length_range] at hkl hlt ⊢
      exact ⟨hkl, hlt⟩
    · rintro ⟨hij, hj⟩
      exact ⟨i, j, hij, List.getElem?_range (Nat.lt_trans hij hj), List.getElem?_range hj⟩
  · rintro earlier later rfl
    exact playPairings_of_append h

/-- Two lines with a hippo and an ant that stands alone. -/
def rescueTeamList : List Team :=
  [(rescueTeams callAnt healSelf).a, (rescueTeams callAnt healSelf).b,
    (rescueTeams callAnt healSelf).a]

/-- What came of the three battles, and of the one that the first two teams play alone. -/
theorem pairings_are_complete_and_independent_rescue :
    ∃ pairings, playPairings (rescueRules callAnt healSelf) rescueTeamList = .ok pairings ∧
      pairings.map (fun p => (p.places, p.outcome)) =
        [((0, 1), .teamOneWins), ((0, 2), .teamOneWins), ((1, 2), .teamTwoWins)] ∧
      playPairings (rescueRules callAnt healSelf) (rescueTeamList.take 2) =
        .ok (pairings.filter fun p => p.second < 2) := by
  have played : (playPairings (rescueRules callAnt healSelf) rescueTeamList).toOption.map
      (fun pairings => pairings.map fun p => (p.places, p.outcome)) =
        some [((0, 1), .teamOneWins), ((0, 2), .teamOneWins), ((1, 2), .teamTwoWins)] := by
    decide +kernel
  obtain ⟨pairings, hsome, hmap⟩ := Option.map_eq_some_iff.1 played
  cases h : playPairings (rescueRules callAnt healSelf) rescueTeamList with
  | error e =>
    rw [h] at hsome
    cases hsome
  | ok found =>
    rw [h] at hsome
    cases hsome
    obtain ⟨_, _, _, _, independent⟩ :=
      (pairings_are_complete_and_independent _ _).2 pairings h
    exact ⟨pairings, rfl, hmap, independent _ _ (List.take_append_drop 2 _).symm⟩

end Tournament

end AutoBattler
