import AutoBattler.Pet

/-!
# Experience

A level is earned at a threshold of experience and given apart from it, so a pet may have earned more
than it has. Experience wraps around: a pet below the highest level loses all of it with the point
after the last one of the range. What is said here of growing pets is said of those with room for the
points.
-/
namespace AutoBattler

theorem levelForExperience_cases (x : Nat) :
    x < 2 ∧ levelForExperience x = 1 ∨ 2 ≤ x ∧ x < 5 ∧ levelForExperience x = 2 ∨
      5 ≤ x ∧ levelForExperience x = 3 := by
  unfold levelForExperience
  by_cases h5 : 5 ≤ x
  · exact .inr (.inr ⟨h5, if_pos h5⟩)
  · rw [if_neg h5]
    by_cases h2 : 2 ≤ x
    · exact .inr (.inl ⟨h2, Nat.lt_of_not_le h5, if_pos h2⟩)
    · exact .inl ⟨Nat.lt_of_not_le h2, if_neg h2⟩

theorem one_le_levelForExperience (x : Nat) : 1 ≤ levelForExperience x := by
  have := levelForExperience_cases x
  omega

theorem levelForExperience_le (x : Nat) : levelForExperience x ≤ 3 := by
  have := levelForExperience_cases x
  omega

theorem levelForExperience_mono {x y : Nat} (h : x ≤ y) :
    levelForExperience x ≤ levelForExperience y := by
  have := levelForExperience_cases x
  have := levelForExperience_cases y
  omega

namespace Pet

variable {p : Pet}

/-- The level is the one that the experience is worth. -/
def Leveled (p : Pet) : Prop := p.level = levelForExperience p.experience

/-- The pet has earned its level, and perhaps a higher one. -/
structure Ranked (p : Pet) : Prop where
  low : 1 ≤ p.level
  earned : p.level ≤ levelForExperience p.experience

/-- On the lowest level the pet has not earned a higher one. -/
def Settled (p : Pet) : Prop := p.level = 1 → p.experience < 2

theorem Leveled.ranked (h : p.Leveled) : p.Ranked :=
  ⟨h ▸ one_le_levelForExperience _, Nat.le_of_eq h⟩

theorem leveled_ofKind (kind : PetKind) : (ofKind kind).Leveled := rfl

theorem leveled_withLevel (level : Nat) (p : Pet) : (p.withLevel level).Leveled := by
  have hlow : 1 ≤ clampLevel level := Nat.le_max_left _ _
  have hhigh : clampLevel level ≤ 3 := Nat.max_le.2 ⟨by decide, Nat.min_le_right _ _⟩
  show clampLevel level = levelForExperience (experienceForLevel (clampLevel level))
  generalize clampLevel level = n at hlow hhigh
  match n with
  | 1 | 2 | 3 => rfl

theorem level_gainPoint (h : ¬ maxLevel ≤ p.level) :
    p.gainPoint.level = p.level ∧ p.gainPoint.experience = nat32 (p.experience + 1) := by
  unfold gainPoint
  rw [if_neg h]
  exact ⟨rfl, rfl⟩

theorem earned_of_earnedLevel? {level : Nat} (h : p.earnedLevel? = some level) :
    level = levelForExperience p.experience ∧ p.level < level := by
  unfold earnedLevel? at h
  split at h
  · cases h
    exact ⟨rfl, ‹_›⟩
  · cases h

theorem not_earned_of_earnedLevel? (h : p.earnedLevel? = none) :
    levelForExperience p.experience ≤ p.level := by
  unfold earnedLevel? at h
  split at h
  · cases h
  · exact Nat.le_of_not_lt ‹_›

theorem level_promote (p : Pet) (x : Nat) :
    (p.promote (levelForExperience x)).level = levelForExperience x := by
  have low := one_le_levelForExperience x
  have high := levelForExperience_le x
  show max 1 (min _ 3) = _
  omega

/-! ## Room for points -/

/-- Below the highest level the range of experience has room for `n` points beyond the five that
lead there. -/
def HasRoom (n : Nat) (p : Pet) : Prop := maxLevel ≤ p.level ∨ max p.experience 5 + n < 4294967295

/-- How a pet goes on from `p` to `q` while at most `n` levels of it are announced. Who has the
highest level learns no more, and points of which nothing is announced lead no further than five. -/
structure Learns (n : Nat) (p q : Pet) : Prop where
  top : maxLevel ≤ p.level → maxLevel ≤ q.level ∧ q.experience = p.experience
  experience : p.HasRoom n → p.experience ≤ q.experience
  few : p.HasRoom n → q.experience ≤ max p.experience 5 + n
  level : p.HasRoom n → p.Ranked → p.level ≤ q.level ∧ q.Ranked

section

variable {q r : Pet} {n m : Nat}

theorem HasRoom.mono (h : p.HasRoom n) (hm : m ≤ n) : p.HasRoom m := by
  unfold HasRoom at h ⊢
  omega

theorem Learns.same (n : Nat) (hl : q.level = p.level) (he : q.experience = p.experience) :
    Learns n p q where
  top hp := ⟨hl ▸ hp, he⟩
  experience _ := Nat.le_of_eq he.symm
  few _ := by omega
  level _ hp := ⟨Nat.le_of_eq hl.symm, hl ▸ hp.low, by rw [hl, he]; exact hp.earned⟩

theorem Learns.room (h : Learns n p q) (hp : p.HasRoom (n + m)) : q.HasRoom m := by
  rcases hp with high | room
  · exact .inl (h.top high).1
  · have few := h.few (.inr (by omega))
    exact .inr (by omega)

theorem Learns.trans (h : Learns n p q) (h' : Learns m q r) : Learns (n + m) p r where
  top hp := by
    obtain ⟨hq, he⟩ := h.top hp
    obtain ⟨hr, he'⟩ := h'.top hq
    exact ⟨hr, he'.trans he⟩
  experience hp := Nat.le_trans (h.experience (hp.mono (Nat.le_add_right n m)))
    (h'.experience (h.room hp))
  few hp := by
    have first := h.few (hp.mono (Nat.le_add_right n m))
    have second := h'.few (h.room hp)
    omega
  level hp hranked := by
    obtain ⟨hl, hq⟩ := h.level (hp.mono (Nat.le_add_right n m)) hranked
    obtain ⟨hl', hr⟩ := h'.level (h.room hp) hq
    exact ⟨Nat.le_trans hl hl', hr⟩

theorem Learns.mono (h : Learns n p q) (hm : n ≤ m) : Learns m p q where
  top := h.top
  experience hp := h.experience (hp.mono hm)
  few hp := by
    have := h.few (hp.mono hm)
    omega
  level hp := h.level (hp.mono hm)

/-- A point is not lost where there is room for one. -/
theorem experience_gainPoint (h : ¬ maxLevel ≤ p.level) (hp : p.HasRoom n) :
    p.gainPoint.experience = p.experience + 1 := by
  have room := hp.resolve_left h
  rw [(level_gainPoint h).2, nat32_of_lt (by omega)]

theorem Ranked.gainPoint (h : ¬ maxLevel ≤ p.level) (hp : p.HasRoom n) (hranked : p.Ranked) :
    p.gainPoint.Ranked := by
  refine ⟨(level_gainPoint h).1 ▸ hranked.low, ?_⟩
  rw [(level_gainPoint h).1, experience_gainPoint h hp]
  exact Nat.le_trans hranked.earned (levelForExperience_mono (Nat.le_succ _))

/-- One point, whatever is announced of it. -/
theorem learns_gainPoint (h : ¬ maxLevel ≤ p.level) : Learns 1 p p.gainPoint where
  top hp := absurd hp h
  experience hp := by
    rw [experience_gainPoint h hp]
    exact Nat.le_succ _
  few hp := by
    rw [experience_gainPoint h hp]
    omega
  level hp hranked := ⟨Nat.le_of_eq (level_gainPoint h).1.symm, hranked.gainPoint h hp⟩

/-- A point of which nothing is announced. -/
theorem learns_point (h : ¬ maxLevel ≤ p.level) (he : p.gainPoint.earnedLevel? = none) :
    Learns 0 p p.gainPoint where
  top hp := absurd hp h
  experience hp := by
    rw [experience_gainPoint h hp]
    exact Nat.le_succ _
  few hp := by
    have earned := not_earned_of_earnedLevel? he
    rw [(level_gainPoint h).1] at earned
    have := levelForExperience_cases p.gainPoint.experience
    unfold maxLevel at h
    omega
  level hp hranked := ⟨Nat.le_of_eq (level_gainPoint h).1.symm, hranked.gainPoint h hp⟩

/-- A point, what comes while the level it earns is announced, and the level. -/
theorem Learns.announced {level : Nat} (h : ¬ maxLevel ≤ p.level)
    (he : p.gainPoint.earnedLevel? = some level) (hq : Learns n p.gainPoint q) :
    Learns (n + 1) p (q.promote level) := by
  obtain ⟨rfl, higher⟩ := earned_of_earnedLevel? he
  have both := (learns_gainPoint h).trans hq
  rw [Nat.add_comm] at both
  refine ⟨fun hp => absurd hp h, both.experience, both.few, fun hp hranked => ?_⟩
  have room : p.gainPoint.HasRoom n := (learns_gainPoint h).room (by rwa [Nat.add_comm])
  rw [(level_gainPoint h).1] at higher
  refine ⟨?_, ?_, ?_⟩
  · rw [level_promote]
    exact Nat.le_of_lt higher
  · rw [level_promote]
    exact one_le_levelForExperience _
  · rw [level_promote]
    exact levelForExperience_mono (hq.experience room)

end

end Pet

end AutoBattler
