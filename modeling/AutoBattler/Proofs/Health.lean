import AutoBattler.Proofs.Scope

/-!
# Health

What a change does to the health of a pet. Clamping leaves between none and fifty, and from there a
hit, a cut and a point of experience stay far within the machine integers. A change of the stats does
so too, if the definitions ask for no amount that leaves them; a larger one comes out negative, and
the pet has no health afterwards.
-/
namespace AutoBattler

open Resolve (reduceHealth copyStats)

namespace Pet

variable {p : Pet}

/-- Health as clamping leaves it. -/
def FitHealth (p : Pet) : Prop := 0 ≤ p.health ∧ p.health ≤ maxHealth

theorem fitHealth_setHealth (x : Int) (p : Pet) : (p.setHealth x).FitHealth := by
  unfold FitHealth setHealth clampHealth maxHealth
  dsimp only
  omega

theorem fitHealth_of_eq_zero (h : p.health = 0) : p.FitHealth := by
  unfold FitHealth
  rw [h]
  decide

theorem clampHealth_pos {x : Int} (h : 0 < x) : 0 < clampHealth x := by
  unfold clampHealth maxHealth
  omega

theorem health_ofKind_pos {kind : PetKind} (h : 1 ≤ kind.baseHealth) : 0 < (ofKind kind).health :=
  clampHealth_pos (by omega)

/-- The greatest gain that keeps any such health within the machine integers. -/
def maxGain : Int := 2147483647 - maxHealth

/-! ## Hits -/

theorem health_takeDamage (h : p.FitHealth) (amount : Int) :
    (p.takeDamage amount).health = max 0 (p.health - max (int32 amount) 0) := by
  obtain ⟨least, most⟩ := h
  have word := isInt32_int32 amount
  unfold maxHealth at most
  unfold takeDamage setHealth clampHealth maxHealth
  rw [int32_of_isInt32 (by omega)]
  dsimp only
  omega

/-- The health that a hit costs is what the pet had more before. -/
theorem healthLost_eq (h : p.FitHealth) (amount : Int) :
    p.healthLost amount = p.health - (p.takeDamage amount).health := by
  have after := fitHealth_setHealth (int32 (p.health - max (int32 amount) 0)) p
  unfold FitHealth maxHealth at h after
  apply int32_of_isInt32
  unfold takeDamage
  omega

/-- Damage of fifty or more takes all health. -/
theorem health_takeDamage_eq_zero (h : p.FitHealth) {amount : Int} (hi : IsInt32 amount)
    (ha : maxHealth ≤ amount) : (p.takeDamage amount).health = 0 := by
  rw [health_takeDamage h, int32_of_isInt32 hi]
  have most := h.2
  unfold maxHealth at *
  omega

theorem health_takeDamage_of_eq_zero (h : p.health = 0) (amount : Int) :
    (p.takeDamage amount).health = 0 := by
  rw [health_takeDamage (fitHealth_of_eq_zero h), h]
  omega

theorem health_pos_of_takeDamage (hp : 0 ≤ p.health) {amount : Int}
    (h : 0 < (p.takeDamage amount).health) : 0 < p.health := by
  refine (Int.lt_or_eq_of_le hp).resolve_right fun none => ?_
  rw [health_takeDamage_of_eq_zero none.symm] at h
  exact Int.lt_irrefl 0 h

/-! ## Changes of the stats -/

theorem health_buff_pos {attack health : Int} {temporary : Bool} (hf : p.FitHealth)
    (hp : 0 < p.health) (hh : 0 ≤ health) (hg : health ≤ maxGain) :
    0 < (p.buff attack health temporary).health := by
  have most := hf.2
  unfold maxGain at hg
  apply clampHealth_pos
  rw [int32_of_isInt32 (by unfold IsInt32; omega)]
  omega

theorem health_gainPoint_pos (hf : p.FitHealth) (hp : 0 < p.health) : 0 < p.gainPoint.health := by
  unfold gainPoint
  split
  · exact hp
  · have gain : (1 : Int) ≤ maxGain := by decide
    exact health_buff_pos hf hp (Int.le_of_lt Int.zero_lt_one) gain

theorem fitHealth_gainPoint (h : p.FitHealth) : p.gainPoint.FitHealth := by
  unfold gainPoint
  split
  · exact h
  · exact fitHealth_setHealth (int32 (p.health + 1)) p

end Pet

variable {c : Catalog} {S : Scope} {f : Pet → Pet} {p donor : Pet}

theorem health_reduceHealth_pos (percentage : Int) (hf : p.FitHealth) (hp : 0 < p.health) :
    0 < (reduceHealth percentage p).health := by
  have most := hf.2
  unfold maxHealth at most
  apply Pet.clampHealth_pos
  rw [int32_of_isInt32 (n := p.health - 1) (by unfold IsInt32; omega),
    int32_of_isInt32 (by unfold IsInt32; omega)]
  omega

theorem health_copyStats (copyAttack : Bool) :
    (copyStats donor copyAttack false p).health = p.health := by
  cases copyAttack <;> rfl

theorem Summons.health_pet_pos {request : Summons} {kind : PetKind} (hk : 1 ≤ kind.baseHealth)
    (hr : ∀ h, request.health = some h → 1 ≤ h) : 0 < (request.pet kind).health := by
  have base := Pet.health_ofKind_pos hk
  obtain ⟨name, team, attack, health, level⟩ := request
  cases health with
  | none => cases attack <;> cases level <;> exact base
  | some health =>
    have hpos := hr health rfl
    exact Pet.clampHealth_pos (by omega)

theorem Summons.fitHealth_pet (request : Summons) (kind : PetKind) : (request.pet kind).FitHealth := by
  have base : (Pet.ofKind kind).FitHealth := Pet.fitHealth_setHealth kind.baseHealth (.ofKind kind)
  obtain ⟨name, team, attack, health, level⟩ := request
  cases health with
  | none => cases attack <;> cases level <;> exact base
  | some health => exact Pet.fitHealth_setHealth health _

theorem fitHealth_newcomer (h : Newcomer c S p) : p.FitHealth := by
  cases h with
  | plain _ _ => exact Summons.fitHealth_pet _ _
  | inheriting _ _ _ => exact Summons.fitHealth_pet _ _

/-- Effects write no health that is not clamped. -/
theorem fitHealth_edit (hf : Edit c S f) (h : p.FitHealth) : (f p).FitHealth := by
  cases hf with
  | buff _ => exact Pet.fitHealth_setHealth _ p
  | reduce _ => exact Pet.fitHealth_setHealth _ p
  | @copy _ _ copyAttack copyHealth donor _ _ =>
    cases copyHealth with
    | true => exact Pet.fitHealth_setHealth donor.health _
    | false =>
      unfold Pet.FitHealth at *
      rwa [health_copyStats]
  | status _ _ => exact h
  | borrow _ _ => exact h
  | useUp => exact h
  | bump _ => exact h

/-! ## Healing -/

/-- The effect itself can give health to a pet that has none. -/
def Effect.Healing : Effect → Prop
  | modifyStats _ health _ _ => 0 < int32 health
  | gainExperience amount _ => 0 < amount
  | transferStats _ _ _ copyHealth => copyHealth = true
  | _ => False

/-- Where no effect heals, a change leaves a pet without health as it is. -/
theorem health_eq_zero_of_edit (hS : ∀ e, S.effects e → ¬ e.Healing) (hf : Edit c S f)
    (h : p.health = 0) : (f p).health = 0 := by
  cases hf with
  | buff he =>
    have hgain : ¬ _ := hS _ he
    unfold Effect.Healing at hgain
    unfold Pet.buff Pet.clampHealth
    rw [h, Int.zero_add]
    dsimp only
    omega
  | reduce _ =>
    have uncut (share : Int) : max 0 (min share (int32 (0 - 1))) = 0 :=
      Int.max_eq_left (Int.le_trans (Int.min_le_right ..) (by decide))
    unfold reduceHealth
    rw [h, uncut]
    rfl
  | copy he _ =>
    have hcopy : ¬ _ := hS _ he
    unfold Effect.Healing at hcopy
    rw [Bool.not_eq_true] at hcopy
    rw [hcopy, health_copyStats, h]
  | status _ _ => exact h
  | borrow _ _ => exact h
  | useUp => exact h
  | bump _ => exact h

/-- A pet that has health after such a change had it before. -/
theorem health_pos_of_edit (hS : ∀ e, S.effects e → ¬ e.Healing) (hf : Edit c S f)
    (hp : 0 ≤ p.health) (h : 0 < (f p).health) : 0 < p.health := by
  refine (Int.lt_or_eq_of_le hp).resolve_right fun none => ?_
  rw [health_eq_zero_of_edit hS hf none.symm] at h
  exact Int.lt_irrefl 0 h

end AutoBattler
