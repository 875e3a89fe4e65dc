import AutoBattler.Battle
import Mathlib.Order.MinMax

/-!
# Duels

Two lines of pets that do nothing but hit each other. Each round the pets in front lose each other's
attack from their health at the same time, and whoever has none left leaves. The duel ends when a
line is empty, or after so many rounds as are allowed. Lines are given from the front to the back.
-/
namespace AutoBattler

/-- A pet that is under no status, with stats in range. -/
structure Pet.IsPlain (p : Pet) : Prop where
  status : p.status = none
  health_pos : 1 ≤ p.health
  health_le : p.health ≤ maxHealth
  attack_nonneg : 0 ≤ p.attack
  attack_le : p.attack ≤ maxAttack

/-- How a duel ends. -/
structure Duel where
  lines : Sides (List Pet)
  rounds : Nat

namespace Duel

variable {own enemies : List Pet} {lines : Sides (List Pet)} {limit : Nat}

/-- A line after its foremost pet and that of the other line have hit each other. -/
def exchange : (own enemies : List Pet) → List Pet
  | p :: rest, enemy :: _ =>
    if 0 < p.health - enemy.attack then { p with health := p.health - enemy.attack } :: rest else rest
  | own, _ => own

def round (lines : Sides (List Pet)) : Sides (List Pet) :=
  ⟨exchange lines.a lines.b, exchange lines.b lines.a⟩

def fight : (limit : Nat) → Sides (List Pet) → Duel
  | 0, lines => ⟨lines, 0⟩
  | limit + 1, lines =>
    if lines.a = [] ∨ lines.b = [] then ⟨lines, 0⟩
    else
      let later := fight limit (round lines)
      ⟨later.lines, later.rounds + 1⟩

/-- The side that has pets left wins, if the other one has none. -/
def verdict (lines : Sides (List Pet)) : BattleOutcome :=
  match lines.a.isEmpty, lines.b.isEmpty with
  | false, true => .teamOneWins
  | true, false => .teamTwoWins
  | _, _ => .draw

theorem exchange_cons (p enemy : Pet) (rest others : List Pet) :
    exchange (p :: rest) (enemy :: others) =
      if 0 < p.health - enemy.attack then { p with health := p.health - enemy.attack } :: rest
      else rest := rfl

theorem fight_of_over (h : lines.a = [] ∨ lines.b = []) (limit : Nat) :
    fight limit lines = ⟨lines, 0⟩ := by
  cases limit with
  | zero => rfl
  | succ limit => rw [fight, if_pos h]

theorem fight_succ (h : ¬ (lines.a = [] ∨ lines.b = [])) (limit : Nat) :
    fight (limit + 1) lines =
      ⟨(fight limit (round lines)).lines, (fight limit (round lines)).rounds + 1⟩ := by
  rw [fight, if_neg h]

/-! ## What a round keeps -/

/-- What a pet keeps as it loses health, all pets of a line keep. -/
theorem forall_exchange {P : Pet → Prop}
    (hP : ∀ p, P p → ∀ health, 0 < health → health ≤ p.health → P { p with health := health })
    (hown : ∀ p ∈ own, P p) (henemies : ∀ enemy ∈ enemies, 0 ≤ enemy.attack) :
    ∀ p ∈ exchange own enemies, P p := by
  match own, enemies with
  | [], _ => exact hown
  | _ :: _, [] => exact hown
  | p :: rest, enemy :: _ =>
    obtain ⟨hp, hrest⟩ := List.forall_mem_cons.1 hown
    have strikes := henemies enemy List.mem_cons_self
    rw [exchange_cons]
    split
    · rename_i alive
      have less : p.health - enemy.attack ≤ p.health := by omega
      exact List.forall_mem_cons.2 ⟨hP p hp _ alive less, hrest⟩
    · exact hrest

theorem plain_exchange (hown : ∀ p ∈ own, p.IsPlain) (henemies : ∀ enemy ∈ enemies, enemy.IsPlain) :
    ∀ p ∈ exchange own enemies, p.IsPlain := by
  refine forall_exchange (fun p hp health hpos hle => ?_) hown fun enemy hm =>
    (henemies enemy hm).attack_nonneg
  exact { hp with health_pos := hpos, health_le := Int.le_trans hle hp.health_le }

def Plain (lines : Sides (List Pet)) : Prop := ∀ side, ∀ p ∈ lines.get side, p.IsPlain

theorem Plain.round (h : Plain lines) : Plain (round lines) := by
  intro side
  cases side
  · exact plain_exchange (h .a) (h .b)
  · exact plain_exchange (h .b) (h .a)

/-! ## How long it takes -/

/-- The health of all pets together. -/
def health : List Pet → Int
  | [] => 0
  | p :: rest => p.health + health rest

theorem health_cons (p : Pet) (rest : List Pet) : health (p :: rest) = p.health + health rest := rfl

theorem health_append (own enemies : List Pet) :
    health (own ++ enemies) = health own + health enemies := by
  induction own with
  | nil => exact (Int.zero_add _).symm
  | cons p rest ih => rw [List.cons_append, health_cons, ih, health_cons, Int.add_assoc]

theorem health_reverse (line : List Pet) : health line.reverse = health line := by
  induction line with
  | nil => rfl
  | cons p rest ih =>
    rw [List.reverse_cons, health_append, ih, health_cons, health_cons, health, Int.add_zero,
      Int.add_comm]

theorem health_nonneg (h : ∀ p ∈ own, 1 ≤ p.health) : 0 ≤ health own := by
  induction own with
  | nil => exact Int.le_refl 0
  | cons p rest ih =>
    obtain ⟨hp, hrest⟩ := List.forall_mem_cons.1 h
    have behind := ih hrest
    rw [health_cons]
    omega

/-- A line whose pets are alive has health, unless it is empty. -/
theorem eq_nil_of_health (h : ∀ p ∈ own, 1 ≤ p.health) (hh : health own ≤ 0) : own = [] := by
  cases own with
  | nil => rfl
  | cons p rest =>
    obtain ⟨hp, hrest⟩ := List.forall_mem_cons.1 h
    have behind := health_nonneg hrest
    rw [health_cons] at hh
    omega

/-- Lines in which every pet is alive and hits. -/
def Fierce (lines : Sides (List Pet)) : Prop :=
  ∀ side, ∀ p ∈ lines.get side, 1 ≤ p.health ∧ 1 ≤ p.attack

theorem health_exchange (hown : ∀ p ∈ own, 1 ≤ p.health ∧ 1 ≤ p.attack)
    (henemies : ∀ p ∈ enemies, 1 ≤ p.health ∧ 1 ≤ p.attack) (hn : own ≠ []) (hn' : enemies ≠ []) :
    health (exchange own enemies) + 1 ≤ health own := by
  match own, enemies with
  | [], _ => exact absurd rfl hn
  | _ :: _, [] => exact absurd rfl hn'
  | p :: rest, enemy :: _ =>
    have alive := (hown p List.mem_cons_self).1
    have strikes := (henemies enemy List.mem_cons_self).2
    rw [exchange_cons, health_cons]
    split
    · rw [health_cons]
      dsimp only
      omega
    · omega

theorem Fierce.round (h : Fierce lines) : Fierce (round lines) := by
  have kept : ∀ p : Pet, 1 ≤ p.health ∧ 1 ≤ p.attack → ∀ health, 0 < health → health ≤ p.health →
      1 ≤ health ∧ 1 ≤ p.attack := fun _ hp _ hpos _ => ⟨hpos, hp.2⟩
  have strikes (side : Side) : ∀ p ∈ lines.get side, 0 ≤ p.attack := fun p hm => by
    have := (h side p hm).2
    omega
  intro side
  cases side
  · exact forall_exchange kept (h .a) (strikes .b)
  · exact forall_exchange kept (h .b) (strikes .a)

theorem Fierce.health_round (h : Fierce lines) (hn : ¬ (lines.a = [] ∨ lines.b = [])) :
    health (Duel.round lines).a + 1 ≤ health lines.a ∧
      health (Duel.round lines).b + 1 ≤ health lines.b := by
  obtain ⟨ha, hb⟩ := not_or.1 hn
  exact ⟨health_exchange (h .a) (h .b) ha hb, health_exchange (h .b) (h .a) hb ha⟩

/-- Each round costs both lines some health. -/
theorem rounds_le_health (h : Fierce lines) (limit : Nat) :
    ((fight limit lines).rounds : Int) ≤ min (health lines.a) (health lines.b) := by
  have ha := health_nonneg fun p hm => (h .a p hm).1
  have hb := health_nonneg fun p hm => (h .b p hm).1
  have nonneg : 0 ≤ min (health lines.a) (health lines.b) := le_min ha hb
  induction limit generalizing lines with
  | zero => exact nonneg
  | succ limit ih =>
    by_cases hn : lines.a = [] ∨ lines.b = []
    · rw [fight_of_over hn]
      exact nonneg
    -- The round and those after it each take one from what either line has.
    · have later := h.round
      have ha' := health_nonneg fun p hm => (later .a p hm).1
      have hb' := health_nonneg fun p hm => (later .b p hm).1
      have bound := ih later ha' hb' (le_min ha' hb')
      have lost := h.health_round hn
      rw [fight_succ hn]
      dsimp only
      omega

/-- With as many rounds as one of the lines has health a duel is fought to its end. -/
theorem over_of_health_le (h : Fierce lines)
    (hl : min (health lines.a) (health lines.b) ≤ limit) :
    (fight limit lines).lines.a = [] ∨ (fight limit lines).lines.b = [] := by
  induction limit generalizing lines with
  | zero =>
    rcases min_le_iff.1 hl with hl | hl
    · exact .inl (eq_nil_of_health (fun p hm => (h .a p hm).1) hl)
    · exact .inr (eq_nil_of_health (fun p hm => (h .b p hm).1) hl)
  | succ limit ih =>
    by_cases hn : lines.a = [] ∨ lines.b = []
    · rw [fight_of_over hn]
      exact hn
    · have lost := h.health_round hn
      rw [fight_succ hn]
      exact ih h.round (by omega)

end Duel

end AutoBattler
