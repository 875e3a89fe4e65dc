import AutoBattler.Proofs.Quiet

/-!
# The attack cycle of two lines

Where only statuses act, an attack cycle turns the lines of both sides into what they are after
they have clashed, and raises as many events as that tells. The cycle works on side `a` first, but
what it does to a line is said by the line and the one it faces.
-/
namespace AutoBattler

open Resolve

variable {rules : Rules} {b b' : Board} {side : Side} {ids ids' rest : List PetId}
  {own enemies : List Pet} {p q source : PetId} {P E : Pet} {e : Event} {k : Nat}
  {lines : Sides (List PetId)} {s : Arena}

/-- What is left of a line that `source` stood in front of: all of it, or all but `source`. -/
structure Board.Headed (b : Board) (side : Side) (source : PetId) (rest : List PetId) (k : Nat) :
    Prop where
  gap_le : k ≤ 1
  nodup : (source :: rest).Nodup
  home : b.sideOf? source = some side

theorem Board.Headed.congr (h : b.Headed side source rest k)
    (hs : b'.sideOf? source = b.sideOf? source) : b'.Headed side source rest k :=
  ⟨h.gap_le, h.nodup, hs.trans h.home⟩

/-! ## Hits -/

namespace Resolve

variable {pet : Pet} {id : PetId}

theorem damageModifier_run_of_defined (hp : s.board.pet? id = some pet) (hd : pet.Defined rules.catalog)
    (trigger : Trigger) :
    damageModifier rules id trigger s = (.ok (rules.catalog.modifier? trigger pet), s) := by
  obtain ⟨status, hstatus⟩ := Catalog.statusAbility_of_defined hd
  unfold damageModifier Catalog.modifier?
  rw [bind_run, pet?_run hp]
  dsimp only
  rw [hstatus]
  cases status with
  | none => rfl
  | some ability =>
    show (if ability.trigger = trigger then _ else _ : Resolve (Option DamageModifier)) s = _
    dsimp only
    split
    · cases ability.effect <;> rfl
    · rfl

/-- A pet that changes damage uses up its status as it does so. -/
theorem costs_applyModifier (hp : b.pet? id = some pet) (hd : pet.Defined rules.catalog)
    (trigger : Trigger) (work : Impact → DamageModifier → Impact) (i : Impact) :
    Costs rules 0 b (applyModifier rules id trigger work i) fun x b' =>
      x = (rules.catalog.modifier? trigger pet).elim i (work i) ∧
        b' = b.modifyPet id (Pet.spend rules.catalog trigger) := by
  constructor
  rintro s rfl hs
  unfold applyModifier
  rw [bind_run, damageModifier_run_of_defined hp hd]
  dsimp only
  cases hm : rules.catalog.modifier? trigger pet with
  | none =>
    have kept : pet.spend rules.catalog trigger = pet := by
      unfold Pet.spend
      rw [hm]
    exact ⟨⟨rfl, (Board.modifyPet_of_pet? hp kept).symm⟩, hs, rfl⟩
  | some m =>
    by_cases honce : m.once = true
    · have used : Pet.setStatus none pet = pet.spend rules.catalog trigger := by
        unfold Pet.spend
        rw [hm]
        exact (if_pos honce).symm
      simp only [if_pos honce]
      exact ⟨⟨rfl, Board.modifyPet_eq_of_pet? hp used⟩, ⟨hs.idle, hs.budget⟩, rfl⟩
    · have kept : pet.spend rules.catalog trigger = pet := by
        unfold Pet.spend
        rw [hm]
        exact if_neg honce
      simp only [if_neg honce]
      exact ⟨⟨rfl, (Board.modifyPet_of_pet? hp kept).symm⟩, hs, rfl⟩

end Resolve

namespace Facing

theorem of_symm {c : Catalog} (h : Facing c b side.opponent ids' enemies ids own) :
    Facing c b side ids own ids' enemies := by
  have hs := h.symm
  rwa [Side.opponent_opponent] at hs

theorem enemy_modify_front {c : Catalog} {behind : List Pet}
    (h : Facing c b side ids own (q :: ids') (E :: behind)) {f : Pet → Pet}
    (hf : ∀ p, p.Defined c → (f p).Defined c) :
    Facing c (b.modifyPet q f) side ids own (q :: ids') (f E :: behind) :=
  (h.symm.modify_front hf).of_symm

theorem headed (h : Facing rules.catalog b side (source :: rest) own ids' enemies) :
    b.Headed side source rest 0 :=
  ⟨Nat.zero_le 1, h.own.nodup, h.own.home source List.mem_cons_self⟩

theorem front {c : Catalog} (h : Facing c b side (p :: ids) (P :: own) ids' enemies) :
    b.pet? p = some P ∧ P.Defined c := by
  have hp := h.own.pet?_front
  exact ⟨hp, h.defined p P hp⟩

theorem costs_damageFor
    (h : Facing rules.catalog b side (p :: ids) (P :: own) (q :: ids') (E :: enemies)) :
    Costs rules 0 b (damageFor rules ⟨p, side, [q], P.attack, true⟩ q) fun damage b' =>
      damage = rules.catalog.blow P E ∧
      Facing rules.catalog b' side (p :: ids) (P.spend rules.catalog .whenAttacking :: own)
        (q :: ids') (E.spend rules.catalog .whenDamaged :: enemies) := by
  show Costs rules (0 + (0 + 0)) b _ _
  obtain ⟨hp, hP⟩ := h.front
  refine (costs_applyModifier hp hP .whenAttacking Impact.strengthen _).bind fun i b₁ hi => ?_
  obtain ⟨rfl, rfl⟩ := hi
  have h₁ := h.modify_front (f := Pet.spend rules.catalog .whenAttacking) fun _ hd => hd.spend
  obtain ⟨hE, hD⟩ := h₁.symm.front
  refine (costs_applyModifier hE hD .whenDamaged Impact.weaken _).bind fun i b₂ hi => ?_
  obtain ⟨rfl, rfl⟩ := hi
  exact costs_pure _ ⟨rfl, h₁.enemy_modify_front fun _ hd => hd.spend⟩

theorem costs_aim_nil (h : Facing rules.catalog b side ids own ids' enemies) :
    Costs rules 0 b (aim rules 0 []) fun aims b' =>
      aims = [] ∧ Facing rules.catalog b' side ids own ids' enemies := costs_pure [] ⟨rfl, h⟩

theorem costs_aim_cons {attacks : List Attack} {Q : List Aim → Board → Prop}
    (h : Facing rules.catalog b side (p :: ids) (P :: own) (q :: ids') (E :: enemies))
    (later : ∀ b', Facing rules.catalog b' side (p :: ids)
      (P.spend rules.catalog .whenAttacking :: own) (q :: ids')
      (E.spend rules.catalog .whenDamaged :: enemies) → Costs rules 0 b' (aim rules 0 attacks) Q) :
    Costs rules 0 b (aim rules 0 (⟨p, side, [q], P.attack, true⟩ :: attacks)) fun aims b' =>
      ∃ rest, aims = ⟨⟨p, side, [q], P.attack, true⟩, q, rules.catalog.blow P E⟩ :: rest ∧
        Q rest b' := by
  have alive : b.isAlive q = true := h.enemies.isAlive List.mem_cons_self
  unfold aim
  dsimp only [List.getElem?_cons_zero]
  refine costs_board ?_
  rw [if_pos alive]
  show Costs rules (0 + (0 + 0)) b _ _
  refine h.costs_damageFor.bind fun damage b₁ hd => ?_
  obtain ⟨hdamage, h₁⟩ := hd
  refine (later b₁ h₁).bind fun rest b₂ hrest => ?_
  exact costs_pure _ ⟨rest, by rw [hdamage], hrest⟩

/-- The foremost pets of both sides are aimed at. What the second hit does is as if it were the
first. -/
theorem costs_aim
    (h : Facing rules.catalog b side (p :: ids) (P :: own) (q :: ids') (E :: enemies)) :
    Costs rules 0 b (aim rules 0 [⟨p, side, [q], P.attack, true⟩,
        ⟨q, side.opponent, [p], E.attack, true⟩]) fun aims b' =>
      aims = [⟨⟨p, side, [q], P.attack, true⟩, q, rules.catalog.blow P E⟩,
        ⟨⟨q, side.opponent, [p], E.attack, true⟩, p, rules.catalog.blow E P⟩] ∧
      Facing rules.catalog b' side (p :: ids) (P.spent rules.catalog :: own) (q :: ids')
        (E.spent rules.catalog :: enemies) := by
  refine (h.costs_aim_cons (Q := fun aims b' =>
    aims = [⟨⟨q, side.opponent, [p], E.attack, true⟩, p, rules.catalog.blow E P⟩] ∧
      Facing rules.catalog b' side (p :: ids) (P.spent rules.catalog :: own) (q :: ids')
        (E.spent rules.catalog :: enemies))
    fun b₁ h₁ => ?_).weaken ?_
  · have second := h₁.symm.costs_aim_cons fun b₂ h₂ => h₂.costs_aim_nil
    rw [Pet.attack_spend, Catalog.blow_spend] at second
    refine second.weaken ?_
    rintro _ b' ⟨_, rfl, rfl, h₂⟩
    unfold Pet.spent
    rw [Pet.spend_comm (by decide) E]
    exact ⟨rfl, h₂.of_symm⟩
  · rintro _ b' ⟨_, rfl, rfl, h'⟩
    exact ⟨rfl, h'⟩

theorem costs_applyHits_nil (h : Facing rules.catalog b side ids own ids' enemies) :
    Costs rules 0 b (applyHits []) fun hits b' =>
      hits = [] ∧ Facing rules.catalog b' side ids own ids' enemies := costs_pure [] ⟨rfl, h⟩

theorem costs_applyHits_cons {aims : List Aim} {Q : List Hit → Board → Prop}
    (h : Facing rules.catalog b side ids own (q :: ids') (E :: enemies)) (attack : Attack)
    (damage : Int)
    (later : ∀ b', Facing rules.catalog b' side ids own (q :: ids')
      (E.takeDamage damage :: enemies) → Costs rules 0 b' (applyHits aims) Q) :
    Costs rules 0 b (applyHits (⟨attack, q, damage⟩ :: aims)) fun hits b' =>
      ∃ rest, hits = ⟨attack.attacker, attack.side, q, E.healthLost damage⟩ :: rest ∧
        Q rest b' := by
  have h' := h.enemy_modify_front (f := Pet.takeDamage damage) fun _ hd => hd.congr rfl rfl rfl
  unfold applyHits
  refine costs_pet? h.symm.front.1 ?_
  show Costs rules (0 + (0 + 0)) b _ _
  refine (costs_modifyPet q (Pet.takeDamage damage)).bind fun _ b₁ hb => ?_
  subst hb
  exact (later _ h').bind fun rest b₂ hrest => costs_pure _ ⟨rest, rfl, hrest⟩

/-- Both foremost pets are hit. -/
theorem costs_applyHits
    (h : Facing rules.catalog b side (p :: ids) (P :: own) (q :: ids') (E :: enemies))
    (x y : Attack) (damage damage' : Int) :
    Costs rules 0 b (applyHits [⟨x, q, damage⟩, ⟨y, p, damage'⟩]) fun hits b' =>
      hits = [⟨x.attacker, x.side, q, E.healthLost damage⟩,
        ⟨y.attacker, y.side, p, P.healthLost damage'⟩] ∧
      Facing rules.catalog b' side (p :: ids) (P.takeDamage damage' :: own) (q :: ids')
        (E.takeDamage damage :: enemies) := by
  refine (h.costs_applyHits_cons x damage (Q := fun hits b' =>
    hits = [⟨y.attacker, y.side, p, P.healthLost damage'⟩] ∧
      Facing rules.catalog b' side (p :: ids) (P.takeDamage damage' :: own) (q :: ids')
        (E.takeDamage damage :: enemies)) fun b₁ h₁ => ?_).weaken ?_
  · refine (h₁.symm.costs_applyHits_cons y damage' fun b₂ h₂ =>
      h₂.costs_applyHits_nil).weaken ?_
    rintro _ b' ⟨_, rfl, rfl, h₂⟩
    exact ⟨rfl, h₂.of_symm⟩
  · rintro _ b' ⟨_, rfl, rfl, h'⟩
    exact ⟨rfl, h'⟩

section

variable (hq : rules.catalog.IsQuiet) (hroom : 0 < rules.config.maxDispatchDepth)
include hq hroom

/-! ## Events -/

/-- An event without a source is told to a whole line. -/
theorem costs_unsourced (h : Facing rules.catalog b side ids own ids' enemies)
    (he : e.side = side) (hs : e.source = none) (hn : e.snapshot = none) :
    Costs rules 1 b (dispatch rules e) fun _ b' =>
      Facing rules.catalog b' side ids (hearingLine rules.catalog e.trigger 2 own) ids'
        enemies := by
  have hwalk : e.snapshot.getD (b.roster e.side) = ids.reverse := by
    rw [hn, he, h.own.roster]
    rfl
  have reached : ∀ id ∈ ids.reverse, e.source = some id ∨ b.isAlive id = true := fun id hm =>
    .inr (h.own.isAlive (List.mem_reverse.1 hm))
  refine (costs_dispatch hq hroom h.defined hwalk reached).weaken fun _ b' hb => ?_
  subst hb
  refine h.told (List.nodup_reverse.2 h.own.nodup) ?_ (fun id hm => List.mem_reverse.2 hm) ?_
  · intro id hm
    exact h.own.home id (List.mem_reverse.1 hm)
  · intro i _ a
    exact Board.hears_unsourced hs _ i a

/-- An event with a source is told to what is left of the line that the source headed. -/
theorem costs_sourced (h : Facing rules.catalog b side ((source :: rest).drop k) own ids' enemies)
    (hl : b.Headed side source rest k) (he : e.side = side) (hs : e.source = some source)
    (hwalk : e.snapshot.getD (b.roster side) = (source :: rest).reverse) :
    Costs rules 1 b (dispatch rules e) fun _ b' =>
      Facing rules.catalog b' side ((source :: rest).drop k)
        (hearingLine rules.catalog e.trigger k own) ids' enemies ∧
      ∀ x, b'.sideOf? x = b.sideOf? x := by
  have kept : ∀ id ∈ source :: rest, id = source ∨ id ∈ (source :: rest).drop k := by
    intro id hm
    obtain rfl | rfl : k = 0 ∨ k = 1 := by
      have := hl.gap_le
      omega
    · exact .inr hm
    · exact List.mem_cons.1 hm
  have home : ∀ id ∈ (source :: rest).reverse, b.sideOf? id = some side := by
    intro id hm
    rcases kept id (List.mem_reverse.1 hm) with rfl | hm
    · exact hl.home
    · exact h.own.home id hm
  have reached : ∀ id ∈ (source :: rest).reverse, e.source = some id ∨ b.isAlive id = true := by
    intro id hm
    rcases kept id (List.mem_reverse.1 hm) with rfl | hm
    · exact .inl hs
    · exact .inr (h.own.isAlive hm)
  rw [← he] at hwalk
  refine (costs_dispatch hq hroom h.defined hwalk reached).weaken fun _ b' hb => ?_
  subst hb
  refine ⟨h.told (List.nodup_reverse.2 hl.nodup) home ?_ ?_, fun x => Board.sideOf?_told b x⟩
  · intro id hm
    exact List.mem_reverse.2 (List.mem_of_mem_drop hm)
  · intro i hi a
    have hplace : k + i < (source :: rest).length := by
      rw [List.length_drop] at hi
      omega
    rw [List.getElem_drop]
    exact Board.hears_behind hl.nodup hs hplace a

theorem costs_announceBefore
    (h : Facing rules.catalog b side (p :: ids) own (q :: ids') enemies) (damage : Int) :
    Costs rules 1 b (announceBefore (dispatch rules) ⟨p, side, [q], damage, true⟩) fun _ b' =>
      Facing rules.catalog b' side (p :: ids) (hearingLine rules.catalog .beforeAttack 0 own)
        (q :: ids') enemies := by
  refine costs_board ?_
  have both : (true && b.isAlive p && anyAlive b [q]) = true := by
    simp [anyAlive, h.own.isAlive, h.enemies.isAlive]
  rw [if_pos both]
  have told := h.costs_sourced (e := (Event.battle .beforeAttack side).withSource p) hq hroom
    h.headed rfl rfl h.own.roster
  exact told.weaken fun _ _ hb => hb.1

/-- Who has fallen tells nothing of its attack in the end. -/
theorem costs_announceAfter (f : Fate)
    (h : Facing rules.catalog b side ((p :: ids).drop f.gap) own ids' enemies)
    (hl : b.Headed side p ids f.gap) (targets : List PetId) (damage : Int) :
    Costs rules f.closing.length b (announceAfter (dispatch rules) ⟨p, side, targets, damage, true⟩)
      fun _ b' => Facing rules.catalog b' side ((p :: ids).drop f.gap)
        (hearingEach rules.catalog f.gap f.closing own) ids' enemies ∧
        ∀ x, b'.sideOf? x = b.sideOf? x := by
  refine costs_board ?_
  cases f with
  | fell =>
    have gone : ¬ (true && b.isAlive p) = true := by
      rw [Bool.true_and, Board.isAlive_iff]
      rintro ⟨s, hs, hm⟩
      obtain rfl : side = s := Option.some.inj (hl.home.symm.trans hs)
      rw [h.own.roster] at hm
      exact (List.nodup_cons.1 hl.nodup).1 (List.mem_reverse.1 hm)
    rw [if_neg gone]
    exact costs_pure () ⟨h, fun _ => rfl⟩
  | unharmed | hurt =>
    have stands : (true && b.isAlive p) = true := h.own.isAlive List.mem_cons_self
    rw [if_pos stands]
    exact h.costs_sourced hq hroom hl rfl rfl h.own.roster

/-- The foremost enemy leaves its line, faints, and has been knocked out. -/
theorem costs_fall
    (h : Facing rules.catalog b side ((p :: ids).drop k) own (q :: ids') (E :: enemies))
    (hl : b.Headed side p ids k) (hown : lines.get side = (p :: ids).reverse)
    (henemies : lines.get side.opponent = (q :: ids').reverse) :
    Costs rules 2 b
      (do
        if ← remove q then do
          dispatch rules (attackEvent .faint side.opponent q lines)
          dispatch rules (attackEvent .knockout side p lines)
        else pure ()) fun _ b' =>
      Facing rules.catalog b' side ((p :: ids).drop k)
        (hearingLine rules.catalog .knockout k own) ids'
        (hearingLine rules.catalog .faint 1 enemies) ∧
      ∀ x, b'.sideOf? x = b.sideOf? x := by
  obtain ⟨b₁, hr, hs₁, h₁⟩ := h.symm.leave_front
  have left : b₁.Headed side.opponent q ids' 1 :=
    ⟨Nat.le_refl 1, h.enemies.nodup, (hs₁ q).trans (h.enemies.home q List.mem_cons_self)⟩
  have fainted := h₁.costs_sourced (k := 1)
    (e := attackEvent .faint side.opponent q lines) hq hroom left rfl rfl henemies
  show Costs rules (0 + (1 + 1)) b _ _
  refine (costs_remove hr).bind fun removed b₂ ⟨hremoved, hb₂⟩ => ?_
  subst hremoved hb₂
  rw [if_pos rfl]
  refine fainted.bind fun _ b₃ ⟨h₃, hs₃⟩ => ?_
  have won := h₃.of_symm.costs_sourced (e := attackEvent .knockout side p lines) hq hroom
    (hl.congr ((hs₃ p).trans (hs₁ p))) rfl rfl hown
  exact won.weaken fun _ b' hb => ⟨hb.1, fun x => (hb.2 x).trans ((hs₃ x).trans (hs₁ x))⟩

/-- What follows from a hit on the foremost enemy. -/
theorem costs_followUp {f : Fate} {lost : Int}
    (h : Facing rules.catalog b side ((p :: ids).drop k) own (q :: ids') (E :: enemies))
    (hl : b.Headed side p ids k) (hown : lines.get side = (p :: ids).reverse)
    (henemies : lines.get side.opponent = (q :: ids').reverse) (hf : f = .of lost E) :
    Costs rules (f.news.length + f.spoils.length) b
      (followUp (dispatch rules) lines ⟨p, side, q, lost⟩) fun _ b' =>
        Facing rules.catalog b' side ((p :: ids).drop k)
          (hearingEach rules.catalog k f.spoils own) ((q :: ids').drop f.gap)
          (hearingEach rules.catalog f.gap f.news ((E :: enemies).drop f.gap)) ∧
        ∀ x, b'.sideOf? x = b.sideOf? x := by
  subst hf
  obtain ⟨target, ht, hside⟩ := Option.map_eq_some_iff.1 (h.enemies.home q List.mem_cons_self)
  have hpet : target.pet = E := by
    have hp := h.symm.front.1
    rw [Board.pet?_of_entrant? ht] at hp
    exact Option.some.inj hp
  subst hpet
  unfold followUp Fate.of
  dsimp only
  by_cases hlost : lost ≤ 0
  · rw [if_pos hlost, if_pos hlost]
    exact costs_pure () ⟨h, fun _ => rfl⟩
  · rw [if_neg hlost, if_neg hlost]
    refine costs_board ?_
    rw [ht]
    dsimp only
    rw [hside]
    by_cases halive : target.pet.isAlive = true
    · rw [if_pos halive, if_pos halive]
      have told := h.symm.costs_sourced (e := attackEvent .hurt side.opponent q lines) hq hroom
        h.symm.headed rfl rfl henemies
      exact told.weaken fun _ b' hb => ⟨hb.1.of_symm, hb.2⟩
    · rw [if_neg halive, if_neg halive]
      exact h.costs_fall hq hroom hl hown henemies

/-- One hit each. What the second does to the line that was told of the first comes to what it does
to that line before. -/
theorem costs_playRound
    (h : Facing rules.catalog b side (p :: ids) (P :: own) (q :: ids') (E :: enemies))
    (hown : lines.get side = (p :: ids).reverse)
    (henemies : lines.get side.opponent = (q :: ids').reverse) :
    Costs rules ((tidings (P.fate rules.catalog E) (E.fate rules.catalog P)).length +
        (tidings (E.fate rules.catalog P) (P.fate rules.catalog E)).length) b
      (playRound rules (dispatch rules) [⟨p, side, [q], P.attack, true⟩,
        ⟨q, side.opponent, [p], E.attack, true⟩] lines 0) fun _ b' =>
      Facing rules.catalog b' side
        ((p :: ids).drop (P.fate rules.catalog E).gap) (afterHits rules.catalog P E own)
        ((q :: ids').drop (E.fate rules.catalog P).gap) (afterHits rules.catalog E P enemies) ∧
      b'.Headed side p ids (P.fate rules.catalog E).gap ∧
      b'.Headed side.opponent q ids' (E.fate rules.catalog P).gap := by
  have hf := Pet.fate_eq rules.catalog P E
  have hg := Pet.fate_eq rules.catalog E P
  unfold afterHits tidings
  rw [List.length_append, List.length_append]
  generalize P.fate rules.catalog E = f at hf ⊢
  generalize E.fate rules.catalog P = g at hg ⊢
  suffices followed : Costs rules (0 + (0 + ((g.news.length + g.spoils.length) +
      (f.news.length + f.spoils.length)))) b _ _ from followed.count (by omega)
  refine h.costs_aim.bind fun aims b₁ ⟨haims, h₁⟩ => ?_
  subst haims
  refine (h₁.costs_applyHits _ _ _ _).bind fun hits b₂ ⟨hhits, h₂⟩ => ?_
  subst hhits
  refine costs_forEach_pair (h₂.costs_followUp (k := 0) hq hroom h₂.headed hown henemies hg)
    fun b₃ ⟨h₃, hs₃⟩ => ?_
  -- The line of the first pet may have been told of the enemy. The pet still stands in front.
  obtain ⟨P', own', hline, hhealth⟩ :=
    hearingEach_cons rules.catalog 0 g.spoils (P.struck rules.catalog E) own
  have left : b₃.Headed side.opponent q ids' g.gap :=
    ⟨g.gap_le, h.enemies.nodup, (hs₃ q).trans (h₂.enemies.home q List.mem_cons_self)⟩
  have h₄ : Facing rules.catalog b₃ side (p :: ids) (P' :: own') _ _ := hline ▸ h₃
  have second := h₄.symm.costs_followUp hq hroom left henemies (by rwa [Side.opponent_opponent])
    (hf.trans (Fate.of_congr _ hhealth).symm)
  refine second.weaken fun _ b₅ ⟨h₅, hs₅⟩ => ⟨?_, ?_, ?_⟩
  · rw [hearingEach_append, hearingEach_append, ← hearingEach_news_comm]
    rw [← hline, drop_hearingEach, Nat.zero_add] at h₅
    exact h₅.of_symm
  · exact ⟨f.gap_le, h.own.nodup, (hs₅ p).trans (h₄.own.home p List.mem_cons_self)⟩
  · exact left.congr (hs₅ q)

/-- The hits of pets that are about to attack, and what is told when the attacks are over. -/
theorem costs_hits
    (h : Facing rules.catalog b side (p :: ids) (P :: own) (q :: ids') (E :: enemies))
    (attacks : List Attack)
    (ha : attacks = [⟨p, side, [q], P.attack, true⟩, ⟨q, side.opponent, [p], E.attack, true⟩]) :
    Costs rules (((tidings (P.fate rules.catalog E) (E.fate rules.catalog P)).length +
        (tidings (E.fate rules.catalog P) (P.fate rules.catalog E)).length) +
        ((P.fate rules.catalog E).closing.length + (E.fate rules.catalog P).closing.length)) b
      (do
        let b ← board
        let attacks := attacks.filter fun attack => anyAlive b attack.targets
        forEach (List.range (width attacks)) (playRound rules (dispatch rules) attacks b.lines)
        forEach attacks (announceAfter (dispatch rules))) fun _ b' => ∃ jds jds',
      Facing rules.catalog b' side
        jds (hearingEach rules.catalog (P.fate rules.catalog E).gap (P.fate rules.catalog E).closing
          (afterHits rules.catalog P E own))
        jds' (hearingEach rules.catalog (E.fate rules.catalog P).gap
          (E.fate rules.catalog P).closing (afterHits rules.catalog E P enemies)) := by
  have all : (attacks.filter fun attack => anyAlive b attack.targets) = attacks := by
    subst ha
    simp [anyAlive, h.own.isAlive, h.enemies.isAlive]
  refine costs_board ?_
  dsimp only
  rw [all]
  subst ha
  have hown : b.lines.get side = (p :: ids).reverse := (Sides.get_map _ _ _).trans h.own.roster
  have henemies : b.lines.get side.opponent = (q :: ids').reverse :=
    (Sides.get_map _ _ _).trans h.enemies.roster
  have round := costs_forEach_single (h.costs_playRound hq hroom hown henemies)
  refine round.bind fun _ b₁ ⟨h₁, left, left'⟩ => ?_
  refine costs_forEach_pair (h₁.costs_announceAfter hq hroom _ left _ _) fun b₂ ⟨h₂, hs₂⟩ => ?_
  have last := h₂.symm.costs_announceAfter hq hroom _ (left'.congr (hs₂ q)) [p] E.attack
  exact last.weaken fun _ b₃ hb => ⟨_, _, hb.1.of_symm⟩

/-- The two attacks of a cycle turn the lines into what they are after they have clashed. -/
theorem costs_playAttacks
    (h : Facing rules.catalog b side (p :: ids) (P :: own) (q :: ids') (E :: enemies)) :
    Costs rules (clashEvents rules.catalog (P :: own) (E :: enemies) +
        clashEvents rules.catalog (E :: enemies) (P :: own)) b
      (playAttacks rules (dispatch rules) [⟨p, side, [q], P.attack, true⟩,
        ⟨q, side.opponent, [p], E.attack, true⟩]) fun _ b' => ∃ jds jds',
      Facing rules.catalog b' side jds (clash rules.catalog (P :: own) (E :: enemies)) jds'
        (clash rules.catalog (E :: enemies) (P :: own)) := by
  have before := costs_forEach_pair (h.costs_announceBefore hq hroom P.attack) fun b₁ h₁ =>
    h₁.symm.costs_announceBefore hq hroom E.attack
  have hits (b₂ : Board) (h₂ : Facing rules.catalog b₂ side (p :: ids)
      (P.ready rules.catalog :: hearingLine rules.catalog .beforeAttack 1 own) (q :: ids')
      (E.ready rules.catalog :: hearingLine rules.catalog .beforeAttack 1 enemies)) :=
    h₂.costs_hits hq hroom
      [⟨p, side, [q], P.attack, true⟩, ⟨q, side.opponent, [p], E.attack, true⟩] (by
        unfold Pet.ready
        rw [Pet.attack_hearing, Pet.attack_hearing])
  have played := before.bind fun _ b₂ h₂ => hits b₂ (by
    rw [hearingLine_cons, hearingLine_cons] at h₂
    exact h₂.of_symm)
  exact played.count (by simp only [clashEvents]; omega)

/-- An attack cycle turns the lines into what they are after they have clashed. -/
theorem costs_attackCycle
    (h : Facing rules.catalog b .a (p :: ids) (P :: own) (q :: ids') (E :: enemies)) :
    Costs rules (clashEvents rules.catalog (P :: own) (E :: enemies) +
        clashEvents rules.catalog (E :: enemies) (P :: own)) b
      (attackCycle rules (procedures rules)) fun _ b' => ∃ jds jds',
      Facing rules.catalog b' .a jds (clash rules.catalog (P :: own) (E :: enemies)) jds'
        (clash rules.catalog (E :: enemies) (P :: own)) := by
  refine costs_board ?_
  rw [h.own.primaryAttacks h.enemies]
  exact (h.costs_playAttacks hq hroom).bind fun _ b₁ h₁ =>
    costs_drainQueues.weaken fun _ b₂ hb => hb ▸ h₁

end

end Facing

end AutoBattler
