import AutoBattler.Proofs.Capacity
import AutoBattler.Proofs.Faints

/-!
# Silence after a faint

Two attacks that are played at once may hit one pet, and each hit is followed up by the health that
the pet has then. A pet that fainted at the first of them and was healed since is told to be hurt
by the second. Nothing else is told of it, and nothing at all where no effect heals.
-/
namespace AutoBattler

open Resolve

/-- After a pet has fainted it is neither hurt nor attacks, and hears of its own events only. -/
def Silent (records : List EventRecord) : Prop :=
  ∀ (i j : Nat) (r r' : EventRecord) (id : PetId), i < j → records[i]? = some r →
    records[j]? = some r' → r.Reports .faint id →
    ¬ r'.Reports .hurt id ∧ ¬ r'.Reports .beforeAttack id ∧ ¬ r'.Reports .afterAttack id ∧
      (id ∈ r'.notified → r'.source = some id)

/-- The successor of the record at `i` is a knockout and has that at `j` for its successor, all on
one level. -/
def AfterKnockout (records : List EventRecord) (i j : Nat) : Prop :=
  ∃ m r k r', records[i]? = some r ∧ records[m]? = some k ∧ records[j]? = some r' ∧
    IsNext records i m ∧ IsNext records m j ∧ k.trigger = .knockout ∧ k.depth = r.depth ∧
    r'.depth = r.depth

/-! ## Pets that are hurt late -/

theorem JustFainted.afterKnockout {xs : List EventRecord} {j : Nat} {r : EventRecord} {id : PetId}
    (hj : xs[j]? = some r) (h : JustFainted r.depth (xs.take j) id) :
    ∃ i f, xs[i]? = some f ∧ f.Reports .faint id ∧ AfterKnockout xs i j := by
  obtain ⟨earlier, later, rfl, rfl⟩ := eq_append_cons_of_getElem? hj
  rw [List.take_left] at h
  obtain ⟨before, f, inner, k, inner', rfl, faint, level, deeper, knocks, level', deeper'⟩ := h
  have fainted : IsNext (before ++ f :: (inner ++ k :: (inner' ++ r :: later))) before.length
      (before.length + (inner.length + 1)) :=
    isNext_of_append (by omega) fun x hx => level.symm ▸ deeper x hx
  have knocked : IsNext ((before ++ f :: inner) ++ k :: (inner' ++ r :: later))
      (before ++ f :: inner).length ((before ++ f :: inner).length + (inner'.length + 1)) :=
    isNext_of_append (by omega) fun x hx => level'.symm ▸ deeper' x hx
  simp only [List.append_assoc, List.cons_append] at hj knocked ⊢
  refine ⟨before.length, f, by simp, faint, before.length + (inner.length + 1), f, k, r, by simp, ?_,
    hj, fainted, ?_, knocks, level'.trans level.symm, level.symm⟩
  · simp
  · convert knocked using 1
    · simp
    · simp
      omega

namespace EventLog

variable {still : Prop} {log : EventLog}

theorem IsDiscreet.silent (h : log.IsDiscreet still) (hs : still) :
    Silent log.records.toList := by
  intro i j r r' id hij hi hj hf
  have discreet := h j r' id hj (fainted_of_record hij hi hf)
  exact ⟨fun hh => (discreet.hurt hh).1 hs, discreet.before, discreet.after, discreet.notified⟩

theorem afterKnockout_of_headings {i j : Nat} (h : AfterKnockout log.headings i j) :
    AfterKnockout log.records.toList i j := by
  obtain ⟨m, _, _, _, hi, hm, hj, next, next', knocks, level, level'⟩ := h
  obtain ⟨r, hr, rfl⟩ := record_of_heading hi
  obtain ⟨k, hk, rfl⟩ := record_of_heading hm
  obtain ⟨r', hr', rfl⟩ := record_of_heading hj
  exact ⟨m, r, k, r', hr, hk, hr', isNext_of_headings next, isNext_of_headings next', knocks, level,
    level'⟩

/-- A pet that is hurt after its faint is hurt right after the knockout. -/
theorem IsDiscreet.afterKnockout (h : log.IsDiscreet still) {i j : Nat} {r r' : EventRecord}
    {id : PetId} (hij : i < j) (hi : log.records.toList[i]? = some r)
    (hj : log.records.toList[j]? = some r') (hf : r.Reports .faint id)
    (hh : r'.Reports .hurt id) : AfterKnockout log.records.toList i j := by
  have just := ((h j r' id hj (fainted_of_record hij hi hf)).hurt hh).2
  obtain ⟨i', f, hi', hf', after⟩ := JustFainted.afterKnockout (heading_of_record hj) just
  obtain ⟨f', hfaint, rfl⟩ := record_of_heading hi'
  obtain rfl := h.faints_once hi hfaint hf hf'
  exact afterKnockout_of_headings after

end EventLog

/-! ## A pet that is hit from both sides -/

/-- Whoever hurts it, it hurts itself. -/
def prick : Effect := .dealDamage (.fixed 1) .self

def thistle : PetKind :=
  ⟨⟨"pet-thistle"⟩, "pet-thistle", 1, 1, 3, [], some ⟨"", .hurt, .self, prick, none⟩, none, none⟩

def sting : Effect := .dealDamage (.fixed 1) .firstEnemy

def wasp : PetKind :=
  ⟨⟨"pet-wasp"⟩, "pet-wasp", 1, 1, 3, [], some ⟨"", .hurt, .self, sting, none⟩, none, none⟩

def balm (heal : Effect) : StatusKind :=
  ⟨⟨"status-balm"⟩, "status-balm", ⟨"", .faint, .self, heal, none⟩⟩

def meadowRules (heal : Effect) : Rules :=
  ⟨.ofLists [thistle, wasp] [balm heal] [], { recordEvents := true }⟩

def meadowTeams (heal : Effect) : Sides Team where
  a := .ofPets [(Pet.ofKind thistle).setStatus (some (balm heal).id)]
  b := .ofPets [.ofKind wasp]

/-- Both are hurt, and both attacks that answer are played at once and hit the thistle. -/
def meadow (heal : Effect) : Except EngineError BattleState × Battle :=
  (Battle.ofTeams { recordEvents := true } (meadowTeams heal)).step (meadowRules heal)

theorem reachable_meadow (heal : Effect) :
    Battle.Reachable (meadowRules heal) (meadowTeams heal) (meadow heal).2 := .step .new

theorem every_meadow {p : Effect → Prop} {heal : Effect} (hp : p prick) (hs : p sting)
    (hh : heal.Every p) : (meadowRules heal).catalog.Every p := by
  apply Catalog.every_ofLists
  · intro kind hm ability ha
    simp only [List.mem_cons, List.not_mem_nil, or_false] at hm
    rcases hm with rfl | rfl
    · simp only [thistle, List.mem_cons, Option.some.injEq, reduceCtorEq, List.not_mem_nil,
        or_false] at ha
      rw [ha]
      exact ⟨hp, trivial⟩
    · simp only [wasp, List.mem_cons, Option.some.injEq, reduceCtorEq, List.not_mem_nil,
        or_false] at ha
      rw [ha]
      exact ⟨hs, trivial⟩
  · intro status hm
    rw [List.mem_singleton] at hm
    rw [hm]
    exact hh
  · intro food hm
    cases hm

def balms : List Effect :=
  [.modifyStats 0 1 .self false, .gainExperience 1 .self,
    .transferStats .firstEnemy .self false true]

/-- Each way to heal lets the thistle be hurt after its faint. -/
theorem hurt_after_faint :
    ∀ heal ∈ balms,
      (meadow heal).2.records[10]? = some ⟨.faint, .a, some ⟨0⟩, [⟨0⟩], 1⟩ ∧
        (meadow heal).2.records[12]? = some ⟨.hurt, .a, some ⟨0⟩, [⟨0⟩], 1⟩ := by
  decide +kernel

theorem not_silent_meadow {heal : Effect} (h : heal ∈ balms) : ¬ Silent (meadow heal).2.records := by
  intro silent
  obtain ⟨faint, hurt⟩ := hurt_after_faint heal h
  exact (silent 10 12 _ _ ⟨0⟩ (by decide) faint hurt ⟨rfl, rfl⟩).1 ⟨rfl, rfl⟩

theorem Effect.Healing.balm {e : Effect} (h : e.Healing) :
    ∃ heal ∈ balms, heal.Every fun part => part.form = e.form := by
  cases e with
  | modifyStats => exact ⟨_, .head _, rfl, trivial⟩
  | gainExperience => exact ⟨_, .tail _ (.head _), rfl, trivial⟩
  | transferStats => exact ⟨_, .tail _ (.tail _ (.head _)), rfl, trivial⟩
  | _ => exact absurd h id

/-! ## Which catalogs keep silent -/

section

variable {rules : Rules} {teams : Sides Team} {b : Battle}

theorem silent_of_not_healing (hr : rules.config.recordEvents = true)
    (hc : rules.catalog.Every fun e => ¬ e.Healing) (h : Battle.Reachable rules teams b) :
    Silent b.records := by
  have discreet : b.arena.IsDiscreet True := Battle.isDiscreet_of_reachable hr (fun _ => hc) h
  exact discreet.log.silent trivial

end

/-- Whatever battle is fought over effects of these forms, its fainted pets are silent. -/
def KeepsSilence (forms : Nat → Prop) : Prop :=
  ∀ (rules : Rules) (teams : Sides Team) (b : Battle), rules.config.recordEvents = true →
    (rules.catalog.Every fun e => forms e.form) → Battle.Reachable rules teams b → Silent b.records

/-- Among battles in which damage may be dealt. -/
theorem keepsSilence_iff {forms : Nat → Prop} (hd : forms prick.form) :
    KeepsSilence forms ↔ ∀ e : Effect, forms e.form → ¬ e.Healing := by
  constructor
  · intro keeps e he hh
    obtain ⟨heal, hm, healing⟩ := hh.balm
    refine not_silent_meadow hm (keeps (meadowRules heal) _ _ rfl ?_ (reachable_meadow heal))
    exact every_meadow hd hd (healing.imp fun _ hp => hp ▸ he)
  · intro none rules teams b hr hp hb
    exact silent_of_not_healing hr (fun ability ho => (hp ability ho).imp none) hb

/-- What is told of a pet that has fainted, also in battles in which a call failed. Never an attack,
and no event of another pet reaches it. A hurt stands nowhere but right behind the knockout; there
is none where no effect heals, and where damage may be dealt only such forms of effects rule it
out. -/
theorem hurt_after_faint_by_healing_only (rules : Rules) (hr : rules.config.recordEvents = true)
    (teams : Sides Team) (b : Battle) (hb : Battle.Reachable rules teams b) :
    (∀ (i j : Nat) (r r' : EventRecord) (id : PetId), i < j → b.records[i]? = some r →
      b.records[j]? = some r' → r.Reports .faint id →
      (r'.Reports .hurt id → AfterKnockout b.records i j) ∧ ¬ r'.Reports .beforeAttack id ∧
        ¬ r'.Reports .afterAttack id ∧ (id ∈ r'.notified → r'.source = some id)) ∧
    ((rules.catalog.Every fun e => ¬ e.Healing) → Silent b.records) ∧
    ∀ forms : Nat → Prop, forms prick.form →
      (KeepsSilence forms ↔ ∀ e : Effect, forms e.form → ¬ e.Healing) := by
  have arena : b.arena.IsDiscreet False := Battle.isDiscreet_of_reachable hr nofun hb
  refine ⟨fun i j r r' id hij hi hj hf => ?_, fun hc => silent_of_not_healing hr hc hb,
    fun forms hd => keepsSilence_iff hd⟩
  have discreet := arena.log j r' id hj (EventLog.fainted_of_record hij hi hf)
  exact ⟨arena.log.afterKnockout hij hi hj hf, discreet.before, discreet.after,
    discreet.notified⟩

/-- The thistle is hurt right behind the knockout. With a status that gives gold in place of health
it is silent. -/
theorem hurt_after_faint_by_healing_only_meadow :
    AfterKnockout (meadow (.modifyStats 0 1 .self false)).2.records 10 12 ∧
      Silent (meadow (.gainGold 1)).2.records ∧ ¬ KeepsSilence fun _ => True := by
  obtain ⟨faint, hurt⟩ := hurt_after_faint (.modifyStats 0 1 .self false) (.head _)
  obtain ⟨late, -, keeps⟩ := hurt_after_faint_by_healing_only (meadowRules _) rfl _ _
    (reachable_meadow (.modifyStats 0 1 .self false))
  have silent := (hurt_after_faint_by_healing_only (meadowRules _) rfl _ _
    (reachable_meadow (.gainGold 1))).2.1
  refine ⟨(late 10 12 _ _ ⟨0⟩ (by decide) faint hurt ⟨rfl, rfl⟩).1 ⟨rfl, rfl⟩,
    silent (every_meadow id id ⟨id, trivial⟩), fun silence => ?_⟩
  exact (keeps _ trivial).1 silence (.gainExperience 1 .self) trivial Nat.one_pos

/-- Fainted pets are not always silent. -/
theorem fainted_pets_are_hurt :
    ¬ ∀ (rules : Rules) (teams : Sides Team) (b : Battle), rules.config.recordEvents = true →
      Battle.Reachable rules teams b → Silent b.records := by
  intro silent
  exact not_silent_meadow (.head _)
    (silent _ _ _ rfl (reachable_meadow (.modifyStats 0 1 .self false)))

end AutoBattler
