import AutoBattler.Proofs.Definedness

/-!
# The exchange of two lines

What an attack cycle does to two lines in which only statuses act, and these change damage and
nothing else. A line is given as its pets from the front to the back, without their numbers. What
becomes of one line is said of it and the line that it faces, whichever of the two acts first.
-/
namespace AutoBattler

open Resolve (Holder Impact DamageModifier)

/-- Whether an ability listens to an event whose source stands so many places in front. An event
without a source is heard as one that comes from two places in front of the line. -/
def Audience.hearsFrom : Audience → Nat → Bool
  | player, _ => true
  | self, place => place = 0
  | eachFriend, place => place ≠ 0
  | friendAhead, place => place = 1

variable {c : Catalog} {trigger told : Trigger} {heard : Audience → Bool} {p q : Pet}

/-! ## Pets that hear -/

namespace Pet

/-- The firing of an ability is counted if the ability is limited and the limit not reached. -/
def countFiring (limit : Option Nat) (key : String) (p : Pet) : Pet :=
  match limit with
  | none => p
  | some limit => if (limit : Int) ≤ p.counter key then p else p.bump key

/-- The pet after an event that reached it, where `heard` says which audiences it belongs to. -/
def hearing (c : Catalog) (trigger : Trigger) (heard : Audience → Bool) (p : Pet) : Pet :=
  match c.statusAbility p with
  | .ok (some ability) =>
    if ability.trigger = trigger ∧ heard ability.audience then
      p.countFiring ability.maxTriggers (Holder.status.counterKey ability.trigger)
    else p
  | _ => p

/-- A pet that hears changes in its counters at most. -/
theorem hearing_eq (c : Catalog) (trigger : Trigger) (heard : Audience → Bool) (p : Pet) :
    ∃ counters, p.hearing c trigger heard = { p with counters := counters } := by
  unfold hearing
  split
  · split
    · unfold countFiring
      split
      · exact ⟨p.counters, rfl⟩
      · split
        · exact ⟨p.counters, rfl⟩
        · exact ⟨_, rfl⟩
    · exact ⟨p.counters, rfl⟩
  · exact ⟨p.counters, rfl⟩

@[simp] theorem kind_hearing : (p.hearing c trigger heard).kind = p.kind := by
  obtain ⟨counters, h⟩ := hearing_eq c trigger heard p
  rw [h]

@[simp] theorem borrowed_hearing : (p.hearing c trigger heard).borrowed = p.borrowed := by
  obtain ⟨counters, h⟩ := hearing_eq c trigger heard p
  rw [h]

@[simp] theorem status_hearing : (p.hearing c trigger heard).status = p.status := by
  obtain ⟨counters, h⟩ := hearing_eq c trigger heard p
  rw [h]

@[simp] theorem attack_hearing : (p.hearing c trigger heard).attack = p.attack := by
  obtain ⟨counters, h⟩ := hearing_eq c trigger heard p
  rw [h]

@[simp] theorem health_hearing : (p.hearing c trigger heard).health = p.health := by
  obtain ⟨counters, h⟩ := hearing_eq c trigger heard p
  rw [h]

end Pet

/-- The ability of the status depends on nothing but the status. -/
theorem Catalog.statusAbility_congr (h : q.status = p.status) :
    c.statusAbility q = c.statusAbility p := by
  unfold statusAbility
  rw [h]

/-- The status of the pet has an ability that answers the trigger. -/
def Pet.Answers (c : Catalog) (trigger : Trigger) (p : Pet) : Prop :=
  ∃ ability, c.statusAbility p = .ok (some ability) ∧ ability.trigger = trigger

namespace Pet

/-- A status has one trigger. -/
theorem Answers.unique (h : p.Answers c trigger) (h' : p.Answers c told) : trigger = told := by
  obtain ⟨ability, ha, rfl⟩ := h
  obtain ⟨ability', ha', rfl⟩ := h'
  rw [ha] at ha'
  cases ha'
  rfl

theorem answers_congr (h : q.status = p.status) : q.Answers c trigger ↔ p.Answers c trigger := by
  unfold Answers
  rw [Catalog.statusAbility_congr h]

theorem hearing_of_not_answers (h : ¬ p.Answers c trigger) (heard : Audience → Bool) :
    p.hearing c trigger heard = p := by
  unfold hearing
  split
  · rename_i ability ha
    exact if_neg fun hm => h ⟨ability, ha, hm.1⟩
  · rfl

/-- In which order a pet hears of different things makes no difference, as its status answers one
of them at most. -/
theorem hearing_comm (h : trigger ≠ told) (heard heard' : Audience → Bool) (p : Pet) :
    (p.hearing c trigger heard).hearing c told heard' =
      (p.hearing c told heard').hearing c trigger heard := by
  by_cases ha : p.Answers c trigger
  · have silent : ¬ p.Answers c told := fun ha' => h (ha.unique ha')
    rw [hearing_of_not_answers silent,
      hearing_of_not_answers fun ha' => silent ((answers_congr status_hearing).1 ha')]
  · rw [hearing_of_not_answers ha,
      hearing_of_not_answers fun ha' => ha ((answers_congr status_hearing).1 ha')]

end Pet

/-! ## Lines that are told -/

/-- The line after an event whose source stands so many places in front of its foremost pet. -/
def hearingLine (c : Catalog) (trigger : Trigger) (ahead : Nat) (line : List Pet) : List Pet :=
  line.mapIdx fun place pet => pet.hearing c trigger (·.hearsFrom (ahead + place))

@[simp] theorem length_hearingLine (c : Catalog) (trigger : Trigger) (ahead : Nat)
    (line : List Pet) : (hearingLine c trigger ahead line).length = line.length :=
  List.length_mapIdx

@[simp] theorem hearingLine_cons (c : Catalog) (trigger : Trigger) (ahead : Nat) (p : Pet)
    (rest : List Pet) : hearingLine c trigger ahead (p :: rest) =
      p.hearing c trigger (·.hearsFrom ahead) :: hearingLine c trigger (ahead + 1) rest := by
  simp only [hearingLine, List.mapIdx_cons, Nat.add_zero, Nat.add_assoc, Nat.add_comm 1]

theorem hearingLine_comm (h : trigger ≠ told) (ahead ahead' : Nat) (line : List Pet) :
    hearingLine c told ahead' (hearingLine c trigger ahead line) =
      hearingLine c trigger ahead (hearingLine c told ahead' line) := by
  unfold hearingLine
  rw [List.mapIdx_mapIdx, List.mapIdx_mapIdx]
  congr 1
  funext place pet
  rw [Function.comp_apply, Function.comp_apply]
  exact Pet.hearing_comm h _ _ pet

theorem drop_hearingLine (c : Catalog) (trigger : Trigger) (ahead n : Nat) (line : List Pet) :
    (hearingLine c trigger ahead line).drop n =
      hearingLine c trigger (ahead + n) (line.drop n) := by
  unfold hearingLine
  apply List.ext_getElem
  · simp
  · intro i _ _
    rw [List.getElem_drop, List.getElem_mapIdx, List.getElem_mapIdx, List.getElem_drop,
      Nat.add_assoc]

/-- The line after several events. -/
def hearingEach (c : Catalog) (ahead : Nat) (triggers : List Trigger) (line : List Pet) :
    List Pet :=
  triggers.foldl (fun line trigger => hearingLine c trigger ahead line) line

theorem hearingEach_append (c : Catalog) (ahead : Nat) (told later : List Trigger)
    (line : List Pet) : hearingEach c ahead (told ++ later) line =
      hearingEach c ahead later (hearingEach c ahead told line) := List.foldl_append

theorem drop_hearingEach (c : Catalog) (ahead n : Nat) (triggers : List Trigger)
    (line : List Pet) : (hearingEach c ahead triggers line).drop n =
      hearingEach c (ahead + n) triggers (line.drop n) := by
  induction triggers generalizing line with
  | nil => rfl
  | cons trigger rest ih =>
    refine (ih _).trans ?_
    rw [drop_hearingLine]
    rfl

/-- The foremost pet stays in front, with its health. -/
theorem hearingEach_cons (c : Catalog) (ahead : Nat) (triggers : List Trigger) (p : Pet)
    (rest : List Pet) : ∃ p' rest', hearingEach c ahead triggers (p :: rest) = p' :: rest' ∧
      p'.health = p.health := by
  induction triggers generalizing p rest with
  | nil => exact ⟨p, rest, rfl, rfl⟩
  | cons trigger later ih =>
    obtain ⟨p', rest', line, health⟩ := ih (p.hearing c trigger (·.hearsFrom ahead)) _
    refine ⟨p', rest', ?_, health.trans Pet.health_hearing⟩
    rw [← line, ← hearingLine_cons]
    rfl

/-! ## Hits -/

/-- The change of damage by the status of a pet for a trigger. -/
def Catalog.modifier? (c : Catalog) (trigger : Trigger) (p : Pet) : Option DamageModifier :=
  match c.statusAbility p with
  | .ok (some ability) =>
    if ability.trigger = trigger then
      match ability.effect with
      | .modifyDamage amount once => some ⟨amount, once⟩
      | _ => none
    else none
  | _ => none

namespace Pet

/-- The pet without its status, if the status has been used up by changing damage. -/
def spend (c : Catalog) (trigger : Trigger) (p : Pet) : Pet :=
  match c.modifier? trigger p with
  | some m => if m.once then p.setStatus none else p
  | none => p

theorem modifier?_of_not_answers (h : ¬ p.Answers c trigger) : c.modifier? trigger p = none := by
  unfold Catalog.modifier?
  split
  · rename_i ability ha
    exact if_neg fun ht => h ⟨ability, ha, ht⟩
  · rfl

theorem spend_of_not_answers (h : ¬ p.Answers c trigger) : p.spend c trigger = p := by
  unfold spend
  rw [modifier?_of_not_answers h]

/-- Without its status a pet answers nothing. -/
theorem answers_of_spend (h : (p.spend c told).Answers c trigger) : p.Answers c trigger := by
  unfold spend at h
  split at h
  · split at h
    · obtain ⟨ability, ha, _⟩ := h
      cases ha
    · exact h
  · exact h

/-- What a pet adds to its own hit and what it takes off the other are of different statuses. -/
theorem modifier?_spend (h : trigger ≠ told) (p : Pet) :
    c.modifier? trigger (p.spend c told) = c.modifier? trigger p := by
  by_cases ha : p.Answers c told
  · have silent : ¬ p.Answers c trigger := fun ha' => h (ha'.unique ha)
    rw [modifier?_of_not_answers silent,
      modifier?_of_not_answers fun ha' => silent (answers_of_spend ha')]
  · rw [spend_of_not_answers ha]

@[simp] theorem attack_spend : (p.spend c trigger).attack = p.attack := by
  unfold spend
  split
  · split <;> rfl
  · rfl

@[simp] theorem health_spend : (p.spend c trigger).health = p.health := by
  unfold spend
  split
  · split <;> rfl
  · rfl

theorem Defined.spend (h : p.Defined c) : (p.spend c trigger).Defined c := by
  unfold Pet.spend
  split
  · split
    · exact h.setStatus nofun
    · exact h
  · exact h

theorem spend_comm (h : trigger ≠ told) (p : Pet) :
    (p.spend c trigger).spend c told = (p.spend c told).spend c trigger := by
  by_cases ha : p.Answers c trigger
  · have silent : ¬ p.Answers c told := fun ha' => h (ha.unique ha')
    rw [spend_of_not_answers silent, spend_of_not_answers fun ha' => silent (answers_of_spend ha')]
  · rw [spend_of_not_answers ha, spend_of_not_answers fun ha' => ha (answers_of_spend ha')]

end Pet

/-- The pet without its status, if it uses it up as it hits or is hit. -/
def Pet.spent (c : Catalog) (p : Pet) : Pet := (p.spend c .whenAttacking).spend c .whenDamaged

/-- The damage of a hit between two pets. -/
def Catalog.blow (c : Catalog) (attacker target : Pet) : Int :=
  let i : Impact := ⟨attacker.attack, false⟩
  let i := (c.modifier? .whenAttacking attacker).elim i i.strengthen
  ((c.modifier? .whenDamaged target).elim i i.weaken).total

theorem Pet.healthLost_congr (h : q.health = p.health) (damage : Int) :
    q.healthLost damage = p.healthLost damage := by
  unfold healthLost takeDamage setHealth
  rw [h]

/-- It makes no difference to a hit that the pets have hit each other the other way before. -/
theorem Catalog.blow_spend (c : Catalog) (attacker target : Pet) :
    c.blow (attacker.spend c .whenDamaged) (target.spend c .whenAttacking) =
      c.blow attacker target := by
  unfold blow
  rw [Pet.attack_spend, Pet.modifier?_spend (by decide), Pet.modifier?_spend (by decide)]

/-- The pet after both have hit each other. -/
def Pet.struck (c : Catalog) (p enemy : Pet) : Pet :=
  (p.spent c).takeDamage (c.blow enemy p)

/-- What becomes of a pet that is hit. -/
inductive Fate where
  | unharmed
  | hurt
  | fell
deriving DecidableEq

namespace Fate

/-- The fate of a pet from the health that it lost and how it came out of the hit. -/
def of (lost : Int) (p : Pet) : Fate :=
  if lost ≤ 0 then unharmed else if p.isAlive then hurt else fell

theorem of_congr (lost : Int) (h : q.health = p.health) : of lost q = of lost p := by
  unfold of Pet.isAlive
  rw [h]

/-- The places by which the source of what is told of the hit then stands before the line. -/
def gap : Fate → Nat
  | fell => 1
  | _ => 0

/-- What the line of the pet is told. -/
def news : Fate → List Trigger
  | unharmed => []
  | hurt => [.hurt]
  | fell => [.faint]

/-- What the line of the attacker is told. -/
def spoils : Fate → List Trigger
  | fell => [.knockout]
  | _ => []

/-- What the line of the pet is told of its own attack in the end. -/
def closing : Fate → List Trigger
  | fell => []
  | _ => [.afterAttack]

theorem gap_le (f : Fate) : f.gap ≤ 1 := by cases f <;> decide

end Fate

/-- What a line is told of its own foremost pet and of the enemy that this one hit may come in
either order. -/
theorem hearingEach_news_comm (c : Catalog) (ahead : Nat) (own enemy : Fate) (line : List Pet) :
    hearingEach c ahead own.news (hearingEach c ahead enemy.spoils line) =
      hearingEach c ahead enemy.spoils (hearingEach c ahead own.news line) := by
  cases enemy with
  | unharmed | hurt => rfl
  | fell =>
    cases own with
    | unharmed => rfl
    | hurt => exact hearingLine_comm (by decide) ahead ahead line
    | fell => exact hearingLine_comm (by decide) ahead ahead line

/-- What becomes of a pet when it and the enemy hit each other. -/
def Pet.fate (c : Catalog) (p enemy : Pet) : Fate :=
  .of (p.healthLost (c.blow enemy p)) (p.struck c enemy)

theorem Pet.fate_eq (c : Catalog) (p enemy : Pet) :
    p.fate c enemy = .of ((p.spent c).healthLost (c.blow enemy p)) (p.struck c enemy) := by
  unfold spent
  rw [Pet.healthLost_congr (health_spend.trans health_spend)]
  rfl

/-! ## The exchange -/

/-- What a line is told of the hits, from the fates of its foremost pet and of the enemy. -/
def tidings (own enemy : Fate) : List Trigger := own.news ++ enemy.spoils

/-- A line after its foremost pet and the foremost enemy have hit each other. -/
def afterHits (c : Catalog) (p enemy : Pet) (rest : List Pet) : List Pet :=
  hearingEach c (p.fate c enemy).gap (tidings (p.fate c enemy) (enemy.fate c p))
    ((p.struck c enemy :: rest).drop (p.fate c enemy).gap)

/-- A pet that is about to attack. -/
def Pet.ready (c : Catalog) (p : Pet) : Pet := p.hearing c .beforeAttack (·.hearsFrom 0)

/-- A line after an attack cycle against another. -/
def clash (c : Catalog) : (own enemies : List Pet) → List Pet
  | p :: rest, enemy :: _ =>
    let p := p.ready c
    let enemy := enemy.ready c
    hearingEach c (p.fate c enemy).gap (p.fate c enemy).closing
      (afterHits c p enemy (hearingLine c .beforeAttack 1 rest))
  | own, _ => own

/-- The number of events that a line is told in an attack cycle against another. -/
def clashEvents (c : Catalog) : (own enemies : List Pet) → Nat
  | p :: _, enemy :: _ =>
    let p := p.ready c
    let enemy := enemy.ready c
    1 + (tidings (p.fate c enemy) (enemy.fate c p)).length + (p.fate c enemy).closing.length
  | _, _ => 0

end AutoBattler
