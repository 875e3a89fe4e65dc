import AutoBattler.Proofs.Choosing
import AutoBattler.Proofs.Indexing
import AutoBattler.Proofs.Levels

/-!
# Two ways to experience

A pet is given points by its owner in one call, and by an effect in play one at a time, each earned
level announced before the pet has it. The first way is a closed form of the pet, the stats clamped
and the level that the experience is worth; where nobody answers the announcements the second comes
to the same. What abilities that do answer make of it is not considered here.
-/
namespace AutoBattler

open Resolve Targeting

/-! ## Points given in one call -/

namespace Pet

variable {p : Pet} {n : Nat}

/-- The points that the pet takes of those it is given. On the highest level it takes none. -/
def usable (n : Nat) (p : Pet) : Nat := if p.level = 3 then 0 else min n (5 - p.experience)

/-- The pet with so many points more, what they add to its stats, and the level they are worth. -/
def grown (points : Nat) (p : Pet) : Pet :=
  { p with
    attack := min 50 (p.attack + points)
    health := min 50 (p.health + points)
    level := levelForExperience (p.experience + points)
    experience := p.experience + points }

/-- One point, and the level if it earns one. -/
def takePoint (p : Pet) : Pet :=
  match p.gainPoint.earnedLevel? with
  | some level => p.gainPoint.promote level
  | none => p.gainPoint

theorem addExperience_of_max (h : maxLevel ≤ p.level) (n : Nat) : p.addExperience n = (0, p) := by
  cases n with
  | zero => rfl
  | succ n => rw [addExperience, if_pos h]

theorem addExperience_succ (h : ¬ maxLevel ≤ p.level) (n : Nat) : p.addExperience (n + 1) =
    ((p.takePoint.addExperience n).1 + 1, (p.takePoint.addExperience n).2) := by
  rw [addExperience, if_neg h]
  rfl

theorem level_takePoint {level : Nat} (h : p.gainPoint.earnedLevel? = some level) :
    p.takePoint.level = level := by
  unfold takePoint
  rw [h]
  obtain ⟨rfl, -⟩ := earned_of_earnedLevel? h
  exact level_promote _ _

/-- Points given in two calls are points given in one. A pet that stops in the first call takes
nothing in the second. -/
theorem addExperience_add (a b : Nat) (p : Pet) : p.addExperience (a + b) =
    ((p.addExperience a).1 + ((p.addExperience a).2.addExperience b).1,
      ((p.addExperience a).2.addExperience b).2) := by
  induction a generalizing p with
  | zero => simp only [addExperience, Nat.zero_add]
  | succ a ih =>
    by_cases h : maxLevel ≤ p.level
    · simp only [addExperience_of_max h]
    · rw [Nat.add_right_comm, addExperience_succ h, addExperience_succ h, ih]
      dsimp only
      rw [Nat.add_right_comm]

/-! ### The closed form -/

theorem grown_grown (m n : Nat) (p : Pet) : (p.grown m).grown n = p.grown (m + n) := by
  unfold grown
  rw [Pet.mk.injEq]
  dsimp only
  rw [Nat.add_assoc]
  refine ⟨rfl, rfl, ?_, ?_, rfl, rfl, rfl, rfl, rfl, rfl⟩ <;> omega

section

variable (hl : p.Leveled)
include hl

theorem usable_of_max (h : maxLevel ≤ p.level) (n : Nat) : p.usable n = 0 := by
  unfold Leveled at hl
  unfold maxLevel at h
  have := levelForExperience_le p.experience
  exact if_pos (by omega)

theorem usable_succ (h : ¬ maxLevel ≤ p.level) (n : Nat) :
    p.usable (n + 1) = 1 + (p.grown 1).usable n := by
  have worth := levelForExperience_cases p.experience
  have next := levelForExperience_cases (p.experience + 1)
  unfold Leveled at hl
  unfold maxLevel at h
  unfold usable grown
  dsimp only
  split <;> split <;> omega

variable (ha : 0 ≤ p.attack ∧ p.attack ≤ 50) (hh : 0 ≤ p.health ∧ p.health ≤ 50)
include ha hh

theorem grown_zero : p.grown 0 = p := by
  obtain ⟨kind, tier, attack, health, level, experience⟩ := p
  unfold Leveled at hl
  dsimp only at hl ha hh
  unfold grown
  rw [Pet.mk.injEq]
  dsimp only
  refine ⟨rfl, rfl, ?_, ?_, hl.symm, rfl, rfl, rfl, rfl, rfl⟩ <;> omega

theorem takePoint_eq (h : ¬ maxLevel ≤ p.level) : p.takePoint = p.grown 1 := by
  have room : nat32 (p.experience + 1) = p.experience + 1 := by
    have worth := levelForExperience_cases p.experience
    unfold Leveled at hl
    unfold maxLevel at h
    apply nat32_of_lt
    omega
  have point : p.gainPoint = { p.grown 1 with level := p.level } := by
    have attack : clampAttack (int32 (p.attack + 1)) = min 50 (p.attack + 1) := by
      rw [int32_of_isInt32 (by unfold IsInt32; omega)]
      unfold clampAttack maxAttack
      omega
    have health : clampHealth (int32 (p.health + 1)) = min 50 (p.health + 1) := by
      rw [int32_of_isInt32 (by unfold IsInt32; omega)]
      unfold clampHealth maxHealth
      omega
    rw [gainPoint, if_neg h]
    unfold buff grown
    dsimp only
    rw [attack, health, room]
    rfl
  have kept : levelForExperience p.experience ≤ levelForExperience (p.experience + 1) :=
    levelForExperience_mono (Nat.le_succ _)
  unfold Leveled at hl
  unfold takePoint
  cases he : p.gainPoint.earnedLevel? with
  | none =>
    have low : levelForExperience (p.experience + 1) ≤ p.level := by
      have := not_earned_of_earnedLevel? he
      rwa [(level_gainPoint h).1, (level_gainPoint h).2, room] at this
    have same : p.level = levelForExperience (p.experience + 1) := by omega
    dsimp only
    rw [point, same]
    rfl
  | some level =>
    obtain ⟨rfl, -⟩ := earned_of_earnedLevel? he
    have reached : clampLevel (levelForExperience p.gainPoint.experience) =
        levelForExperience (p.experience + 1) := by
      rw [← room, ← (level_gainPoint h).2]
      exact level_promote p.gainPoint _
    dsimp only
    rw [promote, reached, point]
    rfl

/-- By induction on the points: the level after one decides whether more are taken. -/
theorem addExperience_eq (n : Nat) : p.addExperience n = (p.usable n, p.grown (p.usable n)) := by
  induction n generalizing p with
  | zero =>
    have none : p.usable 0 = 0 := by
      unfold usable
      rw [Nat.zero_min, ite_self]
    rw [none, grown_zero hl ha hh]
    rfl
  | succ n ih =>
    by_cases h : maxLevel ≤ p.level
    · rw [addExperience_of_max h, usable_of_max hl h, grown_zero hl ha hh]
    · have attack : 0 ≤ (p.grown 1).attack ∧ (p.grown 1).attack ≤ 50 := by
        unfold grown
        dsimp only
        omega
      have health : 0 ≤ (p.grown 1).health ∧ (p.grown 1).health ≤ 50 := by
        unfold grown
        dsimp only
        omega
      rw [addExperience_succ h, takePoint_eq hl ha hh h, ih (p := p.grown 1) rfl attack health,
        usable_succ hl h]
      dsimp only
      rw [grown_grown, Nat.add_comm 1]

end

end Pet

/-! ## Announcements that nobody answers -/

/-- No ability of a kind and no status answers the trigger. -/
structure Catalog.Unanswered (c : Catalog) (trigger : Trigger) : Prop where
  kinds : ∀ id kind level ability, c.petKind id = .ok kind → kind.ability level = some ability →
    ability.trigger ≠ trigger
  statuses : ∀ id status, c.status id = .ok status → status.ability.trigger ≠ trigger

theorem Catalog.unanswered_ofLists {pets : List PetKind} {statuses : List StatusKind}
    {foods : List Food} {trigger : Trigger}
    (hp : ∀ kind ∈ pets, ∀ ability ∈ kind.abilities, ability.trigger ≠ trigger)
    (hs : ∀ status ∈ statuses, status.ability.trigger ≠ trigger) :
    (ofLists pets statuses foods).Unanswered trigger where
  kinds _ kind _ ability hk ha :=
    hp kind (Table.mem_of_getElem?_ofValues _ (petKind_eq_ok.1 hk)) ability
      (PetKind.mem_abilities.2 ⟨_, ha⟩)
  statuses _ status h := hs status (Table.mem_of_getElem?_ofValues _ (status_eq_ok.1 h))

namespace Board

variable {b b' b'' : Board} {id : PetId} {pet : Pet} {amount amount' : PetId → Nat}

theorem modifyPet_modifyPet (b : Board) (id : PetId) (f g : Pet → Pet) :
    (b.modifyPet id f).modifyPet id g = b.modifyPet id fun p => g (f p) := by
  refine eq_of_parts rfl (fun x => ?_) fun _ => rfl
  rw [entrant?_modifyPet, entrant?_modifyPet, entrant?_modifyPet]
  split
  · rw [Option.map_map]
    rfl
  · rfl

theorem modifyPet_takePoint (hp : b.pet? id = some pet) (h : ¬ maxLevel ≤ pet.level) (n : Nat) :
    (b.modifyPet id Pet.takePoint).modifyPet id (fun p => (p.addExperience n).2) =
      b.modifyPet id fun p => (p.addExperience (n + 1)).2 := by
  rw [modifyPet_modifyPet]
  refine modifyPet_eq_of_pet? hp ?_
  rw [Pet.addExperience_succ h]

/-- Every stored pet was given so many points, and nothing else has changed. -/
structure Taught (amount : PetId → Nat) (b b' : Board) : Prop where
  nextId : b'.nextId = b.nextId
  rosters : ∀ side, b'.roster side = b.roster side
  entrants : ∀ id, b'.entrant? id =
    (b.entrant? id).map fun e => { e with pet := (e.pet.addExperience (amount id)).2 }

theorem taught_modifyPet (b : Board) (id : PetId) (n : Nat) :
    b.Taught (fun x => if x = id then n else 0)
      (b.modifyPet id fun p => (p.addExperience n).2) where
  nextId := rfl
  rosters _ := rfl
  entrants x := by
    rw [entrant?_modifyPet]
    split
    · rfl
    · exact Option.map_id'.symm

theorem Taught.trans (h : b.Taught amount b') (h' : b'.Taught amount' b'') :
    b.Taught (fun id => amount id + amount' id) b'' where
  nextId := h'.nextId.trans h.nextId
  rosters side := (h'.rosters side).trans (h.rosters side)
  entrants id := by
    rw [h'.entrants, h.entrants, Option.map_map]
    simp only [Function.comp_def, Pet.addExperience_add]

theorem Taught.congr (h : b.Taught amount b') (ha : ∀ id, amount id = amount' id) :
    b.Taught amount' b' := funext ha ▸ h

theorem Taught.pet? (h : b.Taught amount b') (id : PetId) :
    b'.pet? id = (b.pet? id).map fun p => (p.addExperience (amount id)).2 := by
  unfold Board.pet?
  rw [h.entrants, Option.map_map, Option.map_map]
  rfl

theorem Taught.refl (b : Board) : b.Taught (fun _ => 0) b where
  nextId := rfl
  rosters _ := rfl
  entrants _ := Option.map_id'.symm

end Board

namespace Resolve

variable {rules : Rules} {raise : Raise} {act : Act} {event : Event} {s : Arena} {id : PetId}
  {pet : Pet} {n : Nat}

section

variable (h : rules.catalog.Unanswered event.trigger)
include h

/-- A pet that is reached may bear an undefined name; else it does nothing. -/
theorem notify_of_unanswered (line : List PetId) :
    Ends anyway (fun _ t => t = s) (notify rules raise act event line id pet s) := by
  have silentLevel {level : Option Ability} (hl : rules.catalog.levelAbility pet = .ok level) :
      ∀ a, level = some a → a.trigger ≠ event.trigger := by
    rintro a rfl
    obtain ⟨kind, hk, ha⟩ := Catalog.kind_of_levelAbility hl
    exact h.kinds _ kind _ a hk ha
  have silentStatus {status : Option Ability} (hs : rules.catalog.statusAbility pet = .ok status) :
      ∀ a, status = some a → a.trigger ≠ event.trigger := by
    rintro a rfl
    obtain ⟨name, kind, -, hk, rfl⟩ := Catalog.status_of_statusAbility hs
    exact h.statuses name kind hk
  unfold notify
  cases hl : rules.catalog.levelAbility pet with
  | error e => exact trivial
  | ok level =>
    cases hs : rules.catalog.statusAbility pet with
    | error e => exact trivial
    | ok status =>
      show Ends anyway _ ((fireLevel raise act id event line level >>= fun _ =>
        fireStatus act id event line status) s)
      rw [fireLevel_of_ne (silentLevel hl), fireStatus_of_ne (silentStatus hs)]
      exact rfl

/-- By induction on the rest of the line. -/
theorem walk_of_unanswered (line reached ids : List PetId) :
    Ends anyway (fun _ t => t = s) (walk rules raise act event line reached ids s) := by
  induction ids generalizing reached with
  | nil => exact rfl
  | cons id rest ih =>
    unfold walk
    rw [bind_run]
    dsimp only [board, look]
    cases reached? rules event s.board id with
    | none => exact ih reached
    | some pet =>
      refine (notify_of_unanswered h line).bind fun _ t ht => ?_
      rw [ht]
      exact ih (id :: reached)

theorem dispatchIn_of_unanswered (room : Nat) :
    Ends anyway (fun _ t => t.board = s.board) (dispatchIn rules room event s) := by
  cases room with
  | zero => exact trivial
  | succ room =>
    refine ends_dispatchIn (F := anyway) (I := fun t => t.board = s.board)
      (J := fun _ t => t.board = s.board) (fun _ => trivial) rfl
      (fun line => Triple.intro fun t ht => ?_) (fun _ _ _ => trivial) fun _ _ ht => ht
    refine (walk_of_unanswered h line [] line).weaken (fun _ _ he => he) fun _ _ hu => ?_
    rw [hu]
    exact ht

end

/-! ## Points given in play -/

/-- Telling of a level leaves the board alone. -/
def Unheard (raise : Raise) : Prop := ∀ event s, event.trigger = .levelUp →
  Ends anyway (fun _ t => t.board = s.board) (raise event s)

theorem unheard_dispatchIn (h : rules.catalog.Unanswered .levelUp) (room : Nat) :
    Unheard (dispatchIn rules room) :=
  fun _ _ ht => dispatchIn_of_unanswered (ht ▸ h) room

/-- What the pet is given one by one is what it would be given in one call. By induction on the
points, with the announcement of a level between the point that earns it and the level. -/
theorem grantExperience_of_unheard (hr : Unheard raise) (event : Event) (side : Side) (n : Nat) :
    Ends anyway (fun _ t => t.board = s.board.modifyPet id fun p => (p.addExperience n).2)
      (grantExperience raise event side id n s) := by
  induction n generalizing s with
  | zero => exact (Board.modifyPet_of_eq fun _ _ => rfl).symm
  | succ n ih =>
    unfold grantExperience
    rw [bind_run]
    dsimp only [Resolve.pet?, look]
    cases hp : s.board.pet? id with
    | none =>
      refine (Board.modifyPet_of_eq fun p hp' => ?_).symm
      rw [hp] at hp'
      cases hp'
    | some pet =>
      dsimp only
      by_cases hmax : maxLevel ≤ pet.level
      · rw [if_pos hmax]
        exact (Board.modifyPet_of_pet? hp (congrArg Prod.snd (Pet.addExperience_of_max hmax _))).symm
      · have later (t : Arena) (ht : t.board = s.board.modifyPet id Pet.takePoint) :
            Ends anyway (fun _ u => u.board = s.board.modifyPet id fun p => (p.addExperience (n + 1)).2)
              (grantExperience raise event side id n t) :=
          (ih (s := t)).weaken (fun _ _ he => he) fun _ u hu => by
            rw [hu, ht, Board.modifyPet_takePoint hp hmax]
        rw [if_neg hmax, bind_run]
        dsimp only [modifyPet, change]
        cases hearned : pet.gainPoint.earnedLevel? with
        | none =>
          refine later _ (Board.modifyPet_eq_of_pet? hp ?_)
          unfold Pet.takePoint
          rw [hearned]
        | some level =>
          refine Ends.bind (hr _ _ rfl) fun _ t ht => ?_
          have taken : t.board.modifyPet id (Pet.promote level) =
              s.board.modifyPet id Pet.takePoint := by
            rw [ht, Board.modifyPet_modifyPet]
            refine Board.modifyPet_eq_of_pet? hp ?_
            unfold Pet.takePoint
            rw [hearned]
          rw [bind_run]
          dsimp only [modifyPet, change]
          by_cases htop : maxLevel ≤ level
          · rw [if_pos htop]
            show t.board.modifyPet id (Pet.promote level) = _
            rw [taken]
            refine Board.modifyPet_eq_of_pet? hp ?_
            rw [Pet.addExperience_succ hmax, Pet.addExperience_of_max]
            rwa [Pet.level_takePoint hearned]
          · rw [if_neg htop]
            exact later _ taken

theorem teach_of_unheard (hr : Unheard raise) (event : Event) (n : Nat) (id : PetId) :
    Ends anyway (fun _ t => s.board.Taught (fun x => if x = id then n else 0) t.board)
      (teach raise event n id s) := by
  unfold teach
  rw [bind_run]
  dsimp only [board, look]
  cases hs : s.board.sideOf? id with
  | none =>
    have absent : s.board.modifyPet id (fun p => (p.addExperience n).2) = s.board := by
      refine Board.modifyPet_of_eq fun p hp => ?_
      obtain ⟨entrant, he, -⟩ := Option.map_eq_some_iff.1 hp
      rw [Board.sideOf?, he] at hs
      cases hs
    have taught := s.board.taught_modifyPet id n
    rw [absent] at taught
    exact taught
  | some side =>
    refine (grantExperience_of_unheard hr event side n).weaken (fun _ _ he => he) fun _ t ht => ?_
    rw [ht]
    exact Board.taught_modifyPet _ id n

theorem teachEach_of_unheard (hr : Unheard raise) (event : Event) (n : Nat) (ids : List PetId) :
    Ends anyway (fun _ t => s.board.Taught (fun x => ids.count x * n) t.board)
      (forEach ids (teach raise event n) s) := by
  induction ids generalizing s with
  | nil => exact (Board.Taught.refl s.board).congr fun x => by rw [List.count_nil, Nat.zero_mul]
  | cons id rest ih =>
    unfold forEach
    refine (teach_of_unheard hr event n id).bind fun _ t ht => ?_
    refine ih.weaken (fun _ _ he => he) fun _ u hu => (ht.trans hu).congr fun x => ?_
    rw [List.count_cons, Nat.add_mul, Nat.add_comm]
    by_cases hx : x = id
    · rw [if_pos hx, if_pos (beq_iff_eq.2 hx.symm), Nat.one_mul]
    · rw [if_neg hx, if_neg (fun he => hx (beq_iff_eq.1 he).symm), Nat.zero_mul]

/-- What the effect does to the board, for the pets that its selector gives. -/
theorem gainExperience_of_unanswered (h : rules.catalog.Unanswered .levelUp) (room : Nat)
    (event : Event) (actor : Option PetId) (n : Nat) (target : Selector) :
    Ends anyway
      (fun ids t => ids = (resolve ⟨s.board, event, actor⟩ target s.random).1 ∧
        s.board.Taught (fun id => ids.count id * n) t.board)
      (perform rules (dispatchIn rules room) event actor (.gainExperience n target) s) := by
  have run : perform rules (dispatchIn rules room) event actor (.gainExperience n target) s =
      (do
        let ids ← targets event actor target
        forEach ids (teach (dispatchIn rules room) event n)
        pure ids : Resolve (List PetId)) s := by
    obtain ⟨_, _, _, _, _, _, cause⟩ := event
    cases cause <;> rw [perform, performWith]
  rw [run, bind_run]
  exact Ends.bind (teachEach_of_unheard (unheard_dispatchIn h room) event n _) fun _ _ taught =>
    ⟨rfl, taught⟩

end Resolve

/-- On the level that its experience is worth and with stats in bounds, a pet takes the points that
are left to the highest level; they raise its experience and its stats, these up to fifty, and the
level is again the one that the experience is worth. It does not matter in how many calls the points
are given, nor that an effect gives them, if nothing answers the announcement of a level: a target is
as if it was given the points in one call, as often as the selector gives it, and the board is else
the same. On a well-formed board no selector gives a pet twice. -/
theorem both_ways_to_experience_agree :
    (∀ p : Pet, p.Leveled → 0 ≤ p.attack ∧ p.attack ≤ 50 → 0 ≤ p.health ∧ p.health ≤ 50 →
      ∀ n, p.addExperience n = (p.usable n, p.grown (p.usable n))) ∧
    (∀ (p : Pet) (a b : Nat), p.addExperience (a + b) =
      ((p.addExperience a).1 + ((p.addExperience a).2.addExperience b).1,
        ((p.addExperience a).2.addExperience b).2)) ∧
    ∀ (rules : Rules) (room : Nat) (event : Event) (actor : Option PetId) (n : Nat)
      (target : Selector) (s t : Arena) (ids : List PetId), rules.catalog.Unanswered .levelUp →
      perform rules (dispatchIn rules room) event actor (.gainExperience n target) s = (.ok ids, t) →
      ids = (resolve ⟨s.board, event, actor⟩ target s.random).1 ∧
      s.board.Taught (fun id => ids.count id * n) t.board ∧
      (View.WellPosed ⟨s.board, event, actor⟩ →
        s.board.Taught (fun id => if id ∈ ids then n else 0) t.board) := by
  refine ⟨fun p hl ha hh n => Pet.addExperience_eq hl ha hh n, fun p a b => p.addExperience_add a b,
    fun rules room event actor n target s t ids h hrun => ?_⟩
  have ends := gainExperience_of_unanswered (s := s) h room event actor n target
  rw [hrun] at ends
  obtain ⟨rfl, taught⟩ := ends
  refine ⟨rfl, taught, fun posed => taught.congr fun id => ?_⟩
  rw [(nodup_resolve posed target s.random).count]
  split
  · exact Nat.one_mul n
  · exact Nat.zero_mul n

/-! ## A school of mimics -/

/-- A mimic hands abilities on, so it is told of every event, and answers the end of a turn only. -/
def mimic : PetKind :=
  ⟨⟨"pet-mimic"⟩, "pet-mimic", 1, 49, 3, [],
    some ⟨"", .endOfTurn, .self, .allOf [.transferAbility (.friendAhead 1) .self none], none⟩, none,
    none⟩

def mimicRules : Rules := ⟨.ofLists [mimic] [] [], {}⟩

/-- A mimic that has one point. -/
def student : Pet := (Pet.addExperience 1 (.ofKind mimic)).2

/-- The first of three mimics teaches its friends. The third is on the highest level already. -/
def mimicArena : Arena :=
  .open mimicRules.config (.ofTeam (.ofPets [.ofKind mimic, student, student.withLevel 3])) none

def mimicEvent : Event := .battle .startOfBattle .a

def mimicLesson : Except EngineError (List PetId) × Arena :=
  perform mimicRules (dispatchIn mimicRules 2) mimicEvent (some ⟨0⟩) (.gainExperience 9 .eachFriend)
    mimicArena

theorem unanswered_mimicRules : mimicRules.catalog.Unanswered .levelUp := by
  refine Catalog.unanswered_ofLists ?_ nofun
  intro kind hk ability ha
  rw [List.mem_singleton] at hk
  subst hk
  simp only [PetKind.abilities, mimic, List.filterMap_cons, List.filterMap_nil,
    List.mem_singleton] at ha
  rw [ha]
  nofun

/-- Four points bring the student to the highest level, and its attack stops at fifty. -/
theorem both_ways_to_experience_agree_mimics :
    mimicRules.catalog.Unanswered .levelUp ∧ mimicLesson.1 = .ok [⟨1⟩, ⟨2⟩] ∧
      mimicArena.board.pet? ⟨1⟩ = some student ∧ student.usable 9 = 4 ∧
      mimicLesson.2.board.pet? ⟨1⟩ = some (student.grown 4) ∧ (student.grown 4).attack = 50 ∧
      mimicLesson.2.board.pet? ⟨2⟩ = mimicArena.board.pet? ⟨2⟩ := by
  obtain ⟨calls, -, effects⟩ := both_ways_to_experience_agree
  have learned : mimicLesson.1 = .ok [⟨1⟩, ⟨2⟩] := by decide +kernel
  have run : mimicLesson = (.ok [⟨1⟩, ⟨2⟩], mimicLesson.2) := by rw [← learned]
  have posed : View.WellPosed ⟨mimicArena.board, mimicEvent, some ⟨0⟩⟩ :=
    ⟨Board.wellFormed_ofTeam _, nofun, nofun⟩
  have taught := (effects mimicRules 2 mimicEvent (some ⟨0⟩) 9 .eachFriend mimicArena _ _
    unanswered_mimicRules run).2.2 posed
  have before : mimicArena.board.pet? ⟨1⟩ = some student := by decide +kernel
  have third : mimicArena.board.pet? ⟨2⟩ = some (student.withLevel 3) := by decide +kernel
  have given := calls student rfl (by decide) (by decide) 9
  have usable : student.usable 9 = 4 := by decide
  have none := calls (student.withLevel 3) rfl (by decide) (by decide) 9
  refine ⟨unanswered_mimicRules, learned, before, usable, ?_, by decide, ?_⟩
  · rw [taught.pet?, before, Option.map_some, if_pos (by decide), given, usable]
  · rw [taught.pet?, third, Option.map_some, if_pos (by decide), none]
    decide

end AutoBattler
