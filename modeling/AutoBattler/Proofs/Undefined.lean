import AutoBattler.Proofs.Noticing
import AutoBattler.Proofs.Rescue

/-!
# Foremost pets without a definition

A battle whose foremost pet is under a status that is not defined fails unless an effect averts it.
Which forms of effects can do so is settled by one battle for each of them. A kind that is not
defined goes unnoticed even without effects: only a status that is told something before the first
hits gives it away.
-/
namespace AutoBattler

open Resolve

/-! ## Boards of teams -/

namespace Board

variable {b : Board}

theorem WellFormed.map_front? (h : b.WellFormed) (side : Side) :
    (b.front? side).map b.pet? = (b.livePets side).getLast?.map some := by
  unfold front?
  rw [← List.getLast?_map, ← h.map_livePets side, List.getLast?_map]

/-- Of pets that are alive as many are welcome as there is room for. -/
theorem welcomed_eq_take {live : Nat} {pets : List Pet} (h : ∀ pet ∈ pets, 0 < pet.health) :
    welcomed live pets = pets.take (teamSize - live) := by
  induction pets generalizing live with
  | nil => exact List.take_nil.symm
  | cons pet rest ih =>
    obtain ⟨hpet, hrest⟩ := List.forall_mem_cons.1 h
    have alive : pet.isAlive = true := decide_eq_true hpet
    rw [welcomed, ih hrest, ih hrest]
    split
    · rename_i hroom
      obtain ⟨n, hn⟩ := Nat.exists_eq_add_of_lt hroom
      rw [List.countP_singleton, if_pos alive, hn, show live + n + 1 - live = n + 1 by omega,
        show live + n + 1 - (live + 1) = n by omega, List.take_succ_cons]
    · rename_i hfull
      rw [Nat.sub_eq_zero_of_le (Nat.le_of_not_lt hfull)]
      rfl

end Board

namespace Battle

/-- The pets that are sent into battle are alive. -/
def Fit (teams : Sides Team) : Prop :=
  ∀ side, ∀ pet ∈ (teams.get side).pets, 1 ≤ pet.health

/-- All pets of both teams are alive, none of the teams is empty, and the pet stands foremost among
the five that its side fields. -/
structure Leads (teams : Sides Team) (side : Side) (pet : Pet) : Prop where
  fit : Fit teams
  staffed : ∀ side, (teams.get side).pets ≠ []
  foremost : ((teams.get side).pets.take teamSize).getLast? = some pet

variable {teams : Sides Team} {side : Side} {pet : Pet}

theorem livePets_ofTeams_of_fit (h : Fit teams) (side : Side) :
    (Board.ofTeams teams).livePets side =
      ((teams.get side).pets.take teamSize).map Pet.battleCopy := by
  have copies : ∀ pet ∈ (teams.get side).pets.map Pet.battleCopy, 0 < pet.health := by
    intro pet hm
    obtain ⟨old, hold, rfl⟩ := List.mem_map.1 hm
    exact h side old hold
  rw [Board.livePets_ofTeams, Board.welcomed_eq_take copies, List.map_take]
  rfl

theorem Leads.front? (h : Leads teams side pet) :
    ∃ id, (Board.ofTeams teams).front? side = some id ∧
      (Board.ofTeams teams).pet? id = some pet.battleCopy := by
  have foremost := (Board.wellFormed_ofTeams teams).map_front? side
  rw [livePets_ofTeams_of_fit h.fit, List.getLast?_map, h.foremost] at foremost
  obtain ⟨id, hid, hpet⟩ := Option.map_eq_some_iff.1 foremost
  exact ⟨id, hid, hpet⟩

theorem Leads.faced (h : Leads teams side pet) :
    ∃ id, (Board.ofTeams teams).front? side.opponent = some id := by
  have foremost := (Board.wellFormed_ofTeams teams).map_front? side.opponent
  obtain ⟨enemy, rest, hpets⟩ := List.exists_cons_of_ne_nil (h.staffed side.opponent)
  rw [livePets_ofTeams_of_fit h.fit, hpets] at foremost
  cases hf : (Board.ofTeams teams).front? side.opponent with
  | some id => exact ⟨id, rfl⟩
  | none =>
    rw [hf] at foremost
    simp [teamSize, List.getLast?_cons] at foremost

/-- The battle fails, and the teams stay as they are. -/
def Refused (rules : Rules) (teams : Sides Team) : Prop :=
  ∃ e, runBattle rules teams = (.error e, teams)

/-- The pet is foremost as the battle begins. -/
theorem Leads.held (h : Leads teams side pet) (rules : Rules) :
    ∃ id foe, ∀ P : Foremost, P.pet = id → P.side = side → P.bears pet.status pet.abilityKind →
      P.enemy foe → P.Idle (ofTeams rules.config teams).arena := by
  obtain ⟨id, hid, stands⟩ := h.front?
  obtain ⟨foe, hfoe⟩ := h.faced
  refine ⟨id, foe, ?_⟩
  rintro P rfl rfl hbears henemy
  exact {
    wellFormed := Board.wellFormed_ofTeams teams
    names := ⟨pet.battleCopy, stands, hbears⟩
    foremost := hid
    faced := ⟨foe, hfoe, henemy⟩
    rear := fun _ => False.elim
    waiting := by
      intro s attack hm
      rw [waits_ofTeams] at hm
      cases hm }

end Battle

/-! ## A status without a definition -/

/-- The pet is under a status that is not defined. -/
def Pet.LacksStatus (c : Catalog) (p : Pet) : Prop :=
  ∃ status, p.status = some status ∧ status ∉ c.statuses

theorem Pet.LacksStatus.statusAbility_ne {c : Catalog} {p : Pet} (h : p.LacksStatus c)
    (ability : Option Ability) : c.statusAbility p ≠ .ok ability := by
  obtain ⟨status, hs, missing⟩ := h
  intro found
  unfold Catalog.statusAbility at found
  rw [hs] at found
  dsimp only at found
  cases hk : c.status status with
  | ok kind => exact missing (Catalog.mem_of_status hk)
  | error e =>
    rw [hk] at found
    cases found

/-- Whatever battle is fought over effects of these forms, a status that a foremost pet has without
a definition makes it fail. -/
def RefusesStatuses (forms : Nat → Prop) : Prop :=
  ∀ (rules : Rules) (teams : Sides Team) (side : Side) (pet : Pet),
    (rules.catalog.Every fun e => forms e.form) → 0 < rules.config.maxRounds →
    Battle.Leads teams side pet → pet.LacksStatus rules.catalog → Battle.Refused rules teams

/-- No effect gets in the way, and no pet is made to evolve by another one. -/
structure NoneAverts (forms : Nat → Prop) : Prop where
  diverts : ∀ e : Effect, forms e.form → ¬ e.Diverting
  repeats : ∀ into target level, forms (Effect.evolve into).form →
    ¬ forms (Effect.repeatAbility target level).form

/-- The pet is to stay under a status that is not defined. -/
def foremostUnder (c : Catalog) (forms : Nat → Prop) (side : Side) (id : PetId) : Foremost where
  pet := id
  side := side
  effects e := forms e.form
  bears status _ := ∃ x, status = some x ∧ x ∉ c.statuses
  enemy _ := True

theorem refusesStatuses_of_noneAverts {forms : Nat → Prop} (h : NoneAverts forms) :
    RefusesStatuses forms := by
  intro rules teams side pet hc hm hl hp
  obtain ⟨id, _, held⟩ := hl.held rules
  have holds : (foremostUnder rules.catalog forms side id).Holds rules.catalog := {
    offered := hc
    diverts := h.diverts
    repeats := h.repeats
    enemy := fun _ _ _ => trivial
    borrows := fun _ _ _ _ _ _ _ hb => hb
    unknown := fun _ _ status hb _ => Pet.LacksStatus.statusAbility_ne hb status }
  have noticed : (foremostUnder rules.catalog forms side id).NoticedInExchange rules.catalog :=
    .hit fun _ status hb => Pet.LacksStatus.statusAbility_ne hb status
  exact Foremost.error_of_runBattle holds (held _ rfl rfl hp trivial) hm (.inr noticed)

/-! ## Effects that avert the failure -/

/-- In a battle it changes nothing. -/
def coin : Effect := .gainGold 0

def herald (first : Effect) : PetKind :=
  ⟨⟨"pet-herald"⟩, "pet-herald", 1, 1, 1, [], some ⟨"", .startOfBattle, .player, first, none⟩, none,
    none⟩

def echo (second : Effect) : PetKind :=
  ⟨⟨"pet-echo"⟩, "pet-echo", 1, 1, 1, [], some ⟨"", .castsAbility, .player, second, none⟩, none, none⟩

/-- It answers nothing that happens in a battle. -/
def calm (effect : Effect) : StatusKind :=
  ⟨⟨"status-calm"⟩, "status-calm", ⟨"", .sell, .self, effect, none⟩⟩

def heraldCatalog (first second : Effect) : Catalog :=
  .ofLists [herald first, echo second, ant] [calm first] []

def ghost : Pet := (Pet.ofKind ant).setStatus (some ⟨"status-ghost"⟩)

/-- An ant under a status without a definition stands in front of a herald and its echo. -/
def heraldTeams (first second : Effect) : Sides Team where
  a := .ofPets [.ofKind (echo second), .ofKind (herald first), ghost]
  b := .ofPets [.ofKind ant]

def heraldRules (first second : Effect) : Rules := ⟨heraldCatalog first second, { maxRounds := 1 }⟩

/-- Ways to give the ant another status, to make its enemy faint, and to put a pet in front of it. -/
def diversions : List Effect :=
  [.applyStatus ⟨"status-calm"⟩ .eachFriend, .dealDamage (.fixed 1) .firstEnemy, callAnt,
    .summonRandomPet 1 none none none, .respawnPet 1 1]

/-- What the herald does at the start, and its echo when the herald has. -/
def ruses : List (Effect × Effect) :=
  (.evolve ⟨"pet-ant"⟩, .repeatAbility .rightMostFriend none) :: diversions.map fun e => (e, e)

/-- Each ruse spares the status of the ant from being looked up. -/
theorem ruses_avert : ∀ ruse ∈ ruses,
    ⟨"status-ghost"⟩ ∉ (heraldCatalog ruse.1 ruse.2).statuses ∧
      (runBattle (heraldRules ruse.1 ruse.2) (heraldTeams ruse.1 ruse.2)).1.isOk = true := by
  decide +kernel

theorem Effect.Diverting.diversion {e : Effect} (h : e.Diverting) :
    ∃ diversion ∈ diversions, diversion.Every fun part => part.form = e.form := by
  cases e with
  | applyStatus => exact ⟨_, .head _, rfl, trivial⟩
  | dealDamage => exact ⟨_, .tail _ (.head _), rfl, trivial⟩
  | summonPet => exact ⟨_, .tail _ (.tail _ (.head _)), rfl, trivial⟩
  | summonRandomPet => exact ⟨_, .tail _ (.tail _ (.tail _ (.head _))), rfl, trivial⟩
  | respawnPet => exact ⟨_, .tail _ (.tail _ (.tail _ (.tail _ (.head _)))), rfl, trivial⟩
  | _ => exact absurd h id

variable {first second : Effect}

theorem every_heraldCatalog {p : Effect → Prop} (h : first.Every p) (h' : second.Every p) :
    (heraldCatalog first second).Every p := by
  apply Catalog.every_ofLists
  · intro kind hm ability ha
    simp only [List.mem_cons, List.not_mem_nil, or_false] at hm
    rcases hm with rfl | rfl | rfl
    · simp only [herald, List.mem_cons, Option.some.injEq, reduceCtorEq, List.not_mem_nil,
        or_false] at ha
      rw [ha]
      exact h
    · simp only [echo, List.mem_cons, Option.some.injEq, reduceCtorEq, List.not_mem_nil,
        or_false] at ha
      rw [ha]
      exact h'
    · simp [ant] at ha
  · intro status hm
    rw [List.mem_singleton] at hm
    rw [hm]
    exact h
  · intro food hm
    cases hm

theorem leads_heraldTeams : Battle.Leads (heraldTeams first second) .a ghost where
  fit side := by cases side <;> exact of_decide_eq_true rfl
  staffed side := by cases side <;> exact List.cons_ne_nil _ _
  foremost := rfl

theorem Battle.not_refused_of_isOk {rules : Rules} {teams : Sides Team}
    (h : (runBattle rules teams).1.isOk = true) : ¬ Battle.Refused rules teams := by
  rintro ⟨e, he⟩
  rw [he] at h
  cases h

theorem not_refusesStatuses {forms : Nat → Prop} (hm : (first, second) ∈ ruses)
    (h : first.Every fun part => forms part.form) (h' : second.Every fun part => forms part.form) :
    ¬ RefusesStatuses forms := by
  intro refuses
  obtain ⟨missing, passes⟩ := ruses_avert _ hm
  have failed : Battle.Refused (heraldRules first second) (heraldTeams first second) :=
    refuses _ _ .a ghost (every_heraldCatalog h h') Nat.zero_lt_one leads_heraldTeams
      ⟨_, rfl, missing⟩
  exact Battle.not_refused_of_isOk passes failed

theorem refusesStatuses_iff (forms : Nat → Prop) : RefusesStatuses forms ↔ NoneAverts forms := by
  refine ⟨fun refuses => ⟨fun e he hd => ?_, fun into target level he hr => ?_⟩,
    refusesStatuses_of_noneAverts⟩
  · obtain ⟨diversion, hm, hforms⟩ := hd.diversion
    have permitted : diversion.Every fun part => forms part.form :=
      hforms.imp fun _ hp => hp ▸ he
    exact not_refusesStatuses (.tail _ (List.mem_map.2 ⟨_, hm, rfl⟩)) permitted permitted refuses
  · exact not_refusesStatuses (.head _) ⟨he, trivial⟩ ⟨hr, trivial⟩ refuses

/-- Without a ruse the status is looked up when the ant is hit. -/
example : (runBattle (heraldRules coin coin) (heraldTeams coin coin)).1 =
    .error (.unknownStatus ⟨"status-ghost"⟩) := by
  decide +kernel

/-! ## A kind without a definition -/

/-- The pet uses the ability of its own kind, which is not defined. -/
def Pet.LacksKind (c : Catalog) (p : Pet) : Prop := p.borrowed = none ∧ p.kind ∉ c.pets

/-- The trigger that the status of the pet answers, if it is under one that is defined. -/
def Pet.heard? (c : Catalog) (p : Pet) : Option Trigger :=
  (p.status.bind (c.statuses[·]?)).map (·.ability.trigger)

/-- The effect itself gives a pet another ability. -/
def Effect.Recasting : Effect → Prop
  | .transferAbility .. => True
  | .evolve _ => True
  | _ => False

/-- Whatever battle is fought where no effect gets in the way, a kind that a foremost pet has without
a definition makes it fail, if the status of the pet listens to this trigger. -/
def RefusesKinds (heard : Option Trigger) : Prop :=
  ∀ (rules : Rules) (teams : Sides Team) (side : Side) (pet : Pet),
    (rules.catalog.Every fun e => ¬ e.Diverting ∧ ¬ e.Recasting) → 0 < rules.config.maxRounds →
    Battle.Leads teams side pet → pet.LacksKind rules.catalog → pet.heard? rules.catalog = heard →
    Battle.Refused rules teams

/-- The pet is to stay of a kind that is not defined, under a status that listens to the trigger, and
to face this enemy. -/
def foremostOf (c : Catalog) (trigger : Trigger) (side : Side) (id foe : PetId) : Foremost where
  pet := id
  side := side
  effects e := ¬ e.Diverting ∧ ¬ e.Recasting
  bears status kind := kind ∉ c.pets ∧
    ∃ x held, status = some x ∧ c.status x = .ok held ∧ held.ability.trigger = trigger
  enemy other := other = foe

theorem mem_of_levelAbility {c : Catalog} {p : Pet} {level : Option Ability}
    (h : c.levelAbility p = .ok level) : p.abilityKind ∈ c.pets := by
  unfold Catalog.levelAbility at h
  cases hk : c.petKind p.abilityKind with
  | ok kind =>
    rw [Std.ExtTreeMap.mem_iff_isSome_getElem?, Catalog.petKind_eq_ok.1 hk]
    rfl
  | error e =>
    rw [hk] at h
    cases h

theorem answers_foremostOf {c : Catalog} {trigger : Trigger} {side : Side} {id foe : PetId}
    {event : Event} (h : event.trigger = trigger) :
    (foremostOf c trigger side id foe).Answers c event := by
  rintro pet ⟨_, x, held, hs, hk, ht⟩
  have found : c.statusAbility pet = .ok (some held.ability) := by
    unfold Catalog.statusAbility
    rw [hs]
    dsimp only
    rw [hk]
    rfl
  rw [h, ← ht]
  exact Catalog.mayReact_of_statusAbility found

theorem refusesKinds_of_heard {trigger : Trigger}
    (h : trigger = .startOfBattle ∨ trigger = .beforeAttack) : RefusesKinds (some trigger) := by
  intro rules teams side pet hc hm hl ⟨hown, hkind⟩ hheard
  obtain ⟨id, foe, held⟩ := hl.held rules
  have holds : (foremostOf rules.catalog trigger side id foe).Holds rules.catalog := {
    offered := hc
    diverts := fun _ he => he.1
    repeats := fun _ _ _ he => absurd trivial he.2
    enemy := fun _ he => absurd trivial he.2
    borrows := fun _ _ _ he => absurd trivial he.2
    unknown := fun _ _ _ hb hlevel => absurd (mem_of_levelAbility hlevel) hb.1 }
  have bears : (foremostOf rules.catalog trigger side id foe).bears pet.status pet.abilityKind := by
    obtain ⟨held, hfound, ht⟩ := Option.map_eq_some_iff.1 hheard
    obtain ⟨status, hs, hk⟩ := Option.bind_eq_some_iff.1 hfound
    have own : pet.abilityKind = pet.kind := by
      unfold Pet.abilityKind
      rw [hown]
    exact ⟨own ▸ hkind, status, held, hs, Catalog.status_eq_ok.2 hk, ht⟩
  refine Foremost.error_of_runBattle holds (held _ rfl rfl bears rfl) hm ?_
  rcases h with rfl | rfl
  · exact .inl (answers_foremostOf rfl)
  · exact .inr (.announced (answers_foremostOf rfl) foe fun _ same => same)

/-! ## Kinds that go unnoticed -/

def stray (attack : Int) : PetKind := ⟨⟨"pet-stray"⟩, "pet-stray", 1, attack, 1, [], none, none, none⟩

def mark (trigger : Trigger) : StatusKind :=
  ⟨⟨"status-mark"⟩, "status-mark", ⟨"", trigger, .self, coin, none⟩⟩

def strayPet (attack : Int) (heard : Option Trigger) : Pet :=
  (Pet.ofKind (stray attack)).setStatus (heard.map fun trigger => (mark trigger).id)

/-- No kind is defined, and no status but the mark. -/
def strayRules (heard : Option Trigger) : Rules :=
  ⟨.ofLists [] (heard.map mark).toList [], { maxRounds := 1 }⟩

/-- Two pets whose kind is not defined, of which the first is marked. -/
def strayTeams (attack : Int) (heard : Option Trigger) : Sides Team where
  a := .ofPets [strayPet attack heard]
  b := .ofPets [strayPet attack none]

/-- Without attack the pets do each other no harm, else both faint. One of these battles passes over
the kind for each trigger that is not told to a foremost pet in any case. -/
theorem strays_pass : ∀ heard ∈ none :: Trigger.all.map some,
    heard ≠ some .startOfBattle → heard ≠ some .beforeAttack → ∃ attack ∈ [0, 1],
      (runBattle (strayRules heard) (strayTeams attack heard)).1.isOk = true := by
  decide +kernel

variable {attack : Int} {heard : Option Trigger}

theorem leads_strayTeams : Battle.Leads (strayTeams attack heard) .a (strayPet attack heard) where
  fit side := by cases side <;> exact of_decide_eq_true rfl
  staffed side := by cases side <;> exact List.cons_ne_nil _ _
  foremost := rfl

theorem lacksKind_strayPet : (strayPet attack heard).LacksKind (strayRules heard).catalog :=
  ⟨rfl, Std.ExtTreeMap.not_mem_empty⟩

theorem heard?_strayPet : (strayPet attack heard).heard? (strayRules heard).catalog = heard := by
  cases heard with
  | none => rfl
  | some trigger =>
    have found : (strayRules (some trigger)).catalog.statuses[(mark trigger).id]? =
        some (mark trigger) := Std.ExtTreeMap.getElem?_insert_self
    show (((some (mark trigger).id).bind _).map _) = _
    rw [Option.bind_some, found]
    rfl

theorem every_strayRules {p : Effect → Prop} (h : p coin) :
    (strayRules heard).catalog.Every p := by
  apply Catalog.every_ofLists
  · intro kind hm
    cases hm
  · intro status hm
    obtain ⟨trigger, _, rfl⟩ := Option.map_eq_some_iff.1 (Option.mem_toList.1 hm)
    exact ⟨h, trivial⟩
  · intro food hm
    cases hm

theorem refusesKinds_iff (heard : Option Trigger) :
    RefusesKinds heard ↔ heard = some .startOfBattle ∨ heard = some .beforeAttack := by
  constructor
  · intro refuses
    by_contra neither
    push Not at neither
    have listed : heard ∈ none :: Trigger.all.map some := by
      cases heard with
      | none => exact .head _
      | some trigger => exact .tail _ (List.mem_map.2 ⟨_, trigger.mem_all, rfl⟩)
    obtain ⟨attack, _, passes⟩ := strays_pass heard listed neither.1 neither.2
    have failed : Battle.Refused (strayRules heard) (strayTeams attack heard) :=
      refuses _ _ .a (strayPet attack heard) (every_strayRules ⟨id, id⟩) Nat.zero_lt_one
        leads_strayTeams lacksKind_strayPet heard?_strayPet
    exact Battle.not_refused_of_isOk passes failed
  · rintro (rfl | rfl)
    · exact refusesKinds_of_heard (.inl rfl)
    · exact refusesKinds_of_heard (.inr rfl)

/-- A battle whose foremost pet bears a name that is not defined, over effects of some forms. For a
status it fails if no effect gets in the way and no pet can be made to evolve by another one, and of
the forms of effects only these make every such battle fail. For a kind it fails if no effect gets in
the way or gives abilities and the status of the pet listens to the start of the battle or to the
attacks; if it listens to anything else, or there is none, some such battles are fought to their
end. -/
theorem undefined_names_fail_battles_if_looked_up (rules : Rules) (forms : Nat → Prop)
    (hc : rules.catalog.Every fun e => forms e.form) (hm : 0 < rules.config.maxRounds)
    (teams : Sides Team) (side : Side) (pet : Pet) (hl : Battle.Leads teams side pet) :
    (pet.LacksStatus rules.catalog → NoneAverts forms → Battle.Refused rules teams) ∧
    (RefusesStatuses forms ↔ NoneAverts forms) ∧
    (pet.LacksKind rules.catalog → (∀ e : Effect, forms e.form → ¬ e.Diverting ∧ ¬ e.Recasting) →
      pet.heard? rules.catalog = some .startOfBattle ∨
        pet.heard? rules.catalog = some .beforeAttack → Battle.Refused rules teams) ∧
    ∀ heard : Option Trigger,
      RefusesKinds heard ↔ heard = some .startOfBattle ∨ heard = some .beforeAttack := by
  refine ⟨fun hp ht => ?_, refusesStatuses_iff forms, fun hp ht heard => ?_, refusesKinds_iff⟩
  · exact refusesStatuses_of_noneAverts ht rules teams side pet hc hm hl hp
  · have harmless : rules.catalog.Every fun e => ¬ e.Diverting ∧ ¬ e.Recasting :=
      fun ability ho => (hc ability ho).imp ht
    exact (refusesKinds_iff _).2 heard rules teams side pet harmless hm hl hp rfl

/-- The ghost is found out where effects only give gold, and not over all forms of effects. A stray
that listens to the attacks is found out as well. -/
theorem undefined_names_fail_battles_if_looked_up_ghost :
    Battle.Refused (heraldRules coin coin) (heraldTeams coin coin) ∧
      ¬ RefusesStatuses (fun _ => True) ∧
      Battle.Refused (strayRules (some .beforeAttack)) (strayTeams 1 (some .beforeAttack)) := by
  have golden (e : Effect) (h : e.form = coin.form) : ¬ e.Diverting ∧ ¬ e.Recasting := by
    cases e <;> first | exact ⟨id, id⟩ | cases h
  have noneAverts : NoneAverts fun form => form = coin.form :=
    ⟨fun e he => (golden e he).1, fun into target level he => nomatch he⟩
  have missing : (⟨"status-ghost"⟩ : StatusId) ∉ (heraldCatalog coin coin).statuses := by
    decide +kernel
  have ghosts := undefined_names_fail_battles_if_looked_up (heraldRules coin coin)
    (fun form => form = coin.form) (every_heraldCatalog ⟨rfl, trivial⟩ ⟨rfl, trivial⟩)
    Nat.zero_lt_one (heraldTeams coin coin) .a ghost leads_heraldTeams
  have anything := undefined_names_fail_battles_if_looked_up (heraldRules coin coin)
    (fun _ => True) (every_heraldCatalog ⟨trivial, trivial⟩ ⟨trivial, trivial⟩)
    Nat.zero_lt_one (heraldTeams coin coin) .a ghost leads_heraldTeams
  have strays := undefined_names_fail_battles_if_looked_up (strayRules (some .beforeAttack))
    (fun form => form = coin.form) (every_strayRules rfl) Nat.zero_lt_one
    (strayTeams 1 (some .beforeAttack)) .a (strayPet 1 (some .beforeAttack)) leads_strayTeams
  refine ⟨ghosts.1 ⟨_, rfl, missing⟩ noneAverts, fun refuses => ?_,
    strays.2.2.1 lacksKind_strayPet golden (.inr heard?_strayPet)⟩
  exact (anything.2.1.1 refuses).diverts callAnt trivial trivial

/-- Two pets whose kind is not defined make each other faint, and that is a draw. -/
theorem undefined_kinds_fight_on :
    ¬ ∀ (rules : Rules) (teams : Sides Team) (side : Side) (pet : Pet),
      0 < rules.config.maxRounds → Battle.Leads teams side pet →
      pet.LacksKind rules.catalog ∨ pet.LacksStatus rules.catalog → Battle.Refused rules teams := by
  intro refuses
  have drawn : (runBattle (strayRules none) (strayTeams 1 none)).1 = .ok .draw := by decide +kernel
  obtain ⟨e, failed⟩ := refuses (strayRules none) (strayTeams 1 none) .a (strayPet 1 none)
    Nat.zero_lt_one leads_strayTeams (.inl lacksKind_strayPet)
  rw [failed] at drawn
  cases drawn

end AutoBattler
