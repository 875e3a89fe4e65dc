import AutoBattler.Proofs.Population
import AutoBattler.Proofs.Rescue
import AutoBattler.Proofs.Vitality

/-!
# The capacity of a line

A line takes a new pet while fewer than five of its pets live. A victim that waits for its faint
does not count, so a pet that is summoned meanwhile takes its place; if the victim is then revived
there are six. While gains of health keep to the machine integers there are never more, and there are
six only where an effect summons and another one revives.
-/
namespace AutoBattler

open Resolve

namespace Effect

/-- The effect itself brings pets into line. -/
def Summoning : Effect → Prop
  | summonPet .. => True
  | summonRandomPet .. => True
  | respawnPet .. => True
  | _ => False

/-- The effect itself can give health to a pet that has none, or put another in its place. -/
def Reviving : Effect → Prop
  | modifyStats _ health _ _ => 0 < health
  | gainExperience amount _ => 0 < amount
  | evolve _ => True
  | _ => False

/-- The constructor of the effect, whatever its amounts and targets are. -/
def form (e : Effect) : Nat := e.ctorIdx

end Effect

variable {c : Catalog} {rules : Rules} {p donor : Pet}

/-- A lively effect that does not revive does not heal either. -/
theorem Effect.IsLively.not_healing {e : Effect} (h : e.IsLively) (hr : ¬ e.Reviving) :
    ¬ e.Healing := by
  cases e with
  | modifyStats attack health target temporary =>
    obtain rfl : health = 0 := Int.le_antisymm (Int.not_lt.1 hr) h
    exact (by decide : ¬ (0 : Int) < int32 0)
  | gainExperience => exact hr
  | transferStats => exact ne_true_of_eq_false h
  | _ => exact id

/-! ## Live pets of a line -/

namespace Board

variable {b b' : Board} {side s : Side} {id : PetId} {pet : Pet}

theorem lives_iff : b.lives id = true ↔ ∃ pet, b.pet? id = some pet ∧ 0 < pet.health := by
  unfold lives
  rw [Option.any_eq_true]
  simp [Pet.isAlive]

theorem liveCount_modifyPet_le {P : Pet → Prop} (h : b.AllPets P) {f : Pet → Pet}
    (hf : ∀ p, P p → 0 < (f p).health → 0 < p.health) (id : PetId) (side : Side) :
    (b.modifyPet id f).liveCount side ≤ b.liveCount side := by
  rw [liveCount_eq, liveCount_eq]
  apply List.countP_mono_left
  intro x _ hx
  obtain ⟨pet, hpet, hpos⟩ := lives_iff.1 hx
  obtain ⟨old, hold, rfl | ⟨_, rfl⟩⟩ := pet?_of_modifyPet hpet
  · exact lives_iff.2 ⟨_, hold, hpos⟩
  · exact lives_iff.2 ⟨old, hold, hf old (h x old hold) hpos⟩

/-- The pets that stood in line before an arrival count as before. -/
theorem Stores.countP_lives (h : b.WellFormed) (hs : Stores b side pet id b') (s : Side) :
    (b.roster s).countP b'.lives = (b.roster s).countP b.lives := by
  apply List.countP_congr
  intro x hx
  unfold lives
  rw [hs.pet?, if_neg (hs.ne h hx)]

theorem Arrives.liveCount_le (h : b.WellFormed) (ha : Arrives b side pet id b')
    (hb : b.liveCount s ≤ teamSize) : b'.liveCount s ≤ teamSize := by
  have hold := ha.toStores.countP_lives h s
  rw [liveCount_eq] at hb ⊢
  by_cases hs : s = side
  · subst hs
    have hroom := (b.canAdd_iff s).1 ha.room
    rw [liveCount_eq] at hroom
    rw [ha.perm.countP_eq, List.countP_cons, hold]
    split <;> omega
  · rw [ha.others s hs, hold]
    exact hb

theorem Leaves.liveCount_le (hl : Leaves b id side b') : b'.liveCount s ≤ b.liveCount s := by
  have hlives : b'.lives = b.lives := by
    funext x
    unfold lives
    rw [hl.pet?]
  rw [liveCount_eq, liveCount_eq, hlives]
  exact (hl.sublist s).countP_le

/-- No more pets live in a line than fit. -/
structure Uncrowded (b : Board) : Prop where
  wellFormed : b.WellFormed
  fit : b.AllPets Pet.FitHealth
  fits : ∀ s, b.liveCount s ≤ teamSize

theorem Uncrowded.modifyPet (h : b.Uncrowded) {f : Pet → Pet}
    (hfit : ∀ p, p.FitHealth → (f p).FitHealth)
    (hf : ∀ p, p.FitHealth → 0 < (f p).health → 0 < p.health) (id : PetId) :
    (b.modifyPet id f).Uncrowded where
  wellFormed := h.wellFormed.modifyPet id f
  fit := h.fit.modifyPet id hfit
  fits s := Nat.le_trans (liveCount_modifyPet_le h.fit hf id s) (h.fits s)

theorem Uncrowded.arrive (h : b.Uncrowded) (hfit : pet.FitHealth) (ha : Arrives b side pet id b') :
    b'.Uncrowded where
  wellFormed := ha.wellFormed h.wellFormed
  fit := h.fit.stores ha.toStores hfit
  fits s := ha.liveCount_le h.wellFormed (h.fits s)

theorem Uncrowded.leave (h : b.Uncrowded) (hl : Leaves b id side b') : b'.Uncrowded where
  wellFormed := hl.wellFormed h.wellFormed
  fit := h.fit.leave hl
  fits s := Nat.le_trans hl.liveCount_le (h.fits s)

theorem uncrowded_empty : empty.Uncrowded where
  wellFormed := wellFormed_empty
  fit := allPets_empty _
  fits s := by cases s <;> exact Nat.zero_le _

theorem Uncrowded.enlist (h : b.Uncrowded) (side : Side) {pets : List Pet}
    (hp : ∀ pet ∈ pets, pet.FitHealth) : (b.enlist side pets).Uncrowded :=
  enlist_induction h fun _ pet _ _ hb hm ha => hb.arrive (hp pet hm) ha

theorem uncrowded_ofTeams {teams : Sides Team} (ht : Battle.FitHealth teams) : (ofTeams teams).Uncrowded :=
  (uncrowded_empty.enlist .a fun pet hm => (Battle.copies_fit ht .a pet hm).1).enlist .b
    fun pet hm => (Battle.copies_fit ht .b pet hm).1

/-- If nothing is pending, all of a line live. -/
theorem Settling.liveCount_eq_length (h : b.Settling []) (s : Side) :
    b.liveCount s = (b.roster s).length :=
  Nat.le_antisymm (b.liveCount_le s) (h.length_le s)

end Board

/-! ## Boards of teams -/

namespace Board

variable {b b' : Board} {side s : Side} {id : PetId} {pet : Pet}

theorem Stores.filterMap_pet? (h : b.WellFormed) (hs : Stores b side pet id b') (s : Side) :
    (b.roster s).filterMap b'.pet? = b.livePets s := by
  refine List.filterMap_congr fun x hx => ?_
  rw [hs.pet?, if_neg (hs.ne h hx)]

/-- A pet that joins at the front comes behind those that stand there. -/
theorem livePets_of_spawn? (h : b.WellFormed) (hs : b.spawn? side pet .front = some (id, b')) :
    b'.livePets side = b.livePets side ++ [pet] := by
  have arrives := arrives_of_spawn? hs
  have line : b'.roster side = b.roster side ++ [id] := by
    unfold spawn? at hs
    split at hs
    · cases hs
      rw [roster_modifyRoster, Line.ids_insertIdx]
      dsimp only [Placement.index]
      rw [Nat.min_self]
      exact List.insertIdx_length_self
    · cases hs
  unfold livePets
  rw [line, List.filterMap_append, arrives.toStores.filterMap_pet? h, List.filterMap_cons_some
    (b := pet) (by rw [arrives.toStores.pet?, if_pos rfl]), List.filterMap_nil]
  rfl

theorem Arrives.livePets_of_ne (h : b.WellFormed) (ha : Arrives b side pet id b') (hs : s ≠ side) :
    b'.livePets s = b.livePets s := by
  unfold livePets
  rw [ha.others s hs]
  exact ha.toStores.filterMap_pet? h s

/-- The pets that find room, one after the other, in a line in which so many live. -/
def welcomed : (live : Nat) → List Pet → List Pet
  | _, [] => []
  | live, pet :: rest =>
    if live < teamSize then pet :: welcomed (live + [pet].countP Pet.isAlive) rest
    else welcomed live rest

theorem livePets_enlist (h : b.WellFormed) (side : Side) (pets : List Pet) :
    (b.enlist side pets).livePets side = b.livePets side ++ welcomed (b.liveCount side) pets := by
  induction pets generalizing b with
  | nil => exact (List.append_nil _).symm
  | cons pet rest ih =>
    unfold enlist
    rw [List.foldl_cons]
    cases hs : b.spawn? side pet .front with
    | some r =>
      have arrives := arrives_of_spawn? hs
      have line := livePets_of_spawn? h hs
      have count : r.2.liveCount side = b.liveCount side + [pet].countP Pet.isAlive := by
        unfold liveCount
        rw [line, List.filter_append, List.length_append, List.countP_eq_length_filter]
      have later := ih (arrives.wellFormed h)
      unfold enlist at later
      rw [Option.map_some, Option.getD_some, later, line, count, welcomed,
        if_pos ((b.canAdd_iff side).1 arrives.room), List.append_assoc]
      rfl
    | none =>
      have full : ¬ b.liveCount side < teamSize := by
        rw [← b.canAdd_iff side]
        intro hroom
        unfold spawn? at hs
        rw [if_pos hroom] at hs
        cases hs
      have later := ih h
      unfold enlist at later
      rw [Option.map_none, Option.getD_none, later, welcomed, if_neg full]

theorem livePets_enlist_of_ne (h : b.WellFormed) (hs : s ≠ side) (pets : List Pet) :
    (b.enlist side pets).livePets s = b.livePets s := by
  have kept : (b.enlist side pets).WellFormed ∧ (b.enlist side pets).livePets s = b.livePets s := by
    apply enlist_induction (B := fun b' => b'.WellFormed ∧ b'.livePets s = b.livePets s) ⟨h, rfl⟩
    intro _ _ _ _ hb _ ha
    exact ⟨ha.wellFormed hb.1, (ha.livePets_of_ne hb.1 hs).trans hb.2⟩
  exact kept.2

theorem livePets_ofTeam (team : Team) :
    (ofTeam team).livePets .a = welcomed 0 team.pets := livePets_enlist wellFormed_empty .a team.pets

/-- Each side of a battle fields those of its team that find room. -/
theorem livePets_ofTeams (teams : Sides Team) (side : Side) :
    (ofTeams teams).livePets side = welcomed 0 ((teams.get side).pets.map Pet.battleCopy) := by
  have first := wellFormed_empty.enlist .a (teams.a.pets.map Pet.battleCopy)
  cases side with
  | a =>
    have other : Side.a ≠ .b := by decide
    have kept := livePets_enlist_of_ne first other (teams.b.pets.map Pet.battleCopy)
    exact kept.trans (livePets_enlist wellFormed_empty .a _)
  | b =>
    have other : Side.b ≠ .a := by decide
    have none := livePets_enlist_of_ne wellFormed_empty other (teams.a.pets.map Pet.battleCopy)
    refine (livePets_enlist first .b _).trans ?_
    unfold liveCount
    rw [none]
    rfl

/-- A list of which all but the last leave room is welcome as a whole. -/
theorem welcomed_eq_self {live : Nat} {pets : List Pet}
    (h : live + pets.dropLast.countP Pet.isAlive < teamSize) : welcomed live pets = pets := by
  induction pets generalizing live with
  | nil => rfl
  | cons pet rest ih =>
    rw [welcomed, if_pos (Nat.lt_of_le_of_lt (Nat.le_add_right _ _) h)]
    cases rest with
    | nil => rfl
    | cons next rest =>
      rw [ih]
      rw [List.dropLast_cons_cons, List.countP_cons] at h
      rw [List.countP_singleton]
      omega

end Board

/-- Every pet of the team but the last leaves room for the next one. -/
def Team.Fits (team : Team) : Prop := team.pets.dropLast.countP Pet.isAlive < teamSize

/-- All of a team that fits stand on its board. -/
theorem Team.Fits.livePets {team : Team} (h : team.Fits) :
    (Board.ofTeam team).livePets .a = team.pets := by
  rw [Board.livePets_ofTeam, Board.welcomed_eq_self]
  rwa [Nat.zero_add]

theorem Team.fits_ofPets (pets : List Pet) : (Team.ofPets pets).Fits := by
  have fold (team : Team) (h : team.Fits) :
      (pets.foldl (fun team pet => (team.add? pet none).getD team) team).Fits := by
    induction pets generalizing team with
    | nil => exact h
    | cons pet rest ih =>
      rw [List.foldl_cons]
      apply ih
      unfold Team.add?
      split
      · rename_i hroom
        unfold Team.Fits
        rw [Option.getD_some, Option.getD_none, Nat.min_self, List.insertIdx_length_self,
          List.dropLast_concat, List.countP_eq_length_filter]
        exact of_decide_eq_true hroom
      · exact h
  exact fold .empty (Nat.zero_lt_succ 4)

/-! ## Catalogs that summon or revive not -/

def unrevivingScope : Scope := ⟨fun _ => True, fun e => e.IsLively ∧ ¬ e.Reviving, fun _ => True⟩

theorem health_pos_of_unrevivingEdit {c : Catalog} {f : Pet → Pet}
    (hf : Edit c unrevivingScope f) (hp : p.FitHealth) (h : 0 < (f p).health) : 0 < p.health :=
  health_pos_of_edit (S := unrevivingScope) (fun _ he => he.1.not_healing he.2) hf hp.1 h

/-- Where nothing is revived, no more pets live than fit. -/
theorem boardInvariant_uncrowded (c : Catalog) :
    BoardInvariant unrevivingScope c Board.Uncrowded where
  known _ _ _ _ _ := trivial
  edit _ hb _ hf id :=
    hb.modifyPet (fun _ => fitHealth_edit hf) (fun _ => health_pos_of_unrevivingEdit hf) id
  gainPoint _ _ _ _ hs hpos _ := absurd hpos hs.2
  promote _ hb id level := hb.modifyPet (f := Pet.promote level) (fun _ h => h) (fun _ _ h => h) id
  damage _ hb _ id :=
    hb.modifyPet (fun p _ => Pet.fitHealth_setHealth _ p)
      (fun _ hp => Pet.health_pos_of_takeDamage hp.1) id
  arrive _ hb _ _ _ _ hp ha := hb.arrive (fitHealth_newcomer hp) ha
  exchange _ _ _ _ hs _ _ _ _ _ _ := absurd trivial hs.2
  leave _ hb _ _ _ hl := hb.leave hl

def unsummoningScope : Scope := ⟨fun _ => True, fun e => ¬ e.Summoning, fun _ => True⟩

theorem not_newcomer (h : Newcomer c unsummoningScope p) : False := by
  have none {request : Summons} (ha : Asked c unsummoningScope request) : False := by
    cases ha with
    | named h => exact h trivial
    | random h _ => exact h trivial
    | again h _ => exact h trivial
  cases h with
  | plain ha _ => exact none ha
  | inheriting ha _ _ => exact none ha

/-- Where nothing is summoned, no line grows. -/
theorem boardInvariant_unsummoning (c : Catalog) (n : Nat) :
    BoardInvariant unsummoningScope c fun b => ∀ s, (b.roster s).length ≤ n where
  known _ _ _ _ _ := trivial
  edit _ hb _ _ _ := hb
  gainPoint _ hb _ _ _ _ _ := hb
  promote _ hb _ _ := hb
  damage _ hb _ _ := hb
  arrive _ _ _ _ _ _ hp _ := (not_newcomer hp).elim
  exchange b hb into kind _ _ id side new b' he s := by
    rw [he.length]
    exact hb s
  leave b hb id side b' hl s := Nat.le_trans (hl.sublist s).length_le (hb s)

/-! ## Battles -/

section

variable {teams : Sides Team} {b : Battle}

theorem liveCount_le_of_unreviving (hc : rules.catalog.IsLively)
    (hr : rules.catalog.Every fun e => ¬ e.Reviving) (ht : Battle.FitHealth teams)
    (h : Battle.Reachable rules teams b) (side : Side) : b.arena.board.liveCount side ≤ teamSize := by
  have covers : unrevivingScope.Covers rules.catalog :=
    ⟨fun ability ho => (hc.effects ability ho).imp₂ (fun _ => And.intro) (hr ability ho),
      fun _ _ _ _ => trivial⟩
  have uncrowded := (boardInvariant_uncrowded rules.catalog).of_reachable covers
    (.of_all fun _ => trivial) (.of_all fun _ => trivial) (Board.uncrowded_ofTeams ht) h
  exact uncrowded.fits side

theorem liveCount_le_of_unsummoning (hs : rules.catalog.Every fun e => ¬ e.Summoning)
    (ht : Battle.FitHealth teams) (h : Battle.Reachable rules teams b) (side : Side) :
    b.arena.board.liveCount side ≤ teamSize := by
  have start : ∀ s, ((Board.ofTeams teams).roster s).length ≤ teamSize := by
    intro s
    rw [← (Battle.settling_ofTeams ht).liveCount_eq_length s]
    exact (Board.uncrowded_ofTeams ht).fits s
  have short := (boardInvariant_unsummoning rules.catalog teamSize).of_reachable
    ⟨hs, fun _ _ _ _ => trivial⟩ (.of_all fun _ => trivial) (.of_all fun _ => trivial) start h
  exact Nat.le_trans (b.arena.board.liveCount_le side) (short side)

/-- What the records of a side tell of its live pets, if it had at most five at the start. -/
theorem liveCount_le_iff_of_sound (hr : rules.config.recordEvents = true)
    (hc : rules.catalog.IsModerate) (ht : Battle.FitHealth teams) (hb : Battle.Sound rules teams b)
    (side : Side) : b.arena.board.liveCount side ≤ teamSize ↔
      ((Board.ofTeams teams).roster side).length + b.arena.log.told .summoned side ≤
        teamSize + b.arena.log.told .faint side := by
  have all := (Battle.settling_of_sound hc ht hb).liveCount_eq_length side
  have length := Battle.length_of_sound hr hb side
  omega

end

/-! ## Rescues -/

def calls : List Effect := [callAnt, .summonRandomPet 1 none none none, .respawnPet 1 1]

def heals : List Effect := [healSelf, .gainExperience 1 .self, .evolve ⟨"pet-ant"⟩]

/-- Each way to summon together with each way to revive puts a sixth live pet into line. -/
theorem six_live_after_rescue :
    ∀ call ∈ calls, ∀ heal ∈ heals,
      (rescue call heal).1 = .ok .running ∧
        (rescue call heal).2.arena.board.liveCount .a = teamSize + 1 := by
  decide +kernel

theorem Effect.Summoning.call {e : Effect} (h : e.Summoning) :
    ∃ call ∈ calls, call.Every fun part =>
      part.form = e.form ∧ part.IsLively ∧ part.GainsAtMost Pet.maxGain := by
  cases e with
  | summonPet => exact ⟨_, .head _, ⟨rfl, nofun, trivial⟩, trivial⟩
  | summonRandomPet => exact ⟨_, .tail _ (.head _), ⟨rfl, nofun, trivial⟩, trivial⟩
  | respawnPet => exact ⟨_, .tail _ (.tail _ (.head _)), ⟨rfl, Int.le_refl 1, trivial⟩, trivial⟩
  | _ => exact absurd h id

theorem Effect.Reviving.heal {e : Effect} (h : e.Reviving) :
    ∃ heal ∈ heals, heal.Every fun part =>
      part.form = e.form ∧ part.IsLively ∧ part.GainsAtMost Pet.maxGain := by
  cases e with
  | modifyStats => exact ⟨_, .head _, ⟨rfl, isLively_healSelf⟩, trivial⟩
  | gainExperience => exact ⟨_, .tail _ (.head _), ⟨rfl, trivial, trivial⟩, trivial⟩
  | evolve => exact ⟨_, .tail _ (.tail _ (.head _)), ⟨rfl, trivial, trivial⟩, trivial⟩
  | _ => exact absurd h id

theorem health_rescuePets (call heal : Effect) (side : Side) :
    ∀ pet ∈ (rescuePets call heal).get side, 1 ≤ pet.health ∧ pet.health ≤ maxHealth := by
  cases side <;> exact of_decide_eq_true rfl

/-! ## Which catalogs keep the capacity -/

/-- Whatever battle is fought over effects of these forms, five pets live in a line at most. -/
def KeepsCapacity (forms : Nat → Prop) : Prop :=
  ∀ (rules : Rules) (teams : Sides Team) (b : Battle), rules.catalog.IsModerate →
    (rules.catalog.Every fun e => forms e.form) → Battle.FitHealth teams → Battle.Sound rules teams b →
    ∀ side, b.arena.board.liveCount side ≤ teamSize

theorem not_keepsCapacity {forms : Nat → Prop} {e e' : Effect} (he : forms e.form)
    (hs : e.Summoning) (he' : forms e'.form) (hr : e'.Reviving) : ¬ KeepsCapacity forms := by
  intro keeps
  obtain ⟨call, hcall, calling⟩ := hs.call
  obtain ⟨heal, hheal, healing⟩ := hr.heal
  have played := six_live_after_rescue call hcall heal hheal
  have moderate : (rescueCatalog call heal).IsModerate :=
    isModerate_rescueCatalog (calling.imp fun _ => And.right) (healing.imp fun _ => And.right)
  have permitted : (rescueCatalog call heal).Every fun part => forms part.form := by
    apply every_rescueCatalog
    · exact calling.imp fun _ hp => hp.1 ▸ he
    · exact healing.imp fun _ hp => hp.1 ▸ he'
  have five := keeps (rescueRules call heal) _ _ moderate permitted (fit_rescueTeams call heal)
    (sound_rescue played.1) .a
  rw [played.2] at five
  exact absurd five (by decide)

theorem keepsCapacity_iff (forms : Nat → Prop) : KeepsCapacity forms ↔
    (∀ e : Effect, forms e.form → ¬ e.Summoning) ∨
      (∀ e : Effect, forms e.form → ¬ e.Reviving) := by
  constructor
  · intro keeps
    by_contra neither
    push Not at neither
    obtain ⟨⟨e, he, hs⟩, e', he', hr⟩ := neither
    exact not_keepsCapacity he hs he' hr keeps
  · rintro (hs | hr) rules teams b hc hp ht hb side
    · have unsummoning := fun ability ho => (hp ability ho).imp hs
      exact liveCount_le_of_unsummoning unsummoning ht hb.reachable side
    · have unreviving := fun ability ho => (hp ability ho).imp hr
      exact liveCount_le_of_unreviving hc.toIsLively unreviving ht hb.reachable side

/-- How many pets live in a line after calls that succeeded, while gains of health keep to the machine
integers. Never more than six; and not more than five exactly if those at the start and those announced
are not more than five and those that fainted. There are five at most where no effect summons or none
revives, and of the forms of effects only these keep to that. -/
theorem capacity_exceeded_by_rescued_pets_only (rules : Rules) (hc : rules.catalog.IsModerate)
    (teams : Sides Team) (ht : Battle.FitHealth teams) (b : Battle) (hb : Battle.Sound rules teams b)
    (side : Side) :
    b.arena.board.liveCount side ≤ teamSize + 1 ∧
    (rules.config.recordEvents = true →
      (b.arena.board.liveCount side ≤ teamSize ↔
        ((Board.ofTeams teams).roster side).length + b.arena.log.told .summoned side ≤
          teamSize + b.arena.log.told .faint side)) ∧
    ((rules.catalog.Every fun e => ¬ e.Summoning) ∨ (rules.catalog.Every fun e => ¬ e.Reviving) →
      b.arena.board.liveCount side ≤ teamSize) ∧
    ∀ forms : Nat → Prop, KeepsCapacity forms ↔
      (∀ e : Effect, forms e.form → ¬ e.Summoning) ∨
        (∀ e : Effect, forms e.form → ¬ e.Reviving) := by
  refine ⟨?_, fun hr => ?_, ?_, keepsCapacity_iff⟩
  · have settling := Battle.settling_of_sound hc ht hb
    rw [settling.liveCount_eq_length side]
    exact settling.crowd side
  · exact liveCount_le_iff_of_sound hr hc ht hb side
  · rintro (hs | hr)
    · exact liveCount_le_of_unsummoning hs ht hb.reachable side
    · exact liveCount_le_of_unreviving hc.toIsLively hr ht hb.reachable side

/-- Six live, as five stood in line, one was summoned and none fainted; where the hippo only heals
itself there are five. -/
theorem capacity_exceeded_by_rescued_pets_only_rescue :
    (rescue callAnt healSelf).2.arena.board.liveCount .a ≤ teamSize + 1 ∧
      ¬ (rescue callAnt healSelf).2.arena.board.liveCount .a ≤ teamSize ∧
      (rescue healSelf healSelf).2.arena.board.liveCount .a ≤ teamSize ∧
      ¬ KeepsCapacity fun _ => True := by
  have running := (six_live_after_rescue callAnt (.head _) healSelf (.head _)).1
  obtain ⟨most, balance, _, keeps⟩ := capacity_exceeded_by_rescued_pets_only
    (rescueRules callAnt healSelf) isModerate_callAnt _ (fit_rescueTeams _ _) _
    (sound_rescue running) .a
  have told : ¬ ((Board.ofTeams (rescueTeams callAnt healSelf)).roster .a).length +
      (rescue callAnt healSelf).2.arena.log.told .summoned .a ≤
        teamSize + (rescue callAnt healSelf).2.arena.log.told .faint .a := by
    decide +kernel
  have healed : (rescue healSelf healSelf).1 = .ok .running := by decide +kernel
  have few := (capacity_exceeded_by_rescued_pets_only (rescueRules healSelf healSelf)
    (isModerate_rescueCatalog ⟨isLively_healSelf, trivial⟩ ⟨isLively_healSelf, trivial⟩) _ (fit_rescueTeams _ _) _
    (sound_rescue healed) .a).2.2.1
  refine ⟨most, mt (balance rfl).1 told, few (.inl ?_), mt (keeps fun _ => True).1 ?_⟩
  · exact every_rescueCatalog ⟨id, trivial⟩ ⟨id, trivial⟩
  · rintro (unsummoning | unreviving)
    · exact unsummoning callAnt trivial trivial
    · exact unreviving healSelf trivial Int.zero_lt_one

/-- The bound of five is not kept, however sound the pets are that the teams are built of. -/
theorem capacity_is_not_kept :
    ¬ ∀ (rules : Rules) (pets : Sides (List Pet)) (b : Battle), rules.catalog.IsLively →
      (∀ side, ∀ pet ∈ pets.get side, 1 ≤ pet.health ∧ pet.health ≤ maxHealth) →
      Battle.Sound rules (pets.map Team.ofPets) b →
      ∀ side, b.arena.board.liveCount side ≤ teamSize := by
  intro capacity
  have played := six_live_after_rescue callAnt (.head _) healSelf (.head _)
  have five := capacity (rescueRules callAnt healSelf) (rescuePets callAnt healSelf)
    (rescue callAnt healSelf).2 isModerate_callAnt.toIsLively (health_rescuePets callAnt healSelf)
    (sound_rescue played.1) .a
  rw [played.2] at five
  exact absurd five (by decide)

end AutoBattler
