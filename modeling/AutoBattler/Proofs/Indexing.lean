import AutoBattler.Proofs.Alike
import AutoBattler.Proofs.Definedness
import AutoBattler.Proofs.Records

/-!
# The trigger index

The index knows of every ability that a catalog defines under which trigger it stands. A pet that
the dispatcher passes over would not have answered, so telling events without the index, to every
pet of the line, comes to the same.
-/
namespace AutoBattler

open Resolve

/-! ## What is registered -/

namespace TriggerIndex

/-- What is registered in the first index is registered in the second. -/
structure Within (index index' : TriggerIndex) : Prop where
  pets : ∀ trigger id, id ∈ (index.listeners trigger).pets → id ∈ (index'.listeners trigger).pets
  statuses : ∀ trigger id, id ∈ (index.listeners trigger).statuses →
    id ∈ (index'.listeners trigger).statuses

variable {index index' index'' : TriggerIndex} {α : Type}

theorem Within.refl (index : TriggerIndex) : index.Within index :=
  ⟨fun _ _ h => h, fun _ _ h => h⟩

theorem Within.trans (h : index.Within index') (h' : index'.Within index'') :
    index.Within index'' :=
  ⟨fun _ _ hm => h'.pets _ _ (h.pets _ _ hm), fun _ _ hm => h'.statuses _ _ (h.statuses _ _ hm)⟩

theorem listeners_update_self (index : TriggerIndex) (trigger : Trigger)
    (f : Listeners → Listeners) :
    (index.update trigger f).listeners trigger = f (index.listeners trigger) := by
  rw [update, listeners, Std.ExtTreeMap.getElem?_insert_self, Option.getD_some]

theorem listeners_update_of_ne {trigger told : Trigger} (h : told ≠ trigger)
    (f : Listeners → Listeners) :
    (index.update trigger f).listeners told = index.listeners told := by
  have hc : compare trigger told ≠ .eq := fun hc => h (Std.LawfulEqCmp.eq_of_compare hc).symm
  rw [update, listeners, Std.ExtTreeMap.getElem?_insert, if_neg hc]
  rfl

theorem within_update (index : TriggerIndex) (trigger : Trigger) {f : Listeners → Listeners}
    (hp : ∀ l id, id ∈ l.pets → id ∈ (f l).pets)
    (hs : ∀ l id, id ∈ l.statuses → id ∈ (f l).statuses) : index.Within (index.update trigger f) := by
  constructor
  · intro told id hm
    by_cases h : told = trigger
    · subst h
      rw [listeners_update_self]
      exact hp _ id hm
    · rwa [listeners_update_of_ne h]
  · intro told id hm
    by_cases h : told = trigger
    · subst h
      rw [listeners_update_self]
      exact hs _ id hm
    · rwa [listeners_update_of_ne h]

theorem within_registerPet (index : TriggerIndex) (trigger : Trigger) (id : PetKindId) :
    index.Within (index.registerPet trigger id) :=
  within_update index trigger (fun _ _ h => Std.ExtTreeMap.mem_insert.2 (.inr h)) fun _ _ h => h

theorem within_registerStatus (index : TriggerIndex) (status : StatusKind) :
    index.Within (index.registerStatus status) :=
  within_update index _ (fun _ _ h => h) fun _ _ h => Std.ExtTreeMap.mem_insert.2 (.inr h)

theorem within_registerFood (index : TriggerIndex) (food : Food) :
    index.Within (index.registerFood food) :=
  within_update index _ (fun _ _ h => h) fun _ _ h => h

section

variable {step : TriggerIndex → α → TriggerIndex} (h : ∀ (index : TriggerIndex) x, index.Within (step index x))
include h

theorem within_foldl (xs : List α) (index : TriggerIndex) : index.Within (xs.foldl step index) := by
  induction xs generalizing index with
  | nil => exact .refl index
  | cons x rest ih => exact (h index x).trans (ih _)

/-- What one of many registers stays registered. -/
theorem within_foldl_of_mem {xs : List α} {x : α} (hx : x ∈ xs) (index : TriggerIndex) :
    ∃ before, (step before x).Within (xs.foldl step index) := by
  induction xs generalizing index with
  | nil => cases hx
  | cons y rest ih =>
    rcases List.mem_cons.1 hx with rfl | hx
    · exact ⟨index, within_foldl h rest _⟩
    · exact ih hx _

end

theorem within_registerKind (index : TriggerIndex) (kind : PetKind) :
    index.Within (index.registerKind kind) :=
  within_foldl (fun index trigger => within_registerPet index trigger kind.id) _ index

theorem mem_registerKind (index : TriggerIndex) {kind : PetKind} {trigger : Trigger}
    (h : trigger ∈ kind.triggers) :
    kind.id ∈ ((index.registerKind kind).listeners trigger).pets := by
  obtain ⟨before, within⟩ := within_foldl_of_mem
    (fun index trigger => within_registerPet index trigger kind.id) h index
  apply within.pets
  rw [registerPet, listeners_update_self]
  exact Std.ExtTreeMap.mem_insert_self

variable {pets : List PetKind} {statuses : List StatusKind} {foods : List Food}

theorem mem_build_of_kind {kind : PetKind} {trigger : Trigger} (hk : kind ∈ pets)
    (ht : trigger ∈ kind.triggers) :
    kind.id ∈ ((build pets statuses foods).listeners trigger).pets := by
  obtain ⟨before, within⟩ := within_foldl_of_mem within_registerKind hk empty
  have later := (within.trans (within_foldl within_registerStatus statuses _)).trans
    (within_foldl within_registerFood foods _)
  exact later.pets _ _ (mem_registerKind before ht)

theorem mem_build_of_status {status : StatusKind} (hs : status ∈ statuses) :
    status.id ∈ ((build pets statuses foods).listeners status.ability.trigger).statuses := by
  obtain ⟨before, within⟩ :=
    within_foldl_of_mem within_registerStatus hs (pets.foldl registerKind empty)
  apply (within.trans (within_foldl within_registerFood foods _)).statuses
  rw [registerStatus, listeners_update_self]
  exact Std.ExtTreeMap.mem_insert_self

/-- All pets that are registered are of the kinds, each for triggers of its kind. -/
def OfKinds (pets : List PetKind) (index : TriggerIndex) : Prop :=
  ∀ trigger id, id ∈ (index.listeners trigger).pets →
    ∃ kind ∈ pets, kind.id = id ∧ trigger ∈ kind.triggers

theorem OfKinds.update (h : index.OfKinds pets) (told : Trigger) {f : Listeners → Listeners}
    (hf : ∀ l id, id ∈ (f l).pets →
      id ∈ l.pets ∨ ∃ kind ∈ pets, kind.id = id ∧ told ∈ kind.triggers) :
    (index.update told f).OfKinds pets := by
  intro trigger id hm
  by_cases ht : trigger = told
  · subst ht
    rw [listeners_update_self] at hm
    exact (hf _ id hm).elim (h trigger id) fun found => found
  · rw [listeners_update_of_ne ht] at hm
    exact h trigger id hm

theorem OfKinds.registerKind (h : index.OfKinds pets) {kind : PetKind} (hk : kind ∈ pets) :
    (index.registerKind kind).OfKinds pets := by
  refine List.foldlRecOn kind.triggers _ h fun index h told ht => h.update told fun l id hm => ?_
  rcases Std.ExtTreeMap.mem_insert.1 hm with same | hm
  · exact .inr ⟨kind, hk, Std.LawfulEqCmp.eq_of_compare same, ht⟩
  · exact .inl hm

theorem ofKinds_build (pets : List PetKind) (statuses : List StatusKind) (foods : List Food) :
    (build pets statuses foods).OfKinds pets := by
  have none : empty.OfKinds pets := by
    intro trigger id hm
    simp [listeners, empty, Listeners.none] at hm
  have kinds := List.foldlRecOn pets registerKind none fun _ h _ hk => h.registerKind hk
  have marked := List.foldlRecOn statuses registerStatus kinds fun _ h _ _ =>
    h.update _ fun _ _ => .inl
  exact List.foldlRecOn foods registerFood marked fun _ h _ _ => h.update _ fun _ _ => .inl

end TriggerIndex

/-! ## Who may answer -/

theorem PetKind.mem_abilities {kind : PetKind} {ability : Ability} :
    ability ∈ kind.abilities ↔ ∃ level, kind.ability level = some ability := by
  constructor
  · intro h
    obtain ⟨_, hm, rfl⟩ := List.mem_filterMap.1 h
    simp only [List.mem_cons, List.not_mem_nil, or_false] at hm
    rcases hm with h1 | h2 | h3
    · exact ⟨1, h1.symm⟩
    · exact ⟨2, h2.symm⟩
    · exact ⟨3, h3.symm⟩
  · rintro ⟨level, h⟩
    exact List.mem_filterMap.2 ⟨_, PetKind.mem_levels h, rfl⟩

theorem PetKind.mem_triggers {kind : PetKind} {level : Nat} {ability : Ability}
    (h : kind.ability level = some ability) : ability.trigger ∈ kind.triggers := by
  have hm : ability ∈ kind.abilities := mem_abilities.2 ⟨level, h⟩
  unfold triggers
  split
  -- A kind that hands abilities on is registered for everything.
  · exact Trigger.mem_all _
  · exact List.mem_map.2 ⟨ability, hm, rfl⟩

theorem Table.mem_inOrder {κ α : Type} [Ord κ] [Std.TransOrd κ] [Std.LawfulEqOrd κ]
    {t : Table κ α} {k : κ} {v : α} (h : t[k]? = some v) : v ∈ t.inOrder :=
  List.mem_map.2 ⟨(k, v), Std.ExtTreeMap.mem_toList_iff_getElem?_eq_some.2 h, rfl⟩

namespace Catalog

variable {c : Catalog} {pet : Pet} {ability : Ability}

theorem levelAbility_of_defined (h : pet.Defined c) : ∃ level, c.levelAbility pet = .ok level := by
  obtain ⟨kind, hk⟩ := petKind_of_mem h.abilityKind
  exact ⟨kind.ability pet.abilityLevel, by rw [levelAbility, hk]; rfl⟩

theorem statusAbility_of_defined (h : pet.Defined c) :
    ∃ status, c.statusAbility pet = .ok status := by
  unfold statusAbility
  cases hs : pet.status with
  | none => exact ⟨none, rfl⟩
  | some id =>
    obtain ⟨status, hk⟩ := status_of_mem (h.status id hs)
    exact ⟨some status.ability, by dsimp only; rw [hk]; rfl⟩

/-- A pet may answer the trigger of the ability that it uses, borrowed or its own. -/
theorem mayReact_of_levelAbility (h : c.levelAbility pet = .ok (some ability)) :
    c.index.mayReact ability.trigger pet = true := by
  obtain ⟨kind, hk, ha⟩ := kind_of_levelAbility h
  have filed := petKind_eq_ok.1 hk
  have registered : pet.abilityKind ∈ (c.index.listeners ability.trigger).pets := by
    rw [c.indexed, c.petsKeyed _ _ filed]
    exact TriggerIndex.mem_build_of_kind (Table.mem_inOrder filed) (PetKind.mem_triggers ha)
  unfold TriggerIndex.mayReact
  rw [Std.ExtTreeMap.mem_iff_contains] at registered
  dsimp only
  rw [registered, Bool.or_true, Bool.true_or]

theorem mayReact_of_statusAbility (h : c.statusAbility pet = .ok (some ability)) :
    c.index.mayReact ability.trigger pet = true := by
  obtain ⟨id, status, hid, hs, rfl⟩ := status_of_statusAbility h
  have filed := status_eq_ok.1 hs
  have registered : id ∈ (c.index.listeners status.ability.trigger).statuses := by
    rw [c.indexed, c.statusesKeyed _ _ filed]
    exact TriggerIndex.mem_build_of_status (Table.mem_inOrder filed)
  unfold TriggerIndex.mayReact
  rw [Std.ExtTreeMap.mem_iff_contains] at registered
  rw [hid]
  dsimp only
  rw [registered, Bool.or_true]

end Catalog

/-! ## Telling events without the index -/

namespace Resolve

variable {rules : Rules} {raise raise' : Raise} {act act' : Act} {event : Event}

/-- The pet as it is, if it is the source of the event or stands in line. -/
def present? (event : Event) (b : Board) (id : PetId) : Option Pet :=
  match b.entrant? id with
  | none => none
  | some entrant =>
    if event.source = some id || b.isInLine entrant.side id then some entrant.pet else none

/-- The walk of an event that asks the index of no pet: all that are present are consulted. -/
def consult (rules : Rules) (raise : Raise) (act : Act) (event : Event) (line : List PetId)
    (consulted : List PetId) : List PetId → Resolve (List PetId)
  | [] => pure consulted.reverse
  | id :: rest => do
    match present? event (← board) id with
    | none => consult rules raise act event line consulted rest
    | some pet =>
      notify rules raise act event line id pet
      consult rules raise act event line (id :: consulted) rest

def consultAll (rules : Rules) (raise : Raise) (act : Act) (event : Event) : Resolve Unit := do
  let line ← look fun s => event.snapshot.getD (s.board.roster event.side)
  let depth ← look (·.nesting)
  let slot ← openRecord ⟨event.trigger, event.side, event.source, [], depth⟩
  let notified ← consult rules raise act event line [] line
  setNotified slot notified

/-- Tells an event as `dispatchIn` does, but to all pets of the line. -/
def consultIn (rules : Rules) : (room : Nat) → Event → Resolve Unit
  | 0, event => fail (.dispatchDepthExceeded event.trigger rules.config.maxDispatchDepth)
  | room + 1, event => do
    countEvent rules.config.maxEvents
    nested (consultAll rules (consultIn rules room) (perform rules (consultIn rules room)) event)

theorem pet?_of_present? {b : Board} {id : PetId} {pet : Pet} (h : present? event b id = some pet) :
    b.pet? id = some pet := by
  unfold present? at h
  split at h
  · cases h
  · rename_i entrant hentrant
    split at h
    · cases h
      exact Board.pet?_of_entrant? hentrant
    · cases h

/-- An event reaches those present that may react according to the index. -/
theorem reached?_eq (b : Board) (id : PetId) : reached? rules event b id =
    (present? event b id).filter (rules.catalog.index.mayReact event.trigger) := by
  unfold reached? present?
  cases b.entrant? id with
  | none => rfl
  | some entrant =>
    dsimp only
    by_cases hpresent : (decide (event.source = some id) || b.isInLine entrant.side id) = true
    · rw [if_pos hpresent, hpresent, Bool.and_true, Option.filter_some]
    · rw [if_neg hpresent, Bool.eq_false_iff.2 hpresent, Bool.and_false]
      rfl

theorem shouldFire_of_ne {ability : Ability} (h : ability.trigger ≠ event.trigger)
    (holder : Holder) (id : PetId) (line : List PetId) :
    shouldFire holder id ability event line = pure false := by
  unfold shouldFire
  rw [if_neg fun hm => h hm.1]

theorem fireLevel_of_ne {ability : Option Ability}
    (h : ∀ a, ability = some a → a.trigger ≠ event.trigger) (id : PetId) (line : List PetId) :
    fireLevel raise act id event line ability = pure () := by
  cases ability with
  | none => rfl
  | some a =>
    unfold fireLevel
    dsimp only
    rw [shouldFire_of_ne (h a rfl)]
    rfl

theorem fireStatus_of_ne {ability : Option Ability}
    (h : ∀ a, ability = some a → a.trigger ≠ event.trigger) (id : PetId) (line : List PetId) :
    fireStatus act id event line ability = pure () := by
  cases ability with
  | none => rfl
  | some a =>
    unfold fireStatus
    dsimp only
    rw [shouldFire_of_ne (h a rfl)]
    rfl

/-- Who may not react according to the index does nothing if all that it refers to is there. -/
theorem notify_of_not_mayReact {pet : Pet} (hd : pet.Defined rules.catalog)
    (h : rules.catalog.index.mayReact event.trigger pet = false) (line : List PetId) (id : PetId) :
    notify rules raise act event line id pet = pure () := by
  obtain ⟨level, hlevel⟩ := Catalog.levelAbility_of_defined hd
  obtain ⟨status, hstatus⟩ := Catalog.statusAbility_of_defined hd
  have silentLevel : ∀ a, level = some a → a.trigger ≠ event.trigger := by
    rintro a rfl ht
    rw [← ht, Catalog.mayReact_of_levelAbility hlevel] at h
    cases h
  have silentStatus : ∀ a, status = some a → a.trigger ≠ event.trigger := by
    rintro a rfl ht
    rw [← ht, Catalog.mayReact_of_statusAbility hstatus] at h
    cases h
  calc notify rules raise act event line id pet
      = (do
          fireLevel raise act id event line level
          fireStatus act id event line status) := by
        unfold notify
        rw [hlevel, hstatus]
        rfl
    _ = pure () := by
        rw [fireLevel_of_ne silentLevel, fireStatus_of_ne silentStatus]
        rfl

/-! ## The same without the index -/

/-- The same in every respect, but for the pets that were reached. -/
def unindexed (c : Catalog) : Likeness where
  logs log log' := log.enabled = log'.enabled ∧ log.headings = log'.headings
  generators := Eq
  board := Board.Defined c
  alone _ := False

theorem loose_unindexed (c : Catalog) : EventLog.Loose (unindexed c).logs where
  openRecord log log' record h := by
    refine ⟨?_, ?_⟩
    · rw [EventLog.enabled_openRecord, EventLog.enabled_openRecord]
      exact h.1
    · rw [EventLog.headings_openRecord_eq, EventLog.headings_openRecord_eq, h.1, h.2]
  left log log' slot ids h := ⟨h.1, (log.headings_setNotified slot ids).trans h.2⟩
  right log log' slot ids h := ⟨h.1, h.2.trans (log'.headings_setNotified slot ids).symm⟩

/-- The scope in which every pet is defined. -/
def definedPets (c : Catalog) : Scope := ⟨fun _ => True, fun _ => True, Pet.Defined c⟩

theorem boardInvariant_definedPets (c : Catalog) :
    BoardInvariant (definedPets c) c (Board.Defined c) :=
  boardInvariant_of_pets fun _ => .rfl

theorem covers_definedPets (c : Catalog) : (definedPets c).Covers c :=
  ⟨fun ability _ => ability.effect.every_true, fun _ _ _ _ => trivial⟩

theorem elementary_unindexed (c : Catalog) :
    Elementary (definedPets c) c (.alike (unindexed c)) (Arena.Alike (unindexed c)) :=
  Arena.Alike.elementary (boardInvariant_definedPets c).toEditInvariant
    (Scope.draws_of_eq _ rfl)

theorem silent_bind {α β : Type} (m : Resolve α) (f : α → Resolve β) :
    silent (m >>= f) = m >>= fun x => silent (f x) := by
  funext s
  unfold silent
  rw [bind_run, bind_run, bind_run]
  generalize m s = r
  obtain ⟨_ | x, t⟩ := r <;> rfl

/-- Both walks lead to arenas that are alike. They list different pets, so the values that they give
are left out. -/
theorem walk_matches_consult
    (ht : Telling (definedPets rules.catalog) rules rules raise raise'
      (.alike (unindexed rules.catalog)) (Arena.Alike (unindexed rules.catalog)))
    (ha : Acts (definedPets rules.catalog) (.alike (unindexed rules.catalog))
      (Arena.Alike (unindexed rules.catalog)) act act') (line reached consulted ids : List PetId) :
    Matches (unindexed rules.catalog) (silent (walk rules raise act event line reached ids))
      (silent (consult rules raise' act' event line consulted ids)) := by
  have h := elementary_unindexed rules.catalog
  induction ids generalizing reached consulted with
  | nil => exact Couples.bind_silent (keeps_pure ()) fun _ _ => keeps_pure ()
  | cons id rest ih =>
    unfold walk consult
    rw [silent_bind, silent_bind]
    refine Yields.bind h.yields_board fun b hb => ?_
    rw [reached?_eq]
    cases hp : present? event b id with
    | none => exact ih reached consulted
    | some pet =>
      have defined := hb id pet (pet?_of_present? hp)
      by_cases hm : rules.catalog.index.mayReact event.trigger pet = true
      · rw [Option.filter_some, if_pos hm]
        dsimp only
        rw [silent_bind, silent_bind]
        have he : (definedPets rules.catalog).events event := trivial
        have answered := keeps_notify h ht (covers_definedPets _).effects rfl ha he line id defined
        exact Couples.bind answered fun _ => ih _ _
      · rw [Option.filter_some, if_neg hm]
        dsimp only
        rw [notify_of_not_mayReact defined (Bool.eq_false_iff.2 hm)]
        exact ih reached (id :: consulted)

/-- By induction on the room for nesting: inside, each tells further events in its own way. -/
theorem dispatch_matches_consult (rules : Rules) (room : Nat) (event : Event) :
    Matches (unindexed rules.catalog) (dispatchIn rules room event) (consultIn rules room event) := by
  have h := elementary_unindexed rules.catalog
  have steps : BoardSteps (definedPets rules.catalog) rules.catalog
      (.alike (unindexed rules.catalog)) (Arena.Alike (unindexed rules.catalog)) :=
    Arena.Alike.boardSteps (boardInvariant_definedPets rules.catalog)
  have covers := covers_definedPets rules.catalog
  induction room generalizing event with
  | zero => exact couples_fail fun _ _ hst => hst
  | succ room ih =>
    have told : Telling (definedPets rules.catalog) rules rules (dispatchIn rules room)
        (consultIn rules room) (.alike (unindexed rules.catalog))
        (Arena.Alike (unindexed rules.catalog)) :=
      steps.telling h rfl (.of_all fun _ => trivial) fun event _ => ih event
    have acts := acts_perform h told covers rfl
    have counted : Matches (unindexed rules.catalog) _ _ :=
      Arena.Alike.countEvent (Nat.le_refl rules.config.maxEvents) (.inl rfl)
    refine Couples.bind counted fun _ => Arena.Alike.nested ?_
    refine keeps_tellLine (fun _ _ h => h.board) (fun _ _ h => h.nesting) fun _ line => ?_
    apply Arena.Alike.logged_of_loose (loose_unindexed _)
    exact walk_matches_consult told acts line [] [] line

end Resolve

/-- On a board of defined pets the index makes no difference to what an event leads to, however deep
it is nested, but for the pets that the records list. -/
theorem index_only_saves_work (rules : Rules) (room : Nat) (event : Event) {s : Arena}
    (h : s.board.Defined rules.catalog) :
    let r := dispatchIn rules room event s
    let r' := consultIn rules room event s
    r.1 = r'.1 ∧ r.2.board = r'.2.board ∧ r.2.random = r'.2.random ∧ r.2.queues = r'.2.queues ∧
      r.2.shop = r'.2.shop ∧ r.2.dispatched = r'.2.dispatched ∧ r.2.nesting = r'.2.nesting ∧
      r.2.log.headings = r'.2.log.headings := by
  have start : s.Alike (unindexed rules.catalog) s :=
    ⟨rfl, rfl, rfl, rfl, ⟨rfl, rfl⟩, rfl, rfl, h⟩
  have ends := (dispatch_matches_consult rules room event).concur start
  obtain ⟨same, alike⟩ := ends.together fun _ => id
  exact ⟨same, alike.board, alike.random, alike.queues, alike.shop, alike.dispatched,
    alike.nesting, alike.log.2⟩

/-- The hippo has knocked an enemy out. The ants behind it are passed over. -/
theorem index_only_saves_work_rescue :
    let rules : Rules := ⟨rescueCatalog callAnt healSelf, { recordEvents := true }⟩
    let s := Arena.open rules.config (.ofTeams (rescueTeams callAnt healSelf)) none
    let event := (Event.battle .knockout .a).withSource ⟨4⟩
    s.board.Defined rules.catalog ∧
      (dispatchIn rules 64 event s).2.board = (consultIn rules 64 event s).2.board ∧
      (dispatchIn rules 64 event s).2.log.headings = (consultIn rules 64 event s).2.log.headings := by
  intro rules s event
  have defined : s.board.Defined rules.catalog := defined_ofTeams defined_rescueTeams
  obtain ⟨_, board, _, _, _, _, _, records⟩ := index_only_saves_work rules 64 event defined
  exact ⟨defined, board, records⟩

end AutoBattler
