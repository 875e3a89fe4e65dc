import AutoBattler.Proofs.BoardInvariant
import AutoBattler.Proofs.Rescue

/-!
# Closed catalogs

A catalog is closed if it has every kind and status that an effect of it names, and a kind in every
tier that is summoned from. Over a closed catalog pets stay defined: their own kind, the kind they
borrow from and their status are in the catalog. So no look-up fails.
-/
namespace AutoBattler

open Resolve

/-- The effect itself names only what the catalog has. -/
def Effect.IsKnown (c : Catalog) : Effect → Prop
  | summonPet kind .. => kind ∈ c.pets
  | evolve into => into ∈ c.pets
  | applyStatus status _ => status ∈ c.statuses
  | summonRandomPet tier .. => c.kindsInTier tier ≠ []
  | _ => True

def Catalog.IsClosed (c : Catalog) : Prop := c.Every (Effect.IsKnown c)

/-- The catalog has all that the pet refers to. -/
structure Pet.Defined (c : Catalog) (p : Pet) : Prop where
  kind : p.kind ∈ c.pets
  borrowed : ∀ b, p.borrowed = some b → b.kind ∈ c.pets
  status : ∀ id, p.status = some id → id ∈ c.statuses

variable {c : Catalog} {rules : Rules} {p q donor : Pet}

/-! ## Look-ups -/

theorem Catalog.petKind_of_mem {id : PetKindId} (h : id ∈ c.pets) :
    ∃ kind, c.petKind id = .ok kind := by
  rw [Std.ExtTreeMap.mem_iff_isSome_getElem?] at h
  obtain ⟨kind, hk⟩ := Option.isSome_iff_exists.1 h
  exact ⟨kind, petKind_eq_ok.2 hk⟩

theorem Catalog.status_of_mem {id : StatusId} (h : id ∈ c.statuses) :
    ∃ status, c.status id = .ok status := by
  rw [Std.ExtTreeMap.mem_iff_isSome_getElem?] at h
  obtain ⟨status, hs⟩ := Option.isSome_iff_exists.1 h
  exact ⟨status, status_eq_ok.2 hs⟩

/-- A kind that was found stands in the catalog under its own name. -/
theorem Catalog.mem_of_petKind {id : PetKindId} {kind : PetKind} (h : c.petKind id = .ok kind) :
    kind.id ∈ c.pets := by
  have hk := petKind_eq_ok.1 h
  rw [← c.petsKeyed _ _ hk, Std.ExtTreeMap.mem_iff_isSome_getElem?, hk]
  rfl

theorem Catalog.mem_of_status {id : StatusId} {status : StatusKind} (h : c.status id = .ok status) :
    id ∈ c.statuses := by
  rw [Std.ExtTreeMap.mem_iff_isSome_getElem?, status_eq_ok.1 h]
  rfl

theorem Catalog.mem_of_kindsInTier {tier : Nat} {kind : PetKind} (h : kind ∈ c.kindsInTier tier) :
    kind.id ∈ c.pets := by
  have hm : kind ∈ c.pets.toList.map (·.2) := (List.mem_filter.1 h).1
  obtain ⟨⟨id, found⟩, hmem, rfl⟩ := List.mem_map.1 hm
  have hget := Std.ExtTreeMap.mem_toList_iff_getElem?_eq_some.1 hmem
  rw [← c.petsKeyed _ _ hget, Std.ExtTreeMap.mem_iff_isSome_getElem?, hget]
  rfl

/-! ## Defined pets -/

theorem Pet.Defined.abilityKind (h : p.Defined c) : p.abilityKind ∈ c.pets := by
  unfold Pet.abilityKind
  split
  · rename_i b hb
    exact h.borrowed b hb
  · exact h.kind

/-- Only the kind, the borrowed ability and the status count. -/
theorem Pet.Defined.congr (h : p.Defined c) (hk : q.kind = p.kind) (hb : q.borrowed = p.borrowed)
    (hs : q.status = p.status) : q.Defined c where
  kind := hk ▸ h.kind
  borrowed := hb ▸ h.borrowed
  status := hs ▸ h.status

theorem Pet.Defined.setStatus (h : p.Defined c) {status : Option StatusId}
    (hs : ∀ id, status = some id → id ∈ c.statuses) : (p.setStatus status).Defined c :=
  ⟨h.kind, h.borrowed, hs⟩

theorem Pet.Defined.borrow (h : p.Defined c) (hd : donor.Defined c) (level : Nat) :
    (p.borrow donor.abilityKind level).Defined c where
  kind := h.kind
  borrowed := by
    rintro b hb
    cases hb
    exact hd.abilityKind
  status := h.status

theorem Pet.Defined.copyStats (h : p.Defined c) (copyAttack copyHealth : Bool) :
    (copyStats donor copyAttack copyHealth p).Defined c := by
  unfold Resolve.copyStats
  cases copyAttack <;> cases copyHealth <;> exact h.congr rfl rfl rfl

theorem Pet.Defined.gainPoint (h : p.Defined c) : p.gainPoint.Defined c := by
  unfold Pet.gainPoint
  split
  · exact h
  · exact h.congr rfl rfl rfl

theorem Pet.defined_ofKind {kind : PetKind} (h : kind.id ∈ c.pets) :
    (Pet.ofKind kind).Defined c where
  kind := h
  borrowed b hb := by cases hb
  status id hs := by cases hs

theorem Summons.defined_pet (request : Summons) {kind : PetKind} (h : kind.id ∈ c.pets) :
    (request.pet kind).Defined c := by
  have hk := Pet.defined_ofKind h
  unfold Summons.pet
  cases request.level <;> cases request.attack <;> cases request.health <;>
    exact hk.congr rfl rfl rfl

/-! ## Changes keep pets defined -/

section

variable {S : Scope}

theorem defined_edit (hS : ∀ p, S.pets p → p.Defined c) {f : Pet → Pet} (hf : Edit c S f)
    (h : p.Defined c) : (f p).Defined c := by
  cases hf with
  | buff _ => exact h.congr rfl rfl rfl
  | status _ hk =>
    refine h.setStatus ?_
    rintro id hid
    cases hid
    exact Catalog.mem_of_status hk
  | reduce _ => exact h.congr rfl rfl rfl
  | copy _ _ => exact h.copyStats _ _
  | borrow _ hd => exact h.borrow (hS _ hd) _
  | useUp => exact h.setStatus fun id hid => by cases hid
  | bump _ => exact h.congr rfl rfl rfl

theorem defined_newcomer (h : Newcomer c S p) : p.Defined c := by
  cases h with
  | plain _ hk => exact Summons.defined_pet _ (Catalog.mem_of_petKind hk)
  | inheriting _ hk _ =>
    exact (Summons.defined_pet _ (Catalog.mem_of_petKind hk)).congr rfl rfl rfl

end

/-! ## The scope of a closed catalog -/

def closedScope (c : Catalog) : Scope := ⟨fun _ => True, Effect.IsKnown c, Pet.Defined c⟩

theorem covers_closedScope (h : c.IsClosed) : (closedScope c).Covers c := ⟨h, fun _ _ _ _ => trivial⟩

theorem mem_of_asked {request : Summons} (h : Asked c (closedScope c) request) :
    request.kind ∈ c.pets := by
  cases h with
  | named h => exact h
  | random _ hk => exact Catalog.mem_of_kindsInTier hk
  | again _ hp => exact hp.kind

/-- No look-up fails. -/
theorem not_missing {e : EngineError} : ¬ Missing c (closedScope c) e := by
  have kind {id : PetKindId} (h : id ∈ c.pets) (he : c.petKind id = .error e) : False := by
    obtain ⟨kind, hk⟩ := Catalog.petKind_of_mem h
    rw [hk] at he
    cases he
  have status {id : StatusId} (h : id ∈ c.statuses) (he : c.status id = .error e) : False := by
    obtain ⟨status, hs⟩ := Catalog.status_of_mem h
    rw [hs] at he
    cases he
  intro h
  cases h with
  | summoned h he => exact kind (mem_of_asked h) he
  | evolved h he => exact kind h he
  | applied h he => exact status h he
  | abilityKind h he => exact kind h.abilityKind he
  | status h hs he => exact status (h.status _ hs) he
  | emptyTier h ht => exact h ht

/-! ## Boards of defined pets -/

def Board.Defined (c : Catalog) (b : Board) : Prop := ∀ id pet, b.pet? id = some pet → pet.Defined c

/-- Whatever effects do, names are looked up before they are given to a pet. -/
theorem boardInvariant_of_pets {S : Scope} (hS : ∀ p, S.pets p ↔ p.Defined c) :
    BoardInvariant S c (Board.Defined c) where
  known _ hb id pet hpet := (hS pet).2 (hb id pet hpet)
  edit _ hb _ hf id := Board.AllPets.modifyPet hb id fun _ hp => defined_edit (fun q => (hS q).1) hf hp
  gainPoint _ hb _ _ _ _ id := Board.AllPets.modifyPet hb id fun _ hp => hp.gainPoint
  promote _ hb id _ := Board.AllPets.modifyPet hb id fun _ hp => hp.congr rfl rfl rfl
  damage _ hb _ id := Board.AllPets.modifyPet hb id fun _ hp => hp.congr rfl rfl rfl
  arrive _ hb _ _ _ _ hp ha := Board.AllPets.stores hb ha.toStores (defined_newcomer hp)
  exchange _ hb _ _ _ hk _ _ _ _ he :=
    Board.AllPets.stores hb he.toStores (Pet.defined_ofKind (Catalog.mem_of_petKind hk))
  leave _ hb _ _ _ hl := Board.AllPets.leave hb hl

theorem boardInvariant_defined (c : Catalog) :
    BoardInvariant (closedScope c) c (Board.Defined c) := boardInvariant_of_pets fun _ => Iff.rfl

/-! ## Battles and shop turns -/

theorem defined_ofTeams {teams : Sides Team}
    (h : ∀ side, ∀ pet ∈ (teams.get side).pets, pet.Defined c) :
    (Board.ofTeams teams).Defined c := by
  have copies : ∀ side, ∀ pet ∈ (teams.get side).pets.map Pet.battleCopy, pet.Defined c := by
    intro side pet hm
    obtain ⟨old, hold, rfl⟩ := List.mem_map.1 hm
    exact (h side old hold).congr rfl rfl rfl
  exact ((Board.allPets_empty _).enlist .a (copies .a)).enlist .b (copies .b)

/-- A call that places no undefined pet keeps the board defined. -/
theorem closed_call (hc : rules.catalog.IsClosed) {p : PurchasePhase}
    (hp : p.arena.board.WellFormed ∧ p.arena.board.Defined rules.catalog)
    (call : PurchasePhase.Call) (hb : call.Brings (Pet.Defined rules.catalog)) :
    ((p.call rules call).2.arena.board.WellFormed ∧
      (p.call rules call).2.arena.board.Defined rules.catalog) ∧
    (call.Valid rules.catalog p.arena → ∀ e, (p.call rules call).1 = .error e →
      e.isLimit = true) := by
  have placed : call.Brings fun pet => ∀ (b : Board) id b',
      b.WellFormed ∧ b.Defined rules.catalog → b.Arrives .a pet id b' →
      b'.WellFormed ∧ b'.Defined rules.catalog := by
    cases call with
    | placePet pet index tierOne afterLoss =>
      intro b id b' h ha
      exact ⟨ha.wellFormed h.1, Board.AllPets.stores h.2 ha.toStores hb⟩
    | _ => trivial
  have kept := (boardInvariant_defined rules.catalog).wellFormed.call (covers_closedScope hc)
    (.of_all fun _ => trivial) (fun _ _ => trivial) (fun _ h => h.1) hp call placed
  exact ⟨kept.1, fun hv e he => (kept.2 hv e he).resolve_right not_missing⟩

theorem defined_phase {team : Team} {shop : Shop} (hc : rules.catalog.IsClosed)
    (ht : ∀ pet ∈ team.pets, pet.Defined rules.catalog) {p : PurchasePhase}
    (h : PurchasePhase.Reachable rules team shop (Pet.Defined rules.catalog) p) :
    p.arena.board.WellFormed ∧ p.arena.board.Defined rules.catalog := by
  induction h with
  | new => exact ⟨Board.wellFormed_ofTeam team, (Board.allPets_empty _).enlist .a ht⟩
  | call _ call hb ih => exact (closed_call hc ih call hb).1

/-- Over a closed catalog, with defined pets, only the limits make a call fail: every call of every
battle, and every call of a shop turn that refers to pets and foods that are there. -/
theorem closed_catalog_fails_only_at_limits (rules : Rules) (hc : rules.catalog.IsClosed) :
    (∀ teams : Sides Team,
      (∀ side, ∀ pet ∈ (teams.get side).pets, pet.Defined rules.catalog) →
      ∀ b, Battle.Reachable rules teams b → ∀ e,
        (b.start rules).1 = .error e ∨ (b.step rules).1 = .error e ∨ b.run rules = .error e →
        e.isLimit = true) ∧
    (∀ (team : Team) (shop : Shop), (∀ pet ∈ team.pets, pet.Defined rules.catalog) →
      ∀ p, PurchasePhase.Reachable rules team shop (Pet.Defined rules.catalog) p →
      ∀ call : PurchasePhase.Call, call.Brings (Pet.Defined rules.catalog) →
        call.Valid rules.catalog p.arena → ∀ e, (p.call rules call).1 = .error e →
        e.isLimit = true) := by
  constructor
  · intro teams ht b hb e he
    have failed := (boardInvariant_defined rules.catalog).battle_error (covers_closedScope hc)
      (.of_all fun _ => trivial) (.of_all fun _ => trivial) (defined_ofTeams ht) hb he
    exact failed.resolve_right not_missing
  · intro team shop ht p hp call hb hv e he
    exact (closed_call hc (defined_phase hc ht hp) call hb).2 hv e he

theorem mem_rescueCatalog :
    ⟨"pet-hippo"⟩ ∈ (rescueCatalog callAnt healSelf).pets ∧
      ⟨"pet-ant"⟩ ∈ (rescueCatalog callAnt healSelf).pets ∧
      ⟨"status-spirit"⟩ ∈ (rescueCatalog callAnt healSelf).statuses := by
  decide +kernel

theorem isClosed_rescueCatalog : (rescueCatalog callAnt healSelf).IsClosed :=
  every_rescueCatalog ⟨mem_rescueCatalog.2.1, trivial⟩ ⟨trivial, trivial⟩

theorem defined_rescueTeams (side : Side) :
    ∀ pet ∈ ((rescueTeams callAnt healSelf).get side).pets,
      pet.Defined (rescueCatalog callAnt healSelf) := by
  have plain : ∀ pet ∈ ((rescueTeams callAnt healSelf).get side).pets,
      (pet.kind = ⟨"pet-hippo"⟩ ∨ pet.kind = ⟨"pet-ant"⟩) ∧ pet.borrowed = none ∧
        (pet.status = none ∨ pet.status = some ⟨"status-spirit"⟩) := by
    cases side <;> decide
  intro pet hm
  obtain ⟨hkind, hborrowed, hstatus⟩ := plain pet hm
  refine ⟨?_, fun b hb => ?_, fun id hs => ?_⟩
  · rcases hkind with hk | hk <;> rw [hk]
    · exact mem_rescueCatalog.1
    · exact mem_rescueCatalog.2.1
  · rw [hborrowed] at hb
    cases hb
  · rcases hstatus with hn | hn <;> rw [hn] at hs <;> cases hs
    exact mem_rescueCatalog.2.2

/-- With room for two events the hippo's line fails in its first exchange, and with room for none
its player cannot sell a pet. -/
theorem closed_catalog_fails_only_at_limits_rescue :
    (((Battle.ofTeams { maxEvents := 2 } (rescueTeams callAnt healSelf)).step
        ⟨rescueCatalog callAnt healSelf, { maxEvents := 2 }⟩).1 = .error (.eventBudgetExceeded 2) ∧
      (EngineError.eventBudgetExceeded 2).isLimit = true) ∧
    (((PurchasePhase.ofTeam { maxEvents := 0 } ((rescueTeams callAnt healSelf).get .a)
        (.ofGold 10)).call ⟨rescueCatalog callAnt healSelf, { maxEvents := 0 }⟩ (.sell 4)).1 =
        .error (.eventBudgetExceeded 0) ∧
      (EngineError.eventBudgetExceeded 0).isLimit = true) := by
  constructor
  · have fails : ((Battle.ofTeams { maxEvents := 2 } (rescueTeams callAnt healSelf)).step
        ⟨rescueCatalog callAnt healSelf, { maxEvents := 2 }⟩).1 = .error (.eventBudgetExceeded 2) := by
      decide +kernel
    have limits := (closed_catalog_fails_only_at_limits
      ⟨rescueCatalog callAnt healSelf, { maxEvents := 2 }⟩ isClosed_rescueCatalog).1
    exact ⟨fails, limits _ defined_rescueTeams _ .new _ (.inr (.inl fails))⟩
  · have fails : ((PurchasePhase.ofTeam { maxEvents := 0 } ((rescueTeams callAnt healSelf).get .a)
        (.ofGold 10)).call ⟨rescueCatalog callAnt healSelf, { maxEvents := 0 }⟩ (.sell 4)).1 =
        .error (.eventBudgetExceeded 0) := by
      decide +kernel
    have limits := (closed_catalog_fails_only_at_limits
      ⟨rescueCatalog callAnt healSelf, { maxEvents := 0 }⟩ isClosed_rescueCatalog).2
    have valid : 4 < ((Board.ofTeam ((rescueTeams callAnt healSelf).get .a)).roster .a).length := by
      decide
    exact ⟨fails, limits _ _ (defined_rescueTeams .a) _ .new (.sell 4) trivial valid _ fails⟩

end AutoBattler
