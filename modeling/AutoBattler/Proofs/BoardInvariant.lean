import AutoBattler.Proofs.Battles
import AutoBattler.Proofs.ShopTurns

/-!
# Invariants of the board

A property of the board that every change within a scope keeps holds throughout a resolution,
whether it succeeds or fails. The errors are those of the limits and of names that the scope lacks.
-/
namespace AutoBattler

open Resolve

/-- Whether a limit of the configuration was crossed. -/
def EngineError.isLimit : EngineError → Bool
  | dispatchDepthExceeded .. => true
  | eventBudgetExceeded _ => true
  | _ => false

/-- The scope holds the events that a battle tells of its own. -/
structure Fights (S : Scope) : Prop where
  start : ∀ side, S.events (.battle .startOfBattle side)
  told : ∀ event, AttackEvent event → S.events event

theorem Fights.of_all {S : Scope} (h : ∀ event, S.events event) : Fights S :=
  ⟨fun _ => h _, fun event _ => h event⟩

/-- The property is kept by the changes of a pet that tell no event. -/
structure EditInvariant (S : Scope) (c : Catalog) (B : Board → Prop) : Prop where
  known : ∀ b, B b → ∀ id pet, b.pet? id = some pet → S.pets pet
  edit : ∀ b, B b → ∀ f, Edit c S f → ∀ id, B (b.modifyPet id f)

/-- The property is kept by the changes of the board that come with an event or lead to one. -/
structure StepInvariant (S : Scope) (c : Catalog) (B : Board → Prop) : Prop where
  gainPoint : ∀ b, B b → ∀ amount target, S.effects (.gainExperience amount target) → 0 < amount →
    ∀ id, B (b.modifyPet id Pet.gainPoint)
  promote : ∀ b, B b → ∀ id level, B (b.modifyPet id (Pet.promote level))
  damage : ∀ b, B b → ∀ amount id, B (b.modifyPet id (Pet.takeDamage amount))
  arrive : ∀ b, B b → ∀ side pet id b', Newcomer c S pet → b.Arrives side pet id b' → B b'
  exchange : ∀ b, B b → ∀ into kind, S.effects (.evolve into) → c.petKind into = .ok kind →
    ∀ id side new b', b.Exchanges id side (.ofKind kind) new b' → B b'
  leave : ∀ b, B b → ∀ id side b', b.Leaves id side b' → B b'

structure BoardInvariant (S : Scope) (c : Catalog) (B : Board → Prop) : Prop
    extends EditInvariant S c B, StepInvariant S c B

namespace BoardInvariant

variable {S : Scope} {c : Catalog} {rules : Rules} {B : Board → Prop} {event : Event}
  {E : EngineError → Arena → Prop}

/-- The errors that may occur, each on a board with the property. -/
def failed (S : Scope) (c : Catalog) (B : Board → Prop) (e : EngineError) (s : Arena) : Prop :=
  (e.isLimit = true ∨ Missing c S e) ∧ B s.board

def holds (B : Board → Prop) (s : Arena) : Prop := B s.board

theorem elementary (h : EditInvariant S c B) (hE : ∀ e s, Missing c S e → B s.board → E e s) :
    Elementary S c (.same E) (Same (holds B)) :=
  elementary_of_congr (fun s hs => h.known s.board hs)
    (fun _ _ hs _ _ _ hb => (congrArg B hb).mpr hs)
    (fun s hs f hf id => h.edit s.board hs f hf id) fun e he s hs => hE e s he hs

theorem elementary_failed (h : BoardInvariant S c B) :
    Elementary S c (.same (failed S c B)) (Same (holds B)) :=
  elementary h.toEditInvariant fun _ _ he hs => ⟨.inr he, hs⟩

theorem boardSteps (h : BoardInvariant S c B) : BoardSteps S c (.same E) (Same (holds B)) where
  gainPoint amount target hg hpos id :=
    Triple.intro fun s hs => h.gainPoint s.board hs amount target hg hpos id
  promote id level := Triple.intro fun s hs => h.promote s.board hs id level
  damage amount id := Triple.intro fun s hs => h.damage s.board hs amount id
  spawn pet hp side :=
    triple_spawn fun s hs id b ha => h.arrive s.board hs side pet id b hp ha
  replace into kind hi hk id :=
    triple_replace fun s hs side new b he => h.exchange s.board hs into kind hi hk id side new b he
  remove id := triple_remove fun s hs side b hl => h.leave s.board hs id side b hl

theorem guarding (rules : Rules) (hl : ∀ e s, e.isLimit = true → B s.board → E e s)
    (hn : ∀ e s k, E e s → E e { s with nesting := k }) :
    Guarding rules rules (.same E) (Same (holds B)) where
  refuse := by
    rintro trigger s t ⟨rfl, hs⟩
    exact .error ⟨rfl, hl _ s rfl hs⟩
  count := by
    apply Triple.intro
    intro s hs
    unfold countEvent
    split
    · exact hs
    · exact hl _ _ rfl hs
  nested m n hm := couples_nested hm (fun _ hs => hs) (fun e s he => hn e s _ he) fun _ _ hs => hs
  depth := by
    rintro s t ⟨rfl, _⟩
    rfl
  record _ := Triple.intro fun _ hs => hs
  notified slot _ := by
    cases slot with
    | none => exact keeps_pure ()
    | some slot => exact Triple.intro fun _ hs => hs

theorem guarding_failed (S : Scope) (c : Catalog) (B : Board → Prop) (rules : Rules) :
    Guarding rules rules (.same (failed S c B)) (Same (holds B)) :=
  guarding rules (fun _ _ hl hs => ⟨.inl hl, hs⟩) fun _ _ _ he => he

/-- Every change keeps a board well formed. -/
theorem wellFormed (h : BoardInvariant S c B) :
    BoardInvariant S c fun b => b.WellFormed ∧ B b where
  known b hb := h.known b hb.2
  edit b hb f hf id := ⟨hb.1.modifyPet id f, h.edit b hb.2 f hf id⟩
  gainPoint b hb amount target hg hpos id :=
    ⟨hb.1.modifyPet id _, h.gainPoint b hb.2 amount target hg hpos id⟩
  promote b hb id level := ⟨hb.1.modifyPet id _, h.promote b hb.2 id level⟩
  damage b hb amount id := ⟨hb.1.modifyPet id _, h.damage b hb.2 amount id⟩
  arrive b hb side pet id b' hp ha := ⟨ha.wellFormed hb.1, h.arrive b hb.2 side pet id b' hp ha⟩
  exchange b hb into kind hi hk id side new b' he :=
    ⟨he.wellFormed hb.1, h.exchange b hb.2 into kind hi hk id side new b' he⟩
  leave b hb id side b' hl := ⟨hl.wellFormed hb.1, h.leave b hb.2 id side b' hl⟩

/-! ## Whole resolutions -/

theorem dispatchIn (h : BoardInvariant S rules.catalog B) (hS : S.Covers rules.catalog)
    (hC : Closed S) (room : Nat) (he : S.events event) :
    Triple (failed S rules.catalog B) (holds B) (dispatchIn rules room event) fun _ => holds B :=
  keeps_dispatchIn h.elementary_failed h.boardSteps (guarding_failed ..) hS hC rfl room he

/-- Performing with so much room for nesting. -/
theorem performIn (h : BoardInvariant S rules.catalog B) (hS : S.Covers rules.catalog)
    (hC : Closed S) (room : Nat) (he : S.events event) (actor : Option PetId) {effect : Effect}
    (hs : effect.Every S.effects) :
    Triple (failed S rules.catalog B) (holds B)
      (Resolve.perform rules (Resolve.dispatchIn rules room) event actor effect) fun _ => holds B := by
  have told : Telling S rules rules (Resolve.dispatchIn rules room) (Resolve.dispatchIn rules room)
      (.same (failed S rules.catalog B)) (Same (holds B)) :=
    h.boardSteps.telling h.elementary_failed rfl hC fun event he => h.dispatchIn hS hC _ he
  exact keeps_perform h.elementary_failed told.toActing hS rfl event he actor effect hs

theorem perform (h : BoardInvariant S rules.catalog B) (hS : S.Covers rules.catalog)
    (hC : Closed S) (he : S.events event) (actor : Option PetId) {effect : Effect}
    (hs : effect.Every S.effects) :
    Triple (failed S rules.catalog B) (holds B)
      (perform rules (dispatch rules) event actor effect) fun _ => holds B :=
  h.performIn hS hC _ he actor hs

theorem playsPairs (h : BoardInvariant S rules.catalog B) (hS : S.Covers rules.catalog)
    (hC : Closed S) (hF : Fights S) :
    PlaysPairs rules (failed S rules.catalog B) (holds B) := by
  intro attacks _
  exact keeps_playAttacks h.elementary_failed rfl h.boardSteps.damage h.boardSteps.remove
    (fun event ht => h.dispatchIn hS hC _ (hF.told event ht)) attacks

theorem opening (h : BoardInvariant S rules.catalog B) (hS : S.Covers rules.catalog)
    (hC : Closed S) (hF : Fights S) :
    Triple (failed S rules.catalog B) (holds B) (Battle.opening (procedures rules))
      fun _ => holds B :=
  Battle.keeps_opening (h.playsPairs hS hC hF) (fun _ hs => hs) fun side =>
    h.dispatchIn hS hC _ (hF.start side)

theorem attackCycle (h : BoardInvariant S rules.catalog B) (hS : S.Covers rules.catalog)
    (hC : Closed S) (hF : Fights S) :
    Triple (failed S rules.catalog B) (holds B) (attackCycle rules (procedures rules))
      fun _ => holds B :=
  keeps_attackCycle (h.playsPairs hS hC hF) fun _ hs => hs

theorem of_reachable (h : BoardInvariant S rules.catalog B) (hS : S.Covers rules.catalog)
    (hC : Closed S) (hF : Fights S) {teams : Sides Team} (hnew : B (.ofTeams teams)) {b : Battle}
    (hb : Battle.Reachable rules teams b) : B b.arena.board :=
  hb.induct (h.opening hS hC hF) (h.attackCycle hS hC hF) hnew fun _ _ he => he.2

theorem error_of_ends {α : Type} {r : Except EngineError α × Battle}
    (h : Battle.Ends (failed S c B) (holds B) r) {e : EngineError} (he : r.1 = .error e) :
    e.isLimit = true ∨ Missing c S e := by
  obtain ⟨r, b⟩ := r
  cases he
  exact h.1

/-- No call of a battle fails but at a limit or for a name that the scope lacks. -/
theorem battle_error (h : BoardInvariant S rules.catalog B) (hS : S.Covers rules.catalog)
    (hC : Closed S) (hF : Fights S) {teams : Sides Team} (hnew : B (.ofTeams teams)) {b : Battle}
    (hb : Battle.Reachable rules teams b) {e : EngineError}
    (he : (b.start rules).1 = .error e ∨ (b.step rules).1 = .error e ∨ b.run rules = .error e) :
    e.isLimit = true ∨ Missing rules.catalog S e := by
  have opens := h.opening hS hC hF
  have cycles := h.attackCycle hS hC hF
  have steps {b : Battle} (hb : Battle.Reachable rules teams b) :=
    Battle.ends_step opens cycles (h.of_reachable hS hC hF hnew hb)
  rcases he with he | he | he
  · exact error_of_ends (Battle.ends_start opens (h.of_reachable hS hC hF hnew hb)) he
  · exact error_of_ends (steps hb) he
  · unfold Battle.run at he
    generalize hr : b.finishFrom rules = r at he
    obtain ⟨r, b'⟩ := r
    cases he
    obtain ⟨b₁, hb₁, hstep⟩ := Battle.error_of_finishFrom hb hr
    exact error_of_ends (steps hb₁) (by rw [hstep])

/-! ## Shop turns -/

theorem turnSteps (h : BoardInvariant S rules.catalog B) (hS : S.Covers rules.catalog)
    (hC : Closed S) (he : ∀ event, event.isBattle = false → S.events event)
    (hB : ∀ b, B b → b.WellFormed) :
    PurchasePhase.TurnSteps rules (fun _ => True) (failed S rules.catalog B) (holds B) where
  tell event ht _ := h.dispatchIn hS hC _ (he event ht.peaceful)
  perform event ht _ _ hf :=
    h.perform hS hC (he event ht.peaceful) none (hS.effects _ (offers_food hf))
  remove id := h.boardSteps.remove id
  stored s hs _ hm := (hB s.board hs).pet?_of_mem hm
  pay _ _ hs := hs

/-- A call of a shop turn keeps the property, and a valid one fails like a resolution. -/
theorem call (h : BoardInvariant S rules.catalog B) (hS : S.Covers rules.catalog)
    (hC : Closed S) (he : ∀ event, event.isBattle = false → S.events event)
    (hB : ∀ b, B b → b.WellFormed) {p : PurchasePhase} (hp : B p.arena.board)
    (c : PurchasePhase.Call)
    (hplace : c.Brings fun pet => ∀ b id b', B b → b.Arrives .a pet id b' → B b') :
    B (p.call rules c).2.arena.board ∧ (c.Valid rules.catalog p.arena →
      ∀ e, (p.call rules c).1 = .error e → e.isLimit = true ∨ Missing rules.catalog S e) := by
  let E (e : EngineError) (s : Arena) : Prop :=
    (c.Valid rules.catalog p.arena → e.isLimit = true ∨ Missing rules.catalog S e) ∧ B s.board
  have weaker : ∀ e s, failed S rules.catalog B e s → E e s := fun e s he => ⟨fun _ => he.1, he.2⟩
  have steps := h.turnSteps hS hC he hB
  have steps' : PurchasePhase.TurnSteps rules (fun _ => True) E (holds B) := {
    tell := fun event hp ht => (steps.tell event hp ht).weaken weaker (fun _ hs => hs) fun _ _ hs => hs
    perform := fun event hp id food hf =>
      (steps.perform event hp id food hf).weaken weaker (fun _ hs => hs) fun _ _ hs => hs
    remove := fun id => (steps.remove id).weaken weaker (fun _ hs => hs) fun _ _ hs => hs
    stored := steps.stored
    pay := steps.pay }
  have spawned : c.Brings fun pet =>
      ∀ placement, Triple E (holds B) (spawn .a pet placement) fun _ => holds B := by
    cases c with
    | placePet pet index tierOne afterLoss =>
      exact triple_spawn fun s hs id b ha => hplace s.board id b hs ha
    | _ => trivial
  have invalid : ∀ s, s = p.arena ∧ holds B s → ¬ c.Valid rules.catalog s → ∀ e, E e s := by
    rintro s ⟨rfl, hs⟩ hi e
    exact ⟨fun hv => absurd hv hi, hs⟩
  have triple := PurchasePhase.Call.triple steps' (fun s hs => hs.2) c (fun _ _ => trivial) spawned invalid
  have ends := triple_iff.1 triple p.arena ⟨rfl, hp⟩
  obtain ⟨hresult, harena⟩ := PurchasePhase.call_eq rules p c
  rw [hresult, harena]
  generalize c.resolve rules (procedures rules) p.arena = r at ends
  obtain ⟨r, s⟩ := r
  cases r with
  | ok x => exact ⟨ends, fun _ e he => by cases he⟩
  | error e =>
    refine ⟨ends.2, fun hv e' he => ?_⟩
    cases he
    exact ends.1 hv

end BoardInvariant

/-! ## Boards stay well formed -/

theorem boardInvariant_trivial {S : Scope} {B : Board → Prop} (c : Catalog) (hS : ∀ p, S.pets p)
    (hB : ∀ b, B b) : BoardInvariant S c B :=
  ⟨⟨fun _ _ _ _ _ => hS _, fun _ _ _ _ _ => hB _⟩,
    ⟨fun _ _ _ _ _ _ _ => hB _, fun _ _ _ _ => hB _, fun _ _ _ _ => hB _,
      fun _ _ _ _ _ _ _ _ => hB _, fun _ _ _ _ _ _ _ _ _ _ _ => hB _, fun _ _ _ _ _ _ => hB _⟩⟩

theorem boardInvariant_true (c : Catalog) : BoardInvariant Scope.all c fun _ => True :=
  boardInvariant_trivial c (fun _ => trivial) fun _ => trivial

theorem boardInvariant_wellFormed {S : Scope} (c : Catalog) (hS : ∀ p, S.pets p) :
    BoardInvariant S c Board.WellFormed where
  known _ _ _ _ _ := hS _
  edit _ hb f _ id := hb.modifyPet id f
  gainPoint _ hb _ _ _ _ id := hb.modifyPet id _
  promote _ hb id _ := hb.modifyPet id _
  damage _ hb _ id := hb.modifyPet id _
  arrive _ hb _ _ _ _ _ ha := ha.wellFormed hb
  exchange _ hb _ _ _ _ _ _ _ _ he := he.wellFormed hb
  leave _ hb _ _ _ hl := hl.wellFormed hb

theorem Battle.wellFormed_of_reachable {rules : Rules} {teams : Sides Team} {b : Battle}
    (h : Reachable rules teams b) : b.arena.board.WellFormed :=
  (boardInvariant_wellFormed rules.catalog fun _ => trivial).of_reachable (Scope.covers_all _)
    (.of_all fun _ => trivial) (.of_all fun _ => trivial) (Board.wellFormed_ofTeams teams) h

theorem PurchasePhase.wellFormed_of_reachable {rules : Rules} {team : Team} {shop : Shop}
    {admitted : Pet → Prop} {p : PurchasePhase} (h : Reachable rules team shop admitted p) :
    p.arena.board.WellFormed := by
  have invariant := boardInvariant_wellFormed rules.catalog (S := .all) fun _ => trivial
  induction h with
  | new => exact Board.wellFormed_ofTeam team
  | call _ c hc ih =>
    refine (invariant.call (Scope.covers_all _) (.of_all fun _ => trivial) (fun _ _ => trivial)
      (fun _ hb => hb) ih c (hc.imp fun pet _ b id b' hb ha => ?_)).1
    exact ha.wellFormed hb

end AutoBattler
