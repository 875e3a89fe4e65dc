import AutoBattler.Proofs.Contexts
import AutoBattler.Proofs.Rescue

/-!
# Histories of a board

A board changes by operations: a pet joins a roster, takes the place of another, leaves, or changes.
Numbers are given out in order, a stored pet stays on its side, and one that has left its roster stays
away. Every resolution, also one that fails, changes its board by such operations alone.
-/
namespace AutoBattler

open Resolve

namespace Board

variable {b b' : Board} {side : Side} {pet : Pet} {id new : PetId}

/-! ## Operations -/

inductive Operation where
  | spawn (side : Side) (pet : Pet) (placement : Placement)
  | replace (id : PetId) (pet : Pet)
  | remove (id : PetId)
  | change (id : PetId) (f : Pet → Pet)

/-- The number that an operation gives out, if it gives out one, and the board after it. -/
def apply (b : Board) : Operation → Option PetId × Board
  | .spawn side pet placement =>
    match b.spawn? side pet placement with
    | some (id, b') => (some id, b')
    | none => (none, b)
  | .replace id pet =>
    match b.replace? id pet with
    | some (new, b') => (some new, b')
    | none => (none, b)
  | .remove id => (none, (b.remove? id).getD b)
  | .change id f => (none, b.modifyPet id f)

def after (b : Board) (ops : List Operation) : Board := ops.foldl (fun b op => (b.apply op).2) b

/-- The numbers that operations give out, in order. -/
def given (b : Board) : List Operation → List PetId
  | [] => []
  | op :: rest => (b.apply op).1.toList ++ (b.apply op).2.given rest

/-- What an operation can do. -/
inductive Applied (b : Board) : Option PetId × Board → Prop
  | nothing : Applied b (none, b)
  | arrived {side : Side} {pet : Pet} {id : PetId} {b' : Board} (h : b.Arrives side pet id b') :
    Applied b (some id, b')
  | exchanged {id : PetId} {side : Side} {pet : Pet} {new : PetId} {b' : Board}
    (h : b.Exchanges id side pet new b') : Applied b (some new, b')
  | left {id : PetId} {side : Side} {b' : Board} (h : b.Leaves id side b') : Applied b (none, b')
  | changed (id : PetId) (f : Pet → Pet) : Applied b (none, b.modifyPet id f)

theorem applied (b : Board) (op : Operation) : b.Applied (b.apply op) := by
  cases op with
  | spawn side pet placement =>
    dsimp only [apply]
    cases h : b.spawn? side pet placement with
    | none => exact .nothing
    | some r => exact .arrived (arrives_of_spawn? h)
  | replace id pet =>
    dsimp only [apply]
    cases h : b.replace? id pet with
    | none => exact .nothing
    | some r =>
      obtain ⟨side, he⟩ := exchanges_of_replace? h
      exact .exchanged he
  | remove id =>
    dsimp only [apply]
    cases h : b.remove? id with
    | none => exact .nothing
    | some b' =>
      obtain ⟨side, hl⟩ := leaves_of_remove? h
      exact .left hl
  | change id f => exact .changed id f

/-! ## Earlier and later boards -/

/-- What an earlier board promises of a later one: no number is given out again, no stored pet is
dropped or changes sides, and none that has left its roster comes back. -/
structure Precedes (b b' : Board) : Prop where
  nextId : b.nextId ≤ b'.nextId
  side : ∀ id side, b.sideOf? id = some side → b'.sideOf? id = some side
  gone : ∀ id, b.Gone id → b'.Gone id

theorem Precedes.refl (b : Board) : b.Precedes b :=
  ⟨Nat.le_refl _, fun _ _ h => h, fun _ h => h⟩

theorem Precedes.trans {b'' : Board} (h : b.Precedes b') (h' : b'.Precedes b'') : b.Precedes b'' where
  nextId := Nat.le_trans h.nextId h'.nextId
  side id side hs := h'.side id side (h.side id side hs)
  gone id hg := h'.gone id (h.gone id hg)

theorem WellFormed.lt_of_side (h : b.WellFormed) (hs : b.sideOf? id = some side) :
    id.number < b.nextId := by
  obtain ⟨entrant, he, _⟩ := Option.map_eq_some_iff.1 hs
  exact (h.stored id).1 (Option.isSome_iff_exists.2 ⟨entrant, he⟩)

/-- Storing a pet under the next number overwrites no other. -/
theorem Stores.keeps_side (h : b.WellFormed) (hs : b.Stores side pet new b') {s : Side}
    (hid : b.sideOf? id = some s) : b'.sideOf? id = some s := by
  have known := h.lt_of_side hid
  rw [hs.sideOf?, if_neg, hid]
  rintro rfl
  rw [hs.number] at known
  exact Nat.lt_irrefl _ known

theorem Applied.precedes (h : b.WellFormed) {r : Option PetId × Board} (ha : b.Applied r) :
    b.Precedes r.2 := by
  cases ha with
  | nothing => exact .refl b
  | arrived ha =>
    exact ⟨Nat.le_of_lt (Nat.lt_of_lt_of_eq (Nat.lt_succ_self _) ha.nextId.symm),
      fun _ _ => ha.toStores.keeps_side h, fun _ hg => hg.arrive ha⟩
  | exchanged he =>
    exact ⟨Nat.le_of_lt (Nat.lt_of_lt_of_eq (Nat.lt_succ_self _) he.nextId.symm),
      fun _ _ => he.toStores.keeps_side h, fun _ hg => hg.exchange he⟩
  | left hl =>
    refine ⟨Nat.le_of_eq hl.nextId.symm, fun id side hs => ?_, fun _ hg => hg.leave hl⟩
    rw [hl.sideOf?]
    exact hs
  | changed id f =>
    refine ⟨Nat.le_refl _, fun x side hs => ?_, fun x hg => ⟨hg.placed, hg.off⟩⟩
    rw [sideOf?_modifyPet]
    exact hs

theorem Applied.wellFormed (h : b.WellFormed) {r : Option PetId × Board} (ha : b.Applied r) :
    r.2.WellFormed := by
  cases ha with
  | nothing => exact h
  | arrived ha => exact ha.wellFormed h
  | exchanged he => exact he.wellFormed h
  | left hl => exact hl.wellFormed h
  | changed id f => exact h.modifyPet id f

/-- The number that is given out is the next one. -/
theorem Applied.given {r : Option PetId × Board} (ha : b.Applied r) :
    r.1.toList.map (·.number) = List.range' b.nextId r.1.toList.length ∧
      r.2.nextId = b.nextId + r.1.toList.length := by
  cases ha with
  | nothing => exact ⟨rfl, rfl⟩
  | arrived ha =>
    rw [ha.number]
    exact ⟨rfl, ha.nextId⟩
  | exchanged he =>
    rw [he.number]
    exact ⟨rfl, he.nextId⟩
  | left hl => exact ⟨rfl, hl.nextId⟩
  | changed id f => exact ⟨rfl, rfl⟩

/-! ## Runs of operations -/

theorem after_append (b : Board) (ops more : List Operation) :
    b.after (ops ++ more) = (b.after ops).after more := List.foldl_append ..

theorem WellFormed.after (h : b.WellFormed) (ops : List Operation) :
    (b.after ops).WellFormed ∧ b.Precedes (b.after ops) := by
  induction ops generalizing b with
  | nil => exact ⟨h, .refl b⟩
  | cons op rest ih =>
    have step := b.applied op
    obtain ⟨wellFormed, precedes⟩ := ih (step.wellFormed h)
    exact ⟨wellFormed, (step.precedes h).trans precedes⟩

/-- Numbers are given out one after the other. -/
theorem given_after (b : Board) (ops : List Operation) :
    (b.given ops).map (·.number) = List.range' b.nextId (b.given ops).length ∧
      (b.after ops).nextId = b.nextId + (b.given ops).length := by
  induction ops generalizing b with
  | nil => exact ⟨rfl, rfl⟩
  | cons op rest ih =>
    obtain ⟨first, next⟩ := (b.applied op).given
    obtain ⟨later, last⟩ := ih (b.apply op).2
    unfold given
    rw [List.map_append, List.length_append, first, later, next]
    refine ⟨List.range'_append_1, ?_⟩
    rw [← Nat.add_assoc, ← next]
    exact last

/-! ## Operations that do what was done -/

/-- A board with one more pet, told by what is stored and by its lines. -/
theorem Stores.eq_modifyRoster (h : b.Stores side pet id b') {f : Line → Line}
    (hline : b'.roster side = (f (b.rosters.get side)).ids)
    (others : ∀ s, s ≠ side → b'.roster s = b.roster s) :
    (b.store side pet).2.modifyRoster side f = b' := by
  refine eq_of_parts h.nextId.symm (fun x => ?_) fun s => ?_
  · rw [(stores_modifyRoster b side pet f).entrants, h.entrants, h.number]
    rfl
  · by_cases hs : s = side
    · subst hs
      rw [roster_modifyRoster, hline]
      rfl
    · rw [roster_modifyRoster_of_ne _ _ hs, others s hs]
      rfl

theorem Arrives.spawn? (h : b.Arrives side pet id b') :
    ∃ placement, b.spawn? side pet placement = some (id, b') := by
  obtain ⟨i, hi, hline⟩ := h.line
  refine ⟨.at i, ?_⟩
  unfold Board.spawn?
  rw [if_pos h.room, h.number, ← h.toStores.eq_modifyRoster (f := fun line =>
    line.insertIdx (Placement.index line.length (.at i)) (b.store side pet).1) ?_ h.others]
  · rfl
  · rw [hline, Line.ids_insertIdx, h.number]
    exact congrArg (List.insertIdx _ · _) (Nat.min_eq_left hi).symm

/-- The place of a pet is the only one at which it stands. -/
theorem Stands.position? {index : Nat} (hw : b.WellFormed) (h : Stands b id side index) :
    b.position? id = some index := by
  unfold Board.position?
  rw [h.home, Option.bind_some, List.idxOf?_eq_some_iff]
  refine ⟨h.lt, (List.getElem?_eq_some_iff.1 h.place).2, fun j hj he => ?_⟩
  have earlier : (b.roster side)[j]? = some id := by
    rw [List.getElem?_eq_getElem (Nat.lt_trans hj h.lt), he]
  have same := (List.getElem?_inj h.lt (hw.nodup side)).1 (h.place.trans earlier.symm)
  exact Nat.ne_of_gt hj same

theorem Exchanges.replace? (hw : b.WellFormed) (h : b.Exchanges id side pet new b') :
    b.replace? id pet = some (new, b') := by
  obtain ⟨i, hstands, hline⟩ := h.line
  unfold Board.replace?
  rw [hstands.home, hstands.position? hw, h.number, ← h.toStores.eq_modifyRoster
    (f := fun line => line.set i (b.store side pet).1) ?_ h.others]
  · rfl
  · rw [hline, Line.ids_set, h.number]
    rfl

theorem Leaves.remove? (hw : b.WellFormed) (h : b.Leaves id side b') : b.remove? id = some b' := by
  obtain ⟨i, hstands, hline⟩ := h.line
  unfold Board.remove?
  rw [hstands.home, hstands.position? hw]
  have same : b.modifyRoster side (fun line => line.eraseIdx i) = b' := by
    refine eq_of_parts h.nextId.symm (fun x => (h.entrants x).symm) fun s => ?_
    by_cases hs : s = side
    · subst hs
      rw [roster_modifyRoster, hline, Line.ids_eraseIdx]
      rfl
    · rw [roster_modifyRoster_of_ne _ _ hs, h.others s hs]
  rw [← same]
  rfl

/-- The later board is the earlier one after operations of the kind. -/
def FollowsBy (P : Operation → Prop) (b b' : Board) : Prop :=
  ∃ ops, (∀ op ∈ ops, P op) ∧ b' = b.after ops

/-- The later board is the earlier one after operations. -/
abbrev Follows (b b' : Board) : Prop := b.FollowsBy (fun _ => True) b'

/-- A well-formed board that operations of the kind have led to. -/
structure LedBy (P : Operation → Prop) (b b' : Board) : Prop where
  wellFormed : b'.WellFormed
  follows : b.FollowsBy P b'

/-- A well-formed board that operations have led to. -/
abbrev Led (b b' : Board) : Prop := b.LedBy (fun _ => True) b'

namespace LedBy

variable {P : Operation → Prop} {b'' : Board}

theorem refl (h : b.WellFormed) : b.LedBy P b := ⟨h, [], nofun, rfl⟩

theorem apply (h : b.LedBy P b') {op : Operation} (hp : P op) : b.LedBy P (b'.apply op).2 := by
  obtain ⟨wellFormed, ops, hops, rfl⟩ := h
  refine ⟨((b.after ops).applied op).wellFormed wellFormed, ops ++ [op], ?_,
    (after_append b ops [op]).symm⟩
  exact List.forall_mem_append.2 ⟨hops, List.forall_mem_singleton.2 hp⟩

theorem change (h : b.LedBy P b') {f : Pet → Pet} (hp : P (.change id f)) :
    b.LedBy P (b'.modifyPet id f) := h.apply hp

theorem arrive (h : b.LedBy P b') (hp : ∀ placement, P (.spawn side pet placement))
    (ha : b'.Arrives side pet id b'') : b.LedBy P b'' := by
  obtain ⟨placement, hs⟩ := ha.spawn?
  have later := h.apply (hp placement)
  dsimp only [Board.apply] at later
  rwa [hs] at later

theorem exchange (h : b.LedBy P b') (hp : P (.replace id pet))
    (he : b'.Exchanges id side pet new b'') : b.LedBy P b'' := by
  have later := h.apply hp
  dsimp only [Board.apply] at later
  rwa [he.replace? h.wellFormed] at later

theorem leave (h : b.LedBy P b') (hp : P (.remove id)) (hl : b'.Leaves id side b'') :
    b.LedBy P b'' := by
  have later := h.apply hp
  dsimp only [Board.apply] at later
  rwa [hl.remove? h.wellFormed] at later

end LedBy

end Board

theorem boardInvariant_led {S : Scope} (c : Catalog) (hS : ∀ pet, S.pets pet) (b : Board) :
    BoardInvariant S c b.Led where
  known _ _ _ pet _ := hS pet
  edit _ h _ _ _ := h.change trivial
  gainPoint _ h _ _ _ _ _ := h.change trivial
  promote _ h _ _ := h.change trivial
  damage _ h _ _ := h.change trivial
  arrive _ h _ _ _ _ _ ha := h.arrive (fun _ => trivial) ha
  exchange _ h _ _ _ _ _ _ _ _ he := h.exchange trivial he
  leave _ h _ _ _ hl := h.leave trivial hl

/-! ## Resolutions -/

section

variable {rules : Rules} {α : Type}

theorem follows_of_ends {b : Board} {r : Except EngineError α × Arena}
    (h : Resolve.Ends (BoardInvariant.failed Scope.all rules.catalog b.Led)
      (fun _ => BoardInvariant.holds b.Led) r) : b.Follows r.2.board := by
  obtain ⟨r, s⟩ := r
  cases r with
  | ok x => exact h.follows
  | error e => exact h.2.follows

/-- Telling an event and performing an effect, from any arena with a well-formed board. -/
theorem follows_of_wellFormed (rules : Rules) (room : Nat) (event : Event) {s : Arena}
    (h : s.board.WellFormed) :
    s.board.Follows (dispatchIn rules room event s).2.board ∧
      ∀ actor effect,
        s.board.Follows (perform rules (dispatchIn rules room) event actor effect s).2.board := by
  have led := boardInvariant_led (S := Scope.all) rules.catalog (fun _ => trivial) s.board
  have start : BoardInvariant.holds s.board.Led s := .refl h
  have inScope : Scope.all.events event := trivial
  refine ⟨?_, fun actor effect => ?_⟩
  · have told := led.dispatchIn (Scope.covers_all _) (.of_all fun _ => trivial) room inScope
    exact follows_of_ends (triple_iff.1 told s start)
  · have performed := led.performIn (Scope.covers_all _) (.of_all fun _ => trivial) room inScope
      actor effect.every_true
    exact follows_of_ends (triple_iff.1 performed s start)

/-- Telling events one after the other. -/
theorem led_forEach_dispatchIn (rules : Rules) (room : Nat) (xs : List α) (told : α → Event)
    {s : Arena} (h : s.board.WellFormed) :
    s.board.Led (forEach xs (fun x => dispatchIn rules room (told x)) s).2.board := by
  have led := boardInvariant_led (S := Scope.all) rules.catalog (fun _ => trivial) s.board
  have kept : Triple (fun _ => BoardInvariant.holds s.board.Led) (BoardInvariant.holds s.board.Led)
      (forEach xs fun x => dispatchIn rules room (told x)) fun _ => BoardInvariant.holds s.board.Led :=
    keeps_forEach xs fun x _ =>
      (led.dispatchIn (Scope.covers_all _) (.of_all fun _ => trivial) room trivial).weaken
        (fun _ _ he => he.2) (fun _ hs => hs) fun _ _ hs => hs
  exact ends_always.1 (triple_iff.1 kept s (.refl h))

namespace Battle

variable {teams : Sides Team} {b : Battle}

theorem Ends.follows {old : Board} {r : Except EngineError α × Battle}
    (h : Ends (BoardInvariant.failed Scope.all rules.catalog old.Led)
      (BoardInvariant.holds old.Led) r) : old.Follows r.2.arena.board := by
  obtain ⟨r, b⟩ := r
  cases r with
  | ok x =>
    have led : old.Led b.arena.board := h
    exact led.follows
  | error e => exact h.2.follows

/-- A call changes the board by operations, however it ends. -/
theorem follows_of_reachable (h : Reachable rules teams b) :
    b.arena.board.Follows (b.start rules).2.arena.board ∧
      b.arena.board.Follows (b.step rules).2.arena.board := by
  have led := boardInvariant_led (S := Scope.all) rules.catalog (fun _ => trivial) b.arena.board
  have opens := led.opening (Scope.covers_all _) (.of_all fun _ => trivial) (.of_all fun _ => trivial)
  have cycles := led.attackCycle (Scope.covers_all _) (.of_all fun _ => trivial)
    (.of_all fun _ => trivial)
  have holds : BoardInvariant.holds b.arena.board.Led b.arena := .refl (wellFormed_of_reachable h)
  exact ⟨(ends_start opens holds).follows, (ends_step opens cycles holds).follows⟩

theorem led_of_reachable (h : Reachable rules teams b) : (Board.ofTeams teams).Led b.arena.board :=
  (boardInvariant_led (S := Scope.all) rules.catalog (fun _ => trivial) _).of_reachable
    (Scope.covers_all _) (.of_all fun _ => trivial) (.of_all fun _ => trivial)
    (.refl (Board.wellFormed_ofTeams teams)) h

end Battle

namespace PurchasePhase

variable {team : Team} {shop : Shop} {p : PurchasePhase}

theorem led_call {b : Board} (h : b.Led p.arena.board) (c : Call) :
    b.Led (p.call rules c).2.arena.board := by
  have placed : c.Brings fun pet => ∀ b₁ id b₂, b.Led b₁ → b₁.Arrives .a pet id b₂ → b.Led b₂ := by
    cases c with
    | placePet pet index tierOne afterLoss =>
      exact fun b₁ id b₂ hb ha => hb.arrive (fun _ => trivial) ha
    | _ => trivial
  exact ((boardInvariant_led (S := Scope.all) rules.catalog (fun _ => trivial) b).call
    (Scope.covers_all _) (.of_all fun _ => trivial) (fun _ _ => trivial) (fun _ hb => hb.wellFormed)
    h c placed).1

theorem led_of_reachable (h : Reachable rules team shop (fun _ => True) p) :
    (Board.ofTeam team).Led p.arena.board := by
  induction h with
  | new => exact .refl (Board.wellFormed_ofTeam team)
  | call _ c _ ih => exact led_call ih c

end PurchasePhase

end

/-! ## Consistent boards -/

/-- Rosters list stored pets of their sides, each once, and no pet stands on both. -/
structure Board.Consistent (b : Board) : Prop extends WellFormed b where
  apart : ∀ id ∈ b.roster .a, id ∉ b.roster .b

theorem Board.WellFormed.consistent {b : Board} (h : b.WellFormed) : b.Consistent where
  toWellFormed := h
  apart id ha hb := by
    have both := (h.member .a id ha).symm.trans (h.member .b id hb)
    cases both

/-- The boards that there are to begin with. -/
inductive Board.IsNew : Board → Prop
  | empty : IsNew .empty
  | ofTeams (teams : Sides Team) : IsNew (.ofTeams teams)
  | ofTeam (team : Team) : IsNew (.ofTeam team)

theorem Board.IsNew.wellFormed {b : Board} (h : b.IsNew) : b.WellFormed := by
  cases h with
  | empty => exact wellFormed_empty
  | ofTeams teams => exact wellFormed_ofTeams teams
  | ofTeam team => exact wellFormed_ofTeam team

/-- Operations keep a new board consistent, give out the numbers that come next, drop no stored pet
and move none to the other side or back onto a roster. The board of every battle and shop turn, also
after errors, has come from the new one by such operations, and so has that on which any event within
a call is told, any effect performed and any ability fired: what is put around these on other boards
makes no difference. Each of them changes the board by operations in turn. -/
theorem boards_stay_consistent (rules : Rules) :
    (∀ b : Board, b.IsNew → ∀ ops,
      (b.after ops).Consistent ∧
      (b.given ops).map (·.number) = List.range' b.nextId (b.given ops).length ∧
      (b.after ops).nextId = b.nextId + (b.given ops).length ∧
      ∀ more, (b.after ops).Precedes ((b.after ops).after more)) ∧
    (∀ teams b, Battle.Reachable rules teams b →
      (Board.ofTeams teams).Follows b.arena.board ∧
      b.arena.board.Follows (b.start rules).2.arena.board ∧
      b.arena.board.Follows (b.step rules).2.arena.board) ∧
    (∀ team shop p, PurchasePhase.Reachable rules team shop (fun _ => True) p →
      (Board.ofTeam team).Follows p.arena.board ∧
      ∀ c, p.arena.board.Follows (p.call rules c).2.arena.board) ∧
    (∀ w : Wrapping,
      (∀ teams, w.Idle (fun _ => True) (Board.ofTeams teams).Led →
        ∀ b, Battle.Reachable rules teams b →
          b.startWith (w.procedures rules) = b.start rules ∧
            b.stepWith rules (w.procedures rules) = b.step rules) ∧
      ∀ team, w.Idle (fun _ => True) (Board.ofTeam team).Led →
        ∀ shop p, PurchasePhase.Reachable rules team shop (fun _ => True) p →
          ∀ c : PurchasePhase.Call, c.resolve rules (w.procedures rules) p.arena =
            c.resolve rules (procedures rules) p.arena) ∧
    ∀ room event (s : Arena), s.board.WellFormed →
      s.board.Follows (dispatchIn rules room event s).2.board ∧
      ∀ actor effect,
        s.board.Follows (perform rules (dispatchIn rules room) event actor effect s).2.board := by
  refine ⟨fun b hb ops => ?_, fun teams b hb => ?_, fun team shop p hp => ?_, fun w => ⟨?_, ?_⟩,
    fun room event s hs => follows_of_wellFormed rules room event hs⟩
  · have later := hb.wellFormed.after ops
    obtain ⟨numbers, next⟩ := b.given_after ops
    exact ⟨later.1.consistent, numbers, next, fun more => (later.1.after more).2⟩
  · obtain ⟨started, stepped⟩ := Battle.follows_of_reachable hb
    exact ⟨(Battle.led_of_reachable hb).follows, started, stepped⟩
  · have led := PurchasePhase.led_of_reachable hp
    exact ⟨led.follows, fun c => (PurchasePhase.led_call (.refl led.wellFormed) c).follows⟩
  · intro teams hw b hb
    exact Wrapping.Idle.battle hw (fun _ => boardInvariant_led _ (fun _ => trivial) _)
      (.refl (Board.wellFormed_ofTeams teams)) hb
  · intro team hw shop p hp c
    exact Wrapping.Idle.turn hw (fun _ => boardInvariant_led _ (fun _ => trivial) _)
      (.refl (Board.wellFormed_ofTeam team))
      (fun _ _ _ _ _ h ha => h.arrive (fun _ => trivial) ha) hp c c.brings_true

/-- After the first exchange the ant of side `b` is still stored there and stands on no roster; seven
numbers have been given out. -/
theorem boards_stay_consistent_rescue :
    let b := (rescue callAnt healSelf).2.arena.board
    b.Consistent ∧ b.nextId = 7 ∧ b.sideOf? ⟨5⟩ = some .b ∧ b.Gone ⟨5⟩ ∧
      ∀ more, (b.after more).sideOf? ⟨5⟩ = some .b ∧ (b.after more).Gone ⟨5⟩ := by
  intro b
  obtain ⟨new, battles, _⟩ := boards_stay_consistent (rescueRules callAnt healSelf)
  have reached : Battle.Reachable (rescueRules callAnt healSelf) (rescueTeams callAnt healSelf)
      (rescue callAnt healSelf).2 := .step .new
  obtain ⟨⟨ops, _, later⟩, _⟩ := battles _ _ reached
  obtain ⟨consistent, _, _, precedes⟩ := new _ (.ofTeams (rescueTeams callAnt healSelf)) ops
  rw [← later] at consistent precedes
  have next : b.nextId = 7 := by decide +kernel
  have home : b.sideOf? ⟨5⟩ = some .b := by decide +kernel
  have off : ⟨5⟩ ∉ b.roster .a ∧ ⟨5⟩ ∉ b.roster .b := by decide +kernel
  have gone : b.Gone ⟨5⟩ := by
    refine ⟨by rw [next]; decide, fun side => ?_⟩
    cases side with
    | a => exact off.1
    | b => exact off.2
  exact ⟨consistent, next, home, gone, fun more =>
    ⟨(precedes more).side _ _ home, (precedes more).gone _ gone⟩⟩

end AutoBattler
