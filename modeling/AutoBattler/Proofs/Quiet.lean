import AutoBattler.Proofs.Drained
import AutoBattler.Proofs.Facing
import AutoBattler.Proofs.Indexing

/-!
# Catalogs in which only statuses act

If no kind has an ability and statuses change damage only, an event that is told leads to no other
and asks for no attack. All it does to the board is that pets count how often their status has
answered. So a step raises a number of events that is known beforehand, and it fails exactly if the
budget does not allow for them.
-/
namespace AutoBattler

open Resolve

/-- No kind has an ability, and all that a status does is to change damage. -/
structure Catalog.IsQuiet (c : Catalog) : Prop where
  kinds : ∀ id kind, c.petKind id = .ok kind → kind.abilities = []
  statuses : ∀ id status, c.status id = .ok status →
    ∃ amount once, status.ability.effect = .modifyDamage amount once

theorem Catalog.isQuiet_ofLists {pets : List PetKind} {statuses : List StatusKind}
    {foods : List Food} (hp : ∀ kind ∈ pets, kind.abilities = [])
    (hs : ∀ status ∈ statuses, ∃ amount once, status.ability.effect = .modifyDamage amount once) :
    (ofLists pets statuses foods).IsQuiet where
  kinds _ kind h := hp kind (Table.mem_of_getElem?_ofValues _ (petKind_eq_ok.1 h))
  statuses _ status h := hs status (Table.mem_of_getElem?_ofValues _ (status_eq_ok.1 h))

variable {rules : Rules} {raise : Raise} {event : Event} {line reached ids walked : List PetId}
  {id : PetId} {pet : Pet} {s t : Arena} {b : Board} {ability : Ability}

/-! ## Pets that are told -/

namespace Catalog.IsQuiet

variable {c : Catalog}

theorem levelAbility (hq : c.IsQuiet) (hd : pet.Defined c) : c.levelAbility pet = .ok none := by
  obtain ⟨level, hl⟩ := levelAbility_of_defined hd
  cases level with
  | none => exact hl
  | some ability =>
    obtain ⟨kind, hk, ha⟩ := kind_of_levelAbility hl
    have hm : ability ∈ kind.abilities := List.mem_filterMap.2 ⟨_, PetKind.mem_levels ha, rfl⟩
    rw [hq.kinds _ kind hk] at hm
    cases hm

theorem statusAbility (hq : c.IsQuiet) (h : c.statusAbility pet = .ok (some ability)) :
    ∃ amount once, ability.effect = .modifyDamage amount once := by
  obtain ⟨id, status, _, hs, rfl⟩ := status_of_statusAbility h
  exact hq.statuses id status hs

end Catalog.IsQuiet

namespace Resolve

theorem perform_modifyDamage (actor : Option PetId) (amount : Option Int) (once : Bool) :
    perform rules raise event actor (.modifyDamage amount once) = pure [] := by
  obtain ⟨_, _, _, _, _, _, cause⟩ := event
  cases cause <;> rw [perform, performWith]

/-- What a step gives of a pet that is stored. -/
theorem pet?_run (hp : s.board.pet? id = some pet) : Resolve.pet? id s = (.ok (some pet), s) := by
  show (Except.ok (s.board.pet? id), s) = _
  rw [hp]

/-- The firing of a status is counted as far as it is limited. -/
theorem shouldFire_run (hp : s.board.pet? id = some pet) (ability : Ability) (event : Event)
    (line : List PetId) :
    ∃ fires, shouldFire .status id ability event line s =
      (.ok fires, { s with
        board := s.board.modifyPet id fun p =>
          if ability.trigger = event.trigger ∧ hears ability.audience id event line then
            p.countFiring ability.maxTriggers (Holder.status.counterKey ability.trigger)
          else p }) := by
  unfold shouldFire
  by_cases hheard : ability.trigger = event.trigger ∧ hears ability.audience id event line
  · simp only [if_pos hheard]
    cases ability.maxTriggers with
    | none =>
      have same : s.board.modifyPet id
          (Pet.countFiring none (Holder.status.counterKey ability.trigger)) = s.board :=
        Board.modifyPet_of_pet? hp rfl
      rw [same]
      exact ⟨true, rfl⟩
    | some limit =>
      dsimp only
      rw [bind_run, pet?_run hp]
      dsimp only
      by_cases hlimit : (limit : Int) ≤ pet.counter (Holder.status.counterKey ability.trigger)
      · have same : s.board.modifyPet id
            (Pet.countFiring (some limit) (Holder.status.counterKey ability.trigger)) = s.board :=
          Board.modifyPet_of_pet? hp (if_pos hlimit)
        rw [if_pos hlimit, same]
        exact ⟨false, rfl⟩
      · have counted : s.board.modifyPet id
            (Pet.countFiring (some limit) (Holder.status.counterKey ability.trigger)) =
            s.board.modifyPet id (Pet.bump (Holder.status.counterKey ability.trigger)) :=
          Board.modifyPet_eq_of_pet? hp (if_neg hlimit)
        rw [if_neg hlimit, counted]
        exact ⟨true, rfl⟩
  · simp only [if_neg hheard]
    have same : s.board.modifyPet id (fun p => p) = s.board := Board.modifyPet_of_pet? hp rfl
    rw [same]
    exact ⟨false, rfl⟩

theorem reached?_ne_none (hp : b.pet? id = some pet)
    (hr : rules.catalog.index.mayReact event.trigger pet = true)
    (hl : event.source = some id ∨ b.isAlive id = true) : reached? rules event b id ≠ none := by
  obtain ⟨entrant, he, rfl⟩ := Option.map_eq_some_iff.1 hp
  have present : (event.source = some id || b.isInLine entrant.side id) = true := by
    rw [Bool.or_eq_true, decide_eq_true_iff]
    refine hl.imp_right fun ha => ?_
    have hs : b.sideOf? id = some entrant.side := by rw [Board.sideOf?, he, Option.map_some]
    rwa [Board.isAlive, hs, Option.any_some] at ha
  unfold reached?
  rw [he]
  dsimp only
  rw [hr, present]
  nofun

section

variable (hq : rules.catalog.IsQuiet)
include hq

/-- All that a pet does in answer to an event is to count. -/
theorem notify_run (hp : s.board.pet? id = some pet) (hd : pet.Defined rules.catalog) :
    notify rules raise (perform rules raise) event line id pet s =
      (.ok (), { s with
        board := s.board.modifyPet id
          (Pet.hearing rules.catalog event.trigger (hears · id event line)) }) := by
  obtain ⟨status, hstatus⟩ := Catalog.statusAbility_of_defined hd
  have ofStatus : notify rules raise (perform rules raise) event line id pet s =
      fireStatus (perform rules raise) id event line status s := by
    unfold notify
    rw [hq.levelAbility hd, hstatus]
    rfl
  rw [ofStatus]
  cases status with
  | none =>
    rw [Board.modifyPet_of_pet? hp (by unfold Pet.hearing; rw [hstatus])]
    rfl
  | some ability =>
    obtain ⟨fires, hfires⟩ := shouldFire_run hp ability event line
    obtain ⟨amount, once, heffect⟩ := hq.statusAbility hstatus
    rw [Board.modifyPet_eq_of_pet? (g := Pet.hearing rules.catalog event.trigger
      (hears · id event line)) hp (by unfold Pet.hearing; rw [hstatus])] at hfires
    unfold fireStatus
    dsimp only
    rw [bind_run, hfires]
    cases fires with
    | false => rfl
    | true =>
      rw [heffect, perform_modifyDamage]
      rfl

/-- What the walk of an event does to the pets of a line that are there. -/
theorem walk_run (hd : s.board.Defined rules.catalog)
    (hl : ∀ id ∈ ids, event.source = some id ∨ s.board.isAlive id = true) :
    ∃ notified, walk rules raise (perform rules raise) event line reached ids s =
      (.ok notified, { s with board := s.board.told rules.catalog event line ids }) := by
  induction ids generalizing s reached with
  | nil => exact ⟨reached.reverse, rfl⟩
  | cons id rest ih =>
    let b' := s.board.modifyPet id
      (Pet.hearing rules.catalog event.trigger (hears · id event line))
    have later (reached : List PetId) : ∃ notified,
        walk rules raise (perform rules raise) event line reached rest { s with board := b' } =
          (.ok notified, { s with board := b'.told rules.catalog event line rest }) := by
      apply ih
      · exact Board.AllPets.modifyPet hd id fun p hp =>
          hp.congr Pet.kind_hearing Pet.borrowed_hearing Pet.status_hearing
      · intro x hx
        rw [Board.isAlive_modifyPet]
        exact hl x (List.mem_cons_of_mem id hx)
    have split : s.board.told rules.catalog event line (id :: rest) =
        b'.told rules.catalog event line rest := rfl
    rw [split]
    unfold walk
    rw [bind_run]
    dsimp only [board, look]
    cases hr : reached? rules event s.board id with
    | some pet =>
      have hp := pet?_of_reached? hr
      dsimp only
      rw [bind_run, notify_run hq hp (hd id pet hp)]
      exact later _
    | none =>
      -- Who is passed over would not have answered.
      have same : b' = s.board := by
        apply Board.modifyPet_of_eq
        intro p hp
        apply Pet.hearing_of_not_answers
        rintro ⟨ability, ha, ht⟩
        have reacts := Catalog.mayReact_of_statusAbility ha
        rw [ht] at reacts
        exact reached?_ne_none hp reacts (hl id List.mem_cons_self) hr
      rw [same] at later ⊢
      exact later _

/-- An event within the budget is counted and told, and that is all. -/
theorem dispatch_run (hd : s.board.Defined rules.catalog)
    (hroom : 0 < rules.config.maxDispatchDepth)
    (hwalk : event.snapshot.getD (s.board.roster event.side) = walked)
    (hl : ∀ id ∈ walked, event.source = some id ∨ s.board.isAlive id = true)
    (hbudget : s.dispatched < rules.config.maxEvents) :
    ∃ t, dispatch rules event s = (.ok (), t) ∧
      t.board = s.board.told rules.catalog event walked walked ∧
      t.queues = s.queues ∧ t.dispatched = s.dispatched + 1 := by
  obtain ⟨room, hroom⟩ := Nat.exists_eq_succ_of_ne_zero (Nat.pos_iff_ne_zero.1 hroom)
  obtain ⟨notified, hnotified⟩ : ∃ notified, walk rules (dispatchIn rules room)
      (perform rules (dispatchIn rules room)) event walked [] walked (s.opened event) =
        (.ok notified, { s.opened event with
          board := s.board.told rules.catalog event walked walked }) := walk_run hq hd hl
  unfold dispatch
  rw [hroom]
  show ∃ t, (countEvent rules.config.maxEvents >>= fun _ => nested
    (tellLine event fun line => walk rules (dispatchIn rules room)
      (perform rules (dispatchIn rules room)) event line [] line)) s = (.ok (), t) ∧ _
  rw [tellLine_run hbudget, hwalk, hnotified]
  exact ⟨_, rfl, rfl, rfl, rfl⟩

end

/-- Without room for a level of nesting no event can be told. -/
theorem dispatch_of_no_room (h : rules.config.maxDispatchDepth = 0) (event : Event) (s : Arena) :
    dispatch rules event s = (.error (.dispatchDepthExceeded event.trigger 0), s) := by
  unfold dispatch
  rw [h]
  show fail (.dispatchDepthExceeded event.trigger rules.config.maxDispatchDepth) s = _
  rw [h]
  rfl

theorem dispatch_of_exhausted (event : Event) (hroom : 0 < rules.config.maxDispatchDepth)
    (hbudget : ¬ s.dispatched < rules.config.maxEvents) :
    ∃ t, dispatch rules event s = (.error (.eventBudgetExceeded rules.config.maxEvents), t) := by
  obtain ⟨room, hroom⟩ := Nat.exists_eq_succ_of_ne_zero (Nat.pos_iff_ne_zero.1 hroom)
  unfold dispatch
  rw [hroom]
  exact ⟨_, tellLine_exhausted hbudget _⟩

end Resolve

/-! ## Steps of known cost -/

namespace Resolve

variable {α β : Type} {m m' : Resolve α} {f : α → Resolve β} {Q Q' : α → Board → Prop}
  {T : β → Board → Prop} {k l : Nat} {b' : Board}

/-- Nothing waits, and the budget is kept. -/
structure Ready (rules : Rules) (s : Arena) : Prop where
  idle : waiting s.queues = 0
  budget : s.dispatched ≤ rules.config.maxEvents

/-- How a step ends that raises so many events from here. -/
def Spends (rules : Rules) (n : Nat) (Q : α → Board → Prop) :
    Except EngineError α × Arena → Prop :=
  Ends (fun e _ => e = .eventBudgetExceeded rules.config.maxEvents ∧ rules.config.maxEvents < n)
    fun x t => Q x t.board ∧ Ready rules t ∧ t.dispatched = n

/-- From an arena with the board the step raises `k` events and succeeds with `Q`. It fails only if
the budget does not allow for so many. -/
structure Costs (rules : Rules) (k : Nat) (b : Board) (m : Resolve α) (Q : α → Board → Prop) :
    Prop where
  ends : ∀ s, s.board = b → Ready rules s → Spends rules (s.dispatched + k) Q (m s)

theorem Costs.weaken (h : Costs rules k b m Q) (hQ : ∀ x b', Q x b' → Q' x b') :
    Costs rules k b m Q' :=
  ⟨fun s hb hs => (h.ends s hb hs).weaken (fun _ _ he => he) fun _ _ hx => ⟨hQ _ _ hx.1, hx.2⟩⟩

theorem Costs.count (h : Costs rules k b m Q) (hk : k = l) : Costs rules l b m Q := hk ▸ h

theorem Costs.bind (hm : Costs rules k b m Q) (hf : ∀ x b', Q x b' → Costs rules l b' (f x) T) :
    Costs rules (k + l) b (m >>= f) T := by
  constructor
  intro s hb hs
  refine Ends.bind ((hm.ends s hb hs).weaken ?_ fun _ _ h => h) fun x t ⟨hx, ready, spent⟩ => ?_
  · rintro e _ ⟨he, hover⟩
    exact ⟨he, by omega⟩
  · have later := (hf x t.board hx).ends t rfl ready
    rw [spent, Nat.add_assoc] at later
    exact later

theorem costs_pure (x : α) (h : Q x b) : Costs rules 0 b (pure x) Q :=
  ⟨fun _ hb hs => ⟨hb ▸ h, hs, rfl⟩⟩

theorem costs_forEach_single {x : α} {body : α → Resolve Unit} {A : Unit → Board → Prop}
    (hx : Costs rules k b (body x) A) : Costs rules k b (forEach [x] body) A :=
  hx.bind (l := 0) fun _ _ ha => costs_pure () ha

theorem costs_forEach_pair {x y : α} {body : α → Resolve Unit} {A B : Unit → Board → Prop}
    (hx : Costs rules k b (body x) A) (hy : ∀ b', A () b' → Costs rules l b' (body y) B) :
    Costs rules (k + l) b (forEach [x, y] body) B :=
  hx.bind fun _ b' ha => costs_forEach_single (hy b' ha)

/-- A step that looks at the board and then goes on. -/
theorem costs_board {f : Board → Resolve β} (h : Costs rules k b (f b) T) :
    Costs rules k b (board >>= f) T := by
  constructor
  intro s hb hs
  rw [bind_run]
  dsimp only [board, look]
  rw [hb]
  exact h.ends s hb hs

theorem costs_pet? {f : Option Pet → Resolve β} (hp : b.pet? id = some pet)
    (h : Costs rules k b (f (some pet)) T) : Costs rules k b (Resolve.pet? id >>= f) T := by
  constructor
  rintro s rfl hs
  rw [bind_run, pet?_run hp]
  exact h.ends s rfl hs

theorem costs_modifyPet (id : PetId) (f : Pet → Pet) :
    Costs rules 0 b (modifyPet id f) fun _ b' => b' = b.modifyPet id f :=
  ⟨fun _ hb hs => ⟨congrArg (·.modifyPet id f) hb, ⟨hs.idle, hs.budget⟩, rfl⟩⟩

theorem costs_remove (h : b.remove? id = some b') :
    Costs rules 0 b (remove id) fun removed b'' => removed = true ∧ b'' = b' := by
  constructor
  intro s hb hs
  unfold remove
  rw [hb, h]
  exact ⟨⟨rfl, rfl⟩, ⟨hs.idle, hs.budget⟩, rfl⟩

theorem costs_dispatch (hq : rules.catalog.IsQuiet) (hroom : 0 < rules.config.maxDispatchDepth)
    (hd : b.Defined rules.catalog) (hwalk : event.snapshot.getD (b.roster event.side) = walked)
    (hl : ∀ id ∈ walked, event.source = some id ∨ b.isAlive id = true) :
    Costs rules 1 b (dispatch rules event) fun _ b' =>
      b' = b.told rules.catalog event walked walked := by
  constructor
  rintro s rfl hs
  by_cases hbudget : s.dispatched < rules.config.maxEvents
  · obtain ⟨t, ht, htold, hqueues, hspent⟩ := dispatch_run hq hd hroom hwalk hl hbudget
    rw [ht]
    exact ⟨htold, ⟨by rw [hqueues]; exact hs.idle, by omega⟩, hspent⟩
  · obtain ⟨t, ht⟩ := dispatch_of_exhausted event hroom hbudget
    rw [ht]
    exact ⟨rfl, by omega⟩

theorem costs_drainQueues : Costs rules 0 b (drainQueues rules) fun _ b' => b' = b := by
  constructor
  intro s hb hs
  have hr : drainQueues rules s = (.ok (), s) := drainWithin_of_none _ hs.idle
  rw [hr]
  exact ⟨hb, hs, rfl⟩

/-- Two steps of the same cost fail together. -/
theorem Costs.together {b₁ : Board} {Q₁ : α → Board → Prop} (h : Costs rules k b m Q)
    (h₁ : Costs rules k b₁ m' Q₁) {s s₁ : Arena} (hb : s.board = b) (hb₁ : s₁.board = b₁)
    (hs : Ready rules s) (hs₁ : Ready rules s₁) (hspent : s₁.dispatched = s.dispatched) :
    (∃ e t t₁, m s = (.error e, t) ∧ m' s₁ = (.error e, t₁)) ∨
    ∃ x t x₁ t₁, m s = (.ok x, t) ∧ m' s₁ = (.ok x₁, t₁) ∧ Q x t.board ∧ Q₁ x₁ t₁.board ∧
      Ready rules t ∧ Ready rules t₁ ∧ t₁.dispatched = t.dispatched := by
  have he := h.ends s hb hs
  have he₁ := h₁.ends s₁ hb₁ hs₁
  rw [hspent] at he₁
  generalize m s = r at he
  generalize m' s₁ = r₁ at he₁
  obtain ⟨r, t⟩ := r
  obtain ⟨r₁, t₁⟩ := r₁
  cases r with
  | error e =>
    cases r₁ with
    | error e₁ => exact .inl ⟨e, t, t₁, rfl, by rw [he₁.1, he.1]⟩
    | ok x₁ =>
      have := he.2
      have := he₁.2.1.budget
      have := he₁.2.2
      omega
  | ok x =>
    cases r₁ with
    | error e₁ =>
      have := he₁.2
      have := he.2.1.budget
      have := he.2.2
      omega
    | ok x₁ =>
      exact .inr ⟨x, t, x₁, t₁, rfl, rfl, he.1, he₁.1, he.2.1, he₁.2.1,
        he₁.2.2.trans he.2.2.symm⟩

end Resolve

end AutoBattler
