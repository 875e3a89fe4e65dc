import AutoBattler.Proofs.Marks
import AutoBattler.Proofs.Modifiers
import AutoBattler.Proofs.Rescue

/-!
# Statuses that work once

A battle with a note of every hit that uses up a status, and of every status that an effect gives a
pet. A pet whose status was used up bears none until it is given one, and without a status it
changes no hit. So between two uses of a pet's status lies a gift, at whatever event the battle is
cut short.
-/
namespace AutoBattler

open Resolve

/-! ## Histories of uses and gifts -/

namespace EventRecord

/-- Notes that a hit has used up the status of the pet. -/
def useOf (id : PetId) : EventRecord := ⟨.whenDamaged, .a, some id, [], 0⟩

/-- Notes that an effect has given the pet a status. -/
def giftTo (id : PetId) : EventRecord := ⟨.buyFood, .a, some id, [], 0⟩

theorem useOf_inj {id x : PetId} : useOf id = useOf x ↔ id = x := by simp [useOf]

theorem giftTo_ne_useOf (id x : PetId) : giftTo id ≠ useOf x := by simp [giftTo, useOf]

end EventRecord

open EventRecord

/-- Between two uses of the status of a pet it is given one. -/
def OncePerGift (notes : List EventRecord) : Prop :=
  ∀ id before between later,
    notes = before ++ useOf id :: (between ++ useOf id :: later) → giftTo id ∈ between

/-- The pet has not been given a status since one of it was used up. -/
def Spent (id : PetId) (notes : List EventRecord) : Prop :=
  ∃ before since, notes = before ++ useOf id :: since ∧ giftTo id ∉ since

section

variable {notes : List EventRecord} {note : EventRecord} {id : PetId}

theorem oncePerGift_nil : OncePerGift [] := fun _ _ _ _ h => by simp at h

theorem not_spent_nil (id : PetId) : ¬ Spent id [] := by
  rintro ⟨before, since, h, _⟩
  simp at h

/-- A list with one entry added, split at an entry: that is the new one or stood in the list. -/
theorem concat_eq_append_cons {α : Type} {l before later : List α} {x y : α}
    (h : l ++ [x] = before ++ y :: later) :
    x = y ∧ l = before ∨ ∃ rest, l = before ++ y :: rest ∧ later = rest ++ [x] := by
  rcases append_eq_append_cons h with old | ⟨rest, hbefore, hx⟩
  · exact .inr old
  · cases rest with
    | nil => exact .inl ⟨(List.cons.inj hx).1, by rw [hbefore, List.append_nil]⟩
    | cons z rest => simp at hx

theorem OncePerGift.concat (h : OncePerGift notes) (hn : ∀ id, note = useOf id → ¬ Spent id notes) :
    OncePerGift (notes ++ [note]) := by
  intro id before between later hsplit
  rw [← List.cons_append, ← List.append_assoc] at hsplit
  rcases concat_eq_append_cons hsplit with ⟨hnote, hnotes⟩ | ⟨rest, hnotes, _⟩
  · refine Decidable.byContradiction fun none => hn id hnote ⟨before, between, hnotes, none⟩
  · refine h id before between rest ?_
    rw [hnotes, List.append_assoc, List.cons_append]

theorem spent_of_concat (h : Spent id (notes ++ [note])) :
    note = useOf id ∨ Spent id notes ∧ note ≠ giftTo id := by
  obtain ⟨before, since, hsplit, hnone⟩ := h
  rcases concat_eq_append_cons hsplit with ⟨hnote, _⟩ | ⟨rest, hnotes, rfl⟩
  · exact .inl hnote
  · rw [List.mem_append, not_or] at hnone
    refine .inr ⟨⟨before, rest, hnotes, hnone.1⟩, fun hnote => hnone.2 ?_⟩
    rw [hnote]
    exact List.mem_singleton_self _

end

/-! ## Histories and boards -/

/-- The history has a gift between two uses. A pet whose status was used up since its last gift bears
none, unless it is one of those whose gift is still to be noted. -/
structure Owed (ids : List PetId) (notes : List EventRecord) (b : Board) : Prop where
  history : OncePerGift notes
  bare : ∀ id, Spent id notes → id ∉ ids → ∀ pet, b.pet? id = some pet → pet.status = none

/-- The history fits the board. -/
abbrev Tracked : List EventRecord → Board → Prop := Owed []

namespace Owed

variable {ids : List PetId} {notes : List EventRecord} {b b' : Board} {id x : PetId} {side : Side}
  {pet : Pet} {f : Pet → Pet}

theorem nil (ids : List PetId) (b : Board) : Owed ids [] b :=
  ⟨oncePerGift_nil, fun id hs => absurd hs (not_spent_nil id)⟩

theorem widen (h : Tracked notes b) (ids : List PetId) : Owed ids notes b :=
  ⟨h.history, fun id hs _ => h.bare id hs List.not_mem_nil⟩

/-- A change that gives no status, or one of a pet whose gift is still to be noted. -/
theorem modifyPet (h : Owed ids notes b)
    (hf : x ∈ ids ∨ ∀ p : Pet, p.status = none → (f p).status = none) :
    Owed ids notes (b.modifyPet x f) where
  history := h.history
  bare id hs hid p hp := by
    rw [Board.pet?_modifyPet] at hp
    split at hp
    · rename_i hx
      subst hx
      obtain ⟨old, hold, rfl⟩ := Option.map_eq_some_iff.1 hp
      exact hf.resolve_left hid old (h.bare id hs hid old hold)
    · exact h.bare id hs hid p hp

theorem stores (h : Owed ids notes b) (hs : b.Stores side pet x b') (hp : pet.status = none) :
    Owed ids notes b' where
  history := h.history
  bare id hid hm p hp' := by
    rw [hs.pet?] at hp'
    split at hp'
    · cases hp'
      exact hp
    · exact h.bare id hid hm p hp'

theorem leave (h : Owed ids notes b) (hl : b.Leaves x side b') : Owed ids notes b' where
  history := h.history
  bare id hid hm p hp := h.bare id hid hm p (hl.pet? id ▸ hp)

/-- The status that the pet bears is used up, and that is noted. -/
theorem use (h : Tracked notes b) (hp : b.pet? x = some pet) (hs : pet.status ≠ none) :
    Tracked (notes ++ [useOf x]) (b.modifyPet x (Pet.setStatus none)) where
  history := by
    refine h.history.concat fun id hid => ?_
    rw [useOf_inj] at hid
    subst hid
    exact fun spent => hs (h.bare x spent List.not_mem_nil pet hp)
  bare id hid hm p hp' := by
    rcases spent_of_concat hid with hx | ⟨spent, _⟩
    · rw [useOf_inj] at hx
      subst hx
      rw [Board.pet?_modifyPet, if_pos rfl, hp] at hp'
      cases hp'
      rfl
    · exact (h.modifyPet (.inr fun _ _ => rfl)).bare id spent hm p hp'

/-- A gift that was to be noted is noted. -/
theorem gift (h : Owed (x :: ids) notes b) : Owed ids (notes ++ [giftTo x]) b where
  history := h.history.concat fun id hid => absurd hid (giftTo_ne_useOf x id)
  bare id hid hm p hp := by
    rcases spent_of_concat hid with hx | ⟨spent, hx⟩
    · exact absurd hx (giftTo_ne_useOf x id)
    · refine h.bare id spent (fun hmem => ?_) p hp
      rcases List.mem_cons.1 hmem with rfl | hmem
      · exact hx rfl
      · exact hm hmem

/-- There is no gift to a pet that is not stored. -/
theorem unstored (h : Owed (x :: ids) notes b) (hx : b.pet? x = none) : Owed ids notes b where
  history := h.history
  bare id hid hm p hp := by
    refine h.bare id hid (fun hmem => ?_) p hp
    rcases List.mem_cons.1 hmem with rfl | hmem
    · rw [hx] at hp
      cases hp
    · exact hm hmem

end Owed

/-! ## Resolutions with notes of uses and gifts -/

namespace Spending

/-- Works in a modifier and notes a status that is used up. -/
def applyModifier (rules : Rules) (id : PetId) (trigger : Trigger)
    (work : Impact → DamageModifier → Impact) (i : Impact) : Resolve Impact := do
  match ← damageModifier rules id trigger with
  | none => pure i
  | some m =>
    if m.once then
      modifyPet id (Pet.setStatus none)
      mark (useOf id)
    pure (work i m)

def damageFor (rules : Rules) : Attack → PetId → Resolve Int := damageForBy (applyModifier rules)

def playAttacks (rules : Rules) (raise : Raise) (attacks : List Attack) : Resolve Unit :=
  playAttacksBy (playRoundBy (aimBy (damageFor rules)) raise) raise attacks

/-- Notes a gift to each of the pets that is stored. -/
def noteGifts (ids : List PetId) : Resolve Unit :=
  forEach ids fun id => do
    if (← pet? id).isSome then mark (giftTo id) else pure ()

/-- Damage is dealt with notes of uses, and a note is taken when a status has been given. -/
def wrapping (rules : Rules) (raise : Raise) : Wrapping where
  tell _ m := m
  act event actor effect m :=
    match effect with
    | .dealDamage amount target => dealDamageBy (playAttacks rules raise) event actor amount target
    | .applyStatus _ _ => do
      let ids ← m
      noteGifts ids
      pure ids
    | _ => m
  fire _ _ _ _ m := m

def perform (rules : Rules) (raise : Raise) : Act := (wrapping rules raise).perform rules raise

def dispatchIn (rules : Rules) : (room : Nat) → Event → Resolve Unit
  | 0, event => fail (.dispatchDepthExceeded event.trigger rules.config.maxDispatchDepth)
  | room + 1, event => do
    countEvent rules.config.maxEvents
    nested (notifyAll rules (dispatchIn rules room) (perform rules (dispatchIn rules room)) event)

def dispatch (rules : Rules) (event : Event) : Resolve Unit :=
  dispatchIn rules rules.config.maxDispatchDepth event

def procedures (rules : Rules) : Procedures where
  tell := dispatch rules
  act := perform rules (dispatch rules)
  drain := drainBy rules (Wrapping.foremostBy (playAttacks rules (dispatch rules)))

def attackCycle (rules : Rules) : Resolve Unit := do
  let b ← board
  playAttacks rules (dispatch rules) (Side.all.filterMap (primaryAttack? b))
  (procedures rules).drain

/-- The second step does what the first does, and takes the notes that fit the board. -/
abbrev Tracks {α : Type} (m n : Resolve α) : Prop := Keeps (.marked Tracked) (Arena.Marked Tracked) m n

/-! ### Steps of the resolution -/

/-- Everything may happen in it but that a status is given. -/
def scope : Scope where
  events _ := True
  effects effect := ∀ status target, effect ≠ .applyStatus status target
  pets _ := True

variable {rules : Rules} {raise raise' : Raise} {event : Event}

theorem status_edit {c : Catalog} {f : Pet → Pet} (hf : Edit c scope f) {p : Pet}
    (hp : p.status = none) : (f p).status = none := by
  cases hf with
  | status h _ => exact absurd rfl (h _ _)
  | copy =>
    rename_i copyAttack copyHealth _ _ _
    cases copyAttack <;> cases copyHealth <;> exact hp
  | buff | reduce | borrow | bump => exact hp
  | useUp => rfl

theorem status_newcomer {c : Catalog} {S : Scope} {p : Pet} (h : Newcomer c S p) :
    p.status = none := by
  have pet (request : Summons) (kind : PetKind) : (request.pet kind).status = none := by
    obtain ⟨_, _, attack, health, level⟩ := request
    cases level <;> cases attack <;> cases health <;> rfl
  cases h with
  | plain _ _ => exact pet _ _
  | inheriting _ _ _ => exact pet _ _

theorem elementary (c : Catalog) :
    Elementary scope c (.marked Tracked) (Arena.Marked Tracked) :=
  elementaryIf_marked (fun _ => trivial) fun _ _ hf _ _ hb _ =>
    hb.modifyPet (.inr fun _ => status_edit hf)

theorem boardSteps (c : Catalog) : BoardSteps scope c (.marked Tracked) (Arena.Marked Tracked) :=
  boardSteps_marked fun _ => {
    gainPoint := fun _ hb _ _ _ _ _ => hb.modifyPet (.inr fun p hp => by
      unfold Pet.gainPoint
      split <;> exact hp)
    promote := fun _ hb _ _ => hb.modifyPet (.inr fun _ hp => hp)
    damage := fun _ hb _ _ => hb.modifyPet (.inr fun _ hp => hp)
    arrive := fun _ hb _ _ _ _ hp ha => hb.stores ha.toStores (status_newcomer hp)
    exchange := fun _ hb _ _ _ _ _ _ _ _ he => hb.stores he.toStores rfl
    leave := fun _ hb _ _ _ hl => hb.leave hl }

/-! ### Uses -/

/-- The uses that a hit with these modifiers is to note. -/
def uses (attack : Attack) (target : PetId) (bonus reduction : Option DamageModifier) :
    List EventRecord :=
  (if bonus.any (·.once) then [useOf attack.attacker] else []) ++
    if reduction.any (·.once) then [useOf target] else []

theorem worksIn_noting (rules : Rules) :
    WorksIn rules.catalog (applyModifier rules) fun id m s =>
      { s with
        board := s.board.useUp id m
        log := if m.any (·.once) then s.log.mark (useOf id) else s.log } where
  ok h := by
    rename_i m
    unfold applyModifier
    rw [bind_run, damageModifier_run, h]
    rcases m with _ | ⟨amount, once⟩
    · rfl
    · cases once <;> rfl
  error h := by
    unfold applyModifier
    rw [bind_run, damageModifier_run, h]
  board _ _ _ := rfl
  unmodified _ _ := rfl

/-- Each hit notes what it uses up. -/
theorem marks_damageFor (rules : Rules) (attack : Attack) (target : PetId) (s : Arena) :
    match attack.modifiers? rules.catalog s.board target with
    | .error _ => True
    | .ok (bonus, reduction) =>
      (damageFor rules attack target s).2.log.marks =
        s.log.marks ++ uses attack target bonus reduction := by
  have run := (worksIn_noting rules).damageForBy_run attack target s
  have taken (log : EventLog) (id : PetId) (m : Option DamageModifier) :
      (if m.any (·.once) then log.mark (useOf id) else log).marks =
        log.marks ++ if m.any (·.once) then [useOf id] else [] := by
    split
    · exact log.marks_mark rfl
    · rw [List.append_nil]
  cases h : attack.modifiers? rules.catalog s.board target with
  | error e => trivial
  | ok modifiers =>
    rw [h] at run
    unfold damageFor uses
    rw [run]
    dsimp only
    rw [taken, taken, List.append_assoc]

theorem keeps_applyModifier (rules : Rules) (id : PetId) (trigger : Trigger)
    (work : Impact → DamageModifier → Impact) (i : Impact) :
    Tracks (Resolve.applyModifier rules id trigger work i)
      (applyModifier rules id trigger work i) := by
  constructor
  rintro s t ⟨notes, hst⟩
  unfold Resolve.applyModifier applyModifier
  rw [bind_run, bind_run, damageModifier_run, damageModifier_run, ← hst.board]
  cases h : s.board.damageModifier? rules.catalog id trigger with
  | error e => exact .error ⟨notes, hst⟩
  | ok m =>
    cases m with
    | none => exact .ok ⟨notes, hst⟩
    | some m =>
      obtain ⟨amount, once⟩ := m
      cases once with
      | false => exact .ok ⟨notes, hst⟩
      | true =>
        obtain ⟨pet, ability, hp, hs, _⟩ := Board.ability_of_damageModifier? h
        obtain ⟨status, _, hstatus, _⟩ := Catalog.status_of_statusAbility hs
        have bears : pet.status ≠ none := by
          rw [hstatus]
          exact nofun
        have used := hst.holds.use hp bears
        exact .ok (marked_mark (marked_modifyPet id hst used) rfl fun hb => hb)

theorem keeps_playAttacks
    (hr : ∀ event, Tracks (raise event) (raise' event)) (attacks : List Attack) :
    Tracks (Resolve.playAttacks rules raise attacks) (playAttacks rules raise' attacks) := by
  have elementary := elementary rules.catalog
  have steps := boardSteps rules.catalog
  have aimed (slot : Nat) (attacks : List Attack) :
      Tracks (aim rules slot attacks) (aimBy (damageFor rules) slot attacks) := by
    rw [aim_eq]
    exact (yields_aimBy_alive (G := fun _ => True) elementary
      (keeps_damageForBy (keeps_applyModifier rules)) (fun _ _ _ _ _ => trivial) slot
      attacks).weaken (fun _ _ hst => hst) fun _ _ _ h => h.2
  refine keeps_playAttacksBy elementary (fun _ _ => keeps_announceBefore elementary (hr _))
    (fun played _ lines _ slot => ?_) fun _ _ => keeps_announceAfter elementary (hr _)
  exact keeps_playRoundBy elementary aimed steps.damage played
    (fun hit => keeps_followUp elementary steps.remove lines (fun _ _ _ _ => hr _) hit) slot

/-! ### Gifts -/

/-- All gifts that were to be noted are noted. -/
theorem noteGifts_run {s t : Arena} (ids : List PetId) (h : s.Marked (Owed ids) t) :
    ∃ t', noteGifts ids t = (.ok (), t') ∧ s.Marked Tracked t' := by
  induction ids generalizing t with
  | nil => exact ⟨t, rfl, h⟩
  | cons id rest ih =>
    obtain ⟨notes, hst⟩ := h
    unfold noteGifts forEach
    rw [bind_run, bind_run]
    unfold pet? look
    dsimp only
    cases hp : t.board.pet? id with
    | none =>
      refine ih ⟨notes, { hst with holds := ?_ }⟩
      exact Owed.unstored hst.holds (hst.board ▸ hp)
    | some pet => exact ih (marked_mark hst rfl Owed.gift)

theorem couples_applyStatus (status : StatusId) (target : Selector) (actor : Option PetId)
    {again again' : Option Again} :
    Couples (.marked Tracked) (Arena.Marked Tracked)
      (Resolve.performWith rules raise again event actor (.applyStatus status target))
      (Resolve.performWith rules raise' again' event actor (.applyStatus status target))
      fun ids => Arena.Marked (Owed ids) := by
  unfold Resolve.performWith
  refine Yields.bind (yields_ofExcept fun _ _ _ _ hst => hst) fun _ _ => ?_
  -- The scope excludes the effect itself, but another one in it selects in the same way.
  refine Couples.bind ((elementary rules.catalog).selects (.reduceHealth 0 target) target event nofun
    (by simp [Effect.selectors]) trivial actor) fun ids => ?_
  have given : Keeps (.marked Tracked) (Arena.Marked (Owed ids))
      (modifyPets ids (Pet.setStatus (some status))) (modifyPets ids (Pet.setStatus (some status))) := by
    refine keeps_forEach ids fun x hx => ⟨?_⟩
    rintro s t ⟨notes, hst⟩
    exact .ok ⟨notes, marked_modifyPet x hst (hst.holds.modifyPet (.inl hx))⟩
  refine Couples.bind (Q := fun _ => Arena.Marked (Owed ids)) (given.weaken ?_ fun _ _ _ hst => hst)
    fun _ => couples_pure ids fun _ _ hst => hst
  rintro s t ⟨notes, hst⟩
  exact ⟨notes, { hst with holds := hst.holds.widen ids }⟩

theorem keeps_applyStatus (status : StatusId) (target : Selector) (actor : Option PetId)
    {again again' : Option Again} :
    Tracks (Resolve.performWith rules raise again event actor (.applyStatus status target))
      (do
        let ids ← Resolve.performWith rules raise' again' event actor (.applyStatus status target)
        noteGifts ids
        pure ids) := by
  refine (couples_applyStatus status target actor).bind_right fun ids s t h => ?_
  obtain ⟨t', run, noted⟩ := noteGifts_run ids h
  exact ⟨t', by rw [bind_run, run]; rfl, noted⟩

/-! ### The whole resolution -/

section

variable (hr : ∀ event, Tracks (raise event) (raise' event))
include hr

theorem telling : Telling scope rules rules raise raise' (.marked Tracked) (Arena.Marked Tracked) :=
  (boardSteps rules.catalog).telling (elementary rules.catalog) rfl (Closed.of_all fun _ => trivial)
    fun event _ => hr event

theorem follows {again again' : Option Again}
    (ha : Resolve.Repeats (fun _ => True) (.marked Tracked) (Arena.Marked Tracked) again again')
    (actor : Option PetId) :
    (wrapping rules raise').Follows (fun _ => True) (.marked Tracked) (Arena.Marked Tracked) rules
      raise raise' again again' event actor where
  choose effects _ n := (elementary rules.catalog).choose (.oneOf effects) nofun rfl n
  around effect hs _ m n hm := by
    cases effect with
    | oneOf | allOf | repeatAbility => exact hm
    | _ => exact absurd trivial hs
  single effect hs _ := by
    cases effect with
    | oneOf | allOf | repeatAbility => exact hs.elim
    | applyStatus status target => exact keeps_applyStatus status target actor
    | dealDamage amount target =>
      exact keeps_dealDamageBy (elementary rules.catalog)
        (fun _ _ _ _ _ _ => keeps_playAttacks hr _) trivial actor nofun
    | _ =>
      show Keeps _ _ _ (Resolve.performWith rules raise' again' event actor _)
      exact keeps_single (elementary rules.catalog) (telling hr).toActing rfl trivial actor nofun trivial
  repeated target level _ :=
    keeps_repeatAbility (p := fun _ => True) (elementary rules.catalog)
      (fun ability _ => ability.effect.every_true) rfl trivial ha actor nofun

/-- By recursion on the causes of the event, as performing goes. -/
theorem keeps_perform : (event : Event) → (actor : Option PetId) → (effect : Effect) →
    Tracks (Resolve.perform rules raise event actor effect) (perform rules raise' event actor effect)
  | ⟨_, _, _, _, _, _, none⟩, actor, effect => by
    unfold perform
    rw [Resolve.perform, Wrapping.perform]
    exact (follows hr (.inl ⟨rfl, rfl⟩) actor).performWith effect effect.every_true
  | ⟨_, _, _, _, _, _, some cause⟩, actor, effect => by
    unfold perform
    rw [Resolve.perform, Wrapping.perform]
    refine (follows hr (.inr ⟨_, _, rfl, rfl, fun id e _ => ?_⟩) actor).performWith effect
      effect.every_true
    exact Couples.bind (keeps_perform cause (some id) e) fun _ => keeps_pure _

end

/-- By induction on the room for nesting. -/
theorem keeps_dispatchIn (rules : Rules) (room : Nat) (event : Event) :
    Tracks (Resolve.dispatchIn rules room event) (dispatchIn rules room event) := by
  induction room generalizing event with
  | zero => exact couples_fail fun _ _ hst => hst
  | succ room ih =>
    refine keeps_told_marked rules.config.maxEvents fun line => ?_
    exact keeps_walk (p := fun _ => True) (elementary rules.catalog) (telling ih)
      (fun ability _ => ability.effect.every_true) rfl
      (fun event _ actor effect _ => keeps_perform ih event actor effect) trivial line [] line

theorem keeps_drain (rules : Rules) :
    Tracks (Resolve.drainQueues rules) (procedures rules).drain := by
  rw [drainQueues_eq]
  exact Wrapping.keeps_drainForemostBy drainable_marked fun attacks =>
    keeps_playAttacks (keeps_dispatchIn rules _) attacks

theorem keeps_attackCycle (rules : Rules) :
    Tracks (Resolve.attackCycle rules (Resolve.procedures rules)) (attackCycle rules) := by
  refine Yields.bind (elementary rules.catalog).yields_board fun b _ => ?_
  exact Couples.bind (keeps_playAttacks (keeps_dispatchIn rules _) _) fun _ => keeps_drain rules

end Spending

/-! ## Whole battles -/

namespace Battle

/-- The replies of a battle to such calls and the battle after them, with notes of uses and gifts. -/
def noteUses (rules : Rules) (teams : Sides Team) (calls : List Call) :
    List (Except EngineError Unit) × Battle :=
  (ofTeams rules.config teams).replies
    (·.callBy rules (opening (Spending.procedures rules)) (Spending.attackCycle rules)) calls

/-- All replies are the same with the notes and without, and the notes fit the board. -/
theorem noteUses_tracked (rules : Rules) (teams : Sides Team) (calls : List Call) :
    let after := (ofTeams rules.config teams).replies (·.callWith rules (procedures rules)) calls
    after.1 = (noteUses rules teams calls).1 ∧
      after.2.Marked Tracked (noteUses rules teams calls).2 := by
  refine related_replies (fun c b b' hb => ?_) (fun _ => not_false) calls
    (marked_ofTeams _ (Owed.nil [] _))
  rw [callWith_eq]
  refine related_callBy boards_marked ?_ (Spending.keeps_attackCycle rules) c hb
  exact keeps_opening_of (fun side => Spending.keeps_dispatchIn rules _ _) (Spending.keeps_drain rules)

/-- Every hit is by the table unless a consulted status is not defined, and notes what it uses up.
Whatever calls are made and however they end, the notes change nothing, and a pet is given a status
between two uses. As the limits of the configuration are free, this holds at every event. -/
theorem damage_modifiers_hold (rules : Rules) :
    (∀ (attack : Attack) (target : PetId) (s : Arena),
      match attack.modifiers? rules.catalog s.board target with
      | .error e => (damageFor rules attack target s).1 = .error e ∧
          ∃ id pet status, (id = attack.attacker ∨ id = target) ∧ s.board.pet? id = some pet ∧
            pet.status = some status ∧ rules.catalog.status status = .error e
      | .ok (bonus, reduction) =>
        (∃ damage b, damageFor rules attack target s = (.ok damage, { s with board := b }) ∧
          attack.Ruled target bonus reduction s.board damage b) ∧
        (Spending.damageFor rules attack target s).2.log.marks =
          s.log.marks ++ Spending.uses attack target bonus reduction) ∧
    ∀ (teams : Sides Team) (calls : List Call),
      let after := (ofTeams rules.config teams).replies (·.callWith rules (procedures rules)) calls
      after.1 = (noteUses rules teams calls).1 ∧
        after.2.Marked (fun _ _ => True) (noteUses rules teams calls).2 ∧
        OncePerGift (noteUses rules teams calls).2.arena.log.marks := by
  refine ⟨fun attack target s => ?_, fun teams calls => ?_⟩
  · have ruled := damageFor_ruled rules attack target s
    have noted := Spending.marks_damageFor rules attack target s
    cases h : attack.modifiers? rules.catalog s.board target with
    | error e =>
      rw [h] at ruled
      exact ruled
    | ok modifiers =>
      rw [h] at ruled noted
      exact ⟨ruled, noted⟩
  · obtain ⟨replies, tracked⟩ := noteUses_tracked rules teams calls
    obtain ⟨notes, hst⟩ := tracked.arena
    refine ⟨replies, { tracked with arena := ⟨notes, { hst with holds := trivial }⟩ }, ?_⟩
    have marks : (noteUses rules teams calls).2.arena.log.marks = notes := hst.log.noted
    rw [marks]
    exact hst.holds.history

/-- Kills what its bearer hits, once. -/
def venom : StatusKind :=
  ⟨⟨"status-venom"⟩, "status-venom", ⟨"", .whenAttacking, .player, .modifyDamage none true, none⟩⟩

/-- Takes five points off a hit, once. -/
def coconut : StatusKind :=
  ⟨⟨"status-coconut"⟩, "status-coconut",
    ⟨"", .whenDamaged, .player, .modifyDamage (some 5) true, none⟩⟩

def armorRules : Rules := ⟨.ofLists [ant] [venom, coconut] [], { recordEvents := true }⟩

def armorTeams : Sides Team :=
  ⟨.ofPets [(Pet.ofKind ant).setStatus (some venom.id)],
    .ofPets [(Pet.ofKind ant).setStatus (some coconut.id)]⟩

/-- The hit that would kill is absorbed, and both statuses are used up. -/
theorem damage_modifiers_hold_coconut :
    OncePerGift (noteUses armorRules armorTeams [.step]).2.arena.log.marks ∧
      (noteUses armorRules armorTeams [.step]).2.arena.log.marks = [useOf ⟨0⟩, useOf ⟨1⟩] ∧
      (noteUses armorRules armorTeams [.step]).2.arena.board.roster .b = [⟨1⟩] :=
  ⟨((damage_modifiers_hold armorRules).2 armorTeams [.step]).2.2, by decide +kernel, by decide +kernel⟩

end Battle

end AutoBattler
