import AutoBattler.Proofs.Accounts
import AutoBattler.Proofs.Capacity
import AutoBattler.Proofs.Casting
import AutoBattler.Proofs.Choosing
import AutoBattler.Proofs.HomeSide
import AutoBattler.Proofs.Repeats
import AutoBattler.Proofs.Teaching
import Mathlib.Data.List.Count

/-!
# Meals

A food tells of each pet that it touched as often as its effect lists the pet. An effect in parts
lists a pet once for each part that touches it, so the meal of a pet may be told twice; of the forms
of effects only those that join parts and those that touch pets in line bring this about together.
-/
namespace AutoBattler

open Resolve

/-- The sources of the records of meals, in order. -/
def eaters (told : List EventRecord) : List (Option PetId) :=
  (told.filter (·.trigger = .eatsShopFood)).map (·.source)

/-- What an event adds to them. -/
def Event.eaters (event : Event) : List (Option PetId) :=
  if event.trigger = .eatsShopFood then [event.source] else []

theorem eaters_append (told more : List EventRecord) :
    eaters (told ++ more) = eaters told ++ eaters more := by
  unfold eaters
  rw [List.filter_append, List.map_append]

theorem eaters_record (event : Event) (depth : Nat) : eaters [event.record depth] = event.eaters := by
  unfold eaters Event.eaters Event.record
  by_cases h : event.trigger = .eatsShopFood <;> simp [h]

theorem Event.eaters_of_ne {event : Event} (h : event.trigger ≠ .eatsShopFood) : event.eaters = [] :=
  if_neg h

namespace Resolve

variable {rules : Rules} {raise : Raise} {event : Event} {base : List EventRecord}
  {eaten : List (Option PetId)}

/-- Since the log stood at `base` these meals were told. -/
structure Served (base : List EventRecord) (eaten : List (Option PetId)) (s : Arena) : Prop where
  enabled : s.log.enabled = true
  told : ∃ told, s.log.headings = base ++ told ∧ eaters told = eaten

theorem Served.congr {s t : Arena} (h : Served base eaten s) (hl : t.log = s.log) : Served base eaten t where
  enabled := hl ▸ h.enabled
  told := hl ▸ h.told

theorem Served.opened {s : Arena} (h : Served base eaten s) (event : Event) :
    Served base (eaten ++ event.eaters) (s.opened event) where
  enabled := (s.log.enabled_openRecord _).trans h.enabled
  told := by
    obtain ⟨told, hlog, rfl⟩ := h.told
    refine ⟨told ++ [event.record (s.nesting + 1)], ?_, ?_⟩
    · rw [Arena.opened, EventLog.headings_openRecord h.enabled, hlog, List.append_assoc]
    · rw [eaters_append, eaters_record]

theorem Served.closed {t : Arena} (h : Served base eaten t) (slot : Option Nat)
    (notified : List PetId) : Served base eaten (t.closed slot notified) where
  enabled := (t.enabled_closed slot notified).trans h.enabled
  told := by
    obtain ⟨told, hlog, rfl⟩ := h.told
    exact ⟨told, (t.headings_closed slot notified).trans hlog, rfl⟩

theorem leads_uneaten : Leads shopScope fun event =>
    shopScope.events event ∧ event.trigger ≠ .eatsShopFood where
  levelUp event side id he := ⟨leads_shopScope.levelUp event side id he, nofun⟩
  summoned event side id he := ⟨leads_shopScope.summoned event side id he, nofun⟩
  attack event he hb _ _ _ := by
    rw [he.1] at hb
    cases hb

theorem elementary_served (c : Catalog) (base : List EventRecord) (eaten : List (Option PetId)) :
    Elementary shopScope c (.same anyway) (Same (Served base eaten)) :=
  elementary_of_congr (fun _ _ _ _ _ => trivial) (fun _ _ hs hl _ _ _ => hs.congr hl)
    (fun _ hs _ _ _ => hs.congr rfl) fun _ _ _ _ => trivial

/-- Telling an event of a turn enters a meal if it is one, and what it leads to enters none. -/
def Serves (base : List EventRecord) (raise : Raise) : Prop :=
  ∀ eaten event, shopScope.events event →
    Triple anyway (Served base eaten) (raise event) fun _ => Served base (eaten ++ event.eaters)

theorem acting_served (h : Serves base raise) (eaten : List (Option PetId)) :
    Acting shopScope rules rules raise raise (.same anyway) (Same (Served base eaten)) := by
  refine (boardSteps_of_unseen fun _ _ hs => hs.congr rfl).acting (elementary_served ..) rfl
    leads_uneaten fun event ht => ?_
  have told := h eaten event ht.1
  rwa [Event.eaters_of_ne ht.2, List.append_nil] at told

/-- By induction on the room for nesting. -/
theorem serves_dispatchIn (rules : Rules) (base : List EventRecord) (room : Nat) :
    Serves base (dispatchIn rules room) := by
  induction room with
  | zero => exact fun _ _ _ => couples_fail fun s t hst => ⟨hst.1, trivial⟩
  | succ room ih =>
    intro eaten event he
    have telling (eaten : List (Option PetId)) : Telling shopScope rules rules (dispatchIn rules room)
        (dispatchIn rules room) (.same anyway) (Same (Served base eaten)) := {
      toActing := acting_served ih eaten
      cast := fun event he hb => by
        rw [he.1] at hb
        cases hb }
    have elementary := elementary_served rules.catalog base
    have covers := covers_shopScope rules.catalog
    apply Triple.intro
    intro s hs
    apply ends_dispatchIn
    · exact fun _ => trivial
    · exact hs.opened event
    · exact fun line => keeps_walk (elementary _) (telling _) covers.effects rfl
        (acts_perform (elementary _) (telling _) covers rfl) he line [] line
    · exact fun _ _ _ => trivial
    · exact fun t notified ht => ht.closed _ notified

/-- Meals that are told one after the other are entered in this order. -/
theorem Serves.forEach (h : Serves base raise) (hp : event.isBattle = false) (ids : List PetId)
    (eaten : List (Option PetId)) :
    Triple anyway (Served base eaten)
      (Resolve.forEach ids fun id => raise (event.followUp .eatsShopFood .a id))
      fun _ => Served base (eaten ++ ids.map some) := by
  induction ids generalizing eaten with
  | nil =>
    rw [List.map_nil, List.append_nil]
    exact keeps_pure _
  | cons id rest ih =>
    refine Couples.bind (h eaten _ ⟨hp, rfl⟩) fun _ => ?_
    rw [List.map_cons, ← List.singleton_append, ← List.append_assoc]
    exact ih _

/-- A meal is told of each pet that the food touched, in order. -/
theorem served_feed (rules : Rules) (base : List EventRecord) (food : FoodId) (target : Nat) :
    Triple anyway (Served base []) (feed rules (procedures rules) food target)
      fun affected => Served base (affected.map some) := by
  have serves := serves_dispatchIn rules base rules.config.maxDispatchDepth
  unfold feed
  refine Yields.bind (yields_ofExcept fun _ _ s t hst => ⟨hst.1, trivial⟩) fun definition hd => ?_
  have found : Triple anyway (Served base []) (petAt target) fun _ => Served base [] :=
    (PurchasePhase.triple_petAt fun _ _ _ _ => trivial).weaken (fun _ _ he => he) (fun _ hs => hs)
      fun _ _ hs => hs.1
  refine Couples.bind found fun id => ?_
  have answered := (PurchasePhase.isOfTurn_purchase definition.ability.trigger).withPurchase id food
  have acting : Acting shopScope rules rules (dispatch rules) (dispatch rules) (.same anyway)
    (Same (Served base [])) := acting_served serves []
  refine Couples.bind (keeps_perform (elementary_served rules.catalog base []) acting
    (covers_shopScope _) rfl _ ⟨answered.peaceful, answered.uncaused⟩ none _
    definition.ability.effect.every_true) fun affected => ?_
  refine Couples.bind (serves.forEach answered.peaceful affected []) fun _ => ?_
  rw [List.nil_append]
  exact couples_pure _ fun _ _ hst => hst

end Resolve

/-! ## What a food touches -/

namespace Effect

/-- The effect itself lists pets that are in line already. -/
def Touching : Effect → Prop
  | modifyStats .. => True
  | gainExperience .. => True
  | applyStatus .. => True
  | reduceHealth .. => True
  | transferStats .. => True
  | transferAbility .. => True
  | _ => False

/-- The effect itself joins the lists of its parts. -/
def Joining : Effect → Prop
  | allOf _ => True
  | _ => False

/-- The effect has no parts. -/
def Single : Effect → Prop
  | oneOf _ => False
  | allOf _ => False
  | _ => True

end Effect

/-- The event that a food answers: it has no cause and no line of its own. -/
structure Event.IsFeeding (event : Event) : Prop where
  peaceful : event.isBattle = false
  unwitnessed : event.snapshot = none
  uncaused : event.cause = none

/-- The pets came between the two boards, each once. -/
structure Board.Fresh (b : Board) (ids : List PetId) (b' : Board) : Prop where
  nodup : ids.Nodup
  since : ∀ id ∈ ids, b.nextId ≤ id.number
  known : ∀ id ∈ ids, id.number < b'.nextId

namespace Board

variable {b b' b'' : Board} {ids more : List PetId}

theorem fresh_nil (b b' : Board) : b.Fresh [] b' := ⟨List.nodup_nil, nofun, nofun⟩

theorem Fresh.append (h : b.Fresh ids b') (h' : b'.Fresh more b'') (hb : b.nextId ≤ b'.nextId)
    (hb' : b'.nextId ≤ b''.nextId) : b.Fresh (ids ++ more) b'' where
  nodup := List.nodup_append'.2 ⟨h.nodup, h'.nodup, fun id hi hm =>
    Nat.not_lt.2 (h'.since id hm) (h.known id hi)⟩
  since id hm := (List.mem_append.1 hm).elim (h.since id) fun hi => Nat.le_trans hb (h'.since id hi)
  known id hm := (List.mem_append.1 hm).elim (fun hi => Nat.lt_of_lt_of_le (h.known id hi) hb')
    (h'.known id)

end Board

namespace Resolve

variable {rules : Rules} {raise : Raise} {event : Event} {room : Nat} {s : Arena}

/-- The list of a step that gives back the targets it has found names no pet twice. -/
theorem nodup_touched (hs : event.snapshot = none) (actor : Option PetId) (selector : Selector)
    (body : List PetId → Resolve Unit) (hw : s.board.WellFormed) :
    Ends anyway (fun ids _ => ids.Nodup) ((do
      let ids ← targets event actor selector
      body ids
      pure ids) s) := by
  have posed : Targeting.View.WellPosed ⟨s.board, event, actor⟩ := by
    refine ⟨hw, fun line hl => ?_, fun line hl => ?_⟩ <;> simp [hs] at hl
  have found : Ends anyway (fun ids _ => ids.Nodup) (targets event actor selector s) :=
    Targeting.nodup_resolve posed selector s.random
  refine found.bind fun ids t hi => ?_
  exact Ends.bind (triple_iff.1 (triple_anyway (I := fun _ => True) (body ids)) t trivial)
    fun _ _ _ => hi

theorem fresh_spawnCopies (side : Side) (pet : Pet) (placement : Placement) (hw : s.board.WellFormed) :
    Ends anyway (fun ids t => t.board.WellFormed ∧ s.board.Fresh ids t.board)
      (spawnCopies side pet placement 1 s) := by
  unfold spawnCopies
  rw [bind_run]
  unfold Resolve.spawn
  cases hspawn : s.board.spawn? side pet placement with
  | none => exact ⟨hw, Board.fresh_nil _ _⟩
  | some r =>
    obtain ⟨id, b⟩ := r
    have arrives := Board.arrives_of_spawn? hspawn
    obtain rfl := arrives.number
    have known : s.board.nextId < b.nextId :=
      Nat.lt_of_lt_of_eq (Nat.lt_succ_self _) arrives.nextId.symm
    refine ⟨arrives.wellFormed hw, List.nodup_singleton _, ?_, ?_⟩
    · exact List.forall_mem_singleton.2 (Nat.le_refl _)
    · exact List.forall_mem_singleton.2 known

theorem fresh_bringIn (rules : Rules) (room : Nat) (event : Event) (side : Side) (pet : Pet)
    (placement : Placement) (hw : s.board.WellFormed) :
    Ends anyway (fun ids t => s.board.Fresh ids t.board)
      (bringIn (dispatchIn rules room) event side pet placement 1 s) := by
  refine (fresh_spawnCopies side pet placement hw).bind fun ids t ⟨ht, fresh⟩ => ?_
  have led := led_forEach_dispatchIn rules room ids (fun id => event.followUp .summoned side id) ht
  obtain ⟨ops, _, hops⟩ := led.follows
  have later := (ht.after ops).2.nextId
  rw [← hops] at later
  rw [bind_run]
  generalize forEach ids _ t = r at later
  obtain ⟨r, u⟩ := r
  cases r with
  | ok _ =>
    exact ⟨fresh.nodup, fresh.since, fun id hm => Nat.lt_of_lt_of_le (fresh.known id hm) later⟩
  | error e => trivial

/-- With no pet as its summoner at most one pet is summoned. -/
theorem fresh_summon (rules : Rules) (room : Nat) (event : Event) (request : Summons)
    (hw : s.board.WellFormed) :
    Ends anyway (fun ids t => s.board.Fresh ids t.board)
      (summon rules (dispatchIn rules room) event none request s) := by
  unfold summon
  rw [bind_run]
  cases hk : rules.catalog.petKind request.kind with
  | error e => trivial
  | ok kind =>
    dsimp only [ofExcept]
    rw [bind_run]
    dsimp only [board, look]
    have rule : SummonRule.of? none request.kind request.team ≠ some .twins := by
      unfold SummonRule.of?
      split
      · simp
        split <;> simp
      · simp
    simp only [Option.bind_none, Option.map_none]
    generalize SummonRule.of? none request.kind request.team = found at rule
    rcases found with _ | _ | _ | _ | _
    · exact fresh_bringIn _ _ _ _ _ _ hw
    · exact absurd rfl rule
    · exact fresh_bringIn _ _ _ _ _ _ hw
    · dsimp only
      split
      · exact Board.fresh_nil _ _
      · exact fresh_bringIn _ _ _ _ _ _ hw
    · exact fresh_bringIn _ _ _ _ _ _ hw

variable {effect : Effect}

/-- How a food performs an effect: for no pet, in answer to an event without a cause. -/
abbrev serve (rules : Rules) (room : Nat) (event : Event) : Effect → Resolve (List PetId) :=
  performWith rules (dispatchIn rules room) none event none

theorem nodup_donated (hs : event.snapshot = none) (giver receivers : Selector)
    (f : Pet → Pet → Pet) (hw : s.board.WellFormed) :
    Ends anyway (fun ids _ => ids.Nodup) ((do
      match ← donor event none giver with
      | none => pure []
      | some pet =>
        let ids ← targets event none receivers
        modifyPets ids (f pet)
        pure ids) s) := by
  obtain ⟨found, g, run⟩ : ∃ found g, donor event none giver s = (.ok found, { s with random := g }) :=
    ⟨_, _, rfl⟩
  rw [bind_run, run]
  cases found with
  | none => exact List.nodup_nil
  | some pet => exact nodup_touched (s := { s with random := g }) hs none receivers _ hw

theorem ends_pure_nodup {m : Resolve Unit} :
    Ends anyway (fun ids _ => ids.Nodup) ((m >>= fun _ => pure ([] : List PetId)) s) := by
  rw [bind_run]
  generalize m s = r
  obtain ⟨_ | _, _⟩ := r
  · trivial
  · exact List.nodup_nil

/-- An effect that touches pets in line lists none of them twice. -/
theorem nodup_of_touching (he : event.IsFeeding) (ht : effect.Touching) (hw : s.board.WellFormed) :
    Ends anyway (fun ids _ => ids.Nodup) (serve rules room event effect s) := by
  have touched := fun selector body => nodup_touched he.unwitnessed none selector body hw
  cases effect with
  | modifyStats attack health target temporary =>
    cases target with
    | eachShopAnimal includingFuture =>
      dsimp only [serve, performWith, modifyStats]
      split
      · exact List.nodup_nil
      · exact ends_pure_nodup
    | _ => exact touched _ _
  | gainExperience amount target => exact touched _ _
  | applyStatus status target =>
    dsimp only [serve]
    rw [performWith, bind_run]
    cases rules.catalog.status status with
    | error e => trivial
    | ok known => exact touched _ _
  | reduceHealth percentage target => exact touched _ _
  | transferStats giver receivers copyAttack copyHealth =>
    exact nodup_donated he.unwitnessed giver receivers (copyStats · copyAttack copyHealth) hw
  | transferAbility giver receivers level =>
    exact nodup_donated he.unwitnessed giver receivers
      (fun pet => Pet.borrow pet.abilityKind (level.getD pet.abilityLevel)) hw
  | _ => exact absurd ht id

/-- A single effect that touches no pets in line lists only pets that came with it. -/
theorem fresh_of_single (hs : effect.Single) (ht : ¬ effect.Touching) (hw : s.board.WellFormed) :
    Ends anyway (fun ids t => s.board.Fresh ids t.board) (serve rules room event effect s) := by
  cases effect with
  | summonPet kind team attack health => exact fresh_summon rules room event _ hw
  | summonRandomPet tier attack health level =>
    dsimp only [serve]
    rw [performWith, summonRandom]
    refine Ends.bind (E := anyway) (A := fun _ t => t.board = s.board) rfl fun i t ht => ?_
    rw [← ht] at hw ⊢
    cases i.bind ((rules.catalog.kindsInTier tier)[·]?) with
    | none => trivial
    | some kind => exact fresh_summon rules room event _ hw
  | evolve into =>
    dsimp only [serve]
    rw [performWith, evolve, bind_run]
    cases rules.catalog.petKind into with
    | error e => trivial
    | ok kind => exact Board.fresh_nil _ _
  | repeatAbility target level =>
    dsimp only [serve]
    rw [performWith, repeatAbility]
    · exact Board.fresh_nil _ _
    · exact nofun
  | dealDamage | splashDamage | respawnPet | gainGold | modifyDamage => exact Board.fresh_nil _ _
  | oneOf | allOf => exact absurd hs id
  | _ => exact absurd trivial ht

/-- A single effect lists no pet twice. -/
theorem nodup_of_single (he : event.IsFeeding) (hs : effect.Single) (hw : s.board.WellFormed) :
    Ends anyway (fun ids _ => ids.Nodup) (serve rules room event effect s) := by
  by_cases ht : effect.Touching
  · exact nodup_of_touching he ht hw
  · exact (fresh_of_single hs ht hw).weaken (fun _ _ _ => trivial) fun _ _ fresh => fresh.nodup

/-- The board after an effect follows from the one before. -/
theorem follows_serve (he : event.IsFeeding) (effect : Effect) (hw : s.board.WellFormed) :
    Ends (fun _ t => t.board.WellFormed ∧ s.board.nextId ≤ t.board.nextId)
      (fun _ t => t.board.WellFormed ∧ s.board.nextId ≤ t.board.nextId)
      (serve rules room event effect s) := by
  have follows := (follows_of_wellFormed rules room event hw).2 none effect
  rw [perform_of_uncaused he.uncaused] at follows
  obtain ⟨ops, _, later⟩ := follows
  have after := hw.after ops
  rw [← later] at after
  exact ends_always.2 ⟨after.1, after.2.nextId⟩

mutual

/-- Where no pets in line are touched, those that are listed have come with the effect. -/
theorem fresh_serve (he : event.IsFeeding) : (effect : Effect) → effect.Every (fun e => ¬ e.Touching) →
    ∀ {s : Arena}, s.board.WellFormed →
      Ends anyway (fun ids t => s.board.Fresh ids t.board) (serve rules room event effect s)
  | .oneOf effects, h, s, hw => by
    dsimp only [serve]
    rw [performWith]
    refine Ends.bind (E := anyway) (A := fun _ t => t.board = s.board) rfl fun i t ht => ?_
    rw [← ht] at hw ⊢
    cases i with
    | none => exact Board.fresh_nil _ _
    | some i => exact fresh_serveNth he effects i h.2 hw
  | .allOf effects, h, s, hw => by
    dsimp only [serve]
    rw [performWith]
    exact fresh_serveAll he effects h.2 hw (Board.fresh_nil _ _) (Nat.le_refl _)
  | .modifyStats .., h, _, hw | .gainExperience .., h, _, hw | .applyStatus .., h, _, hw
  | .dealDamage .., h, _, hw | .splashDamage _, h, _, hw | .reduceHealth .., h, _, hw
  | .summonPet .., h, _, hw | .summonRandomPet .., h, _, hw | .respawnPet .., h, _, hw
  | .transferStats .., h, _, hw | .transferAbility .., h, _, hw | .gainGold _, h, _, hw
  | .evolve _, h, _, hw | .repeatAbility .., h, _, hw | .modifyDamage .., h, _, hw =>
    fresh_of_single trivial h.1 hw

theorem fresh_serveNth (he : event.IsFeeding) : (effects : List Effect) → (i : Nat) →
    Effect.EveryOf (fun e => ¬ e.Touching) effects → ∀ {s : Arena}, s.board.WellFormed →
      Ends anyway (fun ids t => s.board.Fresh ids t.board)
        (performNth rules (dispatchIn rules room) none event none effects i s)
  | [], _, _, _, _ => Board.fresh_nil _ _
  | e :: _, 0, h, _, hw => fresh_serve he e h.1 hw
  | _ :: rest, i + 1, h, _, hw => fresh_serveNth he rest i h.2 hw

/-- What a later part brings in is none of what the earlier ones have brought in. -/
theorem fresh_serveAll (he : event.IsFeeding) : (effects : List Effect) →
    Effect.EveryOf (fun e => ¬ e.Touching) effects → ∀ {s : Arena} {b : Board}
      {touched : List (List PetId)}, s.board.WellFormed → b.Fresh touched.reverse.flatten s.board →
      b.nextId ≤ s.board.nextId → Ends anyway (fun ids t => b.Fresh ids t.board)
        (performAll rules (dispatchIn rules room) none event none touched effects s)
  | [], _, _, _, _, _, hf, _ => hf
  | e :: rest, h, s, b, touched, hw, hf, hb => by
    have fresh : Ends anyway (fun ids t => s.board.Fresh ids t.board) (serve rules room event e s) :=
      fresh_serve he e h.1 hw
    rw [performAll]
    refine Ends.bind ((fresh.and (follows_serve he e hw)).weaken (fun _ _ _ => trivial) fun _ _ h => h)
      fun ids t ⟨hi, wellFormed, later⟩ => ?_
    refine fresh_serveAll he rest h.2 wellFormed ?_ (Nat.le_trans hb later)
    rw [List.reverse_cons, List.flatten_append, List.flatten_singleton]
    exact hf.append hi hb later

end

mutual

/-- Where no lists are joined, no pet is listed twice. -/
theorem nodup_serve (he : event.IsFeeding) : (effect : Effect) → effect.Every (fun e => ¬ e.Joining) →
    ∀ {s : Arena}, s.board.WellFormed →
      Ends anyway (fun ids _ => ids.Nodup) (serve rules room event effect s)
  | .oneOf effects, h, s, hw => by
    dsimp only [serve]
    rw [performWith]
    refine Ends.bind (E := anyway) (A := fun _ t => t.board = s.board) rfl fun i t ht => ?_
    rw [← ht] at hw
    cases i with
    | none => exact List.nodup_nil
    | some i => exact nodup_serveNth he effects i h.2 hw
  | .allOf _, h, _, _ => absurd trivial h.1
  | .modifyStats .., _, _, hw | .gainExperience .., _, _, hw | .applyStatus .., _, _, hw
  | .dealDamage .., _, _, hw | .splashDamage _, _, _, hw | .reduceHealth .., _, _, hw
  | .summonPet .., _, _, hw | .summonRandomPet .., _, _, hw | .respawnPet .., _, _, hw
  | .transferStats .., _, _, hw | .transferAbility .., _, _, hw | .gainGold _, _, _, hw
  | .evolve _, _, _, hw | .repeatAbility .., _, _, hw | .modifyDamage .., _, _, hw =>
    nodup_of_single he trivial hw

theorem nodup_serveNth (he : event.IsFeeding) : (effects : List Effect) → (i : Nat) →
    Effect.EveryOf (fun e => ¬ e.Joining) effects → ∀ {s : Arena}, s.board.WellFormed →
      Ends anyway (fun ids _ => ids.Nodup)
        (performNth rules (dispatchIn rules room) none event none effects i s)
  | [], _, _, _, _ => List.nodup_nil
  | e :: _, 0, h, _, hw => nodup_serve he e h.1 hw
  | _ :: rest, i + 1, h, _, hw => nodup_serveNth he rest i h.2 hw

end

end Resolve

/-! ## Feeding in a turn -/

theorem countP_reports (told : List EventRecord) (id : PetId) :
    told.countP (·.Reports .eatsShopFood id) = (eaters told).count (some id) := by
  unfold eaters
  rw [List.count_eq_countP, List.countP_map, List.countP_filter]
  refine List.countP_congr fun r _ => ?_
  rw [decide_eq_true_iff]
  unfold EventRecord.Reports
  simp [and_comm]

theorem count_eq_ite_iff_nodup {ids : List PetId} :
    (∀ id, ids.count id = if id ∈ ids then 1 else 0) ↔ ids.Nodup := by
  rw [List.nodup_iff_count_eq_one]
  refine forall_congr' fun id => ?_
  by_cases hm : id ∈ ids
  · simp [hm]
  · simp [hm, List.count_eq_zero_of_not_mem hm]

namespace PurchasePhase

variable {rules : Rules} {team : Team} {shop : Shop} {p : PurchasePhase} {food : FoodId}
  {target : Nat} {affected : List PetId}

theorem feed_run (hf : (p.feed rules food target).1 = .ok affected) :
    Resolve.feed rules (procedures rules) food target p.arena =
      (.ok affected, (p.feed rules food target).2.arena) := by
  obtain ⟨result, arena⟩ := play_eq (Resolve.feed rules (procedures rules) food target) p
  exact Prod.ext (result.symm.trans hf) arena.symm

/-- The meals that a call tells of are those of the pets that it gives, in order. -/
theorem eaters_feed (hr : rules.config.recordEvents = true)
    (h : Reachable rules team shop (fun _ => True) p)
    (hf : (p.feed rules food target).1 = .ok affected) :
    p.arena.log.headings ++ toldSince p.arena (p.feed rules food target).2.arena =
        (p.feed rules food target).2.arena.log.headings ∧
      eaters (toldSince p.arena (p.feed rules food target).2.arena) = affected.map some := by
  have start : Served p.arena.log.headings [] p.arena :=
    ⟨(tallied_of_reachable hr h).kept, [], (List.append_nil _).symm, rfl⟩
  obtain ⟨told, hlog, heaters⟩ := ((served_feed rules _ food target).ok start (feed_run hf)).told
  have since : toldSince p.arena (p.feed rules food target).2.arena = told := by
    unfold toldSince
    rw [hlog, List.drop_left]
  rw [since]
  exact ⟨hlog.symm, heaters⟩

/-- Of every pet that the food touched one meal is told, and none of any other. -/
def TellsEachOnce (p p' : PurchasePhase) (affected : List PetId) : Prop :=
  ∀ id, (toldSince p.arena p'.arena).countP (·.Reports .eatsShopFood id) =
    if id ∈ affected then 1 else 0

theorem tellsEachOnce_iff_nodup (hr : rules.config.recordEvents = true)
    (h : Reachable rules team shop (fun _ => True) p)
    (hf : (p.feed rules food target).1 = .ok affected) :
    TellsEachOnce p (p.feed rules food target).2 affected ↔ affected.Nodup := by
  rw [← count_eq_ite_iff_nodup]
  refine forall_congr' fun id => ?_
  rw [countP_reports, (eaters_feed hr h hf).2,
    List.count_map_of_injective affected some (fun _ _ => Option.some.inj) id]

/-- A food lists no pet twice if its effect lists none twice. -/
theorem nodup_feed (rules : Rules) (food : FoodId) (target : Nat)
    (hserve : ∀ definition, rules.catalog.food food = .ok definition →
      ∀ event s, event.IsFeeding → s.board.WellFormed → Ends anyway (fun ids _ => ids.Nodup)
        (serve rules rules.config.maxDispatchDepth event definition.ability.effect s)) :
    Triple anyway (fun s => s.board.WellFormed)
      (Resolve.feed rules (procedures rules) food target) fun ids _ => ids.Nodup := by
  unfold Resolve.feed
  refine Yields.bind (yields_ofExcept fun _ _ s t hst => ⟨hst.1, trivial⟩) fun definition hd => ?_
  refine Couples.bind (triple_petAt fun _ _ _ _ => trivial) fun id => ?_
  have served : Triple anyway (fun s => s.board.WellFormed ∧ id ∈ s.board.roster .a)
      ((procedures rules).act ((Event.purchase definition.ability.trigger).withPurchase id food) none
        definition.ability.effect) fun ids _ => ids.Nodup := by
    refine Triple.intro fun s hs => ?_
    have performed : (procedures rules).act
        ((Event.purchase definition.ability.trigger).withPurchase id food) none
        definition.ability.effect = serve rules rules.config.maxDispatchDepth
          ((Event.purchase definition.ability.trigger).withPurchase id food)
          definition.ability.effect := perform_of_uncaused rfl _
    rw [performed]
    exact hserve definition hd _ s ⟨rfl, rfl, rfl⟩ hs.1
  refine Couples.bind served fun ids => ?_
  refine Triple.intro fun s hn => ?_
  exact Ends.bind (triple_iff.1 (triple_anyway (I := fun _ => True) _) s trivial) fun _ _ _ => hn

/-! ## Which forms of effects tell each meal once -/

/-- Whatever food is fed in whatever recorded turn over effects of these forms, one meal is told of
every pet that it touched, and none of any other. -/
def TellsMealsOnce (forms : Nat → Prop) : Prop :=
  ∀ (rules : Rules) (team : Team) (shop : Shop) (p : PurchasePhase),
    rules.config.recordEvents = true → (rules.catalog.Every fun e => forms e.form) →
    Reachable rules team shop (fun _ => True) p →
    ∀ food target affected, (p.feed rules food target).1 = .ok affected →
      TellsEachOnce p (p.feed rules food target).2 affected

theorem nodup_of_forms {forms : Nat → Prop}
    (hforms : (∀ e : Effect, forms e.form → ¬ e.Joining) ∨ (∀ e : Effect, forms e.form → ¬ e.Touching))
    (hevery : rules.catalog.Every fun e => forms e.form)
    (h : Reachable rules team shop (fun _ => True) p)
    (hf : (p.feed rules food target).1 = .ok affected) : affected.Nodup := by
  refine (nodup_feed rules food target ?_).ok
    (wellFormed_of_reachable h) (feed_run hf)
  intro definition hd event s he hw
  have permitted := hevery _ (offers_food hd)
  rcases hforms with unjoined | untouching
  · exact nodup_serve he _ (permitted.imp unjoined) hw
  · exact (fresh_serve he _ (permitted.imp untouching) hw).weaken (fun _ _ _ => trivial)
      fun _ _ fresh => fresh.nodup

/-! ## A second helping -/

/-- A status that does nothing. -/
def calm : StatusKind := ⟨⟨"status-calm"⟩, "status-calm", ⟨"", .hurt, .self, .allOf [], none⟩⟩

/-- Changes of the pet that is fed, one of each form. -/
def helpings : List Effect :=
  [.modifyStats 1 1 .purchaseTarget false, .gainExperience 1 .purchaseTarget,
    .applyStatus ⟨"status-calm"⟩ .purchaseTarget, .reduceHealth 50 .purchaseTarget,
    .transferStats .purchaseTarget .purchaseTarget true true,
    .transferAbility .purchaseTarget .purchaseTarget none]

def helpingRules (e : Effect) : Rules :=
  ⟨.ofLists [guest ⟨"pet-ant"⟩] [calm] [treat (.allOf [e, e])], { recordEvents := true }⟩

def helpingTurn (e : Effect) : PurchasePhase :=
  ofTeam (helpingRules e).config (.ofPets [.ofKind (guest ⟨"pet-ant"⟩)]) (.ofGold startingGold)

/-- The ant is fed a food that changes it twice. -/
def secondHelping (e : Effect) : Except EngineError (List PetId) × PurchasePhase :=
  (helpingTurn e).feed (helpingRules e) ⟨"food-treat"⟩ 0

/-- Two meals of the one pet are told. -/
theorem second_helping_is_told_again : ∀ e ∈ helpings, (secondHelping e).1 = .ok [⟨0⟩, ⟨0⟩] ∧
    (toldSince (helpingTurn e).arena (secondHelping e).2.arena).countP (·.Reports .eatsShopFood ⟨0⟩)
      = 2 := by
  decide +kernel

theorem every_helpingRules {P : Effect → Prop} {e : Effect} (hj : ∀ parts, P (.allOf parts))
    (he : e.Every P) : (helpingRules e).catalog.Every P := by
  apply Catalog.every_ofLists
  · intro kind hm ability ha
    rw [List.mem_singleton.1 hm] at ha
    simp [guest] at ha
  · intro status hm
    rw [List.mem_singleton.1 hm]
    exact ⟨hj [], trivial⟩
  · intro food hm
    rw [List.mem_singleton.1 hm]
    exact ⟨hj _, he, he, trivial⟩

theorem helping_of_touching {e : Effect} (h : e.Touching) :
    ∃ helping ∈ helpings, helping.Every fun part => part.form = e.form := by
  unfold helpings
  cases e with
  | modifyStats => exact ⟨_, .head _, rfl, trivial⟩
  | gainExperience => exact ⟨_, .tail _ (.head _), rfl, trivial⟩
  | applyStatus => exact ⟨_, .tail _ (.tail _ (.head _)), rfl, trivial⟩
  | reduceHealth => exact ⟨_, .tail _ (.tail _ (.tail _ (.head _))), rfl, trivial⟩
  | transferStats => exact ⟨_, .tail _ (.tail _ (.tail _ (.tail _ (.head _)))), rfl, trivial⟩
  | transferAbility =>
    exact ⟨_, .tail _ (.tail _ (.tail _ (.tail _ (.tail _ (.head _))))), rfl, trivial⟩
  | _ => exact absurd h id

theorem not_tellsMealsOnce {forms : Nat → Prop} {e e' : Effect} (he : forms e.form)
    (hj : e.Joining) (he' : forms e'.form) (ht : e'.Touching) : ¬ TellsMealsOnce forms := by
  intro tells
  obtain ⟨helping, hmem, every⟩ := helping_of_touching ht
  obtain ⟨fed, twice⟩ := second_helping_is_told_again helping hmem
  have joins (parts : List Effect) : forms (Effect.allOf parts).form := by
    cases e with
    | allOf => exact he
    | _ => exact absurd hj id
  have permitted : (helpingRules helping).catalog.Every fun part => forms part.form :=
    every_helpingRules joins (every.imp fun _ hp => hp ▸ he')
  have once := tells (helpingRules helping) _ _ (helpingTurn helping) rfl permitted .new _ _ _ fed ⟨0⟩
  have one := twice.symm.trans once
  simp at one

theorem tellsMealsOnce_iff (forms : Nat → Prop) : TellsMealsOnce forms ↔
    (∀ e : Effect, forms e.form → ¬ e.Joining) ∨ (∀ e : Effect, forms e.form → ¬ e.Touching) := by
  constructor
  · intro tells
    by_contra neither
    push Not at neither
    obtain ⟨⟨e, he, hj⟩, e', he', ht⟩ := neither
    exact not_tellsMealsOnce he hj he' ht tells
  · intro hforms rules team shop p hr hevery h food target affected hf
    exact (tellsEachOnce_iff_nodup hr h hf).2 (nodup_of_forms hforms hevery h hf)

/-- The records that feeding adds tell of a meal of each pet that it gives, in order and as often as
it gives the pet; so each affected pet is told of once exactly if none is given twice. That is so for
all foods over effects of some forms exactly if these forms cannot join the lists of several parts or
cannot touch pets in line. -/
theorem meals_are_told_as_often_as_given (rules : Rules) (hr : rules.config.recordEvents = true)
    (team : Team) (shop : Shop) (p : PurchasePhase)
    (h : Reachable rules team shop (fun _ => True) p) (food : FoodId) (target : Nat)
    (affected : List PetId) (hf : (p.feed rules food target).1 = .ok affected) :
    p.arena.log.headings ++ toldSince p.arena (p.feed rules food target).2.arena =
      (p.feed rules food target).2.arena.log.headings ∧
    eaters (toldSince p.arena (p.feed rules food target).2.arena) = affected.map some ∧
    (TellsEachOnce p (p.feed rules food target).2 affected ↔ affected.Nodup) ∧
    ∀ forms : Nat → Prop, TellsMealsOnce forms ↔
      (∀ e : Effect, forms e.form → ¬ e.Joining) ∨
        (∀ e : Effect, forms e.form → ¬ e.Touching) := by
  obtain ⟨grown, eaten⟩ := eaters_feed hr h hf
  exact ⟨grown, eaten, tellsEachOnce_iff_nodup hr h hf, tellsMealsOnce_iff⟩

/-- The ant that gains a point from both parts of a food is listed twice, so its meal is not told
once. -/
theorem meals_are_told_as_often_as_given_helping :
    let e : Effect := .gainExperience 1 .purchaseTarget
    eaters (toldSince (helpingTurn e).arena (secondHelping e).2.arena) = [some ⟨0⟩, some ⟨0⟩] ∧
      ¬ TellsEachOnce (helpingTurn e) (secondHelping e).2 [⟨0⟩, ⟨0⟩] := by
  intro e
  have fed := (second_helping_is_told_again e (.tail _ (.head _))).1
  obtain ⟨_, eaten, once, _⟩ := meals_are_told_as_often_as_given (helpingRules e) rfl _ _
    (helpingTurn e) .new _ _ _ fed
  exact ⟨eaten, fun tells => absurd (once.1 tells) (by decide)⟩

/-- Feeding does not tell each meal once: the ant whose stats a food changes twice is told of twice. -/
theorem one_pet_is_told_of_two_meals :
    let e : Effect := .modifyStats 1 1 .purchaseTarget false
    (secondHelping e).1 = .ok [⟨0⟩, ⟨0⟩] ∧
      ¬ TellsEachOnce (helpingTurn e) (secondHelping e).2 [⟨0⟩, ⟨0⟩] := by
  intro e
  obtain ⟨fed, twice⟩ := second_helping_is_told_again e (.head _)
  refine ⟨fed, fun once => ?_⟩
  have one := twice.symm.trans (once ⟨0⟩)
  simp at one

end PurchasePhase

end AutoBattler
