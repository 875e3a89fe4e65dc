import AutoBattler.Proofs.Marks
import AutoBattler.Proofs.Rescue

/-!
# How often abilities fire

A battle with a note of every firing of some abilities of one pet, as the abilities of its level or
as those of its status. A firing is counted before the effect is performed, and nothing but a firing
changes a counter in battle. So a counter is the number of notes, at whatever event the battle is
cut short, and no cap is exceeded.
-/
namespace AutoBattler

open Resolve

/-! ## Keys of counters -/

theorem Trigger.name_injective : Function.Injective name := by
  intro t t' h
  have same := ofName?_name t
  rw [h, ofName?_name t'] at same
  exact (Option.some.inj same).symm

/-- Each holder has a counter of its own for each trigger. -/
theorem Resolve.Holder.counterKey_inj {holder holder' : Holder} {trigger trigger' : Trigger} :
    holder.counterKey trigger = holder'.counterKey trigger' ↔ holder = holder' ∧ trigger = trigger' := by
  constructor
  · intro h
    have texts := congrArg String.toList h
    cases holder <;> cases holder' <;> simp [counterKey] at texts
    · exact ⟨rfl, Trigger.name_injective (String.ext texts)⟩
    · exact ⟨rfl, Trigger.name_injective (String.ext texts)⟩
  · rintro ⟨rfl, rfl⟩
    rfl

namespace Pet

theorem counter_bump (p : Pet) (key key' : String) :
    (p.bump key).counter key' = p.counter key' + if key' = key then 1 else 0 := by
  unfold counter bump
  rw [Std.ExtTreeMap.getElem?_insert]
  by_cases h : key' = key
  · subst h
    simp [counter]
  · have : compare key key' ≠ .eq := fun hc => h (Std.LawfulEqCmp.eq_of_compare hc).symm
    simp [h, this]

theorem counter_of_counters {p q : Pet} (h : p.counters = q.counters) (key : String) :
    p.counter key = q.counter key := by
  unfold counter
  rw [h]

theorem counter_of_empty {p : Pet} (h : p.counters = .empty) (key : String) : p.counter key = 0 := by
  unfold counter
  rw [h]
  rfl

end Pet

theorem Summons.counters_pet (request : Summons) (kind : PetKind) :
    (request.pet kind).counters = .empty := by
  obtain ⟨_, _, attack, health, level⟩ := request
  cases level <;> cases attack <;> cases health <;> rfl

theorem counters_newcomer {c : Catalog} {S : Scope} {p : Pet} (h : Newcomer c S p) :
    p.counters = .empty := by
  cases h with
  | plain _ _ => exact Summons.counters_pet _ _
  | inheriting _ _ _ => exact Summons.counters_pet _ _

/-! ## Noting what fires -/

/-- Notes the firings of these abilities of the pet. -/
def Wrapping.marking (holder : Holder) (id : PetId) (looks : Ability → Prop) [DecidablePred looks] :
    Wrapping where
  tell _ m := m
  act _ _ _ m := m
  fire holder' event x ability m :=
    if holder' = holder ∧ x = id ∧ looks ability then do
      mark ⟨event.trigger, event.side, some x, [], 0⟩
      m
    else m

/-- The arenas are related once the note that is due, if one is, has been taken. -/
structure Arena.Awaits (due : Prop) (B : List EventRecord → Board → Prop) (s t : Arena) : Prop where
  noted : due → ∀ note : EventRecord, note.heading.IsNote →
    s.Marked B { t with log := t.log.mark note }
  undue : ¬ due → s.Marked B t

theorem Arena.awaits_of_not {due : Prop} {B : List EventRecord → Board → Prop} {s t : Arena}
    (h : ¬ due) (hst : s.Marked B t) : s.Awaits due B t := ⟨fun hd => absurd hd h, fun _ => hst⟩

/-- The board changes as the notes allow: nothing but the firings that are noted calls for notes. -/
structure Noting (holder : Holder) (id : PetId) (looks : Ability → Prop) (c : Catalog)
    (B : List EventRecord → Board → Prop) : Prop where
  edit : ∀ notes f, (∀ p, (f p).counters = p.counters) → ∀ b, B notes b →
    ∀ x, B notes (b.modifyPet x f)
  steps : ∀ notes, StepInvariant .all c (B notes)
  fires : ∀ holder' x ability event line,
    Couples (.marked B) (Arena.Marked B) (shouldFire holder' x ability event line)
      (shouldFire holder' x ability event line) fun fires =>
        Arena.Awaits (fires = true ∧ holder' = holder ∧ x = id ∧ looks ability) B

section

variable {rules : Rules} {holder : Holder} {id : PetId} {looks : Ability → Prop}
  {B : List EventRecord → Board → Prop}

namespace Noting

theorem elementary (h : Noting holder id looks rules.catalog B) :
    ElementaryIf False .all rules.catalog (.marked B) (Arena.Marked B) :=
  elementaryIf_marked (fun _ => trivial) fun notes f _ hc => h.edit notes f (hc.resolve_left not_false)

variable [DecidablePred looks]

theorem couples_fire (holder' : Holder) (event : Event) (x : PetId) (ability : Ability)
    {m n : Resolve Unit} (hm : Keeps (.marked B) (Arena.Marked B) m n) :
    Couples (.marked B)
      (Arena.Awaits (true = true ∧ holder' = holder ∧ x = id ∧ looks ability) B) m
      ((Wrapping.marking holder id looks).fire holder' event x ability n)
      fun _ => Arena.Marked B := by
  unfold Wrapping.marking
  dsimp only
  constructor
  intro s t hst
  split
  · rename_i hlooks
    exact hm.agree s _ (hst.noted ⟨rfl, hlooks⟩ _ rfl)
  · rename_i hlooks
    exact hm.agree s t (hst.undue fun h => hlooks h.2)

theorem notify (h : Noting holder id looks rules.catalog B) {raise raise' : Raise}
    (hr : ∀ event, Keeps (.marked B) (Arena.Marked B) (raise event) (raise' event)) (event : Event)
    (line : List PetId) (x : PetId) (pet : Pet) :
    Keeps (.marked B) (Arena.Marked B)
      (Resolve.notify rules raise (perform rules raise) event line x pet)
      ((Wrapping.marking holder id looks).notify rules raise'
        ((Wrapping.marking holder id looks).perform rules raise') event line x pet) := by
  have acting : Acting .all rules rules raise raise' (.marked B) (Arena.Marked B) :=
    (boardSteps_marked h.steps).acting (T := fun _ => True) h.elementary rfl
      ⟨fun _ _ _ _ => trivial, fun _ _ _ _ => trivial, fun _ _ _ _ _ _ => trivial⟩
      fun event _ => hr event
  have performed (ability : Ability) : Keeps (.marked B) (Arena.Marked B)
      (perform rules raise event (some x) ability.effect)
      ((Wrapping.marking holder id looks).perform rules raise' event (some x) ability.effect) :=
    Wrapping.keeps_perform_of_act h.elementary acting (Scope.covers_all _) (fun _ _ _ _ => rfl)
      event trivial (some x) ability.effect ability.effect.every_true
  refine Wrapping.keeps_notify h.elementary trivial (fun ability _ => ?_) fun ability _ => ?_
  · refine Wrapping.couples_fireLevel (h.fires .level x ability event line) ?_ fun _ _ hst =>
      hst.undue fun hf => Bool.noConfusion hf.1
    refine couples_fire .level event x ability ?_
    refine Couples.bind (performed ability) fun _ => ?_
    exact keeps_announceCast_of_raise h.elementary (fun _ _ _ _ => hr _) ability.effect
  · refine Wrapping.couples_fireStatus (h.fires .status x ability event line) ?_ fun _ _ hst =>
      hst.undue fun hf => Bool.noConfusion hf.1
    refine couples_fire .status event x ability ?_
    exact Couples.bind (performed ability) fun _ => keeps_pure ()

/-- By induction on the room for nesting: what a firing leads to is told one level further in. -/
theorem dispatchIn (h : Noting holder id looks rules.catalog B) (room : Nat) (event : Event) :
    Keeps (.marked B) (Arena.Marked B) (Resolve.dispatchIn rules room event)
      ((Wrapping.marking holder id looks).dispatchIn rules room event) := by
  induction room generalizing event with
  | zero => exact couples_fail fun _ _ hst => hst
  | succ room ih =>
    refine keeps_told_marked rules.config.maxEvents fun line => ?_
    refine Wrapping.keeps_walk boards_marked (fun x pet => ?_) line []
    exact (h.notify ih event line x pet).weaken (fun _ _ hst => hst.1) fun _ _ _ hst => hst

theorem playAttacks (h : Noting holder id looks rules.catalog B) (attacks : List Attack) :
    Keeps (.marked B) (Arena.Marked B) (playAttacks rules (dispatch rules) attacks)
      (playAttacks rules ((Wrapping.marking holder id looks).dispatch rules) attacks) :=
  keeps_playAttacks h.elementary rfl (boardSteps_marked h.steps).damage
    (boardSteps_marked h.steps).remove (fun event _ => h.dispatchIn _ event) attacks

theorem drainQueues (h : Noting holder id looks rules.catalog B) :
    Keeps (.marked B) (Arena.Marked B) (drainQueues rules)
      ((Wrapping.marking holder id looks).drainQueues rules) :=
  Wrapping.keeps_drainQueues drainable_marked h.playAttacks

/-- All replies are the same with the notes and without, and the notes fit the board. -/
theorem replies (h : Noting holder id looks rules.catalog B) {teams : Sides Team}
    (hnew : B [] (.ofTeams teams)) (calls : List Battle.Call) :
    let plain := (Battle.ofTeams rules.config teams).replies
      (·.callWith rules (procedures rules)) calls
    let noting := (Battle.ofTeams rules.config teams).replies
      (·.callWith rules ((Wrapping.marking holder id looks).procedures rules)) calls
    plain.1 = noting.1 ∧ plain.2.Marked B noting.2 := by
  refine Battle.related_replies (fun c b b' hb => ?_) (fun _ => not_false) calls
    (Battle.marked_ofTeams _ hnew)
  rw [Battle.callWith_eq, Battle.callWith_eq]
  refine Battle.related_callBy boards_marked ?_ ?_ c hb
  · exact Battle.keeps_opening_of (fun side => h.dispatchIn _ _) h.drainQueues
  · exact keeps_attackCycle_of boards_marked h.playAttacks h.drainQueues

end Noting

end

/-! ## Notes and counters -/

/-- How the number of firings that are looked for fits the counter for a trigger. The abilities that
are looked for answer this trigger and have a cap. -/
structure Fitting (trigger : Trigger) (looks : Ability → Prop) [DecidablePred looks]
    (Fits : Nat → Int → Prop) : Prop where
  start : Fits 0 0
  capped : ∀ ability, looks ability → ability.trigger = trigger ∧ ability.maxTriggers ≠ none
  fire : ∀ (ability : Ability) (limit n : Nat) (k : Int), ability.trigger = trigger →
    ability.maxTriggers = some limit → k < limit → Fits n k →
    Fits (if looks ability then n + 1 else n) (k + 1)

/-- If the pet is stored, so many firings fit its counter. -/
structure Board.Tallied (key : String) (id : PetId) (Fits : Nat → Int → Prop) (n : Nat)
    (b : Board) : Prop where
  wellFormed : b.WellFormed
  stored : ∀ pet, b.pet? id = some pet → Fits n (pet.counter key)
  absent : b.pet? id = none → n = 0

namespace Board.Tallied

variable {key : String} {id x : PetId} {Fits : Nat → Int → Prop} {n n' : Nat} {b b' : Board}
  {side : Side} {pet : Pet} {f : Pet → Pet}

theorem modifyPet (h : b.Tallied key id Fits n)
    (hf : x = id → ∀ p, b.pet? id = some p → Fits n' ((f p).counter key))
    (hn : x ≠ id ∨ b.pet? id = none → n' = n) : (b.modifyPet x f).Tallied key id Fits n' where
  wellFormed := h.wellFormed.modifyPet x f
  stored p hp := by
    rw [pet?_modifyPet] at hp
    split at hp
    · rename_i hx
      obtain ⟨old, hold, rfl⟩ := Option.map_eq_some_iff.1 hp
      exact hf hx.symm old hold
    · rename_i hx
      rw [hn (.inl (Ne.symm hx))]
      exact h.stored p hp
  absent hp := by
    rw [pet?_modifyPet] at hp
    have hnone : b.pet? id = none := by
      split at hp
      · exact Option.map_eq_none_iff.1 hp
      · exact hp
    rw [hn (.inr hnone)]
    exact h.absent hnone

theorem edit (h : b.Tallied key id Fits n) (hf : ∀ p, (f p).counters = p.counters) (x : PetId) :
    (b.modifyPet x f).Tallied key id Fits n :=
  h.modifyPet (fun _ p hp => Pet.counter_of_counters (hf p) key ▸ h.stored p hp) fun _ => rfl

/-- A new pet has counted nothing. -/
theorem stores (h : b.Tallied key id Fits n) (hs : b.Stores side pet x b') (hw : b'.WellFormed)
    (hp : pet.counters = .empty) (start : Fits 0 0) : b'.Tallied key id Fits n := by
  refine ⟨hw, fun p hp' => ?_, fun hp' => ?_⟩ <;> rw [hs.pet?] at hp' <;> split at hp'
  · rename_i hx
    have fresh : b.pet? id = none := by
      have unstored := h.wellFormed.stored id
      rw [hx, hs.number] at unstored ⊢
      unfold Board.pet?
      cases he : b.entrant? ⟨b.nextId⟩ with
      | none => rfl
      | some entrant =>
        rw [he] at unstored
        exact absurd (unstored.1 rfl) (Nat.lt_irrefl _)
    cases hp'
    rw [h.absent fresh, Pet.counter_of_empty hp]
    exact start
  · exact h.stored p hp'
  · cases hp'
  · exact h.absent hp'

theorem leave (h : b.Tallied key id Fits n) (hl : b.Leaves x side b') : b'.Tallied key id Fits n where
  wellFormed := hl.wellFormed h.wellFormed
  stored p hp := h.stored p (hl.pet? id ▸ hp)
  absent hp := h.absent (hl.pet? id ▸ hp)

/-- The firing of an ability with a cap, before it is noted. -/
theorem bump {holder holder' : Holder} {trigger : Trigger} {looks : Ability → Prop}
    [DecidablePred looks] {ability : Ability} {limit : Nat}
    (h : b.Tallied (holder.counterKey trigger) id Fits n) (hF : Fitting trigger looks Fits)
    (hp : b.pet? x = some pet) (hlimit : ability.maxTriggers = some limit)
    (hbelow : pet.counter (holder'.counterKey ability.trigger) < limit) :
    (b.modifyPet x (Pet.bump (holder'.counterKey ability.trigger))).Tallied
      (holder.counterKey trigger) id Fits
      (if holder' = holder ∧ x = id ∧ looks ability then n + 1 else n) := by
  by_cases same : holder' = holder ∧ x = id ∧ ability.trigger = trigger
  · obtain ⟨rfl, rfl, rfl⟩ := same
    refine h.modifyPet (fun _ p hp' => ?_) fun hn => ?_
    · rw [hp] at hp'
      cases hp'
      rw [Pet.counter_bump, if_pos rfl]
      simpa using hF.fire ability limit n _ rfl hlimit hbelow (h.stored pet hp)
    · rcases hn with hn | hn
      · exact absurd rfl hn
      · rw [hp] at hn
        cases hn
  · have unlooked : ¬ (holder' = holder ∧ x = id ∧ looks ability) := fun hl =>
      same ⟨hl.1, hl.2.1, (hF.capped ability hl.2.2).1⟩
    rw [if_neg unlooked]
    refine h.modifyPet (fun hx p hp' => ?_) fun _ => rfl
    have other : holder.counterKey trigger ≠ holder'.counterKey ability.trigger := by
      rw [Ne, Holder.counterKey_inj]
      rintro ⟨rfl, rfl⟩
      exact same ⟨rfl, hx, rfl⟩
    rw [Pet.counter_bump, if_neg other, Int.add_zero]
    exact h.stored p hp'

end Board.Tallied

section

variable {holder : Holder} {id : PetId} {trigger : Trigger} {looks : Ability → Prop}
  [DecidablePred looks] {Fits : Nat → Int → Prop}

theorem stepInvariant_tallied (start : Fits 0 0) (c : Catalog) (key : String) (id : PetId) (n : Nat) :
    StepInvariant .all c (Board.Tallied key id Fits n) where
  gainPoint _ hb _ _ _ _ x := hb.edit (fun p => by unfold Pet.gainPoint; split <;> rfl) x
  promote _ hb x level := hb.edit (f := Pet.promote level) (fun _ => rfl) x
  damage _ hb amount x := hb.edit (f := Pet.takeDamage amount) (fun _ => rfl) x
  arrive _ hb _ _ _ _ hp ha :=
    hb.stores ha.toStores (ha.wellFormed hb.wellFormed) (counters_newcomer hp) start
  exchange _ hb _ _ _ _ _ _ _ _ he := hb.stores he.toStores (he.wellFormed hb.wellFormed) rfl start
  leave _ hb _ _ _ hl := hb.leave hl

/-- The board is tallied by as many firings as are noted. -/
def Counted (holder : Holder) (id : PetId) (trigger : Trigger) (Fits : Nat → Int → Prop)
    (notes : List EventRecord) : Board → Prop :=
  Board.Tallied (holder.counterKey trigger) id Fits notes.length

/-- The counter moves when an ability with a cap fires, and the firing is noted if it is looked
for. -/
theorem Fitting.noting (h : Fitting trigger looks Fits) (c : Catalog) :
    Noting holder id looks c (Counted holder id trigger Fits) where
  edit _ _ hf _ hb x := hb.edit hf x
  steps notes := stepInvariant_tallied h.start c _ id notes.length
  fires holder' x ability event line := by
    have quiet {s t : Arena} (hst : s.Marked (Counted holder id trigger Fits) t) :
        s.Awaits (false = true ∧ holder' = holder ∧ x = id ∧ looks ability)
          (Counted holder id trigger Fits) t :=
      Arena.awaits_of_not (fun hf => Bool.noConfusion hf.1) hst
    unfold shouldFire
    split
    · split
      · rename_i hnone
        refine couples_pure _ fun s t hst => Arena.awaits_of_not (fun hf => ?_) hst
        exact (h.capped ability hf.2.2.2).2 hnone
      · rename_i limit hlimit
        refine Couples.bind
          (Q := fun found s t => s.Marked (Counted holder id trigger Fits) t ∧ s.board.pet? x = found)
          (couples_look fun s t hst => ⟨by rw [boards_marked s t hst], hst, rfl⟩) fun found => ?_
        split
        · exact couples_pure _ fun s t hst => quiet hst.1
        · rename_i pet
          dsimp only
          split
          · exact couples_pure _ fun s t hst => quiet hst.1
          · rename_i hbelow
            refine Couples.bind (Q := fun _ =>
              Arena.Awaits (true = true ∧ holder' = holder ∧ x = id ∧ looks ability)
                (Counted holder id trigger Fits)) ?_ fun _ => couples_pure _ fun _ _ hst => hst
            constructor
            rintro s t ⟨⟨notes, hst⟩, hpet⟩
            have tallied := hst.holds.bump h hpet hlimit (Int.not_le.1 hbelow)
            refine .ok ⟨fun hdue note hn => ?_, fun hdue => ?_⟩
            · rw [if_pos hdue.2] at tallied
              refine marked_mark (marked_modifyPet x hst tallied) hn fun hb => ?_
              unfold Counted
              rwa [List.length_append]
            · rw [if_neg fun hf => hdue ⟨rfl, hf⟩] at tallied
              exact ⟨notes, marked_modifyPet x hst tallied⟩
    · exact couples_pure _ fun s t hst => quiet hst

omit [DecidablePred looks] in
/-- Notes of any firings make no difference. -/
theorem noting_true (rules : Rules) : Noting holder id looks rules.catalog fun _ _ => True where
  edit _ _ _ _ _ _ := trivial
  steps _ := (boardInvariant_true rules.catalog).toStepInvariant
  fires holder' x ability event line := by
    have elementary : Elementary .all rules.catalog (.marked fun _ _ => True)
        (Arena.Marked fun _ _ => True) :=
      elementaryIf_marked (fun _ => trivial) fun _ _ _ _ _ _ _ => trivial
    refine (keeps_shouldFire elementary holder' x ability event line).weaken (fun _ _ hst => hst)
      fun fires s t hst => ⟨fun _ note hn => ?_, fun _ => hst⟩
    obtain ⟨notes, hst⟩ := hst
    exact marked_mark hst hn fun _ => trivial

/-- The firings of abilities with a cap for one trigger are what the counter says. -/
theorem fitting_counter (trigger : Trigger) :
    Fitting trigger (fun ability => ability.trigger = trigger ∧ ability.maxTriggers ≠ none)
      fun n k => k = n where
  start := rfl
  capped _ h := h
  fire ability limit n k ht hm _ hk := by
    rw [if_pos ⟨ht, by rw [hm]; exact nofun⟩, hk]
    rfl

/-- The firings of one ability with a cap are no more than the cap, as the counter has counted each
of them. -/
theorem fitting_cap {ability : Ability} {limit : Nat} (h : ability.maxTriggers = some limit)
    [DecidablePred (· = ability)] :
    Fitting ability.trigger (· = ability) fun n k => (n : Int) ≤ k ∧ n ≤ limit where
  start := ⟨Int.le_refl 0, Nat.zero_le limit⟩
  capped x hx := by
    subst hx
    exact ⟨rfl, by rw [h]; exact nofun⟩
  fire x limit' n k _ hm hbelow hk := by
    split
    · rename_i hx
      subst hx
      rw [h] at hm
      cases hm
      omega
    · omega

end

/-! ## Caps over a whole battle -/

theorem Board.tallied_ofTeams (teams : Sides Team) (key : String) (id : PetId)
    {Fits : Nat → Int → Prop} (start : Fits 0 0) : (ofTeams teams).Tallied key id Fits 0 := by
  have empty : Tallied key id Fits 0 empty :=
    ⟨wellFormed_empty, fun pet hp => by simp [Board.empty, Board.pet?, Board.entrant?] at hp, fun _ => rfl⟩
  have enlisted {b : Board} (hb : b.Tallied key id Fits 0) (side : Side) (pets : List Pet) :
      (b.enlist side (pets.map Pet.battleCopy)).Tallied key id Fits 0 := by
    refine enlist_induction hb fun b pet x b' hb hm ha => ?_
    obtain ⟨old, _, rfl⟩ := List.mem_map.1 hm
    exact hb.stores ha.toStores (ha.wellFormed hb.wellFormed) rfl start
  exact enlisted (enlisted empty .a _) .b _

namespace Battle

/-- The replies of a battle to such calls and the battle after them, with notes of the firings of
some abilities of a pet. -/
def noteFirings (rules : Rules) (teams : Sides Team) (calls : List Call) (holder : Holder)
    (id : PetId) (looks : Ability → Prop) [DecidablePred looks] :
    List (Except EngineError Unit) × Battle :=
  (ofTeams rules.config teams).replies
    (·.callWith rules ((Wrapping.marking holder id looks).procedures rules)) calls

/-- How often those abilities fire. -/
def firings (rules : Rules) (teams : Sides Team) (calls : List Call) (holder : Holder) (id : PetId)
    (looks : Ability → Prop) [DecidablePred looks] : Nat :=
  (noteFirings rules teams calls holder id looks).2.arena.log.notes

variable {rules : Rules} {holder : Holder} {id : PetId} {trigger : Trigger}
  {looks : Ability → Prop} [DecidablePred looks] {Fits : Nat → Int → Prop}

/-- After all calls the firings fit the counter of the pet, or it is not stored and there are none. -/
theorem firings_fit (h : Fitting trigger looks Fits) (rules : Rules) (teams : Sides Team)
    (calls : List Call) (holder : Holder) (id : PetId) :
    let after := (ofTeams rules.config teams).replies (·.callWith rules (procedures rules)) calls
    after.2.arena.board.Tallied (holder.counterKey trigger) id Fits
      (firings rules teams calls holder id looks) := by
  have noting : Noting holder id looks rules.catalog (Counted holder id trigger Fits) :=
    h.noting rules.catalog
  have start : Counted holder id trigger Fits [] (.ofTeams teams) :=
    Board.tallied_ofTeams teams _ id h.start
  have fitting := noting.replies start calls
  obtain ⟨notes, hst⟩ := fitting.2.arena
  have noted : firings rules teams calls holder id looks = notes.length := by
    unfold firings noteFirings
    rw [EventLog.notes_eq, EventLog.marks, hst.log.noted]
  rw [noted]
  exact hst.holds

/-- Whatever calls are made and however they end, the notes change nothing, no ability with a cap
fires more often for a pet than its cap, and the counter of a stored pet is the number of firings
with a cap. As the limits of the configuration are free, this holds at every event of a battle. -/
theorem trigger_caps_hold (rules : Rules) (teams : Sides Team) (calls : List Call) (holder : Holder)
    (id : PetId) :
    let after := (ofTeams rules.config teams).replies (·.callWith rules (procedures rules)) calls
    (∀ (looks : Ability → Prop) [DecidablePred looks],
      after.1 = (noteFirings rules teams calls holder id looks).1 ∧
        after.2.Marked (fun _ _ => True) (noteFirings rules teams calls holder id looks).2) ∧
    (∀ (ability : Ability) (limit : Nat), ability.maxTriggers = some limit →
      ∀ [DecidablePred (· = ability)],
        firings rules teams calls holder id (· = ability) ≤ limit) ∧
    ∀ (trigger : Trigger) (pet : Pet), after.2.arena.board.pet? id = some pet →
      pet.counter (holder.counterKey trigger) =
        firings rules teams calls holder id
          fun ability => ability.trigger = trigger ∧ ability.maxTriggers ≠ none := by
  refine ⟨fun looks _ => (noting_true rules).replies trivial calls, fun ability limit hlimit _ => ?_,
    fun trigger pet hpet => ?_⟩
  · have tallied := firings_fit (fitting_cap hlimit) rules teams calls holder id
    cases hstored : (((ofTeams rules.config teams).replies (·.callWith rules (procedures rules))
        calls).2.arena.board).pet? id with
    | none =>
      rw [tallied.absent hstored]
      exact Nat.zero_le limit
    | some pet => exact (tallied.stored pet hstored).2
  · exact (firings_fit (fitting_counter trigger) rules teams calls holder id).stored pet hpet

/-- An ant comes whenever another pet has come, but twice at most. -/
def ruling : Ability := ⟨"", .summoned, .eachFriend, callAnt, some 2⟩

def queen : PetKind := ⟨⟨"pet-queen"⟩, "pet-queen", 1, 1, 1, [], some ruling, none, none⟩

/-- The first ant comes at the start of the battle. -/
def muster : StatusKind :=
  ⟨⟨"status-muster"⟩, "status-muster", ⟨"", .startOfBattle, .player, callAnt, none⟩⟩

def queenRules : Rules := ⟨.ofLists [queen, ant] [muster] [], { recordEvents := true }⟩

def queenTeams : Sides Team :=
  ⟨.ofPets [(Pet.ofKind queen).setStatus (some muster.id)], .ofPets [.ofKind ant]⟩

open Classical in
/-- The second ant comes while the first is told of, and the third while the second is. -/
theorem trigger_caps_hold_queen :
    firings queenRules queenTeams [.start] .level ⟨0⟩ (· = ruling) ≤ 2 ∧
      ∃ pet, ((ofTeams queenRules.config queenTeams).replies
          (·.callWith queenRules (procedures queenRules)) [.start]).2.arena.board.pet? ⟨0⟩ = some pet ∧
        pet.counter (Holder.level.counterKey .summoned) =
          firings queenRules queenTeams [.start] .level ⟨0⟩
            (fun ability => ability.trigger = .summoned ∧ ability.maxTriggers ≠ none) ∧
        pet.counter (Holder.level.counterKey .summoned) = 2 := by
  obtain ⟨-, capped, counted⟩ := trigger_caps_hold queenRules queenTeams [.start] .level ⟨0⟩
  obtain ⟨pet, hpet⟩ : ∃ pet, ((ofTeams queenRules.config queenTeams).replies
      (·.callWith queenRules (procedures queenRules)) [.start]).2.arena.board.pet? ⟨0⟩ = some pet :=
    Option.isSome_iff_exists.1 (by decide +kernel)
  have counter : (((ofTeams queenRules.config queenTeams).replies
      (·.callWith queenRules (procedures queenRules)) [.start]).2.arena.board.pet? ⟨0⟩).map
        (·.counter (Holder.level.counterKey .summoned)) = some 2 := by decide +kernel
  rw [hpet] at counter
  exact ⟨capped ruling 2 rfl, pet, hpet, counted .summoned pet hpet, Option.some.inj counter⟩

end Battle

end AutoBattler
