import AutoBattler.Proofs.BoardInvariant

/-!
# Wrapped resolutions

A resolution with something put around every telling of an event, every performing of an effect,
also of nested and repeated ones, and every firing of an ability. What a wrapping does with the step
it is put around is free. So a wrapping that makes a difference for some events only, and still
makes none for a resolution, shows that the resolution never comes to such an event.
-/
namespace AutoBattler

open Resolve

structure Wrapping where
  /-- Around an event, whether it is told or refused. -/
  tell : Event → Resolve Unit → Resolve Unit
  act : Event → Option PetId → Effect → Resolve (List PetId) → Resolve (List PetId)
  /-- Around what an ability does once it fires, with the announcement of the cast. -/
  fire : Holder → Event → PetId → Ability → Resolve Unit → Resolve Unit

namespace Wrapping

/-! ## Performing effects -/

mutual

def performWith (w : Wrapping) (rules : Rules) (raise : Raise) (again : Option Again)
    (event : Event) (actor : Option PetId) : Effect → Resolve (List PetId)
  | .oneOf effects => w.act event actor (.oneOf effects) do
    match ← draw fun g => g.index? effects.length with
    | none => pure []
    | some i => w.performNth rules raise again event actor effects i
  | .allOf effects => w.act event actor (.allOf effects) do
    w.performAll rules raise again event actor [] effects
  | effect => w.act event actor effect do
    Resolve.performWith rules raise again event actor effect

def performNth (w : Wrapping) (rules : Rules) (raise : Raise) (again : Option Again)
    (event : Event) (actor : Option PetId) : List Effect → Nat → Resolve (List PetId)
  | [], _ => pure []
  | e :: _, 0 => w.performWith rules raise again event actor e
  | _ :: rest, i + 1 => w.performNth rules raise again event actor rest i

def performAll (w : Wrapping) (rules : Rules) (raise : Raise) (again : Option Again)
    (event : Event) (actor : Option PetId) (touched : List (List PetId)) :
    List Effect → Resolve (List PetId)
  | [] => pure touched.reverse.flatten
  | e :: rest => do
    let ids ← w.performWith rules raise again event actor e
    w.performAll rules raise again event actor (ids :: touched) rest

end

def perform (w : Wrapping) (rules : Rules) (raise : Raise) (event : Event) (actor : Option PetId)
    (effect : Effect) : Resolve (List PetId) :=
  match event with
  | ⟨trigger, source, side, snapshot, phase, repeated, none⟩ =>
    w.performWith rules raise none ⟨trigger, source, side, snapshot, phase, repeated, none⟩ actor
      effect
  | ⟨trigger, source, side, snapshot, phase, repeated, some cause⟩ =>
    w.performWith rules raise
      (some fun id effect => do
        let _ ← perform w rules raise cause (some id) effect
        pure ())
      ⟨trigger, source, side, snapshot, phase, repeated, some cause⟩ actor effect
termination_by structural event

/-! ## Telling events -/

variable (w : Wrapping) (rules : Rules)

def fireLevel (raise : Raise) (act : Act) (id : PetId) (event : Event) (line : List PetId)
    (ability : Option Ability) : Resolve Unit := do
  match ability with
  | none => pure ()
  | some ability =>
    if ← shouldFire .level id ability event line then
      w.fire .level event id ability do
        let _ ← act event (some id) ability.effect
        announceCast raise id ability.effect event
    else pure ()

def fireStatus (act : Act) (id : PetId) (event : Event) (line : List PetId)
    (ability : Option Ability) : Resolve Unit := do
  match ability with
  | none => pure ()
  | some ability =>
    if ← shouldFire .status id ability event line then
      w.fire .status event id ability do
        let _ ← act event (some id) ability.effect
        pure ()
    else pure ()

def notify (raise : Raise) (act : Act) (event : Event) (line : List PetId) (id : PetId)
    (pet : Pet) : Resolve Unit := do
  let level ← ofExcept (rules.catalog.levelAbility pet)
  let status ← ofExcept (rules.catalog.statusAbility pet)
  w.fireLevel raise act id event line level
  w.fireStatus act id event line status

def walk (raise : Raise) (act : Act) (event : Event) (line : List PetId)
    (reached : List PetId) : List PetId → Resolve (List PetId)
  | [] => pure reached.reverse
  | id :: rest => do
    match reached? rules event (← board) id with
    | none => walk raise act event line reached rest
    | some pet =>
      w.notify rules raise act event line id pet
      walk raise act event line (id :: reached) rest

def dispatchIn : (room : Nat) → Event → Resolve Unit
  | 0, event => w.tell event do
    fail (.dispatchDepthExceeded event.trigger rules.config.maxDispatchDepth)
  | room + 1, event => w.tell event do
    countEvent rules.config.maxEvents
    nested (tellLine event fun line =>
      w.walk rules (dispatchIn room) (w.perform rules (dispatchIn room)) event line [] line)

def dispatch (event : Event) : Resolve Unit := w.dispatchIn rules rules.config.maxDispatchDepth event

/-! ## Cycles -/

def playForemostTimes : Nat → Resolve Unit
  | 0 => pure ()
  | n + 1 => do
    playForemost rules (w.dispatch rules)
    playForemostTimes n

def drainWithin : (passes : Nat) → Resolve Unit
  | 0 => pure ()
  | passes + 1 => do
    let n ← look fun s => waiting s.queues
    if n = 0 then pure ()
    else do
      w.playForemostTimes rules n
      drainWithin passes

def drainQueues : Resolve Unit := do
  let spent ← look (·.dispatched)
  w.drainWithin rules (rules.config.maxEvents - spent + 1)

/-- The procedures of a wrapped resolution. -/
def procedures : Procedures where
  tell := w.dispatch rules
  act := w.perform rules (w.dispatch rules)
  drain := w.drainQueues rules

/-! ## Beside the resolution itself -/

/-- Relations between arenas, each with the scope in which effects are performed where it holds and
the actors that are known to it. The wrapping makes no difference to the effects of known actors,
and the pets that repeat an ability are known to a finer relation. -/
structure Hides (w : Wrapping) {κ : Type} (S : κ → Scope) (A : κ → Option PetId → Prop)
    (V : Verdict) (R : κ → Arena → Arena → Prop) : Prop where
  act : ∀ k event actor effect, (S k).events event → A k actor → (S k).effects effect →
    ∀ m n, Keeps V (R k) m n → Keeps V (R k) m (w.act event actor effect n)
  meet : ∀ k event cause actor target level, (S k).events event → event.cause = some cause →
    A k actor → (S k).effects (.repeatAbility target level) →
    Couples V (R k) (targets event actor target) (targets event actor target) fun ids s t =>
      ∃ k', (∀ s t, R k' s t → R k s t) ∧ (S k').events cause ∧ (∀ id ∈ ids, A k' (some id)) ∧
        R k' s t

section

variable {w : Wrapping} {p : Effect → Prop} {V : Verdict} {R : Arena → Arena → Prop} {rules : Rules}
  {raise raise' : Raise} {event : Event} {again again' : Option Again} {actor : Option PetId}

/-- Single effects keep the relation with what is put around them, which may depend on what they do.
What is put around others makes no difference. -/
structure Follows (w : Wrapping) (p : Effect → Prop) (V : Verdict) (R : Arena → Arena → Prop)
    (rules : Rules) (raise raise' : Raise) (again again' : Option Again) (event : Event)
    (actor : Option PetId) : Prop where
  choose : ∀ effects, p (.oneOf effects) → ∀ n,
    Keeps V R (draw fun g => g.index? n) (draw fun g => g.index? n)
  around : ∀ effect, ¬ effect.IsSingle → p effect → ∀ m n, Keeps V R m n →
    Keeps V R m (w.act event actor effect n)
  single : ∀ effect, effect.IsSingle → p effect →
    Keeps V R (Resolve.performWith rules raise again event actor effect)
      (w.act event actor effect (Resolve.performWith rules raise' again' event actor effect))
  repeated : ∀ target level, p (.repeatAbility target level) →
    Keeps V R (repeatAbility rules again event actor target level)
      (repeatAbility rules again' event actor target level)

namespace Follows

mutual

theorem performWith (h : w.Follows p V R rules raise raise' again again' event actor) :
    (effect : Effect) → effect.Every p →
      Keeps V R (Resolve.performWith rules raise again event actor effect)
        (w.performWith rules raise' again' event actor effect)
  | .oneOf effects, hs => by
    refine h.around (.oneOf effects) not_false hs.1 _ _ ?_
    refine Couples.bind (h.choose effects hs.1 effects.length) fun i => ?_
    split
    · exact keeps_pure _
    · exact h.performNth effects _ hs.2
  | .allOf effects, hs => by
    rw [Resolve.performWith]
    exact h.around (.allOf effects) not_false hs.1 _ _ (h.performAll [] effects hs.2)
  | .repeatAbility target level, hs =>
    h.around (.repeatAbility target level) not_false hs.1 _ _ (h.repeated target level hs.1)
  | .modifyStats .., hs | .gainExperience .., hs | .applyStatus .., hs | .dealDamage .., hs
  | .splashDamage .., hs | .reduceHealth .., hs | .summonPet .., hs | .summonRandomPet .., hs
  | .respawnPet .., hs | .transferStats .., hs | .transferAbility .., hs | .gainGold .., hs
  | .evolve .., hs | .modifyDamage .., hs => h.single _ trivial hs.1

theorem performNth (h : w.Follows p V R rules raise raise' again again' event actor) :
    (effects : List Effect) → (i : Nat) → Effect.EveryOf p effects →
      Keeps V R (Resolve.performNth rules raise again event actor effects i)
        (w.performNth rules raise' again' event actor effects i)
  | [], _, _ => keeps_pure _
  | e :: _, 0, hs => h.performWith e hs.1
  | _ :: rest, i + 1, hs => h.performNth rest i hs.2

theorem performAll (h : w.Follows p V R rules raise raise' again again' event actor) :
    (touched : List (List PetId)) → (effects : List Effect) → Effect.EveryOf p effects →
      Keeps V R (Resolve.performAll rules raise again event actor touched effects)
        (w.performAll rules raise' again' event actor touched effects)
  | _, [], _ => keeps_pure _
  | _, e :: rest, hs =>
    Couples.bind (h.performWith e hs.1) fun _ => h.performAll _ rest hs.2

end

end Follows

end

section

variable {counted : Prop} {w : Wrapping} {κ : Type} {S : κ → Scope} {A : κ → Option PetId → Prop}
  {V : Verdict} {R : κ → Arena → Arena → Prop} {rules : Rules} {raise raise' : Raise}
  {event : Event} {k : κ} {again again' : Option Again} {actor : Option PetId}

theorem keeps_performWith (h : ElementaryIf counted (S k) rules.catalog V (R k))
    (ht : Acting (S k) rules rules raise raise' V (R k)) (hw : w.Hides S A V R)
    (he : (S k).events event) (ha : A k actor)
    (hr : ∀ target level, (S k).effects (.repeatAbility target level) →
      Keeps V (R k) (repeatAbility rules again event actor target level)
        (repeatAbility rules again' event actor target level)) :
    (effect : Effect) → effect.Every (S k).effects →
      Keeps V (R k) (Resolve.performWith rules raise again event actor effect)
        (w.performWith rules raise' again' event actor effect) :=
  Follows.performWith {
    choose := fun _ hs n => h.choose _ hs rfl n
    around := fun effect _ hs m n => hw.act k event actor effect he ha hs m n
    single := fun effect hsingle hs => hw.act k event actor effect he ha hs _ _
      (keeps_single h ht rfl he actor hs hsingle)
    repeated := hr }

/-- The pets that perform the ability again do so in the finer relation to which they are known. -/
theorem keeps_repeatAbility {a a' : Again} {cause : Event}
    (h : ElementaryIf counted (S k) rules.catalog V (R k)) (hS : ∀ k, (S k).Covers rules.catalog)
    (hw : w.Hides S A V R) (he : (S k).events event) (hc : event.cause = some cause)
    (ha : A k actor)
    (hr : ∀ k, (S k).events cause → ∀ id, A k (some id) → ∀ effect, effect.Every (S k).effects →
      Keeps V (R k) (a id effect) (a' id effect))
    {target : Selector} {level : Option Nat} (hs : (S k).effects (.repeatAbility target level)) :
    Keeps V (R k) (repeatAbility rules (some a) event actor target level)
      (repeatAbility rules (some a') event actor target level) := by
  unfold repeatAbility
  cases event.source with
  | none => exact keeps_pure _
  | some caster =>
    refine Yields.bind (h.yields_pet? caster) fun found hfound => ?_
    split
    · exact keeps_pure _
    · rename_i pet
      refine Yields.bind (h.lookUp fun e he => .abilityKind (hfound pet rfl) he) fun kind hk => ?_
      split
      · exact keeps_pure _
      · rename_i ability hability
        refine Couples.bind (hw.meet k event cause actor target level he hc ha hs) fun ids => ?_
        constructor
        rintro s t ⟨k', finer, hcause, hids, hst⟩
        have hevery := (hS k').effects ability (PetKind.offers_ability hk hability)
        have repeated := keeps_forEach ids fun id hm => hr k' hcause id (hids id hm) _ hevery
        have whole : Keeps V (R k') (forEach ids (fun id => a id ability.effect) >>= fun _ => pure ids)
            (forEach ids (fun id => a' id ability.effect) >>= fun _ => pure ids) :=
          Couples.bind repeated fun _ => keeps_pure _
        exact (whole.agree s t hst).weaken fun _ => finer

/-- By recursion on the causes of the event, as performing goes. -/
theorem keeps_perform (h : ∀ k, ElementaryIf counted (S k) rules.catalog V (R k))
    (ht : ∀ k, Acting (S k) rules rules raise raise' V (R k))
    (hS : ∀ k, (S k).Covers rules.catalog) (hw : w.Hides S A V R) :
    (event : Event) → (k : κ) → (S k).events event → (actor : Option PetId) → A k actor →
      (effect : Effect) → effect.Every (S k).effects →
      Keeps V (R k) (Resolve.perform rules raise event actor effect)
        (w.perform rules raise' event actor effect)
  | ⟨_, source, _, _, _, _, none⟩, k, he, actor, ha, effect, hs => by
    rw [Resolve.perform, perform]
    refine keeps_performWith (h k) (ht k) hw he ha (fun target level _ => ?_) effect hs
    unfold repeatAbility
    cases source <;> exact keeps_pure _
  | ⟨_, _, _, _, _, _, some cause⟩, k, he, actor, ha, effect, hs => by
    rw [Resolve.perform, perform]
    refine keeps_performWith (h k) (ht k) hw he ha (fun target level hs => ?_) effect hs
    refine keeps_repeatAbility (h k) hS hw he rfl ha (fun k' hcause id hid e he => ?_) hs
    exact Couples.bind (keeps_perform h ht hS hw cause k' hcause (some id) hid e he) fun _ =>
      keeps_pure _

end

section

variable {counted : Prop} {w : Wrapping} {S : Scope} {V : Verdict} {R : Arena → Arena → Prop}
  {rules : Rules} {raise raise' : Raise} {act act' : Act} {event : Event} {id : PetId}
  {line : List PetId}

/-- A wrapping that leaves effects as they are makes no difference to performing them. -/
theorem keeps_perform_of_act (h : ElementaryIf counted S rules.catalog V R)
    (ht : Acting S rules rules raise raise' V R) (hS : S.Covers rules.catalog)
    (hw : ∀ event actor effect m, w.act event actor effect m = m) :
    Acts S V R (Resolve.perform rules raise) (w.perform rules raise') := by
  have hides : w.Hides (fun _ : Unit => S) (fun _ _ => True) V fun _ => R := {
    act := fun _ event actor effect _ _ _ m n hm => (hw event actor effect n).symm ▸ hm
    meet := fun _ event cause actor target level he hc _ hs => by
      refine Couples.weaken (h.selects _ target event hs (by simp [Effect.selectors]) he actor)
        (fun _ _ hst => hst) fun _ _ _ hst => ?_
      exact ⟨(), fun _ _ hst => hst, hS.cause event cause he hc, fun _ _ => trivial, hst⟩ }
  intro event he actor effect hs
  exact keeps_perform (fun _ => h) (fun _ => ht) (fun _ => hS) hides event () he actor trivial effect hs

/-- What holds once it is settled whether the ability fires lies between its parts. -/
theorem couples_fireLevel {ability : Ability} {Q : Bool → Arena → Arena → Prop}
    (hf : Couples V R (shouldFire .level id ability event line)
      (shouldFire .level id ability event line) Q)
    (hfire : Couples V (Q true)
      (do
        let _ ← act event (some id) ability.effect
        announceCast raise id ability.effect event)
      (w.fire .level event id ability do
        let _ ← act' event (some id) ability.effect
        announceCast raise' id ability.effect event) fun _ => R)
    (hno : ∀ s t, Q false s t → R s t) :
    Keeps V R (Resolve.fireLevel raise act id event line (some ability))
      (w.fireLevel raise' act' id event line (some ability)) := by
  refine Couples.bind hf fun fires => ?_
  cases fires with
  | true => exact hfire
  | false => exact couples_pure _ hno

theorem couples_fireStatus {ability : Ability} {Q : Bool → Arena → Arena → Prop}
    (hf : Couples V R (shouldFire .status id ability event line)
      (shouldFire .status id ability event line) Q)
    (hfire : Couples V (Q true)
      (do
        let _ ← act event (some id) ability.effect
        pure ())
      (w.fire .status event id ability do
        let _ ← act' event (some id) ability.effect
        pure ()) fun _ => R)
    (hno : ∀ s t, Q false s t → R s t) :
    Keeps V R (Resolve.fireStatus act id event line (some ability))
      (w.fireStatus act' id event line (some ability)) := by
  refine Couples.bind hf fun fires => ?_
  cases fires with
  | true => exact hfire
  | false => exact couples_pure _ hno

theorem keeps_fireLevel (h : Elementary S rules.catalog V R) {ability : Ability}
    (hfire : Keeps V R
      (do
        let _ ← act event (some id) ability.effect
        announceCast raise id ability.effect event)
      (w.fire .level event id ability do
        let _ ← act' event (some id) ability.effect
        announceCast raise' id ability.effect event)) :
    Keeps V R (Resolve.fireLevel raise act id event line (some ability))
      (w.fireLevel raise' act' id event line (some ability)) :=
  couples_fireLevel (Q := fun _ => R) (keeps_shouldFire h .level id ability event line) hfire
    fun _ _ hst => hst

theorem keeps_fireStatus (h : Elementary S rules.catalog V R) {ability : Ability}
    (hfire : Keeps V R
      (do
        let _ ← act event (some id) ability.effect
        pure ())
      (w.fire .status event id ability do
        let _ ← act' event (some id) ability.effect
        pure ())) :
    Keeps V R (Resolve.fireStatus act id event line (some ability))
      (w.fireStatus act' id event line (some ability)) :=
  couples_fireStatus (Q := fun _ => R) (keeps_shouldFire h .status id ability event line) hfire
    fun _ _ hst => hst

theorem keeps_notify (h : ElementaryIf counted S rules.catalog V R) {pet : Pet} (hp : S.pets pet)
    (hl : ∀ ability, rules.catalog.Offers ability →
      Keeps V R (Resolve.fireLevel raise act id event line (some ability))
        (w.fireLevel raise' act' id event line (some ability)))
    (hs : ∀ ability, rules.catalog.Offers ability →
      Keeps V R (Resolve.fireStatus act id event line (some ability))
        (w.fireStatus act' id event line (some ability))) :
    Keeps V R (Resolve.notify rules raise act event line id pet)
      (w.notify rules raise' act' event line id pet) := by
  refine Yields.bind (h.lookUp fun e he => missing_levelAbility hp he) fun level hlevel => ?_
  refine Yields.bind (h.lookUp fun e he => missing_statusAbility hp he) fun status hstatus => ?_
  have leveled : Keeps V R (Resolve.fireLevel raise act id event line level)
      (w.fireLevel raise' act' id event line level) := by
    cases level with
    | none => exact keeps_pure _
    | some ability => exact hl ability (offers_levelAbility hlevel)
  refine Couples.bind leveled fun _ => ?_
  cases status with
  | none => exact keeps_pure _
  | some ability => exact hs ability (offers_statusAbility hstatus)

/-- Every pet is let to answer on a board that it was found on. -/
theorem keeps_walk (hb : ∀ s t, R s t → s.board = t.board)
    (hn : ∀ id pet, Couples V (fun s t => R s t ∧ reached? rules event s.board id = some pet)
      (Resolve.notify rules raise act event line id pet)
      (w.notify rules raise' act' event line id pet) fun _ => R) (ids reached : List PetId) :
    Keeps V R (Resolve.walk rules raise act event line reached ids)
      (w.walk rules raise' act' event line reached ids) := by
  induction ids generalizing reached with
  | nil => exact keeps_pure _
  | cons id rest ih =>
    unfold Resolve.walk walk
    refine Couples.bind (Q := fun b s t => R s t ∧ s.board = b)
      (couples_look fun s t hst => ⟨hb s t hst, hst, rfl⟩) fun b => ?_
    cases hreached : reached? rules event b id with
    | none => exact (ih reached).weaken (fun _ _ hst => hst.1) fun _ _ _ h => h
    | some pet =>
      have notified : Couples V (fun s t => R s t ∧ s.board = b)
          (Resolve.notify rules raise act event line id pet)
          (w.notify rules raise' act' event line id pet) fun _ => R :=
        (hn id pet).weaken (fun s t hst => ⟨hst.1, hst.2 ▸ hreached⟩) fun _ _ _ h => h
      exact Couples.bind notified fun _ => ih (id :: reached)

/-- A wrapping of nothing but the telling of events makes no difference to walking a line. -/
theorem keeps_walk_of_telling (h : Elementary S rules.catalog V R)
    (ht : Telling S rules rules raise raise' V R) (hS : S.Covers rules.catalog)
    (ha : ∀ event actor effect m, w.act event actor effect m = m)
    (hf : ∀ holder event id ability m, w.fire holder event id ability m = m) (he : S.events event)
    (line ids reached : List PetId) :
    Keeps V R (Resolve.walk rules raise (Resolve.perform rules raise) event line reached ids)
      (w.walk rules raise' (w.perform rules raise') event line reached ids) := by
  have acts := keeps_perform_of_act h ht.toActing hS ha
  refine keeps_walk h.boards (fun id pet => ⟨fun s t ⟨hst, hreached⟩ => ?_⟩) ids reached
  have known := h.known s t hst id pet (pet?_of_reached? hreached)
  refine (keeps_notify h known (fun ability hability => ?_) fun ability hability => ?_).agree s t hst
  · refine keeps_fireLevel h ?_
    rw [hf]
    exact Couples.bind (acts event he _ _ (hS.effects ability hability)) fun _ =>
      keeps_announceCast h ht he id _
  · refine keeps_fireStatus h ?_
    rw [hf]
    exact Couples.bind (acts event he _ _ (hS.effects ability hability)) fun _ => keeps_pure ()

end

/-! ## Cycles and calls beside those of the resolution itself -/

section

variable {w : Wrapping} {V : Verdict} {R : Arena → Arena → Prop} {rules : Rules}

/-- What draining reads of the arenas is the same, and taking the foremost attacks keeps them
related. -/
structure Drainable (R : Arena → Arena → Prop) : Prop where
  queues : ∀ s t, R s t → s.queues = t.queues
  dispatched : ∀ s t, R s t → s.dispatched = t.dispatched
  pop : ∀ s t, R s t →
    R { s with queues := withoutForemost s.queues } { t with queues := withoutForemost t.queues }

/-- Playing the foremost attacks of the queues in some way. -/
def foremostBy (play : List Attack → Resolve Unit) : Resolve Unit := fun s =>
  play (foremost s.queues) { s with queues := withoutForemost s.queues }

theorem keeps_foremostBy (hR : Drainable R) {play play' : List Attack → Resolve Unit}
    (hp : ∀ attacks, Keeps V R (play attacks) (play' attacks)) :
    Keeps V R (foremostBy play) (foremostBy play') := by
  constructor
  intro s t hst
  unfold foremostBy
  have popped := hR.pop s t hst
  rw [← hR.queues s t hst] at popped ⊢
  exact (hp _).agree _ _ popped

theorem keeps_drainForemostBy (hR : Drainable R) {play play' : List Attack → Resolve Unit}
    (hp : ∀ attacks, Keeps V R (play attacks) (play' attacks)) :
    Keeps V R (drainBy rules (foremostBy play)) (drainBy rules (foremostBy play')) :=
  keeps_drainBy hR.queues hR.dispatched (keeps_foremostBy hR hp)

theorem drainQueues_eq (w : Wrapping) (rules : Rules) :
    w.drainQueues rules = drainBy rules (foremostBy (playAttacks rules (w.dispatch rules))) := by
  have times (n : Nat) :
      w.playForemostTimes rules n = timesBy (foremostBy (playAttacks rules (w.dispatch rules))) n := by
    induction n with
    | zero => rfl
    | succ n ih =>
      unfold playForemostTimes timesBy
      rw [ih]
      rfl
  have passing (passes : Nat) :
      w.drainWithin rules passes =
        drainWithinBy (foremostBy (playAttacks rules (w.dispatch rules))) passes := by
    induction passes with
    | zero => rfl
    | succ passes ih =>
      unfold drainWithin drainWithinBy
      simp only [times, ih]
  unfold drainQueues drainBy
  simp only [passing]

theorem keeps_drainQueues (hR : Drainable R)
    (hp : ∀ attacks, Keeps V R (playAttacks rules (Resolve.dispatch rules) attacks)
      (playAttacks rules (w.dispatch rules) attacks)) :
    Keeps V R (Resolve.drainQueues rules) (w.drainQueues rules) := by
  rw [Resolve.drainQueues_eq, drainQueues_eq]
  exact keeps_drainForemostBy hR hp

end

end Wrapping

/-! ## Calls that start from other procedures -/

section

variable {V : Verdict} {R : Arena → Arena → Prop} {rules : Rules} {p p' : Procedures}

theorem Battle.keeps_opening_of
    (ht : ∀ side, Keeps V R (p.tell (.battle .startOfBattle side))
      (p'.tell (.battle .startOfBattle side)))
    (hd : Keeps V R p.drain p'.drain) : Keeps V R (opening p) (opening p') :=
  Couples.bind (keeps_forEach _ fun side _ => ht side) fun _ => hd

theorem keeps_attackCycle_of (hb : ∀ s t, R s t → s.board = t.board)
    (hp : ∀ attacks, Keeps V R (playAttacks rules p.tell attacks) (playAttacks rules p'.tell attacks))
    (hd : Keeps V R p.drain p'.drain) : Keeps V R (attackCycle rules p) (attackCycle rules p') :=
  Couples.bind (Q := fun _ => R) (couples_look fun s t hst => ⟨hb s t hst, hst⟩) fun _ =>
    Couples.bind (hp _) fun _ => hd

end

end AutoBattler
