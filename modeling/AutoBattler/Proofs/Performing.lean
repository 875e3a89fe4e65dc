import AutoBattler.Proofs.Coupling
import AutoBattler.Proofs.Scope

/-!
# Performing effects step by step

A relation between arenas that the elementary steps within a scope keep is kept by every effect in
the scope, and by the walk of an event. Attacks, experience, summons and casts tell events of their
own; they are taken as whole steps here.
-/
namespace AutoBattler

namespace Resolve

variable {α β : Type}

/-- The steps within a scope that tell no event, the counting of a firing among them if `counted`
holds. -/
structure ElementaryIf (counted : Prop) (S : Scope) (c : Catalog) (V : Verdict)
    (R : Arena → Arena → Prop) : Prop where
  boards : ∀ s t, R s t → s.board = t.board
  known : ∀ s t, R s t → ∀ id pet, s.board.pet? id = some pet → S.pets pet
  selects : ∀ effect selector event, S.effects effect → selector ∈ effect.selectors →
    S.events event → ∀ actor, Keeps V R (targets event actor selector) (targets event actor selector)
  choose : ∀ effect, S.effects effect → effect.chooses = true →
    ∀ n, Keeps V R (draw fun g => g.index? n) (draw fun g => g.index? n)
  edit : ∀ f, Edit c S f → counted ∨ (∀ p, (f p).counters = p.counters) →
    ∀ id, Keeps V R (modifyPet id f) (modifyPet id f)
  shop : ∀ f, ShopEdit S f → Keeps V R (modifyShop f) (modifyShop f)
  queue : ∀ event, S.events event → event.isBattle = true →
    ∀ attack, Keeps V R (enqueue attack) (enqueue attack)
  missing : ∀ e, Missing c S e → ∀ s t, R s t → V.together e s t

abbrev Elementary (S : Scope) (c : Catalog) (V : Verdict) (R : Arena → Arena → Prop) : Prop :=
  ElementaryIf True S c V R

/-- The pets of a request that answers the event may join the side, from an arena in the relation. -/
def Destined (c : Catalog) (S : Scope) (R : Arena → Arena → Prop) (event : Event) (side : Side) : Prop :=
  ∃ request s t, ∃ actor : Option PetId, Asked c S request ∧ R s t ∧
    side = request.side ((actor.bind s.board.sideOf?).getD event.side)

/-- The steps of effects that tell events on the way. -/
structure Acting (S : Scope) (rules rules' : Rules) (raise raise' : Raise) (V : Verdict)
    (R : Arena → Arena → Prop) : Prop where
  play : ∀ event, S.events event → event.isBattle = true →
    event.trigger = .beforeAttack ∨ event.trigger = .startOfBattle →
    ∀ attacker side targets damage,
      Keeps V R (playAttacks rules raise [⟨attacker, side, targets, damage, false⟩])
        (playAttacks rules' raise' [⟨attacker, side, targets, damage, false⟩])
  teach : ∀ event, S.events event → ∀ amount target, S.effects (.gainExperience amount target) →
    ∀ id, Keeps V R (teach raise event amount id) (teach raise' event amount id)
  bringIn : ∀ event, S.events event → ∀ pet, Newcomer rules.catalog S pet →
    ∀ side, Destined rules.catalog S R event side → ∀ placement copies,
      Keeps V R (bringIn raise event side pet placement copies)
        (bringIn raise' event side pet placement copies)
  evolve : ∀ into kind, S.effects (.evolve into) → rules.catalog.petKind into = .ok kind →
    ∀ id, Keeps V R (replace id (.ofKind kind)) (replace id (.ofKind kind))

/-- The steps that tell events on the way: those of effects, and the announcement of a cast. -/
structure Telling (S : Scope) (rules rules' : Rules) (raise raise' : Raise) (V : Verdict)
    (R : Arena → Arena → Prop) : Prop extends Acting S rules rules' raise raise' V R where
  cast : ∀ event, S.events event → event.isBattle = true → event.repeated = false →
    event.trigger ≠ .castsAbility → ∀ caster side,
      Keeps V R (raise (castEvent caster side event)) (raise' (castEvent caster side event))

variable {counted : Prop} {S : Scope} {c : Catalog} {V : Verdict} {R : Arena → Arena → Prop}

/-- What depends on the log, the nesting and the board alone is kept if changes of pets keep it. -/
theorem elementary_of_congr {E : EngineError → Arena → Prop} {I : Arena → Prop}
    (known : ∀ s, I s → ∀ id pet, s.board.pet? id = some pet → S.pets pet)
    (congr : ∀ s t, I s → t.log = s.log → t.nesting = s.nesting → t.dispatched = s.dispatched →
      t.board = s.board → I t)
    (edits : ∀ s, I s → ∀ f, Edit c S f → ∀ id,
      I { s with board := s.board.modifyPet id f })
    (missing : ∀ e, Missing c S e → ∀ s, I s → E e s) : Elementary S c (.same E) (Same I) where
  boards := by
    rintro s t ⟨rfl, _⟩
    rfl
  known := by
    rintro s t ⟨rfl, hs⟩
    exact known s hs
  selects _ _ _ _ _ _ _ := Triple.intro fun s hs => congr s _ hs rfl rfl rfl rfl
  choose _ _ _ _ := Triple.intro fun s hs => congr s _ hs rfl rfl rfl rfl
  edit f hf _ id := Triple.intro fun s hs => edits s hs f hf id
  shop _ _ := Triple.intro fun s hs => congr s _ hs rfl rfl rfl rfl
  queue _ _ _ _ := Triple.intro fun s hs => congr s _ hs rfl rfl rfl rfl
  missing := by
    rintro e he s t ⟨rfl, hs⟩
    exact ⟨rfl, missing e he s hs⟩

/-! ## Reading the board -/

theorem ElementaryIf.yields_board (h : ElementaryIf counted S c V R) :
    Yields V R (fun b => ∀ id pet, b.pet? id = some pet → S.pets pet) board board := by
  apply couples_look
  intro s t hst
  exact ⟨h.boards s t hst, h.known s t hst, hst⟩

theorem ElementaryIf.yields_pet? (h : ElementaryIf counted S c V R) (id : PetId) :
    Yields V R (fun pet => ∀ p, pet = some p → S.pets p) (pet? id) (pet? id) := by
  apply couples_look
  intro s t hst
  exact ⟨by rw [h.boards s t hst], h.known s t hst id, hst⟩

theorem keeps_modifyPets (h : ElementaryIf counted S c V R) {f : Pet → Pet} (hf : Edit c S f)
    (hc : ∀ p, (f p).counters = p.counters) (ids : List PetId) :
    Keeps V R (modifyPets ids f) (modifyPets ids f) :=
  keeps_forEach ids fun id _ => h.edit f hf (.inr hc) id

/-- The targets of a selector are found and changed. -/
theorem keeps_modifyTargets (h : ElementaryIf counted S c V R) {event : Event} (he : S.events event)
    {effect : Effect} (hs : S.effects effect) {selector : Selector}
    (hm : selector ∈ effect.selectors) {f : Pet → Pet} (hf : Edit c S f)
    (hc : ∀ p, (f p).counters = p.counters) (actor : Option PetId) :
    Keeps V R
      (do
        let ids ← targets event actor selector
        modifyPets ids f
        pure ids)
      (do
        let ids ← targets event actor selector
        modifyPets ids f
        pure ids) := by
  apply Couples.bind (h.selects effect selector event hs hm he actor)
  intro ids
  apply Couples.bind (keeps_modifyPets h hf hc ids)
  intro _
  exact keeps_pure ids

/-- Looking up a name that a scope may lack. -/
theorem ElementaryIf.lookUp (h : ElementaryIf counted S c V R) {r : Except EngineError α}
    (hm : ∀ e, r = .error e → Missing c S e) :
    Yields V R (fun x => r = .ok x) (ofExcept r) (ofExcept r) :=
  yields_ofExcept fun e he => h.missing e (hm e he)

/-- A number that is drawn below a bound lies below it. -/
theorem ElementaryIf.yields_choose (h : ElementaryIf counted S c V R) {effect : Effect}
    (hs : S.effects effect) (hc : effect.chooses = true) (n : Nat) :
    Yields V R (fun i => i = none ∧ n = 0 ∨ ∃ k, i = some k ∧ k < n) (draw fun g => g.index? n)
      (draw fun g => g.index? n) := by
  apply Keeps.yields (h.choose effect hs hc n)
  intro s x t hx
  cases hx
  dsimp only [Random.Generator.index?]
  by_cases hn : n = 0
  · rw [if_pos hn]
    exact .inl ⟨rfl, hn⟩
  · rw [if_neg hn]
    exact .inr ⟨_, rfl, Random.Generator.below_lt _ (Nat.pos_of_ne_zero hn)⟩

/-! ## Single effects -/

variable {rules rules' : Rules} {raise raise' : Raise} {event : Event}

theorem keeps_modifyStats (h : ElementaryIf counted S c V R) (he : S.events event) (actor : Option PetId)
    {attack health : Int} {target : Selector} {temporary : Bool}
    (hs : S.effects (.modifyStats attack health target temporary)) :
    Keeps V R (modifyStats event actor attack health target temporary)
      (modifyStats event actor attack health target temporary) := by
  unfold modifyStats
  split
  · split
    · exact keeps_pure _
    · refine Couples.bind (h.shop _ ?_) fun _ => keeps_pure _
      split
      · exact .buffAll hs
      · exact .buffCurrent hs
  · exact keeps_modifyTargets h he hs (by simp [Effect.selectors]) (.buff hs) (fun _ => rfl) actor

/-- Damage that is dealt at once or queued, with attacks that are played in some way. -/
def launchBy (play : List Attack → Resolve Unit) (event : Event) (attacker : PetId)
    (targets : List PetId) (damage : Int) : Resolve Unit := do
  match (← board).sideOf? attacker with
  | none => pure ()
  | some side =>
    if targets = [] then pure ()
    else
      let attack : Attack := ⟨attacker, side, targets, damage, false⟩
      if event.trigger = .beforeAttack ∨ event.trigger = .startOfBattle then play [attack]
      else enqueue attack

def dealDamageBy (play : List Attack → Resolve Unit) (event : Event) (actor : Option PetId)
    (amount : DamageAmount) (target : Selector) : Resolve (List PetId) := do
  match actor, event.isBattle with
  | some attacker, true =>
    let damage := match ← pet? attacker with
      | some pet => amount.resolve pet.attack
      | none => 0
    let ids ← targets event actor target
    launchBy play event attacker ids damage
    pure ids
  | _, _ => pure []

theorem dealDamage_eq (rules : Rules) (raise : Raise) (event : Event) (actor : Option PetId)
    (amount : DamageAmount) (target : Selector) :
    dealDamage rules raise event actor amount target =
      dealDamageBy (playAttacks rules raise) event actor amount target := rfl

theorem keeps_dealDamageBy {play play' : List Attack → Resolve Unit}
    (h : ElementaryIf counted S c V R)
    (hp : event.isBattle = true → event.trigger = .beforeAttack ∨ event.trigger = .startOfBattle →
      ∀ attacker side targets damage,
        Keeps V R (play [⟨attacker, side, targets, damage, false⟩])
          (play' [⟨attacker, side, targets, damage, false⟩]))
    (he : S.events event) (actor : Option PetId) {amount : DamageAmount} {target : Selector}
    (hs : S.effects (.dealDamage amount target)) :
    Keeps V R (dealDamageBy play event actor amount target)
      (dealDamageBy play' event actor amount target) := by
  unfold dealDamageBy
  split
  · rename_i attacker hb
    have launched (targets : List PetId) (damage : Int) :
        Keeps V R (launchBy play event attacker targets damage)
          (launchBy play' event attacker targets damage) := by
      refine Yields.bind h.yields_board fun b _ => ?_
      split
      · exact keeps_pure _
      · split
        · exact keeps_pure _
        · dsimp only
          split
          · rename_i htrigger
            exact hp hb htrigger _ _ _ _
          · exact h.queue event he hb _
    refine Yields.bind (h.yields_pet? _) fun pet _ => ?_
    refine Couples.bind (h.selects _ _ event hs (by simp [Effect.selectors]) he _) fun ids => ?_
    exact Couples.bind (launched ids _) fun _ => keeps_pure _
  · exact keeps_pure _

theorem keeps_dealDamage (h : ElementaryIf counted S rules.catalog V R)
    (ht : Acting S rules rules' raise raise' V R) (he : S.events event) (actor : Option PetId)
    {amount : DamageAmount} {target : Selector} (hs : S.effects (.dealDamage amount target)) :
    Keeps V R (dealDamage rules raise event actor amount target)
      (dealDamage rules' raise' event actor amount target) := by
  rw [dealDamage_eq, dealDamage_eq]
  exact keeps_dealDamageBy h (ht.play event he) he actor hs

theorem keeps_splashDamage (h : ElementaryIf counted S c V R) (he : S.events event) (actor : Option PetId)
    (amount : Int) : Keeps V R (splashDamage event actor amount) (splashDamage event actor amount) := by
  unfold splashDamage
  split
  · rename_i hb
    refine Yields.bind h.yields_board fun b _ => ?_
    split
    · exact keeps_pure _
    · split
      · exact keeps_pure _
      · exact Couples.bind (h.queue event he hb _) fun _ => keeps_pure _
  · exact keeps_pure _

theorem ElementaryIf.yields_donor (h : ElementaryIf counted S c V R) (he : S.events event)
    (actor : Option PetId) {effect : Effect} (hs : S.effects effect) {selector : Selector}
    (hm : selector ∈ effect.selectors) :
    Yields V R (fun pet => ∀ p, pet = some p → S.pets p) (donor event actor selector)
      (donor event actor selector) := by
  refine Couples.bind (h.selects effect selector event hs hm he actor) fun ids => ?_
  refine Yields.bind h.yields_board fun b hb => ?_
  apply couples_pure
  intro s t hst
  refine ⟨fun p hp => ?_, hst⟩
  obtain ⟨id, _, hid⟩ := Option.bind_eq_some_iff.1 hp
  exact hb id p hid

theorem counters_copyStats (giver : Pet) (copyAttack copyHealth : Bool) (p : Pet) :
    (copyStats giver copyAttack copyHealth p).counters = p.counters := by
  cases copyAttack <;> cases copyHealth <;> rfl

theorem keeps_transferStats (h : ElementaryIf counted S c V R) (he : S.events event) (actor : Option PetId)
    {giver receivers : Selector} {copyAttack copyHealth : Bool}
    (hs : S.effects (.transferStats giver receivers copyAttack copyHealth)) :
    Keeps V R (transferStats event actor giver receivers copyAttack copyHealth)
      (transferStats event actor giver receivers copyAttack copyHealth) := by
  refine Yields.bind (h.yields_donor he actor hs (by simp [Effect.selectors])) fun pet hpet => ?_
  split
  · exact keeps_pure _
  · exact keeps_modifyTargets h he hs (by simp [Effect.selectors]) (.copy hs (hpet _ rfl))
      (counters_copyStats _ _ _) actor

theorem keeps_transferAbility (h : ElementaryIf counted S c V R) (he : S.events event)
    (actor : Option PetId) {giver receivers : Selector} {level : Option Nat}
    (hs : S.effects (.transferAbility giver receivers level)) :
    Keeps V R (transferAbility event actor giver receivers level)
      (transferAbility event actor giver receivers level) := by
  refine Yields.bind (h.yields_donor he actor hs (by simp [Effect.selectors])) fun pet hpet => ?_
  split
  · exact keeps_pure _
  · exact keeps_modifyTargets h he hs (by simp [Effect.selectors]) (.borrow hs (hpet _ rfl))
      (fun _ => rfl) actor

/-! ## Summons -/

theorem keeps_summon (h : ElementaryIf counted S rules.catalog V R)
    (ht : Acting S rules rules' raise raise' V R) (hc : rules'.catalog = rules.catalog)
    (he : S.events event) (actor : Option PetId) {request : Summons}
    (ha : Asked rules.catalog S request) :
    Keeps V R (summon rules raise event actor request) (summon rules' raise' event actor request) := by
  unfold summon
  rw [hc]
  refine Yields.bind (h.lookUp fun e he => .summoned ha he) fun kind hk => ?_
  have atHand : Yields V R (fun b => (∀ id pet, b.pet? id = some pet → S.pets pet) ∧
      ∃ s t, R s t ∧ s.board = b) board board :=
    couples_look fun s t hst => ⟨h.boards s t hst, ⟨h.known s t hst, s, t, hst, rfl⟩, hst⟩
  refine Yields.bind atHand fun b hb => ?_
  obtain ⟨hb, s, t, hst, rfl⟩ := hb
  have destined : Destined rules.catalog S R event
      (request.side ((actor.bind s.board.sideOf?).getD event.side)) :=
    ⟨request, s, t, actor, ha, hst, rfl⟩
  have plain := ht.bringIn event he _ (.plain ha hk) _ destined
  dsimp only
  split
  · exact plain _ _
  · split
    · rename_i summoner hsummoner
      obtain ⟨id, _, hid⟩ := Option.bind_eq_some_iff.1 hsummoner
      exact ht.bringIn event he _ (.inheriting ha hk (hb id summoner hid)) _ destined _ _
    · exact plain _ _
  · split
    · exact keeps_pure _
    · exact plain _ _
  · exact plain _ _
  · exact plain _ _

theorem keeps_summonRandom (h : ElementaryIf counted S rules.catalog V R)
    (ht : Acting S rules rules' raise raise' V R) (hc : rules'.catalog = rules.catalog)
    (he : S.events event) (actor : Option PetId) {tier : Nat} {attack health : Option Int}
    {level : Option Nat} (hs : S.effects (.summonRandomPet tier attack health level)) :
    Keeps V R (summonRandom rules raise event actor tier attack health level)
      (summonRandom rules' raise' event actor tier attack health level) := by
  unfold summonRandom
  rw [hc]
  refine Yields.bind (h.yields_choose hs rfl _) fun i hi => ?_
  split
  · rename_i hnone
    apply couples_fail
    refine h.missing _ (.emptyTier hs ?_)
    rcases hi with ⟨_, hn⟩ | ⟨k, rfl, hk⟩
    · exact List.eq_nil_of_length_eq_zero hn
    · rw [Option.bind_some, List.getElem?_eq_none_iff] at hnone
      omega
  · rename_i kind hkind
    obtain ⟨k, _, hk⟩ := Option.bind_eq_some_iff.1 hkind
    exact keeps_summon h ht hc he actor (.random hs (List.mem_of_getElem? hk))

theorem keeps_respawn (h : ElementaryIf counted S rules.catalog V R)
    (ht : Acting S rules rules' raise raise' V R) (hc : rules'.catalog = rules.catalog)
    (he : S.events event) (actor : Option PetId) {attack health : Int}
    (hs : S.effects (.respawnPet attack health)) :
    Keeps V R (respawn rules raise event actor attack health)
      (respawn rules' raise' event actor attack health) := by
  unfold respawn
  refine Yields.bind h.yields_board fun b hb => ?_
  split
  · exact keeps_pure _
  · rename_i pet hpet
    obtain ⟨id, _, hid⟩ := Option.bind_eq_some_iff.1 hpet
    exact keeps_summon h ht hc he actor (.again hs (hb id pet hid))

theorem keeps_evolve (h : ElementaryIf counted S rules.catalog V R)
    (ht : Acting S rules rules' raise raise' V R) (hc : rules'.catalog = rules.catalog)
    (actor : Option PetId) {into : PetKindId} (hs : S.effects (.evolve into)) :
    Keeps V R (evolve rules actor into) (evolve rules' actor into) := by
  unfold evolve
  rw [hc]
  refine Yields.bind (h.lookUp fun e he => .evolved hs he) fun kind hk => ?_
  split
  · exact keeps_pure _
  · exact Couples.bind (ht.evolve into kind hs hk _) fun _ => keeps_pure _

/-! ## All effects -/

theorem PetKind.offers_ability {c : Catalog} {id : PetKindId} {kind : PetKind} {level : Nat}
    {ability : Ability} (hk : c.petKind id = .ok kind) (ha : kind.ability level = some ability) :
    c.Offers ability := .level (Catalog.petKind_eq_ok.1 hk) ha

/-- How a pet performs an effect again keeps the relation, for the effects of a catalog. -/
def Repeats (p : Effect → Prop) (V : Verdict) (R : Arena → Arena → Prop)
    (again again' : Option Again) : Prop :=
  again = none ∧ again' = none ∨ ∃ a a', again = some a ∧ again' = some a' ∧
    ∀ id effect, effect.Every p → Keeps V R (a id effect) (a' id effect)

variable {again again' : Option Again}

theorem keeps_repeatAbility {p : Effect → Prop} (h : ElementaryIf counted S rules.catalog V R)
    (hp : rules.catalog.Every p) (hc : rules'.catalog = rules.catalog) (he : S.events event)
    (hr : Repeats p V R again again') (actor : Option PetId) {target : Selector}
    {level : Option Nat} (hs : S.effects (.repeatAbility target level)) :
    Keeps V R (repeatAbility rules again event actor target level)
      (repeatAbility rules' again' event actor target level) := by
  unfold repeatAbility
  rcases hr with ⟨rfl, rfl⟩ | ⟨a, a', rfl, rfl, ha⟩
  · cases event.source <;> exact keeps_pure _
  · cases event.source with
    | none => exact keeps_pure _
    | some caster =>
      rw [hc]
      refine Yields.bind (h.yields_pet? caster) fun found hfound => ?_
      split
      · exact keeps_pure _
      · rename_i pet
        refine Yields.bind (h.lookUp fun e he => .abilityKind (hfound pet rfl) he) fun kind hk => ?_
        split
        · exact keeps_pure _
        · rename_i ability hability
          have hevery := hp ability (PetKind.offers_ability hk hability)
          refine Couples.bind (h.selects _ _ event hs (by simp [Effect.selectors]) he _) fun ids => ?_
          refine Couples.bind (keeps_forEach ids fun id _ => ha id _ hevery) fun _ => ?_
          exact keeps_pure _

theorem keeps_experience (h : ElementaryIf counted S rules.catalog V R)
    (ht : Acting S rules rules' raise raise' V R) (he : S.events event) (actor : Option PetId)
    {amount : Nat} {target : Selector} (hs : S.effects (.gainExperience amount target)) :
    Keeps V R
      (do
        let ids ← targets event actor target
        forEach ids (teach raise event amount)
        pure ids)
      (do
        let ids ← targets event actor target
        forEach ids (teach raise' event amount)
        pure ids) := by
  refine Couples.bind (h.selects _ _ event hs (by simp [Effect.selectors]) he actor) fun ids => ?_
  refine Couples.bind (keeps_forEach ids fun id _ => ht.teach event he amount target hs id) fun _ => ?_
  exact keeps_pure ids

theorem keeps_single (h : ElementaryIf counted S rules.catalog V R)
    (ht : Acting S rules rules' raise raise' V R) (hc : rules'.catalog = rules.catalog)
    (he : S.events event) (actor : Option PetId) {effect : Effect} (hs : S.effects effect)
    (hsingle : effect.IsSingle) :
    Keeps V R (performWith rules raise again event actor effect)
      (performWith rules' raise' again' event actor effect) := by
  cases effect with
  | oneOf | allOf | repeatAbility => exact hsingle.elim
  | modifyStats => exact keeps_modifyStats h he actor hs
  | gainExperience => exact keeps_experience h ht he actor hs
  | applyStatus =>
    rw [performWith, performWith, hc]
    refine Yields.bind (h.lookUp fun e he => .applied hs he) fun _ hk => ?_
    exact keeps_modifyTargets h he hs (by simp [Effect.selectors]) (.status hs hk) (fun _ => rfl) actor
  | dealDamage => exact keeps_dealDamage h ht he actor hs
  | splashDamage => exact keeps_splashDamage h he actor _
  | reduceHealth =>
    exact keeps_modifyTargets h he hs (by simp [Effect.selectors]) (.reduce hs) (fun _ => rfl) actor
  | summonPet => exact keeps_summon h ht hc he actor (.named hs)
  | summonRandomPet => exact keeps_summonRandom h ht hc he actor hs
  | respawnPet => exact keeps_respawn h ht hc he actor hs
  | transferStats => exact keeps_transferStats h he actor hs
  | transferAbility => exact keeps_transferAbility h he actor hs
  | gainGold => exact Couples.bind (h.shop _ (.gold hs)) fun _ => keeps_pure _
  | evolve => exact keeps_evolve h ht hc actor hs
  | modifyDamage => exact keeps_pure _

mutual

theorem keeps_performWith (h : ElementaryIf counted S rules.catalog V R)
    (ht : Acting S rules rules' raise raise' V R) (hS : S.Covers rules.catalog)
    (hc : rules'.catalog = rules.catalog) (he : S.events event)
    (hr : Repeats S.effects V R again again') (actor : Option PetId) :
    (effect : Effect) → effect.Every S.effects →
      Keeps V R (performWith rules raise again event actor effect)
        (performWith rules' raise' again' event actor effect)
  | .oneOf effects, hs => by
    refine Couples.bind (h.choose _ hs.1 rfl effects.length) fun i => ?_
    split
    · exact keeps_pure _
    · exact keeps_performNth h ht hS hc he hr actor effects _ hs.2
  | .allOf effects, hs => by
    rw [performWith, performWith]
    exact keeps_performAll h ht hS hc he hr actor [] effects hs.2
  | .repeatAbility .., hs => keeps_repeatAbility h hS.effects hc he hr actor hs.1
  | .modifyStats .., hs | .gainExperience .., hs | .applyStatus .., hs | .dealDamage .., hs
  | .splashDamage .., hs | .reduceHealth .., hs | .summonPet .., hs | .summonRandomPet .., hs
  | .respawnPet .., hs | .transferStats .., hs | .transferAbility .., hs | .gainGold .., hs
  | .evolve .., hs | .modifyDamage .., hs => keeps_single h ht hc he actor hs.1 trivial

theorem keeps_performNth (h : ElementaryIf counted S rules.catalog V R)
    (ht : Acting S rules rules' raise raise' V R) (hS : S.Covers rules.catalog)
    (hc : rules'.catalog = rules.catalog) (he : S.events event)
    (hr : Repeats S.effects V R again again') (actor : Option PetId) :
    (effects : List Effect) → (i : Nat) → Effect.EveryOf S.effects effects →
      Keeps V R (performNth rules raise again event actor effects i)
        (performNth rules' raise' again' event actor effects i)
  | [], _, _ => keeps_pure _
  | e :: _, 0, hs => keeps_performWith h ht hS hc he hr actor e hs.1
  | _ :: rest, i + 1, hs => keeps_performNth h ht hS hc he hr actor rest i hs.2

theorem keeps_performAll (h : ElementaryIf counted S rules.catalog V R)
    (ht : Acting S rules rules' raise raise' V R) (hS : S.Covers rules.catalog)
    (hc : rules'.catalog = rules.catalog) (he : S.events event)
    (hr : Repeats S.effects V R again again') (actor : Option PetId) :
    (touched : List (List PetId)) → (effects : List Effect) → Effect.EveryOf S.effects effects →
      Keeps V R (performAll rules raise again event actor touched effects)
        (performAll rules' raise' again' event actor touched effects)
  | _, [], _ => keeps_pure _
  | _, e :: rest, hs =>
    Couples.bind (keeps_performWith h ht hS hc he hr actor e hs.1) fun _ =>
      keeps_performAll h ht hS hc he hr actor _ rest hs.2

end

/-- By recursion on the causes of the event: an effect performed again answers the next cause. -/
theorem keeps_perform (h : ElementaryIf counted S rules.catalog V R)
    (ht : Acting S rules rules' raise raise' V R) (hS : S.Covers rules.catalog)
    (hc : rules'.catalog = rules.catalog) :
    (event : Event) → S.events event → (actor : Option PetId) → (effect : Effect) →
      effect.Every S.effects → Keeps V R (perform rules raise event actor effect)
        (perform rules' raise' event actor effect)
  | ⟨_, _, _, _, _, _, none⟩, he, actor, effect, hs => by
    rw [perform, perform]
    exact keeps_performWith h ht hS hc he (.inl ⟨rfl, rfl⟩) actor effect hs
  | ⟨_, _, _, _, _, _, some cause⟩, he, actor, effect, hs => by
    rw [perform, perform]
    refine keeps_performWith h ht hS hc he (.inr ⟨_, _, rfl, rfl, fun id e hs => ?_⟩) actor effect hs
    have hcause := hS.cause _ cause he rfl
    exact Couples.bind (keeps_perform h ht hS hc cause hcause (some id) e hs) fun _ => keeps_pure _

end Resolve

end AutoBattler
