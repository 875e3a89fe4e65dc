import AutoBattler.Proofs.Boards
import AutoBattler.Proofs.Fighting

/-!
# Telling events step by step

The walk of an event keeps what performing effects and announcing casts keep. Where every step on
the board and every event told is known to keep a relation, so does the whole of dispatch; this is
an induction on the room that is left for nesting.
-/
namespace AutoBattler

namespace Resolve

variable {counted : Prop} {p : Effect → Prop} {S : Scope} {V : Verdict}
  {R : Arena → Arena → Prop} {rules rules' : Rules} {raise raise' : Raise} {act act' : Act}
  {event : Event}

/-! ## The walk of an event -/

/-- Performing an effect of the scope in answer to an event of the scope keeps the relation. -/
def Acts (S : Scope) (V : Verdict) (R : Arena → Arena → Prop) (act act' : Act) : Prop :=
  ∀ event, S.events event → ∀ actor effect, effect.Every S.effects →
    Keeps V R (act event actor effect) (act' event actor effect)

theorem acts_perform (h : ElementaryIf counted S rules.catalog V R)
    (ht : Telling S rules rules' raise raise' V R) (hS : S.Covers rules.catalog)
    (hc : rules'.catalog = rules.catalog) :
    Acts S V R (perform rules raise) (perform rules' raise') := by
  intro event he actor effect hs
  exact keeps_perform h ht.toActing hS hc event he actor effect hs

theorem keeps_shouldFire (h : Elementary S rules.catalog V R) (holder : Holder) (id : PetId)
    (ability : Ability) (event : Event) (line : List PetId) :
    Keeps V R (shouldFire holder id ability event line)
      (shouldFire holder id ability event line) := by
  unfold shouldFire
  split
  · split
    · exact keeps_pure _
    · refine Yields.bind (h.yields_pet? id) fun pet _ => ?_
      split
      · exact keeps_pure _
      · dsimp only
        split
        · exact keeps_pure _
        · exact Couples.bind (h.edit _ (.bump _) (.inl trivial) id) fun _ => keeps_pure _
  · exact keeps_pure _

/-- A cast is announced in battle only, and only if it answers neither a cast nor a repeat. -/
theorem keeps_announceCast_of_raise (h : ElementaryIf counted S rules.catalog V R) {caster : PetId}
    (hr : event.isBattle = true → event.repeated = false → event.trigger ≠ .castsAbility → ∀ side,
      Keeps V R (raise (castEvent caster side event)) (raise' (castEvent caster side event)))
    (effect : Effect) :
    Keeps V R (announceCast raise caster effect event) (announceCast raise' caster effect event) := by
  unfold announceCast
  split
  · exact keeps_pure _
  · rename_i hcast
    simp only [Bool.or_eq_true, Bool.not_eq_true', decide_eq_true_eq, not_or, Bool.not_eq_false,
      Bool.not_eq_true] at hcast
    obtain ⟨⟨⟨hbattle, hrepeated⟩, htrigger⟩, _⟩ := hcast
    refine Yields.bind h.yields_board fun b _ => ?_
    split
    · exact keeps_pure _
    · exact hr hbattle hrepeated htrigger _

theorem keeps_announceCast (h : ElementaryIf counted S rules.catalog V R)
    (ht : Telling S rules rules' raise raise' V R) (he : S.events event) (caster : PetId)
    (effect : Effect) :
    Keeps V R (announceCast raise caster effect event) (announceCast raise' caster effect event) :=
  keeps_announceCast_of_raise h
    (fun hbattle hrepeated htrigger => ht.cast event he hbattle hrepeated htrigger caster) effect

theorem keeps_fireLevel (h : Elementary S rules.catalog V R)
    (ht : Telling S rules rules' raise raise' V R) (ha : Acts { S with effects := p } V R act act')
    (he : S.events event) (id : PetId) (line : List PetId) {ability : Option Ability}
    (hs : ∀ a, ability = some a → a.effect.Every p) :
    Keeps V R (fireLevel raise act id event line ability)
      (fireLevel raise' act' id event line ability) := by
  unfold fireLevel
  split
  · exact keeps_pure _
  · refine Couples.bind (keeps_shouldFire h ..) fun fires => ?_
    split
    · refine Couples.bind (ha event he _ _ (hs _ rfl)) fun _ => ?_
      exact keeps_announceCast h ht he id _
    · exact keeps_pure _

theorem keeps_fireStatus (h : Elementary S rules.catalog V R)
    (ha : Acts { S with effects := p } V R act act') (he : S.events event) (id : PetId) (line : List PetId) {ability : Option Ability}
    (hs : ∀ a, ability = some a → a.effect.Every p) :
    Keeps V R (fireStatus act id event line ability) (fireStatus act' id event line ability) := by
  unfold fireStatus
  split
  · exact keeps_pure _
  · refine Couples.bind (keeps_shouldFire h ..) fun fires => ?_
    split
    · exact Couples.bind (ha event he _ _ (hs _ rfl)) fun _ => keeps_pure _
    · exact keeps_pure _

theorem offers_levelAbility {c : Catalog} {pet : Pet} {ability : Ability}
    (h : c.levelAbility pet = .ok (some ability)) : c.Offers ability := by
  obtain ⟨kind, hk, ha⟩ := Catalog.kind_of_levelAbility h
  exact PetKind.offers_ability hk ha

theorem offers_statusAbility {c : Catalog} {pet : Pet} {ability : Ability}
    (h : c.statusAbility pet = .ok (some ability)) : c.Offers ability := by
  obtain ⟨id, status, _, hs, rfl⟩ := Catalog.status_of_statusAbility h
  exact .status (Catalog.status_eq_ok.1 hs)

theorem offers_food {c : Catalog} {id : FoodId} {food : Food} (h : c.food id = .ok food) :
    c.Offers food.ability := .food (Catalog.food_eq_ok.1 h)

theorem missing_levelAbility {c : Catalog} {pet : Pet} {e : EngineError} (hp : S.pets pet)
    (h : c.levelAbility pet = .error e) : Missing c S e := by
  unfold Catalog.levelAbility at h
  cases hk : c.petKind pet.abilityKind with
  | ok kind => rw [hk] at h; cases h
  | error e' =>
    rw [hk] at h
    cases h
    exact .abilityKind hp hk

theorem keeps_notify (h : Elementary S rules.catalog V R)
    (ht : Telling S rules rules' raise raise' V R) (hall : rules.catalog.Every p)
    (hc : rules'.catalog = rules.catalog) (ha : Acts { S with effects := p } V R act act')
    (he : S.events event)
    (line : List PetId) (id : PetId) {pet : Pet} (hp : S.pets pet) :
    Keeps V R (notify rules raise act event line id pet)
      (notify rules' raise' act' event line id pet) := by
  unfold notify
  rw [hc]
  refine Yields.bind (h.lookUp fun e he => missing_levelAbility hp he) fun level hlevel => ?_
  refine Yields.bind (h.lookUp fun e he => missing_statusAbility hp he) fun status hstatus => ?_
  have hl : ∀ a, level = some a → a.effect.Every p := by
    rintro a rfl
    exact hall a (offers_levelAbility hlevel)
  have hs : ∀ a, status = some a → a.effect.Every p := by
    rintro a rfl
    exact hall a (offers_statusAbility hstatus)
  refine Couples.bind (keeps_fireLevel h ht ha he id line hl) fun _ => ?_
  exact keeps_fireStatus h ha he id line hs

theorem pet?_of_reached? {b : Board} {id : PetId} {pet : Pet}
    (h : reached? rules event b id = some pet) : b.pet? id = some pet := by
  unfold reached? at h
  split at h
  · cases h
  · rename_i entrant hentrant
    split at h
    · cases h
      exact Board.pet?_of_entrant? hentrant
    · cases h

/-- Of those that are listed as reached, each was reached at some time. -/
theorem yields_walk {G : PetId → Prop} (h : Elementary S rules.catalog V R)
    (ht : Telling S rules rules' raise raise' V R) (hall : rules.catalog.Every p)
    (hc : rules'.catalog = rules.catalog) (ha : Acts { S with effects := p } V R act act')
    (he : S.events event)
    (hG : ∀ s t, R s t → ∀ id pet, reached? rules event s.board id = some pet → G id)
    (line ids : List PetId) {reached : List PetId} (hr : ∀ id ∈ reached, G id) :
    Yields V R (fun notified => ∀ id ∈ notified, G id)
      (walk rules raise act event line reached ids)
      (walk rules' raise' act' event line reached ids) := by
  have atHand : Yields V R (fun b => (∀ id pet, b.pet? id = some pet → S.pets pet) ∧
      ∀ id pet, reached? rules event b id = some pet → G id) board board :=
    couples_look fun s t hst => ⟨h.boards s t hst, ⟨h.known s t hst, hG s t hst⟩, hst⟩
  induction ids generalizing reached with
  | nil => exact couples_pure _ fun s t hst => ⟨fun id hm => hr id (List.mem_reverse.1 hm), hst⟩
  | cons id rest ih =>
    unfold walk
    refine Yields.bind atHand fun b hb => ?_
    have hsame : reached? rules' event b id = reached? rules event b id := by
      unfold reached?
      rw [hc]
    rw [hsame]
    split
    · exact ih hr
    · rename_i pet hpet
      have hp := hb.1 id pet (pet?_of_reached? hpet)
      refine Couples.bind (keeps_notify h ht hall hc ha he line id hp) fun _ => ih ?_
      exact List.forall_mem_cons.2 ⟨hb.2 id pet hpet, hr⟩

theorem keeps_walk (h : Elementary S rules.catalog V R)
    (ht : Telling S rules rules' raise raise' V R) (hall : rules.catalog.Every p)
    (hc : rules'.catalog = rules.catalog) (ha : Acts { S with effects := p } V R act act')
    (he : S.events event)
    (line reached ids : List PetId) :
    Keeps V R (walk rules raise act event line reached ids)
      (walk rules' raise' act' event line reached ids) :=
  (yields_walk (G := fun _ => True) h ht hall hc ha he (fun _ _ _ _ _ _ => trivial) line ids
    fun _ _ => trivial).weaken (fun _ _ hst => hst) fun _ _ _ h => h.2

/-! ## Every step on the board -/

/-- The events that effects tell in answer to events of the scope lie in `T`. -/
structure Leads (S : Scope) (T : Event → Prop) : Prop where
  levelUp : ∀ event side id, S.events event → T (event.followUp .levelUp side id)
  summoned : ∀ event side id, S.events event → T (event.followUp .summoned side id)
  attack : ∀ event, S.events event → event.isBattle = true →
    event.trigger = .beforeAttack ∨ event.trigger = .startOfBattle → ∀ told, AttackEvent told → T told

theorem Leads.and {T T' : Event → Prop} (h : Leads S T) (h' : Leads Scope.all T') :
    Leads S fun event => T event ∧ T' event where
  levelUp event side id he := ⟨h.levelUp event side id he, h'.levelUp event side id trivial⟩
  summoned event side id he := ⟨h.summoned event side id he, h'.summoned event side id trivial⟩
  attack event he hb hloud told ht :=
    ⟨h.attack event he hb hloud told ht, h'.attack event trivial hb hloud told ht⟩

/-- The scope holds the events that follow from its own. -/
structure Closed (S : Scope) : Prop where
  levelUp : ∀ event side id, S.events event → S.events (event.followUp .levelUp side id)
  summoned : ∀ event side id, S.events event → S.events (event.followUp .summoned side id)
  attack : ∀ event, S.events event → event.isBattle = true →
    ∀ told, AttackEvent told → S.events told
  cast : ∀ event caster side, S.events event → event.isBattle = true → event.repeated = false →
    event.trigger ≠ .castsAbility → S.events (castEvent caster side event)

theorem Closed.of_all (h : ∀ event, S.events event) : Closed S :=
  ⟨fun _ _ _ _ => h _, fun _ _ _ _ => h _, fun _ _ _ told _ => h told, fun _ _ _ _ _ _ _ => h _⟩

section

variable {E : EngineError → Arena → Prop} {I : Arena → Prop} {pet : Pet} {id : PetId}

theorem triple_spawn {side : Side} (h : ∀ s, I s → ∀ id b, s.board.Arrives side pet id b →
    I { s with board := b }) (placement : Placement) :
    Triple E I (spawn side pet placement) fun _ => I := by
  apply Triple.intro
  intro s hs
  unfold Resolve.spawn
  cases hb : s.board.spawn? side pet placement with
  | none => exact hs
  | some r => exact h s hs r.1 r.2 (Board.arrives_of_spawn? hb)

theorem triple_replace (h : ∀ s, I s → ∀ side new b, s.board.Exchanges id side pet new b →
    I { s with board := b }) : Triple E I (replace id pet) fun _ => I := by
  apply Triple.intro
  intro s hs
  unfold Resolve.replace
  cases hb : s.board.replace? id pet with
  | none => exact hs
  | some r =>
    obtain ⟨side, he⟩ := Board.exchanges_of_replace? hb
    exact h s hs side r.1 r.2 he

theorem triple_remove (h : ∀ s, I s → ∀ side b, s.board.Leaves id side b →
    I { s with board := b }) : Triple E I (remove id) fun _ => I := by
  apply Triple.intro
  intro s hs
  unfold Resolve.remove
  cases hb : s.board.remove? id with
  | none => exact hs
  | some b =>
    obtain ⟨side, hl⟩ := Board.leaves_of_remove? hb
    exact h s hs side b hl

end

/-- The steps on the board that come with an event or lead to one. -/
structure BoardSteps (S : Scope) (c : Catalog) (V : Verdict) (R : Arena → Arena → Prop) :
    Prop where
  gainPoint : ∀ amount target, S.effects (.gainExperience amount target) → 0 < amount →
    ∀ id, Keeps V R (modifyPet id Pet.gainPoint) (modifyPet id Pet.gainPoint)
  promote : ∀ id level, Keeps V R (modifyPet id (Pet.promote level)) (modifyPet id (Pet.promote level))
  damage : ∀ amount id, Keeps V R (modifyPet id (Pet.takeDamage amount))
    (modifyPet id (Pet.takeDamage amount))
  spawn : ∀ pet, Newcomer c S pet → ∀ side placement,
    Keeps V R (spawn side pet placement) (spawn side pet placement)
  replace : ∀ into kind, S.effects (.evolve into) → c.petKind into = .ok kind →
    ∀ id, Keeps V R (replace id (.ofKind kind)) (replace id (.ofKind kind))
  remove : ∀ id, Keeps V R (remove id) (remove id)

/-- A property of all but the board is kept by the steps on the board. -/
theorem boardSteps_of_unseen {c : Catalog} {E : EngineError → Arena → Prop} {I : Arena → Prop}
    (h : ∀ s b, I s → I { s with board := b }) : BoardSteps S c (.same E) (Same I) where
  gainPoint _ _ _ _ _ := Triple.intro fun s hs => h s _ hs
  promote _ _ := Triple.intro fun s hs => h s _ hs
  damage _ _ := Triple.intro fun s hs => h s _ hs
  spawn _ _ _ placement := triple_spawn (fun s hs _ b _ => h s b hs) placement
  replace _ _ _ _ _ := triple_replace fun s hs _ _ b _ => h s b hs
  remove _ := triple_remove fun s hs _ b _ => h s b hs

theorem keeps_grantExperience (h : ElementaryIf counted S rules.catalog V R) {side : Side} {id : PetId}
    (hg : Keeps V R (modifyPet id Pet.gainPoint) (modifyPet id Pet.gainPoint))
    (hp : ∀ level, Keeps V R (modifyPet id (Pet.promote level)) (modifyPet id (Pet.promote level)))
    (hr : Keeps V R (raise (event.followUp .levelUp side id))
      (raise' (event.followUp .levelUp side id))) (amount : Nat) :
    Keeps V R (grantExperience raise event side id amount)
      (grantExperience raise' event side id amount) := by
  induction amount with
  | zero => exact keeps_pure _
  | succ amount ih =>
    unfold grantExperience
    refine Yields.bind (h.yields_pet? id) fun pet _ => ?_
    split
    · exact keeps_pure _
    · split
      · exact keeps_pure _
      · refine Couples.bind hg fun _ => ?_
        split
        · exact ih
        · refine Couples.bind hr fun _ => Couples.bind (hp _) fun _ => ?_
          split
          · exact keeps_pure _
          · exact ih

theorem keeps_teach (h : ElementaryIf counted S rules.catalog V R) {amount : Nat} {id : PetId}
    (hg : 0 < amount → Keeps V R (modifyPet id Pet.gainPoint) (modifyPet id Pet.gainPoint))
    (hp : ∀ level, Keeps V R (modifyPet id (Pet.promote level)) (modifyPet id (Pet.promote level)))
    (hr : ∀ side, Keeps V R (raise (event.followUp .levelUp side id))
      (raise' (event.followUp .levelUp side id))) :
    Keeps V R (teach raise event amount id) (teach raise' event amount id) := by
  refine Yields.bind h.yields_board fun b _ => ?_
  split
  · exact keeps_pure _
  · rename_i side _
    cases amount with
    | zero => exact keeps_pure _
    | succ amount => exact keeps_grantExperience h (hg amount.succ_pos) hp (hr side) _

theorem keeps_spawnCopies {pet : Pet} {side : Side} {placement : Placement}
    (hs : Keeps V R (spawn side pet placement) (spawn side pet placement)) (copies : Nat) :
    Keeps V R (spawnCopies side pet placement copies) (spawnCopies side pet placement copies) := by
  induction copies with
  | zero => exact keeps_pure _
  | succ copies ih =>
    unfold spawnCopies
    exact Couples.bind hs fun _ => Couples.bind ih fun _ => keeps_pure _

theorem keeps_bringIn {pet : Pet} {side : Side} {placement : Placement}
    (hs : Keeps V R (spawn side pet placement) (spawn side pet placement))
    (hr : ∀ id, Keeps V R (raise (event.followUp .summoned side id))
      (raise' (event.followUp .summoned side id))) (copies : Nat) :
    Keeps V R (bringIn raise event side pet placement copies)
      (bringIn raise' event side pet placement copies) := by
  refine Couples.bind (keeps_spawnCopies hs copies) fun ids => ?_
  exact Couples.bind (keeps_forEach _ fun id _ => hr id) fun _ => keeps_pure _

theorem BoardSteps.acting {T : Event → Prop} (hb : BoardSteps S rules.catalog V R)
    (h : ElementaryIf counted S rules.catalog V R) (hc : rules'.catalog = rules.catalog) (hS : Leads S T)
    (hr : ∀ event, T event → Keeps V R (raise event) (raise' event)) :
    Acting S rules rules' raise raise' V R where
  play event he hbattle hloud _ _ _ _ :=
    keeps_playAttacks h hc hb.damage hb.remove
      (fun told ht => hr told (hS.attack event he hbattle hloud told ht)) _
  teach event he amount target hs id :=
    keeps_teach h (fun hpos => hb.gainPoint amount target hs hpos id) (hb.promote id)
      fun side => hr _ (hS.levelUp event side id he)
  bringIn event he pet hp side _ placement copies :=
    keeps_bringIn (hb.spawn pet hp side placement) (fun id => hr _ (hS.summoned event side id he))
      copies
  evolve into kind hs hk id := hb.replace into kind hs hk id

theorem BoardSteps.telling (hb : BoardSteps S rules.catalog V R)
    (h : ElementaryIf counted S rules.catalog V R) (hc : rules'.catalog = rules.catalog) (hS : Closed S)
    (hr : ∀ event, S.events event → Keeps V R (raise event) (raise' event)) :
    Telling S rules rules' raise raise' V R where
  toActing := hb.acting h hc ⟨hS.levelUp, hS.summoned, fun event he hb _ => hS.attack event he hb⟩ hr
  cast event he hbattle hrepeated htrigger caster side :=
    hr _ (hS.cast event caster side he hbattle hrepeated htrigger)

/-! ## Dispatch -/

/-- Enters a record, and once the step is done the pets that it reached. -/
def logged (record : EventRecord) (m : Resolve (List PetId)) : Resolve Unit := do
  let slot ← openRecord record
  let notified ← m
  setNotified slot notified

/-- Enters an event and lets the line that it is told to be walked. -/
def tellLine (event : Event) (walked : List PetId → Resolve (List PetId)) : Resolve Unit := do
  let line ← look fun s => event.snapshot.getD (s.board.roster event.side)
  let depth ← look (·.nesting)
  logged ⟨event.trigger, event.side, event.source, [], depth⟩ (walked line)

theorem notifyAll_eq (rules : Rules) (raise : Raise) (act : Act) (event : Event) :
    notifyAll rules raise act event =
      tellLine event fun line => walk rules raise act event line [] line := rfl

/-- The record is of the event, on the level on which it is told, and the line that is walked is its
snapshot or the roster. -/
theorem couples_tellLine_of {P : Arena → Arena → Prop} {Q : Unit → Arena → Arena → Prop}
    {G : List PetId → Prop} {walked walked' : List PetId → Resolve (List PetId)}
    (hb : ∀ s t, P s t → s.board = t.board) (hd : ∀ s t, P s t → s.nesting = t.nesting)
    (hl : ∀ s t, P s t → G (event.snapshot.getD (s.board.roster event.side)))
    (hw : ∀ depth line, G line → Couples V (fun s t => P s t ∧ s.nesting = depth)
      (logged ⟨event.trigger, event.side, event.source, [], depth⟩ (walked line))
      (logged ⟨event.trigger, event.side, event.source, [], depth⟩ (walked' line)) Q) :
    Couples V P (tellLine event walked) (tellLine event walked') Q := by
  have lined : Yields V P G (look fun s => event.snapshot.getD (s.board.roster event.side))
      (look fun s => event.snapshot.getD (s.board.roster event.side)) :=
    couples_look fun s t hst => ⟨by rw [hb s t hst], hl s t hst, hst⟩
  refine Yields.bind lined fun line hline => ?_
  refine Couples.bind (Q := fun depth s t => P s t ∧ s.nesting = depth)
    (couples_look fun s t hst => ⟨hd s t hst, hst, rfl⟩) fun depth => ?_
  exact hw depth line hline

theorem couples_tellLine {P : Arena → Arena → Prop} {Q : Unit → Arena → Arena → Prop}
    {walked walked' : List PetId → Resolve (List PetId)} (hb : ∀ s t, P s t → s.board = t.board)
    (hd : ∀ s t, P s t → s.nesting = t.nesting)
    (hw : ∀ depth line, Couples V (fun s t => P s t ∧ s.nesting = depth)
      (logged ⟨event.trigger, event.side, event.source, [], depth⟩ (walked line))
      (logged ⟨event.trigger, event.side, event.source, [], depth⟩ (walked' line)) Q) :
    Couples V P (tellLine event walked) (tellLine event walked') Q :=
  couples_tellLine_of (G := fun _ => True) hb hd (fun _ _ _ => trivial) fun depth line _ => hw depth line

theorem keeps_tellLine (hb : ∀ s t, R s t → s.board = t.board)
    (hd : ∀ s t, R s t → s.nesting = t.nesting) {walked walked' : List PetId → Resolve (List PetId)}
    (hw : ∀ depth line, Keeps V R
      (logged ⟨event.trigger, event.side, event.source, [], depth⟩ (walked line))
      (logged ⟨event.trigger, event.side, event.source, [], depth⟩ (walked' line))) :
    Keeps V R (tellLine event walked) (tellLine event walked') :=
  couples_tellLine hb hd fun depth line =>
    (hw depth line).weaken (fun _ _ hst => hst.1) fun _ _ _ hst => hst

/-- The steps that record the walk of an event. -/
structure Recording (V : Verdict) (R : Arena → Arena → Prop) : Prop where
  depth : ∀ s t, R s t → s.nesting = t.nesting
  record : ∀ record, Keeps V R (openRecord record) (openRecord record)
  notified : ∀ slot ids, Keeps V R (setNotified slot ids) (setNotified slot ids)

/-- The steps of dispatch outside of performing. -/
structure Guarding (rules rules' : Rules) (V : Verdict) (R : Arena → Arena → Prop) : Prop
    extends Recording V R where
  refuse : ∀ trigger s t, R s t → Agree V (fun _ : Unit => R)
    (fail (.dispatchDepthExceeded trigger rules.config.maxDispatchDepth) s)
    (fail (.dispatchDepthExceeded trigger rules'.config.maxDispatchDepth) t)
  count : Keeps V R (countEvent rules.config.maxEvents) (countEvent rules'.config.maxEvents)
  nested : ∀ m n : Resolve Unit, Keeps V R m n → Keeps V R (nested m) (nested n)

/-- What depends on the board, the queues and the shop alone is kept, also by what fails. -/
theorem guarding_of_congr {I : Arena → Prop} (rules : Rules) (h : ∀ s t, t.board = s.board →
    t.queues = s.queues → t.shop = s.shop → I s → I t) :
    Guarding rules rules (.same fun _ => I) (Same I) where
  depth := by
    rintro s t ⟨rfl, _⟩
    rfl
  record _ := Triple.intro fun s hs => h s _ rfl rfl rfl hs
  notified slot _ := by
    cases slot with
    | none => exact keeps_pure ()
    | some slot => exact Triple.intro fun s hs => h s _ rfl rfl rfl hs
  refuse := by
    rintro trigger s t ⟨rfl, hs⟩
    exact .error ⟨rfl, hs⟩
  count := by
    apply Triple.intro
    intro s hs
    unfold countEvent
    split <;> exact h s _ rfl rfl rfl hs
  nested m n hm := couples_nested hm (fun s hs => h s _ rfl rfl rfl hs)
    (fun _ s hs => h s _ rfl rfl rfl hs) fun _ s hs => h s _ rfl rfl rfl hs

theorem keeps_notifyAll (h : Elementary S rules.catalog V R)
    (ht : Telling S rules rules' raise raise' V R) (hS : S.Covers rules.catalog)
    (hc : rules'.catalog = rules.catalog) (ha : Acts S V R act act')
    (hg : Recording V R) (he : S.events event) :
    Keeps V R (notifyAll rules raise act event) (notifyAll rules' raise' act' event) := by
  rw [notifyAll_eq, notifyAll_eq]
  refine keeps_tellLine h.boards hg.depth fun _ ids => ?_
  refine Couples.bind (hg.record _) fun slot => ?_
  refine Couples.bind (keeps_walk h ht hS.effects hc ha he ids [] ids) fun notified => ?_
  exact hg.notified slot notified

/-- By induction on the room for nesting, from what telling events one level further in lets
effects do. -/
theorem keeps_dispatchIn_of_telling (h : Elementary S rules.catalog V R)
    (hg : Guarding rules rules' V R) (hS : S.Covers rules.catalog)
    (hc : rules'.catalog = rules.catalog)
    (ht : ∀ raise raise', (∀ event, S.events event → Keeps V R (raise event) (raise' event)) →
      Telling S rules rules' raise raise' V R)
    (room : Nat) (he : S.events event) :
    Keeps V R (dispatchIn rules room event) (dispatchIn rules' room event) := by
  induction room generalizing event with
  | zero => exact ⟨hg.refuse event.trigger⟩
  | succ room ih =>
    have told := ht _ _ fun event he => ih he
    refine Couples.bind hg.count fun _ => hg.nested _ _ ?_
    exact keeps_notifyAll h told hS hc (acts_perform h told hS hc) hg.toRecording he

theorem keeps_dispatchIn (h : Elementary S rules.catalog V R)
    (hb : BoardSteps S rules.catalog V R) (hg : Guarding rules rules' V R)
    (hS : S.Covers rules.catalog) (hC : Closed S) (hc : rules'.catalog = rules.catalog)
    (room : Nat) (he : S.events event) :
    Keeps V R (dispatchIn rules room event) (dispatchIn rules' room event) :=
  keeps_dispatchIn_of_telling h hg hS hc (fun _ _ hr => hb.telling h hc hC hr) room he

end Resolve

end AutoBattler
