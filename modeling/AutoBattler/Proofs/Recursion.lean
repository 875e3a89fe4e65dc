import AutoBattler.Proofs.Walking
import AutoBattler.Resolution.Cycle

/-!
# The depth of the recursion

Telling an event lets pets perform effects, effects perform their parts, repeat abilities and tell
events of their own. `Procedures.unfold` is that recursion with one call after the other left open.
So many unfoldings as a bound says do what `dispatchIn` and `perform` do, whatever stands in the
calls that are left: the bound is linear in the levels of nesting that are allowed.
-/
namespace AutoBattler

/-! ## Measures -/

/-- The number of events behind this one. -/
def Event.causes : Event → Nat
  | ⟨_, _, _, _, _, _, none⟩ => 0
  | ⟨_, _, _, _, _, _, some cause⟩ => cause.causes + 1

theorem Event.causes_of_cause {event cause : Event} (h : event.cause = some cause) :
    event.causes = cause.causes + 1 := by
  obtain ⟨_, _, _, _, _, _, _⟩ := event
  cases h
  rfl

namespace Effect

mutual

/-- How deep effects are nested in it. -/
def depth : Effect → Nat
  | oneOf effects => depthOf effects + 1
  | allOf effects => depthOf effects + 1
  | _ => 0

def depthOf : List Effect → Nat
  | [] => 0
  | e :: rest => max e.depth (depthOf rest)

end

mutual

theorem every_depth_le {n : Nat} : (e : Effect) → e.depth ≤ n → e.Every fun e => e.depth ≤ n
  | .oneOf effects, h => ⟨h, everyOf_depth_le effects (Nat.le_of_succ_le h)⟩
  | .allOf effects, h => ⟨h, everyOf_depth_le effects (Nat.le_of_succ_le h)⟩
  | .modifyStats .., h | .gainExperience .., h | .applyStatus .., h | .dealDamage .., h
  | .splashDamage .., h | .reduceHealth .., h | .summonPet .., h | .summonRandomPet .., h
  | .respawnPet .., h | .transferStats .., h | .transferAbility .., h | .gainGold .., h
  | .evolve .., h | .repeatAbility .., h | .modifyDamage .., h => ⟨h, trivial⟩

theorem everyOf_depth_le {n : Nat} :
    (effects : List Effect) → depthOf effects ≤ n → EveryOf (fun e => e.depth ≤ n) effects
  | [], _ => trivial
  | e :: rest, h =>
    ⟨every_depth_le e (Nat.le_trans (Nat.le_max_left ..) h),
      everyOf_depth_le rest (Nat.le_trans (Nat.le_max_right ..) h)⟩

end

end Effect

theorem Effect.depth_le_depthOf {e : Effect} {effects : List Effect} (h : e ∈ effects) :
    e.depth ≤ depthOf effects := by
  induction h with
  | head rest => exact Nat.le_max_left ..
  | tail first _ ih => exact Nat.le_trans ih (Nat.le_max_right ..)

/-- The abilities of a catalog, of kinds at all levels, statuses and foods. -/
def Catalog.abilities (c : Catalog) : List Ability :=
  (c.pets.toList.flatMap fun entry =>
      [entry.2.level1, entry.2.level2, entry.2.level3].filterMap id) ++
    c.statuses.toList.map (·.2.ability) ++ c.foods.toList.map (·.2.ability)

theorem Catalog.mem_abilities {c : Catalog} {ability : Ability} (h : c.Offers ability) :
    ability ∈ c.abilities := by
  unfold abilities
  rw [List.mem_append, List.mem_append]
  cases h with
  | level hk ha =>
    have entry := Std.ExtTreeMap.mem_toList_iff_getElem?_eq_some.2 hk
    have level := PetKind.mem_levels ha
    exact .inl (.inl (List.mem_flatMap.2 ⟨_, entry, List.mem_filterMap.2 ⟨_, level, rfl⟩⟩))
  | status hs =>
    have entry := Std.ExtTreeMap.mem_toList_iff_getElem?_eq_some.2 hs
    exact .inl (.inr (List.mem_map.2 ⟨_, entry, rfl⟩))
  | food hf =>
    have entry := Std.ExtTreeMap.mem_toList_iff_getElem?_eq_some.2 hf
    exact .inr (List.mem_map.2 ⟨_, entry, rfl⟩)

/-- How deep effects are nested in the abilities of a catalog. -/
def Catalog.depth (c : Catalog) : Nat := Effect.depthOf (c.abilities.map (·.effect))

theorem Catalog.every_depth_le (c : Catalog) : c.Every fun e => e.depth ≤ c.depth := by
  intro ability h
  apply Effect.every_depth_le
  exact Effect.depth_le_depthOf (List.mem_map.2 ⟨ability, mem_abilities h, rfl⟩)

namespace Resolve

/-! ## One call after the other -/

/-- Lets a call perform effects in their order. -/
def performEach (act : Effect → Resolve (List PetId)) (touched : List PetId) :
    List Effect → Resolve (List PetId)
  | [] => pure touched
  | e :: rest => do
    let ids ← act e
    performEach act (touched ++ ids) rest

/-- The bodies of the procedures, in which each call of a procedure goes to `p`. -/
def Procedures.unfold (rules : Rules) (p : Procedures) : Procedures where
  tell event := do
    let nesting ← look (·.nesting)
    if rules.config.maxDispatchDepth ≤ nesting then
      fail (.dispatchDepthExceeded event.trigger rules.config.maxDispatchDepth)
    else do
      countEvent rules.config.maxEvents
      nested (notifyAll rules p.tell p.act event)
  act event actor effect :=
    match effect with
    | .oneOf effects => do
      match (← draw fun g => g.index? effects.length).bind (effects[·]?) with
      | none => pure []
      | some effect => p.act event actor effect
    | .allOf effects => performEach (p.act event actor) [] effects
    | effect =>
      let again := event.cause.map fun cause id effect => do
        let _ ← p.act cause (some id) effect
        pure ()
      performWith rules p.tell again event actor effect
  drain := do
    if (← look fun s => waiting s.queues) = 0 then pure ()
    else do
      playForemost rules p.tell
      p.drain

/-- So many levels of the recursion. -/
def Procedures.unfolded (rules : Rules) (levels : Nat) (beyond : Procedures) : Procedures :=
  match levels with
  | 0 => beyond
  | levels + 1 => (unfolded rules levels beyond).unfold rules

/-! ## What steps leave alone -/

/-- The property speaks of nothing but the nesting, the number of events and the queues. -/
def Blind (I : Arena → Prop) : Prop :=
  ∀ s t, s.nesting = t.nesting → s.dispatched = t.dispatched → s.queues = t.queues → I s → I t

section

variable {S : Scope} {c : Catalog} {E : EngineError → Arena → Prop} {I : Arena → Prop}

theorem Blind.elementary (h : Blind I) (hp : ∀ p, S.pets p)
    (hq : ∀ event, S.events event → ∀ attack, Triple E I (enqueue attack) fun _ => I)
    (hE : ∀ e s, I s → E e s) : Elementary S c (.same E) (Same I) where
  boards := by
    rintro s t ⟨rfl, _⟩
    rfl
  known _ _ _ _ pet _ := hp pet
  selects _ _ _ _ _ _ _ := Triple.intro fun s hs => h s _ rfl rfl rfl hs
  choose _ _ _ _ := Triple.intro fun s hs => h s _ rfl rfl rfl hs
  edit _ _ _ _ := Triple.intro fun s hs => h s _ rfl rfl rfl hs
  shop _ _ := Triple.intro fun s hs => h s _ rfl rfl rfl hs
  queue event he _ attack := hq event he attack
  missing := by
    rintro e _ s t ⟨rfl, hs⟩
    exact ⟨rfl, hE e s hs⟩

theorem Blind.boardSteps (h : Blind I) : BoardSteps S c (.same E) (Same I) :=
  boardSteps_of_unseen fun s _ hs => h s _ rfl rfl rfl hs

theorem Blind.recording (h : Blind I) : Recording (.same E) (Same I) where
  depth := by
    rintro s t ⟨rfl, _⟩
    rfl
  record _ := Triple.intro fun s hs => h s _ rfl rfl rfl hs
  notified slot _ := by
    cases slot with
    | none => exact keeps_pure ()
    | some slot => exact Triple.intro fun s hs => h s _ rfl rfl rfl hs

end

/-! ## Enough levels -/

variable {rules : Rules} {k causes floor m : Nat} {raise : Raise} {event : Event}

/-- While so many events are being told, one within the other. -/
def At (k : Nat) (s : Arena) : Prop := s.nesting = k

theorem blind_at (k : Nat) : Blind (At k) := fun _ _ hn _ _ hs => hn.symm.trans hs

/-- Both steps give the same at this nesting, and neither leaves it. -/
abbrev SameAt {α : Type} (k : Nat) (m n : Resolve α) : Prop :=
  Keeps (.same fun _ => At k) (Same (At k)) m n

theorem countEvent_at (k budget : Nat) : SameAt k (countEvent budget) (countEvent budget) := by
  apply Triple.intro
  intro s hs
  unfold countEvent
  split <;> exact hs

theorem nested_at {m n : Resolve Unit} (h : SameAt (k + 1) m n) :
    SameAt k (nested m) (nested n) :=
  couples_nested h (fun _ hs => congrArg (· + 1) hs) (fun _ _ hs => congrArg (· - 1) hs)
    fun _ _ hs => congrArg (· - 1) hs

/-- Events with a bounded number of causes, and effects with a bounded depth. -/
def shallow (causes depth : Nat) : Scope :=
  ⟨fun event => event.causes ≤ causes, fun e => e.depth ≤ depth, fun _ => True⟩

theorem covers_shallow (c : Catalog) (causes : Nat) : (shallow causes c.depth).Covers c where
  effects := c.every_depth_le
  cause event cause he hc := by
    have hle : event.causes ≤ causes := he
    rw [Event.causes_of_cause hc] at hle
    exact Nat.le_of_succ_le hle

theorem closed_shallow (causes depth : Nat) : Closed (shallow (causes + 1) depth) where
  levelUp _ _ _ _ := Nat.zero_le _
  summoned _ _ _ _ := Nat.zero_le _
  attack _ _ _ told ht := by
    have none : told.causes = 0 := by cases ht <;> rfl
    show told.causes ≤ causes + 1
    omega
  cast event _ _ _ _ _ _ := Nat.succ_le_succ (Nat.zero_le _)

theorem elementary_at (k causes depth : Nat) (c : Catalog) :
    Elementary (shallow causes depth) c (.same fun _ => At k) (Same (At k)) :=
  (blind_at k).elementary (fun _ => trivial) (fun _ _ _ => Triple.intro fun _ hs => hs)
    fun _ _ hs => hs

/-- From so many levels on the events of the scope are told as by `raise`. -/
def TellsAs (rules : Rules) (k causes floor : Nat) (raise : Raise) : Prop :=
  ∀ m, floor ≤ m → ∀ beyond event, event.causes ≤ causes →
    SameAt k ((Procedures.unfolded rules m beyond).tell event) (raise event)

theorem TellsAs.telling (h : TellsAs rules k (causes + 1) floor raise) (hm : floor ≤ m)
    (beyond : Procedures) :
    Telling (shallow (causes + 1) rules.catalog.depth) rules rules
      (Procedures.unfolded rules m beyond).tell raise (.same fun _ => At k) (Same (At k)) :=
  (blind_at k).boardSteps.telling (elementary_at ..) rfl (closed_shallow ..)
    fun event he => h m hm beyond event he

/-- An event whose effects can be performed by unfolding: what is performed again for its cause
agrees with `again` from so many levels on. -/
structure ActsAs (rules : Rules) (k causes floor : Nat) (raise : Raise) (event : Event)
    (again : Option Again) : Prop where
  tells : TellsAs rules k (causes + 1) floor raise
  few : event.causes ≤ causes + 1
  repeats : ∀ m, floor ≤ m → ∀ beyond,
    Repeats (shallow (causes + 1) rules.catalog.depth).effects (.same fun _ => At k) (Same (At k))
      (event.cause.map fun cause id effect => do
        let _ ← (Procedures.unfolded rules m beyond).act cause (some id) effect
        pure ()) again

variable {again : Option Again}

theorem ActsAs.single (h : ActsAs rules k causes floor raise event again) (hm : floor + 1 ≤ m)
    (beyond : Procedures) (actor : Option PetId) {effect : Effect}
    (hs : effect.Every fun e => e.depth ≤ rules.catalog.depth)
    (hparts : ∀ p : Procedures, (p.unfold rules).act event actor effect =
      performWith rules p.tell
        (event.cause.map fun cause id effect => do
          let _ ← p.act cause (some id) effect
          pure ()) event actor effect) :
    SameAt k ((Procedures.unfolded rules m beyond).act event actor effect)
      (performWith rules raise again event actor effect) := by
  obtain ⟨m, rfl⟩ : ∃ n, m = n + 1 := ⟨m - 1, by omega⟩
  have hfloor : floor ≤ m := Nat.le_of_succ_le_succ hm
  rw [Procedures.unfolded, hparts]
  exact keeps_performWith (elementary_at ..) (h.tells.telling hfloor beyond).toActing (covers_shallow ..) rfl
    h.few (h.repeats _ hfloor beyond) actor effect hs

mutual

/-- By recursion on the effect: each part takes one level more than its own depth. -/
theorem ActsAs.effect (h : ActsAs rules k causes floor raise event again) (beyond : Procedures)
    (actor : Option PetId) : (effect : Effect) → (m : Nat) → floor + effect.depth + 1 ≤ m →
      SameAt k ((Procedures.unfolded rules m beyond).act event actor effect)
        (performWith rules raise again event actor effect)
  | .oneOf effects, m, hm => by
    obtain ⟨m, rfl⟩ : ∃ n, m = n + 1 := ⟨m - 1, by omega⟩
    refine Couples.bind (Q := fun _ => Same (At k)) (Triple.intro fun _ hs => hs) fun drawn => ?_
    cases drawn with
    | none => exact keeps_pure _
    | some i => exact h.nth beyond actor effects i m (Nat.le_of_succ_le_succ hm)
  | .allOf effects, m, hm => by
    obtain ⟨m, rfl⟩ : ∃ n, m = n + 1 := ⟨m - 1, by omega⟩
    rw [performWith]
    exact h.all beyond actor effects [] [] rfl m (Nat.le_of_succ_le_succ hm)
  | .modifyStats .., _, hm | .gainExperience .., _, hm | .applyStatus .., _, hm
  | .dealDamage .., _, hm | .splashDamage .., _, hm | .reduceHealth .., _, hm
  | .summonPet .., _, hm | .summonRandomPet .., _, hm | .respawnPet .., _, hm
  | .transferStats .., _, hm | .transferAbility .., _, hm | .gainGold .., _, hm
  | .evolve .., _, hm | .repeatAbility .., _, hm | .modifyDamage .., _, hm =>
    h.single hm beyond actor ⟨Nat.zero_le _, trivial⟩ fun _ => rfl

theorem ActsAs.nth (h : ActsAs rules k causes floor raise event again) (beyond : Procedures)
    (actor : Option PetId) : (effects : List Effect) → (i m : Nat) →
      floor + Effect.depthOf effects + 1 ≤ m →
      SameAt k
        (match effects[i]? with
          | none => pure []
          | some effect => (Procedures.unfolded rules m beyond).act event actor effect)
        (performNth rules raise again event actor effects i)
  | [], _, _, _ => keeps_pure _
  | e :: rest, 0, m, hm => by
    have hle := Nat.le_max_left e.depth (Effect.depthOf rest)
    rw [Effect.depthOf] at hm
    exact h.effect beyond actor e m (by omega)
  | e :: rest, i + 1, m, hm => by
    have hle := Nat.le_max_right e.depth (Effect.depthOf rest)
    rw [Effect.depthOf] at hm
    exact h.nth beyond actor rest i m (by omega)

theorem ActsAs.all (h : ActsAs rules k causes floor raise event again) (beyond : Procedures)
    (actor : Option PetId) : (effects : List Effect) → (ids : List PetId) →
      (touched : List (List PetId)) → ids = touched.reverse.flatten → (m : Nat) →
      floor + Effect.depthOf effects + 1 ≤ m →
      SameAt k (performEach ((Procedures.unfolded rules m beyond).act event actor) ids effects)
        (performAll rules raise again event actor touched effects)
  | [], _, _, rfl, _, _ => keeps_pure _
  | e :: rest, _, touched, rfl, m, hm => by
    have first := Nat.le_max_left e.depth (Effect.depthOf rest)
    have others := Nat.le_max_right e.depth (Effect.depthOf rest)
    rw [Effect.depthOf] at hm
    refine Couples.bind (h.effect beyond actor e m (by omega)) fun ids => ?_
    exact h.all beyond actor rest _ (ids :: touched) (by simp) m (by omega)

end

/-- By recursion on the causes of the event. Each takes the levels that an effect of the catalog
takes. -/
theorem TellsAs.acts (h : TellsAs rules k (causes + 1) floor raise) (beyond : Procedures) :
    (event : Event) → event.causes ≤ causes + 1 → ∀ actor effect m,
      floor + event.causes * (rules.catalog.depth + 1) + effect.depth + 1 ≤ m →
      SameAt k ((Procedures.unfolded rules m beyond).act event actor effect)
        (perform rules raise event actor effect)
  | ⟨_, _, _, _, _, _, none⟩, he, actor, effect, m, hm => by
    have acts : ActsAs rules k causes floor raise ⟨_, _, _, _, _, _, none⟩ none :=
      ⟨h, he, fun _ _ _ => .inl ⟨rfl, rfl⟩⟩
    rw [perform]
    exact acts.effect beyond actor effect m (by omega)
  | ⟨_, _, _, _, _, _, some cause⟩, he, actor, effect, m, hm => by
    rw [Event.causes, Nat.succ_mul] at hm
    have acts : ActsAs rules k causes
        (floor + (cause.causes * (rules.catalog.depth + 1) + (rules.catalog.depth + 1))) raise
        ⟨_, _, _, _, _, _, some cause⟩ (some fun id effect => do
          let _ ← perform rules raise cause (some id) effect
          pure ()) := {
      tells := fun m hm => h m (Nat.le_trans (Nat.le_add_right ..) hm)
      few := he
      repeats := fun m hm beyond => .inr ⟨_, _, rfl, rfl, fun id e hs => by
        have hdepth : e.depth ≤ rules.catalog.depth := hs.self
        have repeated := h.acts beyond cause (Nat.le_of_succ_le he) (some id) e m (by omega)
        exact Couples.bind repeated fun _ => keeps_pure _⟩ }
    rw [perform]
    exact acts.effect beyond actor effect m hm

/-- How many levels it takes to tell an event of so many causes with this room for nesting. -/
def levels (causes depth room : Nat) : Nat := 1 + room * ((causes + 2) * (depth + 1) + 1)

/-- By induction on the room. What a told event lets pets do takes the levels of an effect of the
catalog for each cause, and then those of an event one nesting further in. -/
theorem tellsAs_dispatchIn (rules : Rules) (causes : Nat) {room k : Nat}
    (hk : room = rules.config.maxDispatchDepth - k) :
    TellsAs rules k (causes + 1) (levels causes rules.catalog.depth room)
      (dispatchIn rules room) := by
  induction room generalizing k with
  | zero =>
    intro m hm beyond event _
    unfold levels at hm
    obtain ⟨m, rfl⟩ : ∃ n, m = n + 1 := ⟨m - 1, by omega⟩
    constructor
    rintro s t ⟨rfl, hs⟩
    have deep : rules.config.maxDispatchDepth ≤ s.nesting := by
      rw [hs]
      omega
    have told : (Procedures.unfolded rules (m + 1) beyond).tell event s =
        fail (.dispatchDepthExceeded event.trigger rules.config.maxDispatchDepth) s := by
      show (if _ then _ else _ : Resolve Unit) s = _
      rw [if_pos deep]
    rw [told]
    exact .error ⟨rfl, hs⟩
  | succ room ih =>
    intro m hm beyond event he
    unfold levels at hm
    rw [Nat.succ_mul] at hm
    obtain ⟨m, rfl⟩ : ∃ n, m = n + 1 := ⟨m - 1, by omega⟩
    have inner := ih (k := k + 1) (by omega)
    have telling := inner.telling (m := m) (by unfold levels; omega) beyond
    have acts : Acts (shallow (causes + 1) rules.catalog.depth) (.same fun _ => At (k + 1))
        (Same (At (k + 1))) (Procedures.unfolded rules m beyond).act
        (perform rules (dispatchIn rules room)) := by
      intro event he actor effect hs
      have hdepth : effect.depth ≤ rules.catalog.depth := hs.self
      have hcauses : event.causes * (rules.catalog.depth + 1) ≤
          (causes + 1) * (rules.catalog.depth + 1) := Nat.mul_le_mul_right _ he
      have hsplit : (causes + 2) * (rules.catalog.depth + 1) =
          (causes + 1) * (rules.catalog.depth + 1) + (rules.catalog.depth + 1) := Nat.succ_mul ..
      refine inner.acts beyond event he actor effect m ?_
      unfold levels
      omega
    have walked := keeps_notifyAll (elementary_at (k + 1) (causes + 1) _ rules.catalog) telling
      (covers_shallow ..) rfl acts (blind_at (k + 1)).recording he
    have below : Couples (.same fun _ => At k) (Same (At k))
        (countEvent rules.config.maxEvents >>= fun _ =>
          nested (notifyAll rules (Procedures.unfolded rules m beyond).tell
            (Procedures.unfolded rules m beyond).act event))
        (dispatchIn rules (room + 1) event) fun _ => Same (At k) :=
      Couples.bind (countEvent_at ..) fun _ => nested_at walked
    constructor
    rintro s t ⟨rfl, hs⟩
    have shallower : ¬ rules.config.maxDispatchDepth ≤ s.nesting := by
      rw [hs]
      omega
    have told : (Procedures.unfolded rules (m + 1) beyond).tell event s =
        (countEvent rules.config.maxEvents >>= fun _ =>
          nested (notifyAll rules (Procedures.unfolded rules m beyond).tell
            (Procedures.unfolded rules m beyond).act event)) s := by
      show (if _ then _ else _ : Resolve Unit) s = _
      rw [if_neg shallower]
    rw [told]
    exact below.agree s s ⟨rfl, hs⟩

end Resolve

end AutoBattler
