import AutoBattler.Proofs.Concurrence
import AutoBattler.Proofs.Rescue

/-!
# What a configuration decides

The limits decide only whether a resolution is aborted, not how it ends otherwise; recording decides
nothing but the events in the report; and the seed decides nothing where no effect draws.
-/
namespace AutoBattler

open AutoBattler.Random (Generator)
open Resolve

variable {catalog : Catalog} {config config' : EngineConfig}

/-! ## Starting alike -/

theorem Arena.Alike.opened {K : Likeness} {b : Board} (hb : K.board b)
    (hg : K.generators (.ofSeed config.seed) (.ofSeed config'.seed))
    (hl : K.logs (.start config.recordEvents) (.start config'.recordEvents)) (shop : Option Shop) :
    Arena.Alike K (.open config b shop) (.open config' b shop) where
  board := rfl
  random := hg
  queues := rfl
  shop := rfl
  log := hl
  nesting := rfl
  dispatched := rfl
  holds := hb

theorem BattleReport.Alike.eq {K : Likeness} (hK : K.logs = Eq) {r r' : BattleReport}
    (h : r.Alike K r') : r = r' := by
  obtain ⟨outcome, b, b', hb, rfl, rfl⟩ := h
  have log : b.arena.log = b'.arena.log := hK ▸ hb.arena.log
  unfold Battle.report
  rw [hb.rounds, hb.arena.board, log]

/-- What the reports of battles that are alike have in common is the same. -/
theorem Battle.fight_alike {p : Effect → Prop} {K : Likeness} {rules rules' : Rules}
    {teams : Sides Team} {β : Type} (h : Parallel p K rules rules') (hK : ∀ e, ¬ K.alone e)
    (hr : rules.config.maxRounds = rules'.config.maxRounds)
    (hb : (ofTeams rules.config teams).Alike K (ofTeams rules'.config teams))
    {f : BattleReport → β} (hf : ∀ r r', BattleReport.Alike K r r' → f r = f r') :
    (fight rules teams).map f = (fight rules' teams).map f := by
  have ends := concur_finishFrom h (Nat.le_of_eq hr) hb
  unfold fight run
  generalize finishFrom rules (ofTeams rules.config teams) = r at ends
  generalize finishFrom rules' (ofTeams rules'.config teams) = r' at ends
  rcases ends with ends | ⟨b, _, cut⟩
  · cases ends with
    | ok hv _ => exact congrArg Except.ok (hf _ _ hv)
    | error _ => rfl
    | alone he => exact absurd he (hK _)
  · exact absurd cut.earlier (Nat.not_lt.2 (Nat.le_of_eq hr.symm))

/-- Under configurations that start alike, battles and shop turns stay alike to the end. -/
theorem Parallel.decided_alike {p : Effect → Prop} {K : Likeness} {β : Type}
    (h : Parallel p K ⟨catalog, config⟩ ⟨catalog, config'⟩) (hK : ∀ e, ¬ K.alone e)
    (hr : config.maxRounds = config'.maxRounds)
    (opened : ∀ b shop, Arena.Alike K (.open config b shop) (.open config' b shop))
    {f : BattleReport → β} (hf : ∀ r r', BattleReport.Alike K r r' → f r = f r') :
    (∀ teams, (Battle.fight ⟨catalog, config⟩ teams).map f =
      (Battle.fight ⟨catalog, config'⟩ teams).map f) ∧
    ∀ team shop calls,
      let r := (PurchasePhase.ofTeam config team shop).replies ⟨catalog, config⟩ calls
      let r' := (PurchasePhase.ofTeam config' team shop).replies ⟨catalog, config'⟩ calls
      r.1 = r'.1 ∧ r.2.team = r'.2.team ∧ r.2.arena.shop = r'.2.arena.shop ∧
        r.2.arena.board = r'.2.arena.board := by
  constructor
  · intro teams
    have starts : (Battle.ofTeams config teams).Alike K (Battle.ofTeams config' teams) :=
      ⟨opened (.ofTeams teams) none, rfl, rfl⟩
    exact Battle.fight_alike h hK hr starts hf
  · intro team shop calls
    have starts : (PurchasePhase.ofTeam config team shop).Alike K
        (PurchasePhase.ofTeam config' team shop) :=
      ⟨opened (.ofTeam team) (some shop), rfl⟩
    obtain ⟨same, ends⟩ := PurchasePhase.replies_alike h hK calls starts
    exact ⟨same, ends.team, ends.arena.shop, ends.arena.board⟩

/-! ## Limits -/

/-- The same in every respect, but for the limits. -/
def Likeness.limited : Likeness := ⟨Eq, Eq, fun _ => True, fun e => e.isLimit = true⟩

theorem parallel_limited (hd : config.maxDispatchDepth ≤ config'.maxDispatchDepth)
    (he : config.maxEvents ≤ config'.maxEvents) :
    Parallel (fun _ => True) .limited ⟨catalog, config⟩ ⟨catalog, config'⟩ where
  catalog := rfl
  depth := hd
  events := he
  limits := .inr fun _ h => h
  every ability _ := ability.effect.every_true
  draws := Scope.draws_of_eq _ rfl
  holds _ := trivial
  logged _ _ _ h := Arena.Alike.logged_of_eq rfl h

theorem Battle.roster_ne_nil {b : Board} (h : decided? b = none) (side : Side) :
    b.roster side ≠ [] := by
  intro hnil
  unfold decided? at h
  cases side <;> rw [hnil] at h <;> split at h <;> simp_all

theorem Board.WellFormed.livePets_ne_nil {b : Board} (h : b.WellFormed) {side : Side}
    (hne : b.roster side ≠ []) : b.livePets side ≠ [] := by
  obtain ⟨id, hid⟩ := List.exists_mem_of_ne_nil _ hne
  obtain ⟨pet, hpet⟩ := h.pet?_of_mem hid
  exact List.ne_nil_of_mem (List.mem_filterMap.2 ⟨id, hid, hpet⟩)

/-- A battle that comes to its end within the limits comes to the same end within wider ones. More
rounds make no difference if a line was empty at the end. -/
theorem limits_only_abort {teams : Sides Team} {report : BattleReport}
    (hseed : config'.seed = config.seed) (hrecord : config'.recordEvents = config.recordEvents)
    (hdepth : config.maxDispatchDepth ≤ config'.maxDispatchDepth)
    (hevents : config.maxEvents ≤ config'.maxEvents)
    (hrounds : config'.maxRounds = config.maxRounds ∨
      config.maxRounds ≤ config'.maxRounds ∧ ∃ side, report.survivors.get side = [])
    (h : Battle.fight ⟨catalog, config⟩ teams = .ok report) :
    Battle.fight ⟨catalog, config'⟩ teams = .ok report := by
  have parallel : Parallel (fun _ => True) .limited ⟨catalog, config⟩ ⟨catalog, config'⟩ :=
    parallel_limited hdepth hevents
  have starts : (Battle.ofTeams config teams).Alike .limited (Battle.ofTeams config' teams) := by
    refine ⟨Arena.Alike.opened trivial ?_ ?_ none, rfl, rfl⟩
    · rw [hseed]
      rfl
    · rw [hrecord]
      rfl
  have rounds : config.maxRounds ≤ config'.maxRounds := by
    rcases hrounds with hr | ⟨hr, _⟩ <;> omega
  have ends := Battle.concur_finishFrom parallel rounds starts
  unfold Battle.fight Battle.run at h ⊢
  have reachable : Battle.Reachable ⟨catalog, config⟩ teams
      (Battle.finishFrom ⟨catalog, config⟩ (Battle.ofTeams config teams)).2 :=
    Battle.Reachable.new.finishFrom
  generalize Battle.finishFrom ⟨catalog, config⟩ (Battle.ofTeams config teams) = r at *
  generalize Battle.finishFrom ⟨catalog, config'⟩ (Battle.ofTeams config' teams) = r' at *
  rcases ends with ends | ⟨b, rfl, cut⟩
  · cases ends with
    | ok hv _ =>
      cases h
      rw [hv.eq rfl]
    | error _ => cases h
    | alone _ => cases h
  -- A battle that was cut short still has a pet on both sides.
  · cases h
    rcases hrounds with hr | ⟨_, side, hside⟩
    · exact absurd cut.earlier (by dsimp only; omega)
    · have wellFormed := Battle.wellFormed_of_reachable reachable
      have live := wellFormed.livePets_ne_nil (Battle.roster_ne_nil cut.undecided side)
      rw [Battle.report, Sides.get_tabulate] at hside
      exact absurd hside live

/-- Limits just wide enough for the hippo's line to win. -/
def tightest : EngineConfig :=
  { maxDispatchDepth := 2, maxEvents := 10, maxRounds := 1, recordEvents := true }

theorem Battle.fight_of_two_steps {rules : Rules} {teams : Sides Team} {first last : Battle}
    {outcome : BattleOutcome} (hf : (ofTeams rules.config teams).step rules = (.ok .running, first))
    (hl : first.step rules = (.ok (.finished outcome), last)) :
    fight rules teams = .ok (last.report outcome) := by
  unfold fight run
  rw [finishFrom_of_unfinished hf (.inr rfl), finishFrom_of_finished hl]

def tightRules : Rules := ⟨rescueCatalog callAnt healSelf, tightest⟩

/-- The exchange of the hippo and the ant. -/
def tightExchange : Except EngineError BattleState × Battle :=
  (Battle.ofTeams tightest (rescueTeams callAnt healSelf)).step tightRules

def tightEnd : Except EngineError BattleState × Battle := tightExchange.2.step tightRules

theorem fight_tightest : ∃ report,
    Battle.fight tightRules (rescueTeams callAnt healSelf) = .ok report ∧
      report.survivors.get .b = [] := by
  have running : tightExchange.1 = .ok .running := by decide +kernel
  have won : tightEnd.1 = .ok (.finished .teamOneWins) := by decide +kernel
  have routed : tightEnd.2.arena.board.livePets .b = [] := by decide +kernel
  have exchange : tightExchange = (.ok .running, tightExchange.2) := by rw [← running]
  have last : tightEnd = (.ok (.finished .teamOneWins), tightEnd.2) := by rw [← won]
  refine ⟨tightEnd.2.report .teamOneWins, Battle.fight_of_two_steps exchange last, ?_⟩
  rw [Battle.report, Sides.get_tabulate]
  exact routed

/-- The hippo's line wins within the default limits as it does within the tightest. -/
theorem limits_only_abort_rescue :
    ∃ report, report.survivors.get .b = [] ∧
      Battle.fight tightRules (rescueTeams callAnt healSelf) = .ok report ∧
      Battle.fight ⟨rescueCatalog callAnt healSelf, { recordEvents := true }⟩
        (rescueTeams callAnt healSelf) = .ok report := by
  obtain ⟨report, hfight, hempty⟩ := fight_tightest
  refine ⟨report, hempty, hfight, ?_⟩
  refine limits_only_abort ?_ ?_ ?_ ?_ (.inr ⟨?_, .b, hempty⟩) hfight
  all_goals decide

/-! ## Recording -/

/-- The same in every respect, but for what is recorded. -/
def Likeness.recorded : Likeness := ⟨fun _ _ => True, Eq, fun _ => True, fun _ => False⟩

theorem parallel_recorded (hd : config.maxDispatchDepth = config'.maxDispatchDepth)
    (he : config.maxEvents = config'.maxEvents) :
    Parallel (fun _ => True) .recorded ⟨catalog, config⟩ ⟨catalog, config'⟩ where
  catalog := rfl
  depth := Nat.le_of_eq hd
  events := Nat.le_of_eq he
  limits := .inl ⟨hd, he⟩
  every ability _ := ability.effect.every_true
  draws := Scope.draws_of_eq _ rfl
  holds _ := trivial
  logged _ _ _ h := by
    have loose : EventLog.Loose Likeness.recorded.logs :=
      ⟨⟨fun _ _ _ _ _ => trivial, fun _ _ _ _ _ => trivial⟩, fun _ _ _ _ => trivial⟩
    exact Arena.Alike.logged_of_loose loose h.silent

/-- A report without the events. -/
def BattleReport.unrecorded (r : BattleReport) : BattleReport := { r with events := [] }

theorem BattleReport.Alike.unrecorded {K : Likeness} {r r' : BattleReport} (h : r.Alike K r') :
    r.unrecorded = r'.unrecorded := by
  obtain ⟨outcome, b, b', hb, rfl, rfl⟩ := h
  unfold BattleReport.unrecorded Battle.report
  rw [hb.rounds, hb.arena.board]

/-- Whether events are recorded makes no difference to a battle, but for the events in its report,
nor to any sequence of calls of a shop turn. -/
theorem recording_decides_nothing (catalog : Catalog) (config : EngineConfig) (recorded : Bool) :
    (∀ teams,
      (Battle.fight ⟨catalog, config⟩ teams).map BattleReport.unrecorded =
        (Battle.fight ⟨catalog, { config with recordEvents := recorded }⟩ teams).map
          BattleReport.unrecorded) ∧
    ∀ team shop calls,
      let r := (PurchasePhase.ofTeam config team shop).replies ⟨catalog, config⟩ calls
      let r' := (PurchasePhase.ofTeam { config with recordEvents := recorded } team shop).replies
        ⟨catalog, { config with recordEvents := recorded }⟩ calls
      r.1 = r'.1 ∧ r.2.team = r'.2.team ∧ r.2.arena.shop = r'.2.arena.shop ∧
        r.2.arena.board = r'.2.arena.board := by
  have parallel : Parallel (fun _ => True) .recorded ⟨catalog, config⟩
      ⟨catalog, { config with recordEvents := recorded }⟩ := parallel_recorded rfl rfl
  refine parallel.decided_alike (fun _ => id) rfl (fun b shop => ?_) fun _ _ h => h.unrecorded
  exact Arena.Alike.opened trivial rfl trivial shop

/-! ## The seed -/

def Selector.isRandom : Selector → Bool
  | randomFriend _ => true
  | randomEnemy _ => true
  | _ => false

/-- The effect itself draws nothing. -/
def Effect.IsDetermined (e : Effect) : Prop :=
  e.chooses = false ∧ ∀ selector ∈ e.selectors, selector.isRandom = false

/-- The same in every respect, but for what the generators would give. -/
def Likeness.seeded : Likeness := ⟨Eq, fun _ _ => True, fun _ => True, fun _ => False⟩

/-- Only random selectors look at the generator. -/
theorem Targeting.resolve_determined {v : View} {selector : Selector}
    (h : selector.isRandom = false) (g g' : Generator) :
    (resolve v selector g).1 = (resolve v selector g').1 := by
  cases selector with
  | randomFriend n => cases h
  | randomEnemy n => cases h
  | _ => rfl

theorem parallel_seeded (h : catalog.Every Effect.IsDetermined)
    (hd : config.maxDispatchDepth = config'.maxDispatchDepth)
    (he : config.maxEvents = config'.maxEvents) :
    Parallel Effect.IsDetermined .seeded ⟨catalog, config⟩ ⟨catalog, config'⟩ where
  catalog := rfl
  depth := Nat.le_of_eq hd
  events := Nat.le_of_eq he
  limits := .inl ⟨hd, he⟩
  every := h
  draws.select effect selector hs hm v g g' _ :=
    ⟨Targeting.resolve_determined (hs.2 selector hm) g g', trivial⟩
  draws.choose effect hs hc := by
    rw [hs.1] at hc
    cases hc
  holds _ := trivial
  logged _ _ _ h := Arena.Alike.logged_of_eq rfl h

/-- Where no effect chooses at random and no selector is random, the seed makes no difference to a
battle, nor to any sequence of calls of a shop turn. -/
theorem seed_decides_nothing_without_chance {catalog : Catalog}
    (h : catalog.Every Effect.IsDetermined) (config : EngineConfig) (seed : Nat) :
    (∀ teams, Battle.fight ⟨catalog, config⟩ teams =
      Battle.fight ⟨catalog, { config with seed := seed }⟩ teams) ∧
    ∀ team shop calls,
      let r := (PurchasePhase.ofTeam config team shop).replies ⟨catalog, config⟩ calls
      let r' := (PurchasePhase.ofTeam { config with seed := seed } team shop).replies
        ⟨catalog, { config with seed := seed }⟩ calls
      r.1 = r'.1 ∧ r.2.team = r'.2.team ∧ r.2.arena.shop = r'.2.arena.shop ∧
        r.2.arena.board = r'.2.arena.board := by
  have parallel : Parallel Effect.IsDetermined .seeded ⟨catalog, config⟩
      ⟨catalog, { config with seed := seed }⟩ := parallel_seeded h rfl rfl
  have opened (b : Board) (shop : Option Shop) : Arena.Alike .seeded (.open config b shop)
      (.open { config with seed := seed } b shop) := Arena.Alike.opened trivial trivial rfl shop
  have same := parallel.decided_alike (f := id) (fun _ => id) rfl opened fun _ _ h => h.eq rfl
  simpa only [Except.map_id, id] using same

theorem determined_rescueCatalog : (rescueCatalog callAnt healSelf).Every Effect.IsDetermined :=
  every_rescueCatalog ⟨⟨rfl, by decide⟩, trivial⟩ ⟨⟨rfl, by decide⟩, trivial⟩

theorem seed_decides_nothing_without_chance_rescue :
    Battle.fight ⟨rescueCatalog callAnt healSelf, { seed := 1 }⟩ (rescueTeams callAnt healSelf) =
      Battle.fight ⟨rescueCatalog callAnt healSelf, { seed := 7 }⟩ (rescueTeams callAnt healSelf) ∧
    ((PurchasePhase.ofTeam { seed := 1 } ((rescueTeams callAnt healSelf).get .a) (.ofGold 10)).replies
        ⟨rescueCatalog callAnt healSelf, { seed := 1 }⟩ [.sell 4, .endTurn]).1 =
      ((PurchasePhase.ofTeam { seed := 7 } ((rescueTeams callAnt healSelf).get .a) (.ofGold 10)).replies
        ⟨rescueCatalog callAnt healSelf, { seed := 7 }⟩ [.sell 4, .endTurn]).1 := by
  obtain ⟨battles, turns⟩ :=
    seed_decides_nothing_without_chance determined_rescueCatalog { seed := 1 } 7
  exact ⟨battles _, (turns _ _ _).1⟩

end AutoBattler
