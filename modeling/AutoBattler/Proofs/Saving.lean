import AutoBattler.Proofs.Boards
import AutoBattler.Proofs.EffectForms
import AutoBattler.Proofs.ShopTurns

/-!
# Saved state reads back

Tables are written entry by entry, counters under their names and the pets of a board under their
numbers in decimal digits, and a table is built again from its entries. No state nests deep, so
whatever is in range reads back: pets, teams, boards, shops, configurations, event records and the
results of battles and tournaments. A reloaded team fights and shops as the team that was saved.
-/
namespace AutoBattler

open Json

variable {α : Type}

/-- Whatever is in range reads back from the text that is written for it. -/
def Json.Saves (read : Json → Option α) (write : α → Json) (InRange : α → Prop) : Prop :=
  ∀ v, InRange v → ∀ text, Spells text (write v) → ofText? read text = some v

theorem Json.Form.saves {read : Json → Option α} {write : α → Json} {InRange : α → Prop}
    (hf : Form read write InRange) (hd : ∀ v, (write v).depth ≤ nestingLimit) :
    Saves read write InRange :=
  fun v hv _ ht => hf.ofText?_written hv (hd v) ht

/-! ## How deep lists and options nest -/

theorem Json.depth_ofList_le {write : α → Json} {n : Nat} (h : ∀ v, (write v).depth ≤ n)
    (vs : List α) : (ofList write vs).depth ≤ n + 1 :=
  Nat.succ_le_succ (depthList_le_iff.2 (List.forall_mem_map.2 fun v _ => h v))

theorem Json.depth_ofOption_le {write : α → Json} {n : Nat} (h : ∀ v, (write v).depth ≤ n)
    (o : Option α) : (ofOption write o).depth ≤ n := by
  cases o with
  | none => exact Nat.zero_le n
  | some v => exact h v

/-! ## Numbers, sides and pairs -/

theorem form_petId : Form PetId.ofJson? PetId.toJson fun id => id.number < UInt64.size where
  back id h := Option.map_eq_some_iff.2 ⟨id.number, form_nat64.back _ h, rfl⟩
  writable _ h := form_nat64.writable _ h
  present _ := nofun

theorem PetId.depth_toJson (id : PetId) : id.toJson.depth ≤ 0 := Nat.le_refl 0

theorem form_side : Form Side.ofJson? Side.toJson fun _ => True where
  back s _ := by cases s <;> rfl
  writable _ _ := trivial
  present _ := nofun

theorem form_outcome : Form BattleOutcome.ofJson? BattleOutcome.toJson fun _ => True where
  back o _ := by cases o <;> rfl
  writable _ _ := trivial
  present _ := nofun

theorem Json.Form.sides {read : Json → Option α} {write : α → Json} {InRange : α → Prop}
    (hf : Form read write InRange) :
    Form (Sides.ofJson? read) (Sides.toJson write) fun p => InRange p.a ∧ InRange p.b where
  back p h := bind_eq_some (hf.back p.a h.1) (bind_eq_some (hf.back p.b h.2) rfl)
  writable p h := ⟨hf.writable p.a h.1, hf.writable p.b h.2, trivial⟩
  present _ := nofun

theorem Sides.depth_toJson_le {write : α → Json} {n : Nat} (h : ∀ v, (write v).depth ≤ n)
    (p : Sides α) : (p.toJson write).depth ≤ n + 1 :=
  depth_ofList_le h p.toList

/-! ## Pets and teams -/

structure StatBuff.InRange (b : StatBuff) : Prop where
  attack : IsInt32 b.attack
  health : IsInt32 b.health

theorem form_statBuff : Form StatBuff.ofJson? StatBuff.toJson StatBuff.InRange where
  back _ h :=
    bind_eq_some rfl <|
    bind_eq_some (form_int32.required rfl h.attack) <|
    bind_eq_some (form_int32.required rfl h.health) rfl
  writable _ h := ⟨rfl, form_int32.writable _ h.attack, form_int32.writable _ h.health, trivial⟩
  present _ := nofun

theorem form_borrowed : Form BorrowedAbility.ofJson? BorrowedAbility.toJson
    fun b => b.level < UInt8.size where
  back _ h :=
    bind_eq_some rfl <|
    bind_eq_some (form_name.required rfl trivial) <|
    bind_eq_some (form_nat8.required rfl h) rfl
  writable _ h := ⟨rfl, trivial, form_nat8.writable _ h, trivial⟩
  present _ := nofun

theorem StatBuff.depth_toJson (b : StatBuff) : b.toJson.depth ≤ 1 := Nat.le_refl 1

theorem BorrowedAbility.depth_toJson (b : BorrowedAbility) : b.toJson.depth ≤ 1 := Nat.le_refl 1

/-- The numbers of a pet fit their types. Stats may lie outside the bounds that play keeps. -/
structure Pet.InRange (p : Pet) : Prop where
  tier : p.tier < UInt8.size
  attack : IsInt32 p.attack
  health : IsInt32 p.health
  level : p.level < UInt8.size
  experience : p.experience < UInt32.size
  borrowed : ∀ ability ∈ p.borrowed, ability.level < UInt8.size
  activeBuffs : ∀ buff ∈ p.activeBuffs, buff.InRange
  counters : ∀ (key : String) n, p.counters[key]? = some n → IsInt64 n

theorem form_counters : Form Pet.countersOfJson? Pet.countersToJson
    fun t => ∀ (key : String) n, t[key]? = some n → IsInt64 n where
  back t h := by
    have entries : (t.toList.map fun e => (e.1, Json.int e.2)).mapM
        (fun field => (asInt64? field.2).map fun n => (field.1, n)) = some t.toList := by
      refine mapM_map_eq_some fun e he => ?_
      have hn := h e.1 e.2 (Std.ExtTreeMap.mem_toList_iff_getElem?_eq_some.1 he)
      exact Option.map_eq_some_iff.2 ⟨e.2, form_int64.back _ hn, rfl⟩
    exact bind_eq_some rfl (bind_eq_some entries (congrArg some (Table.ofList_toList t)))
  writable t h := by
    refine ⟨rfl, writableFields_iff.2 (List.forall_mem_map.2 fun e he => ?_)⟩
    exact form_int64.writable _ (h e.1 e.2 (Std.ExtTreeMap.mem_toList_iff_getElem?_eq_some.1 he))
  present _ := nofun

theorem form_pet : Form Pet.ofJson? Pet.toJson Pet.InRange where
  back p h :=
    bind_eq_some rfl <|
    bind_eq_some (form_name.required rfl trivial) <|
    bind_eq_some (form_nat8.required rfl h.tier) <|
    bind_eq_some (form_int32.required rfl h.attack) <|
    bind_eq_some (form_int32.required rfl h.health) <|
    bind_eq_some (form_nat8.required rfl h.level) <|
    bind_eq_some (form_nat32.required rfl h.experience) <|
    bind_eq_some (form_name.optional rfl fun _ _ => trivial) <|
    bind_eq_some (form_borrowed.optional rfl h.borrowed) <|
    bind_eq_some (form_statBuff.list.withDefault rfl
      fun b hb => h.activeBuffs b (List.mem_reverse.1 hb)) <|
    bind_eq_some (form_counters.withDefault rfl h.counters) <| by
      rw [List.reverse_reverse]
      rfl
  writable p h :=
    ⟨rfl, trivial, form_nat8.writable _ h.tier, form_int32.writable _ h.attack,
      form_int32.writable _ h.health, form_nat8.writable _ h.level,
      form_nat32.writable _ h.experience, form_name.writable_option fun _ _ => trivial,
      form_borrowed.writable_option h.borrowed,
      form_statBuff.list.writable _ fun b hb => h.activeBuffs b (List.mem_reverse.1 hb),
      form_counters.writable _ h.counters, trivial⟩
  present _ := nofun

theorem Pet.depth_toJson (p : Pet) : p.toJson.depth ≤ 3 := by
  have buffs := depth_ofList_le StatBuff.depth_toJson p.activeBuffs.reverse
  have borrowed := depth_ofOption_le BorrowedAbility.depth_toJson p.borrowed
  have status : (ofOption Name.toJson p.status).depth ≤ 0 :=
    depth_ofOption_le (fun _ => Nat.le_refl 0) _
  have counters : (countersToJson p.counters).depth ≤ 1 :=
    Nat.succ_le_succ (depthFields_le_iff.2 (List.forall_mem_map.2 fun _ _ => Nat.le_refl 0))
  simp only [toJson, Name.toJson, ofNat, depth, depthFields] at status ⊢
  omega

structure Team.InRange (t : Team) : Prop where
  pets : ∀ p ∈ t.pets, p.InRange
  shopBuffs : ∀ b ∈ t.shopBuffs, b.InRange

theorem form_team : Form Team.ofJson? Team.toJson Team.InRange where
  back _ h :=
    bind_eq_some rfl <|
    bind_eq_some (form_pet.list.required rfl h.pets) <|
    bind_eq_some (form_statBuff.list.withDefault rfl h.shopBuffs) rfl
  writable _ h :=
    ⟨rfl, form_pet.list.writable _ h.pets, form_statBuff.list.writable _ h.shopBuffs, trivial⟩
  present _ := nofun

theorem Team.depth_toJson (t : Team) : t.toJson.depth ≤ 5 := by
  have pets := depth_ofList_le Pet.depth_toJson t.pets
  have buffs := depth_ofList_le StatBuff.depth_toJson t.shopBuffs
  simp only [toJson, depth, depthFields]
  omega

structure Shop.InRange (s : Shop) : Prop where
  gold : IsInt32 s.gold
  pets : ∀ p ∈ s.pets, p.InRange
  futureBuffs : ∀ b ∈ s.futureBuffs, b.InRange

theorem form_shop : Form Shop.ofJson? Shop.toJson Shop.InRange where
  back s h :=
    bind_eq_some rfl <|
    bind_eq_some (form_int32.required rfl h.gold) <|
    bind_eq_some (form_pet.list.required rfl h.pets) <|
    bind_eq_some (form_statBuff.list.required rfl
      fun b hb => h.futureBuffs b (List.mem_reverse.1 hb)) <| by
      rw [List.reverse_reverse]
      rfl
  writable _ h :=
    ⟨rfl, form_int32.writable _ h.gold, form_pet.list.writable _ h.pets,
      form_statBuff.list.writable _ fun b hb => h.futureBuffs b (List.mem_reverse.1 hb), trivial⟩
  present _ := nofun

theorem Shop.depth_toJson (s : Shop) : s.toJson.depth ≤ 5 := by
  have pets := depth_ofList_le Pet.depth_toJson s.pets
  have buffs := depth_ofList_le StatBuff.depth_toJson s.futureBuffs.reverse
  simp only [toJson, depth, depthFields]
  omega

/-! ## Boards -/

theorem form_line : Form Line.ofJson? Line.toJson
    fun l => ∀ id ∈ l.ids, id.number < UInt64.size where
  back l h :=
    Option.map_eq_some_iff.2 ⟨l.ids, form_petId.list.back _ h, Line.eq_of_ids rfl⟩
  writable _ h := form_petId.list.writable _ h
  present _ := nofun

theorem Line.depth_toJson (l : Line) : l.toJson.depth ≤ 1 :=
  depth_ofList_le PetId.depth_toJson l.ids

/-- The pet is in range and so is its number, which need not be the one it is stored under. -/
structure Entrant.InRange (e : Entrant) : Prop where
  id : e.id.number < UInt64.size
  pet : e.pet.InRange

theorem form_entrant : Form Entrant.ofJson? Entrant.toJson Entrant.InRange where
  back _ h :=
    bind_eq_some rfl <|
    bind_eq_some (form_petId.required rfl h.id) <|
    bind_eq_some (form_side.required rfl trivial) <|
    bind_eq_some (form_pet.required rfl h.pet) rfl
  writable _ h := ⟨rfl, form_petId.writable _ h.id, trivial, form_pet.writable _ h.pet, trivial⟩
  present _ := nofun

theorem Entrant.depth_toJson (e : Entrant) : e.toJson.depth ≤ 4 := by
  have pet := e.pet.depth_toJson
  simp only [toJson, PetId.toJson, Side.toJson, ofNat, depth, depthFields]
  omega

/-- Every stored pet and every number that a roster names fits its type. A roster may name numbers
that no pet is stored under. -/
structure Board.InRange (b : Board) : Prop where
  nextId : b.nextId < UInt64.size
  entrants : ∀ (id : PetId) e, b.entrants[id]? = some e → id.number < UInt64.size ∧ e.InRange
  rosters : ∀ side, ∀ id ∈ b.roster side, id.number < UInt64.size

namespace Board

theorem idOfName?_eq (name : String) :
    idOfName? name = (number? name.toList).bind PetId.ofJson? := by
  unfold idOfName? number?
  cases NumberText.read? name.toList <;> rfl

/-- A pet is found again under the digits of its number. -/
theorem idOfName?_toString {id : PetId} (h : id.number < UInt64.size) :
    idOfName? (toString id.number) = some id := by
  have number : number? (toString id.number).toList = some (.int id.number) :=
    number?_toString (n := id.number) (form_nat64.writable _ h)
  rw [idOfName?_eq, number]
  exact form_petId.back id h

end Board

theorem form_entrants : Form Board.entrantsOfJson? Board.entrantsToJson
    fun t => ∀ (id : PetId) e, t[id]? = some e → id.number < UInt64.size ∧ e.InRange where
  back t h := by
    have entries : (t.toList.map fun e => (toString e.1.number, e.2.toJson)).mapM
        (fun field => do return (← Board.idOfName? field.1, ← Entrant.ofJson? field.2)) =
          some t.toList := by
      refine mapM_map_eq_some fun e he => ?_
      obtain ⟨hid, hr⟩ := h e.1 e.2 (Std.ExtTreeMap.mem_toList_iff_getElem?_eq_some.1 he)
      exact bind_eq_some (Board.idOfName?_toString hid) (bind_eq_some (form_entrant.back _ hr) rfl)
    exact bind_eq_some rfl (bind_eq_some entries (congrArg some (Table.ofList_toList t)))
  writable t h := by
    refine ⟨rfl, writableFields_iff.2 (List.forall_mem_map.2 fun e he => ?_)⟩
    obtain ⟨-, hr⟩ := h e.1 e.2 (Std.ExtTreeMap.mem_toList_iff_getElem?_eq_some.1 he)
    exact form_entrant.writable _ hr
  present _ := nofun

theorem form_board : Form Board.ofJson? Board.toJson Board.InRange where
  back _ h :=
    bind_eq_some rfl <|
    bind_eq_some (form_nat64.required rfl h.nextId) <|
    bind_eq_some (form_entrants.required rfl h.entrants) <|
    bind_eq_some (form_line.sides.required rfl ⟨h.rosters .a, h.rosters .b⟩) rfl
  writable _ h :=
    ⟨rfl, form_nat64.writable _ h.nextId, form_entrants.writable _ h.entrants,
      form_line.sides.writable _ ⟨h.rosters .a, h.rosters .b⟩, trivial⟩
  present _ := nofun

theorem Board.depth_toJson (b : Board) : b.toJson.depth ≤ 6 := by
  have entrants : (entrantsToJson b.entrants).depth ≤ 5 :=
    Nat.succ_le_succ (depthFields_le_iff.2 (List.forall_mem_map.2 fun e _ => e.2.depth_toJson))
  have rosters := Sides.depth_toJson_le Line.depth_toJson b.rosters
  simp only [toJson, ofNat, depth, depthFields]
  omega

/-! ## Configurations and events -/

structure EngineConfig.InRange (c : EngineConfig) : Prop where
  seed : c.seed < UInt64.size
  maxDispatchDepth : c.maxDispatchDepth < UInt64.size
  maxEvents : c.maxEvents < UInt64.size
  maxRounds : c.maxRounds < UInt32.size

theorem form_config : Form EngineConfig.ofJson? EngineConfig.toJson EngineConfig.InRange where
  back _ h :=
    bind_eq_some rfl <|
    bind_eq_some (form_nat64.withDefault rfl h.seed) <|
    bind_eq_some (form_nat64.withDefault rfl h.maxDispatchDepth) <|
    bind_eq_some (form_nat64.withDefault rfl h.maxEvents) <|
    bind_eq_some (form_nat32.withDefault rfl h.maxRounds) <|
    bind_eq_some (form_bool.withDefault rfl trivial) rfl
  writable _ h :=
    ⟨rfl, form_nat64.writable _ h.seed, form_nat64.writable _ h.maxDispatchDepth,
      form_nat64.writable _ h.maxEvents, form_nat32.writable _ h.maxRounds, trivial, trivial⟩
  present _ := nofun

theorem EngineConfig.depth_toJson (c : EngineConfig) : c.toJson.depth ≤ 1 := Nat.le_refl 1

structure EventRecord.InRange (r : EventRecord) : Prop where
  source : ∀ id ∈ r.source, id.number < UInt64.size
  notified : ∀ id ∈ r.notified, id.number < UInt64.size
  depth : r.depth < UInt64.size

theorem form_record : Form EventRecord.ofJson? EventRecord.toJson EventRecord.InRange where
  back _ h :=
    bind_eq_some rfl <|
    bind_eq_some (form_trigger.required rfl trivial) <|
    bind_eq_some (form_side.required rfl trivial) <|
    bind_eq_some (form_petId.optional rfl h.source) <|
    bind_eq_some (form_petId.list.required rfl h.notified) <|
    bind_eq_some (form_nat64.required rfl h.depth) rfl
  writable _ h :=
    ⟨rfl, trivial, trivial, form_petId.writable_option h.source,
      form_petId.list.writable _ h.notified, form_nat64.writable _ h.depth, trivial⟩
  present _ := nofun

theorem EventRecord.depth_toJson (r : EventRecord) : r.toJson.depth ≤ 2 := by
  have source := depth_ofOption_le PetId.depth_toJson r.source
  have notified := depth_ofList_le PetId.depth_toJson r.notified
  simp only [toJson, Trigger.toJson, Side.toJson, ofNat, Json.depth, depthFields]
  omega

/-! ## Battles and tournaments -/

theorem form_battleState : Form BattleState.ofJson? BattleState.toJson fun _ => True where
  back s _ := by
    cases s with
    | finished outcome => exact Option.map_eq_some_iff.2 ⟨outcome, form_outcome.back _ trivial, rfl⟩
    | _ => rfl
  writable s _ := by
    cases s with
    | finished outcome => exact ⟨rfl, trivial, trivial⟩
    | _ => trivial
  present s := by cases s <;> nofun

theorem BattleState.depth_toJson (s : BattleState) : s.toJson.depth ≤ 1 := by
  cases s with
  | finished outcome => exact Nat.le_refl 1
  | _ => exact Nat.zero_le 1

structure BattleReport.InRange (r : BattleReport) : Prop where
  rounds : r.rounds < UInt32.size
  survivors : ∀ side, ∀ p ∈ r.survivors.get side, p.InRange
  events : ∀ e ∈ r.events, e.InRange

theorem form_report : Form BattleReport.ofJson? BattleReport.toJson BattleReport.InRange where
  back _ h :=
    bind_eq_some rfl <|
    bind_eq_some (form_outcome.required rfl trivial) <|
    bind_eq_some (form_nat32.required rfl h.rounds) <|
    bind_eq_some (form_pet.list.sides.required rfl ⟨h.survivors .a, h.survivors .b⟩) <|
    bind_eq_some (form_record.list.required rfl h.events) rfl
  writable _ h :=
    ⟨rfl, trivial, form_nat32.writable _ h.rounds,
      form_pet.list.sides.writable _ ⟨h.survivors .a, h.survivors .b⟩,
      form_record.list.writable _ h.events, trivial⟩
  present _ := nofun

theorem BattleReport.depth_toJson (r : BattleReport) : r.toJson.depth ≤ 6 := by
  have survivors := Sides.depth_toJson_le (depth_ofList_le Pet.depth_toJson) r.survivors
  have events := depth_ofList_le EventRecord.depth_toJson r.events
  simp only [toJson, BattleOutcome.toJson, ofNat, depth, depthFields]
  omega

structure Standing.InRange (s : Standing) : Prop where
  team : s.team < UInt64.size
  wins : s.wins < UInt32.size
  draws : s.draws < UInt32.size
  losses : s.losses < UInt32.size

theorem form_standing : Form Standing.ofJson? Standing.toJson Standing.InRange where
  back _ h :=
    bind_eq_some rfl <|
    bind_eq_some (form_nat64.required rfl h.team) <|
    bind_eq_some (form_nat32.required rfl h.wins) <|
    bind_eq_some (form_nat32.required rfl h.draws) <|
    bind_eq_some (form_nat32.required rfl h.losses) rfl
  writable _ h :=
    ⟨rfl, form_nat64.writable _ h.team, form_nat32.writable _ h.wins, form_nat32.writable _ h.draws,
      form_nat32.writable _ h.losses, trivial⟩
  present _ := nofun

theorem Standing.depth_toJson (s : Standing) : s.toJson.depth ≤ 1 := Nat.le_refl 1

structure Pairing.InRange (p : Pairing) : Prop where
  first : p.first < UInt64.size
  second : p.second < UInt64.size
  rounds : p.rounds < UInt32.size

theorem form_pairing : Form Pairing.ofJson? Pairing.toJson Pairing.InRange where
  back _ h :=
    bind_eq_some rfl <|
    bind_eq_some (form_nat64.required rfl h.first) <|
    bind_eq_some (form_nat64.required rfl h.second) <|
    bind_eq_some (form_outcome.required rfl trivial) <|
    bind_eq_some (form_nat32.required rfl h.rounds) rfl
  writable _ h :=
    ⟨rfl, form_nat64.writable _ h.first, form_nat64.writable _ h.second, trivial,
      form_nat32.writable _ h.rounds, trivial⟩
  present _ := nofun

theorem Pairing.depth_toJson (p : Pairing) : p.toJson.depth ≤ 1 := Nat.le_refl 1

/-! ## What a reloaded team does -/

/-- The teams that two texts are read as. -/
def Sides.ofTexts? (texts : Sides String) : Option (Sides Team) := do
  return ⟨← ofText? Team.ofJson? texts.a, ← ofText? Team.ofJson? texts.b⟩

theorem saves_team : Saves Team.ofJson? Team.toJson Team.InRange :=
  form_team.saves fun t => Nat.le_trans t.depth_toJson (by decide)

theorem Sides.ofTexts?_written {teams : Sides Team} {texts : Sides String}
    (h : ∀ side, (teams.get side).InRange)
    (ht : ∀ side, Spells (texts.get side) (teams.get side).toJson) : ofTexts? texts = some teams :=
  bind_eq_some (saves_team _ (h .a) _ (ht .a)) (bind_eq_some (saves_team _ (h .b) _ (ht .b)) rfl)

/-- State reads back from the text that is written for it, and a team that was read back does what
the team does for which the text was written: it fights the same battle, and in a shop turn every call
is answered alike. -/
theorem state_round_trips :
    Saves Pet.ofJson? Pet.toJson Pet.InRange ∧
      Saves Team.ofJson? Team.toJson Team.InRange ∧
      Saves Board.ofJson? Board.toJson Board.InRange ∧
      Saves Shop.ofJson? Shop.toJson Shop.InRange ∧
      Saves EngineConfig.ofJson? EngineConfig.toJson EngineConfig.InRange ∧
      Saves EventRecord.ofJson? EventRecord.toJson EventRecord.InRange ∧
      Saves BattleState.ofJson? BattleState.toJson (fun _ => True) ∧
      Saves Pairing.ofJson? Pairing.toJson Pairing.InRange ∧
      Saves Standing.ofJson? Standing.toJson Standing.InRange ∧
      Saves BattleReport.ofJson? BattleReport.toJson BattleReport.InRange ∧
      (∀ (rules : Rules) (teams : Sides Team) (texts : Sides String),
        (∀ side, (teams.get side).InRange) →
        (∀ side, Spells (texts.get side) (teams.get side).toJson) →
          (Sides.ofTexts? texts).map (Battle.fight rules) = some (Battle.fight rules teams) ∧
          (Sides.ofTexts? texts).map (runBattle rules) = some (runBattle rules teams)) ∧
      ∀ (rules : Rules) (team : Team) (shop : Shop) (calls : List PurchasePhase.Call)
        (text : String), team.InRange → Spells text team.toJson →
          ((ofText? Team.ofJson? text).map fun team =>
            (PurchasePhase.ofTeam rules.config team shop).replies rules calls) =
              some ((PurchasePhase.ofTeam rules.config team shop).replies rules calls) := by
  have shallow {α : Type} {write : α → Json} {n : Nat} (hd : ∀ v, (write v).depth ≤ n) (hn : n ≤ 6)
      (v : α) : (write v).depth ≤ nestingLimit :=
    Nat.le_trans (hd v) (Nat.le_trans hn (by decide))
  refine ⟨form_pet.saves (shallow Pet.depth_toJson (by decide)), saves_team,
    form_board.saves (shallow Board.depth_toJson (by decide)),
    form_shop.saves (shallow Shop.depth_toJson (by decide)),
    form_config.saves (shallow EngineConfig.depth_toJson (by decide)),
    form_record.saves (shallow EventRecord.depth_toJson (by decide)),
    form_battleState.saves (shallow BattleState.depth_toJson (by decide)),
    form_pairing.saves (shallow Pairing.depth_toJson (by decide)),
    form_standing.saves (shallow Standing.depth_toJson (by decide)),
    form_report.saves (shallow BattleReport.depth_toJson (by decide)), ?_, ?_⟩
  · intro rules teams texts h ht
    rw [Sides.ofTexts?_written h ht]
    exact ⟨rfl, rfl⟩
  · intro rules team shop calls text h ht
    rw [saves_team team h text ht]
    rfl

/-- A pet that no play leads to, with stats at the ends of their ranges. -/
def oddPet : Pet where
  kind := ⟨"\""⟩
  tier := 255
  attack := -2147483648
  health := 2147483647
  level := 0
  experience := 4294967295
  status := some ⟨""⟩
  borrowed := some ⟨⟨"é"⟩, 0⟩
  activeBuffs := [⟨-1, 1⟩, ⟨2, 0⟩]
  counters := (∅ : Table String Int).insert "\n" (-9223372036854775808)

theorem oddPet_inRange : oddPet.InRange where
  tier := by decide
  attack := by decide
  health := by decide
  level := by decide
  experience := by decide
  borrowed ability h := by
    cases h
    decide
  activeBuffs :=
    List.forall_mem_cons.2 ⟨⟨by decide, by decide⟩,
      List.forall_mem_cons.2 ⟨⟨by decide, by decide⟩, List.forall_mem_nil _⟩⟩
  counters key n h := by
    rw [oddPet, Std.ExtTreeMap.getElem?_insert] at h
    split at h
    · cases h
      decide
    · simp at h

/-- One pet is stored under another number than its own, and a roster names a number twice that
nothing is stored under. -/
def staleBoard : Board where
  nextId := 18446744073709551615
  entrants := (∅ : Table PetId Entrant).insert ⟨5⟩ ⟨⟨7⟩, .b, oddPet⟩
  rosters := ⟨.ofList [⟨9⟩, ⟨9⟩], .empty⟩

theorem staleBoard_inRange : staleBoard.InRange where
  nextId := by decide
  entrants id e h := by
    rw [staleBoard, Std.ExtTreeMap.getElem?_insert] at h
    split at h
    · rename_i hid
      cases h
      rw [← Std.LawfulEqCmp.eq_of_compare hid]
      exact ⟨by decide, by decide, oddPet_inRange⟩
    · simp at h
  rosters side id h := by
    cases side with
    | a =>
      have h : id = ⟨9⟩ := by simpa [staleBoard, Board.roster, Sides.get, Line.ofList] using h
      subst h
      decide
    | b => cases h

theorem oddTeam_inRange : (Team.mk [oddPet] []).InRange where
  pets _ h := List.mem_singleton.1 h ▸ oddPet_inRange
  shopBuffs := List.forall_mem_nil _

theorem state_round_trips_stale :
    staleBoard.InRange ∧ ofText? Board.ofJson? staleBoard.toJson.render = some staleBoard ∧
      (Team.mk [oddPet] []).InRange ∧
      (∀ rules,
        (Sides.ofTexts? ⟨(Team.mk [oddPet] []).toJson.render,
            (Team.mk [oddPet] []).toJson.renderIndented⟩).map (Battle.fight rules) =
          some (Battle.fight rules ⟨⟨[oddPet], []⟩, ⟨[oddPet], []⟩⟩)) ∧
      ∀ rules,
        ((ofText? Team.ofJson? (Team.mk [oddPet] []).toJson.render).map fun team =>
          (PurchasePhase.ofTeam rules.config team (.ofGold 10)).replies rules [.endTurn]) =
            some ((PurchasePhase.ofTeam rules.config ⟨[oddPet], []⟩ (.ofGold 10)).replies rules
              [.endTurn]) := by
  obtain ⟨-, -, board, -, -, -, -, -, -, -, battle, turn⟩ := state_round_trips
  refine ⟨staleBoard_inRange, board _ staleBoard_inRange _ (.inl rfl), oddTeam_inRange,
    fun rules => (battle rules ⟨⟨[oddPet], []⟩, ⟨[oddPet], []⟩⟩ _ ?_ ?_).1,
    fun rules => turn rules _ _ _ _ oddTeam_inRange (.inl rfl)⟩
  · intro side
    cases side <;> exact oddTeam_inRange
  · intro side
    cases side with
    | a => exact .inl rfl
    | b => exact .inr rfl

end AutoBattler
