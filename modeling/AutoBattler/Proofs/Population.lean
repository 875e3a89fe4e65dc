import AutoBattler.Proofs.Histories
import AutoBattler.Proofs.Records

/-!
# Population accounting

The records of arrivals and faints are those of the pets that joined a line and left it, each once.
Every change of a roster comes with the event that makes it known: a spawned pet is announced, a
removed one faints, and a pet that evolves leaves its place to another. Between the change and its
event a notice is due.
-/
namespace AutoBattler

/-! ## Notices -/

/-- That a pet has joined the line of a side, or has left it fainted. -/
structure Notice where
  trigger : Trigger
  side : Side
  pet : Option PetId
deriving DecidableEq

/-- Notices of a trigger for a side, one of each pet. -/
def Notice.each (trigger : Trigger) (side : Side) (ids : List PetId) : List Notice :=
  ids.map fun id => ⟨trigger, side, some id⟩

/-- The number of notices of a trigger for a side. -/
def Notice.count (notices : List Notice) (trigger : Trigger) (side : Side) : Nat :=
  notices.countP fun n => decide (n.trigger = trigger ∧ n.side = side)

theorem Notice.count_each (trigger trigger' : Trigger) (side : Side) (ids : List PetId) :
    Notice.count (Notice.each trigger side ids) trigger' side =
      if trigger = trigger' then ids.length else 0 := by
  unfold count each
  rw [List.countP_map]
  split
  · rename_i same
    exact List.countP_eq_length.2 fun _ _ => decide_eq_true ⟨same, rfl⟩
  · rename_i other
    exact List.countP_eq_zero.2 fun _ _ => by simp [other]

/-- What a record makes known about a line. -/
def EventRecord.notice? (r : EventRecord) : Option Notice :=
  if r.trigger = .summoned ∨ r.trigger = .faint then some ⟨r.trigger, r.side, r.source⟩ else none

/-- What an event makes known about a line. -/
def Event.notices (event : Event) : List Notice := (event.record 0).notice?.toList

namespace EventLog

/-- All that the log makes known about the lines. -/
def notices (log : EventLog) : List Notice := log.records.toList.filterMap EventRecord.notice?

/-- The number of records of a trigger told to a side. -/
def told (log : EventLog) (trigger : Trigger) (side : Side) : Nat :=
  log.records.toList.countP fun r => decide (r.trigger = trigger ∧ r.side = side)

theorem notices_eq (log : EventLog) : log.notices = log.headings.filterMap EventRecord.notice? := by
  unfold notices headings
  rw [List.filterMap_map]
  rfl

theorem notices_openRecord {log : EventLog} (h : log.enabled = true) (event : Event) (depth : Nat) :
    (log.openRecord (event.record depth)).2.notices = log.notices ++ event.notices := by
  rw [notices_eq, headings_openRecord h, List.filterMap_append, ← notices_eq]
  rfl

/-- As many records of arrivals, or of faints, as notices. -/
theorem told_eq {trigger : Trigger} (h : trigger = .summoned ∨ trigger = .faint) (log : EventLog)
    (side : Side) : log.told trigger side = Notice.count log.notices trigger side := by
  unfold told Notice.count notices
  rw [List.countP_filterMap]
  apply List.countP_congr
  intro r _
  unfold EventRecord.notice?
  split
  · simp
  · rename_i hnot
    have other : r.trigger ≠ trigger := by
      rintro rfl
      exact hnot h
    simp [other]

end EventLog

/-! ## What operations change in the lines -/

namespace Board

open Notice (count)

variable {b b' : Board} {side : Side} {pet : Pet} {id new : PetId}

/-- What an operation changes in a line, as it is to be made known. -/
def notice? (b : Board) : Operation → Option Notice
  | .spawn side pet placement =>
    (b.spawn? side pet placement).map fun r => ⟨.summoned, side, some r.1⟩
  | .remove id =>
    (b.remove? id).bind fun _ => (b.sideOf? id).map fun side => ⟨.faint, side, some id⟩
  | _ => none

/-- What operations change in the lines. A pet that takes the place of another is none of it. -/
def turnover (b : Board) : List Operation → List Notice
  | [] => []
  | op :: rest => (b.notice? op).toList ++ (b.apply op).2.turnover rest

theorem turnover_append (b : Board) (ops more : List Operation) :
    b.turnover (ops ++ more) = b.turnover ops ++ (b.after ops).turnover more := by
  induction ops generalizing b with
  | nil => rfl
  | cons op rest ih =>
    rw [List.cons_append, turnover, turnover, ih, List.append_assoc]
    rfl

/-- Where a pet takes the place of another, it is a new one of a kind in the catalog. -/
def Operation.Evolves (c : Catalog) : Operation → Prop
  | .replace _ pet => ∃ into kind, c.petKind into = .ok kind ∧ pet = .ofKind kind
  | _ => True

/-- What an operation can do to the lines, and what of it is to be made known. -/
inductive Turned (b : Board) : Option Notice → Board → Prop
  | nothing : Turned b none b
  | arrived {side : Side} {pet : Pet} {id : PetId} {b' : Board} (h : b.Arrives side pet id b') :
    Turned b (some ⟨.summoned, side, some id⟩) b'
  | exchanged {id : PetId} {side : Side} {pet : Pet} {new : PetId} {b' : Board}
    (h : b.Exchanges id side pet new b') : Turned b none b'
  | left {id : PetId} {side : Side} {b' : Board} (h : b.Leaves id side b') :
    Turned b (some ⟨.faint, side, some id⟩) b'
  | changed (id : PetId) (f : Pet → Pet) : Turned b none (b.modifyPet id f)

theorem turned (b : Board) (op : Operation) : b.Turned (b.notice? op) (b.apply op).2 := by
  cases op with
  | spawn side pet placement =>
    dsimp only [apply, notice?]
    cases h : b.spawn? side pet placement with
    | none => exact .nothing
    | some r => exact .arrived (arrives_of_spawn? h)
  | replace id pet =>
    dsimp only [apply, notice?]
    cases h : b.replace? id pet with
    | none => exact .nothing
    | some r =>
      obtain ⟨side, he⟩ := exchanges_of_replace? h
      exact .exchanged he
  | remove id =>
    dsimp only [apply, notice?]
    cases h : b.remove? id with
    | none => exact .nothing
    | some b' =>
      obtain ⟨side, hl⟩ := leaves_of_remove? h
      rw [hl.home]
      exact .left hl
  | change id f => exact .changed id f

/-- What a line gains it gains by arrivals, and what it loses it loses by departures. -/
theorem Turned.length {notice : Option Notice} (h : b.Turned notice b') (s : Side) :
    (b'.roster s).length + count notice.toList .faint s =
      (b.roster s).length + count notice.toList .summoned s := by
  cases h with
  | nothing => rfl
  | arrived h =>
    rw [h.length s]
    unfold count
    split <;> simp_all [eq_comm]
  | exchanged h => exact congrArg (· + 0) (h.length s)
  | left h =>
    rw [← h.length s]
    unfold count
    split <;> simp_all [eq_comm]
  | changed id f => rfl

theorem length_after (b : Board) (ops : List Operation) (s : Side) :
    ((b.after ops).roster s).length + count (b.turnover ops) .faint s =
      (b.roster s).length + count (b.turnover ops) .summoned s := by
  induction ops generalizing b with
  | nil => rfl
  | cons op rest ih =>
    have first := (b.turned op).length s
    have later := ih (b.apply op).2
    unfold count at *
    rw [turnover, List.countP_append, List.countP_append]
    show (((b.apply op).2.after rest).roster s).length + _ = _
    omega

/-- An arrival is of a number not given out before, and a pet that is gone departs no more. -/
theorem mem_turnover (h : b.WellFormed) {ops : List Operation} {n : Notice}
    (hn : n ∈ b.turnover ops) : ∃ id, n.pet = some id ∧
      ((n.trigger = .summoned ∧ b.nextId ≤ id.number) ∨ (n.trigger = .faint ∧ ¬ b.Gone id)) := by
  induction ops generalizing b with
  | nil => cases hn
  | cons op rest ih =>
    rcases List.mem_append.1 hn with hn | hn
    · have turned := b.turned op
      rw [Option.mem_toList] at hn
      rw [hn] at turned
      generalize (b.apply op).2 = b' at turned
      cases turned with
      | arrived ha => exact ⟨_, rfl, .inl ⟨rfl, Nat.le_of_eq (congrArg PetId.number ha.number).symm⟩⟩
      | left hl =>
        refine ⟨_, rfl, .inr ⟨rfl, fun gone => ?_⟩⟩
        obtain ⟨_, hstands, _⟩ := hl.line
        exact gone.off _ (List.mem_of_getElem? hstands.place)
    · have applied := b.applied op
      have precedes := applied.precedes h
      obtain ⟨id, hid, ⟨ht, hle⟩ | ⟨ht, hgone⟩⟩ := ih (applied.wellFormed h) hn
      · exact ⟨id, hid, .inl ⟨ht, Nat.le_trans precedes.nextId hle⟩⟩
      · exact ⟨id, hid, .inr ⟨ht, mt (precedes.gone id) hgone⟩⟩

/-- No pet arrives twice and none departs twice. -/
theorem nodup_turnover (h : b.WellFormed) (ops : List Operation) : (b.turnover ops).Nodup := by
  induction ops generalizing b with
  | nil => exact List.nodup_nil
  | cons op rest ih =>
    have wellFormed := (b.applied op).wellFormed h
    refine List.nodup_append'.2 ⟨(b.notice? op).toList_nodup, ih wellFormed, fun n hn hlater => ?_⟩
    obtain ⟨id, hid, later⟩ := mem_turnover wellFormed hlater
    have turned := b.turned op
    rw [Option.mem_toList] at hn
    rw [hn] at turned
    generalize (b.apply op).2 = b' at turned later
    cases turned with
    | arrived ha =>
      cases hid
      rcases later with ⟨_, hle⟩ | ⟨ht, _⟩
      · rw [ha.nextId, ha.number] at hle
        exact Nat.not_succ_le_self _ hle
      · cases ht
    | left hl =>
      cases hid
      rcases later with ⟨ht, _⟩ | ⟨_, hgone⟩
      · cases ht
      · exact hgone (hl.gone h)

end Board

namespace Resolve

/-! ## Notices that are due -/

/-- Operations have led from the first board to that of the arena, and what they changed in the lines
has been made known, but for the notices that are due. -/
structure Announced (c : Catalog) (b₀ : Board) (due : List Notice) (s : Arena) : Prop where
  enabled : s.log.enabled = true
  wellFormed : s.board.WellFormed
  moves : ∃ ops, (∀ op ∈ ops, Board.Operation.Evolves c op) ∧ s.board = b₀.after ops ∧
    (due ++ s.log.notices).Perm (b₀.turnover ops)

variable {c : Catalog} {b₀ : Board} {due : List Notice} {rules : Rules} {raise : Raise}
  {event : Event} {s t : Arena}

namespace Announced

/-- A change of the arena that leaves the board and what was told as they are. -/
theorem congr (h : Announced c b₀ due s) (he : t.log.enabled = s.log.enabled)
    (hl : t.log.notices = s.log.notices) (hb : t.board = s.board) : Announced c b₀ due t where
  enabled := he.trans h.enabled
  wellFormed := hb ▸ h.wellFormed
  moves := by
    rw [hb, hl]
    exact h.moves

/-- One more operation, which makes a notice due if it changes a line. -/
theorem apply (h : Announced c b₀ due s) (op : Board.Operation) (ho : op.Evolves c) :
    Announced c b₀ ((s.board.notice? op).toList ++ due)
      { s with board := (s.board.apply op).2 } where
  enabled := h.enabled
  wellFormed := (s.board.applied op).wellFormed h.wellFormed
  moves := by
    obtain ⟨ops, hops, hb, hperm⟩ := h.moves
    refine ⟨ops ++ [op], List.forall_mem_append.2 ⟨hops, List.forall_mem_singleton.2 ho⟩, ?_, ?_⟩
    · rw [Board.after_append, ← hb]
      rfl
    · rw [Board.turnover_append, ← hb, List.append_assoc]
      have last : s.board.turnover [op] = (s.board.notice? op).toList := List.append_nil _
      rw [last]
      exact List.perm_append_comm.trans (hperm.append_right _)

theorem change (h : Announced c b₀ due s) (id : PetId) (f : Pet → Pet) :
    Announced c b₀ due { s with board := s.board.modifyPet id f } :=
  h.apply (.change id f) trivial

theorem arrive (h : Announced c b₀ due s) {side : Side} {pet : Pet} {id : PetId} {b : Board}
    (ha : s.board.Arrives side pet id b) :
    Announced c b₀ (⟨.summoned, side, some id⟩ :: due) { s with board := b } := by
  obtain ⟨placement, hs⟩ := ha.spawn?
  have later := h.apply (.spawn side pet placement) trivial
  dsimp only [Board.notice?, Board.apply] at later
  rwa [hs] at later

theorem exchange (h : Announced c b₀ due s) {id new : PetId} {side : Side} {into : PetKindId}
    {kind : PetKind} {b : Board} (hk : c.petKind into = .ok kind)
    (he : s.board.Exchanges id side (.ofKind kind) new b) :
    Announced c b₀ due { s with board := b } := by
  have later := h.apply (.replace id (.ofKind kind)) ⟨into, kind, hk, rfl⟩
  dsimp only [Board.notice?, Board.apply] at later
  rwa [he.replace? h.wellFormed] at later

theorem leave (h : Announced c b₀ due s) {id : PetId} {side : Side} {b : Board}
    (hl : s.board.Leaves id side b) :
    Announced c b₀ (⟨.faint, side, some id⟩ :: due) { s with board := b } := by
  have later := h.apply (.remove id) trivial
  dsimp only [Board.notice?, Board.apply] at later
  rwa [hl.remove? h.wellFormed, hl.home] at later

/-- In which order notices are due is of no account. -/
theorem perm (h : Announced c b₀ due s) {due' : List Notice} (hp : due'.Perm due) :
    Announced c b₀ due' s where
  enabled := h.enabled
  wellFormed := h.wellFormed
  moves := by
    obtain ⟨ops, hops, hb, hperm⟩ := h.moves
    exact ⟨ops, hops, hb, (hp.append_right _).trans hperm⟩

/-- The record of an event makes known what was due. -/
theorem opened (h : Announced c b₀ (event.notices ++ due) s) : Announced c b₀ due (s.opened event) where
  enabled := (s.log.enabled_openRecord _).trans h.enabled
  wellFormed := h.wellFormed
  moves := by
    obtain ⟨ops, hops, hb, hperm⟩ := h.moves
    refine ⟨ops, hops, hb, List.Perm.trans ?_ hperm⟩
    show (due ++ (s.log.openRecord (event.record (s.nesting + 1))).2.notices).Perm _
    rw [EventLog.notices_openRecord h.enabled, ← List.append_assoc]
    exact List.perm_append_comm.trans (List.append_assoc _ _ _ ▸ List.Perm.refl _)

theorem closed (h : Announced c b₀ due t) (slot : Option Nat) (notified : List PetId) :
    Announced c b₀ due (t.closed slot notified) := by
  refine h.congr (t.enabled_closed slot notified) ?_ rfl
  rw [EventLog.notices_eq, EventLog.notices_eq, t.headings_closed]

/-- The length of a line by what has been made known and what is due. -/
theorem length (h : Announced c b₀ due s) (side : Side) :
    (s.board.roster side).length + (Notice.count due .faint side + s.log.told .faint side) =
      (b₀.roster side).length + (Notice.count due .summoned side + s.log.told .summoned side) := by
  obtain ⟨ops, _, hb, hperm⟩ := h.moves
  have counts (trigger : Trigger) (ht : trigger = .summoned ∨ trigger = .faint) :
      Notice.count due trigger side + s.log.told trigger side =
        Notice.count (b₀.turnover ops) trigger side := by
    rw [EventLog.told_eq ht]
    unfold Notice.count
    rw [← hperm.countP_eq, List.countP_append]
  rw [counts .faint (.inr rfl), counts .summoned (.inl rfl), hb]
  exact b₀.length_after ops side

end Announced

theorem elementary_announced (c : Catalog) (b₀ : Board) (due : List Notice) :
    Elementary Scope.all c (.same anyway) (Same (Announced c b₀ due)) :=
  elementary_of_congr (fun _ _ _ _ _ => trivial)
    (fun _ _ hs hl _ _ hb => hs.congr (congrArg _ hl) (congrArg _ hl) hb)
    (fun _ hs f _ id => hs.change id f) fun _ _ _ _ => trivial

/-! ## Lines -/

theorem announced_spawn (side : Side) (pet : Pet) (placement : Placement) :
    Triple anyway (Announced c b₀ due) (spawn side pet placement)
      fun id => Announced c b₀ (Notice.each .summoned side id.toList ++ due) := by
  apply Triple.intro
  intro s hs
  unfold spawn
  cases hb : s.board.spawn? side pet placement with
  | none => exact hs
  | some r => exact hs.arrive (Board.arrives_of_spawn? hb)

/-- As many pets join as are still to be announced. -/
theorem announced_spawnCopies (side : Side) (pet : Pet) (placement : Placement) (copies : Nat) :
    Triple anyway (Announced c b₀ due) (spawnCopies side pet placement copies)
      fun ids => Announced c b₀ (Notice.each .summoned side ids ++ due) := by
  induction copies generalizing due with
  | zero => exact couples_pure [] fun _ _ hst => hst
  | succ copies ih =>
    unfold spawnCopies
    refine Couples.bind (announced_spawn side pet placement) fun first => Couples.bind ih fun more => ?_
    apply couples_pure
    rintro s t ⟨rfl, hs⟩
    refine ⟨rfl, hs.perm ?_⟩
    unfold Notice.each
    rw [List.map_append, ← List.append_assoc]
    exact List.perm_append_comm.append_right due

theorem announced_replace (id : PetId) {into : PetKindId} {kind : PetKind}
    (hk : c.petKind into = .ok kind) :
    Triple anyway (Announced c b₀ due) (replace id (.ofKind kind)) fun _ => Announced c b₀ due :=
  triple_replace fun _ hs _ _ _ he => hs.exchange hk he

/-- The pet that is removed has a faint due on its side. -/
theorem announced_remove (id : PetId) (target : Entrant) :
    Triple anyway (fun s => Announced c b₀ due s ∧ s.board.entrant? id = some target) (remove id)
      fun removed =>
        Announced c b₀ (if removed then ⟨.faint, target.side, some id⟩ :: due else due) := by
  apply Triple.intro
  rintro s ⟨hs, htarget⟩
  unfold remove
  cases hb : s.board.remove? id with
  | none => exact hs
  | some b' =>
    obtain ⟨side, hl⟩ := Board.leaves_of_remove? hb
    have home : some target.side = some side := by
      rw [← hl.home, Board.sideOf?, htarget]
      rfl
    obtain rfl : target.side = side := Option.some.inj home
    exact hs.leave hl

/-! ## Events -/

/-- Telling an event makes known what was due for it, and leaves nothing else due. -/
def MakesKnown (c : Catalog) (b₀ : Board) (raise : Raise) : Prop :=
  ∀ due event, Triple anyway (Announced c b₀ (event.notices ++ due)) (raise event)
    fun _ => Announced c b₀ due

theorem MakesKnown.plain (h : MakesKnown c b₀ raise) (ht : event.notices = []) :
    Triple anyway (Announced c b₀ due) (raise event) fun _ => Announced c b₀ due := by
  have told := h due event
  rwa [ht] at told

theorem announced_announce (h : MakesKnown c b₀ raise) (event : Event) (side : Side)
    (ids : List PetId) :
    Triple anyway (Announced c b₀ (Notice.each .summoned side ids ++ due))
      (forEach ids fun id => raise (event.followUp .summoned side id))
      fun _ => Announced c b₀ due := by
  induction ids with
  | nil => exact keeps_pure _
  | cons id rest ih => exact Couples.bind (h _ (event.followUp .summoned side id)) fun _ => ih

theorem announced_followUp (h : MakesKnown c b₀ raise) (lines : Sides (List PetId)) (hit : Hit) :
    Triple anyway (Announced c b₀ due) (followUp raise lines hit) fun _ => Announced c b₀ due := by
  unfold followUp
  split
  · exact keeps_pure _
  · refine Couples.bind (Q := fun b => Same fun s => Announced c b₀ due s ∧ s.board = b)
      (Triple.intro fun s hs => ⟨hs, rfl⟩) fun b => ?_
    split
    · exact couples_pure _ fun s t hst => ⟨hst.1, hst.2.1⟩
    · rename_i target htarget
      split
      · exact (h.plain rfl).weaken (fun _ _ he => he) (fun _ hs => hs.1) fun _ _ hs => hs
      · have removed : Triple anyway (fun s => Announced c b₀ due s ∧ s.board = b) (remove hit.target)
            fun removed => Announced c b₀
              (if removed then ⟨.faint, target.side, some hit.target⟩ :: due else due) :=
          (announced_remove hit.target target).weaken (fun _ _ he => he)
            (fun s hs => ⟨hs.1, hs.2 ▸ htarget⟩) fun _ _ hs => hs
        refine Couples.bind removed fun done => ?_
        cases done with
        | false => exact keeps_pure _
        | true =>
          have faints := h due (attackEvent .faint target.side hit.target lines)
          exact Couples.bind faints fun _ => h.plain rfl

theorem announced_playAttacks (h : MakesKnown rules.catalog b₀ raise) (attacks : List Attack) :
    Triple anyway (Announced rules.catalog b₀ due) (playAttacks rules raise attacks)
      fun _ => Announced rules.catalog b₀ due := by
  have elementary := elementary_announced rules.catalog b₀ due
  apply keeps_playAttacks_of_rounds elementary
  · rintro side attacker trigger (rfl | rfl) <;> exact h.plain rfl
  · intro played _ lines _ slot
    have damage (amount : Int) (id : PetId) : Triple anyway (Announced rules.catalog b₀ due)
        (modifyPet id (Pet.takeDamage amount)) fun _ => Announced rules.catalog b₀ due :=
      Triple.intro fun _ hs => hs.change id _
    exact keeps_playRound elementary rfl damage played (announced_followUp h lines) slot

theorem telling_announced (rules : Rules) (h : MakesKnown rules.catalog b₀ raise)
    (due : List Notice) :
    Telling Scope.all rules rules raise raise (.same anyway)
      (Same (Announced rules.catalog b₀ due)) where
  play _ _ _ _ _ _ _ _ := announced_playAttacks h _
  teach _ _ _ _ _ id :=
    keeps_teach (elementary_announced rules.catalog b₀ due)
      (fun _ => Triple.intro fun _ hs => hs.change id _)
      (fun _ => Triple.intro fun _ hs => hs.change id _) fun _ => h.plain rfl
  bringIn event _ pet _ side _ placement copies := by
    refine Couples.bind (announced_spawnCopies side pet placement copies) fun ids => ?_
    exact Couples.bind (announced_announce h event side ids) fun _ => keeps_pure _
  evolve _ _ _ hk id := announced_replace id hk
  cast _ _ _ _ _ _ _ := h.plain rfl

/-- By induction on the room for nesting: what an event leads to leaves nothing due. -/
theorem makesKnown_dispatchIn (rules : Rules) (b₀ : Board) (room : Nat) :
    MakesKnown rules.catalog b₀ (dispatchIn rules room) := by
  induction room with
  | zero =>
    intro due event
    exact couples_fail fun s t hst => ⟨hst.1, trivial⟩
  | succ room ih =>
    intro due event
    have covers := Scope.covers_all rules.catalog
    have elementary := elementary_announced rules.catalog b₀ due
    have telling := telling_announced rules ih due
    apply Triple.intro
    intro s hs
    apply ends_dispatchIn
    · exact fun _ => trivial
    · exact hs.opened
    · exact fun line => keeps_walk elementary telling covers.effects rfl
        (acts_perform elementary telling covers rfl) trivial line [] line
    · exact fun _ _ _ => trivial
    · exact fun t notified ht => ht.closed _ notified

end Resolve

namespace Battle

variable {rules : Rules} {teams : Sides Team} {b : Battle}

/-- Between the calls of a battle nothing is due. -/
theorem announced_of_sound (hr : rules.config.recordEvents = true) (h : Sound rules teams b) :
    Resolve.Announced rules.catalog (Board.ofTeams teams) [] b.arena := by
  have known := Resolve.makesKnown_dispatchIn rules (Board.ofTeams teams) rules.config.maxDispatchDepth
  have plays : Resolve.PlaysPairs rules Resolve.anyway
      (Resolve.Announced rules.catalog (Board.ofTeams teams) []) :=
    fun attacks _ => Resolve.announced_playAttacks known attacks
  have pops : ∀ s, Resolve.Announced rules.catalog (Board.ofTeams teams) [] s →
      Resolve.Announced rules.catalog (Board.ofTeams teams) []
        { s with queues := Resolve.withoutForemost s.queues } :=
    fun _ hs => hs.congr rfl rfl rfl
  refine h.induct (keeps_opening plays pops fun side => known.plain rfl)
    (Resolve.keeps_attackCycle plays pops) ⟨hr, Board.wellFormed_ofTeams teams, [], nofun, rfl, ?_⟩
  exact List.Perm.refl []

theorem length_of_sound (hr : rules.config.recordEvents = true) (h : Sound rules teams b)
    (side : Side) : (b.arena.board.roster side).length + b.arena.log.told .faint side =
      ((Board.ofTeams teams).roster side).length + b.arena.log.told .summoned side := by
  have length := (announced_of_sound hr h).length side
  unfold Notice.count at length
  rwa [List.countP_nil, List.countP_nil, Nat.zero_add, Nat.zero_add] at length

end Battle

end AutoBattler
