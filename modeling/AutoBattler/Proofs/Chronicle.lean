import AutoBattler.Proofs.Records
import AutoBattler.Proofs.Vitality

/-!
# Chronicles

What a battle tells as a forest of records: each event is followed by what it led to, one level
deeper. A pet faints only where hits are followed up, never in answer to a follow-up; and right
after its faint, with all that the faint led to, stands the knockout.
-/
namespace AutoBattler

open Resolve

/-- The records told on one level and below. Faints stand only where `hits` are followed up. -/
inductive Story : (hits : Bool) → (depth : Nat) → List EventRecord → Prop
  | nil {hits : Bool} {depth : Nat} : Story hits depth []
  | event {hits within : Bool} {depth : Nat} {r : EventRecord} {inner later : List EventRecord}
      (level : r.depth = depth + 1) (notFaint : r.trigger ≠ .faint)
      (notKnockout : r.trigger ≠ .knockout) (calm : within = true → hits = true)
      (told : Story within (depth + 1) inner) (rest : Story hits depth later) :
      Story hits depth (r :: (inner ++ later))
  | faint {depth : Nat} {f k : EventRecord} {inner inner' later : List EventRecord}
      (faints : f.trigger = .faint) (level : f.depth = depth + 1)
      (told : Story false (depth + 1) inner)
      (knocks : k.trigger = .knockout) (level' : k.depth = depth + 1)
      (told' : Story false (depth + 1) inner') (rest : Story true depth later) :
      Story true depth (f :: (inner ++ k :: (inner' ++ later)))

namespace Story

variable {hits : Bool} {depth : Nat} {xs ys : List EventRecord}

theorem append (h : Story hits depth xs) (h' : Story hits depth ys) :
    Story hits depth (xs ++ ys) := by
  induction h with
  | nil => exact h'
  | event level notFaint notKnockout calm told rest _ ih =>
    rw [List.cons_append, List.append_assoc]
    exact .event level notFaint notKnockout calm told (ih h')
  | faint faints level told knocks level' told' rest _ _ ih =>
    rw [List.cons_append, List.append_assoc, List.cons_append, List.append_assoc]
    exact .faint faints level told knocks level' told' (ih h')

theorem deeper (h : Story hits depth xs) : ∀ r ∈ xs, depth < r.depth := by
  induction h with
  | nil => exact nofun
  | event level _ _ _ _ _ ih ih' =>
    refine List.forall_mem_cons.2 ⟨by omega, List.forall_mem_append.2 ⟨fun x hx => ?_, ih'⟩⟩
    exact Nat.lt_of_succ_lt (ih x hx)
  | faint _ level _ _ level' _ _ ih ih' ih'' =>
    refine List.forall_mem_cons.2 ⟨by omega, List.forall_mem_append.2 ⟨fun x hx => ?_, ?_⟩⟩
    · exact Nat.lt_of_succ_lt (ih x hx)
    · refine List.forall_mem_cons.2 ⟨by omega, List.forall_mem_append.2 ⟨fun x hx => ?_, ih''⟩⟩
      exact Nat.lt_of_succ_lt (ih' x hx)

theorem not_faint (h : Story hits depth xs) (hh : hits = false) :
    ∀ r ∈ xs, r.trigger ≠ .faint := by
  induction h with
  | nil => exact nofun
  | @event hits within _ _ _ _ _ notFaint _ calm _ _ ih ih' =>
    have hw : within = false := Bool.eq_false_iff.2 fun hw => by rw [calm hw] at hh; cases hh
    exact List.forall_mem_cons.2 ⟨notFaint, List.forall_mem_append.2 ⟨ih hw, ih' hh⟩⟩
  | faint => cases hh

end Story

/-! ## Faints and knockouts -/

/-- The first of these records that lies no deeper is a knockout on the level. -/
def KnockoutNext (depth : Nat) (later : List EventRecord) : Prop :=
  ∃ inner k rest, later = inner ++ k :: rest ∧ (∀ r ∈ inner, depth < r.depth) ∧
    k.trigger = .knockout ∧ k.depth = depth

/-- The last of these records that lies no deeper is a faint on the level. -/
def FaintBefore (depth : Nat) (earlier : List EventRecord) : Prop :=
  ∃ before f inner, earlier = before ++ f :: inner ∧ (∀ r ∈ inner, depth < r.depth) ∧
    f.trigger = .faint ∧ f.depth = depth

def FaintsFollowed (xs : List EventRecord) : Prop :=
  ∀ before f later, xs = before ++ f :: later → f.trigger = .faint → KnockoutNext f.depth later

def KnockoutsPreceded (xs : List EventRecord) : Prop :=
  ∀ before k later, xs = before ++ k :: later → k.trigger = .knockout → FaintBefore k.depth before

section

variable {xs ys : List EventRecord} {r : EventRecord}

theorem FaintsFollowed.append (h : FaintsFollowed xs) (h' : FaintsFollowed ys) :
    FaintsFollowed (xs ++ ys) := by
  intro before f later hx hf
  rcases append_eq_append_cons hx with ⟨rest, hxs, rfl⟩ | ⟨rest, _, hys⟩
  · obtain ⟨inner, k, last, rfl, deeper, knocks, level⟩ := h _ _ _ hxs hf
    exact ⟨inner, k, last ++ ys, by simp, deeper, knocks, level⟩
  · exact h' _ _ _ hys hf

theorem FaintsFollowed.cons (h : FaintsFollowed xs)
    (hr : r.trigger = .faint → KnockoutNext r.depth xs) : FaintsFollowed (r :: xs) := by
  intro before f later hx hf
  rcases List.cons_eq_append_iff.1 hx with ⟨_, hx⟩ | ⟨tail, _, hx⟩
  · cases hx
    exact hr hf
  · exact h _ _ _ hx hf

theorem KnockoutsPreceded.append (h : KnockoutsPreceded xs) (h' : KnockoutsPreceded ys) :
    KnockoutsPreceded (xs ++ ys) := by
  intro before k later hx hk
  rcases append_eq_append_cons hx with ⟨rest, hxs, _⟩ | ⟨rest, rfl, hys⟩
  · exact h _ _ _ hxs hk
  · obtain ⟨first, f, inner, rfl, deeper, faints, level⟩ := h' _ _ _ hys hk
    exact ⟨xs ++ first, f, inner, by simp, deeper, faints, level⟩

theorem knockoutsPreceded_nil : KnockoutsPreceded [] := by
  intro before k later hx
  simp at hx

theorem knockoutsPreceded_of_ne (hr : r.trigger ≠ .knockout) : KnockoutsPreceded [r] := by
  intro before k later hx hk
  rcases List.cons_eq_append_iff.1 hx with ⟨_, hx⟩ | ⟨tail, _, hx⟩
  · cases hx
    exact absurd hk hr
  · simp at hx

theorem KnockoutsPreceded.concat (h : KnockoutsPreceded xs) (hr : FaintBefore r.depth xs) :
    KnockoutsPreceded (xs ++ [r]) := by
  intro before k later hx hk
  rcases append_eq_append_cons hx with ⟨rest, hxs, _⟩ | ⟨rest, rfl, hys⟩
  · exact h _ _ _ hxs hk
  · rcases List.cons_eq_append_iff.1 hys with ⟨rfl, hlast⟩ | ⟨tail, _, hlast⟩
    · cases hlast
      rw [List.append_nil]
      exact hr
    · simp at hlast

/-- The successor of a faint is a knockout on its level. -/
theorem FaintsFollowed.next (h : FaintsFollowed xs) {i : Nat} (hi : xs[i]? = some r)
    (hr : r.trigger = .faint) : ∃ j k, IsNext xs i j ∧ xs[j]? = some k ∧ k.trigger = .knockout ∧
      k.depth = r.depth := by
  obtain ⟨before, later, rfl, rfl⟩ := eq_append_cons_of_getElem? hi
  obtain ⟨inner, k, rest, rfl, deeper, knocks, level⟩ := h before r later rfl hr
  refine ⟨_, k, isNext_of_append (Nat.le_of_eq level) deeper, ?_, knocks, level⟩
  simp

/-- A knockout is the successor of a faint on its level. -/
theorem KnockoutsPreceded.next (h : KnockoutsPreceded xs) {j : Nat} (hj : xs[j]? = some r)
    (hr : r.trigger = .knockout) : ∃ i f, IsNext xs i j ∧ xs[i]? = some f ∧ f.trigger = .faint ∧
      f.depth = r.depth := by
  obtain ⟨earlier, later, rfl, rfl⟩ := eq_append_cons_of_getElem? hj
  obtain ⟨before, f, inner, rfl, deeper, faints, level⟩ := h earlier r later rfl hr
  rw [← level] at deeper
  have next : IsNext (before ++ f :: (inner ++ r :: later)) before.length
      (before.length + (inner.length + 1)) := isNext_of_append (Nat.le_of_eq level.symm) deeper
  refine ⟨before.length, f, ?_, by simp, faints, level⟩
  rw [List.append_assoc, List.cons_append, List.length_append, List.length_cons]
  exact next

end

namespace Story

variable {hits : Bool} {depth : Nat} {xs : List EventRecord}

theorem faintsFollowed (h : Story hits depth xs) : FaintsFollowed xs := by
  induction h with
  | nil =>
    intro before f later hx
    simp at hx
  | event _ notFaint _ _ _ _ ih ih' => exact (ih.append ih').cons fun hf => absurd hf notFaint
  | @faint depth f k inner inner' later _ level told knocks level' _ _ ih ih' ih'' =>
    have knockout : FaintsFollowed (k :: (inner' ++ later)) :=
      (ih'.append ih'').cons fun hf => by rw [knocks] at hf; cases hf
    refine (ih.append knockout).cons fun _ => ⟨inner, k, inner' ++ later, rfl, ?_, knocks, ?_⟩
    · rw [level]
      exact told.deeper
    · rw [level, level']

theorem knockoutsPreceded (h : Story hits depth xs) : KnockoutsPreceded xs := by
  induction h with
  | nil => exact knockoutsPreceded_nil
  | event _ _ notKnockout _ _ _ ih ih' =>
    exact (knockoutsPreceded_of_ne notKnockout).append (ih.append ih')
  | @faint depth f k inner inner' later faints level told _ level' _ _ ih ih' ih'' =>
    have first : KnockoutsPreceded (f :: inner) :=
      (knockoutsPreceded_of_ne (by rw [faints]; nofun)).append ih
    have preceded : FaintBefore k.depth (f :: inner) := by
      refine ⟨[], f, inner, rfl, ?_, faints, by rw [level, level']⟩
      rw [level']
      exact told.deeper
    have all := (first.concat preceded).append (ih'.append ih'')
    rw [List.append_assoc] at all
    exact all

end Story

/-! ## What is told -/

namespace Resolve

variable {hits within : Bool} {rules : Rules} {raise : Raise} {event : Event} {s t : Arena}

/-- From `s` on the chronicle was continued. -/
abbrev Chronicle (hits : Bool) (s : Arena) : Arena → Prop := Grown (Story hits s.nesting) s

/-- The record of the event with what it led to. -/
def Branch (hits : Bool) (event : Event) (depth : Nat) (told : List EventRecord) : Prop :=
  ∃ inner, Story hits (depth + 1) inner ∧ told = event.record (depth + 1) :: inner

theorem Branch.story {depth : Nat} {told : List EventRecord} (h : Branch within event depth told)
    (calm : within = true → hits = true) (hf : event.trigger ≠ .faint)
    (hk : event.trigger ≠ .knockout) : Story hits depth told := by
  obtain ⟨inner, hi, rfl⟩ := h
  have branch := Story.event (r := event.record (depth + 1)) rfl hf hk calm hi .nil
  rwa [List.append_nil] at branch

/-- Telling an event adds one branch. In answer to a calm event no hits are followed up. -/
def Tells (raise : Raise) : Prop :=
  ∀ event hits s, hits = true ∨ event.IsCalm →
    Ends anyway (fun _ => Grown (Branch hits event s.nesting) s) (raise event s)

theorem Tells.keeps (h : Tells raise) (he : hits = true ∨ event.IsCalm)
    (hf : event.trigger ≠ .faint) (hk : event.trigger ≠ .knockout) :
    Triple anyway (Chronicle hits s) (raise event) fun _ => Chronicle hits s := by
  apply Triple.intro
  intro t ht
  refine (h event hits t he).weaken (fun _ _ he => he) fun _ u hu => ?_
  refine ht.trans hu fun told told' hs hb => hs.append ?_
  rw [ht.nesting] at hb
  exact hb.story id hf hk

/-! ## Follow-ups -/

/-- What the follow-up of a hit tells. -/
inductive Aftermath (target : PetId) (depth : Nat) : List EventRecord → Prop
  | quiet : Aftermath target depth []
  | hurt {event : Event} {told : List EventRecord} (h : event.trigger = .hurt)
      (branch : Branch false event depth told) : Aftermath target depth told
  | faint {event event' : Event} {told told' : List EventRecord} (faints : event.trigger = .faint)
      (source : event.source = some target) (branch : Branch false event depth told)
      (knocks : event'.trigger = .knockout) (branch' : Branch false event' depth told') :
      Aftermath target depth (told ++ told')

theorem Aftermath.story {target : PetId} {depth : Nat} {told : List EventRecord}
    (h : Aftermath target depth told) : Story true depth told := by
  cases h with
  | quiet => exact .nil
  | hurt h branch => exact branch.story nofun (by rw [h]; nofun) (by rw [h]; nofun)
  | @faint event event' _ _ faints _ branch knocks branch' =>
    obtain ⟨inner, hi, rfl⟩ := branch
    obtain ⟨inner', hi', rfl⟩ := branch'
    have story := Story.faint (f := event.record (depth + 1)) (k := event'.record (depth + 1))
      faints rfl hi knocks rfl hi' .nil
    rwa [List.append_nil] at story

theorem ends_followUp (h : Tells raise) (lines : Sides (List PetId)) (hit : Hit) (s : Arena) :
    Ends anyway (fun _ => Grown (Aftermath hit.target s.nesting) s)
      (followUp raise lines hit s) := by
  have told {trigger : Trigger} (ht : ¬ trigger.IsLoud) (side : Side) (source : PetId) (s : Arena) :=
    h _ false s (.inr (isCalm_attackEvent ht side source lines))
  unfold followUp
  by_cases hlost : hit.lost ≤ 0
  · rw [if_pos hlost]
    exact Grown.refl .quiet
  · rw [if_neg hlost, bind_run]
    dsimp only [board, look]
    cases s.board.entrant? hit.target with
    | none => exact Grown.refl .quiet
    | some target =>
      dsimp only
      by_cases halive : target.pet.isAlive = true
      · rw [if_pos halive]
        refine (told (by simp [Trigger.IsLoud]) target.side hit.target s).weaken
          (fun _ _ he => he) fun _ t ht => ht.mono fun _ hb => .hurt rfl hb
      · rw [if_neg halive, bind_run]
        unfold Resolve.remove
        cases s.board.remove? hit.target with
        | none => exact Grown.refl .quiet
        | some b =>
          refine (told (by simp [Trigger.IsLoud]) target.side hit.target
            { s with board := b }).bind fun _ t ht => ?_
          refine (told (by simp [Trigger.IsLoud]) hit.side hit.attacker t).weaken
            (fun _ _ he => he) fun _ u hu => ?_
          have faint : Grown _ s t := ⟨ht.enabled, ht.nesting, ht.told⟩
          refine faint.trans hu fun xs ys hx hy => ?_
          rw [ht.nesting] at hy
          exact .faint rfl rfl hx rfl hy

/-! ## Whole battles -/

def chronicleScope (hits : Bool) : Scope :=
  ⟨fun event => hits = true ∨ event.IsCalm, fun _ => True, fun _ => True⟩

theorem covers_chronicleScope (hits : Bool) (c : Catalog) : (chronicleScope hits).Covers c :=
  ⟨fun ability _ => ability.effect.every_true, fun event cause he hcause =>
    he.imp_right fun h => ((Event.isCalm_iff event).1 h).2 cause hcause⟩

theorem elementary_chronicle (hits : Bool) (s : Arena) (c : Catalog) :
    Elementary (chronicleScope hits) c (.same anyway) (Same (Chronicle hits s)) :=
  elementary_of_congr (fun _ _ _ _ _ => trivial) (fun _ _ h hl hn _ _ => h.congr hl hn)
    (fun _ h _ _ _ => h.congr rfl rfl) fun _ _ _ _ => trivial

theorem chronicle_playAttacks (h : Tells raise) (attacks : List Attack) :
    Triple anyway (Chronicle true s) (playAttacks rules raise attacks)
      fun _ => Chronicle true s := by
  have elementary := elementary_chronicle true s rules.catalog
  apply keeps_playAttacks_of_rounds elementary
  · rintro side attacker trigger (rfl | rfl)
    · exact h.keeps (.inl rfl) nofun nofun
    · exact h.keeps (.inl rfl) nofun nofun
  · intro played _ lines _ slot
    refine keeps_playRound elementary rfl (fun _ _ => ?_) played (fun hit => ?_) slot
    · exact Triple.intro fun t ht => ht.congr rfl rfl
    · apply Triple.intro
      intro t ht
      refine (ends_followUp h lines hit t).weaken (fun _ _ he => he) fun _ u hu => ?_
      refine ht.trans hu fun told told' hs hb => hs.append ?_
      rw [ht.nesting] at hb
      exact hb.story

theorem telling_chronicle (rules : Rules) (h : Tells raise) (hits : Bool) (s : Arena) :
    Telling (chronicleScope hits) rules rules raise raise (.same anyway)
      (Same (Chronicle hits s)) where
  play event he _ htrigger attacker side targets damage := by
    rcases he with rfl | hcalm
    · exact chronicle_playAttacks h _
    · exact absurd htrigger ((Event.isCalm_iff event).1 hcalm).1
  teach event _ _ _ _ id :=
    keeps_teach (elementary_chronicle hits s rules.catalog)
      (fun _ => Triple.intro fun t ht => ht.congr rfl rfl)
      (fun _ => Triple.intro fun t ht => ht.congr rfl rfl)
      fun side => h.keeps (.inr (event.isCalm_followUp side id (by simp [Trigger.IsLoud])))
        (by rintro ⟨⟩) (by rintro ⟨⟩)
  bringIn event _ pet _ side _ placement copies := by
    refine keeps_bringIn (triple_spawn (fun t ht _ _ _ => ht.congr rfl rfl) placement)
      (fun id => ?_) copies
    exact h.keeps (.inr (event.isCalm_followUp side id (by simp [Trigger.IsLoud])))
      (by rintro ⟨⟩) (by rintro ⟨⟩)
  evolve _ _ _ _ _ := triple_replace fun t ht _ _ _ _ => ht.congr rfl rfl
  cast event he _ _ _ caster side :=
    h.keeps (he.imp_right fun hcalm => Event.isCalm_castEvent hcalm caster side)
      (by rintro ⟨⟩) (by rintro ⟨⟩)

/-- By induction on the room for nesting. -/
theorem tells_dispatchIn (rules : Rules) (room : Nat) : Tells (dispatchIn rules room) := by
  induction room with
  | zero =>
    intro event hits s _
    trivial
  | succ room ih =>
    intro event hits s he
    have elementary := elementary_chronicle hits (s.opened event) rules.catalog
    have telling := telling_chronicle rules ih hits (s.opened event)
    have covers := covers_chronicleScope hits rules.catalog
    refine ends_dispatchIn (F := anyway) (I := Chronicle hits (s.opened event))
      (J := fun _ => Chronicle hits (s.opened event)) (fun _ => trivial) (Grown.refl .nil) (fun line => ?_)
      (fun _ _ _ => trivial) fun t notified ht => ht.closed _ notified
    exact keeps_walk elementary telling covers.effects rfl (acts_perform elementary telling covers rfl) he
      line [] line

end Resolve

end AutoBattler
