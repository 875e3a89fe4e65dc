import AutoBattler.Proofs.Boards
import AutoBattler.Proofs.Experience
import AutoBattler.Proofs.Records
import AutoBattler.Proofs.Scope

/-!
# Levels and their announcements

A point of experience that earns a level is given first, then the level is told, and only then the
pet has it. An ability that answers may give further points meanwhile, and the level may be
announced again. What the announcements say of a pet from then to now is composed here from what
each point says.
-/
namespace AutoBattler

/-! ## Announcements -/

/-- How often a level of the pet was announced. -/
def levelUps (id : PetId) (told : List EventRecord) : Nat :=
  told.countP fun r => r.Reports .levelUp id

/-- A level of the pet was announced while those that hear of a level of it answered. -/
def Repeats (id : PetId) (told : List EventRecord) : Prop :=
  ∃ before r inner later, told = before ++ r :: (inner ++ later) ∧ r.Reports .levelUp id ∧
    (∀ x ∈ inner, r.depth < x.depth) ∧ 0 < levelUps id inner

/-- Records on one level and below that begin on the level. -/
structure Forest (depth : Nat) (told : List EventRecord) : Prop where
  deeper : ∀ r ∈ told, depth < r.depth
  roots : ∀ r, told.head? = some r → r.depth = depth + 1

section

variable {id : PetId} {depth : Nat} {xs ys inner : List EventRecord} {r : EventRecord}

theorem levelUps_append : levelUps id (xs ++ ys) = levelUps id xs + levelUps id ys :=
  List.countP_append

theorem levelUps_cons : levelUps id (r :: xs) =
    levelUps id xs + if r.Reports .levelUp id then 1 else 0 := by
  unfold levelUps
  rw [List.countP_cons]
  simp

theorem levelUps_le_length : levelUps id xs ≤ xs.length := List.countP_le_length

theorem Repeats.pos (h : Repeats id xs) : 0 < levelUps id xs := by
  obtain ⟨before, r, inner, later, rfl, hr, -, -⟩ := h
  rw [levelUps_append, levelUps_cons, if_pos hr]
  omega

theorem forest_nil : Forest depth [] := ⟨nofun, nofun⟩

theorem Forest.append (h : Forest depth xs) (h' : Forest depth ys) : Forest depth (xs ++ ys) where
  deeper := List.forall_mem_append.2 ⟨h.deeper, h'.deeper⟩
  roots r hr := by
    cases xs with
    | nil => exact h'.roots r hr
    | cons x rest => exact h.roots r hr

theorem Forest.branch (h : Forest (depth + 1) inner) (hr : r.depth = depth + 1) :
    Forest depth (r :: inner) where
  deeper := List.forall_mem_cons.2
    ⟨hr ▸ Nat.lt_succ_self depth, fun x hx => Nat.lt_of_succ_lt (h.deeper x hx)⟩
  roots x hx := by
    cases hx
    exact hr

/-- Nothing of a further forest was told within a record before it. -/
theorem repeats_append (hx : Forest depth xs) (hy : Forest depth ys) :
    Repeats id (xs ++ ys) ↔ Repeats id xs ∨ Repeats id ys := by
  constructor
  · rintro ⟨before, r, inner, later, htold, hr, deeper, again⟩
    rcases append_eq_append_cons htold with ⟨rest, rfl, hrest⟩ | ⟨rest, rfl, hys⟩
    · refine .inl ?_
      rcases List.append_eq_append_iff.1 hrest with ⟨more, rfl, _⟩ | ⟨more, rfl, hys⟩
      · exact ⟨before, r, inner, more, rfl, hr, deeper, again⟩
      · cases more with
        | nil =>
          rw [List.append_nil] at deeper again
          exact ⟨before, r, rest, [], by simp, hr, deeper, again⟩
        | cons y more =>
          have root := hy.roots y (by rw [hys]; rfl)
          have within := deeper y (List.mem_append_right _ List.mem_cons_self)
          have above := hx.deeper r (List.mem_append_right _ List.mem_cons_self)
          omega
    · exact .inr ⟨rest, r, inner, later, hys, hr, deeper, again⟩
  · rintro (⟨before, r, inner, later, rfl, hr, deeper, again⟩ |
      ⟨before, r, inner, later, rfl, hr, deeper, again⟩)
    · exact ⟨before, r, inner, later ++ ys, by simp, hr, deeper, again⟩
    · exact ⟨xs ++ before, r, inner, later, by simp, hr, deeper, again⟩

/-- Below a record a level was announced again, or one was announced below the level of the record. -/
theorem repeats_branch (hi : ∀ x ∈ inner, r.depth < x.depth) :
    Repeats id (r :: inner) ↔ Repeats id inner ∨ r.Reports .levelUp id ∧ 0 < levelUps id inner := by
  constructor
  · rintro ⟨before, r', inner', later, htold, hr, deeper, again⟩
    rcases List.cons_eq_append_iff.1 htold with ⟨rfl, hcons⟩ | ⟨rest, rfl, hrest⟩
    · cases hcons
      refine .inr ⟨hr, ?_⟩
      rw [levelUps_append]
      omega
    · exact .inl ⟨rest, r', inner', later, hrest, hr, deeper, again⟩
  · rintro (⟨before, r', inner', later, rfl, hr, deeper, again⟩ | ⟨hr, again⟩)
    · exact ⟨r :: before, r', inner', later, rfl, hr, deeper, again⟩
    · exact ⟨[], r, inner, [], by simp, hr, hi, again⟩

end

/-! ## How a pet grows -/

/-- What the records between say of a pet with room for the points, from `p` to `q`. -/
structure Climb (id : PetId) (told : List EventRecord) (p q : Pet) : Prop where
  experience : p.experience ≤ q.experience
  level : p.level ≤ q.level
  /-- Who has earned a level gets no point before the level is announced. -/
  waiting : p.level < levelForExperience p.experience → levelUps id told = 0 →
    q.level = p.level ∧ q.experience = p.experience
  once : ¬ Repeats id told → p.level + levelUps id told ≤ q.level ∧ (p.Leveled → q.Leveled)
  settled : p.Settled → q.Settled ∧ q.level ≤ p.level + levelUps id told ∧
    (Repeats id told → q.level < p.level + levelUps id told)

section

variable {id : PetId} {depth : Nat} {told told' : List EventRecord} {p q r : Pet}

/-- A change that leaves level and experience as they are, with nothing told of the pet. -/
theorem Climb.same (hl : q.level = p.level) (he : q.experience = p.experience)
    (h : levelUps id told = 0) : Climb id told p q where
  experience := Nat.le_of_eq he.symm
  level := Nat.le_of_eq hl.symm
  waiting _ _ := ⟨hl, he⟩
  once _ := by
    unfold Pet.Leveled
    rw [h, hl, he]
    exact ⟨Nat.le_refl _, fun hp => hp⟩
  settled hp := by
    unfold Pet.Settled
    rw [h, hl, he]
    exact ⟨hp, Nat.le_refl _, fun hr => absurd hr.pos (by omega)⟩

theorem Climb.trans (hf : Forest depth told) (hf' : Forest depth told') (h : Climb id told p q)
    (h' : Climb id told' q r) : Climb id (told ++ told') p r where
  experience := Nat.le_trans h.experience h'.experience
  level := Nat.le_trans h.level h'.level
  waiting hp hn := by
    rw [levelUps_append] at hn
    obtain ⟨hl, he⟩ := h.waiting hp (by omega)
    obtain ⟨hl', he'⟩ := h'.waiting (by rw [hl, he]; exact hp) (by omega)
    exact ⟨hl'.trans hl, he'.trans he⟩
  once hn := by
    rw [repeats_append hf hf', not_or] at hn
    rw [levelUps_append]
    have first := h.once hn.1
    have second := h'.once hn.2
    exact ⟨by omega, fun hp => second.2 (first.2 hp)⟩
  settled hp := by
    rw [repeats_append hf hf', levelUps_append]
    obtain ⟨hq, hle, hlt⟩ := h.settled hp
    obtain ⟨hr, hle', hlt'⟩ := h'.settled hq
    refine ⟨hr, by omega, ?_⟩
    rintro (hn | hn)
    · have := hlt hn
      omega
    · have := hlt' hn
      omega

/-- A point that earns no level. -/
theorem Climb.point (hp : p.Ranked) (hl : q.level = p.level) (he : q.experience = p.experience + 1)
    (hearned : levelForExperience q.experience ≤ q.level) : Climb id [] p q where
  experience := by omega
  level := Nat.le_of_eq hl.symm
  waiting hw _ := by
    have := levelForExperience_mono (show p.experience ≤ q.experience by omega)
    omega
  once _ := by
    have := levelForExperience_mono (show p.experience ≤ q.experience by omega)
    refine ⟨Nat.le_of_eq hl.symm, fun _ => ?_⟩
    have := hp.earned
    unfold Pet.Leveled
    omega
  settled _ := by
    refine ⟨fun hone => ?_, Nat.le_of_eq hl, fun hr => absurd hr.pos (Nat.lt_irrefl 0)⟩
    have := levelForExperience_cases q.experience
    omega

/-- A point that earns a level, with what is told while the level is announced. Whatever the pet
has become meanwhile, it gets that level. -/
theorem Climb.announced {heading : EventRecord} {grown answered : Pet} (hp : p.Ranked)
    (hl : grown.level = p.level) (he : grown.experience = p.experience + 1)
    (hearned : p.level < levelForExperience grown.experience)
    (hr : heading.Reports .levelUp id) (hi : ∀ x ∈ told, heading.depth < x.depth)
    (h : Climb id told grown answered) (hq : q.level = levelForExperience grown.experience)
    (hx : q.experience = answered.experience) : Climb id (heading :: told) p q := by
  have count : levelUps id (heading :: told) = levelUps id told + 1 := by
    rw [levelUps_cons, if_pos hr]
  have again : Repeats id (heading :: told) ↔ 0 < levelUps id told := by
    rw [repeats_branch hi]
    exact ⟨fun hn => hn.elim Repeats.pos And.right, fun hn => .inr ⟨hr, hn⟩⟩
  have kept := h.experience
  have low := hp.low
  have high := levelForExperience_le grown.experience
  constructor
  · omega
  · omega
  · omega
  · rw [again, count]
    intro hn
    refine ⟨by omega, fun _ => ?_⟩
    have waited := h.waiting (by omega) (by omega)
    unfold Pet.Leveled
    rw [hx, waited.2, hq]
  · rw [again, count]
    intro hs
    have gained : q.level ≤ p.level + 1 := by
      by_cases hone : p.level = 1
      · have few := hs hone
        have := levelForExperience_cases grown.experience
        omega
      · omega
    exact ⟨fun hone => by omega, by omega, fun hn => by omega⟩

/-- The record of an event that announces no level of the pet. -/
theorem Climb.branch {heading : EventRecord} (hr : ¬ heading.Reports .levelUp id)
    (hi : ∀ x ∈ told, heading.depth < x.depth) (h : Climb id told p q) :
    Climb id (heading :: told) p q := by
  have count : levelUps id (heading :: told) = levelUps id told := by
    rw [levelUps_cons, if_neg hr]
    rfl
  have again : Repeats id (heading :: told) ↔ Repeats id told := by
    rw [repeats_branch hi]
    exact ⟨fun hn => hn.resolve_right fun hb => hr hb.1, .inl⟩
  exact ⟨h.experience, h.level, count ▸ h.waiting, by rw [count, again]; exact h.once,
    by rw [count, again]; exact h.settled⟩

end

/-- What the records between say of any pet. -/
structure Follows (id : PetId) (told : List EventRecord) (p q : Pet) : Prop where
  learns : p.Learns (levelUps id told) q
  climb : p.HasRoom (levelUps id told) → p.Ranked → Climb id told p q

section

variable {id : PetId} {depth : Nat} {told told' : List EventRecord} {p q r : Pet}

theorem Follows.same (hl : q.level = p.level) (he : q.experience = p.experience)
    (h : levelUps id told = 0) : Follows id told p q :=
  ⟨.same _ hl he, fun _ _ => .same hl he h⟩

theorem Follows.trans (hf : Forest depth told) (hf' : Forest depth told') (h : Follows id told p q)
    (h' : Follows id told' q r) : Follows id (told ++ told') p r where
  learns := by
    rw [levelUps_append]
    exact h.learns.trans h'.learns
  climb hp hranked := by
    rw [levelUps_append] at hp
    have first := hp.mono (Nat.le_add_right ..)
    exact (h.climb first hranked).trans hf hf'
      (h'.climb (h.learns.room hp) (h.learns.level first hranked).2)

theorem Follows.point (h : ¬ maxLevel ≤ p.level) (he : p.gainPoint.earnedLevel? = none) :
    Follows id [] p p.gainPoint where
  learns := Pet.learns_point h he
  climb hp hranked := .point hranked (Pet.level_gainPoint h).1 (Pet.experience_gainPoint h hp)
    (Pet.not_earned_of_earnedLevel? he)

theorem Follows.announced {heading : EventRecord} {level : Nat} (h : ¬ maxLevel ≤ p.level)
    (he : p.gainPoint.earnedLevel? = some level) (hr : heading.Reports .levelUp id)
    (hi : ∀ x ∈ told, heading.depth < x.depth) (hq : Follows id told p.gainPoint q) :
    Follows id (heading :: told) p (q.promote level) := by
  have count : levelUps id (heading :: told) = levelUps id told + 1 := by
    rw [levelUps_cons, if_pos hr]
  constructor
  · rw [count]
    exact hq.learns.announced h he
  · rw [count]
    intro hp hranked
    obtain ⟨rfl, higher⟩ := Pet.earned_of_earnedLevel? he
    have room : p.gainPoint.HasRoom (levelUps id told) :=
      (Pet.learns_gainPoint h).room (by rwa [Nat.add_comm])
    refine .announced hranked (Pet.level_gainPoint h).1 (Pet.experience_gainPoint h hp) ?_ hr hi
      (hq.climb room (hranked.gainPoint h hp)) (Pet.level_promote _ _) rfl
    rwa [(Pet.level_gainPoint h).1] at higher

theorem Follows.branch {heading : EventRecord} (hr : ¬ heading.Reports .levelUp id)
    (hi : ∀ x ∈ told, heading.depth < x.depth) (h : Follows id told p q) :
    Follows id (heading :: told) p q := by
  have count : levelUps id (heading :: told) = levelUps id told := by
    rw [levelUps_cons, if_neg hr]
    rfl
  constructor
  · rw [count]
    exact h.learns
  · rw [count]
    exact fun hp hranked => (h.climb hp hranked).branch hr hi

end

/-! ## Changes of a pet that leave its level -/

section

variable {S : Scope} {c : Catalog} {f : Pet → Pet}

theorem level_copyStats (donor : Pet) (copyAttack copyHealth : Bool) (p : Pet) :
    (Resolve.copyStats donor copyAttack copyHealth p).level = p.level ∧
      (Resolve.copyStats donor copyAttack copyHealth p).experience = p.experience := by
  cases copyAttack <;> cases copyHealth <;> exact ⟨rfl, rfl⟩

theorem level_edit (hf : Edit c S f) (p : Pet) :
    (f p).level = p.level ∧ (f p).experience = p.experience := by
  cases hf with
  | copy _ _ => exact level_copyStats _ _ _ p
  | _ => exact ⟨rfl, rfl⟩

theorem Summons.leveled_pet (request : Summons) (kind : PetKind) : (request.pet kind).Leveled := by
  obtain ⟨_, _, attack, health, level⟩ := request
  unfold Summons.pet
  cases level with
  | none =>
    have base := Pet.leveled_ofKind kind
    cases attack <;> cases health <;> exact base
  | some level =>
    have base := Pet.leveled_withLevel level (Pet.ofKind kind)
    cases attack <;> cases health <;> exact base

theorem leveled_newcomer {p : Pet} (h : Newcomer c S p) : p.Leveled := by
  cases h with
  | plain _ _ => exact Summons.leveled_pet _ _
  | @inheriting request kind _ _ _ _ => exact Summons.leveled_pet request kind

end

/-! ## Boards -/

namespace Board

variable {b b' b'' : Board} {id new : PetId} {side : Side} {pet p q : Pet} {f : Pet → Pet}
  {depth : Nat} {told told' : List EventRecord}

/-- The pet was stored before, or is an admitted newcomer. -/
def Origin (admitted : Pet → Prop) (b : Board) (id : PetId) (p : Pet) : Prop :=
  b.pet? id = some p ∨ b.pet? id = none ∧ admitted p

/-- What the records say of all pets that are stored in the end. -/
structure Course (told : List EventRecord) (b b' : Board) : Prop where
  stays : ∀ id, b'.pet? id = none → b.pet? id = none ∧ levelUps id told = 0
  grown : ∀ id q, b'.pet? id = some q → ∃ p, b.Origin Pet.Leveled id p ∧ Follows id told p q

theorem Course.refl (b : Board) : Course [] b b where
  stays _ h := ⟨h, rfl⟩
  grown _ q h := ⟨q, .inl h, .same rfl rfl rfl⟩

theorem Course.trans (hf : Forest depth told) (hf' : Forest depth told') (h : Course told b b')
    (h' : Course told' b' b'') : Course (told ++ told') b b'' where
  stays id hnone := by
    obtain ⟨hnone, hn'⟩ := h'.stays id hnone
    obtain ⟨hnone, hn⟩ := h.stays id hnone
    exact ⟨hnone, by rw [levelUps_append, hn, hn']⟩
  grown id r hr := by
    obtain ⟨q, hq | ⟨hnone, hq⟩, follows'⟩ := h'.grown id r hr
    · obtain ⟨p, hp, follows⟩ := h.grown id q hq
      exact ⟨p, hp, follows.trans hf hf' follows'⟩
    · obtain ⟨hnone, hn⟩ := h.stays id hnone
      exact ⟨q, .inr ⟨hnone, hq⟩, (Follows.same rfl rfl hn).trans hf hf' follows'⟩

/-- The record of an event that announces no level. -/
theorem Course.branch {heading : EventRecord} (hr : heading.trigger ≠ .levelUp)
    (hi : ∀ x ∈ told, heading.depth < x.depth) (h : Course told b b') :
    Course (heading :: told) b b' where
  stays id hnone := by
    obtain ⟨hnone, hn⟩ := h.stays id hnone
    exact ⟨hnone, by rw [levelUps_cons, if_neg fun hh => hr hh.1, hn]⟩
  grown id q hq := by
    obtain ⟨p, hp, follows⟩ := h.grown id q hq
    exact ⟨p, hp, follows.branch (fun hh => hr hh.1) hi⟩

theorem pet?_modifyPet_eq_none {x : PetId} :
    (b.modifyPet id f).pet? x = none ↔ b.pet? x = none := by
  rw [pet?_modifyPet]
  split
  · exact Option.map_eq_none_iff
  · rfl

/-- A change of one pet of which nothing is told. -/
theorem Course.modifyPet (hf : ∀ p, b.pet? id = some p → Follows id [] p (f p)) :
    Course [] b (b.modifyPet id f) where
  stays x hx := ⟨pet?_modifyPet_eq_none.1 hx, rfl⟩
  grown x q hq := by
    obtain ⟨p, hp, rfl | ⟨rfl, rfl⟩⟩ := pet?_of_modifyPet hq
    · exact ⟨q, .inl hp, .same rfl rfl rfl⟩
    · exact ⟨p, .inl hp, hf p hp⟩

/-- The pet that was changed is where its course begins. -/
theorem Course.from_modifyPet (h : Course told (b.modifyPet id f) b') (hp : b.pet? id = some p)
    (hq : b'.pet? id = some q) : Follows id told (f p) q := by
  have changed : (b.modifyPet id f).pet? id = some (f p) := by
    rw [pet?_modifyPet, if_pos rfl, hp, Option.map_some]
  obtain ⟨old, hold | ⟨hnone, _⟩, follows⟩ := h.grown id q hq
  · rw [changed] at hold
    cases hold
    exact follows
  · rw [changed] at hnone
    cases hnone

variable {level : Nat}

/-- A point that earns a level, the announcement of the level, and the level. -/
theorem Course.announced {heading : EventRecord} (hp : b.pet? id = some p)
    (hmax : ¬ maxLevel ≤ p.level) (hearned : p.gainPoint.earnedLevel? = some level)
    (ht : heading.trigger = .levelUp) (hs : heading.source = some id)
    (hi : ∀ x ∈ told, heading.depth < x.depth)
    (h : Course told (b.modifyPet id Pet.gainPoint) b') :
    Course (heading :: told) b (b'.modifyPet id (Pet.promote level)) := by
  have others : ∀ x, x ≠ id → ¬ heading.Reports .levelUp x := by
    rintro x hx ⟨_, hid⟩
    rw [hs] at hid
    exact hx (Option.some.inj hid).symm
  constructor
  · intro x hx
    obtain ⟨hstored, hn⟩ := h.stays x (pet?_modifyPet_eq_none.1 hx)
    have hnone : b.pet? x = none := pet?_modifyPet_eq_none.1 hstored
    have hne : x ≠ id := by
      intro heq
      rw [heq, hp] at hnone
      cases hnone
    exact ⟨hnone, by rw [levelUps_cons, if_neg (others x hne), hn]⟩
  · intro x q hq
    rw [pet?_modifyPet] at hq
    by_cases hx : x = id
    · subst hx
      rw [if_pos rfl] at hq
      obtain ⟨old, hold, rfl⟩ := Option.map_eq_some_iff.1 hq
      exact ⟨p, .inl hp, .announced hmax hearned ⟨ht, hs⟩ hi (h.from_modifyPet hp hold)⟩
    · rw [if_neg hx] at hq
      obtain ⟨old, origin, follows⟩ := h.grown x q hq
      refine ⟨old, ?_, follows.branch (others x hx) hi⟩
      unfold Origin at origin ⊢
      rwa [pet?_modifyPet, if_neg hx] at origin

theorem Stores.pet?_eq_none (h : b.WellFormed) (hs : Stores b side pet id b') :
    b.pet? id = none := by
  have hnone : ¬ (b.entrant? id).isSome = true := by
    rw [h.stored, hs.number]
    exact Nat.lt_irrefl _
  unfold Board.pet?
  rw [Option.not_isSome_iff_eq_none.1 hnone]
  rfl

/-- Where a newcomer is stored, the others are those that were stored before. -/
theorem Stores.origin {admitted : Pet → Prop} (h : b.WellFormed) (hs : Stores b side pet id b')
    (hp : admitted pet) :
    (∀ x, b'.pet? x = none → b.pet? x = none) ∧
      ∀ x q, b'.pet? x = some q → b.Origin admitted x q := by
  constructor
  · intro x hx
    rw [hs.pet?] at hx
    split at hx
    · cases hx
    · exact hx
  · intro x q hq
    rw [hs.pet?] at hq
    split at hq
    · rename_i hx
      cases hq
      exact .inr ⟨hx ▸ hs.pet?_eq_none h, hp⟩
    · exact .inl hq

theorem Course.stores (h : b.WellFormed) (hs : Stores b side pet id b') (hp : pet.Leveled) :
    Course [] b b' := by
  obtain ⟨stays, origin⟩ := hs.origin h hp
  exact ⟨fun x hx => ⟨stays x hx, rfl⟩, fun x q hq => ⟨q, origin x q hq, .same rfl rfl rfl⟩⟩

theorem Course.leave (hl : Leaves b id side b') : Course [] b b' where
  stays x hx := ⟨hl.pet? x ▸ hx, rfl⟩
  grown x q hq := ⟨q, .inl (hl.pet? x ▸ hq), .same rfl rfl rfl⟩

/-! ## Whatever is told -/

/-- How all pets go on that are stored in the end, with at most `n` announced levels each. -/
structure Advances (admitted : Pet → Prop) (n : Nat) (b b' : Board) : Prop where
  stays : ∀ id, b'.pet? id = none → b.pet? id = none
  grown : ∀ id q, b'.pet? id = some q → ∃ p, b.Origin admitted id p ∧ p.Learns n q

section

variable {admitted admitted' : Pet → Prop} {n m : Nat}

theorem Advances.refl (b : Board) : Advances admitted 0 b b where
  stays _ h := h
  grown _ q h := ⟨q, .inl h, .same 0 rfl rfl⟩

theorem Course.advances (h : Course told b b') : Advances Pet.Leveled told.length b b' where
  stays id hnone := (h.stays id hnone).1
  grown id q hq := by
    obtain ⟨p, hp, follows⟩ := h.grown id q hq
    exact ⟨p, hp, follows.learns.mono levelUps_le_length⟩

theorem Advances.mono (h : Advances admitted n b b') (hn : n ≤ m) : Advances admitted m b b' where
  stays := h.stays
  grown id q hq := by
    obtain ⟨p, hp, learns⟩ := h.grown id q hq
    exact ⟨p, hp, learns.mono hn⟩

theorem Advances.imp (h : Advances admitted n b b') (ha : ∀ p, admitted p → admitted' p) :
    Advances admitted' n b b' where
  stays := h.stays
  grown id q hq := by
    obtain ⟨p, hp, learns⟩ := h.grown id q hq
    exact ⟨p, hp.imp_right fun new => ⟨new.1, ha p new.2⟩, learns⟩

theorem Advances.trans (h : Advances admitted n b b') (h' : Advances admitted m b' b'') :
    Advances admitted (n + m) b b'' where
  stays id hnone := h.stays id (h'.stays id hnone)
  grown id r hr := by
    obtain ⟨q, hq | ⟨hnone, hq⟩, learns'⟩ := h'.grown id r hr
    · obtain ⟨p, hp, learns⟩ := h.grown id q hq
      exact ⟨p, hp, learns.trans learns'⟩
    · exact ⟨q, .inr ⟨h.stays id hnone, hq⟩, learns'.mono (Nat.le_add_left ..)⟩

/-- One point for a pet, whatever is announced of it. -/
theorem advances_gainPoint (hp : b.pet? id = some p) (hmax : ¬ maxLevel ≤ p.level) :
    Advances admitted 1 b (b.modifyPet id Pet.gainPoint) where
  stays x hx := pet?_modifyPet_eq_none.1 hx
  grown x q hq := by
    obtain ⟨old, hold, rfl | ⟨rfl, rfl⟩⟩ := pet?_of_modifyPet hq
    · exact ⟨q, .inl hold, .same 1 rfl rfl⟩
    · rw [hp] at hold
      cases hold
      exact ⟨p, .inl hp, Pet.learns_gainPoint hmax⟩

theorem Advances.stores (h : b.WellFormed) (hs : Stores b side pet id b') (hp : admitted pet) :
    Advances admitted 0 b b' := by
  obtain ⟨stays, origin⟩ := hs.origin h hp
  exact ⟨stays, fun x q hq => ⟨q, origin x q hq, .same 0 rfl rfl⟩⟩

/-- A stored pet is stored still, with no less experience if it had room for the points. -/
theorem Advances.experience (h : Advances admitted n b b') (hp : b.pet? id = some p) :
    ∃ q, b'.pet? id = some q ∧ (p.HasRoom n → p.experience ≤ q.experience) := by
  cases hq : b'.pet? id with
  | none =>
    rw [h.stays id hq] at hp
    cases hp
  | some q =>
    obtain ⟨old, hold | ⟨hnone, _⟩, learns⟩ := h.grown id q hq
    · rw [hp] at hold
      cases hold
      exact ⟨q, rfl, learns.experience⟩
    · rw [hp] at hnone
      cases hnone

/-- Every stored pet came at the level that its experience was worth, and at most `n` levels of it
were announced since. -/
def CameLeveled (n : Nat) (b : Board) : Prop :=
  ∀ id q, b.pet? id = some q → ∃ p : Pet, p.Leveled ∧ p.Learns n q

theorem CameLeveled.advances (h : b.CameLeveled n) (hb : Advances Pet.Leveled m b b') :
    b'.CameLeveled (n + m) := by
  intro id r hr
  obtain ⟨q, hq | ⟨_, hq⟩, learns'⟩ := hb.grown id r hr
  · obtain ⟨p, hp, learns⟩ := h id q hq
    exact ⟨p, hp, learns.trans learns'⟩
  · exact ⟨q, hq, learns'.mono (Nat.le_add_left ..)⟩

theorem CameLeveled.mono (h : b.CameLeveled n) (hn : n ≤ m) : b.CameLeveled m := by
  intro id q hq
  obtain ⟨p, hp, learns⟩ := h id q hq
  exact ⟨p, hp, learns.mono hn⟩

theorem hasRoom_of_leveled (hp : p.Leveled) (hn : 5 + n < 4294967295) : p.HasRoom n := by
  unfold Pet.Leveled at hp
  unfold Pet.HasRoom maxLevel
  have := levelForExperience_cases p.experience
  omega

/-- While few levels were announced all pets have earned theirs, and there is room for more. -/
theorem CameLeveled.room (h : b.CameLeveled n) (hn : 5 + (n + m) < 4294967295)
    (hq : b.pet? id = some q) : q.HasRoom m ∧ q.Ranked := by
  obtain ⟨p, hp, learns⟩ := h id q hq
  have room := hasRoom_of_leveled hp hn
  exact ⟨learns.room room, (learns.level (room.mono (Nat.le_add_right ..)) hp.ranked).2⟩

theorem cameLeveled_empty : empty.CameLeveled 0 := by
  intro id p hp
  simp [pet?, entrant?, empty] at hp

theorem cameLeveled_enlist (h : b.CameLeveled 0) (hw : b.WellFormed) (side : Side) {pets : List Pet}
    (hp : ∀ pet ∈ pets, pet.Leveled) : (b.enlist side pets).CameLeveled 0 := by
  have kept : ∀ b pet id b', b.WellFormed ∧ b.CameLeveled 0 → pet ∈ pets →
      Arrives b side pet id b' → b'.WellFormed ∧ b'.CameLeveled 0 := fun _ pet _ _ hb hm ha =>
    ⟨ha.wellFormed hb.1, hb.2.advances (Course.stores hb.1 ha.toStores (hp pet hm)).advances⟩
  exact (enlist_induction (B := fun b => b.WellFormed ∧ b.CameLeveled 0) ⟨hw, h⟩ kept).2

end

end Board

end AutoBattler
