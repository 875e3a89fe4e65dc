import AutoBattler.Board
import Mathlib.Data.List.Nodup

/-!
# Changes of the board

What a change of a pet, an arrival, an exchange and a departure do to the stored pets and to the
rosters. A board is well formed if its numbers are given out in order and every roster lists stored
pets of its own side, each once. Nothing is said about stats.
-/
namespace AutoBattler

theorem Line.eq_of_ids {l l' : Line} (h : l.ids = l'.ids) : l = l' := by
  have members : l.members = l'.members := by
    refine Std.ExtTreeMap.ext_mem_unit fun id => ?_
    rw [l.mem_members, l'.mem_members, h]
  cases l
  cases l'
  cases h
  cases members
  rfl

namespace Board

variable {b b' : Board} {side : Side} {pet : Pet} {id new : PetId} {placement : Placement}

theorem roster_modifyRoster (b : Board) (side : Side) (f : Line → Line) :
    (b.modifyRoster side f).roster side = (f (b.rosters.get side)).ids := by
  unfold modifyRoster roster
  rw [Sides.get_update_self]

theorem roster_modifyRoster_of_ne (b : Board) (f : Line → Line) {s : Side} (h : s ≠ side) :
    (b.modifyRoster side f).roster s = b.roster s := by
  unfold modifyRoster roster
  rw [Sides.get_update_of_ne _ _ h]

theorem pet?_of_entrant? {entrant : Entrant} (h : b.entrant? id = some entrant) :
    b.pet? id = some entrant.pet := by rw [pet?, h, Option.map_some]

/-- A board is told by its numbers, by what is stored and by its lines. -/
theorem eq_of_parts (hn : b.nextId = b'.nextId) (he : ∀ x, b.entrant? x = b'.entrant? x)
    (hr : ∀ side, b.roster side = b'.roster side) : b = b' := by
  have entrants : b.entrants = b'.entrants := Std.ExtTreeMap.ext_getElem? he
  have first := Line.eq_of_ids (hr .a)
  have second := Line.eq_of_ids (hr .b)
  obtain ⟨n, e, ⟨l, m⟩⟩ := b
  obtain ⟨n', e', ⟨l', m'⟩⟩ := b'
  cases hn
  cases entrants
  cases first
  cases second
  rfl

/-! ## Changes of a pet -/

@[simp] theorem roster_modifyPet (b : Board) (id : PetId) (f : Pet → Pet) (s : Side) :
    (b.modifyPet id f).roster s = b.roster s := rfl

@[simp] theorem nextId_modifyPet (b : Board) (id : PetId) (f : Pet → Pet) :
    (b.modifyPet id f).nextId = b.nextId := rfl

theorem entrant?_modifyPet (b : Board) (id : PetId) (f : Pet → Pet) (x : PetId) :
    (b.modifyPet id f).entrant? x =
      if x = id then (b.entrant? x).map fun e => { e with pet := f e.pet } else b.entrant? x := by
  unfold entrant? modifyPet
  rw [Std.ExtTreeMap.getElem?_modify]
  by_cases h : x = id
  · subst h
    rw [if_pos Std.ReflCmp.compare_self, if_pos rfl]
  · rw [if_neg h, if_neg fun hc => h (Std.LawfulEqCmp.eq_of_compare hc).symm]

@[simp] theorem sideOf?_modifyPet (b : Board) (id : PetId) (f : Pet → Pet) (x : PetId) :
    (b.modifyPet id f).sideOf? x = b.sideOf? x := by
  unfold sideOf?
  rw [entrant?_modifyPet]
  split
  · cases b.entrant? x <;> rfl
  · rfl

theorem pet?_modifyPet (b : Board) (id : PetId) (f : Pet → Pet) (x : PetId) :
    (b.modifyPet id f).pet? x = if x = id then (b.pet? x).map f else b.pet? x := by
  unfold pet?
  rw [entrant?_modifyPet]
  split
  · cases b.entrant? x <;> rfl
  · rfl

/-- A stored pet after the change of one is that one changed or was stored before. -/
theorem pet?_of_modifyPet {f : Pet → Pet} {x : PetId} (h : (b.modifyPet id f).pet? x = some pet) :
    ∃ old, b.pet? x = some old ∧ (pet = old ∨ x = id ∧ pet = f old) := by
  rw [pet?_modifyPet] at h
  split at h
  · rename_i hx
    obtain ⟨old, hold, hf⟩ := Option.map_eq_some_iff.1 h
    exact ⟨old, hold, .inr ⟨hx, hf.symm⟩⟩
  · exact ⟨pet, h, .inl rfl⟩

theorem modifyPet_congr {f g : Pet → Pet} (h : ∀ p, b.pet? id = some p → f p = g p) :
    b.modifyPet id f = b.modifyPet id g := by
  refine eq_of_parts rfl (fun x => ?_) fun _ => rfl
  rw [entrant?_modifyPet, entrant?_modifyPet]
  split
  · rename_i hx
    subst hx
    refine Option.map_congr fun entrant he => ?_
    rw [h _ (pet?_of_entrant? he)]
  · rfl

theorem modifyPet_of_eq {f : Pet → Pet} (h : ∀ p, b.pet? id = some p → f p = p) :
    b.modifyPet id f = b := by
  rw [modifyPet_congr h]
  refine eq_of_parts rfl (fun x => ?_) fun _ => rfl
  rw [entrant?_modifyPet]
  split
  · exact Option.map_id'
  · rfl

theorem modifyPet_eq_of_pet? {f g : Pet → Pet} (hp : b.pet? id = some pet) (h : f pet = g pet) :
    b.modifyPet id f = b.modifyPet id g := by
  apply modifyPet_congr
  intro p hp'
  rw [hp] at hp'
  cases hp'
  exact h

theorem modifyPet_of_pet? {f : Pet → Pet} (hp : b.pet? id = some pet) (h : f pet = pet) :
    b.modifyPet id f = b := by
  apply modifyPet_of_eq
  intro p hp'
  rw [hp] at hp'
  cases hp'
  exact h

@[simp] theorem isAlive_modifyPet (b : Board) (id x : PetId) (f : Pet → Pet) :
    (b.modifyPet id f).isAlive x = b.isAlive x := by
  rw [Bool.eq_iff_iff, isAlive_iff, isAlive_iff]
  simp only [sideOf?_modifyPet, roster_modifyPet]

/-! ## Arrivals -/

theorem entrant?_insert (t : Table PetId Entrant) (id x : PetId) (e : Entrant) :
    (t.insert id e)[x]? = if x = id then some e else t[x]? := by
  rw [Std.ExtTreeMap.getElem?_insert]
  by_cases h : x = id
  · subst h
    rw [if_pos Std.ReflCmp.compare_self, if_pos rfl]
  · rw [if_neg h, if_neg fun hc => h (Std.LawfulEqCmp.eq_of_compare hc).symm]

/-- The pet is stored under the next number. -/
structure Stores (b : Board) (side : Side) (pet : Pet) (id : PetId) (b' : Board) : Prop where
  number : id = ⟨b.nextId⟩
  nextId : b'.nextId = b.nextId + 1
  entrants : ∀ x, b'.entrant? x = if x = id then some ⟨id, side, pet⟩ else b.entrant? x

theorem stores_modifyRoster (b : Board) (side : Side) (pet : Pet) (f : Line → Line) :
    Stores b side pet (b.store side pet).1 ((b.store side pet).2.modifyRoster side f) :=
  ⟨rfl, rfl, fun x => entrant?_insert b.entrants _ x _⟩

/-- The pet has joined the roster of a side that had room for it. -/
structure Arrives (b : Board) (side : Side) (pet : Pet) (id : PetId) (b' : Board) : Prop
    extends Stores b side pet id b' where
  room : b.canAdd side = true
  line : ∃ i, i ≤ (b.roster side).length ∧ b'.roster side = (b.roster side).insertIdx i id
  others : ∀ s, s ≠ side → b'.roster s = b.roster s

theorem arrives_of_spawn? (h : b.spawn? side pet placement = some (id, b')) :
    Arrives b side pet id b' := by
  unfold spawn? at h
  split at h
  · rename_i hroom
    cases h
    refine ⟨stores_modifyRoster b side pet _, hroom, ?_, ?_⟩
    · refine ⟨min (placement.index (b.roster side).length) (b.roster side).length,
        Nat.min_le_right _ _, ?_⟩
      rw [roster_modifyRoster]
      rfl
    · intro s hs
      rw [roster_modifyRoster_of_ne _ _ hs]
      rfl
  · cases h

/-! ## Exchanges and departures -/

/-- The pet stands at a place of the roster of its side. -/
structure Stands (b : Board) (id : PetId) (side : Side) (index : Nat) : Prop where
  home : b.sideOf? id = some side
  place : (b.roster side)[index]? = some id

theorem stands_of_position? {index : Nat} (hs : b.sideOf? id = some side)
    (hp : b.position? id = some index) : Stands b id side index := by
  refine ⟨hs, ?_⟩
  rw [position?, hs, Option.bind_some] at hp
  obtain ⟨hlt, hget, _⟩ := List.idxOf?_eq_some_iff.1 hp
  rw [List.getElem?_eq_getElem hlt, hget]

theorem Stands.lt {index : Nat} (h : Stands b id side index) : index < (b.roster side).length := by
  obtain ⟨hlt, _⟩ := List.getElem?_eq_some_iff.1 h.place
  exact hlt

/-- A new pet has taken the place of the pet. -/
structure Exchanges (b : Board) (id : PetId) (side : Side) (pet : Pet) (new : PetId)
    (b' : Board) : Prop extends Stores b side pet new b' where
  line : ∃ i, Stands b id side i ∧ b'.roster side = (b.roster side).set i new
  others : ∀ s, s ≠ side → b'.roster s = b.roster s

theorem exchanges_of_replace? (h : b.replace? id pet = some (new, b')) :
    ∃ side, Exchanges b id side pet new b' := by
  unfold replace? at h
  obtain ⟨side, hside, h⟩ := Option.bind_eq_some_iff.1 h
  obtain ⟨index, hindex, h⟩ := Option.bind_eq_some_iff.1 h
  cases h
  refine ⟨side, stores_modifyRoster b side pet _, ?_, ?_⟩
  · refine ⟨index, stands_of_position? hside hindex, ?_⟩
    rw [roster_modifyRoster, Line.ids_set]
    rfl
  · intro s hs
    rw [roster_modifyRoster_of_ne _ _ hs]
    rfl

/-- The pet has left its roster and stays stored. -/
structure Leaves (b : Board) (id : PetId) (side : Side) (b' : Board) : Prop where
  nextId : b'.nextId = b.nextId
  entrants : ∀ x, b'.entrant? x = b.entrant? x
  line : ∃ i, Stands b id side i ∧ b'.roster side = (b.roster side).eraseIdx i
  others : ∀ s, s ≠ side → b'.roster s = b.roster s

theorem leaves_of_remove? (h : b.remove? id = some b') : ∃ side, Leaves b id side b' := by
  unfold remove? at h
  obtain ⟨side, hside, h⟩ := Option.bind_eq_some_iff.1 h
  obtain ⟨index, hindex, h⟩ := Option.bind_eq_some_iff.1 h
  cases h
  refine ⟨side, rfl, fun _ => rfl, ⟨index, stands_of_position? hside hindex, ?_⟩, ?_⟩
  · rw [roster_modifyRoster, Line.ids_eraseIdx]
    rfl
  · intro s hs
    exact roster_modifyRoster_of_ne _ _ hs

/-! ## Stored pets after a change -/

theorem Stores.pet? (h : Stores b side pet id b') (x : PetId) :
    b'.pet? x = if x = id then some pet else b.pet? x := by
  unfold Board.pet?
  rw [h.entrants]
  split <;> rfl

theorem Stores.sideOf? (h : Stores b side pet id b') (x : PetId) :
    b'.sideOf? x = if x = id then some side else b.sideOf? x := by
  unfold Board.sideOf?
  rw [h.entrants]
  split <;> rfl

theorem Leaves.pet? (h : Leaves b id side b') (x : PetId) : b'.pet? x = b.pet? x := by
  unfold Board.pet?
  rw [h.entrants]

theorem Leaves.sideOf? (h : Leaves b id side b') (x : PetId) : b'.sideOf? x = b.sideOf? x := by
  unfold Board.sideOf?
  rw [h.entrants]

/-! ## Lines after a change -/

theorem Arrives.perm (h : Arrives b side pet id b') :
    (b'.roster side).Perm (id :: b.roster side) := by
  obtain ⟨i, hi, hline⟩ := h.line
  rw [hline]
  exact List.perm_insertIdx id _ hi

theorem Arrives.mem (h : Arrives b side pet id b') {s : Side} {x : PetId}
    (hm : x ∈ b'.roster s) : x ∈ b.roster s ∨ x = id ∧ s = side := by
  by_cases hs : s = side
  · subst hs
    rcases List.mem_cons.1 (h.perm.mem_iff.1 hm) with rfl | hm
    · exact .inr ⟨rfl, rfl⟩
    · exact .inl hm
  · rw [h.others s hs] at hm
    exact .inl hm

theorem Arrives.length (h : Arrives b side pet id b') (s : Side) :
    (b'.roster s).length = (b.roster s).length + if s = side then 1 else 0 := by
  by_cases hs : s = side
  · subst hs
    rw [if_pos rfl, h.perm.length_eq, List.length_cons]
  · rw [if_neg hs, h.others s hs, Nat.add_zero]

theorem Exchanges.mem (h : Exchanges b id side pet new b') {s : Side} {x : PetId}
    (hm : x ∈ b'.roster s) : x ∈ b.roster s ∨ x = new ∧ s = side := by
  by_cases hs : s = side
  · subst hs
    obtain ⟨i, _, hline⟩ := h.line
    rw [hline] at hm
    exact (List.mem_or_eq_of_mem_set hm).imp_right fun hx => ⟨hx, rfl⟩
  · rw [h.others s hs] at hm
    exact .inl hm

theorem Exchanges.length (h : Exchanges b id side pet new b') (s : Side) :
    (b'.roster s).length = (b.roster s).length := by
  by_cases hs : s = side
  · subst hs
    obtain ⟨i, _, hline⟩ := h.line
    rw [hline, List.length_set]
  · rw [h.others s hs]

theorem Leaves.sublist (h : Leaves b id side b') (s : Side) :
    (b'.roster s).Sublist (b.roster s) := by
  by_cases hs : s = side
  · subst hs
    obtain ⟨i, _, hline⟩ := h.line
    rw [hline]
    exact List.eraseIdx_sublist _ i
  · rw [h.others s hs]

theorem Leaves.length (h : Leaves b id side b') (s : Side) :
    (b'.roster s).length + (if s = side then 1 else 0) = (b.roster s).length := by
  by_cases hs : s = side
  · subst hs
    obtain ⟨i, hstands, hline⟩ := h.line
    have hlt := hstands.lt
    rw [if_pos rfl, hline, List.length_eraseIdx_add_one hlt]
  · rw [if_neg hs, h.others s hs, Nat.add_zero]

theorem Leaves.home (h : Leaves b id side b') : b.sideOf? id = some side := by
  obtain ⟨_, hstands, _⟩ := h.line
  exact hstands.home

/-! ## Well-formed boards -/

structure WellFormed (b : Board) : Prop where
  stored : ∀ id, (b.entrant? id).isSome = true ↔ id.number < b.nextId
  member : ∀ side, ∀ id ∈ b.roster side, b.sideOf? id = some side
  nodup : ∀ side, (b.roster side).Nodup

theorem wellFormed_empty : empty.WellFormed where
  stored id := by
    have h : empty.entrant? id = none := by simp [empty, entrant?]
    rw [h]
    simp [empty]
  member side id h := by cases side <;> cases h
  nodup side := by cases side <;> exact List.nodup_nil

theorem WellFormed.entrant?_isSome (h : b.WellFormed) (hm : id ∈ b.roster side) :
    (b.entrant? id).isSome = true := by
  have hs := h.member side id hm
  unfold Board.sideOf? at hs
  obtain ⟨e, he, _⟩ := Option.map_eq_some_iff.1 hs
  rw [he]
  rfl

theorem WellFormed.pet?_of_mem (h : b.WellFormed) (hm : id ∈ b.roster side) :
    ∃ pet, b.pet? id = some pet := by
  obtain ⟨entrant, he⟩ := Option.isSome_iff_exists.1 (h.entrant?_isSome hm)
  exact ⟨entrant.pet, pet?_of_entrant? he⟩

/-- On a well-formed board every pet of a roster is stored. -/
theorem WellFormed.map_livePets (h : b.WellFormed) (side : Side) :
    (b.livePets side).map some = (b.roster side).map b.pet? := by
  have all (ids : List PetId) (hm : ∀ id ∈ ids, id ∈ b.roster side) :
      (ids.filterMap b.pet?).map some = ids.map b.pet? := by
    induction ids with
    | nil => rfl
    | cons id rest ih =>
      obtain ⟨pet, hpet⟩ := h.pet?_of_mem (hm id List.mem_cons_self)
      rw [List.filterMap_cons_some hpet, List.map_cons, List.map_cons, hpet,
        ih fun id hr => hm id (List.mem_cons_of_mem _ hr)]
  exact all (b.roster side) fun _ hm => hm

theorem WellFormed.number_lt (h : b.WellFormed) (hm : id ∈ b.roster side) :
    id.number < b.nextId := (h.stored id).1 (h.entrant?_isSome hm)

/-- The number given out next stands on no roster. -/
theorem WellFormed.fresh (h : b.WellFormed) : ⟨b.nextId⟩ ∉ b.roster side := by
  intro hm
  have := h.number_lt hm
  exact Nat.lt_irrefl _ this

theorem WellFormed.modifyPet (h : b.WellFormed) (id : PetId) (f : Pet → Pet) :
    (b.modifyPet id f).WellFormed where
  stored x := by
    rw [entrant?_modifyPet, nextId_modifyPet, ← h.stored x]
    split
    · cases b.entrant? x <;> rfl
    · rfl
  member s x hx := by
    rw [sideOf?_modifyPet]
    exact h.member s x hx
  nodup s := h.nodup s

theorem Stores.stored (h : b.WellFormed) (hs : Stores b side pet id b') (x : PetId) :
    (b'.entrant? x).isSome = true ↔ x.number < b'.nextId := by
  rw [hs.entrants, hs.nextId]
  split
  · rename_i hx
    rw [hx, hs.number]
    simp
  · rename_i hx
    rw [h.stored x]
    have hne : x.number ≠ b.nextId := by
      intro heq
      apply hx
      rw [hs.number, ← heq]
    omega

/-- A pet that stands in line does not have the number given out. -/
theorem Stores.ne (h : b.WellFormed) (hs : Stores b side pet id b') {s : Side} {x : PetId}
    (hm : x ∈ b.roster s) : x ≠ id := by
  rintro rfl
  rw [hs.number] at hm
  exact h.fresh hm

theorem Stores.member (h : b.WellFormed) (hs : Stores b side pet id b') {s : Side} {x : PetId}
    (hm : x ∈ b.roster s ∨ x = id ∧ s = side) : b'.sideOf? x = some s := by
  rw [hs.sideOf?]
  rcases hm with hm | ⟨rfl, rfl⟩
  · rw [if_neg (hs.ne h hm)]
    exact h.member s x hm
  · rw [if_pos rfl]

theorem Arrives.wellFormed (h : b.WellFormed) (ha : Arrives b side pet id b') :
    b'.WellFormed where
  stored := ha.toStores.stored h
  member s x hx := ha.toStores.member h (ha.mem hx)
  nodup s := by
    by_cases hs : s = side
    · subst hs
      rw [ha.perm.nodup_iff, List.nodup_cons]
      exact ⟨fun hm => ha.toStores.ne h hm rfl, h.nodup s⟩
    · rw [ha.others s hs]
      exact h.nodup s

theorem Exchanges.wellFormed (h : b.WellFormed) (he : Exchanges b id side pet new b') :
    b'.WellFormed where
  stored := he.toStores.stored h
  member s x hx := he.toStores.member h (he.mem hx)
  nodup s := by
    by_cases hs : s = side
    · subst hs
      obtain ⟨i, _, hline⟩ := he.line
      rw [hline]
      exact (h.nodup s).set fun hm => he.toStores.ne h hm rfl
    · rw [he.others s hs]
      exact h.nodup s

theorem Leaves.wellFormed (h : b.WellFormed) (hl : Leaves b id side b') : b'.WellFormed where
  stored x := by
    rw [hl.entrants, hl.nextId]
    exact h.stored x
  member s x hx := by
    rw [hl.sideOf?]
    exact h.member s x ((hl.sublist s).subset hx)
  nodup s := (h.nodup s).sublist (hl.sublist s)

/-- The pet that has left stands on no roster any more. -/
theorem Leaves.not_mem (h : b.WellFormed) (hl : Leaves b id side b') (s : Side) :
    id ∉ b'.roster s := by
  intro hm
  obtain ⟨i, hstands, hline⟩ := hl.line
  by_cases hs : s = side
  · subst hs
    rw [hline] at hm
    obtain ⟨j, hne, hj⟩ := List.mem_eraseIdx_iff_getElem?.1 hm
    have hij := (List.getElem?_inj hstands.lt (h.nodup s)).1 (hstands.place.trans hj.symm)
    exact hne hij.symm
  · have hother := h.member s id ((hl.sublist s).subset hm)
    rw [hstands.home] at hother
    exact hs (Option.some.inj hother).symm

/-- A pet that cannot be removed stands on no roster. -/
theorem not_mem_of_remove? (h : b.remove? id = none) (hw : b.WellFormed) (s : Side) :
    id ∉ b.roster s := by
  intro hm
  have hs := hw.member s id hm
  have hp : (b.position? id).isSome = true := by
    rw [isSome_position?, isAlive_iff]
    exact ⟨s, hs, hm⟩
  obtain ⟨index, hi⟩ := Option.isSome_iff_exists.1 hp
  simp [remove?, hs, hi] at h

/-! ## Pets that have left their line -/

/-- The pet was placed some time and stands in no line. -/
structure Gone (b : Board) (id : PetId) : Prop where
  placed : id.number < b.nextId
  off : ∀ side, id ∉ b.roster side

variable {x : PetId}

theorem Gone.ne_of_stores (h : b.Gone x) (hs : Stores b side pet id b') : x ≠ id := by
  rintro rfl
  have := h.placed
  rw [hs.number] at this
  exact Nat.lt_irrefl _ this

theorem Gone.arrive (h : b.Gone x) (ha : Arrives b side pet id b') : b'.Gone x where
  placed := by
    rw [ha.nextId]
    exact Nat.lt_succ_of_lt h.placed
  off s hm := by
    rcases ha.mem hm with hm | ⟨hx, _⟩
    · exact h.off s hm
    · exact h.ne_of_stores ha.toStores hx

theorem Gone.exchange (h : b.Gone x) (he : Exchanges b id side pet new b') : b'.Gone x where
  placed := by
    rw [he.nextId]
    exact Nat.lt_succ_of_lt h.placed
  off s hm := by
    rcases he.mem hm with hm | ⟨hx, _⟩
    · exact h.off s hm
    · exact h.ne_of_stores he.toStores hx

theorem Gone.leave (h : b.Gone x) (hl : Leaves b id side b') : b'.Gone x where
  placed := hl.nextId ▸ h.placed
  off s hm := h.off s ((hl.sublist s).subset hm)

/-- The pet that leaves is gone for good. -/
theorem Leaves.gone (h : b.WellFormed) (hl : Leaves b id side b') : b'.Gone id where
  placed := by
    obtain ⟨_, hstands, _⟩ := hl.line
    rw [hl.nextId]
    exact h.number_lt (List.mem_of_getElem? hstands.place)
  off := hl.not_mem h

theorem Gone.not_isAlive (h : b.Gone id) : b.isAlive id = false := by
  rw [Bool.eq_false_iff, Ne, isAlive_iff]
  rintro ⟨side, _, hm⟩
  exact h.off side hm

/-! ## Boards of teams -/

/-- What every arrival of one of the pets keeps holds once all of them have been let in. -/
theorem enlist_induction {B : Board → Prop} {pets : List Pet} (h : B b)
    (step : ∀ b pet id b', B b → pet ∈ pets → Arrives b side pet id b' → B b') :
    B (b.enlist side pets) := by
  unfold enlist
  induction pets generalizing b with
  | nil => exact h
  | cons pet rest ih =>
    rw [List.foldl_cons]
    apply ih
    · cases hs : b.spawn? side pet .front with
      | none => exact h
      | some r => exact step b pet r.1 r.2 h List.mem_cons_self (arrives_of_spawn? hs)
    · intro b pet id b' hb hm ha
      exact step b pet id b' hb (List.mem_cons_of_mem _ hm) ha

theorem WellFormed.enlist (h : b.WellFormed) (side : Side) (pets : List Pet) :
    (b.enlist side pets).WellFormed :=
  enlist_induction h fun _ _ _ _ hb _ ha => ha.wellFormed hb

theorem wellFormed_ofTeams (teams : Sides Team) : (ofTeams teams).WellFormed :=
  (wellFormed_empty.enlist _ _).enlist _ _

theorem wellFormed_ofTeam (team : Team) : (ofTeam team).WellFormed := wellFormed_empty.enlist _ _

/-! ## What holds of all pets -/

/-- Whatever pet is stored under the number satisfies `P`. -/
def PetAt (P : Pet → Prop) (b : Board) (id : PetId) : Prop := ∀ pet, b.pet? id = some pet → P pet

/-- Every stored pet, in line or not, satisfies `P`. -/
def AllPets (P : Pet → Prop) (b : Board) : Prop := ∀ id pet, b.pet? id = some pet → P pet

variable {P : Pet → Prop} {x : PetId}

theorem PetAt.modifyPet (h : b.PetAt P x) (id : PetId) {f : Pet → Pet} (hf : ∀ p, P p → P (f p)) :
    (b.modifyPet id f).PetAt P x := by
  intro p hp
  obtain ⟨old, hold, rfl | ⟨_, rfl⟩⟩ := pet?_of_modifyPet hp
  · exact h _ hold
  · exact hf old (h old hold)

theorem PetAt.stores (h : b.PetAt P x) (hs : Stores b side pet id b') (hp : P pet) :
    b'.PetAt P x := by
  intro p hx
  rw [hs.pet?] at hx
  split at hx
  · cases hx
    exact hp
  · exact h p hx

theorem PetAt.leave (h : b.PetAt P x) (hl : Leaves b id side b') : b'.PetAt P x :=
  fun p hp => h p (hl.pet? x ▸ hp)

theorem AllPets.modifyPet (h : b.AllPets P) (id : PetId) {f : Pet → Pet} (hf : ∀ p, P p → P (f p)) :
    (b.modifyPet id f).AllPets P := fun x => PetAt.modifyPet (h x) id hf

theorem AllPets.stores (h : b.AllPets P) (hs : Stores b side pet id b') (hp : P pet) :
    b'.AllPets P := fun x => PetAt.stores (h x) hs hp

theorem AllPets.leave (h : b.AllPets P) (hl : Leaves b id side b') : b'.AllPets P :=
  fun x => PetAt.leave (h x) hl

theorem allPets_empty (P : Pet → Prop) : empty.AllPets P := by
  intro id pet h
  simp [empty, pet?, entrant?] at h

theorem AllPets.enlist (h : b.AllPets P) (side : Side) {pets : List Pet} (hp : ∀ pet ∈ pets, P pet) :
    (b.enlist side pets).AllPets P :=
  enlist_induction h fun _ pet _ _ hb hm ha => hb.stores ha.toStores (hp pet hm)

end Board

end AutoBattler
