import AutoBattler.Proofs.Clash
import AutoBattler.Proofs.Definedness

/-!
# Lines that face each other

The lines of a board from the front to the back, and what changes of a pet, a departure and an
event told to a side do to them. The numbers of the pets and the pets themselves are listed apart:
telling an event changes the pets only.
-/
namespace AutoBattler

open Resolve (hears)

variable {c : Catalog} {b b' : Board} {side s : Side} {ids walked : List PetId} {pets : List Pet}
  {id source : PetId} {pet : Pet} {event : Event} {ahead : Nat}

/-! ## One line -/

namespace Board

/-- The numbers and the pets of a side from the front to the back. -/
structure Fields (b : Board) (side : Side) (ids : List PetId) (pets : List Pet) : Prop where
  roster : b.roster side = ids.reverse
  home : ∀ id ∈ ids, b.sideOf? id = some side
  nodup : ids.Nodup
  stored : ids.map b.pet? = pets.map some

theorem WellFormed.fields (h : b.WellFormed) (side : Side) :
    b.Fields side (b.roster side).reverse (b.livePets side).reverse where
  roster := (List.reverse_reverse _).symm
  home id hm := h.member side id (List.mem_reverse.1 hm)
  nodup := List.nodup_reverse.2 (h.nodup side)
  stored := by rw [List.map_reverse, List.map_reverse, h.map_livePets]

theorem Fields.livePets (h : b.Fields side ids pets) : b.livePets side = pets.reverse := by
  have listed : ids.filterMap b.pet? = pets :=
    calc ids.filterMap b.pet? = (ids.map b.pet?).filterMap fun p => p := by
          rw [List.filterMap_map]
          rfl
      _ = pets := by
          rw [h.stored, List.filterMap_map]
          exact List.filterMap_some
  unfold Board.livePets
  rw [h.roster, List.filterMap_reverse, listed]

theorem Fields.length (h : b.Fields side ids pets) : ids.length = pets.length := by
  have hl := congrArg List.length h.stored
  rwa [List.length_map, List.length_map] at hl

theorem Fields.pet? (h : b.Fields side ids pets) {i : Nat} (hi : i < ids.length)
    (hp : i < pets.length) : b.pet? ids[i] = some pets[i] := by
  have same := List.getElem_of_eq h.stored (i := i) (by rwa [List.length_map])
  rwa [List.getElem_map, List.getElem_map] at same

theorem Fields.isAlive (h : b.Fields side ids pets) (hm : id ∈ ids) : b.isAlive id = true :=
  (b.isAlive_iff id).2 ⟨side, h.home id hm, by rw [h.roster]; exact List.mem_reverse.2 hm⟩

theorem Fields.front? (h : b.Fields side ids pets) : b.front? side = ids.head? := by
  unfold Board.front?
  rw [h.roster, List.getLast?_reverse]

theorem Fields.pet?_front {rest : List Pet} (h : b.Fields side (id :: ids) (pet :: rest)) :
    b.pet? id = some pet := (List.cons.inj h.stored).1

/-- The foremost pet attacks the one in front of the line that faces it. -/
theorem Fields.primaryAttack? {rest enemies : List Pet} {enemy : PetId} {ids' : List PetId}
    (h : b.Fields side (id :: ids) (pet :: rest))
    (h' : b.Fields side.opponent (enemy :: ids') enemies) :
    Resolve.primaryAttack? b side = some ⟨id, side, [enemy], pet.attack, true⟩ := by
  unfold Resolve.primaryAttack?
  rw [h.front?, h'.front?]
  simp [h.pet?_front]

theorem Fields.primaryAttacks {p q : PetId} {P E : Pet} {own enemies : List Pet} {ids' : List PetId}
    (h : b.Fields .a (p :: ids) (P :: own)) (h' : b.Fields .b (q :: ids') (E :: enemies)) :
    Side.all.filterMap (Resolve.primaryAttack? b) =
      [⟨p, .a, [q], P.attack, true⟩, ⟨q, .b, [p], E.attack, true⟩] := by
  have first : Resolve.primaryAttack? b .a = some ⟨p, .a, [q], P.attack, true⟩ := h.primaryAttack? h'
  have second : Resolve.primaryAttack? b .b = some ⟨q, .b, [p], E.attack, true⟩ := h'.primaryAttack? h
  unfold Side.all
  rw [List.filterMap_cons_some first, List.filterMap_cons_some second]
  rfl

theorem Fields.isEmpty (h : b.Fields side ids pets) : (b.roster side).isEmpty = pets.isEmpty := by
  rw [h.roster, List.isEmpty_reverse, Bool.eq_iff_iff, List.isEmpty_iff_length_eq_zero,
    List.isEmpty_iff_length_eq_zero, h.length]

/-- A pet stands in the line of one side only. -/
theorem Fields.not_mem (h : b.Fields side ids pets) (hid : b.sideOf? id = some s) (hs : s ≠ side) :
    id ∉ ids := by
  intro hm
  rw [h.home id hm] at hid
  exact hs (Option.some.inj hid).symm

/-! ## Changes of a line -/

theorem Fields.modify_other (h : b.Fields side ids pets) (hid : id ∉ ids) (f : Pet → Pet) :
    (b.modifyPet id f).Fields side ids pets where
  roster := h.roster
  home x hx := (sideOf?_modifyPet b id f x).trans (h.home x hx)
  nodup := h.nodup
  stored := by
    rw [← h.stored]
    refine List.map_congr_left fun x hx => ?_
    rw [pet?_modifyPet, if_neg]
    rintro rfl
    exact hid hx

theorem Fields.modify_front {rest : List Pet} (h : b.Fields side (id :: ids) (pet :: rest))
    (f : Pet → Pet) : (b.modifyPet id f).Fields side (id :: ids) (f pet :: rest) where
  roster := h.roster
  home x hx := (sideOf?_modifyPet b id f x).trans (h.home x hx)
  nodup := h.nodup
  stored := by
    obtain ⟨front, behind⟩ := List.cons.inj h.stored
    rw [List.map_cons, List.map_cons, pet?_modifyPet, if_pos rfl, front]
    congr 1
    rw [← behind]
    refine List.map_congr_left fun x hx => ?_
    rw [pet?_modifyPet, if_neg]
    rintro rfl
    exact (List.nodup_cons.1 h.nodup).1 hx

theorem Fields.leave_other (h : b.Fields side ids pets) (hl : b.Leaves id s b') (hs : side ≠ s) :
    b'.Fields side ids pets where
  roster := (hl.others side hs).trans h.roster
  home x hx := (hl.sideOf? x).trans (h.home x hx)
  nodup := h.nodup
  stored := by
    rw [← h.stored]
    exact List.map_congr_left fun x _ => hl.pet? x

theorem Fields.leave_front {rest : List Pet} (h : b.Fields side (id :: ids) (pet :: rest)) :
    ∃ b', b.remove? id = some b' ∧ b.Leaves id side b' ∧ b'.Fields side ids rest := by
  have hid := h.home id List.mem_cons_self
  obtain ⟨b', hr⟩ : ∃ b', b.remove? id = some b' := by
    have hp : (b.position? id).isSome = true := by
      rw [isSome_position?]
      exact h.isAlive List.mem_cons_self
    obtain ⟨index, hi⟩ := Option.isSome_iff_exists.1 hp
    exact ⟨_, by rw [remove?, hid, hi]; rfl⟩
  obtain ⟨s, hl⟩ := leaves_of_remove? hr
  obtain rfl : s = side := Option.some.inj (hl.home.symm.trans hid)
  refine ⟨b', hr, hl, ?_, ?_, (List.nodup_cons.1 h.nodup).2, ?_⟩
  · obtain ⟨i, hstands, hline⟩ := hl.line
    -- The pet stands at the end of its roster, and nowhere else.
    have hplace : i = ids.length := by
      have hn : (b.roster s).Nodup := by
        rw [h.roster]
        exact List.nodup_reverse.2 h.nodup
      refine (List.getElem?_inj hstands.lt hn).1 (hstands.place.trans ?_)
      rw [h.roster, List.reverse_cons, List.getElem?_append_right (by simp)]
      simp
    rw [hline, hplace, h.roster, List.reverse_cons, List.eraseIdx_append_of_length_le (by simp)]
    simp
  · intro x hx
    exact (hl.sideOf? x).trans (h.home x (List.mem_cons_of_mem id hx))
  · obtain ⟨_, behind⟩ := List.cons.inj h.stored
    rw [← behind]
    exact List.map_congr_left fun x _ => hl.pet? x

/-! ## Events told to a line -/

/-- The board after an event has walked a line in which all pets answered it by hearing. -/
def told (c : Catalog) (event : Event) (walked : List PetId) (b : Board) (ids : List PetId) :
    Board :=
  ids.foldl (fun b id =>
    b.modifyPet id (Pet.hearing c event.trigger (hears · id event walked))) b

@[simp] theorem roster_told (b : Board) (s : Side) :
    (b.told c event walked ids).roster s = b.roster s := by
  induction ids generalizing b with
  | nil => rfl
  | cons id rest ih => exact ih _

@[simp] theorem sideOf?_told (b : Board) (id : PetId) :
    (b.told c event walked ids).sideOf? id = b.sideOf? id := by
  induction ids generalizing b with
  | nil => rfl
  | cons x rest ih => exact (ih _).trans (sideOf?_modifyPet b x _ id)

theorem pet?_told_of_not_mem (b : Board) (hid : id ∉ ids) :
    (b.told c event walked ids).pet? id = b.pet? id := by
  induction ids generalizing b with
  | nil => rfl
  | cons x rest ih =>
    refine (ih _ fun hm => hid (List.mem_cons_of_mem x hm)).trans ?_
    rw [pet?_modifyPet, if_neg]
    rintro rfl
    exact hid List.mem_cons_self

theorem pet?_told (b : Board) (hn : ids.Nodup) (hid : id ∈ ids) :
    (b.told c event walked ids).pet? id =
      (b.pet? id).map (Pet.hearing c event.trigger (hears · id event walked)) := by
  induction ids generalizing b with
  | nil => cases hid
  | cons x rest ih =>
    obtain ⟨hx, hn⟩ := List.nodup_cons.1 hn
    rcases List.mem_cons.1 hid with rfl | hm
    · refine (pet?_told_of_not_mem _ hx).trans ?_
      rw [pet?_modifyPet, if_pos rfl]
    · refine (ih _ hn hm).trans ?_
      rw [pet?_modifyPet, if_neg]
      rintro rfl
      exact hx hm

theorem Defined.told (h : b.Defined c) : (b.told c event walked ids).Defined c := by
  induction ids generalizing b with
  | nil => exact h
  | cons id rest ih =>
    refine ih (AllPets.modifyPet h id fun p hp => ?_)
    exact hp.congr Pet.kind_hearing Pet.borrowed_hearing Pet.status_hearing

/-- The audiences that an event has in a line are those that its source being so many places in
front gives. -/
def HeardFrom (event : Event) (walked : List PetId) (ahead : Nat) (ids : List PetId) : Prop :=
  ∀ (i : Nat) (hi : i < ids.length) (a : Audience),
    hears a ids[i] event walked = a.hearsFrom (ahead + i)

theorem Fields.told (h : b.Fields side ids pets) (hn : walked.Nodup) (hm : ∀ id ∈ ids, id ∈ walked)
    (hh : HeardFrom event walked ahead ids) :
    (b.told c event walked walked).Fields side ids (hearingLine c event.trigger ahead pets) where
  roster := (roster_told b side).trans h.roster
  home x hx := (sideOf?_told b x).trans (h.home x hx)
  nodup := h.nodup
  stored := by
    apply List.ext_getElem
    · rw [List.length_map, List.length_map, length_hearingLine, h.length]
    · intro i hi hp
      rw [List.length_map] at hi
      rw [List.length_map, length_hearingLine] at hp
      have audience : (hears · ids[i] event walked) = (·.hearsFrom (ahead + i)) :=
        funext fun a => hh i hi a
      rw [List.getElem_map, List.getElem_map, pet?_told b hn (hm _ (List.getElem_mem hi)),
        h.pet? hi hp, Option.map_some, audience]
      unfold hearingLine
      rw [List.getElem_mapIdx]

theorem Fields.told_other (h : b.Fields side ids pets) (hm : ∀ id ∈ ids, id ∉ walked) :
    (b.told c event walked walked).Fields side ids pets where
  roster := (roster_told b side).trans h.roster
  home x hx := (sideOf?_told b x).trans (h.home x hx)
  nodup := h.nodup
  stored := by
    rw [← h.stored]
    exact List.map_congr_left fun x hx => pet?_told_of_not_mem b (hm x hx)

/-! ## Places in a line -/

/-- Seen from the front of the line that is walked, the places are those behind the source. -/
theorem hears_behind (hn : (source :: ids).Nodup) (hs : event.source = some source) {i : Nat}
    (hi : i < (source :: ids).length) (a : Audience) :
    hears a (source :: ids)[i] event (source :: ids).reverse = a.hearsFrom i := by
  have first : (source = (source :: ids)[i]) ↔ i = 0 := by
    have places : (source :: ids)[0] = (source :: ids)[i] ↔ 0 = i := hn.getElem_inj_iff
    exact places.trans eq_comm
  cases a with
  | player => rfl
  | self => simp [hears, Audience.hearsFrom, hs, first]
  | eachFriend => simp [hears, Audience.hearsFrom, hs, first]
  | friendAhead =>
    have place : (source :: ids).reverse.idxOf? source = some ids.length := by
      rw [List.reverse_cons, List.idxOf?_eq_some_iff]
      refine ⟨by simp, by simp, fun j hj he => ?_⟩
      rw [List.getElem_append_left (by simpa using hj)] at he
      exact (List.nodup_cons.1 hn).1 (List.mem_reverse.1 (he ▸ List.getElem_mem _))
    unfold hears
    dsimp only
    rw [hs, Option.bind_some, place]
    cases ids with
    | nil =>
      obtain rfl : i = 0 := by simpa using hi
      rfl
    | cons next rest =>
      have second : (source :: next :: rest).reverse[rest.length]? = some next := by
        rw [List.reverse_cons, List.reverse_cons, List.append_assoc,
          List.getElem?_append_right (by simp)]
        simp
      have places : (source :: next :: rest)[i] = (source :: next :: rest)[1] ↔ i = 1 :=
        hn.getElem_inj_iff
      have behind : some next = some (source :: next :: rest)[i] ↔ i = 1 := by
        rw [Option.some.injEq, eq_comm]
        exact places
      dsimp only [List.length_cons]
      rw [second]
      exact decide_eq_decide.2 behind

/-- Nobody is right behind an event without a source, and it is no pet's own. -/
theorem hears_unsourced (hs : event.source = none) (id : PetId) (i : Nat) (a : Audience) :
    hears a id event walked = a.hearsFrom (2 + i) := by
  cases a with
  | friendAhead =>
    have late : ¬ 2 + i = 1 := by omega
    simp [hears, Audience.hearsFrom, hs, late]
  | _ => simp [hears, Audience.hearsFrom, hs]

end Board

/-! ## Two lines -/

/-- A side of a board fields one line and its opponent another, and all pets are defined. -/
structure Facing (c : Catalog) (b : Board) (side : Side) (ids : List PetId) (own : List Pet)
    (ids' : List PetId) (enemies : List Pet) : Prop where
  own : b.Fields side ids own
  enemies : b.Fields side.opponent ids' enemies
  defined : b.Defined c

namespace Facing

variable {own enemies : List Pet} {ids' : List PetId}

theorem symm (h : Facing c b side ids own ids' enemies) :
    Facing c b side.opponent ids' enemies ids own where
  own := h.enemies
  enemies := by
    rw [Side.opponent_opponent]
    exact h.own
  defined := h.defined

/-- An event is told to the line of a side. -/
theorem told (h : Facing c b side ids own ids' enemies) (hn : walked.Nodup)
    (hw : ∀ id ∈ walked, b.sideOf? id = some side) (hm : ∀ id ∈ ids, id ∈ walked)
    (hh : Board.HeardFrom event walked ahead ids) :
    Facing c (b.told c event walked walked) side ids (hearingLine c event.trigger ahead own) ids'
      enemies where
  own := h.own.told hn hm hh
  enemies := h.enemies.told_other fun id hid hx =>
    h.enemies.not_mem (hw id hx) (side.opponent_ne).symm hid
  defined := h.defined.told

theorem modify_front {rest : List Pet} (h : Facing c b side (id :: ids) (pet :: rest) ids' enemies)
    {f : Pet → Pet} (hf : ∀ p, p.Defined c → (f p).Defined c) :
    Facing c (b.modifyPet id f) side (id :: ids) (f pet :: rest) ids' enemies where
  own := h.own.modify_front f
  enemies := h.enemies.modify_other
    (h.enemies.not_mem (h.own.home id List.mem_cons_self) (side.opponent_ne).symm) f
  defined := Board.AllPets.modifyPet h.defined id hf

theorem leave_front {rest : List Pet}
    (h : Facing c b side (id :: ids) (pet :: rest) ids' enemies) :
    ∃ b', b.remove? id = some b' ∧ (∀ x, b'.sideOf? x = b.sideOf? x) ∧
      Facing c b' side ids rest ids' enemies := by
  obtain ⟨b', hr, hl, own⟩ := h.own.leave_front
  refine ⟨b', hr, hl.sideOf?, own, h.enemies.leave_other hl side.opponent_ne, ?_⟩
  intro x p hx
  exact h.defined x p ((hl.pet? x).symm.trans hx)

end Facing

end AutoBattler
