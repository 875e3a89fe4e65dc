import AutoBattler.Proofs.Histories

/-!
# Neighbours

Selectors relative to an actor read the line that it stood in when the event was raised, as far as
that line is still there. What they give behind and ahead of the actor is the whole of that line,
and pets that leave the board in the meantime are only struck out of it.
-/
namespace AutoBattler

open AutoBattler.Random (Generator)

/-! ## Boards that pets have left -/

namespace Board

variable {b b' b'' : Board} {gone more : List PetId} {id : PetId}

/-- Some pets stand on no roster any more, and all else is as before. -/
structure Thinned (b : Board) (gone : List PetId) (b' : Board) : Prop where
  wellFormed : b'.WellFormed
  roster : ∀ side, b'.roster side = (b.roster side).filter (· ∉ gone)
  home : ∀ id, b'.sideOf? id = b.sideOf? id

theorem Thinned.refl (h : b.WellFormed) : b.Thinned [] b where
  wellFormed := h
  roster side := by simp
  home _ := rfl

theorem Thinned.trans (h : b.Thinned gone b') (h' : b'.Thinned more b'') :
    b.Thinned (gone ++ more) b'' where
  wellFormed := h'.wellFormed
  roster side := by
    rw [h'.roster, h.roster, List.filter_filter]
    refine List.filter_congr fun id _ => ?_
    simp [List.mem_append, Bool.and_comm]
  home id := (h'.home id).trans (h.home id)

theorem thinned_remove (h : b.WellFormed) (id : PetId) :
    b.Thinned [id] ((b.remove? id).getD b) := by
  have struck (side : Side) : (b.roster side).filter (· ∉ [id]) = (b.roster side).erase id := by
    rw [(h.nodup side).erase_eq_filter]
    exact List.filter_congr fun x _ => by simp [bne, beq_eq_decide]
  cases hr : b.remove? id with
  | none =>
    refine ⟨h, fun side => ?_, fun _ => rfl⟩
    rw [struck, List.erase_of_not_mem (not_mem_of_remove? hr h side)]
    rfl
  | some b' =>
    obtain ⟨side, hl⟩ := leaves_of_remove? hr
    refine ⟨hl.wellFormed h, fun s => ?_, hl.sideOf?⟩
    rw [struck]
    by_cases hs : s = side
    · subst hs
      obtain ⟨i, hstands, hline⟩ := hl.line
      obtain ⟨hlt, hget⟩ := List.getElem?_eq_some_iff.1 hstands.place
      rw [← hget, (h.nodup s).erase_getElem i hlt]
      exact hline
    · have elsewhere : id ∉ b.roster s := fun hm =>
        hs (Option.some.inj ((h.member s id hm).symm.trans hl.home))
      rw [List.erase_of_not_mem elsewhere]
      exact hl.others s hs

theorem thinned_after (h : b.WellFormed) (gone : List PetId) :
    b.Thinned gone (b.after (gone.map .remove)) := by
  induction gone generalizing b with
  | nil => exact .refl h
  | cons id rest ih =>
    have first := thinned_remove h id
    exact first.trans (ih first.wellFormed)

theorem WellFormed.isAlive_iff (h : b.WellFormed) :
    b.isAlive id = true ↔ ∃ side ∈ Side.all, id ∈ b.roster side := by
  rw [Board.isAlive_iff]
  refine ⟨fun ⟨side, _, hm⟩ => ⟨side, by cases side <;> decide, hm⟩, fun ⟨side, _, hm⟩ => ?_⟩
  exact ⟨side, h.member side id hm, hm⟩

theorem Thinned.isAlive_iff (h : b.Thinned gone b') :
    b'.isAlive id = true ↔ b.isAlive id = true ∧ id ∉ gone := by
  rw [Board.isAlive_iff, Board.isAlive_iff]
  constructor
  · rintro ⟨side, hs, hm⟩
    rw [h.roster, List.mem_filter, decide_eq_true_iff] at hm
    exact ⟨⟨side, (h.home id).symm.trans hs, hm.1⟩, hm.2⟩
  · rintro ⟨⟨side, hs, hm⟩, hg⟩
    refine ⟨side, (h.home id).trans hs, ?_⟩
    rw [h.roster, List.mem_filter, decide_eq_true_iff]
    exact ⟨hm, hg⟩

end Board

namespace Targeting

variable {v : View} {actor : PetId} {line back front gone : List PetId} {g : Generator}

namespace View

/-- The line that the actor stood in when the event was raised, as far as it is still there: the
snapshot, if the event is told to the actor's side and the actor is in it, with the actor, the
source and the pets on a roster, and else the roster. -/
def formerLine (v : View) (actor : PetId) : List PetId :=
  match v.event.snapshot.filter fun line => actor ∈ line ∧ v.event.side = v.side with
  | some line =>
    line.filter fun id => id = actor ∨ v.event.source = some id ∨
      ∃ side ∈ Side.all, id ∈ v.board.roster side
  | none => v.board.roster v.side

/-- The view after pets have been taken off the board. -/
def without (v : View) (gone : List PetId) : View :=
  { v with board := v.board.after (gone.map .remove) }

theorem line_eq_formerLine (h : v.board.WellFormed) (actor : PetId) :
    v.line actor = v.formerLine actor := by
  unfold line formerLine
  cases v.event.snapshot with
  | none => rfl
  | some snapshot =>
    by_cases hc : v.event.side = v.side ∧ snapshot.contains actor
    · have covered : actor ∈ snapshot ∧ v.event.side = v.side :=
        ⟨List.contains_iff_mem.1 hc.2, hc.1⟩
      simp only [if_pos hc, Option.filter_some, decide_eq_true_eq, if_pos covered]
      refine List.filter_congr fun id _ => ?_
      rw [Bool.eq_iff_iff]
      simp only [Bool.or_eq_true, decide_eq_true_eq, h.isAlive_iff, or_assoc]
      exact or_congr_right or_comm
    · have uncovered : ¬ (actor ∈ snapshot ∧ v.event.side = v.side) := fun hm =>
        hc ⟨hm.2, List.contains_iff_mem.2 hm.1⟩
      simp only [if_neg hc, Option.filter_some, decide_eq_true_eq, if_neg uncovered]

/-! ## Around the actor -/

theorem around_of_split (ha : v.actor = some actor) (hl : v.line actor = back ++ actor :: front)
    (hn : actor ∉ back) : v.around = (back.reverse, front) := by
  have place : (back ++ actor :: front).idxOf? actor = some back.length := by
    rw [List.idxOf?_eq_some_iff]
    refine ⟨by simp, by simp, fun j hj he => ?_⟩
    rw [List.getElem_append_left hj] at he
    exact hn (he ▸ List.getElem_mem hj)
  unfold around
  rw [ha]
  dsimp only
  rw [hl, place]
  dsimp only
  rw [List.take_left, List.drop_append]
  simp

theorem around_of_not_mem (ha : v.actor = some actor) (hn : actor ∉ v.line actor) :
    v.around = ([], []) := by
  unfold around
  rw [ha]
  dsimp only
  rw [List.idxOf?_eq_none_iff.2 hn]

theorem length_around_le (ha : v.actor = some actor) :
    v.around.1.length ≤ (v.line actor).length ∧ v.around.2.length ≤ (v.line actor).length := by
  by_cases hm : actor ∈ v.line actor
  · obtain ⟨back, front, hl, hn⟩ := List.eq_append_cons_of_mem hm
    rw [around_of_split ha hl hn, hl, List.length_append, List.length_cons, List.length_reverse]
    dsimp only
    omega
  · rw [around_of_not_mem ha hm]
    exact ⟨Nat.zero_le _, Nat.zero_le _⟩

end View

/-! ## Positional selectors -/

/-- How the positional selectors of an actor read a line: all of it, the nearest first. -/
structure View.Reads (v : View) (g : Generator) (actor : PetId) (line : List PetId) : Prop where
  whole : actor ∈ line → ∀ n, line.length ≤ n →
    (resolve v (.friendBehind n) g).1.reverse ++ [actor] ++ (resolve v (.friendAhead n) g).1 = line
  nearest : ∀ n m, line.length ≤ m →
    (resolve v (.friendBehind n) g).1 = (resolve v (.friendBehind m) g).1.take n ∧
      (resolve v (.friendAhead n) g).1 = (resolve v (.friendAhead m) g).1.take n
  adjacent : (resolve v .adjacentFriends g).1 =
    (resolve v (.friendBehind 1) g).1 ++ (resolve v (.friendAhead 1) g).1
  absent : actor ∉ line → ∀ n, (resolve v (.friendBehind n) g).1 = [] ∧
    (resolve v (.friendAhead n) g).1 = [] ∧ (resolve v .adjacentFriends g).1 = []

theorem View.reads (ha : v.actor = some actor) (g : Generator) :
    v.Reads g actor (v.line actor) := by
  by_cases hm : actor ∈ v.line actor
  · obtain ⟨back, front, hl, hn⟩ := List.eq_append_cons_of_mem hm
    have around := around_of_split ha hl hn
    have behind (n : Nat) : (resolve v (.friendBehind n) g).1 = back.reverse.take n := by
      show v.around.1.take n = _
      rw [around]
    have ahead (n : Nat) : (resolve v (.friendAhead n) g).1 = front.take n := by
      show v.around.2.take n = _
      rw [around]
    have all (n : Nat) (h : (v.line actor).length ≤ n) :
        back.reverse.take n = back.reverse ∧ front.take n = front := by
      rw [hl, List.length_append, List.length_cons] at h
      exact ⟨List.take_of_length_le (by rw [List.length_reverse]; omega),
        List.take_of_length_le (by omega)⟩
    refine ⟨fun _ n h => ?_, fun n m h => ?_, rfl, fun h => absurd hm h⟩
    · rw [behind, ahead, (all n h).1, (all n h).2, List.reverse_reverse, hl]
      simp
    · rw [behind, behind, ahead, ahead, (all m h).1, (all m h).2]
      exact ⟨rfl, rfl⟩
  · have around := around_of_not_mem ha hm
    have none (n : Nat) : v.around.1.take n = [] ∧ v.around.2.take n = [] := by
      rw [around]
      exact ⟨List.take_nil, List.take_nil⟩
    refine ⟨fun h => absurd h hm, fun n m _ => ?_, rfl, fun _ n => ⟨(none n).1, (none n).2, ?_⟩⟩
    · show v.around.1.take n = (v.around.1.take m).take n ∧ v.around.2.take n = (v.around.2.take m).take n
      rw [(none n).1, (none n).2, (none m).1, (none m).2]
      exact ⟨List.take_nil.symm, List.take_nil.symm⟩
    · show v.around.1.take 1 ++ v.around.2.take 1 = []
      rw [(none 1).1, (none 1).2]
      rfl

/-! ## Pets that leave in the meantime -/

theorem View.side_without (h : v.board.WellFormed) (gone : List PetId) :
    (v.without gone).side = v.side := by
  have home := (Board.thinned_after h gone).home
  unfold side without
  dsimp only
  cases v.actor with
  | none => rfl
  | some actor => rw [Option.bind_some, Option.bind_some, home]

theorem View.survivors_without (h : v.board.WellFormed) (ha : actor ∉ gone)
    (hs : ∀ source, v.event.source = some source → source ∉ gone) (snapshot : List PetId) :
    (v.without gone).survivors actor snapshot = (v.survivors actor snapshot).filter (· ∉ gone) := by
  unfold View.survivors
  rw [List.filter_filter]
  refine List.filter_congr fun id _ => ?_
  have alive : (v.without gone).board.isAlive id = true ↔ v.board.isAlive id = true ∧ id ∉ gone :=
    (Board.thinned_after h gone).isAlive_iff
  have event : (v.without gone).event = v.event := rfl
  rw [Bool.eq_iff_iff]
  simp only [Bool.or_eq_true, Bool.and_eq_true, decide_eq_true_eq, alive, event]
  constructor
  · rintro ((rfl | ⟨hid, hg⟩) | hid)
    · exact ⟨ha, .inl (.inl rfl)⟩
    · exact ⟨hg, .inl (.inr hid)⟩
    · exact ⟨hs id hid, .inr hid⟩
  · rintro ⟨hg, (rfl | hid) | hid⟩
    · exact .inl (.inl rfl)
    · exact .inl (.inr ⟨hid, hg⟩)
    · exact .inr hid

/-- Others that leave are struck out of the line. -/
theorem View.line_without (h : v.board.WellFormed) (ha : actor ∉ gone)
    (hs : ∀ source, v.event.source = some source → source ∉ gone) :
    (v.without gone).line actor = (v.line actor).filter (· ∉ gone) := by
  have roster : (v.without gone).board.roster v.side =
      (v.board.roster v.side).filter (· ∉ gone) := (Board.thinned_after h gone).roster v.side
  have event : (v.without gone).event = v.event := rfl
  unfold line
  rw [side_without h, event]
  cases v.event.snapshot with
  | none => exact roster
  | some snapshot =>
    dsimp only
    split
    · exact survivors_without h ha hs snapshot
    · exact roster

/-- Striking pets out of the line strikes them out of what is behind and ahead of the actor. -/
theorem View.around_without (h : v.board.WellFormed) (hv : v.actor = some actor) (ha : actor ∉ gone)
    (hs : ∀ source, v.event.source = some source → source ∉ gone) :
    (v.without gone).around =
      (v.around.1.filter (· ∉ gone), v.around.2.filter (· ∉ gone)) := by
  have line := line_without h ha hs
  by_cases hm : actor ∈ v.line actor
  · obtain ⟨back, front, hl, hn⟩ := List.eq_append_cons_of_mem hm
    rw [hl, List.filter_append, List.filter_cons_of_pos (by simpa using ha)] at line
    rw [around_of_split hv hl hn, around_of_split (v := v.without gone) hv line
      fun hb => hn (List.mem_filter.1 hb).1]
    dsimp only
    rw [List.filter_reverse]
  · rw [around_of_not_mem hv hm, around_of_not_mem (v := v.without gone) hv]
    · rfl
    · rw [line]
      exact fun hb => hm (List.mem_filter.1 hb).1

/-- The positional selectors of an actor give its former line, cut off where fewer are asked for.
Pets other than the actor and the source that leave the board, in whatever order, are struck out of
that line, and the selectors then give the nearest of those that are left. -/
theorem positional_selectors_read_the_former_line (h : v.board.WellFormed)
    (hv : v.actor = some actor) (g : Generator) :
    v.Reads g actor (v.formerLine actor) ∧
    ∀ gone, actor ∉ gone → (∀ source, v.event.source = some source → source ∉ gone) →
      (v.without gone).formerLine actor = (v.formerLine actor).filter (· ∉ gone) ∧
      (v.without gone).Reads g actor ((v.formerLine actor).filter (· ∉ gone)) ∧
      ∀ n m, (v.formerLine actor).length ≤ m →
        (resolve (v.without gone) (.friendBehind n) g).1 =
          ((resolve v (.friendBehind m) g).1.filter (· ∉ gone)).take n ∧
        (resolve (v.without gone) (.friendAhead n) g).1 =
          ((resolve v (.friendAhead m) g).1.filter (· ∉ gone)).take n := by
  rw [← View.line_eq_formerLine h]
  refine ⟨View.reads hv g, fun gone ha hs => ?_⟩
  have line := View.line_without h ha hs
  have around := View.around_without h hv ha hs
  have thinned := (Board.thinned_after h gone).wellFormed
  rw [← View.line_eq_formerLine thinned, ← line]
  refine ⟨rfl, View.reads (v := v.without gone) hv g, fun n m hm => ?_⟩
  obtain ⟨behind, ahead⟩ := View.length_around_le hv
  show (v.without gone).around.1.take n = ((v.around.1.take m).filter (· ∉ gone)).take n ∧
    (v.without gone).around.2.take n = ((v.around.2.take m).filter (· ∉ gone)).take n
  rw [around, List.take_of_length_le (Nat.le_trans behind hm),
    List.take_of_length_le (Nat.le_trans ahead hm)]
  exact ⟨rfl, rfl⟩

/-- The third of four ants faints, and is told so with the line as it was. -/
def fallenView : View where
  board := (Board.empty.enlist .a (List.replicate 4 (.ofKind ant))).after [.remove ⟨2⟩]
  event := ((Event.battle .faint .a).withSource ⟨2⟩).withSnapshot [⟨0⟩, ⟨1⟩, ⟨2⟩, ⟨3⟩]
  actor := some ⟨2⟩

theorem wellFormed_fallenView : fallenView.board.WellFormed :=
  ((Board.wellFormed_empty.enlist .a (List.replicate 4 (.ofKind ant))).after [.remove ⟨2⟩]).1

/-- It still finds its neighbours, and when the second ant has left, too, it finds the first one. -/
theorem positional_selectors_read_the_former_line_fallen :
    fallenView.board.WellFormed ∧ fallenView.actor = some ⟨2⟩ ∧ ⟨2⟩ ∉ [(⟨1⟩ : PetId)] ∧
    (∀ source, fallenView.event.source = some source → source ∉ [⟨1⟩]) ∧
    fallenView.formerLine ⟨2⟩ = [⟨0⟩, ⟨1⟩, ⟨2⟩, ⟨3⟩] ∧
    (resolve (fallenView.without [⟨1⟩]) (.friendBehind 2) (.ofSeed 42)).1 = [⟨0⟩] ∧
    (resolve (fallenView.without [⟨1⟩]) (.friendAhead 1) (.ofSeed 42)).1 = [⟨3⟩] := by
  have kept : ∀ source, fallenView.event.source = some source → source ∉ [⟨1⟩] := by
    rintro source hs
    cases hs
    decide
  have line : fallenView.formerLine ⟨2⟩ = [⟨0⟩, ⟨1⟩, ⟨2⟩, ⟨3⟩] := by decide +kernel
  have neighbours : (resolve fallenView (.friendBehind 4) (.ofSeed 42)).1 = [⟨1⟩, ⟨0⟩] ∧
      (resolve fallenView (.friendAhead 4) (.ofSeed 42)).1 = [⟨3⟩] := by decide +kernel
  obtain ⟨_, later⟩ := positional_selectors_read_the_former_line wellFormed_fallenView rfl (.ofSeed 42)
  obtain ⟨_, _, nearest⟩ := later [⟨1⟩] (by decide) kept
  rw [line] at nearest
  refine ⟨wellFormed_fallenView, rfl, by decide, kept, line, ?_, ?_⟩
  · rw [(nearest 2 4 (by decide)).1, neighbours.1]
    rfl
  · rw [(nearest 1 4 (by decide)).2, neighbours.2]
    rfl

end Targeting

end AutoBattler
