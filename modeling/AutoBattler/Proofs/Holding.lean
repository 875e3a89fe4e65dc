import AutoBattler.Proofs.Capacity
import AutoBattler.Proofs.Waiting

/-!
# Pets that hold their place

A foremost pet bears a name that is not defined, so that nothing can be told to it without an error.
As long as no effect gives another name, deals damage or brings pets into line, every step fails or
leaves the pet foremost, with its names, and somebody to face it. Splash damage passes the foremost
pets by, and a pet that evolves is replaced where it stands.
-/
namespace AutoBattler

open Resolve

/-- The effect itself gives a status, hits at once, or brings pets into line. -/
def Effect.Diverting : Effect → Prop
  | .applyStatus .. => True
  | .dealDamage .. => True
  | e => e.Summoning

namespace Board

variable {b b' : Board} {side s : Side} {id new : PetId} {pet : Pet}

/-! ## Foremost pets -/

theorem mem_of_front? (h : b.front? side = some id) : id ∈ b.roster side := List.mem_of_getLast? h

/-- The pet is stored and foremost on neither side. -/
structure Rear (b : Board) (id : PetId) : Prop where
  stored : (b.entrant? id).isSome = true
  behind : ∀ side, b.front? side ≠ some id

theorem getLast?_eraseIdx {l : List PetId} {i : Nat} (hi : l[i]? = some id)
    (h : l.getLast? ≠ some id) : (l.eraseIdx i).getLast? = l.getLast? := by
  obtain ⟨hlt, _⟩ := List.getElem?_eq_some_iff.1 hi
  have hne : i ≠ l.length - 1 := by
    rintro rfl
    exact h (List.getLast?_eq_getElem?.trans hi)
  rw [List.getLast?_eq_getElem?, List.getLast?_eq_getElem?, List.length_eraseIdx_of_lt hlt,
    List.getElem?_eraseIdx_of_ge (by omega)]
  congr 1
  omega

theorem getLast?_set {l : List PetId} {i : Nat} (hi : l[i]? = some id) (new : PetId) :
    (l.set i new).getLast? = some new ∧ l.getLast? = some id ∨
      (l.set i new).getLast? = l.getLast? := by
  obtain ⟨hlt, _⟩ := List.getElem?_eq_some_iff.1 hi
  rw [List.getLast?_eq_getElem?, List.getLast?_eq_getElem?, List.length_set]
  by_cases hlast : i = l.length - 1
  · rw [← hlast]
    exact .inl ⟨List.getElem?_set_self hlt, hi⟩
  · exact .inr (List.getElem?_set_ne hlast)

theorem Leaves.front? (h : b.Leaves id side b') (hr : b.Rear id) (s : Side) :
    b'.front? s = b.front? s := by
  by_cases hs : s = side
  · subst hs
    obtain ⟨i, hstands, hline⟩ := h.line
    unfold Board.front?
    rw [hline]
    exact getLast?_eraseIdx hstands.place (hr.behind s)
  · unfold Board.front?
    rw [h.others s hs]

/-- The new pet is foremost if the old one was. -/
theorem Exchanges.front? (h : b.Exchanges id side pet new b') (s : Side) :
    b'.front? s = some new ∧ b.front? s = some id ∨ b'.front? s = b.front? s := by
  by_cases hs : s = side
  · subst hs
    obtain ⟨i, hstands, hline⟩ := h.line
    unfold Board.front?
    rw [hline]
    exact getLast?_set hstands.place new
  · unfold Board.front?
    rw [h.others s hs]
    exact .inr rfl

theorem Rear.leave (h : b.Rear id) (hl : b.Leaves new side b') (hr : b.Rear new) : b'.Rear id where
  stored := by
    rw [hl.entrants]
    exact h.stored
  behind s := by
    rw [hl.front? hr]
    exact h.behind s

/-- A stored pet does not have the number given out. -/
theorem Rear.ne_of_stores (h : b.Rear id) (hw : b.WellFormed) (hs : b.Stores side pet new b') :
    id ≠ new := by
  rintro rfl
  have := (hw.stored id).1 h.stored
  rw [hs.number] at this
  exact Nat.lt_irrefl _ this

theorem Rear.exchange {old : PetId} (h : b.Rear id) (hw : b.WellFormed)
    (he : b.Exchanges old side pet new b') : b'.Rear id where
  stored := by
    rw [he.entrants, if_neg (h.ne_of_stores hw he.toStores)]
    exact h.stored
  behind s := by
    rcases he.front? s with ⟨hnew, _⟩ | hsame
    · rw [hnew]
      exact fun heq => h.ne_of_stores hw he.toStores (Option.some.inj heq).symm
    · rw [hsame]
      exact h.behind s

theorem Rear.modifyPet (h : b.Rear id) (x : PetId) (f : Pet → Pet) : (b.modifyPet x f).Rear id where
  stored := by
    rw [entrant?_modifyPet]
    split
    · rw [Option.isSome_map]
      exact h.stored
    · exact h.stored
  behind := h.behind

/-- The target of splash damage stands behind the foremost pet. -/
theorem WellFormed.rear_of_second? (h : b.WellFormed) (hs : second? (b.roster side) = some id) :
    b.Rear id := by
  have hm : id ∈ b.roster side := List.mem_reverse.1 (List.mem_of_getElem? hs)
  refine ⟨h.entrant?_isSome hm, fun s hf => ?_⟩
  by_cases hside : s = side
  · subst hside
    unfold Board.front? at hf
    rw [List.getLast?_eq_head?_reverse, List.head?_eq_getElem?] at hf
    have hlt := (List.getElem?_eq_some_iff.1 hf).1
    have same := (List.getElem?_inj hlt (List.nodup_reverse.2 (h.nodup s))).1 (hf.trans hs.symm)
    exact absurd same (by decide)
  · have other := h.member s id (mem_of_front? hf)
    rw [h.member side id hm] at other
    exact hside (Option.some.inj other).symm

end Board

/-! ## A pet that is to stay foremost -/

/-- The place of a foremost pet, what effects may do, which names it is to bear and who may face it. -/
structure Foremost where
  pet : PetId
  side : Side
  effects : Effect → Prop
  bears : Option StatusId → PetKindId → Prop
  enemy : PetId → Prop

namespace Foremost

/-- The pet still bears such names and faces such an enemy. The pets that are going to be hit stand
behind the foremost ones, those that waiting attacks aim at as well. -/
structure Held (P : Foremost) (hit : PetId → Prop) (s : Arena) : Prop where
  wellFormed : s.board.WellFormed
  names : ∃ pet, s.board.pet? P.pet = some pet ∧ P.bears pet.status pet.abilityKind
  foremost : s.board.front? P.side = some P.pet
  faced : ∃ enemy, s.board.front? P.side.opponent = some enemy ∧ P.enemy enemy
  rear : ∀ id, hit id → s.board.Rear id
  waiting : ∀ side, ∀ attack ∈ s.waits side,
    attack.isPrimary = false ∧ ∀ id ∈ attack.targets, s.board.Rear id

/-- The effects of a catalog leave the pet foremost, and nothing can be told to it. -/
structure Holds (P : Foremost) (c : Catalog) : Prop where
  offered : c.Every P.effects
  diverts : ∀ e, P.effects e → ¬ e.Diverting
  repeats : ∀ into target level, P.effects (.evolve into) → ¬ P.effects (.repeatAbility target level)
  enemy : ∀ into, P.effects (.evolve into) → ∀ id, P.enemy id
  borrows : ∀ giver receivers level, P.effects (.transferAbility giver receivers level) →
    ∀ status kind kind', P.bears status kind → P.bears status kind'
  unknown : ∀ pet level status, P.bears pet.status pet.abilityKind →
    c.levelAbility pet = .ok level → c.statusAbility pet ≠ .ok status

/-- The step fails or the pet stays foremost. -/
abbrev Stays {α : Type} (P : Foremost) (hit : PetId → Prop) (m : Resolve α) : Prop :=
  Triple anyway (P.Held hit) m fun _ => P.Held hit

abbrev Fails {α : Type} (P : Foremost) (hit : PetId → Prop) (m : Resolve α) : Prop :=
  Triple anyway (P.Held hit) m fun _ _ => False

variable {P : Foremost} {hit : PetId → Prop} {s t : Arena} {rules : Rules} {raise : Raise}
  {event : Event} {α β : Type} {m : Resolve α} {f : α → Resolve β} {id : PetId} {side : Side}

theorem Held.congr (h : P.Held hit s) (hb : t.board = s.board) (hq : t.queues = s.queues) :
    P.Held hit t := by
  obtain ⟨wellFormed, names, foremost, faced, rear, waiting⟩ := h
  have waits : t.waits = s.waits := by
    unfold Arena.waits
    rw [hq]
  rw [← hb] at wellFormed names foremost faced rear waiting
  exact ⟨wellFormed, names, foremost, faced, rear, waits ▸ waiting⟩

theorem Held.mem (h : P.Held hit s) : P.pet ∈ s.board.roster P.side :=
  Board.mem_of_front? h.foremost

theorem Held.isAlive (h : P.Held hit s) : s.board.isAlive P.pet = true :=
  (Board.isAlive_iff _ _).2 ⟨P.side, h.wellFormed.member _ _ h.mem, h.mem⟩

/-- An event that the pet may answer reaches it. -/
theorem Held.reached? (h : P.Held hit s) {pet : Pet} (hpet : s.board.pet? P.pet = some pet)
    (ha : rules.catalog.index.mayReact event.trigger pet = true) :
    reached? rules event s.board P.pet = some pet := by
  obtain ⟨entrant, he, rfl⟩ := Option.map_eq_some_iff.1 hpet
  have line : s.board.isInLine entrant.side P.pet = true := by
    have alive := h.isAlive
    unfold Board.isAlive Board.sideOf? at alive
    rwa [he] at alive
  unfold Resolve.reached?
  rw [he]
  dsimp only
  rw [ha, line, Bool.or_true, Bool.true_and, if_pos rfl]

theorem Held.ne_of_rear (h : P.Held hit s) (hr : s.board.Rear id) : id ≠ P.pet := by
  rintro rfl
  exact hr.behind P.side h.foremost

theorem Fails.stays (h : P.Fails hit m) : P.Stays hit m :=
  h.weaken (fun _ _ he => he) (fun _ hs => hs) fun _ _ => False.elim

theorem Fails.bind (h : P.Fails hit m) (f : α → Resolve β) : P.Fails hit (m >>= f) :=
  Couples.bind h fun _ => Triple.intro fun _ => False.elim

theorem Fails.after (hm : P.Stays hit m) (h : ∀ x, P.Fails hit (f x)) : P.Fails hit (m >>= f) :=
  Couples.bind hm h

/-- In all steps the pet stays foremost, and one of them cannot be taken. -/
theorem fails_forEach {xs : List α} {body : α → Resolve Unit}
    (stays : ∀ x ∈ xs, P.Stays hit (body x)) {x : α} (hx : x ∈ xs) (hf : P.Fails hit (body x)) :
    P.Fails hit (forEach xs body) := by
  induction xs with
  | nil => cases hx
  | cons y rest ih =>
    rw [forEach]
    rcases List.mem_cons.1 hx with rfl | hx
    · exact hf.bind _
    · exact Fails.after (stays y List.mem_cons_self) fun _ =>
        ih (fun z hz => stays z (List.mem_cons_of_mem y hz)) hx

/-! ## Changes of the board -/

theorem Held.modifyPet (h : P.Held hit s) (id : PetId) {f : Pet → Pet}
    (hf : id = P.pet → ∀ pet, P.bears pet.status pet.abilityKind →
      P.bears (f pet).status (f pet).abilityKind) :
    P.Held hit { s with board := s.board.modifyPet id f } where
  wellFormed := h.wellFormed.modifyPet id f
  names := by
    obtain ⟨pet, hpet, hbears⟩ := h.names
    dsimp only
    rw [Board.pet?_modifyPet]
    split
    · rename_i hid
      exact ⟨f pet, by rw [hpet]; rfl, hf hid.symm pet hbears⟩
    · exact ⟨pet, hpet, hbears⟩
  foremost := h.foremost
  faced := h.faced
  rear id' hid := (h.rear id' hid).modifyPet id f
  waiting side attack hm := ⟨(h.waiting side attack hm).1, fun id' hid =>
    ((h.waiting side attack hm).2 id' hid).modifyPet id f⟩

theorem Held.leave {b : Board} (h : P.Held hit s) (hr : s.board.Rear id)
    (hl : s.board.Leaves id side b) : P.Held hit { s with board := b } where
  wellFormed := hl.wellFormed h.wellFormed
  names := by
    dsimp only
    rw [hl.pet?]
    exact h.names
  foremost := (hl.front? hr P.side).trans h.foremost
  faced := by
    dsimp only
    rw [hl.front? hr]
    exact h.faced
  rear id' hid := (h.rear id' hid).leave hl hr
  waiting side' attack hm := ⟨(h.waiting side' attack hm).1, fun id' hid =>
    ((h.waiting side' attack hm).2 id' hid).leave hl hr⟩

theorem Held.exchange {b : Board} {pet : Pet} {new : PetId} (h : P.Held hit s) (hid : id ≠ P.pet)
    (enemy : ∀ id, P.enemy id) (he : s.board.Exchanges id side pet new b) :
    P.Held hit { s with board := b } where
  wellFormed := he.wellFormed h.wellFormed
  names := by
    dsimp only
    rw [he.pet?, if_neg (he.toStores.ne h.wellFormed h.mem)]
    exact h.names
  foremost := by
    rcases he.front? P.side with ⟨_, hold⟩ | hsame
    · rw [h.foremost] at hold
      exact absurd (Option.some.inj hold).symm hid
    · exact hsame.trans h.foremost
  faced := by
    obtain ⟨foe, hfoe, _⟩ := h.faced
    rcases he.front? P.side.opponent with ⟨hnew, _⟩ | hsame
    · exact ⟨new, hnew, enemy new⟩
    · exact ⟨foe, hsame.trans hfoe, enemy foe⟩
  rear id' hid := (h.rear id' hid).exchange h.wellFormed he
  waiting side' attack hm := ⟨(h.waiting side' attack hm).1, fun id' hid =>
    ((h.waiting side' attack hm).2 id' hid).exchange h.wellFormed he⟩

/-! ## Elementary steps -/

/-- A step that leaves the board and the queues alone. -/
theorem stays_of_unseen (h : ∀ s, (m s).2.board = s.board ∧ (m s).2.queues = s.queues) :
    P.Stays hit m := by
  apply Triple.intro
  intro s hs
  have held := hs.congr (h s).1 (h s).2
  generalize m s = r at held
  obtain ⟨r, t⟩ := r
  cases r with
  | ok x => exact held
  | error e => trivial

theorem stays_look (f : Arena → α) : P.Stays hit (look f) := stays_of_unseen fun _ => ⟨rfl, rfl⟩

theorem triple_board : Triple anyway (P.Held hit) board fun b s => s.board = b ∧ P.Held hit s :=
  Triple.intro fun _ hs => ⟨rfl, hs⟩

theorem yields_lookUp (r : Except EngineError α) :
    Yields (.same anyway) (Same (P.Held hit)) (fun x => r = .ok x) (ofExcept r) (ofExcept r) :=
  yields_ofExcept fun _ _ _ _ hst => ⟨hst.1, trivial⟩

theorem stays_modifyPet (id : PetId) {f : Pet → Pet}
    (hf : id = P.pet → ∀ pet, P.bears pet.status pet.abilityKind →
      P.bears (f pet).status (f pet).abilityKind) : P.Stays hit (modifyPet id f) :=
  Triple.intro fun _ hs => hs.modifyPet id hf

/-- Status and ability stay what they are. -/
theorem stays_modifyPet_of_same (id : PetId) {f : Pet → Pet}
    (hf : ∀ pet, (f pet).status = pet.status ∧ (f pet).abilityKind = pet.abilityKind) :
    P.Stays hit (modifyPet id f) :=
  stays_modifyPet id fun _ pet hbears => by rwa [(hf pet).1, (hf pet).2]

theorem stays_modifyTargets (event : Event) (actor : Option PetId) (selector : Selector)
    {f : Pet → Pet} (hf : ∀ id, P.Stays hit (modifyPet id f)) :
    P.Stays hit (do
      let ids ← targets event actor selector
      modifyPets ids f
      pure ids) :=
  Couples.bind (stays_of_unseen fun _ => ⟨rfl, rfl⟩) fun ids =>
    Couples.bind (keeps_forEach ids fun id _ => hf id) fun _ => keeps_pure ids

theorem stays_enqueue {target : PetId} (attacker : PetId) (side : Side) (damage : Int) :
    Triple anyway (fun s => P.Held hit s ∧ s.board.Rear target)
      (enqueue ⟨attacker, side, [target], damage, false⟩) fun _ => P.Held hit := by
  apply Triple.intro
  rintro s ⟨hs, hr⟩
  refine { hs with waiting := fun side' attack hm => ?_ }
  replace hm : attack ∈ (enqueue ⟨attacker, side, [target], damage, false⟩ s).2.waits side' := hm
  rw [waits_enqueue, List.mem_append] at hm
  rcases hm with hm | hm
  · exact hs.waiting side' attack hm
  · split at hm
    · rw [List.mem_singleton] at hm
      subst hm
      exact ⟨rfl, fun id hid => List.mem_singleton.1 hid ▸ hr⟩
    · cases hm

/-! ## Performing effects -/

theorem stays_modifyStats (event : Event) (actor : Option PetId) (attack health : Int)
    (target : Selector) (temporary : Bool) :
    P.Stays hit (modifyStats event actor attack health target temporary) := by
  unfold modifyStats
  split
  · split
    · exact keeps_pure _
    · exact Couples.bind (stays_of_unseen fun _ => ⟨rfl, rfl⟩) fun _ => keeps_pure _
  · exact stays_modifyTargets event actor _ fun id =>
      stays_modifyPet_of_same id fun _ => ⟨rfl, rfl⟩

theorem names_gainPoint (pet : Pet) :
    pet.gainPoint.status = pet.status ∧ pet.gainPoint.abilityKind = pet.abilityKind := by
  unfold Pet.gainPoint
  split <;> exact ⟨rfl, rfl⟩

theorem names_copyStats (donor : Pet) (copyAttack copyHealth : Bool) (pet : Pet) :
    (copyStats donor copyAttack copyHealth pet).status = pet.status ∧
      (copyStats donor copyAttack copyHealth pet).abilityKind = pet.abilityKind := by
  cases copyAttack <;> cases copyHealth <;> exact ⟨rfl, rfl⟩

theorem stays_teach (hr : ∀ event, P.Stays hit (raise event)) (event : Event) (amount : Nat)
    (id : PetId) : P.Stays hit (teach raise event amount id) := by
  refine Couples.bind (stays_look _) fun b => ?_
  split
  · exact keeps_pure _
  · rename_i side _
    induction amount with
    | zero => exact keeps_pure _
    | succ amount ih =>
      unfold grantExperience
      refine Couples.bind (stays_look _) fun found => ?_
      split
      · exact keeps_pure _
      · split
        · exact keeps_pure _
        · refine Couples.bind (stays_modifyPet_of_same id names_gainPoint) fun _ => ?_
          split
          · exact ih
          · refine Couples.bind (hr _) fun _ => ?_
            refine Couples.bind (stays_modifyPet_of_same id fun _ => ⟨rfl, rfl⟩) fun _ => ?_
            split
            · exact keeps_pure _
            · exact ih

theorem stays_splashDamage (event : Event) (actor : Option PetId) (amount : Int) :
    P.Stays hit (splashDamage event actor amount) := by
  unfold splashDamage
  split
  · rename_i attacker _
    refine Couples.bind triple_board fun b => ?_
    split
    · exact couples_pure _ fun _ _ h => ⟨h.1, h.2.2⟩
    · split
      · exact couples_pure _ fun _ _ h => ⟨h.1, h.2.2⟩
      · rename_i target hsecond
        refine Couples.bind ((stays_enqueue attacker _ amount).weaken (fun _ _ h => h) ?_ fun _ _ h => h)
          fun _ => keeps_pure _
        rintro s ⟨rfl, hs⟩
        exact ⟨hs, hs.wellFormed.rear_of_second? hsecond⟩
  · exact keeps_pure _

theorem stays_donor (event : Event) (actor : Option PetId) (selector : Selector) :
    P.Stays hit (donor event actor selector) :=
  Couples.bind (stays_of_unseen fun _ => ⟨rfl, rfl⟩) fun _ =>
    Couples.bind (stays_look _) fun _ => keeps_pure _

/-- Where abilities are repeated nothing evolves, so any pet may perform again. -/
def Again (P : Foremost) (hit : PetId → Prop) (again : Option Again) : Prop :=
  ∀ a, again = some a → (∀ into, ¬ P.effects (.evolve into)) →
    ∀ id effect, effect.Every P.effects → P.Stays hit (a id effect)

theorem again_none : P.Again hit none := by
  rintro a ⟨⟩

section

variable (hP : P.Holds rules.catalog)
include hP

theorem stays_transferAbility (event : Event) (actor : Option PetId) {giver receivers : Selector}
    {level : Option Nat} (he : P.effects (.transferAbility giver receivers level)) :
    P.Stays hit (transferAbility event actor giver receivers level) := by
  refine Couples.bind (stays_donor event actor giver) fun found => ?_
  split
  · exact keeps_pure _
  · exact stays_modifyTargets event actor _ fun id => stays_modifyPet id fun _ _ =>
      hP.borrows _ _ _ he _ _ _

/-- The pet that is to stay foremost does not evolve. -/
theorem stays_evolve (actor : Option PetId) {into : PetKindId} (he : P.effects (.evolve into))
    (ha : actor ≠ some P.pet) : P.Stays hit (evolve rules actor into) := by
  refine Couples.bind (stays_of_unseen fun _ => ⟨rfl, rfl⟩) fun kind => ?_
  split
  · exact keeps_pure _
  · rename_i id
    refine Couples.bind (triple_replace fun s hs side new b hb => ?_) fun _ => keeps_pure _
    exact hs.exchange (fun hid => ha (hid ▸ rfl)) (hP.enemy into he) hb

theorem stays_repeatAbility {again : Option Resolve.Again} (ha : P.Again hit again) (event : Event)
    (actor : Option PetId) {target : Selector} {level : Option Nat}
    (he : P.effects (.repeatAbility target level)) :
    P.Stays hit (repeatAbility rules again event actor target level) := by
  unfold repeatAbility
  split
  · rename_i caster a _
    refine Couples.bind (stays_look _) fun found => ?_
    split
    · exact keeps_pure _
    · rename_i pet
      refine Yields.bind (yields_lookUp _) fun kind hk => ?_
      split
      · exact keeps_pure _
      · rename_i ability hability
        have offered := hP.offered ability (PetKind.offers_ability hk hability)
        refine Couples.bind (stays_of_unseen fun _ => ⟨rfl, rfl⟩) fun ids => ?_
        refine Couples.bind (keeps_forEach ids fun id _ => ?_) fun _ => keeps_pure _
        exact ha a rfl (fun into h => hP.repeats into target level h he) id _ offered
  · exact keeps_pure _

end

mutual

/-- The actor is not the pet that is to stay foremost, or nothing evolves. -/
theorem stays_performWith (hP : P.Holds rules.catalog)
    (hr : ∀ event, P.Stays hit (raise event)) {again : Option Resolve.Again}
    (ha : P.Again hit again) (event : Event) {actor : Option PetId}
    (hactor : (∃ into, P.effects (.evolve into)) → actor ≠ some P.pet) :
    (effect : Effect) → effect.Every P.effects →
      P.Stays hit (performWith rules raise again event actor effect)
  | .oneOf effects, he => by
    refine Couples.bind (stays_of_unseen fun _ => ⟨rfl, rfl⟩) fun i => ?_
    split
    · exact keeps_pure _
    · exact stays_performNth hP hr ha event hactor effects _ he.2
  | .allOf effects, he => by
    rw [performWith]
    exact stays_performAll hP hr ha event hactor [] effects he.2
  | .modifyStats .., _ => stays_modifyStats event actor _ _ _ _
  | .gainExperience amount _, _ =>
    Couples.bind (stays_of_unseen fun _ => ⟨rfl, rfl⟩) fun ids =>
      Couples.bind (keeps_forEach ids fun id _ => stays_teach hr event amount id) fun _ => keeps_pure ids
  | .applyStatus .., he => absurd trivial (hP.diverts _ he.1)
  | .dealDamage .., he => absurd trivial (hP.diverts _ he.1)
  | .splashDamage _, _ => stays_splashDamage event actor _
  | .reduceHealth .., _ =>
    stays_modifyTargets event actor _ fun id => stays_modifyPet_of_same id fun _ => ⟨rfl, rfl⟩
  | .summonPet .., he => absurd trivial (hP.diverts _ he.1)
  | .summonRandomPet .., he => absurd trivial (hP.diverts _ he.1)
  | .respawnPet .., he => absurd trivial (hP.diverts _ he.1)
  | .transferStats giver receivers copyAttack copyHealth, _ => by
    refine Couples.bind (stays_donor event actor giver) fun found => ?_
    split
    · exact keeps_pure _
    · exact stays_modifyTargets event actor _ fun id =>
        stays_modifyPet_of_same id (names_copyStats _ copyAttack copyHealth)
  | .transferAbility .., he => stays_transferAbility hP event actor he.1
  | .gainGold _, _ => Couples.bind (stays_of_unseen fun _ => ⟨rfl, rfl⟩) fun _ => keeps_pure _
  | .evolve into, he => stays_evolve hP actor he.1 (hactor ⟨into, he.1⟩)
  | .repeatAbility .., he => stays_repeatAbility hP ha event actor he.1
  | .modifyDamage .., _ => keeps_pure _

theorem stays_performNth (hP : P.Holds rules.catalog)
    (hr : ∀ event, P.Stays hit (raise event)) {again : Option Resolve.Again}
    (ha : P.Again hit again) (event : Event) {actor : Option PetId}
    (hactor : (∃ into, P.effects (.evolve into)) → actor ≠ some P.pet) :
    (effects : List Effect) → (i : Nat) → Effect.EveryOf P.effects effects →
      P.Stays hit (performNth rules raise again event actor effects i)
  | [], _, _ => keeps_pure _
  | e :: _, 0, he => stays_performWith hP hr ha event hactor e he.1
  | _ :: rest, i + 1, he => stays_performNth hP hr ha event hactor rest i he.2

theorem stays_performAll (hP : P.Holds rules.catalog)
    (hr : ∀ event, P.Stays hit (raise event)) {again : Option Resolve.Again}
    (ha : P.Again hit again) (event : Event) {actor : Option PetId}
    (hactor : (∃ into, P.effects (.evolve into)) → actor ≠ some P.pet) :
    (touched : List (List PetId)) → (effects : List Effect) → Effect.EveryOf P.effects effects →
      P.Stays hit (performAll rules raise again event actor touched effects)
  | _, [], _ => keeps_pure _
  | _, e :: rest, he =>
    Couples.bind (stays_performWith hP hr ha event hactor e he.1) fun _ =>
      stays_performAll hP hr ha event hactor _ rest he.2

end

/-- By recursion on the causes of the event, which repeated effects answer. -/
theorem stays_perform (hP : P.Holds rules.catalog) (hr : ∀ event, P.Stays hit (raise event)) :
    (event : Event) → (actor : Option PetId) →
      ((∃ into, P.effects (.evolve into)) → actor ≠ some P.pet) →
      (effect : Effect) → effect.Every P.effects →
      P.Stays hit (perform rules raise event actor effect)
  | ⟨_, _, _, _, _, _, none⟩, _, hactor, effect, he => by
    rw [perform]
    exact stays_performWith hP hr again_none _ hactor effect he
  | ⟨_, _, _, _, _, _, some cause⟩, _, hactor, effect, he => by
    rw [perform]
    refine stays_performWith hP hr (fun a hagain unevolving id e he => ?_) _ hactor effect he
    cases hagain
    have lasting : (∃ into, P.effects (.evolve into)) → some id ≠ some P.pet := by
      rintro ⟨into, h⟩
      exact absurd h (unevolving into)
    exact Couples.bind (stays_perform hP hr cause (some id) lasting e he) fun _ => keeps_pure _

/-! ## Telling events -/

theorem stays_shouldFire (holder : Holder) (id : PetId) (ability : Ability) (event : Event)
    (line : List PetId) : P.Stays hit (shouldFire holder id ability event line) := by
  unfold shouldFire
  split
  · split
    · exact keeps_pure _
    · refine Couples.bind (stays_look _) fun found => ?_
      split
      · exact keeps_pure _
      · dsimp only
        split
        · exact keeps_pure _
        · exact Couples.bind (stays_modifyPet_of_same id fun _ => ⟨rfl, rfl⟩) fun _ => keeps_pure _
  · exact keeps_pure _

theorem stays_announceCast (hr : ∀ event, P.Stays hit (raise event)) (caster : PetId)
    (effect : Effect) (event : Event) : P.Stays hit (announceCast raise caster effect event) := by
  unfold announceCast
  split
  · exact keeps_pure _
  · refine Couples.bind (stays_look _) fun b => ?_
    split
    · exact keeps_pure _
    · exact hr _

theorem triple_nested {Q : Unit → Arena → Prop} {m : Resolve Unit}
    (hm : Triple anyway (P.Held hit) m Q)
    (hQ : ∀ s k, Q () s → Q () { s with nesting := k }) :
    Triple anyway (P.Held hit) (nested m) Q :=
  couples_nested hm (fun _ hs => hs.congr rfl rfl) (fun _ _ _ => trivial) fun _ s hs => hQ s _ hs

theorem stays_countEvent (budget : Nat) : P.Stays hit (countEvent budget) := by
  refine stays_of_unseen fun s => ?_
  unfold countEvent
  split <;> exact ⟨rfl, rfl⟩

/-- The pet may answer the event as long as it is foremost. -/
def Answers (P : Foremost) (c : Catalog) (event : Event) : Prop :=
  ∀ pet, P.bears pet.status pet.abilityKind → c.index.mayReact event.trigger pet = true

section

variable (hP : P.Holds rules.catalog)
include hP

/-- No event can be told to the pet that is foremost. -/
theorem fails_notify {act : Act} (event : Event) (line : List PetId) {pet : Pet}
    (hp : P.bears pet.status pet.abilityKind) :
    P.Fails hit (notify rules raise act event line P.pet pet) := by
  refine Yields.bind (yields_lookUp _) fun level hlevel => ?_
  refine Yields.bind (yields_lookUp _) fun status hstatus => ?_
  exact absurd hstatus (hP.unknown pet level status hp hlevel)

theorem stays_notify (hr : ∀ event, P.Stays hit (raise event)) (event : Event) (line : List PetId)
    {pet : Pet} (hid : id ≠ P.pet) :
    P.Stays hit (notify rules raise (perform rules raise) event line id pet) := by
  have fires {ability : Ability} (ho : rules.catalog.Offers ability) :
      P.Stays hit (perform rules raise event (some id) ability.effect) :=
    stays_perform hP hr event _ (fun _ heq => hid (Option.some.inj heq)) _ (hP.offered _ ho)
  refine Yields.bind (yields_lookUp _) fun level hlevel => ?_
  refine Yields.bind (yields_lookUp _) fun status hstatus => ?_
  refine Couples.bind (Q := fun _ => Same (P.Held hit)) ?_ fun _ => ?_
  · unfold fireLevel
    split
    · exact keeps_pure _
    · refine Couples.bind (stays_shouldFire ..) fun fire => ?_
      split
      · refine Couples.bind (fires (offers_levelAbility hlevel)) fun _ => ?_
        exact stays_announceCast hr ..
      · exact keeps_pure _
  · unfold fireStatus
    split
    · exact keeps_pure _
    · refine Couples.bind (stays_shouldFire ..) fun fire => ?_
      split
      · exact Couples.bind (fires (offers_statusAbility hstatus)) fun _ => keeps_pure _
      · exact keeps_pure _

theorem stays_reached (hr : ∀ event, P.Stays hit (raise event)) (event : Event)
    (line : List PetId) {b : Board} {pet : Pet} (hpet : reached? rules event b id = some pet) :
    Triple anyway (fun s => s.board = b ∧ P.Held hit s)
      (notify rules raise (perform rules raise) event line id pet) fun _ => P.Held hit := by
  by_cases hid : id = P.pet
  · subst hid
    apply Triple.intro
    rintro s ⟨rfl, hs⟩
    obtain ⟨own, hown, hbears⟩ := hs.names
    rw [pet?_of_reached? hpet] at hown
    cases hown
    exact triple_iff.1 (fails_notify hP event line hbears).stays s hs
  · exact (stays_notify hP hr event line hid).weaken (fun _ _ h => h) (fun _ h => h.2) fun _ _ h => h

theorem stays_walk (hr : ∀ event, P.Stays hit (raise event)) (event : Event)
    (line reached ids : List PetId) :
    P.Stays hit (walk rules raise (perform rules raise) event line reached ids) := by
  induction ids generalizing reached with
  | nil => exact keeps_pure _
  | cons id rest ih =>
    unfold walk
    refine Couples.bind triple_board fun b => ?_
    split
    · exact (ih reached).weaken (fun _ _ h => h) (fun _ h => h.2) fun _ _ h => h
    · rename_i pet hpet
      exact Couples.bind (stays_reached hP hr event line hpet) fun _ => ih _

/-- The walk of an event that the pet may answer does not come past it. -/
theorem fails_walk (hr : ∀ event, P.Stays hit (raise event)) {event : Event}
    (ha : P.Answers rules.catalog event) (line reached : List PetId) {ids : List PetId}
    (hm : P.pet ∈ ids) :
    P.Fails hit (walk rules raise (perform rules raise) event line reached ids) := by
  induction ids generalizing reached with
  | nil => cases hm
  | cons id rest ih =>
    unfold walk
    refine Couples.bind triple_board fun b => ?_
    by_cases hid : id = P.pet
    · subst hid
      apply Triple.intro
      rintro s ⟨rfl, hs⟩
      obtain ⟨own, hown, hbears⟩ := hs.names
      rw [hs.reached? hown (ha own hbears)]
      exact triple_iff.1 ((fails_notify hP event line hbears).bind _) s hs
    · have later := fun reached => ih reached ((List.mem_cons.1 hm).resolve_left (Ne.symm hid))
      split
      · exact (later reached).weaken (fun _ _ h => h) (fun _ h => h.2) fun _ _ h => h
      · rename_i pet hpet
        exact Couples.bind (stays_reached hP hr event line hpet) fun _ => later _

theorem stays_notifyAll (hr : ∀ event, P.Stays hit (raise event)) (event : Event) :
    P.Stays hit (notifyAll rules raise (perform rules raise) event) := by
  refine Couples.bind (stays_look _) fun line => Couples.bind (stays_look _) fun depth => ?_
  refine Couples.bind (stays_of_unseen fun _ => ⟨rfl, rfl⟩) fun slot => ?_
  refine Couples.bind (stays_walk hP hr event line [] line) fun notified => ?_
  cases slot with
  | none => exact keeps_pure ()
  | some slot => exact stays_of_unseen fun _ => ⟨rfl, rfl⟩

theorem fails_notifyAll (hr : ∀ event, P.Stays hit (raise event)) {event : Event}
    (hside : event.side = P.side) (hfresh : event.snapshot = none)
    (ha : P.Answers rules.catalog event) :
    P.Fails hit (notifyAll rules raise (perform rules raise) event) := by
  have lined : Triple anyway (P.Held hit)
      (look fun s => event.snapshot.getD (s.board.roster event.side))
      fun line s => P.pet ∈ line ∧ P.Held hit s :=
    Triple.intro fun s hs => ⟨by rw [hfresh, hside]; exact hs.mem, hs⟩
  refine Couples.bind lined fun line => Triple.intro fun s hs => ?_
  have walked : P.Fails hit (do
      let depth ← look (·.nesting)
      let slot ← openRecord ⟨event.trigger, event.side, event.source, [], depth⟩
      let notified ← walk rules raise (perform rules raise) event line [] line
      setNotified slot notified) :=
    Fails.after (stays_look _) fun depth =>
      Fails.after (stays_of_unseen fun _ => ⟨rfl, rfl⟩) fun slot =>
        (fails_walk hP hr ha line [] hs.1).bind _
  exact triple_iff.1 walked s hs.2

/-- By induction on the room for nesting. -/
theorem stays_dispatchIn (room : Nat) (event : Event) :
    P.Stays hit (dispatchIn rules room event) := by
  induction room generalizing event with
  | zero => exact Triple.intro fun _ _ => trivial
  | succ room ih =>
    refine Couples.bind (stays_countEvent _) fun _ => ?_
    exact triple_nested (stays_notifyAll hP ih event) fun _ _ hs => hs.congr rfl rfl

/-- An event that the pet may answer cannot be told to its line. -/
theorem fails_dispatchIn (room : Nat) {event : Event} (hside : event.side = P.side)
    (hfresh : event.snapshot = none) (ha : P.Answers rules.catalog event) :
    P.Fails hit (dispatchIn rules room event) := by
  cases room with
  | zero => exact Triple.intro fun _ _ => trivial
  | succ room =>
    refine Fails.after (stays_countEvent _) fun _ => ?_
    have notified : P.Fails hit (notifyAll rules (dispatchIn rules room)
        (perform rules (dispatchIn rules room)) event) :=
      fails_notifyAll hP (stays_dispatchIn hP room) hside hfresh ha
    exact triple_nested notified fun _ _ => id

end

end Foremost

end AutoBattler
