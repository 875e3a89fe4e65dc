import AutoBattler.Resolution.Perform

/-!
# Telling events

An event walks the line of the side it is told to. For each pet the ability of its level comes
before that of its status, and events raised on the way are told in full before the walk goes on.
Nesting and the number of events are limited; crossing a limit ends the resolution.
-/
namespace AutoBattler

namespace Resolve

/-- Whether an ability listens to the event, for a pet in the line that is walked. -/
def hears (audience : Audience) (id : PetId) (event : Event) (walked : List PetId) : Bool :=
  match audience with
  | .player => true
  | .self => event.source = some id
  | .eachFriend => event.source ≠ some id
  | .friendAhead =>
    match event.source.bind walked.idxOf? with
    | some (place + 1) => walked[place]? = some id
    | _ => false

/-- Which of its two abilities a pet uses. Each has counters of its own. -/
inductive Holder where
  | level
  | status
deriving DecidableEq

def Holder.counterKey (holder : Holder) (trigger : Trigger) : String :=
  match holder with
  | .level => "ability:" ++ trigger.name
  | .status => "status:" ++ trigger.name

/-- Whether an ability fires now. A firing that is limited is counted. -/
def shouldFire (holder : Holder) (id : PetId) (ability : Ability) (event : Event)
    (line : List PetId) : Resolve Bool := do
  if ability.trigger = event.trigger ∧ hears ability.audience id event line then
    match ability.maxTriggers with
    | none => pure true
    | some limit =>
      match ← pet? id with
      | none => pure false
      | some pet =>
        let key := holder.counterKey ability.trigger
        if (limit : Int) ≤ pet.counter key then pure false
        else do
          modifyPet id (Pet.bump key)
          pure true
  else pure false

/-- The event that a cast is, told to the side of the caster. -/
def castEvent (caster : PetId) (side : Side) (event : Event) : Event where
  trigger := .castsAbility
  source := some caster
  side := side
  snapshot := if event.side = side then event.snapshot else none
  phase := event.phase
  repeated := false
  cause := some event.asCause

/-- In battle a pet that used its own ability has cast. Answers to a cast, repeats and abilities
that only repeat are not announced. -/
def announceCast (raise : Raise) (caster : PetId) (effect : Effect) (event : Event) :
    Resolve Unit := do
  if !event.isBattle || event.repeated || event.trigger = .castsAbility || effect.isRepeatAbility
  then pure ()
  else match (← board).sideOf? caster with
    | none => pure ()
    | some side => raise (castEvent caster side event)

/-- How an effect is performed in answer to an event. -/
abbrev Act := Event → Option PetId → Effect → Resolve (List PetId)

def fireLevel (raise : Raise) (act : Act) (id : PetId) (event : Event) (line : List PetId)
    (ability : Option Ability) : Resolve Unit := do
  match ability with
  | none => pure ()
  | some ability =>
    if ← shouldFire .level id ability event line then do
      let _ ← act event (some id) ability.effect
      announceCast raise id ability.effect event
    else pure ()

def fireStatus (act : Act) (id : PetId) (event : Event) (line : List PetId)
    (ability : Option Ability) : Resolve Unit := do
  match ability with
  | none => pure ()
  | some ability =>
    if ← shouldFire .status id ability event line then do
      let _ ← act event (some id) ability.effect
      pure ()
    else pure ()

/-- Lets one pet answer. Both abilities are looked up before the first fires. -/
def notify (rules : Rules) (raise : Raise) (act : Act) (event : Event) (line : List PetId)
    (id : PetId) (pet : Pet) : Resolve Unit := do
  let level ← ofExcept (rules.catalog.levelAbility pet)
  let status ← ofExcept (rules.catalog.statusAbility pet)
  fireLevel raise act id event line level
  fireStatus act id event line status

/-- The pet as it is, if the event reaches it: only if one of its abilities may answer, and then
the source always, another pet while it stands in line. -/
def reached? (rules : Rules) (event : Event) (b : Board) (id : PetId) : Option Pet :=
  match b.entrant? id with
  | none => none
  | some entrant =>
    if rules.catalog.index.mayReact event.trigger entrant.pet &&
        (event.source = some id || b.isInLine entrant.side id) then some entrant.pet
    else none

/-- Lets the pets of a line answer one after the other and lists those that were reached. The pets
reached so far come newest first. -/
def walk (rules : Rules) (raise : Raise) (act : Act) (event : Event) (line : List PetId)
    (reached : List PetId) : List PetId → Resolve (List PetId)
  | [] => pure reached.reverse
  | id :: rest => do
    match reached? rules event (← board) id with
    | none => walk rules raise act event line reached rest
    | some pet =>
      notify rules raise act event line id pet
      walk rules raise act event line (id :: reached) rest

def notifyAll (rules : Rules) (raise : Raise) (act : Act) (event : Event) : Resolve Unit := do
  let line ← look fun s => event.snapshot.getD (s.board.roster event.side)
  let depth ← look (·.nesting)
  let slot ← openRecord ⟨event.trigger, event.side, event.source, [], depth⟩
  let notified ← walk rules raise act event line [] line
  setNotified slot notified

/-- Tells an event while `room` further levels of nesting are allowed. -/
def dispatchIn (rules : Rules) : (room : Nat) → Event → Resolve Unit
  | 0, event => fail (.dispatchDepthExceeded event.trigger rules.config.maxDispatchDepth)
  | room + 1, event => do
    countEvent rules.config.maxEvents
    nested (notifyAll rules (dispatchIn rules room) (perform rules (dispatchIn rules room)) event)

/-- Tells an event that no other event led to. -/
def dispatch (rules : Rules) (event : Event) : Resolve Unit :=
  dispatchIn rules rules.config.maxDispatchDepth event

end Resolve

end AutoBattler
