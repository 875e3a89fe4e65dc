import AutoBattler.Battle
import AutoBattler.Hash.Sip

/-!
# Tournaments

Every pair of teams fights once, the earlier team on side `a`. Each pair has a seed of its own,
made from the master seed and the places of the two teams, so a pairing does not depend on the
others.
-/
namespace AutoBattler

/-- A team's record. -/
structure Standing where
  team : Nat
  wins : Nat
  draws : Nat
  losses : Nat
deriving DecidableEq

namespace Standing

def points (s : Standing) : Nat := 3 * s.wins + s.draws

def played (s : Standing) : Nat := s.wins + s.draws + s.losses

/-- More points come first, and of equal points the earlier team. -/
def precedes (s t : Standing) : Bool :=
  t.points < s.points || (s.points = t.points && s.team ≤ t.team)

end Standing

structure Pairing where
  first : Nat
  second : Nat
  /-- From the point of view of the first team. -/
  outcome : BattleOutcome
  rounds : Nat
deriving DecidableEq

namespace Tournament

def pairingSeed (master first second : Nat) : Nat :=
  (Hash.sip [.ofNat master, .ofNat first, .ofNat second]).toNat

/-- Pairs each element with each later one. -/
def pairs {α : Type} : List α → List (α × α)
  | [] => []
  | x :: rest => rest.map (fun y => (x, y)) ++ pairs rest

def playPair (rules : Rules) (first second : Nat × Team) : Except EngineError Pairing := do
  let seed := pairingSeed rules.config.seed first.1 second.1
  let rules := { rules with config := { rules.config with seed := seed } }
  let report ← Battle.fight rules ⟨first.2, second.2⟩
  return ⟨first.1, second.1, report.outcome, report.rounds⟩

def numbered (teams : List Team) : List (Nat × Team) := (List.range teams.length).zip teams

/-- All pairings in the order of their teams, or the first error. -/
def playPairings (rules : Rules) (teams : List Team) : Except EngineError (List Pairing) :=
  (pairs (numbered teams)).mapM fun pair => playPair rules pair.1 pair.2

/-- What a pairing adds to the record of a team. -/
def credit (s : Standing) (p : Pairing) : Standing :=
  if s.team = p.first then
    match p.outcome with
    | .teamOneWins => { s with wins := s.wins + 1 }
    | .teamTwoWins => { s with losses := s.losses + 1 }
    | .draw => { s with draws := s.draws + 1 }
  else if s.team = p.second then
    match p.outcome with
    | .teamOneWins => { s with losses := s.losses + 1 }
    | .teamTwoWins => { s with wins := s.wins + 1 }
    | .draw => { s with draws := s.draws + 1 }
  else s

def standing (pairings : List Pairing) (team : Nat) : Standing :=
  pairings.foldl credit ⟨team, 0, 0, 0⟩

def table (teams : Nat) (pairings : List Pairing) : List Standing :=
  ((List.range teams).map (standing pairings)).mergeSort Standing.precedes

def roundRobin (rules : Rules) (teams : List Team) : Except EngineError (List Standing) :=
  (playPairings rules teams).map (table teams.length)

end Tournament

end AutoBattler
