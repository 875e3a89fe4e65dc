import AutoBattler.Proofs.Battles
import AutoBattler.Proofs.Scope

/-!
# A catalog of two kinds

The running example. A hippo that knocks an enemy out calls for help, and the spirit that it is
under heals it, in whichever ways the two effects say; an ant has no ability. A line of four ants
with a hippo in front meets one ant, and the hippo is hit as hard as it hits.
-/
namespace AutoBattler

def ant : PetKind := ⟨⟨"pet-ant"⟩, "pet-ant", 1, 1, 1, [], none, none, none⟩

def hippo (call : Effect) : PetKind :=
  ⟨⟨"pet-hippo"⟩, "pet-hippo", 1, 4, 5, [], some ⟨"", .knockout, .self, call, none⟩, none, none⟩

def spirit (heal : Effect) : StatusKind :=
  ⟨⟨"status-spirit"⟩, "status-spirit", ⟨"", .knockout, .self, heal, none⟩⟩

def rescueCatalog (call heal : Effect) : Catalog := .ofLists [hippo call, ant] [spirit heal] []

def rescuePets (call heal : Effect) : Sides (List Pet) where
  a := List.replicate 4 (.ofKind ant) ++
    [((Pet.ofKind (hippo call)).setHealth 1).setStatus (some (spirit heal).id)]
  b := [.ofKind ant]

def rescueTeams (call heal : Effect) : Sides Team := (rescuePets call heal).map Team.ofPets

/-- An ant comes to help. -/
def callAnt : Effect := .summonPet ⟨"pet-ant"⟩ .friendly none none

/-- The hippo gains a point of health. -/
def healSelf : Effect := .modifyStats 0 1 .self false

variable {call heal : Effect}

theorem every_rescueCatalog {p : Effect → Prop} (hc : call.Every p) (hh : heal.Every p) :
    (rescueCatalog call heal).Every p := by
  apply Catalog.every_ofLists
  · intro kind hm ability ha
    simp only [List.mem_cons, List.not_mem_nil, or_false] at hm
    rcases hm with rfl | rfl
    · simp only [hippo, List.mem_cons, Option.some.injEq, reduceCtorEq, List.not_mem_nil,
        or_false] at ha
      rw [ha]
      exact hc
    · simp [ant] at ha
  · intro status hm
    rw [List.mem_singleton] at hm
    rw [hm]
    exact hh
  · intro food hm
    cases hm

theorem eq_of_petKind_rescueCatalog {id : PetKindId} {kind : PetKind}
    (h : (rescueCatalog call heal).petKind id = .ok kind) : kind = hippo call ∨ kind = ant := by
  have hm := Table.mem_of_getElem?_ofValues PetKind.id (Catalog.petKind_eq_ok.1 h)
  simpa only [List.mem_cons, List.not_mem_nil, or_false] using hm

/-! ## The first exchange -/

def rescueRules (call heal : Effect) : Rules := ⟨rescueCatalog call heal, { recordEvents := true }⟩

/-- The hippo loses its health, and knocks its enemy out. -/
def rescue (call heal : Effect) : Except EngineError BattleState × Battle :=
  (Battle.ofTeams { recordEvents := true } (rescueTeams call heal)).step (rescueRules call heal)

theorem sound_rescue (h : (rescue call heal).1 = .ok .running) :
    Battle.Sound (rescueRules call heal) (rescueTeams call heal) (rescue call heal).2 :=
  .played .new h

end AutoBattler
