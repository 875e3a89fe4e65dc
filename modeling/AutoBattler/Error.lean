import AutoBattler.Identifier
import AutoBattler.Trigger

/-!
# Errors

What a resolution can fail on: a name that nothing defines, an index that a caller got wrong, or
a limit on nested or counted events. Empty target lists and full rosters are no errors.
-/
namespace AutoBattler

inductive EngineError where
  | unknownPetKind (id : PetKindId)
  | unknownStatus (id : StatusId)
  | unknownFood (id : FoodId)
  | emptyTier (tier : Nat)
  | rosterIndex (index length : Nat)
  | dispatchDepthExceeded (trigger : Trigger) (limit : Nat)
  | eventBudgetExceeded (limit : Nat)
  | invalidDefinitions
deriving DecidableEq

namespace EngineError

def message : EngineError → String
  | unknownPetKind id => s!"unknown pet kind `{id.text}`"
  | unknownStatus id => s!"unknown status `{id.text}`"
  | unknownFood id => s!"unknown food `{id.text}`"
  | emptyTier tier => s!"no pet kinds available in tier {tier}"
  | rosterIndex index length => s!"roster index {index} out of range for {length} pets"
  | dispatchDepthExceeded trigger limit =>
    s!"dispatch of `{trigger.name}` exceeded the nesting limit of {limit}"
  | eventBudgetExceeded limit => s!"resolution exceeded the budget of {limit} dispatched events"
  | invalidDefinitions => "invalid definition data"

end EngineError

end AutoBattler
