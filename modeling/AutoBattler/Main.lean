import AutoBattler.CommandLine.Run

/-!
# The program

Hands the command line over and prints what comes back.
-/
namespace AutoBattler

def readFile? (path : String) : IO (Option String) := do
  try
    return some (← IO.FS.readFile path)
  catch _ => return none

end AutoBattler

def main (args : List String) : IO UInt32 := do
  let outcome ← AutoBattler.CommandLine.run AutoBattler.readFile? args
  (← IO.getStdout).putStr outcome.stdout
  (← IO.getStderr).putStr outcome.stderr
  return .ofNat outcome.code
