import HttpService.CommandLine

/-!
# The program

Reads the words of the command line, the file that they name and the environment, and writes the
report.  No connection is opened: a call that gets as far as its transport fails there.
-/

open HttpService

/-- A transport that reaches nobody. -/
def offline : Transport Unit :=
  fun _ state => (.error (.other "no connection"), state)

def readingFault : IO.Error → String
  | .noFileOrDirectory _ _ _ => "No such file or directory (os error 2)"
  | .inappropriateType _ _ _ => "Is a directory (os error 21)"
  | .permissionDenied _ _ _ => "Permission denied (os error 13)"
  | e => toString e

def readInput (file : String) : IO (Except String Bytes) := do
  try
    let bytes ← if file = "-" then (← IO.getStdin).readBinToEnd else IO.FS.readBinFile file
    return .ok bytes.toList
  catch e => return .error (readingFault e)

/-- The variables of the environment that a command looks at. -/
def readVariables : IO (List (String × String)) := do
  let names := [Settings.baseUrlVariable, Settings.timeoutVariable, Settings.userAgentVariable]
  return (← names.mapM fun n => do return (← IO.getEnv n).map (n, ·)).reduceOption

def main (args : List String) : IO UInt32 := do
  let report ← match CommandLine.command? args with
    | none => pure CommandLine.usage
    | some command => do
      let env ← readVariables
      let input ← (command.file?.map readInput).getD (pure (.ok []))
      pure (command.run input (fun n => env.lookup n) offline ())
  IO.print report.output
  IO.eprint report.errors
  return UInt32.ofNat report.exit
