import ClassTree.CommandLine
/-!
The program: reads the input file of a command and acts out what the command comes to.
-/

namespace ClassTree

def readText (path : String) : IO (Option String) := do
  try
    return some (← IO.FS.readFile path)
  catch _ => return none

def act : Outcome → IO Outcome
  | .writeFile path text => do
    try
      IO.FS.writeFile path text
      return .writeFile path text
    catch _ => return .unwritable path
  | outcome => return outcome

def runCommand (args : List String) : IO Outcome := do
  match Command.parse args with
  | none => return .usage
  | some command =>
    let fallback ← IO.getEnv Command.outputVariable
    act (command.outcome fallback (← readText command.input))

end ClassTree

def main (args : List String) : IO UInt32 := do
  let outcome ← ClassTree.runCommand args
  IO.print outcome.stdout
  IO.eprint outcome.stderr
  return outcome.code.toUInt32
