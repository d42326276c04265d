import SuiteScript.CommandLine.Run

/-! # The program

    Reads the arguments and the plan file, and prints the answer.  What the
    answer is, `CommandLine.parse`, `Command.respond` and `Refusal.respond`
    decide. -/

namespace SuiteScript.CommandLine

/-- Reads a file, or says why it cannot be read. -/
def readPlanFile (path : String) : IO (Except String String) := do
  try
    return .ok (← IO.FS.readFile path)
  catch e =>
    match e with
    | .noFileOrDirectory .. => return .error "No such file or directory (os error 2)"
    | e => return .error (toString e)

/-- The answer to the arguments. -/
def answer (args : List String) : IO Response := do
  match parse args with
  | .ok command => return command.respond (← readPlanFile command.plan)
  | .error refusal => return refusal.respond

end SuiteScript.CommandLine

/-- Prints the answer to the arguments and ends with its status. -/
def main (args : List String) : IO UInt32 := do
  let response ← SuiteScript.CommandLine.answer args
  IO.print response.stdout
  IO.eprint response.stderr
  return UInt32.ofNat response.exitCode
