import SuiteScript.Callback
import SuiteScript.CommandLine.Arguments
import SuiteScript.Listing
import SuiteScript.PlanFile.Plan
import SuiteScript.Script
import SuiteScript.SourceMap.Text

/-! # Running a command

    What a command prints is a function of the text of its plan file.  A
    command that fails prints nothing but its failure. -/

namespace SuiteScript.CommandLine

/-- The version that the program reports. -/
def version : String := "0.3.0"

/-! ### Failures -/

/-- Why a command fails. -/
inductive Failure where
  /-- The plan file cannot be read. -/
  | unreadable (path reason : String)
  /-- The plan file does not hold a plan. -/
  | planFile (error : PlanFileError)
  /-- The name of the observer is refused. -/
  | callback (error : CallbackError)
  /-- The plan cannot be compiled. -/
  | plan (error : PlanError)
  /-- The line executes no fixture or test. -/
  | lineOutside (line : Nat)
deriving DecidableEq, Repr

namespace Failure

/-- The exit status of every failure. -/
def exitCode : Nat := 1

/-- The diagnostic of a failure that has one. -/
def diagnostic? : Failure → Option Diagnostic
  | callback error => some error.diagnostic
  | plan error => some error.diagnostic
  | unreadable .. | planFile _ | lineOutside _ => none

/-- The failure in words. -/
def message : Failure → String
  | unreadable path reason => "Error reading " ++ path ++ ": " ++ reason
  | planFile .notJson => "Error: invalid plan: <json>"
  | planFile .wrongShape =>
    "Error: invalid plan: data did not match any variant of untagged enum PlanFile"
  | callback error => error.message
  | plan error => error.message
  | lineOutside line => "line " ++ toString line ++ " is not inside a fixture or test block"

/-- The lines that are printed for a failure: its code, if it has one, its
    message and its help. -/
def report (f : Failure) : String :=
  match f.diagnostic? with
  | none => f.message ++ "\n"
  | some d =>
    d.code ++ "\n\n  " ++ d.message ++ "\n" ++
      (match d.help with
      | some help => "  help: " ++ help ++ "\n"
      | none => "")

end Failure

/-! ### Commands -/

/-- The steps of a plan file. -/
def parsePlan (text : String) : Except Failure (List Step) :=
  (PlanFile.parse text).mapError .planFile

/-- Compiles a plan once the observer's name has been accepted. -/
def compilePlan (options : Options) (steps : List Step) : Except Failure CompiledPlan := do
  (Callback.validate options.callback).mapError .callback
  (compile options.toConfig options.callback steps).mapError .plan

/-- What a line of a script executes, in words. -/
def describeLine (map : SourceMap) (line : Nat) : Except Failure String :=
  match map.describe line with
  | some description => .ok ("line " ++ toString line ++ ": " ++ description)
  | none => .error (.lineOutside line)

/-- What the program prints, and its exit status. -/
structure Response where
  /-- The exit status; 0 stands for success. -/
  exitCode : Nat := 0
  /-- The text for standard output. -/
  stdout : String := ""
  /-- The text for standard error. -/
  stderr : String := ""
deriving DecidableEq, Repr

/-- The plan file of a command. -/
def Command.plan : Command → String
  | generate plan _ _ => plan
  | list plan => plan
  | resolve plan _ _ => plan

/-- What a command prints when its plan file holds `text`. -/
def Command.run (text : String) : Command → Except Failure Response
  | generate _ showSourceMap options => do
    let compiled ← compilePlan options (← parsePlan text)
    return {
      stdout := if compiled.isEmpty then "" else compiled.sql ++ "\n"
      stderr := if showSourceMap then compiled.sourceMap.render ++ "\n" else "" }
  | list _ => do return { stdout := Listing.render (← parsePlan text) ++ "\n" }
  | resolve _ line options => do
    let compiled ← compilePlan options (← parsePlan text)
    return { stdout := (← describeLine compiled.sourceMap line) ++ "\n" }

/-- The answer to a command whose plan file holds a text, or cannot be read
    for some reason. -/
def Command.respond (command : Command) (file : Except String String) : Response :=
  let result := match file with
    | .ok text => command.run text
    | .error reason => .error (.unreadable command.plan reason)
  match result with
  | .ok response => response
  | .error failure => { exitCode := Failure.exitCode, stderr := failure.report }

/-! ### Refusals -/

/-- The name under which the program is called. -/
def programName : String := "pgmi-plan"

/-- What is printed for help. -/
def usage : String :=
  "Usage: " ++ programName ++ " <COMMAND>\n\n" ++
  "Commands:\n" ++
  "  generate <PLAN>        Print the compiled script\n" ++
  "  list <PLAN>            Print the plan listing\n" ++
  "  resolve <PLAN> <LINE>  Name the step a line of the compiled script belongs to\n"

/-- The answer when there is no command to run. -/
def Refusal.respond : Refusal → Response
  | helpRequested => { stdout := usage }
  | versionRequested => { stdout := programName ++ " " ++ version ++ "\n" }
  | refusal => { exitCode := refusal.exitCode, stderr := usage }

end SuiteScript.CommandLine
