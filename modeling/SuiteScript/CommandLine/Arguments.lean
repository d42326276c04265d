import SuiteScript.CommandLine.Options

/-! # Arguments of the command line

    The first word names a command; the words after it are its options and
    positional arguments.  Words are read from left to right.

    A value that has been read is *pending* until the next word shows that
    it is complete, and only then is it checked.  So a bad value is reported
    after an unknown word that follows it, but before a request for help. -/

namespace SuiteScript.CommandLine

/-! ### Commands -/

/-- What is asked for. -/
inductive Command where
  /-- Prints the script of a plan and, on request, its source map. -/
  | generate (plan : String) (showSourceMap : Bool) (options : Options)
  /-- Prints the listing of a plan. -/
  | list (plan : String)
  /-- Names the step that a line of the script belongs to. -/
  | resolve (plan : String) (line : Nat) (options : Options)
deriving DecidableEq, Repr

/-- Why there is no command to run. -/
inductive Refusal where
  /-- Help was asked for instead. -/
  | helpRequested
  /-- The version was asked for instead. -/
  | versionRequested
  /-- There is not even a command. -/
  | nothingGiven
  /-- The first word is neither a command nor an option. -/
  | unknownCommand
  /-- A word that is no option, or one positional argument too many. -/
  | unknownArgument
  /-- A positional argument is absent. -/
  | missingArgument
  /-- An option has no value, or the plan is the empty word. -/
  | missingValue
  /-- A value is not a whole number of 64 bits. -/
  | malformedNumber
  /-- A switch has a value. -/
  | unwantedValue
  /-- An option is given twice. -/
  | repeatedOption
deriving DecidableEq, Repr

/-- The exit status: only requests for help or the version succeed. -/
def Refusal.exitCode : Refusal → Nat
  | helpRequested | versionRequested => 0
  | _ => 2

/-! ### Words -/

/-- What a word looks like. -/
inductive Word where
  /-- The two dashes after which no word is an option. -/
  | separator
  /-- A name after two dashes, with the value behind an equals sign. -/
  | long (name : String) (value : Option String)
  /-- Letters after one dash. -/
  | short (letters : List Char)
  /-- Anything else, a single dash included. -/
  | plain
deriving DecidableEq, Repr

/-- What a word looks like. -/
def Word.ofString (word : String) : Word :=
  match word.toList with
  | ['-', '-'] => .separator
  | '-' :: '-' :: rest =>
    let name := rest.takeWhile (· != '=')
    match rest.dropWhile (· != '=') with
    | [] => .long (String.ofList name) none
    | _ :: value => .long (String.ofList name) (some (String.ofList value))
  | '-' :: c :: rest => .short (c :: rest)
  | _ => .plain

/-- A whole number of 64 bits: an optional plus sign and digits. -/
def readNumber? (word : String) : Option Nat :=
  let digits := match word.toList with
    | '+' :: rest => rest
    | cs => cs
  if digits.isEmpty || !digits.all Char.isDigit then none
  else
    let n := digits.foldl (fun n c => 10 * n + (c.toNat - '0'.toNat)) 0
    if n < UInt64.size then some n else none

/-! ### What a command takes -/

/-- An argument that a value can be given for. -/
inductive Slot where
  /-- The plan file. -/
  | plan
  /-- A line of the script. -/
  | line
  /-- The observer. -/
  | callback
  /-- The table that holds the scripts' text. -/
  | sourceTable
  /-- The row type that the observer receives. -/
  | eventType
  /-- Spaces in front of the inner lines of a test's block. -/
  | indent
deriving DecidableEq, Repr

/-- An argument that is there or not. -/
inductive Switch where
  /-- The source map is printed as well. -/
  | sourceMap
  /-- Failing tests raise no warning. -/
  | noFailureWarnings
deriving DecidableEq, Repr

/-- What the name of an option stands for. -/
inductive OptionKind where
  /-- An argument with a value. -/
  | value (slot : Slot)
  /-- An argument without one. -/
  | switch (switch : Switch)
  /-- A request for help. -/
  | help
deriving DecidableEq, Repr

/-- The options of a compilation. -/
def compileOptions : List (String × OptionKind) := [
  ("callback", .value .callback),
  ("source-table", .value .sourceTable),
  ("event-type", .value .eventType),
  ("indent", .value .indent),
  ("no-failure-warnings", .switch .noFailureWarnings)]

/-- The arguments of a command. -/
structure Signature where
  /-- What the names of its options stand for. -/
  options : List (String × OptionKind)
  /-- What its other words stand for, in order. -/
  positionals : List Slot

/-- The signature of a command with the given options, help included. -/
def Signature.of (options : List (String × OptionKind)) (positionals : List Slot) : Signature :=
  ⟨("help", .help) :: options, positionals⟩

/-! ### Reading the arguments of a command -/

/-- The arguments whose values have been checked. -/
structure Given where
  /-- The plan file. -/
  plan : Option String := none
  /-- A line of the script. -/
  line : Option Nat := none
  /-- The observer. -/
  callback : Option String := none
  /-- The table that holds the scripts' text. -/
  sourceTable : Option String := none
  /-- The row type that the observer receives. -/
  eventType : Option String := none
  /-- Spaces in front of the inner lines of a test's block. -/
  indent : Option Nat := none
  /-- Is the source map to be printed? -/
  sourceMap : Bool := false
  /-- Should failing tests raise no warning? -/
  noFailureWarnings : Bool := false
deriving DecidableEq, Repr

namespace Given

/-- Has the argument been given? -/
def has (g : Given) : Slot → Bool
  | .plan => g.plan.isSome
  | .line => g.line.isSome
  | .callback => g.callback.isSome
  | .sourceTable => g.sourceTable.isSome
  | .eventType => g.eventType.isSome
  | .indent => g.indent.isSome

/-- A value that has to be a number. -/
def number (word : String) : Except Refusal Nat :=
  match readNumber? word with
  | some n => .ok n
  | none => .error .malformedNumber

/-- Checks a value and keeps it. -/
def store (g : Given) (word : String) : Slot → Except Refusal Given
  | .plan => if word.isEmpty then .error .missingValue else .ok { g with plan := some word }
  | .line => do return { g with line := some (← number word) }
  | .callback => .ok { g with callback := some word }
  | .sourceTable => .ok { g with sourceTable := some word }
  | .eventType => .ok { g with eventType := some word }
  | .indent => do return { g with indent := some (← number word) }

/-- Settles an argument: it needs a value and must be new. -/
def settle (g : Given) (slot : Slot) : Option String → Except Refusal Given
  | none => .error .missingValue
  | some word => if g.has slot then .error .repeatedOption else g.store word slot

/-- Turns on a switch, which must be off. -/
def turnOn (g : Given) : Switch → Except Refusal Given
  | .sourceMap =>
    if g.sourceMap then .error .repeatedOption else .ok { g with sourceMap := true }
  | .noFailureWarnings =>
    if g.noFailureWarnings then .error .repeatedOption
    else .ok { g with noFailureWarnings := true }

/-- The options of a compilation. -/
def options (g : Given) : Options where
  callback := g.callback.getD ""
  sourceTable := g.sourceTable
  eventType := g.eventType
  indent := g.indent
  noFailureWarnings := g.noFailureWarnings

end Given

/-- How far the arguments of a command have been read. -/
structure Progress where
  /-- The arguments that have been settled. -/
  given : Given := {}
  /-- The last argument, with its value if that has been read. -/
  pending : Option (Slot × Option String) := none
  /-- Positional arguments still to come. -/
  positionals : List Slot
  /-- Has a separator been read? -/
  isSeparated : Bool := false

namespace Progress

/-- Settles the pending argument. -/
def settled (p : Progress) : Except Refusal Given :=
  match p.pending with
  | none => .ok p.given
  | some (slot, value) => p.given.settle slot value

/-- Reads an option by its name. -/
def readOption (p : Progress) (value : Option String) : OptionKind → Except Refusal Progress
  | .value slot =>
    match value with
    | some word => do
      let given ← (← p.settled).settle slot (some word)
      return { p with given := given, pending := none }
    | none => do return { p with given := ← p.settled, pending := some (slot, none) }
  | .switch switch =>
    match value with
    | some _ => .error .unwantedValue
    | none => do
      let given ← (← p.settled).turnOn switch
      return { p with given := given, pending := none }
  | .help =>
    match value with
    | some _ => .error .unwantedValue
    | none => do
      -- A bad value in front of the request is reported instead of it.
      let _ ← p.settled
      .error .helpRequested

/-- Reads a positional argument. -/
def readPositional (p : Progress) (word : String) : Except Refusal Progress :=
  match p.positionals with
  | [] => .error .unknownArgument
  | slot :: rest => do
    return { p with given := ← p.settled, pending := some (slot, some word), positionals := rest }

/-- Reads a word that is no option: the value of the option before it, or a
    positional argument. -/
def readPlain (p : Progress) (word : String) : Except Refusal Progress :=
  match p.pending with
  | some (slot, none) => .ok { p with pending := some (slot, some word) }
  | _ => p.readPositional word

/-- Reads one word. -/
def readWord (options : List (String × OptionKind)) (p : Progress) (word : String) :
    Except Refusal Progress :=
  if p.isSeparated then p.readPositional word
  else
    match Word.ofString word with
    | .separator => .ok { p with isSeparated := true }
    | .long name value =>
      match options.lookup name with
      | some kind => p.readOption value kind
      | none => .error .unknownArgument
    | .short letters =>
      if letters.head? = some 'h' then p.readOption none .help else .error .unknownArgument
    | .plain => p.readPlain word

/-- An argument that has to be given. -/
def require {α : Type} : Option α → Except Refusal α
  | some a => .ok a
  | none => .error .missingArgument

end Progress

/-- The arguments of a command, read from its words. -/
def Signature.read (s : Signature) (words : List String) : Except Refusal Given := do
  let p ← words.foldlM (Progress.readWord s.options) { positionals := s.positionals }
  p.settled

/-! ### The whole command line -/

/-- The names of the commands. -/
inductive CommandName where
  /-- Prints a script. -/
  | generate
  /-- Prints a listing. -/
  | list
  /-- Names the step of a line. -/
  | resolve
  /-- Asks for help. -/
  | help
deriving DecidableEq, Repr

/-- The command with the given name. -/
def CommandName.ofString? : String → Option CommandName
  | "generate" => some .generate
  | "list" => some .list
  | "resolve" => some .resolve
  | "help" => some .help
  | _ => none

/-- What follows a request for help: at most one command. -/
def readHelp : List String → Refusal
  | [] => .helpRequested
  | [word] => if (CommandName.ofString? word).isSome then .helpRequested else .unknownCommand
  | _ => .unknownCommand

/-- Reads the words after the name of a command. -/
def readCommand (name : CommandName) (words : List String) : Except Refusal Command :=
  match name with
  | .generate => do
    let options := ("source-map", OptionKind.switch .sourceMap) :: compileOptions
    let g ← (Signature.of options [.plan]).read words
    return .generate (← Progress.require g.plan) g.sourceMap g.options
  | .list => do
    let g ← (Signature.of [] [.plan]).read words
    return .list (← Progress.require g.plan)
  | .resolve => do
    let g ← (Signature.of compileOptions [.plan, .line]).read words
    return .resolve (← Progress.require g.plan) (← Progress.require g.line) g.options
  | .help => .error (readHelp words)

/-- The refusal of a first word that is an option. -/
def readTopOption (name : String) (value : Option String) : Refusal :=
  match name, value with
  | "help", none => .helpRequested
  | "version", none => .versionRequested
  | "help", some _ => .unwantedValue
  | "version", some _ => .unwantedValue
  | _, _ => .unknownArgument

/-- Reads the words after the name of the program. -/
def parse : List String → Except Refusal Command
  | [] => .error .nothingGiven
  | word :: rest =>
    match CommandName.ofString? word with
    | some name => readCommand name rest
    | none =>
      match Word.ofString word with
      | .separator =>
        match rest with
        | [] => .error .nothingGiven
        | next :: _ =>
          -- A command behind the separator is taken for a stray argument.
          if (CommandName.ofString? next).isSome then .error .unknownArgument
          else .error .unknownCommand
      | .long name value => .error (readTopOption name value)
      | .short ('h' :: _) => .error .helpRequested
      | .short ('V' :: _) => .error .versionRequested
      | .short _ => .error .unknownArgument
      | .plain => .error .unknownCommand

end SuiteScript.CommandLine
