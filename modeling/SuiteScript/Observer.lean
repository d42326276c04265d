import SuiteScript.Config
import SuiteScript.Event
import SuiteScript.Sql.DollarQuote

/-! # Observers

    An observer is a database function that receives each event as one
    positional row.  A plain name is called as it stands.  Any other name
    is only ever passed as a literal and resolved when the script runs, so
    that its text cannot become part of the script's statements. -/

namespace SuiteScript

/-! ### Event rows -/

/-- The event as a row value of type `rowType`, one value per field. -/
def Event.row (e : Event) (rowType : String) : String :=
  let values := [
    Sql.quoteLiteral e.kind.name,
    Sql.quoteNullable e.scriptPath,
    Sql.quoteLiteral e.place.directory,
    toString e.place.depth.toNat,
    toString e.ordinal.toNat,
    "NULL"]
  "ROW(" ++ ", ".intercalate values ++ ")::" ++ rowType

/-! ### Calls -/

/-- How an observer is reached. -/
inductive CallTarget where
  /-- By a plain name, which stands in the script as it is. -/
  | direct (name : String)
  /-- By a literal, resolved to a function at run time. -/
  | dynamic (literal : String)
deriving DecidableEq, Repr

/-- A plain name is called directly, any other dynamically. -/
def CallTarget.ofName (name : String) : CallTarget :=
  if Sql.isPlainQualifiedName name then .direct name else .dynamic (Sql.quoteLiteral name)

/-- A function that receives the events of a script. -/
structure Observer where
  /-- Its name, as the caller gave it. -/
  callback : String
  /-- How it is called. -/
  target : CallTarget
  /-- The row type, written as a qualified name. -/
  eventType : String
  /-- The tag for delimiters of code blocks. -/
  blockTag : String
deriving DecidableEq, Repr

namespace Observer

/-- The observer of a given name; the empty name asks for none. -/
def ofCallback? (callback : String) (config : Config) : Option Observer :=
  if callback.isEmpty then none
  else some {
    callback := callback
    target := CallTarget.ofName callback
    eventType := Sql.escapeQualifiedName config.eventType
    blockTag := config.blockTag }

/-- Calls a function that is resolved from a literal, with `row` as its
    argument. -/
def dynamicCall (literal row : String) : String :=
  "EXECUTE format('SELECT %s($1)', " ++ literal ++ "::regproc) USING " ++ row ++ ";"

/-- The statement that delivers an event between other statements. -/
def invocation (o : Observer) (e : Event) : String :=
  match o.target with
  | .direct name => "SELECT " ++ name ++ "(" ++ e.row o.eventType ++ ");"
  | .dynamic literal =>
    Sql.doBlock o.blockTag (" BEGIN " ++ dynamicCall literal (e.row o.eventType) ++ " END ")

/-- The statement that delivers an event inside a code block. -/
def handlerInvocation (o : Observer) (e : Event) : String :=
  match o.target with
  | .direct name => "PERFORM " ++ name ++ "(" ++ e.row o.eventType ++ ");"
  | .dynamic literal => dynamicCall literal (e.row o.eventType)

/-- A code block that fails, with a helpful message, unless the observer is
    a function. -/
def existenceCheck (o : Observer) : String :=
  Sql.doBlock o.blockTag <|
    " BEGIN PERFORM " ++ Sql.quoteLiteral o.callback ++ "::regproc; " ++
    "EXCEPTION WHEN undefined_function OR invalid_name THEN " ++
    "RAISE EXCEPTION 'Callback function \"%\" does not exist. " ++
    "Expected signature: (%) RETURNS void', " ++
    Sql.quoteLiteral o.callback ++ ", " ++ Sql.quoteLiteral o.eventType ++ "; END "

end Observer

/-! ### With the default settings -/

/-- The statement that delivers `e` to `callback`; nothing for the empty name. -/
def formatInvocation (callback : String) (e : Event) : String :=
  match Observer.ofCallback? callback {} with
  | some o => o.invocation e
  | none => ""

/-- The check that `callback` exists; nothing for the empty name. -/
def formatExistenceCheck (callback : String) : String :=
  match Observer.ofCallback? callback {} with
  | some o => o.existenceCheck
  | none => ""

end SuiteScript
