import SuiteScript.Config

/-! # Options of the command line -/

namespace SuiteScript.CommandLine

/-- What the command line says about a compilation. -/
structure Options where
  /-- The observer; the empty name asks for none. -/
  callback : String := ""
  /-- The table that holds the scripts' text. -/
  sourceTable : Option String := none
  /-- The row type that the observer receives. -/
  eventType : Option String := none
  /-- Spaces in front of the inner lines of a test's block. -/
  indent : Option Nat := none
  /-- Should failing tests raise no warning? -/
  noFailureWarnings : Bool := false
deriving DecidableEq, Repr

/-- The settings: an option that is absent keeps its default. -/
def Options.toConfig (o : Options) : Config :=
  let defaults : Config := {}
  { defaults with
    sourceTable := o.sourceTable.getD defaults.sourceTable
    eventType := o.eventType.getD defaults.eventType
    indentWidth := o.indent.getD defaults.indentWidth
    failureWarnings := !o.noFailureWarnings }

end SuiteScript.CommandLine
