/-! # Settings of a compilation -/

namespace SuiteScript

/-- How a script is written.  The defaults name objects of the session's
    temporary schema. -/
structure Config where
  /-- The table that holds the scripts' text, keyed by path. -/
  sourceTable : String := "pg_temp._pgmi_test_source"
  /-- The row type that an observer receives. -/
  eventType : String := "pg_temp.pgmi_test_event"
  /-- The tag from which delimiters of code blocks are made. -/
  blockTag : String := "__pgmi__"
  /-- Spaces in front of the inner lines of a test's block. -/
  indentWidth : Nat := 4
  /-- Does a failing test raise a warning? -/
  failureWarnings : Bool := true
deriving DecidableEq, Repr

end SuiteScript
