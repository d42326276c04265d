import SuiteScript.Step

/-! # Source maps

    A source map leads from the lines of a script back to the steps that
    they execute.  Its entries stand in the order of execution, so their
    line ranges are disjoint and increasing, and the entry of a line is
    found by skipping the entries that end before it. -/

namespace SuiteScript

/-- The lines of a script that execute one fixture or test. -/
structure SourceEntry where
  /-- Its index in the map. -/
  position : Nat
  /-- First line of the statement, counted from 1. -/
  startLine : Nat
  /-- Last line of the statement. -/
  endLine : Nat
  /-- Whether it is a fixture or a test. -/
  kind : StepKind
  /-- The script that is executed. -/
  scriptPath : String
  /-- The place of the step. -/
  place : Place
  /-- The ordinal of the step. -/
  ordinal : UInt32
deriving DecidableEq, Repr

namespace SourceEntry

/-- Is `line` one of the entry's lines? -/
def containsLine (e : SourceEntry) (line : Nat) : Bool :=
  e.startLine ≤ line && line ≤ e.endLine

/-- The step in words, such as `test: ./a/01_test.sql (ordinal 4)`. -/
def description (e : SourceEntry) : String :=
  e.kind.name ++ ": " ++ e.scriptPath ++ " (ordinal " ++ toString e.ordinal.toNat ++ ")"

/-- The entry of the same step in a script that starts `offset` lines later. -/
def shift (e : SourceEntry) (offset : Nat) : SourceEntry :=
  { e with startLine := e.startLine + offset, endLine := e.endLine + offset }

end SourceEntry

/-- The entries of a script, in the order of execution. -/
structure SourceMap where
  /-- One for each fixture and test. -/
  entries : List SourceEntry := []
deriving DecidableEq, Repr

/-- Why two maps have no common map. -/
inductive MergeError where
  /-- The second script would start before the first one's last entry ends. -/
  | overlap
  /-- A line number would not fit into 64 bits. -/
  | lineOutOfRange
deriving DecidableEq, Repr

namespace SourceMap

/-- One more than the largest line number. -/
def lineBound : Nat := UInt64.size

/-- The number of entries. -/
def length (m : SourceMap) : Nat := m.entries.length

/-- Does the map have no entry? -/
def isEmpty (m : SourceMap) : Bool := m.entries.isEmpty

/-- The entry at a position. -/
def get? (m : SourceMap) (position : Nat) : Option SourceEntry := m.entries[position]?

/-! ### Looking up -/

/-- The entry whose lines hold `line`: the first that does not end before
    it, if that one has started. -/
def resolve (m : SourceMap) (line : Nat) : Option SourceEntry :=
  match m.entries.dropWhile (·.endLine < line) with
  | [] => none
  | e :: _ => if e.containsLine line then some e else none

/-- The entry of the step with the given ordinal. -/
def findOrdinal (m : SourceMap) (ordinal : UInt32) : Option SourceEntry :=
  m.entries.find? (·.ordinal = ordinal)

/-- What a line executes, in words. -/
def describe (m : SourceMap) (line : Nat) : Option String :=
  (m.resolve line).map SourceEntry.description

/-! ### Merging -/

/-- The last line of the last entry, or 0 without entries. -/
def lastLine (m : SourceMap) : Nat :=
  match m.entries.getLast? with
  | some e => e.endLine
  | none => 0

/-- Numbers entries from `position` on. -/
def renumber (position : Nat) : List SourceEntry → List SourceEntry
  | [] => []
  | e :: rest => { e with position := position } :: renumber (position + 1) rest

/-- Does every line number fit? -/
def inRange (entries : List SourceEntry) : Bool :=
  entries.all fun e => e.startLine < lineBound && e.endLine < lineBound

/-- The map of two scripts one after the other, the second starting after
    `offset` lines.  Entries are appended and renumbered; they are refused
    if they would overlap. -/
def merged (m other : SourceMap) (offset : Nat) : Except MergeError SourceMap :=
  let shifted := other.entries.map (·.shift offset)
  match shifted with
  | [] => .ok ⟨renumber 0 m.entries⟩
  | first :: _ =>
    if first.startLine ≥ lineBound then .error .lineOutOfRange
    else if first.startLine ≤ m.lastLine then .error .overlap
    else if !inRange shifted then .error .lineOutOfRange
    else .ok ⟨renumber 0 (m.entries ++ shifted)⟩

end SourceMap

end SuiteScript
