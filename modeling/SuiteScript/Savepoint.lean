/-! # Savepoints

    A script opens two classes of savepoints: one for each directory, which
    is released in the end, and one for each test, which is rolled back to.
    All savepoints of a script are numbered by one counter, so that no two
    of them share a name. -/

namespace SuiteScript

/-- What a savepoint is for. -/
inductive SavepointClass where
  /-- Holds what a directory's fixtures did. -/
  | directory
  /-- Isolates a single test. -/
  | test
deriving DecidableEq, Repr

/-- The letter in the names of a class. -/
def SavepointClass.marker : SavepointClass → Char
  | .directory => 'd'
  | .test => 't'

/-- A savepoint of a script. -/
structure Savepoint where
  /-- What it is for. -/
  cls : SavepointClass
  /-- Its number; both classes are counted together. -/
  serial : Nat
deriving DecidableEq, Repr

namespace Savepoint

/-- How a savepoint's name starts. -/
def nameStart : List Char := "__pgmi_".toList

/-- How a savepoint's name ends. -/
def nameEnd : List Char := "__".toList

/-- The name in the script, such as `__pgmi_d0__`. -/
def name (s : Savepoint) : String :=
  String.ofList (nameStart ++ s.cls.marker :: (Nat.toDigits 10 s.serial ++ nameEnd))

/-- The class that a marker and some digits stand for. -/
def classOfBody? : List Char → Option SavepointClass
  | [] => none
  | marker :: digits =>
    if digits.isEmpty || !digits.all Char.isDigit then none
    else if marker = 'd' then some .directory
    else if marker = 't' then some .test
    else none

/-- The class of a name of the shape of `Savepoint.name`: the common start,
    a class's marker, one or more digits, the common end. -/
def classOfName? (name : String) : Option SavepointClass :=
  let cs := name.toList
  if nameStart.isPrefixOf cs then
    let body := cs.drop nameStart.length
    if nameEnd.isSuffixOf body then classOfBody? (body.take (body.length - nameEnd.length))
    else none
  else none

end Savepoint

end SuiteScript
