import SuiteScript.Json.Token

/-! # Readings of JSON text

    A reading is what a text says up to its first fault.  Values that the
    fault leaves unfinished are kept, marked as unclosed, so that a reader
    who goes through a reading from left to right meets good values, wrong
    values and the fault in the order in which they are written.

    Readings are built from tokens by a machine whose state is the stack of
    the arrays and objects that are open. -/

namespace SuiteScript.Json

/-- What a text says, up to its first fault. -/
inductive Reading where
  /-- The value of the key word `null`. -/
  | null
  /-- A truth value. -/
  | bool (b : Bool)
  /-- A number; out of range without a value. -/
  | number (value : Option Number)
  /-- A string; without a value it has half a surrogate pair. -/
  | text (value : Option String)
  /-- An array; not closed if a fault came first. -/
  | array (items : List Reading) (isClosed : Bool)
  /-- An object with its members in order; not closed if a fault came first. -/
  | object (members : List (Option String × Reading)) (isClosed : Bool)
  /-- The fault stands where a value should. -/
  | broken

/-- A member of an object.  A key that has half a surrogate pair has no
    text. -/
abbrev Reading.Member := Option String × Reading

/-- An array or object that is open, with what it holds so far, in reverse. -/
inductive Frame where
  /-- An element is being read. -/
  | array (before : List Reading)
  /-- The value of `key` is being read. -/
  | object (before : List Reading.Member) (key : Option String)

namespace Frame

/-- The frame's array or object, of which `last` is all that is left. -/
def unfinished (last : Reading) : Frame → Reading
  | array before => .array (last :: before).reverse false
  | object before key => .object ((key, last) :: before).reverse false

end Frame

/-- What a text says, and whether it is one value and no more. -/
structure Document where
  /-- The value, or as much of it as there is. -/
  root : Reading
  /-- Does the text end behind the value, without a fault? -/
  isClean : Bool

/-- What has been read, and what has to come next. -/
inductive ReadState where
  /-- A value. -/
  | value (outer : List Frame)
  /-- An element or the end of an array. -/
  | arrayStart (outer : List Frame)
  /-- A key or the end of an object. -/
  | objectStart (outer : List Frame)
  /-- A key. -/
  | key (before : List Reading.Member) (outer : List Frame)
  /-- The colon after a key. -/
  | colon (before : List Reading.Member) (key : Option String) (outer : List Frame)
  /-- Whatever may follow a value. -/
  | after (value : Reading) (outer : List Frame)
  /-- Nothing: there was a fault. -/
  | halted (root : Reading)

namespace ReadState

/-- What has been read when `last`, inside of `outer`, is all that is left. -/
def unfinished (last : Reading) (outer : List Frame) : Reading :=
  outer.foldl (fun r f => f.unfinished r) last

/-- Ends the reading in the middle of `last`. -/
def halt (last : Reading) (outer : List Frame) : ReadState := halted (unfinished last outer)

/-- Reads a token where a value has to start. -/
def startValue (outer : List Frame) : Token → ReadState
  | .null => .after .null outer
  | .bool b => .after (.bool b) outer
  | .number n => .after (.number n) outer
  | .text s => .after (.text s) outer
  | .openArray => .arrayStart outer
  | .openObject => .objectStart outer
  | _ => halt .broken outer

/-- Reads a token after a value that stands in `outer`. -/
def endValue (v : Reading) : List Frame → Token → ReadState
  | .array before :: outer, .comma => .value (.array (v :: before) :: outer)
  | .array before :: outer, .closeArray => .after (.array (v :: before).reverse true) outer
  | .object before k :: outer, .comma => .key ((k, v) :: before) outer
  | .object before k :: outer, .closeObject =>
    .after (.object ((k, v) :: before).reverse true) outer
  | outer, _ => halt v outer

/-- Reads one token. -/
def step (s : ReadState) (t : Token) : ReadState :=
  match s with
  | value outer => startValue outer t
  | arrayStart outer =>
    match t with
    | .closeArray => .after (.array [] true) outer
    | t => startValue (.array [] :: outer) t
  | objectStart outer =>
    match t with
    | .closeObject => .after (.object [] true) outer
    | .text k => .colon [] k outer
    | _ => halt (.object [] false) outer
  | key before outer =>
    match t with
    | .text k => .colon before k outer
    | _ => halt (.object before.reverse false) outer
  | colon before k outer =>
    match t with
    | .colon => .value (.object before k :: outer)
    | _ => halt .broken (.object before k :: outer)
  | after v outer => endValue v outer t
  | halted root => .halted root

/-- The document that ends here. -/
def finish : ReadState → Document
  | after v [] => ⟨v, true⟩
  | after v outer => ⟨unfinished v outer, false⟩
  | value outer => ⟨unfinished .broken outer, false⟩
  | arrayStart outer => ⟨unfinished (.array [] false) outer, false⟩
  | objectStart outer => ⟨unfinished (.object [] false) outer, false⟩
  | key before outer => ⟨unfinished (.object before.reverse false) outer, false⟩
  | colon before k outer => ⟨unfinished .broken (.object before k :: outer), false⟩
  | halted root => ⟨root, false⟩

end ReadState

/-- Reads a text. -/
def read (text : String) : Document :=
  ((tokens text.toList).foldl ReadState.step (.value [])).finish

/-! ### Faultless readings -/

mutual

/-- Is the value free of faults?  A number may be out of range and a string
    may have half a surrogate pair. -/
def Reading.isIntact : Reading → Bool
  | .null | .bool _ | .number _ | .text _ => true
  | .array items isClosed => isClosed && areIntact items
  | .object members isClosed => isClosed && areMembersIntact members
  | .broken => false

/-- Are all of the values free of faults? -/
def Reading.areIntact : List Reading → Bool
  | [] => true
  | r :: rest => r.isIntact && areIntact rest

/-- Are the values of all of the members free of faults? -/
def Reading.areMembersIntact : List (Option String × Reading) → Bool
  | [] => true
  | (_, r) :: rest => r.isIntact && areMembersIntact rest

end

end SuiteScript.Json
