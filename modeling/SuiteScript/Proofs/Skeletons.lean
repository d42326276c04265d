import SuiteScript.Proofs.StatementForms
import SuiteScript.Proofs.Tokens

/-! # Skeletons of statements

    A statement is made of fixed code and of the texts of one step: its path,
    its directory, and the name of an observer that cannot be called as it
    stands.  The *skeleton* of a statement is that code, with a slot for
    each literal that holds such a text.  It depends on the kind of the
    statement, on numbers, on the settings and on the form of the observer's
    name, and on no text of a step.

    Skeletons are lists of parts, which can be written with any texts and
    then be read as tokens.  The code that stands between literals and names
    begins and ends with characters that stand for themselves, so the parts
    can be read one by one (`Reads.fenced`), and what is read in a literal is
    just the text that it was written with (`Skeleton.reads_ofShape`). -/

namespace SuiteScript

open Sql

/-! ### Parts -/

/-- The texts that a statement can hold. -/
structure Texts where
  /-- The path of a script. -/
  path : String
  /-- A directory. -/
  directory : String
  /-- The name of the observer. -/
  callback : String
deriving DecidableEq, Repr

/-- Which of the texts a literal holds. -/
inductive Slot where
  /-- The path. -/
  | path
  /-- The directory. -/
  | directory
  /-- The observer's name. -/
  | callback
deriving DecidableEq, Repr

/-- The text for a slot. -/
def Texts.get (texts : Texts) : Slot → String
  | .path => texts.path
  | .directory => texts.directory
  | .callback => texts.callback

/-- A part of a statement. -/
inductive Part where
  /-- Fixed code. -/
  | code (text : String)
  /-- A literal that holds one of the texts. -/
  | literal (slot : Slot)
deriving DecidableEq, Repr

namespace Part

/-- How a part is written. -/
def chars (texts : Texts) : Part → List Char
  | code text => text.toList
  | literal slot => (quoteLiteral (texts.get slot)).toList

/-- How a part is read. -/
def tokens (texts : Texts) : Part → List Token
  | code text => (lex text.toList).getD []
  | literal slot => [.quoted .literal (texts.get slot).toList]

end Part

/-! ### Code -/

namespace Sql

/-- Can the text be read without opening a dollar-quoted string? -/
def isCode (text : List Char) : Bool :=
  match lex text with
  | some tokens => tokens.all fun t => !t.isString
  | none => false

/-- Is it code that begins and ends with characters that stand for
    themselves? -/
def isFence (text : List Char) : Bool :=
  text.head?.any isBreak && text.getLast?.any isBreak && isCode text

theorem isCode_iff {text : List Char} :
    isCode text = true ↔ ∃ tokens, lex text = some tokens ∧ ∀ t ∈ tokens, t.isString = false := by
  unfold isCode
  cases lex text with
  | none => simp
  | some tokens => simp

theorem isCode_of_isPlain {s : List Char} (h : isPlain s = true) : isCode s = true := by
  simp [isCode, lex_plain h, Token.isString]

theorem lex_quoteLiteral (s : String) :
    lex (quoteLiteral s).toList = some [.quoted .literal s.toList] := by
  rw [toList_quoteLiteral]
  exact lex_quoted .literal s.toList

theorem isCode_quoteLiteral (s : String) : isCode (quoteLiteral s).toList = true := by
  simp [isCode, lex_quoteLiteral, Token.isString]

theorem isCode_number (n : Nat) : isCode (toString n).toList = true := by
  have hne : (toString n).toList ≠ [] := by simp
  rw [isCode, lex_digits hne (isDigit_of_mem_number n)]
  rfl

/-- An indent holds no token. -/
theorem lex_replicate_space (width : Nat) : lex (List.replicate width ' ') = some [] := by
  induction width with
  | zero => rfl
  | succ width ih =>
    have hspace : lex [' '] = some [] := rfl
    exact lex_append hspace ih (.inl rfl)

/-- Is it a token of a qualified name, whose words are accepted by `p`? -/
def Token.isOfName (p : List Char → Bool) : Token → Bool
  | .word text => p text
  | .symbol c => c = '.'
  | .quoted .identifier _ => true
  | _ => false

theorem Token.isString_of_isOfName {p : List Char → Bool} {t : Token} (h : t.isOfName p = true) :
    t.isString = false := by
  cases t with
  | string tag body => cases h
  | _ => rfl

/-- Names joined by dots. -/
theorem lex_intercalate {p : List Char → Bool} {parts : List (List Char)}
    (h : ∀ part ∈ parts, ∃ tokens, lex part = some tokens ∧ ∀ t ∈ tokens, t.isOfName p = true) :
    ∃ tokens, lex (['.'].intercalate parts) = some tokens ∧
      ∀ t ∈ tokens, t.isOfName p = true := by
  induction parts with
  | nil => exact ⟨[], rfl, by simp⟩
  | cons part parts ih =>
    rw [List.forall_mem_cons] at h
    obtain ⟨tokens, htokens, hname⟩ := h.1
    cases parts with
    | nil => exact ⟨tokens, by simpa using htokens, hname⟩
    | cons next parts =>
      obtain ⟨others, hothers, hnames⟩ := ih h.2
      have hdot : lex ['.'] = some [.symbol '.'] := rfl
      have hrest := lex_append hdot hothers (.inl rfl)
      rw [List.intercalate_cons_cons, List.append_assoc]
      refine ⟨tokens ++ ([.symbol '.'] ++ others), lex_append htokens hrest (.inr rfl), ?_⟩
      simpa [Token.isOfName, or_imp, forall_and] using ⟨hname, hnames⟩

/-- The words of an escaped name are simple. -/
theorem lex_escapeQualifiedName (name : String) :
    ∃ tokens, lex (escapeQualifiedName name).toList = some tokens ∧
      ∀ t ∈ tokens, t.isOfName isSimple = true := by
  unfold escapeQualifiedName
  rw [String.toList_ofList]
  apply lex_intercalate
  intro part hpart
  obtain ⟨chars, _, rfl⟩ := List.mem_map.mp hpart
  unfold escapeChars
  split
  · next hsimple =>
    exact ⟨_, lex_plain (isPlain_of_isWord (isWord_of_isSimple hsimple)),
      List.forall_mem_singleton.mpr hsimple⟩
  · exact ⟨_, lex_quoted .identifier chars, List.forall_mem_singleton.mpr rfl⟩

/-- Those of a plain name are plain. -/
theorem lex_of_isPlainQualifiedName {name : String} (h : isPlainQualifiedName name = true) :
    ∃ tokens, lex name.toList = some tokens ∧ ∀ t ∈ tokens, t.isOfName isPlain = true := by
  unfold isPlainQualifiedName at h
  rw [Bool.and_eq_true, List.all_eq_true] at h
  rw [← intercalate_nameParts]
  apply lex_intercalate
  intro part hpart
  have hplain := h.2 part hpart
  exact ⟨_, lex_plain hplain, List.forall_mem_singleton.mpr hplain⟩

theorem isCode_escapeQualifiedName (name : String) :
    isCode (escapeQualifiedName name).toList = true := by
  obtain ⟨tokens, htokens, hname⟩ := lex_escapeQualifiedName name
  exact isCode_iff.mpr ⟨tokens, htokens, fun t ht => Token.isString_of_isOfName (hname t ht)⟩

theorem isCode_of_isPlainQualifiedName {name : String} (h : isPlainQualifiedName name = true) :
    isCode name.toList = true := by
  obtain ⟨tokens, htokens, hname⟩ := lex_of_isPlainQualifiedName h
  exact isCode_iff.mpr ⟨tokens, htokens, fun t ht => Token.isString_of_isOfName (hname t ht)⟩

end Sql

/-! ### Reading part by part -/

/-- Whatever the texts are, the parts are read as they were written, and
    open no string. -/
def Reads (parts : List Part) : Prop :=
  ∀ texts, lex (parts.flatMap (Part.chars texts)) = some (parts.flatMap (Part.tokens texts)) ∧
    ∀ t ∈ parts.flatMap (Part.tokens texts), t.isString = false

theorem reads_nil : Reads [] := by
  intro texts
  exact ⟨rfl, by simp⟩

theorem reads_literal (slot : Slot) : Reads [.literal slot] := by
  intro texts
  simp [Part.chars, Part.tokens, lex_quoteLiteral, Token.isString]

theorem reads_code {text : String} (h : isCode text.toList = true) : Reads [.code text] := by
  obtain ⟨tokens, htokens, hstrings⟩ := isCode_iff.mp h
  intro texts
  have hread : [Part.code text].flatMap (Part.tokens texts) = tokens := by
    simp [Part.tokens, htokens]
  rw [hread, List.flatMap_singleton]
  exact ⟨htokens, hstrings⟩

theorem Reads.append {p q : List Part} (hp : Reads p) (hq : Reads q)
    (h : ∀ texts, Apart (p.flatMap (Part.chars texts)) (q.flatMap (Part.chars texts))) :
    Reads (p ++ q) := by
  intro texts
  obtain ⟨hlexp, hstringp⟩ := hp texts
  obtain ⟨hlexq, hstringq⟩ := hq texts
  simp only [List.flatMap_append, List.forall_mem_append]
  exact ⟨lex_append hlexp hlexq (h texts), hstringp, hstringq⟩

/-- Code that ends in a break goes in front of any parts. -/
theorem Reads.behind {lead : String} (hlead : lead.toList.getLast?.any isBreak = true)
    (hcode : isCode lead.toList = true) {q : List Part} (hq : Reads q) :
    Reads (.code lead :: q) := by
  apply (reads_code hcode).append hq
  intro texts
  rw [List.flatMap_singleton]
  exact .inl hlead

/-- A fence goes between any parts. -/
theorem Reads.fenced {p q : List Part} (hp : Reads p) {fence : String}
    (hfence : isFence fence.toList = true) (hq : Reads q) : Reads (p ++ .code fence :: q) := by
  simp only [isFence, Bool.and_eq_true] at hfence
  obtain ⟨⟨hfirst, hlast⟩, hcode⟩ := hfence
  apply hp.append (hq.behind hlast hcode)
  intro texts
  obtain ⟨c, hc, hbreak⟩ := (Option.any_eq_true _ _).mp hfirst
  right
  simp [Part.chars, hc, hbreak]

/-! ### Skeletons -/

/-- How an observer's name is used. -/
inductive CallForm where
  /-- There is none. -/
  | unheard
  /-- It stands in the script as it is. -/
  | plain (name : String)
  /-- It is a literal that is resolved when the script runs. -/
  | resolved
deriving DecidableEq, Repr

/-- The form of an observer's name. -/
def CallForm.ofCallback (callback : String) : CallForm :=
  if callback = "" then .unheard
  else if isPlainQualifiedName callback then .plain callback
  else .resolved

theorem CallForm.ofCallback_eq_unheard_iff {callback : String} :
    CallForm.ofCallback callback = .unheard ↔ callback = "" := by
  unfold CallForm.ofCallback
  split
  · next h => exact iff_of_true rfl h
  · next h =>
    refine iff_of_false ?_ h
    split
    · exact CallForm.noConfusion
    · exact CallForm.noConfusion

/-- A statement without its texts. -/
inductive Shape where
  /-- The check of the observer. -/
  | check
  /-- The delivery of an event. -/
  | event (kind : EventKind) (depth ordinal : UInt32)
  /-- The opening of a savepoint. -/
  | openSavepoint (savepoint : Savepoint)
  /-- The roll-back to a savepoint. -/
  | rollBackTo (savepoint : Savepoint)
  /-- The release of a savepoint. -/
  | release (savepoint : Savepoint)
  /-- The block of a fixture. -/
  | fixture
  /-- The block of a test. -/
  | test (depth ordinal : UInt32)
deriving DecidableEq, Repr

/-- What is left of an action without its texts. -/
def Action.shape : Action → Shape
  | .checkObserver => .check
  | .notify e => .event e.kind e.place.depth e.ordinal
  | .openSavepoint sp => .openSavepoint sp
  | .rollBackTo sp => .rollBackTo sp
  | .release sp => .release sp
  | .runFixture _ _ => .fixture
  | .runTest step _ => .test step.place.depth step.ordinal

/-- The texts of an action, for an observer of the name `callback`. -/
def Action.texts (callback : String) : Action → Texts
  | .notify e => ⟨e.scriptPath.getD "", e.place.directory, callback⟩
  | .runFixture step path => ⟨path, step.place.directory, callback⟩
  | .runTest step path => ⟨path, step.place.directory, callback⟩
  | _ => ⟨"", "", callback⟩

/-- A statement up to its texts. -/
inductive Skeleton where
  /-- Parts with a semicolon at their end. -/
  | statement (parts : List Part)
  /-- A code block, of which these are the parts between the delimiters. -/
  | block (body : List Part)
deriving DecidableEq, Repr

namespace Skeleton

/-- The row of an event.  The path is null for events that carry none. -/
def row (config : Config) (kind : EventKind) (depth ordinal : UInt32) : List Part := [
  .code "ROW(", .code (quoteLiteral kind.name), .code ", ",
  if kind.carriesScriptPath then .literal .path else .code "NULL", .code ", ",
  .literal .directory, .code ", ",
  .code (toString depth.toNat), .code ", ",
  .code (toString ordinal.toNat), .code ", NULL)::",
  .code (escapeQualifiedName config.eventType)]

/-- The delivery of an event to an observer that there is. -/
def call (config : Config) (form : CallForm) (keyword : String) (kind : EventKind)
    (depth ordinal : UInt32) : List Part :=
  match form with
  | .unheard => []
  | .plain name =>
    .code keyword :: .code name :: .code "(" :: row config kind depth ordinal ++
      [.code ");"]
  | .resolved =>
    .code "EXECUTE format('SELECT %s($1)', " :: .literal .callback ::
      .code "::regproc) USING " :: row config kind depth ordinal ++ [.code ";"]

/-- The execution of a script. -/
def execute (config : Config) : List Part := [
  .code "EXECUTE (SELECT content FROM ", .code (escapeQualifiedName config.sourceTable),
  .code " WHERE path = ", .literal .path, .code ");"]

/-- The report of a failed test to the observer. -/
def report (config : Config) (form : CallForm) (depth ordinal : UInt32) : List (List Part) :=
  if form = .unheard then [] else [call config form "PERFORM " .rollback depth ordinal]

/-- The warning about a failed test. -/
def warning (config : Config) : List (List Part) :=
  if config.failureWarnings then
    [[.code "RAISE WARNING 'pgmi: test % failed, rolling back: %', ", .literal .path,
      .code ", SQLERRM;"]]
  else []

/-- The statements of a test's failure handler. -/
def handler (config : Config) (form : CallForm) (depth ordinal : UInt32) : List (List Part) :=
  match report config form depth ordinal ++ warning config with
  | [] => [[.code "NULL;"]]
  | statements => statements

/-- A line inside a block. -/
def indented (config : Config) (parts : List Part) : List Part :=
  .code (String.ofList (List.replicate config.indentWidth ' ')) :: parts

/-- The lines of a test's block between its delimiters. -/
def testLines (config : Config) (form : CallForm) (depth ordinal : UInt32) : List (List Part) :=
  [[.code "BEGIN"], indented config (execute config),
    [.code "EXCEPTION WHEN OTHERS OR assert_failure THEN"]] ++
  (handler config form depth ordinal).map (indented config) ++ [[.code "END"]]

/-- The code of a test's block. -/
def test (config : Config) (form : CallForm) (depth ordinal : UInt32) : List Part :=
  .code "\n" :: (testLines config form depth ordinal).flatMap (· ++ [.code "\n"])

/-- What the check does about an observer that does not exist. -/
def refusal : String :=
  "::regproc; " ++
    "EXCEPTION WHEN undefined_function OR invalid_name THEN " ++
    "RAISE EXCEPTION 'Callback function \"%\" does not exist. " ++
    "Expected signature: (%) RETURNS void', "

/-- The code of the check of an observer. -/
def check (config : Config) : List Part := [
  .code " BEGIN PERFORM ", .literal .callback, .code refusal, .literal .callback, .code ", ",
  .code (quoteLiteral (escapeQualifiedName config.eventType)), .code "; END "]

/-- The skeleton of a statement. -/
def ofShape (config : Config) (form : CallForm) : Shape → Skeleton
  | .check => .block (check config)
  | .event kind depth ordinal =>
    if form = .resolved then
      .block (.code " BEGIN " :: call config form "SELECT " kind depth ordinal ++ [.code " END "])
    else .statement (call config form "SELECT " kind depth ordinal)
  | .openSavepoint sp => .statement [.code "SAVEPOINT ", .code sp.name, .code ";"]
  | .rollBackTo sp => .statement [.code "ROLLBACK TO SAVEPOINT ", .code sp.name, .code ";"]
  | .release sp => .statement [.code "RELEASE SAVEPOINT ", .code sp.name, .code ";"]
  | .fixture => .block (.code " BEGIN " :: execute config ++ [.code " END "])
  | .test depth ordinal => .block (test config form depth ordinal)

/-- The tokens of a skeleton.  A code block stands between two delimiters. -/
def tokens (texts : Texts) (tag : List Char) : Skeleton → List Token
  | statement parts => parts.flatMap (Part.tokens texts)
  | block body =>
    .word "DO".toList :: .delimiter tag :: body.flatMap (Part.tokens texts) ++
      [.delimiter tag, .symbol ';']

end Skeleton

/-! ### The parts of skeletons are read -/

namespace Skeleton

theorem reads_row (config : Config) (kind : EventKind) (depth ordinal : UInt32) :
    Reads (row config kind depth ordinal) := by
  have hcomma : isFence ", ".toList = true := by decide +kernel
  have hcontext : isFence ", NULL)::".toList = true := by decide +kernel
  have hpath : Reads [if kind.carriesScriptPath then .literal .path else .code "NULL"] := by
    split
    · exact reads_literal .path
    · exact reads_code rfl
  have htype : Reads [.code (escapeQualifiedName config.eventType)] :=
    reads_code (isCode_escapeQualifiedName config.eventType)
  have hordinal := (reads_code (isCode_number ordinal.toNat)).fenced hcontext htype
  have hdepth := (reads_code (isCode_number depth.toNat)).fenced hcomma hordinal
  have hdirectory := (reads_literal .directory).fenced hcomma hdepth
  have hkind := (reads_code (isCode_quoteLiteral kind.name)).fenced hcomma
    (hpath.fenced hcomma hdirectory)
  exact hkind.behind (by decide +kernel) (by decide +kernel)

theorem reads_call (config : Config) (callback : String) {keyword : String}
    (hlast : keyword.toList.getLast?.any isBreak = true) (hcode : isCode keyword.toList = true)
    (kind : EventKind) (depth ordinal : UInt32) :
    Reads (call config (.ofCallback callback) keyword kind depth ordinal) := by
  have hrow := reads_row config kind depth ordinal
  unfold CallForm.ofCallback
  split
  · exact reads_nil
  split
  · next hname =>
    have hopen : isFence "(".toList = true := by decide +kernel
    have hclose : isFence ");".toList = true := by decide +kernel
    have hcall := (reads_code (isCode_of_isPlainQualifiedName hname)).fenced hopen
      (hrow.fenced hclose reads_nil)
    exact hcall.behind hlast hcode
  · have husing : isFence "::regproc) USING ".toList = true := by decide +kernel
    have hclose : isFence ";".toList = true := by decide +kernel
    have hcall := (reads_literal .callback).fenced husing (hrow.fenced hclose reads_nil)
    exact hcall.behind (by decide +kernel) (by decide +kernel)

theorem reads_execute (config : Config) : Reads (execute config) := by
  have hwhere : isFence " WHERE path = ".toList = true := by decide +kernel
  have hclose : isFence ");".toList = true := by decide +kernel
  have htable : Reads [.code (escapeQualifiedName config.sourceTable)] :=
    reads_code (isCode_escapeQualifiedName config.sourceTable)
  have hpath := htable.fenced hwhere ((reads_literal .path).fenced hclose reads_nil)
  exact hpath.behind (by decide +kernel) (by decide +kernel)

theorem reads_report (config : Config) (callback : String) (depth ordinal : UInt32) :
    ∀ parts ∈ report config (.ofCallback callback) depth ordinal, Reads parts := by
  intro parts hparts
  unfold report at hparts
  split at hparts
  · cases hparts
  · rw [List.mem_singleton.mp hparts]
    exact reads_call config callback (by decide +kernel) (by decide +kernel) .rollback depth ordinal

theorem reads_warning (config : Config) : ∀ parts ∈ warning config, Reads parts := by
  intro parts hparts
  unfold warning at hparts
  split at hparts
  · have hclose : isFence ", SQLERRM;".toList = true := by decide +kernel
    rw [List.mem_singleton.mp hparts]
    exact ((reads_literal .path).fenced hclose reads_nil).behind (by decide +kernel)
      (by decide +kernel)
  · cases hparts

theorem reads_handler (config : Config) (callback : String) (depth ordinal : UInt32) :
    ∀ parts ∈ handler config (.ofCallback callback) depth ordinal, Reads parts := by
  intro parts hparts
  unfold handler at hparts
  split at hparts
  · rw [List.mem_singleton.mp hparts]
    exact reads_code (by decide +kernel)
  · rcases List.mem_append.mp hparts with hparts | hparts
    · exact reads_report config callback depth ordinal parts hparts
    · exact reads_warning config parts hparts

theorem reads_indented (config : Config) {parts : List Part} (h : Reads parts) :
    Reads (indented config parts) := by
  unfold indented
  cases hwidth : config.indentWidth with
  | zero =>
    -- the empty text is no break, but neither writes nor reads anything
    intro texts
    have hchars : (Part.code "" :: parts).flatMap (Part.chars texts) =
        parts.flatMap (Part.chars texts) := rfl
    have htokens : (Part.code "" :: parts).flatMap (Part.tokens texts) =
        parts.flatMap (Part.tokens texts) := rfl
    show lex ((Part.code "" :: parts).flatMap (Part.chars texts)) =
      some ((Part.code "" :: parts).flatMap (Part.tokens texts)) ∧ _
    rw [hchars, htokens]
    exact h texts
  | succ n =>
    apply h.behind
    · rw [String.toList_ofList, List.getLast?_replicate]
      rfl
    · rw [String.toList_ofList, isCode, lex_replicate_space]
      rfl

/-- Lines are kept apart by their line breaks. -/
theorem reads_lines {lines : List (List Part)} (h : ∀ parts ∈ lines, Reads parts) :
    Reads (lines.flatMap (· ++ [.code "\n"])) := by
  induction lines with
  | nil => exact reads_nil
  | cons parts lines ih =>
    rw [List.forall_mem_cons] at h
    have hbreak : isFence "\n".toList = true := by decide +kernel
    rw [List.flatMap_cons, List.append_assoc]
    exact h.1.fenced hbreak (ih h.2)

theorem reads_test (config : Config) (callback : String) (depth ordinal : UInt32) :
    Reads (test config (.ofCallback callback) depth ordinal) := by
  have hhandler := reads_handler config callback depth ordinal
  have hlines : ∀ parts ∈ testLines config (.ofCallback callback) depth ordinal, Reads parts := by
    simp only [testLines, List.forall_mem_append, List.forall_mem_cons, List.forall_mem_map,
      List.not_mem_nil, false_implies, implies_true, and_true]
    refine ⟨⟨⟨?_, ?_, ?_⟩, ?_⟩, ?_⟩
    · exact reads_code (by decide +kernel)
    · exact reads_indented config (reads_execute config)
    · exact reads_code (by decide +kernel)
    · intro parts hparts
      exact reads_indented config (hhandler parts hparts)
    · exact reads_code (by decide +kernel)
  exact (reads_lines hlines).behind (by decide +kernel) (by decide +kernel)

theorem reads_check (config : Config) : Reads (check config) := by
  have hcomma : isFence ", ".toList = true := by decide +kernel
  have hend : isFence "; END ".toList = true := by decide +kernel
  have htype : Reads [.code (quoteLiteral (escapeQualifiedName config.eventType))] :=
    reads_code (isCode_quoteLiteral _)
  have hmessage := (reads_literal .callback).fenced hcomma (htype.fenced hend reads_nil)
  have hrefusal : isFence refusal.toList = true := by decide +kernel
  have hcheck := (reads_literal .callback).fenced hrefusal hmessage
  exact hcheck.behind (by decide +kernel) (by decide +kernel)

/-- One savepoint and a key word in front of it. -/
theorem reads_savepoint {lead : String} (hlast : lead.toList.getLast?.any isBreak = true)
    (hcode : isCode lead.toList = true) (sp : Savepoint) :
    Reads [.code lead, .code sp.name, .code ";"] := by
  have hclose : isFence ";".toList = true := by decide +kernel
  have hname : Reads [.code sp.name] :=
    reads_code (isCode_of_isPlain (isPlain_of_isWord sp.isWord_name))
  exact (hname.fenced hclose reads_nil).behind hlast hcode

/-- Code between blanks. -/
theorem reads_oneLine {parts : List Part} (h : Reads parts) :
    Reads (.code " BEGIN " :: parts ++ [.code " END "]) := by
  have hend : isFence " END ".toList = true := by decide +kernel
  exact (h.fenced hend reads_nil).behind (by decide +kernel) (by decide +kernel)

/-- The parts of a skeleton. -/
def parts : Skeleton → List Part
  | statement parts => parts
  | block body => body

theorem reads_ofShape (config : Config) (callback : String) (shape : Shape) :
    Reads (ofShape config (.ofCallback callback) shape).parts := by
  cases shape with
  | check => exact reads_check config
  | event kind depth ordinal =>
    have hlast : "SELECT ".toList.getLast?.any isBreak = true := by decide +kernel
    have hcode : isCode "SELECT ".toList = true := by decide +kernel
    have hcall := reads_call config callback hlast hcode kind depth ordinal
    by_cases hform : CallForm.ofCallback callback = .resolved
    · rw [ofShape, if_pos hform]
      exact reads_oneLine hcall
    · rw [ofShape, if_neg hform]
      exact hcall
  | openSavepoint sp => exact reads_savepoint (by decide +kernel) (by decide +kernel) sp
  | rollBackTo sp => exact reads_savepoint (by decide +kernel) (by decide +kernel) sp
  | release sp => exact reads_savepoint (by decide +kernel) (by decide +kernel) sp
  | fixture => exact reads_oneLine (reads_execute config)
  | test depth ordinal => exact reads_test config callback depth ordinal

end Skeleton

end SuiteScript
