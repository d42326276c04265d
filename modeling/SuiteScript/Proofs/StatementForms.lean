import SuiteScript.Proofs.Lexer
import SuiteScript.Proofs.Nesting
import SuiteScript.Proofs.SavepointNames

/-! # No text changes the statements of a script

    Paths, directories and names reach a script from outside.  They stand
    there in literals, in quoted identifiers, inside dollar-quoted strings
    or, if they are plain, as they are.  Whatever they hold, the database
    reads the statements that were written: each has one of five forms
    (`Wording.statementText_form`), and a text of one of these forms is one
    statement (`StatementForm.isStatement`).  For whole scripts this is
    `compile_readsAsWritten`. -/

namespace SuiteScript

open Sql

/-! ### Forms -/

/-- The forms of the statements of a script. -/
inductive StatementForm : String → Prop
  /-- Opens a savepoint. -/
  | openSavepoint (sp : Savepoint) : StatementForm ("SAVEPOINT " ++ sp.name ++ ";")
  /-- Releases a savepoint. -/
  | release (sp : Savepoint) : StatementForm ("RELEASE SAVEPOINT " ++ sp.name ++ ";")
  /-- Rolls back to a savepoint. -/
  | rollBackTo (sp : Savepoint) : StatementForm ("ROLLBACK TO SAVEPOINT " ++ sp.name ++ ";")
  /-- Calls a function of a plain name with one row. -/
  | call {name : String} (eventType : String) (e : Event)
      (hname : isPlainQualifiedName name = true) :
      StatementForm ("SELECT " ++ name ++ "(" ++ e.row (escapeQualifiedName eventType) ++ ");")
  /-- A code block, which ends at the second delimiter. -/
  | block {tag : List Char} {delimiter body : String} (htag : IsTag tag)
      (hdelimiter : delimiter.toList = mark tag) (hbody : IsBody tag body.toList) :
      StatementForm ("DO " ++ delimiter ++ body ++ delimiter ++ ";")

/-! ### Values and names are quiet -/

namespace Sql

theorem quiet_quoteLiteral (s : String) : Quiet (quoteLiteral s).toList := by
  rw [toList_quoteLiteral]
  exact quiet_quoted .literal s.toList

theorem quiet_quoteNullable (s : Option String) : Quiet (quoteNullable s).toList := by
  cases s with
  | none => exact quiet_plain rfl
  | some s => exact quiet_quoteLiteral s

theorem isDigit_of_mem_number (n : Nat) : ∀ c ∈ (toString n).toList, c.isDigit = true := by
  have htext : (toString n).toList = Nat.toDigits 10 n := by simp
  intro c hc
  rw [htext] at hc
  exact Nat.isDigit_of_mem_toDigits (by omega) (by omega) hc

theorem quiet_number (n : Nat) : Quiet (toString n).toList :=
  quiet_digits (isDigit_of_mem_number n)

theorem quiet_escapeChars (s : List Char) : Quiet (escapeChars s) := by
  unfold escapeChars
  split
  · next hsimple => exact quiet_plain (isPlain_of_isWord (isWord_of_isSimple hsimple))
  · exact quiet_quoted .identifier s

theorem quiet_escapeQualifiedName (name : String) : Quiet (escapeQualifiedName name).toList := by
  unfold escapeQualifiedName
  rw [String.toList_ofList]
  refine quiet_intercalate ?_ ['.'] (by simp) rfl
  intro part hpart
  obtain ⟨chars, _, rfl⟩ := List.mem_map.mp hpart
  exact quiet_escapeChars chars

theorem quiet_of_isPlainQualifiedName {name : String} (h : isPlainQualifiedName name = true) :
    Quiet name.toList := by
  unfold isPlainQualifiedName at h
  rw [Bool.and_eq_true, List.all_eq_true] at h
  rw [← intercalate_nameParts]
  refine quiet_intercalate ?_ ['.'] (by simp) rfl
  intro part hpart
  exact quiet_plain (h.2 part hpart)

end Sql

theorem Event.quiet_row (e : Event) (eventType : String) :
    Quiet (e.row (escapeQualifiedName eventType)).toList := by
  have hvalues : ∀ value ∈ [quoteLiteral e.kind.name, quoteNullable e.scriptPath,
      quoteLiteral e.place.directory, toString e.place.depth.toNat, toString e.ordinal.toNat,
      "NULL"].map String.toList, Quiet value := by
    simp only [List.map_cons, List.map_nil, List.forall_mem_cons, List.not_mem_nil,
      false_implies, implies_true, and_true]
    exact ⟨quiet_quoteLiteral _, quiet_quoteNullable _, quiet_quoteLiteral _, quiet_number _,
      quiet_number _, quiet_plain rfl⟩
  have hjoined := quiet_intercalate hvalues ", ".toList (by decide) rfl
  have hrow : Quiet ("ROW".toList ++ "(".toList ++ ", ".toList.intercalate _) :=
    Quiet.fenced (quiet_plain rfl) "(".toList (by decide) rfl hjoined
  have htyped := hrow.fenced ")::".toList (by decide) rfl (quiet_escapeQualifiedName eventType)
  unfold Event.row
  rw [String.toList_append, String.toList_append, String.toList_append, String.toList_intercalate]
  exact htyped

theorem Savepoint.quiet_name (sp : Savepoint) : Quiet sp.name.toList :=
  quiet_plain (isPlain_of_isWord sp.isWord_name)

/-! ### A text of one of the forms is one statement -/

/-- Whatever a form is filled in with, it is read as one statement. -/
theorem StatementForm.isStatement {text : String} (h : StatementForm text) :
    IsStatement text.toList := by
  cases h with
  | openSavepoint sp =>
    have hword : isWord "SAVEPOINT".toList = true := rfl
    have hone := isStatement_of_keyword hword sp.quiet_name
    simpa using hone
  | release sp =>
    have hrest : Quiet ("SAVEPOINT".toList ++ ' ' :: sp.name.toList) :=
      (quiet_plain rfl).cons_separator rfl sp.quiet_name
    have hword : isWord "RELEASE".toList = true := rfl
    have hone := isStatement_of_keyword hword hrest
    simpa using hone
  | rollBackTo sp =>
    have hrest : Quiet ("TO SAVEPOINT".toList ++ ' ' :: sp.name.toList) :=
      Quiet.cons_separator ⟨_, rfl, rfl⟩ rfl sp.quiet_name
    have hword : isWord "ROLLBACK".toList = true := rfl
    have hone := isStatement_of_keyword hword hrest
    simpa using hone
  | @call name eventType e hname =>
    have hcall : Quiet (name.toList ++ '(' :: (e.row (escapeQualifiedName eventType)).toList) :=
      (quiet_of_isPlainQualifiedName hname).cons_separator rfl (e.quiet_row eventType)
    have hclose : isSeparator ')' = true := rfl
    have hrest := hcall.cons_separator hclose quiet_nil
    have hword : isWord "SELECT".toList = true := rfl
    have hone := isStatement_of_keyword hword hrest
    simpa using hone
  | @block tag delimiter body htag hdelimiter hbody =>
    have hrest : Quiet (delimiter.toList ++ body.toList ++ delimiter.toList) := by
      rw [hdelimiter]
      exact quiet_dollarQuoted htag hbody
    have hword : isWord "DO".toList = true := rfl
    have hone := isStatement_of_keyword hword hrest
    simpa using hone

/-! ### Code blocks -/

/-- The delimiter of a block on one line, whose code ends in a blank. -/
theorem doBlock_isBody {tag : String} (htag : isValidTag tag = true) (front : String)
    {last : String} (hlast : [' '] <:+ last.toList) :
    ∃ t, IsTag t ∧ (chooseDelimiter (front ++ last) tag).toList = mark t ∧
      IsBody t (front ++ last).toList := by
  obtain ⟨t, ht, hmark, habsent⟩ := chooseDelimiter_eq_mark htag (front ++ last)
  obtain ⟨chars, hchars⟩ := hlast
  have htext : (front ++ last).toList = front.toList ++ chars ++ [' '] := by
    rw [String.toList_append, List.append_assoc, hchars]
  have hfront : ¬ mark t <:+: front.toList ++ chars := by
    intro hin
    apply habsent
    rw [htext]
    exact hin.trans (List.prefix_append _ _).isInfix
  refine ⟨t, ht, hmark, ?_⟩
  -- the last blank keeps the code apart from the second delimiter
  rw [htext]
  exact isBody_of_fence (space_not_mem_mark ht) hfront

theorem doBlock_form {tag : String} (htag : isValidTag tag = true) (front : String) {last : String}
    (hlast : [' '] <:+ last.toList) : StatementForm (doBlock tag (front ++ last)) := by
  obtain ⟨t, ht, hmark, hbody⟩ := doBlock_isBody htag front hlast
  exact .block ht hmark hbody

/-- A code block whose lines stand between the lines of its delimiters. -/
theorem linesBlock_eq (delimiter : String) {lines : List String} (hne : lines ≠ []) :
    "\n".intercalate (["DO " ++ delimiter] ++ lines ++ [delimiter ++ ";"]) =
      "DO " ++ delimiter ++ ("\n" ++ "\n".intercalate lines ++ "\n") ++ delimiter ++ ";" := by
  rw [String.intercalate_append_of_ne_nil (by simp) (by simp),
    String.intercalate_append_of_ne_nil (by simp) hne]
  simp [String.append_assoc]

/-- Its delimiter need only be absent from each of the lines. -/
theorem linesBlock_isBody {tag : List Char} (htag : IsTag tag) {lines : List String}
    (habsent : ∀ line ∈ lines, ¬ mark tag <:+: line.toList) :
    IsBody tag ("\n" ++ "\n".intercalate lines ++ "\n").toList := by
  have hbreak := lineBreak_not_mem_mark htag
  rw [String.toList_append]
  apply isBody_of_fence hbreak
  rw [String.toList_append, String.toList_intercalate]
  show ¬ mark tag <:+: [] ++ '\n' :: ['\n'].intercalate (lines.map String.toList)
  rw [infix_append_cons_iff hbreak, infix_intercalate_iff (mark_ne_nil tag) hbreak]
  intro hin
  rcases hin with hnil | ⟨chars, hchars, hin⟩
  · exact mark_ne_nil tag (List.infix_nil.mp hnil)
  · obtain ⟨line, hline, rfl⟩ := List.mem_map.mp hchars
    exact habsent line hline hin

/-! ### Actions -/

namespace Wording

variable {w : Wording}

/-- The delimiter of a test's block is absent from the statements that it
    was chosen for. -/
theorem testDelimiter_eq_mark (htag : isValidTag w.config.blockTag = true) (step : Step)
    (path : String) :
    ∃ t, IsTag t ∧ (w.testDelimiter step path).toList = mark t ∧
      ∀ line ∈ w.execute path :: w.handler step path, ¬ mark t <:+: line.toList := by
  obtain ⟨t, ht, hmark, habsent⟩ := chooseDelimiter_eq_mark htag
    ("\n".intercalate (w.execute path :: w.handler step path))
  refine ⟨t, ht, hmark, ?_⟩
  intro line hline hin
  apply habsent
  rw [String.toList_intercalate]
  show mark t <:+: ['\n'].intercalate _
  rw [infix_intercalate_iff (mark_ne_nil t) (lineBreak_not_mem_mark ht)]
  exact ⟨line.toList, List.mem_map_of_mem hline, hin⟩

/-- An indent holds no part of a delimiter. -/
theorem indented_absent {t : List Char} (ht : IsTag t) {line : String}
    (h : ¬ mark t <:+: line.toList) : ¬ mark t <:+: (w.indented line).toList := by
  unfold indented
  rw [String.toList_append, String.toList_ofList,
    infix_replicate_append_iff (mark_ne_nil t) (space_not_mem_mark ht)]
  exact h

/-- The lines of a test's block between its delimiters. -/
def testLines (w : Wording) (step : Step) (path : String) : List String :=
  ["BEGIN", w.indented (w.execute path),
    "EXCEPTION WHEN " ++ " OR ".intercalate failureConditions ++ " THEN"] ++
  (w.handler step path).map w.indented ++ ["END"]

theorem testBlock_eq (step : Step) (path : String) :
    w.testBlock step path = ["DO " ++ w.testDelimiter step path] ++ w.testLines step path ++
      [w.testDelimiter step path ++ ";"] := by
  simp [testBlock, testLines]

/-- The delimiter of a test's block is absent from its lines. -/
theorem testBlock_isBody (htag : isValidTag w.config.blockTag = true) (step : Step)
    (path : String) :
    ∃ t, IsTag t ∧ (w.testDelimiter step path).toList = mark t ∧
      IsBody t ("\n" ++ "\n".intercalate (w.testLines step path) ++ "\n").toList := by
  obtain ⟨t, ht, hmark, habsent⟩ := testDelimiter_eq_mark htag step path
  refine ⟨t, ht, hmark, linesBlock_isBody ht ?_⟩
  intro line hline
  unfold testLines at hline
  simp only [List.mem_append, List.mem_cons, List.not_mem_nil, or_false, List.mem_map] at hline
  rcases hline with ((rfl | rfl | rfl) | ⟨statement, hstatement, rfl⟩) | rfl
  · exact not_mark_infix_of_dollar_not_mem (by decide)
  · exact indented_absent ht (habsent _ List.mem_cons_self)
  · exact not_mark_infix_of_dollar_not_mem (by decide)
  · exact indented_absent ht (habsent statement (List.mem_cons_of_mem _ hstatement))
  · exact not_mark_infix_of_dollar_not_mem (by decide)

theorem testBlock_text (step : Step) (path : String) :
    "\n".intercalate (w.testBlock step path) = "DO " ++ w.testDelimiter step path ++
      ("\n" ++ "\n".intercalate (w.testLines step path) ++ "\n") ++
      w.testDelimiter step path ++ ";" := by
  have hne : w.testLines step path ≠ [] := by simp [testLines]
  rw [testBlock_eq, linesBlock_eq _ hne]

theorem testBlock_form (htag : isValidTag w.config.blockTag = true) (step : Step) (path : String) :
    StatementForm ("\n".intercalate (w.testBlock step path)) := by
  obtain ⟨t, ht, hmark, hbody⟩ := testBlock_isBody htag step path
  rw [testBlock_text]
  exact .block ht hmark hbody

end Wording

namespace Observer

variable {config : Config} {callback : String}

theorem existenceCheck_form (htag : isValidTag config.blockTag = true) :
    StatementForm (named config callback).existenceCheck :=
  doBlock_form htag _ ⟨"; END".toList, rfl⟩

/-- Only a plain name is called as it stands. -/
theorem invocation_form (htag : isValidTag config.blockTag = true) (e : Event) :
    StatementForm ((named config callback).invocation e) := by
  unfold named invocation CallTarget.ofName
  by_cases hname : isPlainQualifiedName callback = true
  · rw [if_pos hname]
    exact .call config.eventType e hname
  · rw [if_neg hname]
    exact doBlock_form htag _ ⟨" END".toList, rfl⟩

end Observer

/-- Every statement of a script has one of the forms. -/
theorem Wording.statementText_form {config : Config} {callback : String}
    (htag : isValidTag config.blockTag = true) {a : Action}
    (h : (ofCallback config callback).writes a = true) :
    StatementForm ((ofCallback config callback).statementText a) := by
  cases a with
  | checkObserver =>
    rw [writes_checkObserver] at h
    have hobserver := observer_ofCallback_of_isSome h
    have htext : (ofCallback config callback).statementText .checkObserver =
        (Observer.named config callback).existenceCheck := by
      simp [statementText, lines, hobserver]
    rw [htext]
    exact Observer.existenceCheck_form htag
  | notify e =>
    rw [writes_notify] at h
    have hobserver := observer_ofCallback_of_isSome h
    have htext : (ofCallback config callback).statementText (.notify e) =
        (Observer.named config callback).invocation e := by
      simp [statementText, lines, hobserver]
    rw [htext]
    exact Observer.invocation_form htag e
  | openSavepoint sp => exact .openSavepoint sp
  | rollBackTo sp => exact .rollBackTo sp
  | release sp => exact .release sp
  | runFixture step path => exact doBlock_form htag _ ⟨" END".toList, rfl⟩
  | runTest step path => exact testBlock_form htag step path

/-! ### Whole scripts -/

/-- The script of a plan is read as the statements that were written, one
    after the other and each of one of the forms, and no quote is left
    open. -/
theorem compile_readsAsWritten {config : Config} {callback : String} {steps : List Step}
    {plan : CompiledPlan} (h : compile config callback steps = .ok plan) :
    ∃ script, statementsOf config callback steps = .ok script ∧
      readScript plan.sql =
        ⟨script.map fun a => ((Wording.ofCallback config callback).statementText a).toList,
          [], .normal⟩ ∧
      ∀ a ∈ script, StatementForm ((Wording.ofCallback config callback).statementText a) := by
  obtain ⟨script, hscript, hsql, _⟩ := compile_eq_ok_iff.mp h
  refine ⟨script, hscript, ?_⟩
  rcases statementsOf_eq_ok hscript with ⟨_, rfl⟩ | ⟨_, htag, actions, _, rfl⟩
  · rw [hsql]
    refine ⟨rfl, ?_⟩
    intro a ha
    cases ha
  · have hforms : ∀ a ∈ (Wording.ofCallback config callback).statements actions,
        StatementForm ((Wording.ofCallback config callback).statementText a) := by
      intro a ha
      exact Wording.statementText_form htag (Wording.writes_of_mem_statements ha)
    have hwrites : ∀ a ∈ (Wording.ofCallback config callback).statements actions,
        (Wording.ofCallback config callback).writes a = true := by
      intro a ha
      exact Wording.writes_of_mem_statements ha
    refine ⟨?_, hforms⟩
    rw [hsql, Wording.text_eq_intercalate_statementText hwrites, readScript_intercalate,
      List.map_map]
    · rfl
    · intro text htext
      obtain ⟨a, ha, rfl⟩ := List.mem_map.mp htext
      exact (hforms a ha).isStatement

/-- A plan whose texts try to end the quotes that they stand in. -/
def hostilePlan : List Step := [
  ⟨1, .fixture, some "$__pgmi__$; COMMIT; --", ⟨"'; ROLLBACK; '", 0⟩⟩,
  ⟨2, .test, some "a'\nEND\n$__pgmi__$;\n$__pgmi___1$", ⟨"\"; /* $$", 1⟩⟩,
  ⟨3, .teardown, none, ⟨"\"; /* $$", 1⟩⟩]

/-- Settings whose names hold quotes, dots and semicolons. -/
def hostileConfig : Config := { sourceTable := "t; --.\"x", eventType := "e');.;" }

/-- Sixteen statements are written for the hostile plan, and read from it. -/
theorem hostilePlan_readsAsWritten :
    ∃ plan script, compile hostileConfig "pg.no$tify$a$" hostilePlan = .ok plan ∧
      statementsOf hostileConfig "pg.no$tify$a$" hostilePlan = .ok script ∧ script.length = 16 ∧
      readScript plan.sql =
        ⟨script.map fun a =>
          ((Wording.ofCallback hostileConfig "pg.no$tify$a$").statementText a).toList,
          [], .normal⟩ ∧
      ∀ a ∈ script,
        StatementForm ((Wording.ofCallback hostileConfig "pg.no$tify$a$").statementText a) := by
  have hcompile : ∃ plan, compile hostileConfig "pg.no$tify$a$" hostilePlan = .ok plan := ⟨_, rfl⟩
  have hsixteen : (statementsOf hostileConfig "pg.no$tify$a$" hostilePlan).map List.length =
      .ok 16 := by rfl
  obtain ⟨plan, hplan⟩ := hcompile
  obtain ⟨script, hscript, hread, hforms⟩ := compile_readsAsWritten hplan
  rw [hscript] at hsixteen
  exact ⟨plan, script, hplan, hscript, Except.ok.inj hsixteen, hread, hforms⟩

end SuiteScript
