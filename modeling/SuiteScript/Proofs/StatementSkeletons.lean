import Mathlib.Data.List.Forall2
import SuiteScript.Proofs.Skeletons

/-! # Statements and their skeletons

    Every statement is written as the parts of its skeleton, filled in with
    the texts of its step (`WrittenAs`).  In a code block the parts stand
    between two delimiters, and no delimiter begins in them.  So the tokens
    of a statement, with its block opened, are those of its skeleton
    (`Wording.readTokens_statementText`). -/

namespace SuiteScript

open Sql

/-! ### Statements are written as their skeletons -/

/-- Is a text what parts make with these texts? -/
def WrittenAs (texts : Texts) (text : String) (parts : List Part) : Prop :=
  text.toList = parts.flatMap (Part.chars texts)

/-- Are these the texts of an event? -/
structure Event.HasTexts (e : Event) (callback : String) (texts : Texts) : Prop where
  /-- The path, for events that carry one. -/
  path_eq : e.scriptPath = if e.kind.carriesScriptPath then some texts.path else none
  /-- The directory. -/
  directory_eq : e.place.directory = texts.directory
  /-- The name of the observer. -/
  callback_eq : callback = texts.callback

section Written

variable (config : Config) {callback : String} {texts : Texts} {e : Event}

theorem Event.row_written (h : e.HasTexts callback texts) :
    WrittenAs texts (e.row (escapeQualifiedName config.eventType))
      (Skeleton.row config e.kind e.place.depth e.ordinal) := by
  unfold WrittenAs Event.row Skeleton.row
  rw [h.path_eq, h.directory_eq]
  cases e.kind.carriesScriptPath <;> simp [quoteNullable, Part.chars, Texts.get]

theorem Observer.dynamicCall_written (h : e.HasTexts callback texts) (keyword : String) :
    WrittenAs texts
      (dynamicCall (quoteLiteral callback) (e.row (escapeQualifiedName config.eventType)))
      (Skeleton.call config .resolved keyword e.kind e.place.depth e.ordinal) := by
  have hrow := Event.row_written config h
  unfold WrittenAs at hrow ⊢
  unfold dynamicCall
  rw [h.callback_eq]
  simp [Skeleton.call, Part.chars, Texts.get, hrow]

theorem Observer.directCall_written (h : e.HasTexts callback texts) (keyword name : String) :
    WrittenAs texts
      (keyword ++ name ++ "(" ++ e.row (escapeQualifiedName config.eventType) ++ ");")
      (Skeleton.call config (.plain name) keyword e.kind e.place.depth e.ordinal) := by
  have hrow := Event.row_written config h
  unfold WrittenAs at hrow ⊢
  simp [Skeleton.call, Part.chars, hrow]

theorem Observer.handlerInvocation_written (hne : callback ≠ "") (h : e.HasTexts callback texts) :
    WrittenAs texts ((named config callback).handlerInvocation e)
      (Skeleton.call config (.ofCallback callback) "PERFORM " e.kind e.place.depth e.ordinal) := by
  unfold named handlerInvocation CallTarget.ofName CallForm.ofCallback
  rw [if_neg hne]
  by_cases hname : isPlainQualifiedName callback = true
  · rw [if_pos hname, if_pos hname]
    exact directCall_written config h "PERFORM " callback
  · rw [if_neg hname, if_neg hname]
    exact dynamicCall_written config h "PERFORM "

namespace Wording

variable (callback texts)

theorem execute_written :
    WrittenAs texts ((ofCallback config callback).execute texts.path)
      (Skeleton.execute config) := by
  have htable : (ofCallback config callback).config.sourceTable = config.sourceTable := rfl
  unfold WrittenAs execute Skeleton.execute
  rw [htable]
  simp only [String.toList_append, List.flatMap_cons, List.flatMap_nil, Part.chars, Texts.get,
    List.append_nil, List.append_assoc]

theorem warnOfFailure_written :
    List.Forall₂ (WrittenAs texts) ((ofCallback config callback).warnOfFailure texts.path)
      (Skeleton.warning config) := by
  have hconfig : (ofCallback config callback).config = config := rfl
  unfold warnOfFailure Skeleton.warning
  rw [hconfig]
  split
  · refine .cons ?_ .nil
    simp only [WrittenAs, String.toList_append, List.flatMap_cons, List.flatMap_nil, Part.chars,
      Texts.get, List.append_nil, List.append_assoc]
  · exact .nil

variable {callback texts}

theorem reportFailure_written {step : Step}
    (h : (Event.ofStep .rollback step).HasTexts callback texts) :
    List.Forall₂ (WrittenAs texts) ((ofCallback config callback).reportFailure step)
      (Skeleton.report config (.ofCallback callback) step.place.depth step.ordinal) := by
  unfold reportFailure Skeleton.report
  rw [observer_ofCallback]
  by_cases hcallback : callback = ""
  · rw [if_pos hcallback, if_pos (CallForm.ofCallback_eq_unheard_iff.mpr hcallback)]
    exact .nil
  · rw [if_neg hcallback, if_neg (CallForm.ofCallback_eq_unheard_iff.not.mpr hcallback)]
    exact .cons (Observer.handlerInvocation_written config hcallback h) .nil

theorem handler_written {step : Step}
    (h : (Event.ofStep .rollback step).HasTexts callback texts) :
    List.Forall₂ (WrittenAs texts) ((ofCallback config callback).handler step texts.path)
      (Skeleton.handler config (.ofCallback callback) step.place.depth step.ordinal) := by
  have hstatements : List.Forall₂ (WrittenAs texts)
      ((ofCallback config callback).reportFailure step ++
        (ofCallback config callback).warnOfFailure texts.path)
      (Skeleton.report config (.ofCallback callback) step.place.depth step.ordinal ++
        Skeleton.warning config) :=
    List.rel_append (reportFailure_written config h) (warnOfFailure_written config callback texts)
  unfold handler Skeleton.handler
  generalize (ofCallback config callback).reportFailure step ++
    (ofCallback config callback).warnOfFailure texts.path = lines at hstatements ⊢
  generalize Skeleton.report config (.ofCallback callback) step.place.depth step.ordinal ++
    Skeleton.warning config = parts at hstatements ⊢
  -- without a statement there is none in the skeleton, and the other way round
  cases hstatements with
  | nil => exact .cons rfl .nil
  | cons hfirst hothers => exact .cons hfirst hothers

theorem indented_written {line : String} {parts : List Part} (h : WrittenAs texts line parts) :
    WrittenAs texts ((ofCallback config callback).indented line)
      (Skeleton.indented config parts) := by
  unfold WrittenAs at h ⊢
  have hconfig : (ofCallback config callback).config = config := rfl
  unfold indented Skeleton.indented
  rw [hconfig, String.toList_append, h, List.flatMap_cons]
  rfl

theorem testLines_written {step : Step}
    (h : (Event.ofStep .rollback step).HasTexts callback texts) :
    List.Forall₂ (WrittenAs texts) ((ofCallback config callback).testLines step texts.path)
      (Skeleton.testLines config (.ofCallback callback) step.place.depth step.ordinal) := by
  have hexecute : WrittenAs texts ((ofCallback config callback).indented
      ((ofCallback config callback).execute texts.path))
      (Skeleton.indented config (Skeleton.execute config)) :=
    indented_written config (execute_written config callback texts)
  have hhandler : List.Forall₂ (WrittenAs texts)
      (((ofCallback config callback).handler step texts.path).map
        (ofCallback config callback).indented)
      ((Skeleton.handler config (.ofCallback callback) step.place.depth step.ordinal).map
        (Skeleton.indented config)) := by
    rw [List.forall₂_map_left_iff, List.forall₂_map_right_iff]
    apply (handler_written config h).imp
    intro line parts hline
    exact indented_written config hline
  have hexception : WrittenAs texts
      ("EXCEPTION WHEN " ++ " OR ".intercalate failureConditions ++ " THEN")
      [.code "EXCEPTION WHEN OTHERS OR assert_failure THEN"] := by
    show _ = "EXCEPTION WHEN OTHERS OR assert_failure THEN".toList ++ []
    decide +kernel
  have hlead : List.Forall₂ (WrittenAs texts) _ _ :=
    .cons (show WrittenAs texts "BEGIN" [.code "BEGIN"] from rfl)
      (.cons hexecute (.cons hexception .nil))
  have hend : List.Forall₂ (WrittenAs texts) ["END"] [[.code "END"]] := .cons rfl .nil
  exact List.rel_append (List.rel_append hlead hhandler) hend

/-- Lines between line breaks. -/
theorem lines_written {lines : List String} {parts : List (List Part)}
    (h : List.Forall₂ (WrittenAs texts) lines parts) (hne : lines ≠ []) :
    WrittenAs texts ("\n" ++ "\n".intercalate lines ++ "\n")
      (.code "\n" :: parts.flatMap (· ++ [.code "\n"])) := by
  have hjoined : WrittenAs texts ("\n".intercalate lines ++ "\n")
      (parts.flatMap (· ++ [.code "\n"])) := by
    induction h with
    | nil => exact absurd rfl hne
    | @cons line first lines others hline hlines ih =>
      unfold WrittenAs at hline ih ⊢
      cases lines with
      | nil =>
        cases hlines
        simp [hline, Part.chars]
      | cons next lines =>
        have hrest := ih (List.cons_ne_nil next lines)
        rw [String.intercalate_cons_cons, String.append_assoc, String.toList_append,
          String.toList_append, hrest, hline]
        simp [Part.chars]
  unfold WrittenAs at hjoined ⊢
  rw [String.append_assoc, String.toList_append, hjoined]
  rfl

end Wording

theorem Savepoint.written (sp : Savepoint) (lead : String) :
    WrittenAs texts (lead ++ sp.name ++ ";") [.code lead, .code sp.name, .code ";"] := by
  simp only [WrittenAs, String.toList_append, List.flatMap_cons, List.flatMap_nil, Part.chars,
    List.append_nil, List.append_assoc]

end Written

/-! ### Statements are read as their skeletons -/

/-- A code block is read as its skeleton. -/
theorem readTokens_block {tag : List Char} (htag : IsTag tag) {delimiter body : String}
    (hdelimiter : delimiter.toList = mark tag) (hbody : IsBody tag body.toList) {texts : Texts}
    {parts : List Part} (hwritten : WrittenAs texts body parts) (hparts : Reads parts)
    (depth : Nat) :
    readTokens (depth + 1) ("DO " ++ delimiter ++ body ++ delimiter ++ ";").toList =
      some ((Skeleton.block parts).tokens texts tag) := by
  obtain ⟨hlex, hstrings⟩ := hparts texts
  rw [← hwritten] at hlex
  -- the string ends at its own delimiter, whatever its body holds
  have hstring := lex_dollarQuoted htag hbody
  have hdo : lex "DO ".toList = some [.word "DO".toList] := by decide +kernel
  have hclose : lex ";".toList = some [.symbol ';'] := by decide +kernel
  have hopened := lex_append (lex_append hdo hstring (.inl (by decide +kernel))) hclose
    (.inr (by decide +kernel))
  have htext : ("DO " ++ delimiter ++ body ++ delimiter ++ ";").toList =
      "DO ".toList ++ (mark tag ++ body.toList ++ mark tag) ++ ";".toList := by
    simp only [String.toList_append, hdelimiter, List.append_assoc]
  rw [readTokens, htext, hopened]
  simp [openStrings, readTokens_of_no_string depth hlex hstrings, Skeleton.tokens]

/-- A statement that is no block is read as its skeleton. -/
theorem readTokens_statement {texts : Texts} {text : String} {parts : List Part}
    (hwritten : WrittenAs texts text parts) (hparts : Reads parts) (tag : List Char)
    (depth : Nat) :
    readTokens depth text.toList = some ((Skeleton.statement parts).tokens texts tag) := by
  obtain ⟨hlex, hstrings⟩ := hparts texts
  rw [hwritten]
  exact readTokens_of_no_string depth hlex hstrings

theorem readTokens_doBlock {blockTag : String} (htag : isValidTag blockTag = true) {texts : Texts}
    {front last : String} {parts : List Part} (hlast : [' '] <:+ last.toList)
    (hwritten : WrittenAs texts (front ++ last) parts) (hparts : Reads parts) (depth : Nat) :
    ∃ tag, IsTag tag ∧ readTokens (depth + 1) (doBlock blockTag (front ++ last)).toList =
      some ((Skeleton.block parts).tokens texts tag) := by
  obtain ⟨tag, hisTag, hdelimiter, hbody⟩ := doBlock_isBody htag front hlast
  exact ⟨tag, hisTag, readTokens_block hisTag hdelimiter hbody hwritten hparts depth⟩

/-- Code between blanks. -/
theorem oneLine_written {texts : Texts} {text : String} {parts : List Part}
    (h : WrittenAs texts text parts) :
    WrittenAs texts (" BEGIN " ++ text ++ " END ")
      (.code " BEGIN " :: parts ++ [.code " END "]) := by
  unfold WrittenAs at h ⊢
  simp only [String.toList_append, h, List.flatMap_cons, List.flatMap_nil, List.flatMap_append,
    Part.chars, List.append_nil, List.cons_append, List.append_assoc]

/-- Does an action have a path just if its kind asks for one? -/
def Action.Complete : Action → Prop
  | .notify e => e.scriptPath.isSome = e.kind.carriesScriptPath
  | .runFixture step path => step.scriptPath = some path
  | .runTest step path => step.scriptPath = some path
  | _ => True

theorem Event.hasTexts_of_complete {e : Event} (callback : String)
    (h : (Action.notify e).Complete) : e.HasTexts callback ((Action.notify e).texts callback) := by
  refine ⟨?_, rfl, rfl⟩
  unfold Action.Complete at h
  rw [← h]
  cases hpath : e.scriptPath with
  | none => rfl
  | some path => simp [Action.texts, hpath]

section Statements

variable {config : Config} {callback : String}

theorem Observer.readTokens_existenceCheck (htag : isValidTag config.blockTag = true)
    (texts : Texts) (hcallback : callback = texts.callback) (depth : Nat) :
    ∃ tag, IsTag tag ∧ readTokens (depth + 1) (named config callback).existenceCheck.toList =
      some ((Skeleton.block (Skeleton.check config)).tokens texts tag) := by
  refine readTokens_doBlock htag ⟨"; END".toList, rfl⟩ ?_ (Skeleton.reads_check config) depth
  simp only [WrittenAs, Skeleton.check, Skeleton.refusal, named, hcallback, String.toList_append,
    List.flatMap_cons, List.flatMap_nil, Part.chars, Texts.get, List.append_nil,
    List.append_assoc]

theorem Observer.readTokens_invocation (htag : isValidTag config.blockTag = true)
    (hne : callback ≠ "") {e : Event} {texts : Texts} (h : e.HasTexts callback texts)
    (depth : Nat) :
    ∃ tag, IsTag tag ∧ readTokens (depth + 1) ((named config callback).invocation e).toList =
      some ((Skeleton.ofShape config (.ofCallback callback)
        (.event e.kind e.place.depth e.ordinal)).tokens texts tag) := by
  have hreads := Skeleton.reads_ofShape config callback (.event e.kind e.place.depth e.ordinal)
  unfold named invocation CallTarget.ofName
  by_cases hname : isPlainQualifiedName callback = true
  · have hform : CallForm.ofCallback callback = .plain callback := by
      rw [CallForm.ofCallback, if_neg hne, if_pos hname]
    rw [hform] at hreads ⊢
    rw [if_pos hname]
    refine ⟨[], .inl rfl, ?_⟩
    exact readTokens_statement (directCall_written config h "SELECT " callback) hreads [] _
  · have hform : CallForm.ofCallback callback = .resolved := by
      rw [CallForm.ofCallback, if_neg hne, if_neg hname]
    rw [hform] at hreads ⊢
    rw [if_neg hname]
    exact readTokens_doBlock htag ⟨" END".toList, rfl⟩
      (oneLine_written (dynamicCall_written config h "SELECT ")) hreads depth

/-- Every statement of a script is read as its skeleton, with the texts of
    its step as the contents of the literals. -/
theorem Wording.readTokens_statementText (htag : isValidTag config.blockTag = true) {a : Action}
    (hwrites : (ofCallback config callback).writes a = true) (ha : a.Complete) (depth : Nat) :
    ∃ tag, IsTag tag ∧
      readTokens (depth + 1) ((ofCallback config callback).statementText a).toList =
        some ((Skeleton.ofShape config (.ofCallback callback) a.shape).tokens
          (a.texts callback) tag) := by
  have hreads := Skeleton.reads_ofShape config callback a.shape
  cases a with
  | checkObserver =>
    rw [writes_checkObserver] at hwrites
    have hobserver := observer_ofCallback_of_isSome hwrites
    have htext : (ofCallback config callback).statementText .checkObserver =
        (Observer.named config callback).existenceCheck := by
      simp [statementText, lines, hobserver]
    rw [htext]
    exact Observer.readTokens_existenceCheck htag ⟨"", "", callback⟩ rfl depth
  | notify e =>
    rw [writes_notify] at hwrites
    have hobserver := observer_ofCallback_of_isSome hwrites
    have htext : (ofCallback config callback).statementText (.notify e) =
        (Observer.named config callback).invocation e := by
      simp [statementText, lines, hobserver]
    have hne : callback ≠ "" := by
      intro hempty
      rw [observer_ofCallback, if_pos hempty] at hobserver
      cases hobserver
    rw [htext]
    exact Observer.readTokens_invocation htag hne (Event.hasTexts_of_complete callback ha) depth
  | openSavepoint sp =>
    exact ⟨[], .inl rfl, readTokens_statement (sp.written "SAVEPOINT ") hreads [] _⟩
  | rollBackTo sp =>
    exact ⟨[], .inl rfl, readTokens_statement (sp.written "ROLLBACK TO SAVEPOINT ") hreads [] _⟩
  | release sp =>
    exact ⟨[], .inl rfl, readTokens_statement (sp.written "RELEASE SAVEPOINT ") hreads [] _⟩
  | runFixture step path =>
    have htexts := execute_written config callback ((Action.runFixture step path).texts callback)
    exact readTokens_doBlock htag ⟨" END".toList, rfl⟩ (oneLine_written htexts) hreads depth
  | runTest step path =>
    obtain ⟨tag, hisTag, hdelimiter, hbody⟩ :=
      testBlock_isBody (w := ofCallback config callback) htag step path
    have htexts : (Event.ofStep .rollback step).HasTexts callback
        ((Action.runTest step path).texts callback) := ⟨ha, rfl, rfl⟩
    have hwritten := lines_written (testLines_written config htexts) (by simp [testLines])
    refine ⟨tag, hisTag, ?_⟩
    rw [statementText, lines, testBlock_text]
    exact readTokens_block hisTag hdelimiter hbody hwritten hreads depth

end Statements

end SuiteScript
