import SuiteScript.CommandLine.Run
import SuiteScript.Proofs.CallbackNames
import SuiteScript.Proofs.ObserverIndependence
import SuiteScript.Proofs.ObserverProtocol

/-! # Accepted observers are called by their names

    The command line checks the name of an observer before it compiles.  A
    name that it accepts is plain, so every event is delivered by a call in
    which the name stands as it was given, and no event is delivered to a
    function that is looked up when the script runs
    (`names_accepted_and_called_directly`).

    How events are delivered is stated twice: by the texts of the statements,
    and by the tokens of the whole script, where what stands in front of each
    row is the name and a key word.  That nothing but these rows is read is
    known from the protocol of the observer, so it is enough to find one call
    in each statement that holds a row, and to count. -/

namespace SuiteScript

open Sql

/-! ### In front of a row -/

/-- Do the tokens end in a call of the function, up to its argument? -/
def EndsInCall (name tokens : List Token) : Prop :=
  ∃ front keyword, tokens = front ++ keyword :: (name ++ [.symbol '(']) ∧
    (keyword = .word "SELECT".toList ∨ keyword = .word "PERFORM".toList)

/-- Does a call with the row of this event stand among the tokens? -/
def HoldsCall (name : List Token) (e : Event) (tokens : List Token) : Prop :=
  ∃ lead back, tokens = lead ++ (e.rowTokens ++ back) ∧ EndsInCall name lead

/-- Is every row that is read among the tokens the argument of a call? -/
def CalledBy (name tokens : List Token) : Prop :=
  ∀ before after, tokens = before ++ after → (Event.ofTokens? after).isSome = true →
    EndsInCall name before

section CalledBy

variable {name s rest : List Token}

theorem EndsInCall.behind (s : List Token) {tokens : List Token} (h : EndsInCall name tokens) :
    EndsInCall name (s ++ tokens) := by
  obtain ⟨front, keyword, rfl, hkeyword⟩ := h
  exact ⟨s ++ front, keyword, by rw [List.append_assoc], hkeyword⟩

/-- A call stands among more tokens, too. -/
theorem HoldsCall.embed {e : Event} {tokens : List Token} (h : HoldsCall name e tokens)
    (front back : List Token) : HoldsCall name e (front ++ (tokens ++ back)) := by
  obtain ⟨lead, others, rfl, hlead⟩ := h
  exact ⟨front ++ lead, others ++ back, by simp only [List.append_assoc], hlead.behind front⟩

/-- Rows are not lost behind other tokens. -/
theorem rowsIn_suffix (s rest : List Token) : rowsIn rest <:+ rowsIn (s ++ rest) := by
  induction s with
  | nil => exact List.suffix_refl _
  | cons t s ih => exact ih.trans (List.suffix_append _ _)

/-- If tokens add no row to what follows, then none begins among them. -/
theorem ofTokens?_eq_none_of_silent {before mid : List Token}
    (hs : rowsIn (before ++ mid ++ rest) = rowsIn rest) (hne : mid ≠ []) :
    Event.ofTokens? (mid ++ rest) = none := by
  obtain ⟨t, mid, rfl⟩ := List.exists_cons_of_ne_nil hne
  have hfrom := (rowsIn_suffix before (t :: mid ++ rest)).length_le
  rw [← List.append_assoc, hs, List.cons_append, rowsIn, List.length_append] at hfrom
  have hbehind := (rowsIn_suffix mid rest).length_le
  have hnone : (Event.ofTokens? (t :: (mid ++ rest))).toList.length = 0 := by omega
  simpa using hnone

/-- So the rows behind them are all there are. -/
theorem calledBy_append (hs : rowsIn (s ++ rest) = rowsIn rest)
    (h : ∀ before after, rest = before ++ after → (Event.ofTokens? after).isSome = true →
      EndsInCall name (s ++ before)) : CalledBy name (s ++ rest) := by
  intro before after hsplit hrow
  rcases List.append_eq_append_iff.mp hsplit with ⟨others, rfl, hrest⟩ | ⟨mid, hmid, rfl⟩
  · exact h others after hrest hrow
  · rcases eq_or_ne mid [] with rfl | hne
    · rw [List.append_nil] at hmid
      subst hmid
      simpa using h [] rest rfl hrow
    · -- a row would begin in `s`
      subst hmid
      rw [ofTokens?_eq_none_of_silent hs hne] at hrow
      cases hrow

theorem calledBy_nil : CalledBy name [] := by
  intro before after hsplit hrow
  obtain ⟨_, rfl⟩ := List.append_eq_nil_iff.mp hsplit.symm
  cases hrow

theorem CalledBy.behind_silent (h : CalledBy name rest) (hs : rowsIn (s ++ rest) = rowsIn rest) :
    CalledBy name (s ++ rest) := by
  apply calledBy_append hs
  intro before after hsplit hrow
  exact (h before after hsplit hrow).behind s

/-- If tokens add just one row, and a call with it stands among them, then no
    other row begins there. -/
theorem CalledBy.behind_call (h : CalledBy name rest) {e : Event} (hs : HoldsCall name e s)
    (hrows : rowsIn (s ++ rest) = e :: rowsIn rest) : CalledBy name (s ++ rest) := by
  obtain ⟨lead, back, rfl, hlead⟩ := hs
  rw [List.append_assoc, List.append_assoc] at hrows ⊢
  have hcall := e.rowsIn_rowTokens (back ++ rest)
  have hback : rowsIn (back ++ rest) = rowsIn rest := by
    have hlength := (rowsIn_suffix lead (e.rowTokens ++ (back ++ rest))).length_le
    rw [hrows, hcall, List.length_cons, List.length_cons] at hlength
    exact ((rowsIn_suffix back rest).eq_of_length_le (Nat.le_of_succ_le_succ hlength)).symm
  have htail : CalledBy name (e.rowTokens.tail ++ (back ++ rest)) := by
    apply (h.behind_silent hback).behind_silent
    exact rowsIn_append_of_forall_ne e.forall_mem_tail_rowTokens _
  apply calledBy_append
  · rw [hrows, hcall, hback]
  · intro before after hsplit hrow
    cases before with
    | nil => rwa [List.append_nil]
    | cons t before =>
      obtain ⟨rfl, hrest⟩ := List.cons.inj hsplit
      rw [List.append_cons]
      exact (htail before after hrest hrow).behind _

/-- Pieces of a script that keep this can be put together. -/
theorem calledBy_flatMap {α : Type} {items : List α} {tokens : α → List Token}
    (h : ∀ item ∈ items, ∀ {rest}, CalledBy name rest → CalledBy name (tokens item ++ rest)) :
    CalledBy name (items.flatMap tokens) := by
  induction items with
  | nil => exact calledBy_nil
  | cons item items ih =>
    rw [List.forall_mem_cons] at h
    exact h.1 (ih h.2)

end CalledBy

/-! ### The calls of a script -/

section Calls

variable {config : Config} {callback : String} {name : List Token}

theorem CallForm.ofCallback_of_plain (hne : callback ≠ "")
    (hplain : isPlainQualifiedName callback = true) :
    CallForm.ofCallback callback = .plain callback := by
  rw [ofCallback, if_neg hne, if_pos hplain]

/-- The call of a plain name. -/
theorem holdsCall_call (config : Config) (hform : CallForm.ofCallback callback = .plain callback)
    (hname : lex callback.toList = some name) {texts : Texts} {e : Event}
    (h : e.HasTexts callback texts) {keyword : String} {t : Token}
    (hkeyword : lex keyword.toList = some [t])
    (ht : t = .word "SELECT".toList ∨ t = .word "PERFORM".toList) :
    HoldsCall name e ((Skeleton.call config (.ofCallback callback) keyword e.kind e.place.depth
      e.ordinal).flatMap (Part.tokens texts)) := by
  have hlead : EndsInCall name (t :: (name ++ [.symbol '('])) := ⟨[], t, rfl, ht⟩
  have hfirst : (Part.code keyword).tokens texts = [t] := by rw [Part.tokens, hkeyword]; rfl
  rw [hform, Skeleton.call, List.flatMap_append, List.flatMap_cons,
    directCall_tokens config hname h, hfirst]
  refine ⟨_, typeTokens config.eventType ++ [Part.code ");"].flatMap (Part.tokens texts), ?_, hlead⟩
  simp only [List.append_assoc, List.cons_append, List.nil_append]

/-- It stands in the statement of an event. -/
theorem Action.holdsCall_notify (hform : CallForm.ofCallback callback = .plain callback)
    (hname : lex callback.toList = some name) {e : Event} (ha : (Action.notify e).Complete)
    (tag : List Char) :
    HoldsCall name e ((Action.notify e).tokens config callback tag) := by
  have hnot : CallForm.ofCallback callback ≠ .resolved := by
    rw [hform]
    exact CallForm.noConfusion
  have hselect : lex "SELECT ".toList = some [.word "SELECT".toList] := by decide +kernel
  rw [tokens, shape, Skeleton.ofShape, if_neg hnot]
  exact holdsCall_call config hform hname (Event.hasTexts_of_complete callback ha) hselect
    (.inl rfl)

/-- The report to an observer is a part of a test's block. -/
theorem Skeleton.exists_test_eq (config : Config) {form : CallForm} (hform : form ≠ .unheard)
    (depth ordinal : UInt32) :
    ∃ front back, test config form depth ordinal =
      front ++ (call config form "PERFORM " .rollback depth ordinal ++ back) := by
  have hindent : ∀ parts, indented config parts = indented config [] ++ parts := fun _ => rfl
  rw [test_eq, handler_eq config hform, handlerLines, List.map_cons, List.flatMap_cons, hindent]
  refine ⟨testFront config ++ .code "EXCEPTION WHEN OTHERS OR assert_failure THEN" :: .code "\n" ::
    indented config [], [.code "\n"] ++ (handlerLines config (warning config) ++
      [.code "END", .code "\n"]), ?_⟩
  simp only [handlerLines, List.append_assoc, List.cons_append]

/-- So the call stands in the block of a test. -/
theorem Action.holdsCall_runTest (hform : CallForm.ofCallback callback = .plain callback)
    (hname : lex callback.toList = some name) {step : Step} {path : String}
    (ha : (Action.runTest step path).Complete) (tag : List Char) :
    HoldsCall name (.ofStep .rollback step)
      ((Action.runTest step path).tokens config callback tag) := by
  have htexts : (Event.ofStep .rollback step).HasTexts callback
      ((Action.runTest step path).texts callback) := ⟨ha, rfl, rfl⟩
  have hheard : CallForm.ofCallback callback ≠ .unheard := by
    rw [hform]
    exact CallForm.noConfusion
  have hperform : lex "PERFORM ".toList = some [.word "PERFORM".toList] := by decide +kernel
  have hcall := holdsCall_call config hform hname htexts hperform (.inr rfl)
  obtain ⟨front, back, htest⟩ :=
    Skeleton.exists_test_eq config hheard step.place.depth step.ordinal
  rw [tokens, shape, Skeleton.ofShape, Skeleton.tokens, htest, List.flatMap_append,
    List.flatMap_append]
  exact (hcall.embed _ _).embed [.word "DO".toList, .delimiter tag] _

/-- Each statement of a script keeps that rows are arguments of calls. -/
theorem CalledBy.behind_action (hne : callback ≠ "")
    (hform : CallForm.ofCallback callback = .plain callback)
    (hname : lex callback.toList = some name) {a : Action} (ha : a.Complete) (tag : List Char)
    {rest : List Token} (h : CalledBy name rest) :
    CalledBy name (a.tokens config callback tag ++ rest) := by
  have hrows := Action.rowsIn_tokens config callback ha tag rest
  cases a with
  | notify e =>
    rw [Action.rows, if_neg hne] at hrows
    exact h.behind_call (Action.holdsCall_notify hform hname ha tag) hrows
  | runTest step path =>
    rw [Action.rows, if_neg hne] at hrows
    exact h.behind_call (Action.holdsCall_runTest hform hname ha tag) hrows
  | _ =>
    rw [Action.rows_eq_nil callback (by simp) (by simp)] at hrows
    exact h.behind_silent hrows

end Calls

/-! ### Plain observers -/

/-- How a script delivers its events to an observer of a plain name. -/
structure CallsDirectly (config : Config) (callback : String) (script : List Action)
    (sql : String) : Prop where
  /-- An event between other statements is the argument of a `SELECT`. -/
  delivered : ∀ e, .notify e ∈ script →
    (Wording.ofCallback config callback).statementText (.notify e) =
      "SELECT " ++ callback ++ "(" ++ e.row (escapeQualifiedName config.eventType) ++ ");"
  /-- In the handler of a test it is the argument of a `PERFORM`. -/
  reported : ∀ step path, .runTest step path ∈ script →
    let w := Wording.ofCallback config callback
    let row := (Event.ofStep .rollback step).row (escapeQualifiedName config.eventType)
    w.statementText (.runTest step path) = "\n".intercalate
      (["DO " ++ w.testDelimiter step path, "BEGIN", w.indented (w.execute path),
          "EXCEPTION WHEN OTHERS OR assert_failure THEN",
          w.indented ("PERFORM " ++ callback ++ "(" ++ row ++ ");")] ++
        (w.warnOfFailure path).map w.indented ++ ["END", w.testDelimiter step path ++ ";"])
  /-- No other statement holds a row, so neither does the check of the observer,
      in which its name is resolved. -/
  silent : ∀ a ∈ script, (∀ e, a ≠ .notify e) → (∀ step path, a ≠ .runTest step path) →
    rowsOf ((Wording.ofCallback config callback).statementText a) = some []
  /-- Wherever a row is read in the script, with its code blocks opened, the name
      and one of the two key words stand in front of it. -/
  called : ∃ name tokens, ReadsAs callback name ∧ readTokens 1 sql.toList = some tokens ∧
    CalledBy name tokens

section CallsDirectly

variable {config : Config} {callback : String} {steps : List Step} {script : List Action}

/-- The statements that deliver an event to an observer of a plain name. -/
theorem Observer.calls_of_plain (config : Config) (hplain : isPlainQualifiedName callback = true)
    (e : Event) :
    (named config callback).invocation e =
      "SELECT " ++ callback ++ "(" ++ e.row (escapeQualifiedName config.eventType) ++ ");" ∧
    (named config callback).handlerInvocation e =
      "PERFORM " ++ callback ++ "(" ++ e.row (escapeQualifiedName config.eventType) ++ ");" := by
  have htarget : CallTarget.ofName callback = .direct callback := if_pos hplain
  unfold named invocation handlerInvocation
  rw [htarget]
  exact ⟨rfl, rfl⟩

theorem callsDirectly_of_statementsOf (hne : callback ≠ "")
    (hplain : isPlainQualifiedName callback = true)
    (h : statementsOf config callback steps = .ok script) :
    CallsDirectly config callback script ((Wording.ofCallback config callback).text script) := by
  have hobserver : (Wording.ofCallback config callback).observer =
      some (Observer.named config callback) := by
    rw [Wording.observer_ofCallback, if_neg hne]
  constructor
  · intro e _
    obtain ⟨hinvocation, _⟩ := Observer.calls_of_plain config hplain e
    simp [Wording.statementText, Wording.lines, hobserver, hinvocation]
  · intro step path _
    obtain ⟨_, hhandled⟩ := Observer.calls_of_plain config hplain (.ofStep .rollback step)
    have hhandler : (Wording.ofCallback config callback).handler step path =
        ("PERFORM " ++ callback ++ "(" ++ (Event.ofStep .rollback step).row
          (escapeQualifiedName config.eventType) ++ ");") ::
            (Wording.ofCallback config callback).warnOfFailure path := by
      rw [Wording.handler_eq, Wording.reportLines, hobserver, ← hhandled]
      rfl
    show "\n".intercalate ((Wording.ofCallback config callback).testBlock step path) = _
    rw [Wording.testBlock, hhandler]
    rfl
  · intro a ha hnotify htest
    rw [rowsOf_of_mem_statementsOf h ha, Action.rows_eq_nil callback hnotify htest]
  · obtain ⟨name, hname, _⟩ := readsAs_of_isPlainQualifiedName hplain
    obtain ⟨tagOf, _, hread⟩ := readTokens_statementsOf h 0
    have hform := CallForm.ofCallback_of_plain hne hplain
    refine ⟨name, _, hname, hread, ?_⟩
    apply calledBy_flatMap
    intro a ha rest hrest
    exact hrest.behind_action hne hform hname.1 (ofPlan_of_mem_statementsOf h a ha).complete _

end CallsDirectly

/-! ### The command line -/

namespace CommandLine

/-- A plan is compiled once the name of the observer has been accepted. -/
theorem compilePlan_eq_ok_iff {options : Options} {steps : List Step} {plan : CompiledPlan} :
    compilePlan options steps = .ok plan ↔
      Callback.validate options.callback = .ok () ∧
        compile options.toConfig options.callback steps = .ok plan := by
  unfold compilePlan
  cases Callback.validate options.callback with
  | error e => simp [Except.mapError, Bind.bind, Except.bind]
  | ok u =>
    cases compile options.toConfig options.callback steps <;>
      simp [Except.mapError, Bind.bind, Except.bind]

/-- An observer's name is accepted if it is empty or the name of a function, and
    otherwise what is wrong with it is reported.  So when a plan is compiled for
    an observer, its name is plain and every event is a direct call of it. -/
theorem names_accepted_and_called_directly :
    (∀ name, Callback.validate name = .ok () ↔ name = "" ∨ Callback.IsName name) ∧
    (∀ name e, Callback.validate name = .error e ↔ name ≠ "" ∧ Callback.NameFault name e) ∧
    (∀ name, Callback.validate name = .error (.tooManyParts name) ↔
      3 ≤ (nameParts name).length) ∧
    (∀ name, name ≠ "" → Callback.validate name = .ok () → isPlainQualifiedName name = true) ∧
    ∀ options steps plan, options.callback ≠ "" → compilePlan options steps = .ok plan →
      ∃ script, statementsOf options.toConfig options.callback steps = .ok script ∧
        plan.sql = "\n".intercalate
          (script.map (Wording.ofCallback options.toConfig options.callback).statementText) ∧
        CallsDirectly options.toConfig options.callback script plan.sql := by
  have hplain : ∀ name, name ≠ "" → Callback.validate name = .ok () →
      isPlainQualifiedName name = true := by
    intro name hne hvalid
    exact Callback.isPlainQualifiedName_of_isName
      ((Callback.validate_eq_ok_iff.mp hvalid).resolve_left hne)
  refine ⟨fun _ => Callback.validate_eq_ok_iff, fun _ _ => Callback.validate_eq_error_iff, ?_,
    hplain, ?_⟩
  · intro name
    rw [Callback.validate_eq_error_iff, Callback.nameFault_tooManyParts_iff]
    refine ⟨And.right, fun hmany => ⟨?_, hmany⟩⟩
    rintro rfl
    exact absurd hmany (by decide)
  · intro options steps plan hne hplan
    obtain ⟨hvalid, hcompile⟩ := compilePlan_eq_ok_iff.mp hplan
    obtain ⟨script, hscript, hsql, _⟩ := compile_eq_ok_iff.mp hcompile
    refine ⟨script, hscript, ?_, ?_⟩
    · rw [hsql]
      exact Wording.text_eq_intercalate_statementText (writes_of_mem_statementsOf hscript)
    · rw [hsql]
      exact callsDirectly_of_statementsOf hne (hplain _ hne hvalid) hscript

/-- Options with an observer that is spelled like what passes a row on. -/
def keywordOptions : Options := { callback := "USING.ROW", eventType := some "e');.;" }

/-- Thirty-two letters of two bytes each. -/
def umlauts : List Char := List.replicate 32 'ä'

/-- For the hostile plan, sixteen statements are written that call this
    observer by its name.  A name of letters that are not allowed is refused
    for its length if it has too many bytes. -/
theorem keywordOptions_called_directly :
    (keywordOptions.callback ≠ "" ∧ ∃ plan script,
      compilePlan keywordOptions hostilePlan = .ok plan ∧
      statementsOf keywordOptions.toConfig keywordOptions.callback hostilePlan = .ok script ∧
      script.length = 16 ∧
      CallsDirectly keywordOptions.toConfig keywordOptions.callback script plan.sql) ∧
    Callback.validate "a_1.B" = .ok () ∧ isPlainQualifiedName "a_1.B" = true ∧
    Callback.NameFault (String.ofList umlauts)
      (.identifierTooLong (String.ofList umlauts) (String.ofList umlauts) 63) := by
  obtain ⟨_, herror, _, hplain, hcalls⟩ := names_accepted_and_called_directly
  have hne : keywordOptions.callback ≠ "" := by decide
  have hcompile : ∃ plan, compilePlan keywordOptions hostilePlan = .ok plan := ⟨_, rfl⟩
  have hsixteen : (statementsOf keywordOptions.toConfig keywordOptions.callback hostilePlan).map
      List.length = .ok 16 := by rfl
  have hvalid : Callback.validate "a_1.B" = .ok () := by rfl
  have hlong : Callback.validate (String.ofList umlauts) =
      .error (.identifierTooLong (String.ofList umlauts) (String.ofList umlauts) 63) := by rfl
  obtain ⟨plan, hplan⟩ := hcompile
  obtain ⟨script, hscript, _, hdirect⟩ := hcalls _ _ plan hne hplan
  rw [hscript] at hsixteen
  exact ⟨⟨hne, plan, script, hplan, hscript, Except.ok.inj hsixteen, hdirect⟩, hvalid,
    hplain _ (by decide) hvalid, ((herror _ _).mp hlong).2⟩

end CommandLine

end SuiteScript
