import SuiteScript.CommandLine.Run
import SuiteScript.Proofs.PhysicalLines

/-! # What a line of a script executes

    Each line of a script belongs to one statement (`Wording.ownedLines`).
    When the database reports a line, the source map is asked for it: it
    answers with a fixture or a test exactly if the line belongs to the code
    block that executes that step, and has no answer for any other line, nor
    for a number that is no line of the script
    (`compile_describes_every_line`).

    The source map is searched entry by entry, and only statements that
    execute a step have entries.  So the induction is on the statements, with
    the number of the next line: a statement in front of the line is passed
    by the search, whether it has an entry or not. -/

namespace SuiteScript

open CommandLine (describeLine Failure)

/-! ### Lines and their statements -/

theorem linesOf_of_oneLine {text : String} (h : OneLine text) : linesOf text = [text] := by
  have hone : (linesOf text).length = 1 := by
    rw [length_linesOf, List.count_eq_zero.mpr h]
  obtain ⟨line, hline⟩ := List.length_eq_one_iff.mp hone
  have hjoin := intercalate_linesOf text
  rw [hline, String.intercalate_singleton] at hjoin
  rw [hline, hjoin]

namespace Wording

variable {w : Wording}

/-- The lines of a script, each with the statement that it belongs to. -/
def ownedLines (w : Wording) (script : List Action) : List (String × Action) :=
  script.flatMap fun a => (linesOf (w.statementText a)).map fun line => (line, a)

/-- The statement that a line belongs to, if it is a line of the script.
    Lines are counted from 1. -/
def owner? (w : Wording) (script : List Action) (line : Nat) : Option Action :=
  if line = 0 then none else ((w.ownedLines script)[line - 1]?).map Prod.snd

/-- These are all the lines of the script. -/
theorem linesOf_text_eq_ownedLines {script : List Action} (hne : script ≠ [])
    (hwrites : ∀ a ∈ script, w.writes a = true) :
    linesOf (w.text script) = (w.ownedLines script).map Prod.fst := by
  have htexts : script.map w.statementText ≠ [] := by simpa using hne
  rw [text_eq_intercalate_statementText hwrites, linesOf_intercalate htexts, ownedLines,
    List.map_flatMap, List.flatMap_map]
  simp [Function.comp_def]

/-- A statement whose lines do not break is these lines. -/
theorem linesOf_statementText_of_oneLine {a : Action} (ha : w.writes a = true)
    (h : ∀ line ∈ w.lines a, OneLine line) : linesOf (w.statementText a) = w.lines a := by
  have hne : w.lines a ≠ [] := by simpa [writes] using ha
  rw [statementText, linesOf_intercalate hne]
  have hlines : ∀ line ∈ w.lines a, linesOf line = [line] := by
    intro line hline
    exact linesOf_of_oneLine (h line hline)
  rw [List.flatMap_congr hlines, List.flatMap_singleton']

/-- The lines that are written, each with its statement. -/
def writtenLines (w : Wording) (script : List Action) : List (String × Action) :=
  script.flatMap fun a => (w.lines a).map fun line => (line, a)

theorem ownedLines_of_oneLine {script : List Action} (hwrites : ∀ a ∈ script, w.writes a = true)
    (h : ∀ a ∈ script, ∀ line ∈ w.lines a, OneLine line) :
    w.ownedLines script = w.writtenLines script := by
  unfold ownedLines writtenLines
  apply List.flatMap_congr
  intro a ha
  rw [linesOf_statementText_of_oneLine (hwrites a ha) (h a ha)]

/-! ### Searching the entries -/

/-- The step that a statement executes, in words. -/
def describeRun (run : Step × String) : String :=
  run.1.kind.name ++ ": " ++ run.2 ++ " (ordinal " ++ toString run.1.ordinal.toNat ++ ")"

/-- A line in front of all entries has none. -/
theorem resolve_eq_none_of_lt {actions : List Action} {position line l : Nat} (h : l < line) :
    (SourceMap.mk (w.entriesFrom position line actions)).resolve l = none := by
  induction actions generalizing position line with
  | nil => rfl
  | cons a rest ih =>
    unfold entriesFrom
    cases hrun : a.run? with
    | none => exact ih (by omega)
    | some run =>
      have hlength : 0 < (w.lines a).length :=
        List.length_pos_of_ne_nil (lines_ne_nil_of_run? hrun)
      -- the search stops at the first entry, which starts too late
      have hstop : ¬ line + (w.lines a).length - 1 < l := by omega
      have hlate : ¬ line ≤ l := by omega
      simp [SourceMap.resolve, SourceEntry.containsLine, hstop, hlate]

/-- From the line on that is written next, the answer for a line is the step
    that its statement executes. -/
theorem describe_entriesFrom {actions : List Action} {position line l : Nat} (h : line ≤ l) :
    (SourceMap.mk (w.entriesFrom position line actions)).describe l =
      ((w.writtenLines actions)[l - line]?.bind fun owned => owned.2.run?).map describeRun := by
  induction actions generalizing position line with
  | nil => rfl
  | cons a rest ih =>
    have hcons : w.writtenLines (a :: rest) =
        (w.lines a).map (fun line => (line, a)) ++ w.writtenLines rest := rfl
    have hfirst : ((w.lines a).map fun line => (line, a)).length = (w.lines a).length :=
      List.length_map ..
    rw [hcons]
    unfold entriesFrom
    by_cases hown : l < line + (w.lines a).length
    · -- a line of this statement
      have hinside : l - line < (w.lines a).length := by omega
      rw [List.getElem?_append_left (by omega), List.getElem?_map,
        List.getElem?_eq_getElem hinside]
      cases hrun : a.run? with
      | none =>
        simp [SourceMap.describe, resolve_eq_none_of_lt hown, hrun]
      | some run =>
        have hstop : ¬ line + (w.lines a).length - 1 < l := by omega
        have hend : l ≤ line + (w.lines a).length - 1 := by omega
        simp [SourceMap.describe, SourceMap.resolve, SourceEntry.containsLine, hstop, h, hend, hrun,
          describeRun, SourceEntry.description]
    · -- a line of a later statement
      have hnext : line + (w.lines a).length ≤ l := by omega
      have hindex : l - line - (w.lines a).length = l - (line + (w.lines a).length) := by omega
      rw [List.getElem?_append_right (by omega), hfirst, hindex]
      cases hrun : a.run? with
      | none => exact ih hnext
      | some run =>
        have hlength : 0 < (w.lines a).length :=
          List.length_pos_of_ne_nil (lines_ne_nil_of_run? hrun)
        have hpassed : line + (w.lines a).length - 1 < l := by omega
        -- its entry ends in front of the line, so the search goes on
        rw [← @ih (position + 1) _ hnext]
        simp [SourceMap.describe, SourceMap.resolve, hpassed]

/-- The source map of a script answers for each line with the step that its
    statement executes. -/
theorem describe_sourceMap {script : List Action} (h : w.ownedLines script = w.writtenLines script)
    (line : Nat) :
    (w.sourceMap script).describe line =
      ((w.owner? script line).bind Action.run?).map describeRun := by
  unfold sourceMap owner?
  by_cases hzero : line = 0
  · -- there is no such line
    have hnone : (SourceMap.mk (w.entriesFrom 0 1 script)).resolve line = none :=
      resolve_eq_none_of_lt (by omega)
    rw [if_pos hzero, SourceMap.describe, hnone]
    rfl
  · rw [if_neg hzero, describe_entriesFrom (by omega), h]
    cases (w.writtenLines script)[line - 1]? <;> rfl

/-- A line belongs to a statement of the script. -/
theorem mem_of_owner? {script : List Action} {line : Nat} {a : Action}
    (h : w.owner? script line = some a) : a ∈ script := by
  unfold owner? at h
  split at h
  · cases h
  · obtain ⟨owned, howned, rfl⟩ := Option.map_eq_some_iff.mp h
    obtain ⟨b, hb, hline⟩ := List.mem_flatMap.mp (List.mem_of_getElem? howned)
    obtain ⟨_, _, rfl⟩ := List.mem_map.mp hline
    exact hb

end Wording

/-- What is executed is a step of the plan, with its own script. -/
theorem Schedule.mem_of_run? {steps : List Step} {actions : List Action} {a : Action} {step : Step}
    {path : String} (h : ofSteps steps = .ok actions) (ha : a ∈ actions)
    (hrun : a.run? = some (step, path)) : step ∈ steps ∧ step.scriptPath = some path := by
  obtain ⟨before, after, rfl⟩ := List.append_of_mem ha
  obtain ⟨done, rest, rfl, hpath, _⟩ := oneLineTexts_ofSteps_upTo_run {} "" h hrun
  exact ⟨by simp, hpath⟩

/-! ### Whole scripts -/

/-- Do the texts of a plan hold no line break? -/
structure OneLinePlan (config : Config) (callback : String) (steps : List Step) : Prop where
  /-- The observer's name does not. -/
  callback_oneLine : OneLine callback
  /-- The name of the table of scripts does not. -/
  sourceTable_oneLine : OneLine config.sourceTable
  /-- The name of the row type does not. -/
  eventType_oneLine : OneLine config.eventType
  /-- No directory does. -/
  directories_oneLine : ∀ step ∈ steps, OneLine step.place.directory
  /-- No path does. -/
  paths_oneLine : ∀ step ∈ steps, ∀ path ∈ step.scriptPath, OneLine path

variable {config : Config} {callback : String} {steps : List Step}

/-- Nothing that such a plan does breaks a line. -/
theorem OneLinePlan.oneLine_lines (h : OneLinePlan config callback steps)
    (htag : Sql.isValidTag config.blockTag = true) {actions : List Action}
    (hactions : Schedule.ofSteps steps = .ok actions) :
    ∀ a ∈ actions, ∀ line ∈ (Wording.ofCallback config callback).lines a, OneLine line := by
  have hsteps : ∀ step ∈ steps, step.OneLineTexts config callback := by
    intro step hstep
    constructor
    · intro _
      exact ⟨h.sourceTable_oneLine, h.paths_oneLine step hstep⟩
    · intro _
      exact ⟨h.callback_oneLine, h.eventType_oneLine, h.directories_oneLine step hstep⟩
  have hnames : callback ≠ "" → OneLine callback ∧ OneLine config.eventType := by
    intro _
    exact ⟨h.callback_oneLine, h.eventType_oneLine⟩
  intro a ha
  rw [Wording.oneLine_lines_iff htag]
  exact Schedule.oneLineTexts_ofSteps config callback hactions hnames hsteps a ha

variable {script : List Action}

/-- Every step leaves a statement, whoever listens. -/
theorem Step.exists_writes (w : Wording) {step : Step} {s s' : ScopeStack} {actions : List Action}
    (h : step.actions s = .ok (actions, s')) : ∃ a ∈ actions, w.writes a = true := by
  rcases Step.actions_cases h with ⟨path, _, _, hactions⟩ | ⟨path, _, _, hactions⟩ |
    ⟨scope, outer, _, _, _, hactions, _⟩
  · have hlist : actions = (step.fixtureActions path s).1 := congrArg Prod.fst hactions
    exact ⟨.runFixture step path, by simp [hlist, Step.fixtureActions_fst], rfl⟩
  · have hlist : actions = (step.testActions path s).1 := congrArg Prod.fst hactions
    exact ⟨.runTest step path, by simp [hlist, Step.testActions_fst], rfl⟩
  · exact ⟨.release scope.close.savepoint, by simp [hactions, Step.teardownActions], rfl⟩

/-- A plan has at least the statement that its first step leaves. -/
theorem statementsOf_ne_nil (h : statementsOf config callback steps = .ok script)
    (hne : steps ≠ []) : script ≠ [] := by
  rcases statementsOf_eq_ok h with ⟨hnil, _⟩ | ⟨_, _, actions, hactions, rfl⟩
  · exact absurd hnil hne
  obtain ⟨run, s', hrun, rfl⟩ := Schedule.ofSteps_eq_ok hactions
  obtain ⟨step, rest, rfl⟩ := List.exists_cons_of_ne_nil hne
  obtain ⟨_, first, after, others, hstep, _, rfl⟩ := Schedule.ofStepsFrom_cons_eq_ok.mp hrun
  obtain ⟨a, ha, hwrites⟩ := Step.exists_writes (.ofCallback config callback) hstep
  have hmem : a ∈ (Wording.ofCallback config callback).statements
      (Schedule.opening ++ (first ++ others) ++ Schedule.ending (step :: rest)) := by
    apply List.mem_filter.mpr
    simp [ha, hwrites]
  exact List.ne_nil_of_mem hmem

/-- What a script executes is a step of the plan, with its own path. -/
theorem mem_of_run?_statementsOf (h : statementsOf config callback steps = .ok script)
    {a : Action} (ha : a ∈ script) {step : Step} {path : String}
    (hrun : a.run? = some (step, path)) : step ∈ steps ∧ step.scriptPath = some path := by
  rcases statementsOf_eq_ok h with ⟨_, rfl⟩ | ⟨_, _, actions, hactions, rfl⟩
  · cases ha
  · exact Schedule.mem_of_run? hactions (List.mem_filter.mp ha).1 hrun

/-- In a script without broken lines, the lines that are written are its
    lines. -/
theorem OneLinePlan.ownedLines_eq (htexts : OneLinePlan config callback steps)
    (h : statementsOf config callback steps = .ok script) :
    (Wording.ofCallback config callback).ownedLines script =
      (Wording.ofCallback config callback).writtenLines script := by
  apply Wording.ownedLines_of_oneLine (writes_of_mem_statementsOf h)
  rcases statementsOf_eq_ok h with ⟨_, rfl⟩ | ⟨_, htag, actions, hactions, rfl⟩
  · intro a ha
    cases ha
  · intro a ha
    exact htexts.oneLine_lines htag hactions a (List.mem_filter.mp ha).1

/-- In a plan whose texts hold no line break, every line of the script belongs
    to one statement.  A line is described exactly if this statement executes
    a step of the plan, and then by the kind, the path and the ordinal of this
    step.  Any other number fails, with exit status 1. -/
theorem compile_describes_every_line {plan : CompiledPlan}
    (htexts : OneLinePlan config callback steps) (h : compile config callback steps = .ok plan)
    (line : Nat) :
    ∃ script, statementsOf config callback steps = .ok script ∧
      (steps ≠ [] → linesOf plan.sql =
        ((Wording.ofCallback config callback).ownedLines script).map Prod.fst) ∧
      (∀ description, describeLine plan.sourceMap line = .ok description ↔
        ∃ a step path, (Wording.ofCallback config callback).owner? script line = some a ∧
          a.run? = some (step, path) ∧ step ∈ steps ∧ step.scriptPath = some path ∧
          description = "line " ++ toString line ++ ": " ++ (step.kind.name ++ ": " ++ path ++
            " (ordinal " ++ toString step.ordinal.toNat ++ ")")) ∧
      (∀ failure, describeLine plan.sourceMap line = .error failure ↔
        failure = .lineOutside line ∧
          ∀ a, (Wording.ofCallback config callback).owner? script line = some a → a.run? = none) ∧
      Failure.exitCode = 1 := by
  obtain ⟨script, hscript, hsql, hmap⟩ := compile_eq_ok_iff.mp h
  have hanswer : plan.sourceMap.describe line =
      (((Wording.ofCallback config callback).owner? script line).bind Action.run?).map
        Wording.describeRun := by
    rw [hmap]
    exact Wording.describe_sourceMap (htexts.ownedLines_eq hscript) line
  refine ⟨script, hscript, ?_, ?_, ?_, rfl⟩
  · intro hne
    rw [hsql]
    exact Wording.linesOf_text_eq_ownedLines (statementsOf_ne_nil hscript hne)
      (writes_of_mem_statementsOf hscript)
  · intro description
    unfold describeLine
    rw [hanswer]
    cases howner : (Wording.ofCallback config callback).owner? script line with
    | none => simp
    | some a =>
      cases hrun : a.run? with
      | none => simp [hrun]
      | some run =>
        obtain ⟨step, path⟩ := run
        obtain ⟨hstep, hpath⟩ :=
          mem_of_run?_statementsOf hscript (Wording.mem_of_owner? howner) hrun
        simp only [Option.bind_some, hrun, Option.map_some, Wording.describeRun]
        constructor
        · intro hdescription
          exact ⟨a, step, path, rfl, hrun, hstep, hpath, (Except.ok.inj hdescription).symm⟩
        · intro hexecutes
          obtain ⟨a', step', path', ha, hrun', _, _, rfl⟩ := hexecutes
          cases ha
          rw [hrun] at hrun'
          cases hrun'
          rfl
  · intro failure
    unfold describeLine
    rw [hanswer]
    cases howner : (Wording.ofCallback config callback).owner? script line with
    | none => simp [eq_comm]
    | some a => cases hrun : a.run? <;> simp [hrun, eq_comm]

/-- With an observer that is called through code blocks, the seventh line of
    the example is in the block of its first test, and the fourth in the block
    that announces the test. -/
theorem nestedPlan_describes_lines :
    OneLinePlan {} "it's" nestedPlan ∧
    ∃ plan script, compile {} "it's" nestedPlan = .ok plan ∧
      statementsOf {} "it's" nestedPlan = .ok script ∧
      describeLine plan.sourceMap 7 = .ok "line 7: test: a/1.sql (ordinal 1)" ∧
      (∃ a step path, (Wording.ofCallback {} "it's").owner? script 7 = some a ∧
        a.run? = some (step, path) ∧ step ∈ nestedPlan ∧ step.scriptPath = some path) ∧
      describeLine plan.sourceMap 4 = .error (.lineOutside 4) ∧
      ∀ a, (Wording.ofCallback {} "it's").owner? script 4 = some a → a.run? = none := by
  have htexts : OneLinePlan {} "it's" nestedPlan := by
    constructor <;> decide +kernel
  have hseven : ((compile {} "it's" nestedPlan).toOption.map fun plan =>
      describeLine plan.sourceMap 7) = some (.ok "line 7: test: a/1.sql (ordinal 1)") := by
    decide +kernel
  have hfour : ((compile {} "it's" nestedPlan).toOption.map fun plan =>
      describeLine plan.sourceMap 4) = some (.error (.lineOutside 4)) := by
    decide +kernel
  have hcompile : ∃ plan, compile {} "it's" nestedPlan = .ok plan := ⟨_, rfl⟩
  obtain ⟨plan, hplan⟩ := hcompile
  rw [hplan] at hseven hfour
  have hseven' := Option.some.inj hseven
  have hfour' := Option.some.inj hfour
  obtain ⟨script, hscript, _, hdescribed, _⟩ := compile_describes_every_line htexts hplan 7
  obtain ⟨script', hscript', _, _, hfails, _⟩ := compile_describes_every_line htexts hplan 4
  rw [hscript] at hscript'
  cases hscript'
  obtain ⟨a, step, path, howner, hrun, hstep, hpath, _⟩ := (hdescribed _).mp hseven'
  exact ⟨htexts, plan, script, hplan, hscript, hseven', ⟨a, step, path, howner, hrun, hstep, hpath⟩,
    hfour', ((hfails _).mp hfour').2⟩

end SuiteScript
