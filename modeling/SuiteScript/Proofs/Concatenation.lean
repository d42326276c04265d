import Mathlib.Algebra.Group.Nat.Defs
import SuiteScript.Proofs.LineResolution
import SuiteScript.Proofs.Merging
import SuiteScript.Proofs.RaisedSerials

/-! # One plan after another

    Two plans can be compiled apart and put together, or put together and
    compiled.  If the first closes all places that it opens, both ways give
    the same: the second script follows the first, under raised numbers, and
    the source map of the whole is that of the first merged with that of the
    second (`compile_append_eq_merged`).

    The two ways number lines and entries differently.  Compiled together,
    the entries of the second plan count on from those of the first;
    compiled apart, they count from the beginning and are shifted and
    renumbered afterwards.  What makes them meet is that `entriesFrom` only
    ever adds to the numbers that it starts from. -/

namespace SuiteScript

namespace Wording

variable {w : Wording}

/-! ### Entries of scripts that are joined -/

theorem entriesFrom_append (position line : Nat) (xs ys : List Action) :
    w.entriesFrom position line (xs ++ ys) =
      w.entriesFrom position line xs ++
        w.entriesFrom (position + (w.entriesFrom position line xs).length)
          (line + (xs.flatMap w.lines).length) ys := by
  induction xs generalizing position line with
  | nil => rfl
  | cons a xs ih =>
    rw [List.cons_append, entriesFrom, entriesFrom, List.flatMap_cons, List.length_append]
    cases a.run? with
    | none =>
      simp only [ih, Nat.add_assoc]
    | some run =>
      simp only [ih, List.cons_append, List.length_cons, Nat.add_assoc, Nat.add_comm 1]

/-- Entries that start lower are those that start at the top, shifted. -/
theorem entriesFrom_add (position line offset : Nat) (actions : List Action) :
    w.entriesFrom position (line + offset) actions =
      (w.entriesFrom position line actions).map (·.shift offset) := by
  induction actions generalizing position line with
  | nil => rfl
  | cons a rest ih =>
    have hnext : line + offset + (w.lines a).length = line + (w.lines a).length + offset := by
      omega
    rw [entriesFrom, entriesFrom, hnext]
    cases hrun : a.run? with
    | none => exact ih _ _
    | some run =>
      have hlength : 0 < (w.lines a).length :=
        List.length_pos_of_ne_nil (lines_ne_nil_of_run? hrun)
      have hend : line + (w.lines a).length + offset - 1 = line + (w.lines a).length - 1 + offset :=
        by omega
      simp only [ih, hend, List.map_cons, SourceEntry.shift]

/-- Numbering entries anew is as good as numbering them so from the
    beginning. -/
theorem renumber_entriesFrom (position position' line : Nat) (actions : List Action) :
    SourceMap.renumber position (w.entriesFrom position' line actions) =
      w.entriesFrom position line actions := by
  induction actions generalizing position position' line with
  | nil => rfl
  | cons a rest ih =>
    rw [entriesFrom, entriesFrom]
    cases a.run? with
    | none => exact ih ..
    | some run => simp only [SourceMap.renumber, ih]

/-- Entries stand within the lines of their script. -/
theorem mem_entriesFrom_bounds {position line : Nat} {actions : List Action} {entry : SourceEntry}
    (h : entry ∈ w.entriesFrom position line actions) :
    line ≤ entry.startLine ∧ entry.startLine ≤ entry.endLine ∧
      entry.endLine < line + (actions.flatMap w.lines).length := by
  obtain ⟨n, hn⟩ := List.mem_iff_getElem?.mp h
  obtain ⟨before, a, after, step, path, rfl, ha, hstart, hend, _⟩ := entriesFrom_getElem? hn
  have hlength : 0 < (w.lines a).length := List.length_pos_of_ne_nil (lines_ne_nil_of_run? ha)
  simp only [List.flatMap_append, List.flatMap_cons, List.flatMap_nil, List.append_nil,
    List.length_append] at hend ⊢
  omega

/-- The source maps of two scripts merge into the source map of both, as long
    as all lines can be counted. -/
theorem merged_sourceMap {xs ys : List Action}
    (hbound : ((xs ++ ys).flatMap w.lines).length + 1 < SourceMap.lineBound) :
    (w.sourceMap xs).merged (w.sourceMap ys) (xs.flatMap w.lines).length =
      .ok (w.sourceMap (xs ++ ys)) := by
  rw [List.flatMap_append, List.length_append] at hbound
  -- the merge shifts lines and renumbers positions, and so does writing `ys` behind `xs`
  have hshifted : (w.entriesFrom 0 1 ys).map (·.shift (xs.flatMap w.lines).length) =
      w.entriesFrom 0 (1 + (xs.flatMap w.lines).length) ys := (entriesFrom_add ..).symm
  have hnumbers : SourceMap.renumber 0 (w.entriesFrom 0 1 xs ++
      w.entriesFrom 0 (1 + (xs.flatMap w.lines).length) ys) = w.entriesFrom 0 1 (xs ++ ys) := by
    rw [SourceMap.renumber_append, renumber_entriesFrom, renumber_entriesFrom, entriesFrom_append]
  have hlast : (w.sourceMap xs).lastLine ≤ (xs.flatMap w.lines).length := by
    unfold SourceMap.lastLine sourceMap
    cases hentry : (w.entriesFrom 0 1 xs).getLast? with
    | none => exact Nat.zero_le _
    | some entry =>
      have hbounds := mem_entriesFrom_bounds (List.mem_of_getLast? hentry)
      show entry.endLine ≤ _
      omega
  refine SourceMap.merged_eq_ok_iff.mpr ⟨?_, ?_, ?_⟩
  · -- the second script starts behind the first
    intro entry hentry
    have hbounds := mem_entriesFrom_bounds (List.mem_of_head? hentry)
    omega
  · -- and its lines fit
    intro entry hentry
    have hbounds := mem_entriesFrom_bounds hentry
    omega
  · simp only [sourceMap, hshifted, hnumbers]

/-! ### Raised scripts -/

theorem text_append {xs ys : List Action} (hxs : xs.flatMap w.lines ≠ [])
    (hys : ys.flatMap w.lines ≠ []) : w.text (xs ++ ys) = w.text xs ++ "\n" ++ w.text ys := by
  unfold text
  rw [List.flatMap_append, String.intercalate_append_of_ne_nil hxs hys]

/-- Another number takes as many lines. -/
theorem length_lines_raise (n : Nat) (a : Action) :
    (w.lines (a.raise n)).length = (w.lines a).length := by
  cases a <;> rfl

theorem length_flatMap_lines_map_raise (n : Nat) (actions : List Action) :
    ((actions.map (Action.raise n)).flatMap w.lines).length =
      (actions.flatMap w.lines).length := by
  simp only [List.flatMap_map, List.length_flatMap, length_lines_raise]

theorem writes_raise (n : Nat) (a : Action) : w.writes (a.raise n) = w.writes a := by
  cases a <;> rfl

theorem statements_map_raise (n : Nat) (actions : List Action) :
    w.statements (actions.map (Action.raise n)) = (w.statements actions).map (Action.raise n) := by
  unfold statements
  rw [List.filter_map]
  congr 2
  funext a
  exact writes_raise n a

theorem entriesFrom_map_raise (n position line : Nat) (actions : List Action) :
    w.entriesFrom position line (actions.map (Action.raise n)) =
      w.entriesFrom position line actions := by
  induction actions generalizing position line with
  | nil => rfl
  | cons a rest ih =>
    simp only [List.map_cons, entriesFrom, Action.run?_raise, length_lines_raise, ih]

theorem sourceMap_map_raise (n : Nat) (actions : List Action) :
    w.sourceMap (actions.map (Action.raise n)) = w.sourceMap actions := by
  unfold sourceMap
  rw [entriesFrom_map_raise]

/-! ### How long a script gets -/

/-- The highest statement is the block of a test with an observer and a
    warning. -/
theorem length_lines_le (a : Action) : (w.lines a).length ≤ 8 := by
  have hobserver : w.observer.toList.length ≤ 1 := by cases w.observer <;> simp
  have hwarning : ∀ path, (w.warnOfFailure path).length ≤ 1 := by
    intro path
    unfold warnOfFailure
    split <;> simp
  cases a with
  | checkObserver =>
    simp only [lines, List.length_map]
    omega
  | notify event =>
    simp only [lines, List.length_map]
    omega
  | runTest step path =>
    have hhandler : (w.handler step path).length ≤ 2 := by
      have hwarning' := hwarning path
      unfold handler
      split
      · simp
      · simp only [reportFailure, List.length_append, List.length_map]
        omega
    simp only [lines, testBlock, List.length_append, List.length_map, List.length_cons,
      List.length_nil]
    omega
  | _ => simp [lines]

theorem length_flatMap_lines_le (actions : List Action) :
    (actions.flatMap w.lines).length ≤ 8 * actions.length := by
  induction actions with
  | nil => simp
  | cons a rest ih =>
    have ha := w.length_lines_le a
    rw [List.flatMap_cons, List.length_append, List.length_cons]
    omega

end Wording

theorem Step.length_actions_le {step : Step} {s s' : ScopeStack} {actions : List Action}
    (h : step.actions s = .ok (actions, s')) : actions.length ≤ 6 := by
  have henter : ∀ entry : ScopeEntry, entry.actions.length ≤ 1 := by
    intro entry
    cases entry <;> simp [ScopeEntry.actions]
  have henter' := henter (s.enter step.place).1
  rcases actions_cases h with ⟨path, _, _, h⟩ | ⟨path, _, _, h⟩ | ⟨_, _, _, _, _, rfl, _⟩
  · have hlist : actions = (step.fixtureActions path s).1 := congrArg Prod.fst h
    simp only [hlist, fixtureActions, List.length_append, List.length_cons, List.length_nil]
    omega
  · have hlist : actions = (step.testActions path s).1 := congrArg Prod.fst h
    simp only [hlist, testActions, List.length_append, List.length_cons, List.length_nil]
    omega
  · simp [teardownActions]

theorem Schedule.length_ofStepsFrom_le {previous : Option UInt32} {s s' : ScopeStack}
    {steps : List Step} {actions : List Action}
    (h : ofStepsFrom previous s steps = .ok (actions, s')) : actions.length ≤ 6 * steps.length := by
  induction steps generalizing previous s actions with
  | nil => cases h; simp
  | cons step rest ih =>
    obtain ⟨_, first, after, others, hstep, hrest, rfl⟩ := ofStepsFrom_cons_eq_ok.mp h
    have hfirst := Step.length_actions_le hstep
    have hothers := ih hrest
    rw [List.length_append, List.length_cons]
    omega

/-! ### Two plans -/

/-- A plan behind another that has closed all its places does what it would
    do alone, under higher numbers. -/
theorem Schedule.ofStepsFrom_append_of_closed {xs ys : List Step} {first others : List Action}
    {s s' : ScopeStack} (hfirst : ofStepsFrom none {} xs = .ok (first, s))
    (hothers : ofStepsFrom none {} ys = .ok (others, s')) (hclosed : openPlaces xs = [])
    (horder : ∀ last ∈ xs.getLast?, ∀ next ∈ ys.head?, last.ordinal < next.ordinal) :
    ofStepsFrom none {} (xs ++ ys) =
      .ok (first ++ others.map (Action.raise (serialsTaken xs)), s'.raise (serialsTaken xs)) := by
  -- all that is left of the first plan is its counter
  have hplaces : s.places = [] := (places_ofStepsFrom hfirst).trans hclosed
  have hstate : s = ScopeStack.raise (serialsTaken xs) {} := by
    rw [← nextSerial_eq_serialsTaken hfirst]
    exact ScopeStack.eq_raise_of_places_eq_nil hplaces
  have horder' : ∀ p ∈ xs.getLast?.map Step.ordinal, ∀ next ∈ ys.head?, p < next.ordinal := by
    intro p hp
    obtain ⟨last, hlast, rfl⟩ := Option.map_eq_some_iff.mp hp
    exact horder last hlast
  have hrest : ofStepsFrom ((xs.getLast?.map Step.ordinal).or none) s ys =
      .ok (raiseRun (serialsTaken xs) (others, s')) := by
    rw [Option.or_none, ofStepsFrom_eq_ofStepsFrom_none horder', hstate, ofStepsFrom_raise, hothers]
    rfl
  rw [ofStepsFrom_append, hfirst]
  simp only [bind, Except.bind, hrest]
  rfl

/-- Without an observer, the statements of a plan are those of its steps:
    nothing is written before the first or after the last. -/
theorem statementsOf_silent {config : Config} {steps : List Step} (hne : steps ≠ [])
    (htag : Sql.isValidTag config.blockTag = true) :
    statementsOf config "" steps = (Schedule.ofStepsFrom none {} steps).map fun run =>
      (Wording.ofCallback config "").statements run.1 := by
  have hsilent : ∀ run : List Action, (Wording.ofCallback config "").statements
      (Schedule.opening ++ run ++ Schedule.ending steps) =
        (Wording.ofCallback config "").statements run := by
    intro run
    have hopening : (Wording.ofCallback config "").statements Schedule.opening = [] := rfl
    have hending : (Wording.ofCallback config "").statements (Schedule.ending steps) = [] := rfl
    rw [Wording.statements_append, Wording.statements_append, hopening, hending,
      List.nil_append, List.append_nil]
  unfold statementsOf Schedule.ofSteps
  rw [if_neg (by simpa using hne), if_neg (by simpa using htag)]
  cases Schedule.ofStepsFrom none {} steps with
  | error e => rfl
  | ok run => exact congrArg Except.ok (hsilent run.1)

variable {config : Config} {callback : String} {steps xs ys : List Step} {script : List Action}

/-- So the statements of the second plan follow those of the first. -/
theorem statementsOf_append_of_closed {scriptX scriptY : List Action} (hxs : xs ≠ [])
    (hys : ys ≠ []) (hclosed : openPlaces xs = [])
    (horder : ∀ last ∈ xs.getLast?, ∀ next ∈ ys.head?, last.ordinal < next.ordinal)
    (hscriptX : statementsOf config "" xs = .ok scriptX)
    (hscriptY : statementsOf config "" ys = .ok scriptY) :
    statementsOf config "" (xs ++ ys) =
      .ok (scriptX ++ scriptY.map (Action.raise (serialsTaken xs))) := by
  rcases statementsOf_eq_ok hscriptX with ⟨hnil, _⟩ | ⟨_, htag, _⟩
  · exact absurd hnil hxs
  rw [statementsOf_silent hxs htag] at hscriptX
  rw [statementsOf_silent hys htag] at hscriptY
  have hboth : xs ++ ys ≠ [] := List.append_ne_nil_of_left_ne_nil hxs ys
  cases hfirst : Schedule.ofStepsFrom none {} xs with
  | error e =>
    rw [hfirst] at hscriptX
    cases hscriptX
  | ok first =>
    cases hothers : Schedule.ofStepsFrom none {} ys with
    | error e =>
      rw [hothers] at hscriptY
      cases hscriptY
    | ok others =>
      rw [hfirst] at hscriptX
      rw [hothers] at hscriptY
      cases hscriptX
      cases hscriptY
      rw [statementsOf_silent hboth htag,
        Schedule.ofStepsFrom_append_of_closed hfirst hothers hclosed horder, Except.map,
        Wording.statements_append, Wording.statements_map_raise]

theorem flatMap_lines_ne_nil (hne : steps ≠ [])
    (h : statementsOf config callback steps = .ok script) :
    script.flatMap (Wording.ofCallback config callback).lines ≠ [] := by
  obtain ⟨a, ha⟩ := List.exists_mem_of_ne_nil script (statementsOf_ne_nil h hne)
  exact Wording.flatMap_lines_ne_nil_of_writes ⟨a, ha, writes_of_mem_statementsOf h a ha⟩

/-- A step is at most six statements of at most eight lines, and three
    statements stand around all steps. -/
theorem length_lines_statementsOf_le (h : statementsOf config callback steps = .ok script) :
    (script.flatMap (Wording.ofCallback config callback).lines).length ≤
      48 * steps.length + 24 := by
  rcases statementsOf_eq_ok h with ⟨_, rfl⟩ | ⟨_, _, actions, hactions, rfl⟩
  · exact Nat.zero_le _
  · obtain ⟨run, s', hrun, rfl⟩ := Schedule.ofSteps_eq_ok hactions
    have hlines := (Wording.ofCallback config callback).length_flatMap_lines_le
      (Schedule.opening ++ run ++ Schedule.ending steps)
    have hlength : (Schedule.opening ++ run ++ Schedule.ending steps).length = run.length + 3 := by
      simp [Schedule.opening, Schedule.ending]
    have hactions := Schedule.length_ofStepsFrom_le hrun
    rw [Wording.flatMap_lines_statements]
    omega

/-- If neither the table nor a path breaks, the lines of a silent script are
    the lines that were written. -/
theorem length_linesOf_silent (hne : steps ≠ []) (htable : OneLine config.sourceTable)
    (hpaths : ∀ step ∈ steps, ∀ path ∈ step.scriptPath, OneLine path)
    (h : statementsOf config "" steps = .ok script) :
    (linesOf ((Wording.ofCallback config "").text script)).length =
      (script.flatMap (Wording.ofCallback config "").lines).length := by
  -- there is no name that could break
  have hnames : ("" : String) ≠ "" → OneLine "" ∧ OneLine config.eventType := by
    intro hcallback
    exact absurd rfl hcallback
  have htexts : ∀ step ∈ steps, step.OneLineTexts config "" := by
    intro step hstep
    constructor
    · intro _
      exact ⟨htable, hpaths step hstep⟩
    · intro hcallback
      exact absurd rfl hcallback
  have hone : lineBreaks (script.flatMap (Wording.ofCallback config "").lines) = 0 := by
    rw [lineBreaks_eq_zero_iff, List.forall_mem_flatMap]
    rcases statementsOf_eq_ok h with ⟨hnil, _⟩ | ⟨_, htag, actions, hactions, rfl⟩
    · exact absurd hnil hne
    · intro a ha
      have hmem : a ∈ actions := (List.mem_filter.mp ha).1
      rw [Wording.oneLine_lines_iff htag]
      exact Schedule.oneLineTexts_ofSteps config "" hactions hnames htexts a hmem
  rw [Wording.linesOf_text (flatMap_lines_ne_nil hne h), Wording.length_physical, hone,
    Nat.add_zero]

/-- Without an observer, two plans that are compiled together are the script
    of the first, and then that of the second under numbers raised by those
    that the first has taken.  The source map is that of the first merged
    with that of the second.  Only the lines of the first script are counted,
    so only its texts must not break. -/
theorem compile_append_eq_merged {planX planY : CompiledPlan} (hxs : xs ≠ []) (hys : ys ≠ [])
    (hlen : (xs ++ ys).length < 2 ^ 31) (hclosed : openPlaces xs = [])
    (horder : ∀ last ∈ xs.getLast?, ∀ next ∈ ys.head?, last.ordinal < next.ordinal)
    (htable : OneLine config.sourceTable)
    (hpaths : ∀ step ∈ xs, ∀ path ∈ step.scriptPath, OneLine path)
    (hplanX : compile config "" xs = .ok planX) (hplanY : compile config "" ys = .ok planY) :
    ∃ plan script, compile config "" (xs ++ ys) = .ok plan ∧
      statementsOf config "" ys = .ok script ∧
      planY.sql = (Wording.ofCallback config "").text script ∧
      plan.sql = planX.sql ++ "\n" ++
        (Wording.ofCallback config "").text (script.map (Action.raise (serialsTaken xs))) ∧
      planX.sourceMap.merged planY.sourceMap (linesOf planX.sql).length = .ok plan.sourceMap := by
  obtain ⟨scriptX, hscriptX, hsqlX, hmapX⟩ := compile_eq_ok_iff.mp hplanX
  obtain ⟨scriptY, hscriptY, hsqlY, hmapY⟩ := compile_eq_ok_iff.mp hplanY
  have hscript : statementsOf config "" (xs ++ ys) =
      .ok (scriptX ++ scriptY.map (Action.raise (serialsTaken xs))) :=
    statementsOf_append_of_closed hxs hys hclosed horder hscriptX hscriptY
  refine ⟨⟨_, _⟩, scriptY, compile_eq_ok_iff.mpr ⟨_, hscript, rfl, rfl⟩, hscriptY, hsqlY, ?_, ?_⟩
  · have hfirst := flatMap_lines_ne_nil hxs hscriptX
    have hothers := flatMap_lines_ne_nil hys hscriptY
    rw [hsqlX]
    apply Wording.text_append hfirst
    rwa [← List.length_pos_iff, Wording.length_flatMap_lines_map_raise, List.length_pos_iff]
  · have hlines := length_lines_statementsOf_le hscript
    have hbound : 48 * 2 ^ 31 + 25 < SourceMap.lineBound := by decide
    rw [hsqlX, length_linesOf_silent hxs htable hpaths hscriptX, hmapX, hmapY,
      ← Wording.sourceMap_map_raise (serialsTaken xs) scriptY]
    apply Wording.merged_sourceMap
    omega

/-- A plan that opens and closes two places and runs two tests. -/
def closedPlan : List Step := nestedPlan ++ [⟨5, .teardown, none, ⟨"a/", 0⟩⟩]

/-- A plan that opens one of its places again. -/
def reopeningPlan : List Step := [⟨6, .test, some "a/3.sql", ⟨"a/", 0⟩⟩]

/-- The first of these plans takes four numbers, so the second goes on with
    the fifth. -/
theorem closedPlan_append_reopeningPlan :
    ∃ planX planY plan script, compile {} "" closedPlan = .ok planX ∧
      compile {} "" reopeningPlan = .ok planY ∧
      compile {} "" (closedPlan ++ reopeningPlan) = .ok plan ∧
      statementsOf {} "" reopeningPlan = .ok script ∧
      openPlaces closedPlan = [] ∧ serialsTaken closedPlan = 4 ∧
      plan.sql = planX.sql ++ "\n" ++
        (Wording.ofCallback {} "").text (script.map (Action.raise 4)) ∧
      planX.sourceMap.merged planY.sourceMap (linesOf planX.sql).length = .ok plan.sourceMap := by
  have hcompileX : ∃ planX, compile {} "" closedPlan = .ok planX := ⟨_, rfl⟩
  have hcompileY : ∃ planY, compile {} "" reopeningPlan = .ok planY := ⟨_, rfl⟩
  obtain ⟨planX, hplanX⟩ := hcompileX
  obtain ⟨planY, hplanY⟩ := hcompileY
  have hlen : (closedPlan ++ reopeningPlan).length < 2 ^ 31 := by decide
  have hclosed : openPlaces closedPlan = [] := by decide
  have horder : ∀ last ∈ closedPlan.getLast?, ∀ next ∈ reopeningPlan.head?,
      last.ordinal < next.ordinal := by decide
  have htable : OneLine ({} : Config).sourceTable := by decide
  have hpaths : ∀ step ∈ closedPlan, ∀ path ∈ step.scriptPath, OneLine path := by decide
  obtain ⟨plan, script, hplan, hscript, _, hsql, hmap⟩ := compile_append_eq_merged (by decide)
    (by decide) hlen hclosed horder htable hpaths hplanX hplanY
  exact ⟨planX, planY, plan, script, hplanX, hplanY, hplan, hscript, hclosed, by decide, hsql, hmap⟩

end SuiteScript
