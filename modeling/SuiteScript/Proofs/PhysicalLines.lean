import SuiteScript.Proofs.StepTexts

/-! # Source maps and physical lines

    A source map counts the lines that were written, one for each text that
    was written as a line.  A text that holds a line break takes more lines
    of the script than that.  From there on every statement stands further
    down than the source map says, by exactly the number of these line
    breaks (`Wording.length_physical`), and an entry is right exactly if no
    text breaks in its statement or in front of it
    (`compile_locates_iff`). -/

namespace SuiteScript

/-! ### Lines of a text -/

/-- The lines of a text. -/
def linesOf (text : String) : List String := (text.toList.splitOn '\n').map String.ofList

/-- The lines of a text from `first` to `last`, counted from 1. -/
def linesBetween (text : String) (first last : Nat) : String :=
  "\n".intercalate (((linesOf text).take last).drop (first - 1))

/-- How many line breaks texts hold. -/
def lineBreaks (texts : List String) : Nat := (texts.flatMap String.toList).count '\n'

theorem intercalate_linesOf (text : String) : "\n".intercalate (linesOf text) = text := by
  rw [← String.toList_inj, String.toList_intercalate, linesOf, List.map_map]
  have hlines : (text.toList.splitOn '\n').map (String.toList ∘ String.ofList) =
      text.toList.splitOn '\n' := by simp
  rw [hlines]
  exact List.intercalate_splitOn '\n'

theorem linesOf_ne_nil (text : String) : linesOf text ≠ [] := by
  simp [linesOf]

theorem linesOf_join (s t : String) : linesOf (s ++ "\n" ++ t) = linesOf s ++ linesOf t := by
  have htext : (s ++ "\n" ++ t).toList = s.toList ++ '\n' :: t.toList := by simp
  unfold linesOf
  rw [htext, List.splitOn_append_cons_self, List.map_append]

theorem linesOf_intercalate {texts : List String} (hne : texts ≠ []) :
    linesOf ("\n".intercalate texts) = texts.flatMap linesOf := by
  induction texts with
  | nil => exact absurd rfl hne
  | cons text texts ih =>
    cases texts with
    | nil => simp
    | cons next texts =>
      rw [String.intercalate_cons_cons, linesOf_join, ih (List.cons_ne_nil _ _)]
      rfl

/-- A text has one line more than it has line breaks. -/
theorem length_linesOf (text : String) : (linesOf text).length = 1 + text.toList.count '\n' := by
  unfold linesOf
  rw [List.length_map]
  induction text.toList with
  | nil => rfl
  | cons c chars ih =>
    rw [List.splitOn_cons_eq_if_modifyHead, List.count_cons]
    by_cases hc : c = '\n'
    · rw [if_pos (by simpa using hc), List.length_cons, ih, if_pos (by simpa using hc)]
      omega
    · rw [if_neg (by simpa using hc), List.length_modifyHead, ih, if_neg (by simpa using hc),
        Nat.add_zero]

theorem lineBreaks_cons (text : String) (texts : List String) :
    lineBreaks (text :: texts) = text.toList.count '\n' + lineBreaks texts := by
  unfold lineBreaks
  rw [List.flatMap_cons, List.count_append]

theorem lineBreaks_append (texts others : List String) :
    lineBreaks (texts ++ others) = lineBreaks texts + lineBreaks others := by
  simp [lineBreaks]

theorem lineBreaks_eq_zero_iff {texts : List String} :
    lineBreaks texts = 0 ↔ ∀ text ∈ texts, OneLine text := by
  induction texts with
  | nil => simp [lineBreaks]
  | cons text texts ih =>
    rw [lineBreaks_cons, Nat.add_eq_zero_iff, ih, List.count_eq_zero, List.forall_mem_cons]
    rfl

theorem length_flatMap_linesOf (texts : List String) :
    (texts.flatMap linesOf).length = texts.length + lineBreaks texts := by
  induction texts with
  | nil => rfl
  | cons text texts ih =>
    rw [List.flatMap_cons, List.length_append, ih, length_linesOf, lineBreaks_cons,
      List.length_cons]
    omega

/-- The lines of a text break no more: splitting them again gives no more
    lines. -/
theorem oneLine_of_mem_linesOf {text line : String} (h : line ∈ linesOf text) : OneLine line := by
  have hagain : linesOf text = (linesOf text).flatMap linesOf := by
    rw [← linesOf_intercalate (linesOf_ne_nil text), intercalate_linesOf]
  have hlength := congrArg List.length hagain
  rw [length_flatMap_linesOf] at hlength
  have hzero : lineBreaks (linesOf text) = 0 := by omega
  exact lineBreaks_eq_zero_iff.mp hzero line h

/-- As many lines of one text cannot be a text that has more. -/
theorem linesBetween_ne {text own : String} {first last : Nat} (hfirst : 0 < first)
    (hlast : first ≤ last) (hown : last + 1 < first + (linesOf own).length) :
    linesBetween text first last ≠ own := by
  intro h
  have hslice : ∀ line ∈ ((linesOf text).take last).drop (first - 1), OneLine line := by
    intro line hline
    have htake := List.mem_of_mem_drop hline
    exact oneLine_of_mem_linesOf (List.mem_of_mem_take htake)
  have hlength := congrArg (fun s => (linesOf s).length) h
  by_cases hnil : ((linesOf text).take last).drop (first - 1) = []
  · -- no lines are the empty text, which is one line
    have hone : (linesOf (linesBetween text first last)).length = 1 := by
      unfold linesBetween
      rw [hnil]
      rfl
    simp only [hone] at hlength
    omega
  · have hzero := lineBreaks_eq_zero_iff.mpr hslice
    simp only [linesBetween, linesOf_intercalate hnil, length_flatMap_linesOf, hzero,
      List.length_drop, List.length_take] at hlength
    omega

/-! ### Lines of a script -/

namespace Wording

variable {w : Wording}

/-- The lines that actions take in a script. -/
def physical (w : Wording) (actions : List Action) : List String :=
  (actions.flatMap w.lines).flatMap linesOf

theorem physical_append (xs ys : List Action) :
    w.physical (xs ++ ys) = w.physical xs ++ w.physical ys := by
  simp [physical]

theorem linesOf_text {actions : List Action} (hne : actions.flatMap w.lines ≠ []) :
    linesOf (w.text actions) = w.physical actions :=
  linesOf_intercalate hne

theorem linesOf_statementText {a : Action} (hne : w.lines a ≠ []) :
    linesOf (w.statementText a) = w.physical [a] := by
  rw [statementText, linesOf_intercalate hne, physical, List.flatMap_singleton]

/-- Actions take as many lines as they have, and one more for each line
    break in these. -/
theorem length_physical (actions : List Action) :
    (w.physical actions).length =
      (actions.flatMap w.lines).length + lineBreaks (actions.flatMap w.lines) :=
  length_flatMap_linesOf _

theorem lines_ne_nil_of_run? {a : Action} {run : Step × String} (h : a.run? = some run) :
    w.lines a ≠ [] := by
  cases a with
  | runFixture step path => exact List.cons_ne_nil _ _
  | runTest step path => simp [lines, testBlock]
  | _ => cases h

/-- The statement of a step stands between the lines of what is written
    before and after it. -/
theorem linesOf_text_of_run {before after : List Action} {a : Action} {run : Step × String}
    (ha : a.run? = some run) :
    linesOf (w.text (before ++ a :: after)) =
      w.physical before ++ linesOf (w.statementText a) ++ w.physical after := by
  have hne := lines_ne_nil_of_run? (w := w) ha
  have hwritten : (before ++ a :: after).flatMap w.lines ≠ [] := by simp [hne]
  rw [linesOf_text hwritten, linesOf_statementText hne, ← physical_append, ← physical_append,
    List.append_assoc]
  rfl

/-- It is as high as it has lines and line breaks. -/
theorem length_linesOf_statementText {a : Action} (hne : w.lines a ≠ []) :
    (linesOf (w.statementText a)).length = (w.lines a).length + lineBreaks (w.lines a) := by
  rw [linesOf_statementText hne, length_physical, List.flatMap_singleton]

/-! ### Entries -/

/-- An entry belongs to an action that executes a step, and counts the lines
    that were written before. -/
theorem entriesFrom_getElem? {actions : List Action} {position line n : Nat} {entry : SourceEntry}
    (h : (w.entriesFrom position line actions)[n]? = some entry) :
    ∃ before a after step path,
      actions = before ++ a :: after ∧ a.run? = some (step, path) ∧
      entry.startLine = line + (before.flatMap w.lines).length ∧
      entry.endLine + 1 = line + ((before ++ [a]).flatMap w.lines).length ∧
      entry.kind = step.kind ∧ entry.scriptPath = path ∧ entry.place = step.place ∧
      entry.ordinal = step.ordinal := by
  induction actions generalizing position line n with
  | nil => cases h
  | cons b rest ih =>
    -- whether or not `b` has an entry, it only stands in front of the later ones
    have hlater : ∀ position' n' : Nat,
        (w.entriesFrom position' (line + (w.lines b).length) rest)[n']? = some entry →
        ∃ before a after step path,
          b :: rest = before ++ a :: after ∧ a.run? = some (step, path) ∧
          entry.startLine = line + (before.flatMap w.lines).length ∧
          entry.endLine + 1 = line + ((before ++ [a]).flatMap w.lines).length ∧
          entry.kind = step.kind ∧ entry.scriptPath = path ∧ entry.place = step.place ∧
          entry.ordinal = step.ordinal := by
      intro position' n' h'
      obtain ⟨before, a, after, step, path, rfl, ha, hstart, hend, hentry⟩ := ih h'
      refine ⟨b :: before, a, after, step, path, rfl, ha, ?_, ?_, hentry⟩
      · rw [hstart, List.flatMap_cons, List.length_append, Nat.add_assoc]
      · rw [hend, List.cons_append, List.flatMap_cons, List.length_append, Nat.add_assoc]
    unfold entriesFrom at h
    cases hrun : b.run? with
    | none =>
      rw [hrun] at h
      exact hlater _ _ h
    | some run =>
      obtain ⟨step, path⟩ := run
      rw [hrun] at h
      cases n with
      | zero =>
        obtain rfl := Option.some.inj h
        refine ⟨[], b, rest, step, path, rfl, hrun, rfl, ?_, rfl, rfl, rfl, rfl⟩
        have hlength : 0 < (w.lines b).length :=
          List.length_pos_of_ne_nil (lines_ne_nil_of_run? hrun)
        show line + (w.lines b).length - 1 + 1 = line + ([b].flatMap w.lines).length
        rw [List.flatMap_singleton]
        omega
      | succ n => exact hlater _ _ h

end Wording

/-! ### Whole scripts -/

variable {config : Config} {callback : String}

/-- What holds of the entry of a step whose statement is `a`, in the script
    of `before ++ a :: after`; `oneLine` tells whether a text breaks. -/
structure LocatesStatement (w : Wording) (plan : CompiledPlan) (entry : SourceEntry) (step : Step)
    (path : String) (before : List Action) (a : Action) (after : List Action) (oneLine : Prop) :
    Prop where
  /-- The entry is that of the step. -/
  of_step : entry.kind = step.kind ∧ entry.scriptPath = path ∧ entry.place = step.place ∧
    entry.ordinal = step.ordinal
  /-- The statement fills the lines between those of the other actions. -/
  lines_eq : linesOf plan.sql =
    w.physical before ++ linesOf (w.statementText a) ++ w.physical after
  /-- It starts as many lines below its entry as line breaks stand before it. -/
  start_eq : (w.physical before).length + 1 =
    entry.startLine + lineBreaks (before.flatMap w.lines)
  /-- The entry names just the lines of its statement if and only if no text
      breaks. -/
  exact_iff : (entry.startLine = (w.physical before).length + 1 ∧
      entry.endLine = (w.physical before).length + (linesOf (w.statementText a)).length) ↔ oneLine
  /-- These lines are then the statement and nothing else. -/
  text_eq : oneLine → linesBetween plan.sql entry.startLine entry.endLine = w.statementText a
  /-- If the statement itself breaks, they do not even have its text. -/
  text_ne : ¬ (∀ line ∈ w.lines a, OneLine line) →
    linesBetween plan.sql entry.startLine entry.endLine ≠ w.statementText a

/-- The lines in the middle. -/
theorem linesBetween_of_eq {text : String} {before own after : List String} {first last : Nat}
    (h : linesOf text = before ++ own ++ after) (hfirst : first = before.length + 1)
    (hlast : last = before.length + own.length) :
    linesBetween text first last = "\n".intercalate own := by
  unfold linesBetween
  rw [h, hfirst, hlast, Nat.add_sub_cancel, ← List.length_append, List.take_left, List.drop_left]

/-- An entry that counts the lines that were written locates the statement
    of its step. -/
theorem Wording.locatesStatement_of_entry {w : Wording} {plan : CompiledPlan} {entry : SourceEntry}
    {step : Step} {path : String} {before after : List Action} {a : Action} {oneLine : Prop}
    (hsql : plan.sql = w.text (before ++ a :: after)) (ha : a.run? = some (step, path))
    (hstart : entry.startLine = 1 + (before.flatMap w.lines).length)
    (hend : entry.endLine + 1 = 1 + ((before ++ [a]).flatMap w.lines).length)
    (hstep : entry.kind = step.kind ∧ entry.scriptPath = path ∧ entry.place = step.place ∧
      entry.ordinal = step.ordinal)
    (honeLine : (∀ line ∈ (before ++ [a]).flatMap w.lines, OneLine line) ↔ oneLine) :
    LocatesStatement w plan entry step path before a after oneLine := by
  have hne : w.lines a ≠ [] := lines_ne_nil_of_run? ha
  have hlines : linesOf plan.sql =
      w.physical before ++ linesOf (w.statementText a) ++ w.physical after := by
    rw [hsql, linesOf_text_of_run ha]
  have hheight := length_linesOf_statementText hne
  have hbefore := w.length_physical before
  rw [List.flatMap_append, List.length_append, List.flatMap_singleton] at hend
  have hexact : (entry.startLine = (w.physical before).length + 1 ∧
      entry.endLine = (w.physical before).length + (linesOf (w.statementText a)).length) ↔
      oneLine := by
    -- the end alone decides, since the line breaks before are among all
    rw [← honeLine, ← lineBreaks_eq_zero_iff, List.flatMap_append, lineBreaks_append,
      List.flatMap_singleton]
    omega
  refine ⟨hstep, hlines, by omega, hexact, ?_, ?_⟩
  · intro hone
    obtain ⟨hfirst, hlast⟩ := hexact.mpr hone
    rw [linesBetween_of_eq hlines hfirst hlast, intercalate_linesOf]
  · -- the statement is higher than the entry, wherever it stands
    intro hbreak
    have hbreaks : lineBreaks (w.lines a) ≠ 0 := by
      intro hzero
      exact hbreak (lineBreaks_eq_zero_iff.mp hzero)
    have hpos : 0 < (w.lines a).length := List.length_pos_of_ne_nil hne
    apply linesBetween_ne
    · omega
    · omega
    · omega

/-- An entry of a plan's source map names the lines of the statement that
    executes its step exactly if, of the steps up to this one, no text that
    reaches the script holds a line break. -/
theorem compile_locates_iff {steps : List Step} {plan : CompiledPlan}
    (h : compile config callback steps = .ok plan) {position : Nat} {entry : SourceEntry}
    (hentry : plan.sourceMap.get? position = some entry) :
    ∃ done step rest path before a after,
      steps = done ++ step :: rest ∧ step.scriptPath = some path ∧
      Schedule.ofSteps steps = .ok (before ++ a :: after) ∧ a.run? = some (step, path) ∧
      LocatesStatement (Wording.ofCallback config callback) plan entry step path before a after
        (∀ t ∈ done ++ [step], t.OneLineTexts config callback) := by
  obtain ⟨script, hscript, hsql, hmap⟩ := compile_eq_ok_iff.mp h
  rcases statementsOf_eq_ok hscript with ⟨_, rfl⟩ | ⟨_, htag, actions, hactions, rfl⟩
  · -- an empty script has no entries
    rw [hmap] at hentry
    cases hentry
  -- what an unheard event leaves out has neither lines nor entries, so the
  -- script can be read off the whole schedule
  rw [Wording.text_statements] at hsql
  rw [hmap, Wording.sourceMap_statements] at hentry
  obtain ⟨before, a, after, step, path, rfl, ha, hstart, hend, hstep⟩ :=
    Wording.entriesFrom_getElem? hentry
  obtain ⟨done, rest, hsteps, hpath, htexts⟩ :=
    Schedule.oneLineTexts_ofSteps_upTo_run config callback hactions ha
  refine ⟨done, step, rest, path, before, a, after, hsteps, hpath, hactions, ha, ?_⟩
  apply Wording.locatesStatement_of_entry hsql ha hstart hend hstep
  rw [List.forall_mem_flatMap, ← htexts]
  apply forall₂_congr
  intro b _
  exact Wording.oneLine_lines_iff htag b

/-- A plan with a line break in the path of its fixture. -/
def brokenPathPlan : List Step := [
  ⟨1, .fixture, some "a\nb.sql", ⟨"./", 0⟩⟩,
  ⟨2, .test, some "c.sql", ⟨"./", 0⟩⟩]

/-- The test of the example has an entry, and a line break in front of it. -/
theorem brokenPathPlan_locates :
    ∃ plan entry, compile {} "" brokenPathPlan = .ok plan ∧
      plan.sourceMap.get? 1 = some entry ∧
      ∃ done step rest path before a after,
        brokenPathPlan = done ++ step :: rest ∧ step.scriptPath = some path ∧
        Schedule.ofSteps brokenPathPlan = .ok (before ++ a :: after) ∧
        a.run? = some (step, path) ∧
        LocatesStatement (Wording.ofCallback {} "") plan entry step path before a after
          (∀ t ∈ done ++ [step], t.OneLineTexts {} "") := by
  have hcompile : ∃ plan entry, compile {} "" brokenPathPlan = .ok plan ∧
      plan.sourceMap.get? 1 = some entry := ⟨_, _, rfl, rfl⟩
  obtain ⟨plan, entry, hplan, hentry⟩ := hcompile
  exact ⟨plan, entry, hplan, hentry, compile_locates_iff hplan hentry⟩

/-- The entry of its fixture ends in the middle of the statement. -/
theorem brokenPathPlan_cut_off :
    ∃ plan entry, compile {} "" brokenPathPlan = .ok plan ∧
      plan.sourceMap.get? 0 = some entry ∧ entry.scriptPath = "a\nb.sql" ∧
      linesBetween plan.sql entry.startLine entry.endLine ≠
        (Wording.ofCallback {} "").fixtureBlock "a\nb.sql" := by
  refine ⟨_, _, rfl, rfl, rfl, ?_⟩
  apply linesBetween_ne
  · decide
  · decide
  · rw [length_linesOf]
    decide +kernel

end SuiteScript
