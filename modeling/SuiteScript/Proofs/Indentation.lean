import SuiteScript.Proofs.Nesting
import SuiteScript.Proofs.StepTexts

/-! # Indentation

    How far the inner lines of a test's block are indented is a matter of
    taste.  A script is laid out in pieces that leave the indent open: lines
    at the margin, and blocks of tests.  The pieces do not depend on the
    indent (`Wording.pieces_withIndent`), and for any indent the script is
    what they make up with it (`Wording.text_eq_pieces`).  So two scripts of
    a plan that are indented differently differ in nothing but the spaces in
    front of these inner lines (`compile_indent_cosmetic`). -/

namespace SuiteScript

/-! ### Pieces -/

/-- The same settings with another indent. -/
def Config.withIndent (config : Config) (width : Nat) : Config :=
  { config with indentWidth := width }

/-- A part of a script, with its indents left open. -/
inductive Piece where
  /-- A line at the margin. -/
  | flush (line : String)
  /-- The block of a test: its delimiter, what executes the script, and the
      statements of its failure handler. -/
  | guarded (mark execute : String) (handler : List String)
deriving DecidableEq, Repr

namespace Piece

/-- A line behind so many spaces. -/
def behind (width : Nat) (line : String) : String :=
  String.ofList (List.replicate width ' ') ++ line

/-- The lines of a piece for an indent.  In the block of a test, the line
    that executes the script is indented, and so are those of the handler. -/
def lines (width : Nat) : Piece → List String
  | flush line => [line]
  | guarded mark execute handler =>
    ["DO " ++ mark, "BEGIN", behind width execute,
      "EXCEPTION WHEN OTHERS OR assert_failure THEN"] ++
    handler.map (behind width) ++ ["END", mark ++ ";"]

/-- The text of some pieces for an indent. -/
def text (width : Nat) (pieces : List Piece) : String :=
  "\n".intercalate (pieces.flatMap (lines width))

/-- What executes the script of a test, if the piece is its block. -/
def execute? : Piece → Option String
  | flush _ => none
  | guarded _ execute _ => some execute

/-- Does nothing start with a space that is not indented?  A block has at
    least one statement in its handler. -/
def AtMargin : Piece → Prop
  | flush line => line.toList.head? ≠ some ' '
  | guarded mark _ handler => mark.toList.head? = some '$' ∧ handler ≠ []

theorem length_lines (width width' : Nat) (piece : Piece) :
    (piece.lines width).length = (piece.lines width').length := by
  cases piece <;> simp [lines]

end Piece

/-! ### Pieces of actions -/

namespace Wording

variable (w : Wording)

/-- The pieces that an action is written in. -/
def pieces (w : Wording) : Action → List Piece
  | .runTest step path =>
    [.guarded (w.testDelimiter step path) (w.execute path) (w.handler step path)]
  | a => (w.lines a).map .flush

theorem flatMap_lines_flush (width : Nat) (texts : List String) :
    (texts.map Piece.flush).flatMap (Piece.lines width) = texts := by
  simp [List.flatMap_map, Piece.lines]

theorem lines_eq_pieces (a : Action) :
    w.lines a = (w.pieces a).flatMap (Piece.lines w.config.indentWidth) := by
  cases a with
  | runTest step path =>
    have hexception : "EXCEPTION WHEN " ++ " OR ".intercalate failureConditions ++ " THEN" =
        "EXCEPTION WHEN OTHERS OR assert_failure THEN" := by decide
    simp only [lines, testBlock, hexception, pieces, List.flatMap_singleton, Piece.lines]
    rfl
  | _ => exact (flatMap_lines_flush _ _).symm

theorem text_eq_pieces (actions : List Action) :
    w.text actions = Piece.text w.config.indentWidth (actions.flatMap w.pieces) := by
  unfold text Piece.text
  rw [List.flatMap_assoc]
  exact congrArg _ (List.flatMap_congr fun a _ => w.lines_eq_pieces a)

/-! ### No piece depends on the indent -/

theorem pieces_withIndent (config : Config) (callback : String) (width : Nat) (a : Action) :
    (ofCallback (config.withIndent width) callback).pieces a =
      (ofCallback config callback).pieces a := by
  cases a <;> rfl

theorem length_lines_withIndent (config : Config) (callback : String) (width : Nat) (a : Action) :
    ((ofCallback (config.withIndent width) callback).lines a).length =
      ((ofCallback config callback).lines a).length := by
  rw [lines_eq_pieces, lines_eq_pieces, pieces_withIndent, List.length_flatMap,
    List.length_flatMap]
  exact congrArg List.sum (List.map_congr_left fun piece _ => piece.length_lines ..)

theorem text_withIndent (config : Config) (callback : String) (width : Nat)
    (actions : List Action) :
    (ofCallback (config.withIndent width) callback).text actions =
      Piece.text width (actions.flatMap (ofCallback config callback).pieces) := by
  rw [text_eq_pieces]
  exact congrArg (Piece.text width)
    (List.flatMap_congr fun a _ => pieces_withIndent config callback width a)

/-- Entries depend on the heights of the actions alone. -/
theorem entriesFrom_congr {w w' : Wording}
    (h : ∀ a, (w.lines a).length = (w'.lines a).length) (position line : Nat)
    (actions : List Action) :
    w.entriesFrom position line actions = w'.entriesFrom position line actions := by
  induction actions generalizing position line with
  | nil => rfl
  | cons a rest ih =>
    unfold entriesFrom
    simp only [h, ih]

theorem sourceMap_withIndent (config : Config) (callback : String) (width : Nat)
    (actions : List Action) :
    (ofCallback (config.withIndent width) callback).sourceMap actions =
      (ofCallback config callback).sourceMap actions :=
  congrArg SourceMap.mk (entriesFrom_congr (length_lines_withIndent config callback width) ..)

/-! ### What starts a line -/

variable {w}

theorem atMargin_doBlock (tag body : String) : (Piece.flush (Sql.doBlock tag body)).AtMargin := by
  simp [Piece.AtMargin, Sql.doBlock]

theorem atMargin_invocation (o : Observer) (e : Event) :
    (Piece.flush (o.invocation e)).AtMargin := by
  unfold Observer.invocation
  cases o.target with
  | direct name => simp [Piece.AtMargin]
  | dynamic literal => exact atMargin_doBlock _ _

theorem handler_ne_nil (step : Step) (path : String) : w.handler step path ≠ [] := by
  unfold handler
  split
  · exact List.cons_ne_nil _ _
  · next h => exact h

theorem atMargin_guarded (step : Step) (path : String) :
    (Piece.guarded (w.testDelimiter step path) (w.execute path)
      (w.handler step path)).AtMargin := by
  obtain ⟨k, hk, -⟩ := Sql.chooseDelimiter_eq_first
    ("\n".intercalate (w.execute path :: w.handler step path)) w.config.blockTag
  refine ⟨?_, handler_ne_nil step path⟩
  rw [testDelimiter, hk, Sql.toList_delimiter]
  rfl

/-- No statement starts with a space. -/
theorem atMargin_of_mem_pieces {a : Action} {piece : Piece} (h : piece ∈ w.pieces a) :
    piece.AtMargin := by
  cases a with
  | runTest step path =>
    obtain rfl := List.mem_singleton.mp h
    exact atMargin_guarded step path
  | runFixture step path =>
    obtain rfl := List.mem_singleton.mp h
    exact atMargin_doBlock _ _
  | checkObserver =>
    obtain ⟨line, hline, rfl⟩ := List.mem_map.mp h
    obtain ⟨o, -, rfl⟩ := List.mem_map.mp hline
    exact atMargin_doBlock _ _
  | notify event =>
    obtain ⟨line, hline, rfl⟩ := List.mem_map.mp h
    obtain ⟨o, -, rfl⟩ := List.mem_map.mp hline
    exact atMargin_invocation o event
  | openSavepoint sp =>
    obtain rfl := List.mem_singleton.mp h
    simp [Piece.AtMargin]
  | rollBackTo sp =>
    obtain rfl := List.mem_singleton.mp h
    simp [Piece.AtMargin]
  | release sp =>
    obtain rfl := List.mem_singleton.mp h
    simp [Piece.AtMargin]

end Wording

/-! ### Which pieces are blocks of tests -/

/-- The script of an action, if it executes a test. -/
def Action.testPath? : Action → Option String
  | .runTest _ path => some path
  | _ => none

/-- The script of a step, if it is a test. -/
def Step.testPath? (step : Step) : Option String :=
  if step.kind = .test then step.scriptPath else none

theorem Wording.filterMap_execute?_pieces (w : Wording) (actions : List Action) :
    (actions.flatMap w.pieces).filterMap Piece.execute? =
      (actions.filterMap Action.testPath?).map w.execute := by
  induction actions with
  | nil => rfl
  | cons a rest ih =>
    have hfirst : (w.pieces a).filterMap Piece.execute? = a.testPath?.toList.map w.execute := by
      cases a with
      | runTest step path => rfl
      | _ => simp [pieces, Piece.execute?, List.filterMap_map, Function.comp_def, Action.testPath?]
    rw [List.flatMap_cons, List.filterMap_append, hfirst, ih, List.filterMap_cons]
    cases a.testPath? <;> rfl

theorem Step.filterMap_testPath?_actions {step : Step} {s s' : ScopeStack} {actions : List Action}
    (h : step.actions s = .ok (actions, s')) :
    actions.filterMap Action.testPath? = step.testPath?.toList := by
  have henter : (s.enter step.place).1.actions.filterMap Action.testPath? = [] := by
    rw [List.filterMap_eq_nil_iff]
    intro a ha
    obtain ⟨sp, rfl⟩ := eq_openSavepoint_of_mem ha
    rfl
  rcases actions_cases h with ⟨path, hkind, _, hactions⟩ | ⟨path, hkind, hpath, hactions⟩ |
    ⟨scope, outer, hkind, _, _, rfl, _⟩
  · have hlist : actions = (step.fixtureActions path s).1 := congrArg Prod.fst hactions
    rw [hlist, fixtureActions_fst]
    simp [List.filterMap_cons, henter, Action.testPath?, Step.testPath?, hkind]
  · have hlist : actions = (step.testActions path s).1 := congrArg Prod.fst hactions
    rw [hlist, testActions_fst]
    simp [List.filterMap_cons, henter, Action.testPath?, Step.testPath?, hkind, hpath]
  · simp [List.filterMap_cons, teardownActions, Action.testPath?, Step.testPath?, hkind]

theorem Schedule.filterMap_testPath?_ofStepsFrom {previous : Option UInt32} {s s' : ScopeStack}
    {steps : List Step} {actions : List Action}
    (h : ofStepsFrom previous s steps = .ok (actions, s')) :
    actions.filterMap Action.testPath? = steps.filterMap Step.testPath? := by
  induction steps generalizing previous s actions with
  | nil =>
    cases h
    rfl
  | cons step rest ih =>
    obtain ⟨_, own, after, later, hstep, hrest, rfl⟩ := ofStepsFrom_cons_eq_ok.mp h
    rw [List.filterMap_append, Step.filterMap_testPath?_actions hstep, ih hrest,
      List.filterMap_cons]
    cases step.testPath? <;> rfl

theorem Schedule.filterMap_testPath?_ofSteps {steps : List Step} {actions : List Action}
    (h : ofSteps steps = .ok actions) :
    actions.filterMap Action.testPath? = steps.filterMap Step.testPath? := by
  obtain ⟨run, _, hrun, rfl⟩ := ofSteps_eq_ok h
  rw [List.filterMap_append, List.filterMap_append, filterMap_testPath?_ofStepsFrom hrun]
  simp [List.filterMap_cons, opening, ending, Action.testPath?]

/-! ### Two indents -/

/-- For any two indents, a plan is refused for the same reason, or both
    scripts have the same source map and are laid out in the same pieces, of
    which the blocks of tests belong to the tests of the plan in their order.
    No statement starts with a space. -/
theorem compile_indent_cosmetic (config : Config) (callback : String) (steps : List Step)
    (narrow wide : Nat) :
    (∃ e, compile (config.withIndent narrow) callback steps = .error e ∧
      compile (config.withIndent wide) callback steps = .error e) ∨
    ∃ (pieces : List Piece) (map : SourceMap),
      compile (config.withIndent narrow) callback steps = .ok ⟨Piece.text narrow pieces, map⟩ ∧
      compile (config.withIndent wide) callback steps = .ok ⟨Piece.text wide pieces, map⟩ ∧
      pieces.filterMap Piece.execute? =
        (steps.filterMap Step.testPath?).map (Wording.ofCallback config callback).execute ∧
      ∀ piece ∈ pieces, piece.AtMargin := by
  have htag : ∀ width, (config.withIndent width).blockTag = config.blockTag := fun _ => rfl
  unfold compile
  simp only [htag]
  split
  · -- a plan without steps is laid out in no pieces
    next hnil =>
    right
    rw [List.isEmpty_iff.mp hnil]
    exact ⟨[], {}, rfl, rfl, rfl, by simp⟩
  split
  · exact .inl ⟨_, rfl, rfl⟩
  cases hactions : Schedule.ofSteps steps with
  | error e => exact .inl ⟨e, rfl, rfl⟩
  | ok actions =>
    right
    refine ⟨actions.flatMap (Wording.ofCallback config callback).pieces,
      (Wording.ofCallback config callback).sourceMap actions, ?_, ?_, ?_, ?_⟩
    · rw [← Wording.text_withIndent, ← Wording.sourceMap_withIndent config callback narrow]
      rfl
    · rw [← Wording.text_withIndent, ← Wording.sourceMap_withIndent config callback wide]
      rfl
    · rw [Wording.filterMap_execute?_pieces, Schedule.filterMap_testPath?_ofSteps hactions]
    · intro piece hpiece
      obtain ⟨a, -, ha⟩ := List.mem_flatMap.mp hpiece
      exact Wording.atMargin_of_mem_pieces ha

end SuiteScript
