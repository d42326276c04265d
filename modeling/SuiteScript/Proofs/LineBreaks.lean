import SuiteScript.Proofs.Delimiters
import SuiteScript.Proofs.SavepointNames
import SuiteScript.Proofs.Statements

/-! # Line breaks in statements

    No way of quoting takes a line break out of a text or puts one in: a
    literal, a name, a row or a code block is one line as soon as the texts
    are that were put into it.  So a line of a script breaks exactly if one
    of the texts from outside does that stand in it, and for every action
    these texts can be named (`Wording.oneLine_lines_iff`). -/

namespace SuiteScript

open Sql

/-- Does the text hold no line break? -/
def OneLine (s : String) : Prop := '\n' ∉ s.toList

instance (s : String) : Decidable (OneLine s) := inferInstanceAs (Decidable (_ ∉ _))

@[simp] theorem oneLine_append {s t : String} : OneLine (s ++ t) ↔ OneLine s ∧ OneLine t := by
  simp [OneLine, not_or]

theorem oneLine_intercalate {sep : String} (hsep : OneLine sep) {texts : List String} :
    OneLine (sep.intercalate texts) ↔ ∀ text ∈ texts, OneLine text := by
  induction texts with
  | nil => simp [OneLine]
  | cons text texts ih =>
    cases texts with
    | nil => simp
    | cons next texts =>
      rw [String.intercalate_cons_cons, oneLine_append, oneLine_append, ih]
      simp [hsep]

/-! ### Quoting -/

theorem mem_doubled {q c : Char} {s : List Char} : c ∈ doubled q s ↔ c ∈ s := by
  induction s with
  | nil => rfl
  | cons d s ih => by_cases h : d = q <;> simp [doubled, h, ih]

@[simp] theorem oneLine_quoteLiteral {s : String} : OneLine (quoteLiteral s) ↔ OneLine s := by
  unfold quoteLiteral
  rw [oneLine_append, oneLine_append]
  have hinside : OneLine (escapeLiteral s) ↔ OneLine s := by
    simp [OneLine, escapeLiteral, mem_doubled]
  rw [hinside]
  have hquote : OneLine "'" := by decide
  rw [and_iff_right hquote, and_iff_left hquote]

@[simp] theorem oneLine_quoteNullable {s : Option String} :
    OneLine (quoteNullable s) ↔ ∀ t ∈ s, OneLine t := by
  cases s with
  | none =>
    have hnull : OneLine (quoteNullable none) := by decide
    simp [hnull]
  | some s => simp [quoteNullable]

theorem mem_escapeChars {c : Char} (hc : c ≠ '"') {s : List Char} : c ∈ escapeChars s ↔ c ∈ s := by
  unfold escapeChars
  split
  · rfl
  · simp [mem_doubled, hc]

/-- Joining with dots hides no other character. -/
theorem mem_intercalate_dot {c : Char} (hc : c ≠ '.') {parts : List (List Char)} :
    c ∈ ['.'].intercalate parts ↔ ∃ part ∈ parts, c ∈ part := by
  have hdot : '.' ∉ [c] := by simpa using hc.symm
  have hparts : [c] <:+: ['.'].intercalate parts ↔ ∃ part ∈ parts, [c] <:+: part :=
    infix_intercalate_iff (List.cons_ne_nil c []) hdot
  simpa only [List.singleton_infix_iff] using hparts

@[simp] theorem oneLine_escapeQualifiedName {name : String} :
    OneLine (escapeQualifiedName name) ↔ OneLine name := by
  unfold OneLine escapeQualifiedName
  rw [not_iff_not, String.toList_ofList, mem_intercalate_dot (by decide), ← intercalate_nameParts,
    mem_intercalate_dot (by decide)]
  constructor
  · intro h
    obtain ⟨chars, hchars, hc⟩ := h
    obtain ⟨part, hpart, rfl⟩ := List.mem_map.mp hchars
    exact ⟨part, hpart, (mem_escapeChars (by decide)).mp hc⟩
  · intro h
    obtain ⟨part, hpart, hc⟩ := h
    exact ⟨escapeChars part, List.mem_map_of_mem hpart, (mem_escapeChars (by decide)).mpr hc⟩

@[simp] theorem oneLine_number (n : Nat) : OneLine (toString n) := by
  unfold OneLine
  have htext : (toString n).toList = Nat.toDigits 10 n := by simp
  rw [htext]
  intro hc
  exact absurd (Nat.isDigit_of_mem_toDigits (by omega) (by omega) hc) (by decide)

theorem lineBreak_not_mem_of_isPlain {s : List Char} (h : isPlain s = true) : '\n' ∉ s := by
  cases s with
  | nil => exact List.not_mem_nil
  | cons c rest =>
    rw [isPlain, Bool.and_eq_true, List.all_eq_true] at h
    intro hc
    rcases List.mem_cons.mp hc with rfl | hc
    · exact absurd h.1 (by decide)
    · exact absurd (h.2 _ hc) (by decide)

/-- A plain name is one line. -/
theorem oneLine_of_isPlainQualifiedName {name : String} (h : isPlainQualifiedName name = true) :
    OneLine name := by
  unfold isPlainQualifiedName at h
  rw [Bool.and_eq_true, List.all_eq_true] at h
  unfold OneLine
  rw [← intercalate_nameParts, mem_intercalate_dot (by decide)]
  intro hmem
  obtain ⟨part, hpart, hc⟩ := hmem
  exact lineBreak_not_mem_of_isPlain (h.2 part hpart) hc

/-! ### Rows and code blocks -/

@[simp] theorem oneLine_row {e : Event} {rowType : String} :
    OneLine (e.row rowType) ↔
      OneLine rowType ∧ OneLine e.place.directory ∧ ∀ path ∈ e.scriptPath, OneLine path := by
  have hname : OneLine e.kind.name := by cases e.kind <;> decide
  have hjoin : OneLine ", " := by decide
  unfold Event.row
  simp +decide only [oneLine_append, oneLine_intercalate hjoin, List.forall_mem_cons,
    oneLine_quoteLiteral, oneLine_quoteNullable, oneLine_number, hname, true_and, and_true]
  constructor
  · intro h
    obtain ⟨⟨hpath, hdirectory⟩, htype⟩ := h
    exact ⟨htype, hdirectory, hpath⟩
  · intro h
    obtain ⟨htype, hdirectory, hpath⟩ := h
    exact ⟨⟨hpath, hdirectory⟩, htype⟩

theorem oneLine_chooseDelimiter {tag : String} (htag : isValidTag tag = true) (body : String) :
    OneLine (chooseDelimiter body tag) := by
  obtain ⟨t, ht, hmark, _⟩ := chooseDelimiter_eq_mark htag body
  unfold OneLine
  rw [hmark]
  exact lineBreak_not_mem_mark ht

theorem oneLine_doBlock {tag code : String} (htag : isValidTag tag = true) :
    OneLine (doBlock tag code) ↔ OneLine code := by
  have hdelimiter := oneLine_chooseDelimiter htag code
  unfold doBlock
  simp +decide [hdelimiter]

/-! ### Observers -/

/-- Are the texts of an event, and those that go with every event, one
    line? -/
def Event.OneLineTexts (config : Config) (callback : String) (e : Event) : Prop :=
  OneLine callback ∧ OneLine config.eventType ∧ OneLine e.place.directory ∧
    ∀ path ∈ e.scriptPath, OneLine path

namespace Observer

variable {config : Config} {callback : String}

theorem oneLine_existenceCheck (htag : isValidTag config.blockTag = true) :
    OneLine (named config callback).existenceCheck ↔
      OneLine callback ∧ OneLine config.eventType := by
  unfold named existenceCheck
  simp +decide [oneLine_doBlock htag]

theorem oneLine_dynamicCall {row : String} :
    OneLine (dynamicCall (quoteLiteral callback) row) ↔ OneLine callback ∧ OneLine row := by
  unfold dynamicCall
  simp +decide

theorem oneLine_handlerInvocation (e : Event) :
    OneLine ((named config callback).handlerInvocation e) ↔ e.OneLineTexts config callback := by
  unfold named handlerInvocation CallTarget.ofName Event.OneLineTexts
  by_cases hname : isPlainQualifiedName callback = true
  · -- only names without a line break are written as they stand
    have hcallback := oneLine_of_isPlainQualifiedName hname
    rw [if_pos hname]
    simp +decide [hcallback]
  · rw [if_neg hname]
    simp [oneLine_dynamicCall]

theorem oneLine_invocation (htag : isValidTag config.blockTag = true) (e : Event) :
    OneLine ((named config callback).invocation e) ↔ e.OneLineTexts config callback := by
  unfold named invocation CallTarget.ofName Event.OneLineTexts
  by_cases hname : isPlainQualifiedName callback = true
  · have hcallback := oneLine_of_isPlainQualifiedName hname
    rw [if_pos hname]
    simp +decide [hcallback]
  · rw [if_neg hname]
    simp +decide [oneLine_doBlock htag, oneLine_dynamicCall]

end Observer

/-! ### Actions -/

theorem Savepoint.oneLine_name (sp : Savepoint) : OneLine sp.name :=
  lineBreak_not_mem_of_isPlain (isPlain_of_isWord sp.isWord_name)

/-- Are the texts one line that stand in the lines of an action? -/
def Action.OneLineTexts (config : Config) (callback : String) : Action → Prop
  | .checkObserver => callback ≠ "" → OneLine callback ∧ OneLine config.eventType
  | .notify e => callback ≠ "" → e.OneLineTexts config callback
  | .runFixture _ path => OneLine config.sourceTable ∧ OneLine path
  | .runTest step path =>
    OneLine config.sourceTable ∧ OneLine path ∧
      (callback ≠ "" → (Event.ofStep .rollback step).OneLineTexts config callback)
  | .openSavepoint _ | .rollBackTo _ | .release _ => True

namespace Wording

variable {config : Config} {callback : String}

theorem oneLine_execute {path : String} :
    OneLine ((ofCallback config callback).execute path) ↔
      OneLine config.sourceTable ∧ OneLine path := by
  unfold execute
  simp +decide [ofCallback]

theorem oneLine_indented {w : Wording} {line : String} :
    OneLine (w.indented line) ↔ OneLine line := by
  have hblanks : OneLine (String.ofList (List.replicate w.config.indentWidth ' ')) := by
    simp [OneLine, List.mem_replicate]
  unfold indented
  rw [oneLine_append, and_iff_right hblanks]

theorem oneLine_warnOfFailure {w : Wording} {path : String} (hpath : OneLine path) :
    ∀ line ∈ w.warnOfFailure path, OneLine line := by
  intro line hline
  unfold warnOfFailure at hline
  split at hline
  · rw [List.mem_singleton] at hline
    subst hline
    simp +decide [hpath]
  · cases hline

/-- What a failing test's handler does is one line each as soon as the test's
    path is and the texts of its report. -/
theorem oneLine_handler (step : Step) {path : String} (hpath : OneLine path) :
    (∀ line ∈ (ofCallback config callback).handler step path, OneLine line) ↔
      (callback ≠ "" → (Event.ofStep .rollback step).OneLineTexts config callback) := by
  have hwarn : ∀ line ∈ (ofCallback config callback).warnOfFailure path, OneLine line :=
    oneLine_warnOfFailure hpath
  unfold handler reportFailure
  rw [observer_ofCallback]
  by_cases hcallback : callback = ""
  · -- nothing is reported, and the text of a warning is one line
    rw [if_pos hcallback]
    have hunheard : callback ≠ "" → (Event.ofStep .rollback step).OneLineTexts config callback := by
      intro hne
      exact absurd hcallback hne
    refine iff_of_true ?_ hunheard
    rw [Option.toList_none, List.map_nil, List.nil_append]
    revert hwarn
    cases (ofCallback config callback).warnOfFailure path with
    | nil =>
      intro _
      decide
    | cons statement statements => exact id
  · rw [if_neg hcallback]
    show (∀ line ∈ (Observer.named config callback).handlerInvocation _ ::
      (ofCallback config callback).warnOfFailure path, OneLine line) ↔ _
    rw [List.forall_mem_cons, and_iff_left hwarn, Observer.oneLine_handlerInvocation]
    constructor
    · intro h _
      exact h
    · intro h
      exact h hcallback

/-- The lines of an action are one line each exactly if the texts are that
    stand in them. -/
theorem oneLine_lines_iff (htag : isValidTag config.blockTag = true) (a : Action) :
    (∀ line ∈ (ofCallback config callback).lines a, OneLine line) ↔
      a.OneLineTexts config callback := by
  have hobserver := observer_ofCallback config callback
  cases a with
  | checkObserver =>
    unfold lines Action.OneLineTexts
    rw [hobserver]
    by_cases hcallback : callback = ""
    · simp [hcallback]
    · simp [hcallback, Observer.oneLine_existenceCheck htag]
  | notify e =>
    unfold lines Action.OneLineTexts
    rw [hobserver]
    by_cases hcallback : callback = ""
    · simp [hcallback]
    · simp [hcallback, Observer.oneLine_invocation htag]
  | openSavepoint sp =>
    simp +decide [lines, Action.OneLineTexts, sp.oneLine_name]
  | rollBackTo sp =>
    simp +decide [lines, Action.OneLineTexts, sp.oneLine_name]
  | release sp =>
    simp +decide [lines, Action.OneLineTexts, sp.oneLine_name]
  | runFixture step path =>
    show (∀ line ∈ [(ofCallback config callback).fixtureBlock path], OneLine line) ↔ _
    have hblock : isValidTag (ofCallback config callback).config.blockTag = true := htag
    unfold fixtureBlock Action.OneLineTexts
    simp +decide [oneLine_doBlock hblock, oneLine_execute]
  | runTest step path =>
    have hdelimiter : OneLine ((ofCallback config callback).testDelimiter step path) :=
      oneLine_chooseDelimiter htag _
    show (∀ line ∈ (ofCallback config callback).testBlock step path, OneLine line) ↔ _
    have hlines : (∀ line ∈ (ofCallback config callback).testBlock step path, OneLine line) ↔
        OneLine ((ofCallback config callback).execute path) ∧
          ∀ line ∈ (ofCallback config callback).handler step path, OneLine line := by
      unfold testBlock
      simp +decide only [List.forall_mem_append, List.forall_mem_cons, List.forall_mem_map,
        oneLine_append, oneLine_indented, hdelimiter, true_and, and_true]
    unfold Action.OneLineTexts
    rw [hlines, oneLine_execute]
    -- the handler's texts are known only once the path is one line
    constructor
    · intro h
      obtain ⟨⟨htable, hpath⟩, hhandler⟩ := h
      exact ⟨htable, hpath, (oneLine_handler step hpath).mp hhandler⟩
    · intro h
      obtain ⟨htable, hpath, htexts⟩ := h
      exact ⟨⟨htable, hpath⟩, (oneLine_handler step hpath).mpr htexts⟩

end Wording

end SuiteScript
