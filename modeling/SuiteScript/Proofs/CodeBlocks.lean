import SuiteScript.Proofs.StatementForms

/-! # Code blocks end where they were meant to end

    A code block stands between two copies of a delimiter, and the database
    takes the first copy behind the opening one for its end.  So no text that
    is written into a block may bring a copy with it, and none may arise where
    the text meets the closing delimiter.

    Behind the opening delimiter of every block the delimiter occurs once, in
    front of the semicolon (`ClosesOnce`).  For a block on one line that is
    what its delimiter was chosen for.  The delimiter of a test's block was
    chosen for the statements alone, before they were indented and the key
    words were put around them; these bring no dollar sign with them and keep
    the statements apart. -/

namespace SuiteScript

open Sql

/-- `text` is a code block around `body`, and behind its opening delimiter
    the delimiter occurs in one place only. -/
structure ClosesOnce (delimiter body text : String) : Prop where
  /-- The delimiter is a valid tag between dollar signs. -/
  delimiter_eq : ∃ tag, isValidTag tag = true ∧ delimiter = "$" ++ tag ++ "$"
  /-- What is written. -/
  text_eq : text = "DO " ++ delimiter ++ body ++ delimiter ++ ";"
  /-- Wherever the delimiter is found behind the opening one, it is the one
      in front of the semicolon at the end. -/
  only_end : ∀ before after : String,
    body ++ delimiter ++ ";" = before ++ delimiter ++ after → before = body ∧ after = ";"

theorem closesOnce_of_isBody {tag : List Char} {delimiter body : String} (htag : IsTag tag)
    (hdelimiter : delimiter.toList = mark tag) (hbody : IsBody tag body.toList) :
    ClosesOnce delimiter body ("DO " ++ delimiter ++ body ++ delimiter ++ ";") where
  delimiter_eq := exists_tag_of_eq_mark htag hdelimiter
  text_eq := rfl
  only_end := by
    intro before after heq
    have hchars := congrArg String.toList heq
    simp only [String.toList_append, hdelimiter] at hchars
    obtain ⟨hbefore, hafter⟩ := hbody.closes_once hchars
    exact ⟨String.toList_inj.mp hbefore, String.toList_inj.mp hafter⟩

/-- A block on one line, whose code ends in a blank. -/
theorem closesOnce_doBlock {tag : String} (htag : isValidTag tag = true) (front : String)
    {last : String} (hlast : [' '] <:+ last.toList) :
    ClosesOnce (chooseDelimiter (front ++ last) tag) (front ++ last)
      (doBlock tag (front ++ last)) := by
  obtain ⟨t, ht, hmark, hbody⟩ := doBlock_isBody htag front hlast
  exact closesOnce_of_isBody ht hmark hbody

/-- A statement that begins like a code block is one. -/
theorem StatementForm.closesOnce {text : String} (h : StatementForm text)
    (hblock : "DO ".toList <+: text.toList) : ∃ delimiter body, ClosesOnce delimiter body text := by
  -- the other forms begin with other letters
  cases h with
  | openSavepoint sp => simp at hblock
  | release sp => simp at hblock
  | rollBackTo sp => simp at hblock
  | call eventType e hname => simp at hblock
  | block htag hdelimiter hbody => exact ⟨_, _, closesOnce_of_isBody htag hdelimiter hbody⟩

/-- Every kind of block ends where it was meant to. -/
structure Wording.ClosesBlocks (w : Wording) : Prop where
  /-- A fixture's block, on one line. -/
  fixture : ∀ path : String, ∃ body, body = " BEGIN " ++ w.execute path ++ " END " ∧
    ClosesOnce (chooseDelimiter body w.config.blockTag) body (w.fixtureBlock path)
  /-- A test's block, with the lines that are written. -/
  test : ∀ (step : Step) (path : String), ClosesOnce (w.testDelimiter step path)
    ("\n" ++ "\n".intercalate (w.testLines step path) ++ "\n")
    ("\n".intercalate (w.testBlock step path))
  /-- The delivery of an event to a name that is resolved at run time. -/
  invocation : ∀ o ∈ w.observer, ∀ literal, o.target = .dynamic literal → ∀ e : Event,
    ∃ body, body = " BEGIN " ++ Observer.dynamicCall literal (e.row o.eventType) ++ " END " ∧
      ClosesOnce (chooseDelimiter body w.config.blockTag) body (o.invocation e)
  /-- The check that the observer exists. -/
  existenceCheck : ∀ o ∈ w.observer,
    ∃ body, ClosesOnce (chooseDelimiter body w.config.blockTag) body o.existenceCheck

namespace Wording

variable {config : Config} {callback : String}

theorem closesBlocks (htag : isValidTag config.blockTag = true) :
    (ofCallback config callback).ClosesBlocks where
  fixture path := ⟨_, rfl, closesOnce_doBlock htag _ ⟨" END".toList, rfl⟩⟩
  test step path := by
    obtain ⟨t, ht, hmark, hbody⟩ :=
      testBlock_isBody (w := ofCallback config callback) htag step path
    rw [testBlock_text]
    exact closesOnce_of_isBody ht hmark hbody
  invocation := by
    intro o ho literal hliteral e
    rw [observer_ofCallback_of_isSome (Option.isSome_of_mem ho), Option.mem_some_iff] at ho
    subst ho
    refine ⟨_, rfl, ?_⟩
    unfold Observer.invocation
    rw [hliteral]
    exact closesOnce_doBlock htag _ ⟨" END".toList, rfl⟩
  existenceCheck := by
    intro o ho
    rw [observer_ofCallback_of_isSome (Option.isSome_of_mem ho), Option.mem_some_iff] at ho
    subst ho
    exact ⟨_, closesOnce_doBlock htag _ ⟨"; END".toList, rfl⟩⟩

end Wording

/-- Whatever texts a script is made from, each of its code blocks ends at the
    delimiter that was written to end it.  This holds of each kind of block
    by itself and of all that begins like a block in the script of a plan. -/
theorem blocks_close_once {config : Config} (htag : isValidTag config.blockTag = true)
    (callback : String) :
    (Wording.ofCallback config callback).ClosesBlocks ∧
    ∀ steps script, statementsOf config callback steps = .ok script → ∀ a ∈ script,
      "DO ".toList <+: ((Wording.ofCallback config callback).statementText a).toList →
      ∃ delimiter body,
        ClosesOnce delimiter body ((Wording.ofCallback config callback).statementText a) := by
  refine ⟨Wording.closesBlocks htag, ?_⟩
  intro steps script hscript a ha hblock
  have hform := Wording.statementText_form htag (writes_of_mem_statementsOf hscript a ha)
  exact hform.closesOnce hblock

/-- A test whose path and directory hold the first two delimiters of the
    empty tag and end in half of one. -/
def dollarPlan : List Step := [⟨1, .test, some "$$\n$", ⟨"$_1$$", 0⟩⟩]

/-- The empty tag, and no indents. -/
def dollarConfig : Config := { blockTag := "", indentWidth := 0 }

/-- The nine statements of its script, for an observer whose name is not
    plain and holds half a delimiter too. -/
theorem dollarPlan_blocks_close :
    isValidTag dollarConfig.blockTag = true ∧
    (Wording.ofCallback dollarConfig "it's $").ClosesBlocks ∧
    ∃ script, statementsOf dollarConfig "it's $" dollarPlan = .ok script ∧ script.length = 9 ∧
      ∀ a ∈ script,
        "DO ".toList <+: ((Wording.ofCallback dollarConfig "it's $").statementText a).toList →
        ∃ delimiter body,
          ClosesOnce delimiter body ((Wording.ofCallback dollarConfig "it's $").statementText a) := by
  have htag : isValidTag dollarConfig.blockTag = true := rfl
  have hnine : (statementsOf dollarConfig "it's $" dollarPlan).map List.length = .ok 9 := by rfl
  have haccepted : ∃ script, statementsOf dollarConfig "it's $" dollarPlan = .ok script := ⟨_, rfl⟩
  obtain ⟨hblocks, hstatements⟩ := blocks_close_once htag "it's $"
  obtain ⟨script, hscript⟩ := haccepted
  rw [hscript] at hnine
  exact ⟨htag, hblocks, script, hscript, Except.ok.inj hnine, hstatements _ _ hscript⟩

end SuiteScript
