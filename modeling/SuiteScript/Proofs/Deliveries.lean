import SuiteScript.Proofs.EventRows

/-! # A delivered event is read back

    An event is delivered by one statement, which holds its five values as
    they are or between quotes.  Here they are read back from that statement,
    for every event that could be written down, also for those that no plan
    leads to, such as a teardown with a path.  Nothing is read besides the
    row of the event, so a path or a directory cannot look like another row,
    and statements for different events differ
    (`formatInvocation_read_back`).

    A plain name stands in front of the row.  Any other is a literal in a code
    block, whose delimiter depends on all that the block holds; the block is
    opened for reading. -/

namespace SuiteScript

open Sql

/-! ### Texts that hold one row -/

/-- Is the text read as tokens that hold the row of the event and no other,
    whatever follows? -/
def ReadsRow (text : String) (e : Event) : Prop :=
  ∃ tokens, ReadsAs text tokens ∧ ∀ rest, rowsIn (tokens ++ rest) = e :: rowsIn rest

section ReadsRow

variable {e : Event} {rowType : String}

/-- The call of a plain name. -/
theorem readsRow_directCall {name : String} (hname : isPlainQualifiedName name = true) :
    ReadsRow ("SELECT " ++ name ++ "(" ++ e.row (escapeQualifiedName rowType) ++ ");") e := by
  obtain ⟨tokens, hcall, hliteral⟩ := readsAs_of_isPlainQualifiedName hname
  have hselect : ReadsAs "SELECT " [.word "SELECT".toList] := by decide +kernel
  have hopen : ReadsAs "(" [.symbol '('] := by decide +kernel
  have hclose : ReadsAs ");" [.symbol ')', .symbol ';'] := by decide +kernel
  have hrow := (e.readsAs_row rowType).append hclose (.inr (by decide +kernel))
  have htext := hselect.behind (by decide +kernel) (hcall.fenced hopen (by decide +kernel) hrow)
  simp only [← String.append_assoc] at htext
  refine ⟨_, htext, ?_⟩
  intro rest
  have hfirst : ∀ t ∈ [Token.word "SELECT".toList], t ≠ rowWord := by decide
  have hlast : ∀ t ∈ [Token.symbol ')', .symbol ';'], t ≠ rowWord := by decide
  have hrows := e.rowsIn_called rowType hliteral ([.symbol ')', .symbol ';'] ++ rest)
  rw [rowsIn_append_of_forall_ne hlast] at hrows
  rw [List.append_assoc, rowsIn_append_of_forall_ne hfirst, ← hrows]
  simp only [List.append_assoc, List.cons_append, List.nil_append]

/-- The call of a name that is resolved when the script runs. -/
theorem readsRow_dynamicCall (name : String) :
    ReadsRow (Observer.dynamicCall (quoteLiteral name) (e.row (escapeQualifiedName rowType)))
      e := by
  have hformat : ReadsAs "EXECUTE format('SELECT %s($1)', " [.word "EXECUTE".toList,
      .word "format".toList, .symbol '(', .quoted .literal "SELECT %s($1)".toList,
      .symbol ','] := by decide +kernel
  have husing : ReadsAs "::regproc) USING " [.symbol ':', .symbol ':', .word "regproc".toList,
      .symbol ')', .word "USING".toList] := by decide +kernel
  have hclose : ReadsAs ";" [.symbol ';'] := by decide +kernel
  have hrow := (e.readsAs_row rowType).append hclose (.inr (by decide +kernel))
  have htext := hformat.behind (by decide +kernel)
    ((readsAs_quoteLiteral name).fenced husing (by decide +kernel) hrow)
  simp only [← String.append_assoc] at htext
  refine ⟨_, htext, ?_⟩
  intro rest
  have hfirst : ∀ t ∈ [Token.word "EXECUTE".toList, .word "format".toList, .symbol '(',
      .quoted .literal "SELECT %s($1)".toList, .symbol ','], t ≠ rowWord := by decide
  have hname : ∀ t ∈ [Token.quoted .literal name.toList], t ≠ rowWord := by simp [rowWord]
  have hbefore : ∀ t ∈ [Token.symbol ':', .symbol ':', .word "regproc".toList, .symbol ')',
      .word "USING".toList], t ≠ rowWord := by decide
  have hlast : ∀ t ∈ [Token.symbol ';'], t ≠ rowWord := by decide
  simp only [List.append_assoc]
  rw [rowsIn_append_of_forall_ne hfirst, rowsIn_append_of_forall_ne hname,
    rowsIn_append_of_forall_ne hbefore, ← List.append_assoc, e.rowsIn_typed,
    rowsIn_append_of_forall_ne hlast]

theorem ReadsRow.rowsOf_eq {text : String} (h : ReadsRow text e) : rowsOf text = some [e] := by
  obtain ⟨tokens, ⟨hlex, hstring⟩, hrows⟩ := h
  unfold rowsOf
  have hwhole := hrows []
  rw [List.append_nil] at hwhole
  rw [readTokens_of_no_string 1 hlex hstring, Option.map_some, hwhole]
  rfl

/-- Opened, a code block is read as the text in it. -/
theorem ReadsRow.rowsOf_doBlock {text : String} (h : ReadsRow text e) {tag : String}
    (htag : isValidTag tag = true) :
    rowsOf (doBlock tag (" BEGIN " ++ text ++ " END ")) = some [e] := by
  obtain ⟨tokens, ⟨hlex, hstring⟩, hrows⟩ := h
  -- the text is one piece of code, which no further texts go into
  have hwritten : WrittenAs ⟨"", "", ""⟩ text [.code text] := by simp [WrittenAs, Part.chars]
  have hreads : Reads [.code text] := reads_code (isCode_iff.mpr ⟨tokens, hlex, hstring⟩)
  have hdelivers : Delivers ⟨"", "", ""⟩ [.code text] [e] := by
    intro rest
    rw [List.flatMap_singleton, Part.tokens, hlex]
    exact hrows rest
  obtain ⟨mark, _, hread⟩ := readTokens_doBlock htag ⟨" END".toList, rfl⟩
    (oneLine_written hwritten) (Skeleton.reads_oneLine hreads) 0
  have hblock := rowsIn_block hdelivers.oneLine mark []
  rw [List.append_nil] at hblock
  rw [rowsOf, hread, Option.map_some, hblock]
  rfl

end ReadsRow

/-! ### Statements -/

/-- The statement that delivers an event holds its row and no other. -/
theorem Observer.rowsOf_invocation {config : Config} (htag : isValidTag config.blockTag = true)
    (callback : String) (e : Event) : rowsOf ((named config callback).invocation e) = some [e] := by
  unfold named invocation CallTarget.ofName
  by_cases hname : isPlainQualifiedName callback = true
  · rw [if_pos hname]
    exact (readsRow_directCall hname).rowsOf_eq
  · rw [if_neg hname]
    exact (readsRow_dynamicCall callback).rowsOf_doBlock htag

theorem rowsOf_formatInvocation {callback : String} (hne : callback ≠ "") (e : Event) :
    rowsOf (formatInvocation callback e) = some [e] := by
  unfold formatInvocation
  rw [Observer.ofCallback?_eq, if_neg hne]
  exact Observer.rowsOf_invocation rfl callback e

/-- The values of an event are read back from the statement that delivers it
    to an observer, and no other row is read there.  So two statements for one
    observer are the same only if all five values are, and an absent path is
    told from a path that spells the key word for it. -/
theorem formatInvocation_read_back {callback : String} (hne : callback ≠ "") :
    (∀ e, rowsOf (formatInvocation callback e) = some [e]) ∧
    (∀ e e', formatInvocation callback e = formatInvocation callback e' →
      e.kind = e'.kind ∧ e.scriptPath = e'.scriptPath ∧
      e.place.directory = e'.place.directory ∧ e.place.depth = e'.place.depth ∧
      e.ordinal = e'.ordinal) ∧
    ∀ kind place ordinal, formatInvocation callback ⟨kind, none, place, ordinal⟩ ≠
      formatInvocation callback ⟨kind, some "NULL", place, ordinal⟩ := by
  have hread := rowsOf_formatInvocation hne
  have hinjective : ∀ e e', formatInvocation callback e = formatInvocation callback e' →
      e = e' := by
    intro e e' h
    have hrows := hread e
    rw [h, hread e', Option.some.injEq, List.cons.injEq] at hrows
    exact hrows.1.symm
  refine ⟨hread, ?_, ?_⟩
  · intro e e' h
    obtain rfl := hinjective e e' h
    exact ⟨rfl, rfl, rfl, rfl, rfl⟩
  · intro kind place ordinal h
    have hpath := congrArg Event.scriptPath (hinjective _ _ h)
    cases hpath

/-- An event that no plan leads to, since a teardown carries no path.  Its path
    is written like the end of its row and the beginning of another, and its
    directory like the end of a code block. -/
def forgedEvent : Event :=
  ⟨.teardownEnd, some "', '', 0, 0, NULL)::x); SELECT cb(ROW('test_end', 'a.sql'",
    ⟨" END $__pgmi__$; --", 4294967295⟩, 0⟩

/-- It is read back from its statement for an observer with a plain name and
    for one whose name holds a quote. -/
theorem forgedEvent_read_back :
    ("cb" ≠ "" ∧ rowsOf (formatInvocation "cb" forgedEvent) = some [forgedEvent]) ∧
    ("it's" ≠ "" ∧ rowsOf (formatInvocation "it's" forgedEvent) = some [forgedEvent] ∧
      formatInvocation "it's" ⟨.testEnd, none, forgedEvent.place, 0⟩ ≠
        formatInvocation "it's" ⟨.testEnd, some "NULL", forgedEvent.place, 0⟩) := by
  have hplain : "cb" ≠ "" := by decide
  have hquote : "it's" ≠ "" := by decide
  obtain ⟨hread, _, _⟩ := formatInvocation_read_back hplain
  obtain ⟨hread', _, hnull⟩ := formatInvocation_read_back hquote
  exact ⟨⟨hplain, hread forgedEvent⟩, hquote, hread' forgedEvent, hnull _ _ _⟩

end SuiteScript
