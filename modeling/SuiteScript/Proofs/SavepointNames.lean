import SuiteScript.Savepoint
import SuiteScript.Sql.Identifier

/-! # Names of savepoints

    A name shows the class and the number of its savepoint, so two
    savepoints of one script are the same as soon as their names are. -/

namespace SuiteScript

namespace SavepointClass

theorem marker_injective {c c' : SavepointClass} (h : c.marker = c'.marker) : c = c' := by
  cases c <;> cases c' <;> first | rfl | exact absurd h (by decide)

end SavepointClass

namespace Savepoint

@[simp] theorem toList_name (sp : Savepoint) :
    sp.name.toList = nameStart ++ sp.cls.marker :: (Nat.toDigits 10 sp.serial ++ nameEnd) := by
  simp [name]

theorem name_injective {sp sp' : Savepoint} (h : sp.name = sp'.name) : sp = sp' := by
  have hchars := congrArg String.toList h
  rw [toList_name, toList_name] at hchars
  obtain ⟨hmarker, hrest⟩ := List.cons.inj (List.append_cancel_left hchars)
  have hdigits : Nat.toDigits 10 sp.serial = Nat.toDigits 10 sp'.serial :=
    List.append_cancel_right hrest
  have hserial : sp.serial = sp'.serial := by
    have := congrArg (Nat.ofDigitChars 10 · 0) hdigits
    simpa [Nat.ofDigitChars_ten_toDigits] using this
  have hcls := SavepointClass.marker_injective hmarker
  cases sp
  cases sp'
  simp_all

theorem all_isDigit_toDigits (n : Nat) : (Nat.toDigits 10 n).all Char.isDigit = true := by
  rw [List.all_eq_true]
  intro c hc
  exact Nat.isDigit_of_mem_toDigits (by omega) (by omega) hc

/-- A name can stand in a script as it is. -/
theorem isWord_name (sp : Savepoint) : Sql.isWord sp.name.toList = true := by
  have hdigits : (Nat.toDigits 10 sp.serial).all Sql.isWordChar = true := by
    have hall := List.all_eq_true.mp (all_isDigit_toDigits sp.serial)
    rw [List.all_eq_true]
    intro c hc
    exact Sql.isWordChar_of_isDigit (hall c hc)
  have hmarker : Sql.isWordChar sp.cls.marker = true := by cases sp.cls <;> rfl
  rw [toList_name]
  show (true && ("_pgmi_".toList ++ sp.cls.marker :: (_ ++ nameEnd)).all Sql.isWordChar) = true
  simp only [List.all_append, List.all_cons, hdigits, hmarker]
  rfl

/-- What stands between the common start and the common end decides. -/
theorem classOfName?_framed (body : List Char) :
    classOfName? (String.ofList (nameStart ++ (body ++ nameEnd))) = classOfBody? body := by
  unfold classOfName?
  simp only [String.toList_ofList]
  rw [if_pos (List.isPrefixOf_iff_prefix.mpr (List.prefix_append _ _)), List.drop_left,
    if_pos (List.isSuffixOf_iff_suffix.mpr (List.suffix_append _ _)),
    List.length_append, Nat.add_sub_cancel, List.take_left]

/-- A class is read back from every name that was formed with it. -/
theorem classOfName?_name (sp : Savepoint) : classOfName? sp.name = some sp.cls := by
  have hbody : classOfBody? (sp.cls.marker :: Nat.toDigits 10 sp.serial) = some sp.cls := by
    have hne : (Nat.toDigits 10 sp.serial).isEmpty = false := by
      simp
    simp only [classOfBody?, hne, all_isDigit_toDigits]
    cases sp.cls <;> rfl
  rw [name, ← List.cons_append, classOfName?_framed, hbody]

end Savepoint

end SuiteScript
