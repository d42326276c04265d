import SuiteScript.PlanFile.Plan
import SuiteScript.PlanFile.Stream
import SuiteScript.Proofs.JsonReadings

/-! # The two readers of a step agree

    One reader takes a step's fields as they come in a reading; the other
    looks for them in a finished value.  Both are compared with one
    description of a step's JSON: every field is given once, or it is left
    out and has its default (`StepField.Fits`).  Where a reading has a value,
    the two therefore read the same step from it
    (`Step.ofReading_eq_ok_iff`). -/

namespace SuiteScript

theorem bind_eq_ok_iff {ε α β : Type} {x : Except ε α} {f : α → Except ε β} {b : β} :
    x >>= f = .ok b ↔ ∃ a, x = .ok a ∧ f a = .ok b := by
  cases x <;> simp [bind, Except.bind]

open Json (Reading Value)

/-! ### Values of fields

    A field is read from a reading exactly if it is read from its value. -/

namespace Json.Reading

variable {r : Reading} (depth : Nat)

theorem asWord_eq_ok_iff {n : UInt32} :
    r.asWord = .ok n ↔ ∃ v, r.toValue? depth = some v ∧ v.toWord? = some n := by
  cases r with
  | number k =>
    rcases k with _ | k | _ | _
    case some.natural =>
      by_cases hk : k < UInt32.size <;> simp [asWord, toValue?, Value.toWord?, hk]
    all_goals simp [asWord, toValue?, Value.toWord?]
  | _ => simp [asWord, toValue?, Value.toWord?]

theorem asText_eq_ok_iff {s : String} :
    r.asText = .ok s ↔ ∃ v, r.toValue? depth = some v ∧ v.toText? = some s := by
  cases r with
  | text t => cases t <;> simp [asText, toValue?, Value.toText?]
  | _ => simp [asText, toValue?, Value.toText?]

theorem asOptionalText_eq_ok_iff {s : Option String} :
    r.asOptionalText = .ok s ↔ ∃ v, r.toValue? depth = some v ∧ v.toOptionalText? = some s := by
  cases r with
  | text t => cases t <;> simp [asOptionalText, asText, toValue?, Value.toOptionalText?, Except.map]
  | _ => simp [asOptionalText, asText, toValue?, Value.toOptionalText?, Except.map]

theorem asKind_eq_ok_iff {k : StepKind} :
    r.asKind = .ok k ↔ ∃ v, r.toValue? depth = some v ∧ v.toKind? = some k := by
  have hkind : r.asKind = .ok k ↔ ∃ s, r.asText = .ok s ∧ StepKind.ofName? s = some k := by
    rw [asKind]
    cases r.asText with
    | error e => simp
    | ok s => cases h : StepKind.ofName? s <;> simp [h]
  simp only [hkind, asText_eq_ok_iff depth, Value.toKind?, Option.bind_eq_some_iff]
  constructor
  · rintro ⟨s, ⟨v, hv, hs⟩, hk⟩
    exact ⟨v, hv, s, hs, hk⟩
  · rintro ⟨v, hv, s, hs, hk⟩
    exact ⟨s, ⟨v, hv, hs⟩, hk⟩

end Json.Reading

/-! ### Fields -/

namespace StepField

/-- Does the value say what the field of the step is? -/
def IsGivenBy (f : StepField) (step : Step) (v : Value) : Prop :=
  match f with
  | ordinal => v.toWord? = some step.ordinal
  | kind => v.toKind? = some step.kind
  | scriptPath => v.toOptionalText? = some step.scriptPath
  | directory => v.toText? = some step.place.directory
  | depth => v.toWord? = some step.place.depth

/-- Is the field of the step what it is where it is left out? -/
def IsDefault (f : StepField) (step : Step) : Prop :=
  match f with
  | scriptPath => step.scriptPath = none
  | depth => step.place.depth = 0
  | ordinal | kind | directory => False

/-- Is the field of the step given once, by the only one of these values, or
    left out? -/
def Fits (f : StepField) (step : Step) : List Value → Prop
  | [] => f.IsDefault step
  | [v] => f.IsGivenBy step v
  | _ => False

/-- Do these elements say, in order, what the fields of the step are?  The
    depth may be left out. -/
def FitInOrder {α : Type} (step : Step) (isOf : StepField → α → Prop) (items : List α) : Prop :=
  List.Forall₂ isOf [ordinal, kind, scriptPath, directory, depth] items ∨
    List.Forall₂ isOf [ordinal, kind, scriptPath, directory] items ∧ depth.IsDefault step

/-- Is this a key of the field? -/
def isKey (f : StepField) (key : String) : Bool := ofKey? key = some f

/-- The values that members of an object give the field. -/
def valuesIn (f : StepField) (members : List (String × Value)) : List Value :=
  (members.filter fun m => f.isKey m.1).map Prod.snd

/-- The readings that members of an object give the field. -/
def readingsIn (f : StepField) (members : List Reading.Member) : List Reading :=
  (members.filter fun m => m.1.any f.isKey).map Prod.snd

theorem readingsIn_cons {f : StepField} {key : String} {r : Reading} {rest : List Reading.Member} :
    f.readingsIn ((some key, r) :: rest) =
      if ofKey? key = some f then r :: f.readingsIn rest else f.readingsIn rest := by
  by_cases h : ofKey? key = some f <;> simp [readingsIn, isKey, h]

theorem valuesIn_cons {f : StepField} {key : String} {v : Value} {rest : List (String × Value)} :
    f.valuesIn ((key, v) :: rest) =
      if ofKey? key = some f then v :: f.valuesIn rest else f.valuesIn rest := by
  by_cases h : ofKey? key = some f <;> simp [valuesIn, isKey, h]

theorem isGivenBy_null {step : Step} :
    scriptPath.IsGivenBy step .null ↔ scriptPath.IsDefault step := by
  simp [IsGivenBy, IsDefault, Value.toOptionalText?, eq_comm]

theorem isGivenBy_zero {step : Step} :
    depth.IsGivenBy step (.ofNat 0) ↔ depth.IsDefault step := by
  simp [IsGivenBy, IsDefault, Value.ofNat, Value.toWord?, UInt32.size, eq_comm]

theorem forall_iff {p : StepField → Prop} :
    (∀ f, p f) ↔ p ordinal ∧ p kind ∧ p scriptPath ∧ p directory ∧ p depth := by
  constructor
  · intro h
    exact ⟨h _, h _, h _, h _, h _⟩
  · rintro ⟨h₁, h₂, h₃, h₄, h₅⟩ f
    cases f <;> assumption

end StepField

/-! ### Steps from values -/

namespace StepField

theorem fits_valuesIn_iff {f : StepField} {step : Step} {members : List (String × Value)} :
    f.Fits step (f.valuesIn members) ↔
      ∃ v?, f.in? members = some v? ∧ v?.elim (f.IsDefault step) (f.IsGivenBy step) := by
  simp only [in?, onlyMember?, valuesIn, isKey]
  generalize (members.filter fun m => decide (ofKey? m.1 = some f)) = given
  rcases given with _ | ⟨m, _ | ⟨m', rest⟩⟩ <;> simp [Fits]

end StepField

namespace Step

theorem ofFields?_eq_some_iff {step : Step} {ordinal kind scriptPath directory depth : Value} :
    ofFields? ordinal kind scriptPath directory depth = some step ↔
      StepField.ordinal.IsGivenBy step ordinal ∧ StepField.kind.IsGivenBy step kind ∧
        StepField.scriptPath.IsGivenBy step scriptPath ∧
        StepField.directory.IsGivenBy step directory ∧ StepField.depth.IsGivenBy step depth := by
  simp only [ofFields?, bind, Option.bind_eq_some_iff, pure, Option.some.injEq]
  constructor
  · rintro ⟨n, hordinal, k, hkind, s, hscript, d, hdirectory, l, hdepth, rfl⟩
    exact ⟨hordinal, hkind, hscript, hdirectory, hdepth⟩
  · rintro ⟨hordinal, hkind, hscript, hdirectory, hdepth⟩
    exact ⟨_, hordinal, _, hkind, _, hscript, _, hdirectory, _, hdepth, rfl⟩

/-- A step is read from the members of an object if it fits all of its
    fields. -/
theorem ofMembers?_eq_some_iff {step : Step} {members : List (String × Value)} :
    ofMembers? members = some step ↔ ∀ f : StepField, f.Fits step (f.valuesIn members) := by
  have hscript : ∀ v? : Option Value, StepField.scriptPath.IsGivenBy step (v?.getD .null) ↔
      v?.elim (StepField.scriptPath.IsDefault step) (StepField.scriptPath.IsGivenBy step) := by
    intro v?
    cases v? with
    | none => exact StepField.isGivenBy_null
    | some v => exact Iff.rfl
  have hdepth : ∀ v? : Option Value, StepField.depth.IsGivenBy step (v?.getD (.ofNat 0)) ↔
      v?.elim (StepField.depth.IsDefault step) (StepField.depth.IsGivenBy step) := by
    intro v?
    cases v? with
    | none => exact StepField.isGivenBy_zero
    | some v => exact Iff.rfl
  simp only [StepField.forall_iff, StepField.fits_valuesIn_iff, ofMembers?, bind,
    Option.bind_eq_some_iff, ofFields?_eq_some_iff, hscript, hdepth]
  constructor
  · rintro ⟨_, ho, _, hk, s, hs, _, hd, l, hl, o, rfl, k, rfl, d, rfl, ho', hk', hs', hd', hl'⟩
    exact ⟨⟨_, ho, ho'⟩, ⟨_, hk, hk'⟩, ⟨_, hs, hs'⟩, ⟨_, hd, hd'⟩, ⟨_, hl, hl'⟩⟩
  · rintro ⟨⟨_ | o, ho, ho'⟩, ⟨_ | k, hk, hk'⟩, ⟨s, hs, hs'⟩, ⟨_ | d, hd, hd'⟩, ⟨l, hl, hl'⟩⟩
    case some.some.some =>
      exact ⟨_, ho, _, hk, s, hs, _, hd, l, hl, o, rfl, k, rfl, d, rfl, ho', hk', hs', hd', hl'⟩
    all_goals contradiction

/-- A step is read from the elements of an array if they fit its fields. -/
theorem ofItems?_eq_some_iff {step : Step} {items : List Value} :
    ofItems? items = some step ↔ StepField.FitInOrder step (·.IsGivenBy step) items := by
  rcases items with _ | ⟨o, _ | ⟨k, _ | ⟨s, _ | ⟨d, _ | ⟨l, _ | ⟨x, items⟩⟩⟩⟩⟩⟩ <;>
    simp [ofItems?, StepField.FitInOrder, ofFields?_eq_some_iff, StepField.isGivenBy_zero,
      and_assoc]

end Step

/-! ### Steps from readings -/

namespace StepField

/-- Does the reader take what the field of the step is from the reading? -/
def IsReadFrom (f : StepField) (step : Step) (r : Reading) : Prop :=
  match f with
  | ordinal => r.asWord = .ok step.ordinal
  | kind => r.asKind = .ok step.kind
  | scriptPath => r.asOptionalText = .ok step.scriptPath
  | directory => r.asText = .ok step.place.directory
  | depth => r.asWord = .ok step.place.depth

theorem isReadFrom_iff {f : StepField} {step : Step} {r : Reading} (depth : Nat) :
    f.IsReadFrom step r ↔ ∃ v, r.toValue? depth = some v ∧ f.IsGivenBy step v := by
  cases f with
  | ordinal => exact Reading.asWord_eq_ok_iff depth
  | kind => exact Reading.asKind_eq_ok_iff depth
  | scriptPath => exact Reading.asOptionalText_eq_ok_iff depth
  | directory => exact Reading.asText_eq_ok_iff depth
  | depth => exact Reading.asWord_eq_ok_iff depth

theorem exists_isReadFrom {items : List Reading} {step : Step}
    (h : FitInOrder step (·.IsReadFrom step) items) {r : Reading} (hr : r ∈ items) :
    ∃ f : StepField, f.IsReadFrom step r := by
  have hsome : ∀ fs : List StepField, List.Forall₂ (·.IsReadFrom step) fs items →
      ∃ f : StepField, f.IsReadFrom step r := by
    intro fs hfs
    obtain ⟨f, -, hf⟩ := Json.exists_of_forall₂ hfs.flip hr
    exact ⟨f, hf⟩
  rcases h with h | ⟨h, -⟩
  · exact hsome _ h
  · exact hsome _ h

end StepField

namespace Elements

variable {α β : Type} {read : Reading → Except DecodeError α} {absent : Except DecodeError α}
  {go : α × Elements → Except DecodeError β} {isClosed : Bool}

theorem next_cons (r : Reading) (rest : List Reading) :
    (next ⟨r :: rest, isClosed⟩ read absent >>= go) =
      (read r >>= fun a => go (a, ⟨rest, isClosed⟩)) := by
  simp only [next, bind_assoc, pure_bind]

end Elements

namespace Step

theorem readElements_four {ordinal kind scriptPath directory : Reading} {step : Step} :
    readElements ⟨[ordinal, kind, scriptPath, directory], true⟩ = .ok step ↔
      StepField.ordinal.IsReadFrom step ordinal ∧ StepField.kind.IsReadFrom step kind ∧
        StepField.scriptPath.IsReadFrom step scriptPath ∧
        StepField.directory.IsReadFrom step directory ∧ StepField.depth.IsDefault step := by
  simp only [readElements, Elements.next_cons, bind_eq_ok_iff]
  constructor
  · rintro ⟨n, ho, k, hk, s, hs, d, hd, ⟨l, e⟩, ⟨⟩, _, -, ⟨⟩⟩
    exact ⟨ho, hk, hs, hd, rfl⟩
  · rintro ⟨ho, hk, hs, hd, hl⟩
    refine ⟨_, ho, _, hk, _, hs, _, hd, _, rfl, _, rfl, ?_⟩
    rw [← show step.place.depth = 0 from hl]
    rfl

theorem readElements_five {ordinal kind scriptPath directory depth : Reading} {step : Step} :
    readElements ⟨[ordinal, kind, scriptPath, directory, depth], true⟩ = .ok step ↔
      StepField.ordinal.IsReadFrom step ordinal ∧ StepField.kind.IsReadFrom step kind ∧
        StepField.scriptPath.IsReadFrom step scriptPath ∧
        StepField.directory.IsReadFrom step directory ∧ StepField.depth.IsReadFrom step depth := by
  simp only [readElements, Elements.next_cons, bind_eq_ok_iff]
  constructor
  · rintro ⟨n, ho, k, hk, s, hs, d, hd, l, hl, _, -, ⟨⟩⟩
    exact ⟨ho, hk, hs, hd, hl⟩
  · rintro ⟨ho, hk, hs, hd, hl⟩
    exact ⟨_, ho, _, hk, _, hs, _, hd, _, hl, _, rfl, rfl⟩

theorem readElements_eq_ok_iff {items : List Reading} {isClosed : Bool} {step : Step} :
    readElements ⟨items, isClosed⟩ = .ok step ↔
      isClosed = true ∧ StepField.FitInOrder step (·.IsReadFrom step) items := by
  cases isClosed with
  | false =>
    rcases items with _ | ⟨o, _ | ⟨k, _ | ⟨s, _ | ⟨d, _ | ⟨l, _ | ⟨x, items⟩⟩⟩⟩⟩⟩ <;>
      simp [readElements, Elements.next, Elements.finish, bind_eq_ok_iff]
  | true =>
    -- an array of any other length is too short, or ends too late
    rcases items with _ | ⟨o, _ | ⟨k, _ | ⟨s, _ | ⟨d, _ | ⟨l, _ | ⟨x, items⟩⟩⟩⟩⟩⟩
    case cons.cons.cons.cons.nil => simp [readElements_four, StepField.FitInOrder, and_assoc]
    case cons.cons.cons.cons.cons.nil => simp [readElements_five, StepField.FitInOrder]
    all_goals
      simp [readElements, Elements.next, Elements.tooShort, Elements.finish, bind_eq_ok_iff,
        StepField.FitInOrder]

end Step

namespace PartialStep

variable {p q : PartialStep} {step : Step}

/-- Is the field of the step what has been read, or its default? -/
def Supplies (p : PartialStep) (step : Step) : StepField → Prop
  | .ordinal => p.ordinal = some step.ordinal
  | .kind => p.kind = some step.kind
  | .scriptPath => p.scriptPath.getD none = step.scriptPath
  | .directory => p.directory = some step.place.directory
  | .depth => p.depth.getD 0 = step.place.depth

theorem finish_eq_ok_iff : p.finish = .ok step ↔ ∀ f, p.Supplies step f := by
  obtain ⟨o, k, s, d, l⟩ := p
  obtain ⟨o', k', s', d', l'⟩ := step
  cases o <;> cases k <;> cases d <;>
    simp [finish, require, StepField.forall_iff, Supplies, bind, Except.bind, pure, Except.pure]

theorem supplies_empty {f : StepField} : ({} : PartialStep).Supplies step f ↔ f.IsDefault step := by
  cases f <;> simp [Supplies, StepField.IsDefault, eq_comm]

/-- Reading the value of a field sets this field and no other. -/
theorem put_eq_ok (step : Step) {r : Reading} {f : StepField} (h : p.put r f = .ok q) :
    q.has f = true ∧ (q.Supplies step f ↔ f.IsReadFrom step r) ∧
      ∀ g, g ≠ f → q.has g = p.has g ∧ (q.Supplies step g ↔ p.Supplies step g) := by
  cases f <;> obtain ⟨a, ha, ⟨⟩⟩ := bind_eq_ok_iff.mp h
  all_goals
    refine ⟨rfl, by simp [Supplies, StepField.IsReadFrom, ha], ?_⟩
    intro g hg
    cases g <;> simp [has, Supplies] at hg ⊢

theorem exists_put {r : Reading} {f : StepField} (h : f.IsReadFrom step r) :
    ∃ q, p.put r f = .ok q := by
  cases f <;> exact ⟨_, bind_eq_ok_iff.mpr ⟨_, h, rfl⟩⟩

/-- Can a reading of the members that are left make up the field of the step,
    when these readings are what they give it? -/
def Completes (p : PartialStep) (step : Step) (f : StepField) : List Reading → Prop
  | [] => p.Supplies step f
  | [r] => p.has f = false ∧ f.IsReadFrom step r
  | _ => False

theorem completes_cons_iff {f : StepField} {r : Reading} {rest : List Reading} :
    p.Completes step f (r :: rest) ↔ p.has f = false ∧ f.IsReadFrom step r ∧ rest = [] := by
  cases rest <;> simp [Completes]

theorem isReadFrom_of_completes {f : StepField} {rs : List Reading} (h : p.Completes step f rs)
    {r : Reading} (hr : r ∈ rs) : f.IsReadFrom step r := by
  cases rs with
  | nil => cases hr
  | cons r' rest =>
    obtain ⟨-, hread, rfl⟩ := completes_cons_iff.mp h
    rwa [List.mem_singleton.mp hr]

/-- May the member stand in an object that is read as a step? -/
def IsReadable (m : Reading.Member) : Prop :=
  ∃ key, m.1 = some key ∧ (StepField.ofKey? key = none → m.2.isIntact = true)

/-- Once the value of a field has been read, its other readings, if there are
    any, can no longer make it up. -/
theorem completes_put_iff {r : Reading} {f g : StepField} {rs : List Reading}
    (hhas : p.has g = false) (h : p.put r g = .ok q) :
    q.Completes step f rs ↔ p.Completes step f (if some g = some f then r :: rs else rs) := by
  obtain ⟨hset, hsupplies, hothers⟩ := put_eq_ok step h
  by_cases hfg : g = f
  · subst hfg
    rcases rs with _ | ⟨x, _ | ⟨y, rs⟩⟩ <;> simp [Completes, hset, hsupplies, hhas]
  · obtain ⟨hkept, hsame⟩ := hothers f (Ne.symm hfg)
    rcases rs with _ | ⟨x, _ | ⟨y, rs⟩⟩ <;> simp [Completes, hfg, hkept, hsame]

/-- The members of a step are read, one after the other, exactly if each may
    stand there and together with what has been read they make up every
    field. -/
theorem foldlM_readMember_eq_ok_iff {members : List Reading.Member} :
    (members.foldlM readMember p >>= finish) = .ok step ↔
      (∀ m ∈ members, IsReadable m) ∧
        ∀ f : StepField, p.Completes step f (f.readingsIn members) := by
  -- on the members that are left, for any fields that have been read
  induction members generalizing p with
  | nil => simp [finish_eq_ok_iff, StepField.readingsIn, Completes]
  | cons m rest ih =>
    obtain ⟨_ | key, r⟩ := m
    · simp [IsReadable, readMember, bind, Except.bind]
    rw [List.foldlM_cons, bind_assoc, bind_eq_ok_iff]
    simp only [ih, List.forall_mem_cons, StepField.readingsIn_cons]
    cases hkey : StepField.ofKey? key with
    | none =>
      -- a member that is no field counts only if its value has a fault
      cases hintact : r.isIntact <;> simp [readMember, IsReadable, hkey, hintact]
    | some g =>
      have hreadable : IsReadable (some key, r) :=
        ⟨key, rfl, fun hnone => nomatch hkey.symm.trans hnone⟩
      cases hhas : p.has g with
      | true =>
        have hfault : p.readMember (some key, r) = .error (.mismatch (.duplicateField g)) := by
          simp [readMember, hkey, hhas]
        rw [hfault]
        constructor
        · rintro ⟨q, ⟨⟩, -⟩
        · -- nothing makes up for a field that is given a second time
          rintro ⟨-, hfields⟩
          have hg := hfields g
          rw [if_pos rfl, completes_cons_iff, hhas] at hg
          cases hg.1
      | false =>
        have hput : p.readMember (some key, r) = p.put r g := by simp [readMember, hkey, hhas]
        rw [hput]
        constructor
        · rintro ⟨q, hq, hrest, hfields⟩
          exact ⟨⟨hreadable, hrest⟩, fun f => (completes_put_iff hhas hq).mp (hfields f)⟩
        · rintro ⟨⟨-, hrest⟩, hfields⟩
          -- the field is made up by this value alone, so it can be read
          have hread : g.IsReadFrom step r := by
            have hg := hfields g
            rw [if_pos rfl, completes_cons_iff] at hg
            exact hg.2.1
          obtain ⟨q, hq⟩ := exists_put hread
          exact ⟨q, hq, hrest, fun f => (completes_put_iff hhas hq).mpr (hfields f)⟩

end PartialStep

namespace Step

theorem readMembers_eq_ok_iff {members : List Reading.Member} {isClosed : Bool} {step : Step} :
    readMembers members isClosed = .ok step ↔
      isClosed = true ∧ (∀ m ∈ members, PartialStep.IsReadable m) ∧
        ∀ f : StepField, ({} : PartialStep).Completes step f (f.readingsIn members) := by
  rw [← PartialStep.foldlM_readMember_eq_ok_iff]
  cases isClosed with
  | true => simp [readMembers]
  | false => simp [readMembers, bind_eq_ok_iff]

end Step

/-! ### Where a reading has a value -/

namespace StepField

variable {step : Step} {depth : Nat}

theorem completes_empty_iff {f : StepField} {rs : List Reading} {vs : List Value}
    (h : List.Forall₂ (fun r v => r.toValue? depth = some v) rs vs) :
    ({} : PartialStep).Completes step f rs ↔ f.Fits step vs := by
  cases h with
  | nil => exact PartialStep.supplies_empty
  | cons hr hrest =>
    cases hrest with
    | nil =>
      have hhas : ({} : PartialStep).has f = false := by cases f <;> rfl
      simp [PartialStep.Completes, Fits, hhas, isReadFrom_iff depth, hr]
    | cons => exact Iff.rfl

theorem forall₂_readingsIn {f : StepField} {members : List Reading.Member}
    {ms : List (String × Value)}
    (h : List.Forall₂ (fun m n => m.1 = some n.1 ∧ m.2.toValue? depth = some n.2) members ms) :
    List.Forall₂ (fun r v => r.toValue? depth = some v) (f.readingsIn members) (f.valuesIn ms) := by
  induction h with
  | nil => exact .nil
  | @cons m n members ms hmn _ ih =>
    obtain ⟨k, r⟩ := m
    obtain ⟨rfl, hr⟩ := hmn
    rw [readingsIn_cons, valuesIn_cons]
    split
    · exact .cons hr ih
    · exact ih

theorem forall₂_isReadFrom_iff {items : List Reading} {vs : List Value}
    (h : List.Forall₂ (fun r v => r.toValue? depth = some v) items vs) {fs : List StepField} :
    List.Forall₂ (·.IsReadFrom step) fs items ↔ List.Forall₂ (·.IsGivenBy step) fs vs := by
  induction h generalizing fs with
  | nil => simp
  | cons hr _ ih => simp [List.forall₂_cons_right_iff, ih, isReadFrom_iff depth, hr]

end StepField

namespace Step

variable {step : Step} {depth : Nat}

theorem readMembers_eq_ok_iff_ofMembers? {members : List Reading.Member}
    {ms : List (String × Value)} (h : Reading.toMembers? depth members = some ms) :
    readMembers members true = .ok step ↔ ofMembers? ms = some step := by
  have hms := Reading.toMembers?_eq_some_iff.mp h
  have hreadable : ∀ m ∈ members, PartialStep.IsReadable m := by
    intro m hm
    obtain ⟨n, -, hkey, hn⟩ := Json.exists_of_forall₂ hms hm
    exact ⟨n.1, hkey, fun _ => Reading.isIntact_of_toValue? hn⟩
  rw [readMembers_eq_ok_iff, ofMembers?_eq_some_iff, and_iff_right rfl, and_iff_right hreadable]
  exact forall_congr' fun f => StepField.completes_empty_iff (StepField.forall₂_readingsIn hms)

theorem readElements_eq_ok_iff_ofItems? {items : List Reading} {vs : List Value}
    (h : Reading.toValues? depth items = some vs) :
    readElements ⟨items, true⟩ = .ok step ↔ ofItems? vs = some step := by
  have hvs := Reading.toValues?_eq_some_iff.mp h
  rw [readElements_eq_ok_iff, ofItems?_eq_some_iff]
  simp [StepField.FitInOrder, StepField.forall₂_isReadFrom_iff hvs]

/-- Where a reading has a value, a step is read from the one exactly if it is
    read from the other. -/
theorem ofReading_eq_ok_iff {r : Reading} {v : Value} (h : r.toValue? depth = some v) :
    ofReading r = .ok step ↔ ofValue? v = some step := by
  cases r with
  | object members isClosed =>
    obtain ⟨rfl, -, ms, hms, rfl⟩ := Reading.toValue?_object_eq_some_iff.mp h
    exact readMembers_eq_ok_iff_ofMembers? hms
  | array items isClosed =>
    obtain ⟨rfl, -, vs, hvs, rfl⟩ := Reading.toValue?_array_eq_some_iff.mp h
    exact readElements_eq_ok_iff_ofItems? hvs
  | null => cases h; simp [ofReading, ofValue?]
  | bool b => cases h; simp [ofReading, ofValue?]
  | number n =>
    obtain ⟨n', rfl, rfl⟩ := Option.map_eq_some_iff.mp h
    simp [ofReading, ofValue?]
  | text s =>
    obtain ⟨s', rfl, rfl⟩ := Option.map_eq_some_iff.mp h
    simp [ofReading, ofValue?]
  | broken => cases h

end Step

end SuiteScript
