import SuiteScript.Proofs.JsonTokens

/-! # Values are read back

    A reading without faults is determined by its tokens: the machine that
    builds readings gives it back from them, wherever they stand
    (`Reading.foldl_tokens`).  What has a value is such a reading, and a
    written value is cut into the tokens of its own.  So every value whose
    numbers are whole is read back from its compact text (`read_compact`) and
    from the text with a line for each member (`parse?_pretty`), whatever its
    strings hold. -/

namespace SuiteScript.Json

/-! ### Induction -/

/-- To show something of all readings, it may be assumed of the elements of
    an array and of the values in an object. -/
theorem Reading.inductionOn {motive : Reading → Prop} (null : motive .null)
    (bool : ∀ b, motive (.bool b)) (number : ∀ n, motive (.number n))
    (text : ∀ s, motive (.text s))
    (array : ∀ items isClosed, (∀ r ∈ items, motive r) → motive (.array items isClosed))
    (object : ∀ members isClosed, (∀ m ∈ members, motive m.2) → motive (.object members isClosed))
    (broken : motive .broken) : (r : Reading) → motive r
  | .null => null
  | .bool b => bool b
  | .number n => number n
  | .text s => text s
  | .array items isClosed => array items isClosed fun r hr =>
    have := List.sizeOf_lt_of_mem hr
    inductionOn null bool number text array object broken r
  | .object members isClosed => object members isClosed fun m hm =>
    have := List.sizeOf_lt_of_mem hm
    inductionOn null bool number text array object broken m.2
  | .broken => broken
termination_by r => sizeOf r
decreasing_by
  · simp only [Reading.array.sizeOf_spec]
    omega
  · obtain ⟨k, r⟩ := m
    simp only [Prod.mk.sizeOf_spec] at this
    simp only [Reading.object.sizeOf_spec]
    omega

/-- To show something of all values, it may be assumed of the elements of an
    array and of the values in an object. -/
theorem Value.inductionOn {motive : Value → Prop} (null : motive .null)
    (bool : ∀ b, motive (.bool b)) (number : ∀ n, motive (.number n))
    (text : ∀ s, motive (.text s))
    (array : ∀ items, (∀ v ∈ items, motive v) → motive (.array items))
    (object : ∀ members, (∀ m ∈ members, motive m.2) → motive (.object members)) :
    (v : Value) → motive v
  | .null => null
  | .bool b => bool b
  | .number n => number n
  | .text s => text s
  | .array items => array items fun v hv =>
    have := List.sizeOf_lt_of_mem hv
    inductionOn null bool number text array object v
  | .object members => object members fun m hm =>
    have := List.sizeOf_lt_of_mem hm
    inductionOn null bool number text array object m.2
termination_by v => sizeOf v
decreasing_by
  · simp only [Value.array.sizeOf_spec]
    omega
  · obtain ⟨k, v⟩ := m
    simp only [Prod.mk.sizeOf_spec] at this
    simp only [Value.object.sizeOf_spec]
    omega

/-! ### The tokens of a reading -/

mutual

/-- The tokens of a reading without faults. -/
def Reading.tokens : Reading → List Token
  | .null => [.null]
  | .bool b => [.bool b]
  | .number n => [.number n]
  | .text s => [.text s]
  | .array items _ => .openArray :: [Token.comma].intercalate (itemTokens items) ++ [.closeArray]
  | .object members _ =>
    .openObject :: [Token.comma].intercalate (memberTokens members) ++ [.closeObject]
  | .broken => [.invalid]

/-- The tokens of each element. -/
def Reading.itemTokens : List Reading → List (List Token)
  | [] => []
  | r :: rest => r.tokens :: itemTokens rest

/-- The tokens of each member. -/
def Reading.memberTokens : List (Option String × Reading) → List (List Token)
  | [] => []
  | (k, r) :: rest => (.text k :: .colon :: r.tokens) :: memberTokens rest

end

namespace Reading

theorem areIntact_iff {items : List Reading} :
    areIntact items = true ↔ ∀ r ∈ items, r.isIntact = true := by
  induction items with
  | nil => simp [areIntact]
  | cons r rest ih => simp [areIntact, ih]

theorem areMembersIntact_iff {members : List Member} :
    areMembersIntact members = true ↔ ∀ m ∈ members, m.2.isIntact = true := by
  induction members with
  | nil => simp [areMembersIntact]
  | cons m rest ih =>
    obtain ⟨k, r⟩ := m
    simp [areMembersIntact, ih]

open ReadState (step)

/-- The first element of an array is read like any other: no value starts
    with the end of an array. -/
theorem foldl_arrayStart (r : Reading) (rest : List Reading) (more : List Token)
    (outer : List Frame) :
    ([Token.comma].intercalate (itemTokens (r :: rest)) ++ more).foldl step (.arrayStart outer) =
      ([Token.comma].intercalate (itemTokens (r :: rest)) ++ more).foldl step
        (.value (.array [] :: outer)) := by
  have hfirst : r.tokens.foldl step (.arrayStart outer) =
      r.tokens.foldl step (.value (.array [] :: outer)) := by
    cases r <;> rfl
  cases rest with
  | nil =>
    rw [itemTokens, itemTokens, List.intercalate_singleton, List.foldl_append, List.foldl_append,
      hfirst]
  | cons next rest =>
    rw [itemTokens, itemTokens, List.intercalate_cons_cons]
    simp only [List.append_assoc, List.foldl_append, hfirst]

/-- Is the reading built from its tokens, wherever a value may start? -/
def IsReadBack (r : Reading) : Prop :=
  ∀ outer, r.tokens.foldl step (.value outer) = .after r outer

/-- Elements are added to those in front of them. -/
theorem foldl_itemTokens {items : List Reading} (hne : items ≠ [])
    (h : ∀ r ∈ items, r.IsReadBack) (before : List Reading) (outer : List Frame) :
    ([Token.comma].intercalate (itemTokens items) ++ [Token.closeArray]).foldl step
        (.value (.array before :: outer)) =
      .after (.array (before.reverse ++ items) true) outer := by
  induction items generalizing before with
  | nil => exact absurd rfl hne
  | cons r rest ih =>
    obtain ⟨hr, hrest⟩ := List.forall_mem_cons.mp h
    cases rest with
    | nil =>
      rw [itemTokens, itemTokens, List.intercalate_singleton, List.foldl_append, hr]
      simp [step, ReadState.endValue]
    | cons next rest =>
      rw [itemTokens, itemTokens, List.intercalate_cons_cons, List.append_assoc,
        List.append_assoc, List.foldl_append, hr, List.foldl_append]
      have hmore := ih (by simp) hrest (r :: before)
      rw [itemTokens] at hmore
      simp only [List.reverse_cons, List.append_assoc, List.singleton_append] at hmore
      exact hmore

/-- Members are added to those in front of them, from any state in which a key
    is read. -/
theorem foldl_memberTokens {members : List Member} (hne : members ≠ [])
    (h : ∀ m ∈ members, m.2.IsReadBack) (before : List Member) (outer : List Frame) (s : ReadState)
    (hs : ∀ k, step s (.text k) = .colon before k outer) :
    ([Token.comma].intercalate (memberTokens members) ++ [Token.closeObject]).foldl step s =
      .after (.object (before.reverse ++ members) true) outer := by
  induction members generalizing before s with
  | nil => exact absurd rfl hne
  | cons m rest ih =>
    obtain ⟨hm, hrest⟩ := List.forall_mem_cons.mp h
    obtain ⟨k, r⟩ := m
    have hmember : (Token.text k :: .colon :: r.tokens).foldl step s =
        .after r (.object before k :: outer) := by
      rw [List.foldl_cons, hs]
      exact hm (.object before k :: outer)
    cases rest with
    | nil =>
      rw [memberTokens, memberTokens, List.intercalate_singleton, List.foldl_append, hmember]
      simp [step, ReadState.endValue]
    | cons next rest =>
      rw [memberTokens, memberTokens, List.intercalate_cons_cons, List.append_assoc,
        List.append_assoc, List.foldl_append, hmember, List.foldl_append]
      have hmore := ih (by simp) hrest ((k, r) :: before) (.key ((k, r) :: before) outer)
        fun _ => rfl
      rw [memberTokens] at hmore
      simp only [List.reverse_cons, List.append_assoc, List.singleton_append] at hmore
      exact hmore

/-- A faultless reading is built from its tokens. -/
theorem foldl_tokens (r : Reading) (h : r.isIntact = true) : r.IsReadBack := by
  induction r using Reading.inductionOn with
  | null => exact fun _ => rfl
  | bool b => exact fun _ => rfl
  | number n => exact fun _ => rfl
  | text s => exact fun _ => rfl
  | broken => cases h
  | array items isClosed ih =>
    intro outer
    obtain ⟨rfl, hitems⟩ := Bool.and_eq_true_iff.mp h
    cases items with
    | nil => rfl
    | cons r rest =>
      have hread : ∀ r' ∈ r :: rest, r'.IsReadBack := fun r' hr' =>
        ih r' hr' (areIntact_iff.mp hitems r' hr')
      rw [tokens, List.cons_append, List.foldl_cons]
      show List.foldl step (.arrayStart outer) _ = _
      rw [foldl_arrayStart]
      exact foldl_itemTokens (by simp) hread [] outer
  | object members isClosed ih =>
    intro outer
    obtain ⟨rfl, hmembers⟩ := Bool.and_eq_true_iff.mp h
    cases members with
    | nil => rfl
    | cons m rest =>
      have hread : ∀ m' ∈ m :: rest, m'.2.IsReadBack := fun m' hm' =>
        ih m' hm' (areMembersIntact_iff.mp hmembers m' hm')
      rw [tokens, List.cons_append, List.foldl_cons]
      exact foldl_memberTokens (by simp) hread [] outer (.objectStart outer) fun _ => rfl

end Reading

/-! ### Values of readings -/

theorem exists_of_forall₂ {α β : Type} {R : α → β → Prop} {as : List α} {bs : List β}
    (h : List.Forall₂ R as bs) {a : α} (ha : a ∈ as) : ∃ b ∈ bs, R a b := by
  induction h with
  | nil => cases ha
  | cons hab _ ih =>
    rcases List.mem_cons.mp ha with rfl | ha
    · exact ⟨_, by simp, hab⟩
    · obtain ⟨b, hb, hR⟩ := ih ha
      exact ⟨b, by simp [hb], hR⟩

namespace Reading

theorem toValues?_eq_some_iff {depth : Nat} {items : List Reading} {vs : List Value} :
    toValues? depth items = some vs ↔
      List.Forall₂ (fun r v => r.toValue? depth = some v) items vs := by
  induction items generalizing vs with
  | nil => simp [toValues?, eq_comm]
  | cons r rest ih =>
    rw [List.forall₂_cons_left_iff]
    simp only [← ih]
    rw [toValues?]
    cases r.toValue? depth <;> cases toValues? depth rest <;> simp [eq_comm]

theorem toMembers?_eq_some_iff {depth : Nat} {members : List Member}
    {ms : List (String × Value)} :
    toMembers? depth members = some ms ↔
      List.Forall₂ (fun m n => m.1 = some n.1 ∧ m.2.toValue? depth = some n.2) members ms := by
  induction members generalizing ms with
  | nil => simp [toMembers?, eq_comm]
  | cons m rest ih =>
    obtain ⟨k, r⟩ := m
    rw [List.forall₂_cons_left_iff]
    simp only [← ih]
    cases k with
    | none => simp [toMembers?]
    | some k =>
      cases hr : r.toValue? depth <;> cases hrest : toMembers? depth rest <;>
        simp [toMembers?, hr, hrest, eq_comm]

theorem toValue?_array_eq_some_iff {items : List Reading} {isClosed : Bool} {v : Value}
    {depth : Nat} :
    (Reading.array items isClosed).toValue? depth = some v ↔
      isClosed = true ∧ 0 < depth ∧
        ∃ vs, toValues? (depth - 1) items = some vs ∧ .array vs = v := by
  cases isClosed <;> simp [toValue?]

theorem toValue?_object_eq_some_iff {members : List Member} {isClosed : Bool} {v : Value}
    {depth : Nat} :
    (Reading.object members isClosed).toValue? depth = some v ↔
      isClosed = true ∧ 0 < depth ∧
        ∃ ms, toMembers? (depth - 1) members = some ms ∧ .object ms = v := by
  cases isClosed <;> simp [toValue?]

/-- What has a value is free of faults. -/
theorem isIntact_of_toValue? {r : Reading} {v : Value} {depth : Nat}
    (h : r.toValue? depth = some v) : r.isIntact = true := by
  induction r using Reading.inductionOn generalizing depth v with
  | null => rfl
  | bool b => rfl
  | number n => rfl
  | text s => rfl
  | broken => cases h
  | array items isClosed ih =>
    obtain ⟨rfl, -, vs, hvs, -⟩ := toValue?_array_eq_some_iff.mp h
    refine areIntact_iff.mpr fun r hr => ?_
    obtain ⟨v, -, hv⟩ := exists_of_forall₂ (toValues?_eq_some_iff.mp hvs) hr
    exact ih r hr hv
  | object members isClosed ih =>
    obtain ⟨rfl, -, ms, hms, -⟩ := toValue?_object_eq_some_iff.mp h
    refine areMembersIntact_iff.mpr fun m hm => ?_
    obtain ⟨n, -, -, hn⟩ := exists_of_forall₂ (toMembers?_eq_some_iff.mp hms) hm
    exact ih m hm hn

end Reading

/-! ### Values as readings -/

mutual

/-- The reading of a value. -/
def Value.toReading : Value → Reading
  | .null => .null
  | .bool b => .bool b
  | .number n => .number (some n)
  | .text s => .text (some s)
  | .array items => .array (toReadings items) true
  | .object members => .object (toMemberReadings members) true

/-- The reading of each element. -/
def Value.toReadings : List Value → List Reading
  | [] => []
  | v :: rest => v.toReading :: toReadings rest

/-- The reading of each member. -/
def Value.toMemberReadings : List (String × Value) → List (Option String × Reading)
  | [] => []
  | (k, v) :: rest => (some k, v.toReading) :: toMemberReadings rest

end

mutual

/-- How deeply arrays and objects are nested in a value. -/
def Value.height : Value → Nat
  | .null | .bool _ | .number _ | .text _ => 0
  | .array items => itemsHeight items + 1
  | .object members => membersHeight members + 1

/-- The largest height of an element. -/
def Value.itemsHeight : List Value → Nat
  | [] => 0
  | v :: rest => max v.height (itemsHeight rest)

/-- The largest height of the value of a member. -/
def Value.membersHeight : List (String × Value) → Nat
  | [] => 0
  | (_, v) :: rest => max v.height (membersHeight rest)

end

/-- Is the number whole, not negative and within 64 bits? -/
def Number.isPlain : Number → Bool
  | .natural n => n < Numeral.naturalBound
  | .negative _ | .real .. => false

mutual

/-- Are all numbers of the value plain? -/
def Value.hasPlainNumbers : Value → Bool
  | .null | .bool _ | .text _ => true
  | .number n => n.isPlain
  | .array items => itemsHavePlainNumbers items
  | .object members => membersHavePlainNumbers members

/-- Are all numbers of the elements plain? -/
def Value.itemsHavePlainNumbers : List Value → Bool
  | [] => true
  | v :: rest => v.hasPlainNumbers && itemsHavePlainNumbers rest

/-- Are all numbers of the members plain? -/
def Value.membersHavePlainNumbers : List (String × Value) → Bool
  | [] => true
  | (_, v) :: rest => v.hasPlainNumbers && membersHavePlainNumbers rest

end

namespace Value

/-- A value is that of its reading, if so many levels are allowed. -/
theorem toValue?_toReading (v : Value) {depth : Nat} (h : v.height ≤ depth) :
    v.toReading.toValue? depth = some v := by
  induction v using Value.inductionOn generalizing depth with
  | null => rfl
  | bool b => rfl
  | number n => rfl
  | text s => rfl
  | array items ih =>
    rw [height] at h
    have hdepth : itemsHeight items ≤ depth - 1 := by omega
    refine Reading.toValue?_array_eq_some_iff.mpr ⟨rfl, by omega, items, ?_, rfl⟩
    clear h
    induction items with
    | nil => rfl
    | cons v rest ih' =>
      obtain ⟨hv, hrest⟩ := List.forall_mem_cons.mp ih
      rw [itemsHeight] at hdepth
      rw [toReadings, Reading.toValues?, hv (by omega), ih' hrest (by omega)]
  | object members ih =>
    rw [height] at h
    have hdepth : membersHeight members ≤ depth - 1 := by omega
    refine Reading.toValue?_object_eq_some_iff.mpr ⟨rfl, by omega, members, ?_, rfl⟩
    clear h
    induction members with
    | nil => rfl
    | cons m rest ih' =>
      obtain ⟨hm, hrest⟩ := List.forall_mem_cons.mp ih
      rw [membersHeight] at hdepth
      have hown : m.2.toReading.toValue? (depth - 1) = some m.2 := hm (by omega)
      simp [toMemberReadings, Reading.toMembers?, hown, ih' hrest (by omega)]

theorem itemsHeight_le {items : List Value} {n : Nat} (h : ∀ v ∈ items, v.height ≤ n) :
    itemsHeight items ≤ n := by
  induction items with
  | nil => exact Nat.zero_le n
  | cons v rest ih =>
    obtain ⟨hv, hrest⟩ := List.forall_mem_cons.mp h
    exact Nat.max_le.mpr ⟨hv, ih hrest⟩

theorem isIntact_toReading (v : Value) : v.toReading.isIntact = true :=
  Reading.isIntact_of_toValue? (v.toValue?_toReading (Nat.le_refl _))

/-! ### Written values -/

theorem lexes_null : Lexes "null".toList [.null] := fun _ _ => rfl

theorem lexes_bool (b : Bool) :
    Lexes (if b then "true".toList else "false".toList) [.bool b] := by
  intro rest _
  cases b <;> rfl

theorem lexes_number {n : Number} (h : n.isPlain = true) :
    Lexes n.render.toList [.number (some n)] := by
  cases n with
  | natural n => exact lexes_natural (of_decide_eq_true h)
  | negative n => cases h
  | real isNegative magnitude => cases h

theorem itemsHavePlainNumbers_iff {items : List Value} :
    itemsHavePlainNumbers items = true ↔ ∀ v ∈ items, v.hasPlainNumbers = true := by
  induction items with
  | nil => simp [itemsHavePlainNumbers]
  | cons v rest ih => simp [itemsHavePlainNumbers, ih]

theorem membersHavePlainNumbers_iff {members : List (String × Value)} :
    membersHavePlainNumbers members = true ↔ ∀ m ∈ members, m.2.hasPlainNumbers = true := by
  induction members with
  | nil => simp [membersHavePlainNumbers]
  | cons m rest ih =>
    obtain ⟨k, v⟩ := m
    simp [membersHavePlainNumbers, ih]

section Layout

/- However the parts of an array or object are laid out: `write` writes a
   value, `space` stands behind a colon, and the other two are what `enclose`
   puts in front of a part and of the end. -/
variable {write : Value → List Char} {gap last space : List Char}
  (hgap : ∀ c ∈ gap, c.isWhitespace = true) (hlast : ∀ c ∈ last, c.isWhitespace = true)

include hgap hlast

theorem lexes_array {items : List Value} (h : ∀ v ∈ items, Lexes (write v) v.toReading.tokens) :
    Lexes (enclose '[' ']' gap last (items.map write)) (Value.array items).toReading.tokens := by
  refine lexes_enclose rfl rfl (by decide) hgap hlast ?_
  induction items with
  | nil => exact .nil
  | cons v rest ih =>
    obtain ⟨hv, hrest⟩ := List.forall_mem_cons.mp h
    exact .cons hv (ih hrest)

theorem lexes_object {members : List (String × Value)}
    (hspace : ∀ c ∈ space, c.isWhitespace = true)
    (h : ∀ m ∈ members, Lexes (write m.2) m.2.toReading.tokens) :
    Lexes (enclose '\x7b' '\x7d' gap last
        (members.map fun m => quote m.1 ++ ':' :: (space ++ write m.2)))
      (Value.object members).toReading.tokens := by
  refine lexes_enclose rfl rfl (by decide) hgap hlast ?_
  induction members with
  | nil => exact .nil
  | cons m rest ih =>
    obtain ⟨hm, hrest⟩ := List.forall_mem_cons.mp h
    exact .cons (lexes_keyed (lexes_quote m.1) (hm.behind_blanks hspace)) (ih hrest)

end Layout

theorem compactItems_eq (items : List Value) : compactItems items = items.map compact := by
  induction items with
  | nil => rfl
  | cons v rest ih => rw [compactItems, ih, List.map_cons]

theorem compactMembers_eq (members : List (String × Value)) :
    compactMembers members = members.map fun m => quote m.1 ++ ':' :: ([] ++ m.2.compact) := by
  induction members with
  | nil => rfl
  | cons m rest ih => rw [compactMembers, ih, List.map_cons, List.nil_append]

/-- The compact text of a value is cut into the tokens of its reading. -/
theorem lexes_compact (v : Value) (h : v.hasPlainNumbers = true) :
    Lexes v.compact v.toReading.tokens := by
  have hblank : ∀ c ∈ ([] : List Char), c.isWhitespace = true := List.forall_mem_nil _
  induction v using Value.inductionOn with
  | null => exact lexes_null
  | bool b => exact lexes_bool b
  | text s => exact lexes_quote s
  | number n => exact lexes_number h
  | array items ih =>
    rw [compact, compactItems_eq]
    exact lexes_array hblank hblank fun v hv => ih v hv (itemsHavePlainNumbers_iff.mp h v hv)
  | object members ih =>
    rw [compact, compactMembers_eq]
    exact lexes_object hblank hblank hblank fun m hm =>
      ih m hm (membersHavePlainNumbers_iff.mp h m hm)

theorem prettyItems_eq (level : Nat) (items : List Value) :
    prettyItems level items = items.map (pretty level) := by
  induction items with
  | nil => rfl
  | cons v rest ih => rw [prettyItems, ih, List.map_cons]

theorem prettyMembers_eq (level : Nat) (members : List (String × Value)) :
    prettyMembers level members =
      members.map fun m => quote m.1 ++ ':' :: ([' '] ++ m.2.pretty level) := by
  induction members with
  | nil => rfl
  | cons m rest ih => rw [prettyMembers, ih, List.map_cons, List.singleton_append]

theorem isWhitespace_of_mem_lineStart {level : Nat} :
    ∀ c ∈ lineStart level, c.isWhitespace = true := by
  intro c hc
  rcases List.mem_cons.mp hc with rfl | hc
  · rfl
  · rw [List.eq_of_mem_replicate hc]
    rfl

/-- So is the text with a line for each element and member, at every level. -/
theorem lexes_pretty (v : Value) (h : v.hasPlainNumbers = true) (level : Nat) :
    Lexes (v.pretty level) v.toReading.tokens := by
  induction v using Value.inductionOn generalizing level with
  | null => exact lexes_null
  | bool b => exact lexes_bool b
  | text s => exact lexes_quote s
  | number n => exact lexes_number h
  | array items ih =>
    rw [pretty, prettyItems_eq]
    exact lexes_array isWhitespace_of_mem_lineStart isWhitespace_of_mem_lineStart fun v hv =>
      ih v hv (itemsHavePlainNumbers_iff.mp h v hv) (level + 1)
  | object members ih =>
    rw [pretty, prettyMembers_eq]
    have hspace : ∀ c ∈ [' '], c.isWhitespace = true := List.forall_mem_singleton.mpr rfl
    exact lexes_object isWhitespace_of_mem_lineStart isWhitespace_of_mem_lineStart hspace
      fun m hm => ih m hm (membersHavePlainNumbers_iff.mp h m hm) (level + 1)

end Value

/-- A text that is cut into the tokens of a faultless reading is read as that
    reading, and nothing is left behind it. -/
theorem read_of_lexes {text : List Char} {r : Reading} (hr : r.isIntact = true)
    (h : Lexes text r.tokens) : read (String.ofList text) = ⟨r, true⟩ := by
  rw [read, String.toList_ofList, tokens_of_lexes h, r.foldl_tokens hr []]
  rfl

/-- A value is read back from its compact text. -/
theorem read_compact (v : Value) (h : v.hasPlainNumbers = true) :
    read (String.ofList v.compact) = ⟨v.toReading, true⟩ :=
  read_of_lexes v.isIntact_toReading (v.lexes_compact h)

/-- A value that is not nested too deeply is what its text with many lines
    consists of. -/
theorem parse?_pretty (v : Value) (h : v.hasPlainNumbers = true) (hdepth : v.height ≤ maxDepth) :
    parse? (String.ofList (v.pretty 0)) = some v := by
  rw [parse?, read_of_lexes v.isIntact_toReading (v.lexes_pretty h 0)]
  exact v.toValue?_toReading hdepth

end SuiteScript.Json
