import SuiteScript.Step
import Mathlib.Data.List.Find
import Mathlib.Data.List.Nodup

/-! # What a name stands for

    A vocabulary is searched for a name twice, and the first term that is
    found answers.  Here it is said without a search what a name stands for
    in a table (`Vocabulary.Resolves`): the first term that is written like
    it, and only where there is none, the first that has it as an alias.
    Aliases may collide with each other and with canonical spellings, in any
    order; the search answers just that (`Vocabulary.resolve_eq_iff`).

    So the answer for a canonical spelling does not read any alias
    (`Vocabulary.resolve_eq_of_bare_eq`), and where canonical spellings are
    distinct, each leads back to its own term
    (`Vocabulary.resolve_canonical_of_mem`). -/

namespace SuiteScript

variable {ι : Type}

/-! ### Spellings -/

namespace Term

theorem isSpelled_iff {t : Term ι} {name : String} :
    t.isSpelled name = true ↔ name = t.canonical ∨ name ∈ t.aliases := by
  rw [isSpelled, Bool.or_eq_true, beq_iff_eq, List.contains_iff_mem]
  exact or_congr_left eq_comm

/-- The term without its aliases. -/
def bare (t : Term ι) : Term ι := { t with aliases := [] }

end Term

namespace Vocabulary

/-- The term is the first one in the table for which `p` holds. -/
def IsFirst (table : Vocabulary ι) (p : Term ι → Prop) (t : Term ι) : Prop :=
  ∃ front back, table = front ++ t :: back ∧ p t ∧ ∀ earlier ∈ front, ¬ p earlier

/-- What a name stands for in a table. -/
inductive Resolves (table : Vocabulary ι) (name : String) : Option ι → Prop
  /-- The first term that is written like this, whatever aliases there are. -/
  | written {t : Term ι} (h : table.IsFirst (·.canonical = name) t) :
      Resolves table name (some t.id)
  /-- If none is, the first term that has it as an alias. -/
  | aliased {t : Term ι} (hnone : ∀ other ∈ table, other.canonical ≠ name)
      (h : table.IsFirst (name ∈ ·.aliases) t) : Resolves table name (some t.id)
  /-- Nothing, if no term is spelled like this. -/
  | unknown (hnone : ∀ t ∈ table, t.canonical ≠ name) (h : ∀ t ∈ table, name ∉ t.aliases) :
      Resolves table name none

variable {table table' : Vocabulary ι} {name : String} {t : Term ι}

/-! ### The two searches -/

/-- A search ends at the first term. -/
theorem find?_eq_some_iff_isFirst {p : Term ι → Bool} {q : Term ι → Prop}
    (h : ∀ t, p t = true ↔ q t) : table.find? p = some t ↔ table.IsFirst q t := by
  rw [List.find?_eq_some_iff_append, IsFirst, h]
  constructor
  · rintro ⟨ht, front, back, hsplit, hfront⟩
    refine ⟨front, back, hsplit, ht, ?_⟩
    intro earlier hearlier
    simpa [← h] using hfront earlier hearlier
  · rintro ⟨front, back, hsplit, ht, hfront⟩
    refine ⟨ht, front, back, hsplit, ?_⟩
    intro earlier hearlier
    simpa [← h] using hfront earlier hearlier

theorem find?_canonical_eq_some_iff :
    table.find? (·.canonical == name) = some t ↔ table.IsFirst (·.canonical = name) t :=
  find?_eq_some_iff_isFirst fun _ => beq_iff_eq

theorem find?_canonical_eq_none_iff :
    table.find? (·.canonical == name) = none ↔ ∀ t ∈ table, t.canonical ≠ name := by
  simp [List.find?_eq_none]

theorem find?_aliases_eq_some_iff :
    table.find? (·.aliases.contains name) = some t ↔ table.IsFirst (name ∈ ·.aliases) t :=
  find?_eq_some_iff_isFirst fun _ => List.contains_iff_mem

theorem find?_aliases_eq_none_iff :
    table.find? (·.aliases.contains name) = none ↔ ∀ t ∈ table, name ∉ t.aliases := by
  simp [List.find?_eq_none]

/-- The second search is made where no term is written like the name, and
    there it looks at aliases only. -/
theorem resolve_eq_or (table : Vocabulary ι) (name : String) :
    table.resolve name =
      ((table.find? (·.canonical == name)).map (·.id)).or
        ((table.find? (·.aliases.contains name)).map (·.id)) := by
  unfold resolve
  cases hwritten : table.find? (·.canonical == name) with
  | some t => rfl
  | none =>
    have hsame : table.find? (·.isSpelled name) = table.find? (·.aliases.contains name) := by
      apply List.find?_congr
      intro t ht
      simp [Term.isSpelled, find?_canonical_eq_none_iff.mp hwritten t ht]
    rw [hsame]
    rfl

/-- The search finds what the name stands for. -/
theorem resolve_eq_iff {answer : Option ι} :
    table.resolve name = answer ↔ table.Resolves name answer := by
  rw [resolve_eq_or]
  constructor
  · rintro rfl
    cases hwritten : table.find? (·.canonical == name) with
    | some t => exact .written (find?_canonical_eq_some_iff.mp hwritten)
    | none =>
      have hnone := find?_canonical_eq_none_iff.mp hwritten
      cases haliased : table.find? (·.aliases.contains name) with
      | some t => exact .aliased hnone (find?_aliases_eq_some_iff.mp haliased)
      | none => exact .unknown hnone (find?_aliases_eq_none_iff.mp haliased)
  · intro h
    cases h with
    | written h =>
      rw [find?_canonical_eq_some_iff.mpr h]
      rfl
    | aliased hnone h =>
      rw [find?_canonical_eq_none_iff.mpr hnone, find?_aliases_eq_some_iff.mpr h]
      rfl
    | unknown hnone h =>
      rw [find?_canonical_eq_none_iff.mpr hnone, find?_aliases_eq_none_iff.mpr h]
      rfl

/-- Only a term with this spelling is found. -/
theorem exists_term_of_resolve {id : ι} (h : table.resolve name = some id) :
    ∃ t ∈ table, t.id = id ∧ t.isSpelled name = true := by
  cases resolve_eq_iff.mp h with
  | @written t hfirst =>
    obtain ⟨front, back, rfl, hname, _⟩ := hfirst
    exact ⟨t, by simp, rfl, Term.isSpelled_iff.mpr (.inl hname.symm)⟩
  | @aliased t _ hfirst =>
    obtain ⟨front, back, rfl, hname, _⟩ := hfirst
    exact ⟨t, by simp, rfl, Term.isSpelled_iff.mpr (.inr hname)⟩

theorem resolve_eq_none_iff :
    table.resolve name = none ↔ ∀ t ∈ table, t.isSpelled name = false := by
  rw [resolve_eq_or, Option.or_eq_none_iff, Option.map_eq_none_iff, Option.map_eq_none_iff,
    find?_canonical_eq_none_iff, find?_aliases_eq_none_iff, ← forall₂_and]
  refine forall₂_congr fun t _ => ?_
  rw [← Bool.not_eq_true, Term.isSpelled_iff, not_or, ne_comm]

/-! ### Canonical spellings -/

/-- Where no two terms are written alike, each is found by its spelling. -/
theorem resolve_canonical_of_mem (hdistinct : (table.map (·.canonical)).Nodup) (ht : t ∈ table) :
    table.resolve t.canonical = some t.id := by
  obtain ⟨front, back, rfl⟩ := List.append_of_mem ht
  rw [List.map_append, List.map_cons, List.nodup_middle, List.nodup_cons] at hdistinct
  refine resolve_eq_iff.mpr (.written ⟨front, back, rfl, rfl, ?_⟩)
  intro earlier hearlier hsame
  apply hdistinct.1
  rw [← hsame]
  exact List.mem_append_left _ (List.mem_map_of_mem hearlier)

theorem exists_lookup_eq_some [DecidableEq ι] (ht : t ∈ table) :
    ∃ found ∈ table, table.lookup t.id = some found ∧ found.id = t.id := by
  have hsome : (table.lookup t.id).isSome = true := by
    rw [lookup, List.find?_isSome]
    exact ⟨t, ht, by simp⟩
  obtain ⟨found, hfound⟩ := Option.isSome_iff_exists.mp hsome
  exact ⟨found, List.mem_of_find?_eq_some hfound, hfound, by simpa using List.find?_some hfound⟩

/-- The first search reads no alias. -/
theorem find?_canonical_map_bare (table : Vocabulary ι) (name : String) :
    (table.find? (·.canonical == name)).map (·.id) =
      ((table.map Term.bare).find? (·.canonical == name)).map (·.id) := by
  rw [List.find?_map, Option.map_map]
  rfl

theorem resolve_eq_of_bare_eq (h : table'.map Term.bare = table.map Term.bare) (ht : t ∈ table) :
    table'.resolve t.canonical = table.resolve t.canonical := by
  have hsame : (table'.find? (·.canonical == t.canonical)).map (·.id) =
      (table.find? (·.canonical == t.canonical)).map (·.id) := by
    rw [find?_canonical_map_bare, h, ← find?_canonical_map_bare]
  have hsome : (table.find? (·.canonical == t.canonical)).isSome = true := by
    rw [List.find?_isSome]
    exact ⟨t, ht, by simp⟩
  -- so the second search is made in neither table
  obtain ⟨first, hfirst⟩ := Option.isSome_iff_exists.mp hsome
  rw [resolve_eq_or, resolve_eq_or, hsame, hfirst]
  rfl

/-- A name stands for the first term that is written like it, wherever it is
    in the table and whatever aliases stand before it, and else for the first
    term that has it as an alias; it stands for nothing just if it is no
    spelling of any term.

    Hence, if no two terms are written alike, the spelling that is looked up
    for an id leads back to this id, even where terms share ids.  And in a
    table that differs in aliases only, of any number of terms, every
    canonical spelling stands for what it stood for. -/
theorem resolve_written_before_aliased [DecidableEq ι] (table : Vocabulary ι) :
    (∀ name answer, table.resolve name = answer ↔ table.Resolves name answer) ∧
    (∀ name, table.resolve name = none ↔ ∀ t ∈ table, t.isSpelled name = false) ∧
    ((table.map (·.canonical)).Nodup → ∀ id ∈ table.map (·.id),
      ∃ t, table.lookup id = some t ∧ table.resolve t.canonical = some id) ∧
    ∀ table' : Vocabulary ι, table'.map Term.bare = table.map Term.bare →
      ∀ t ∈ table, table'.resolve t.canonical = table.resolve t.canonical := by
  refine ⟨fun _ _ => resolve_eq_iff, fun _ => resolve_eq_none_iff, ?_, ?_⟩
  · intro hdistinct id hid
    obtain ⟨t, ht, rfl⟩ := List.mem_map.mp hid
    obtain ⟨found, hmem, hfound, hsame⟩ := exists_lookup_eq_some ht
    refine ⟨found, hfound, ?_⟩
    rw [resolve_canonical_of_mem hdistinct hmem, hsame]
  · intro table' hbare t ht
    exact resolve_eq_of_bare_eq hbare ht

end Vocabulary

/-- The kinds of a step, each with the spellings of all of them as aliases and
    with one that is new. -/
def StepKind.crowdedVocabulary : Vocabulary StepKind :=
  vocabulary.map fun t =>
    { t with aliases := ["teardown", "test", "fixture", "check"] ++ t.aliases }

/-- Each kind is still read from its own spelling, and what no kind is
    written like stands for the first of them. -/
theorem StepKind.crowdedVocabulary_resolves :
    (vocabulary.map (·.canonical)).Nodup ∧
    (∀ id ∈ vocabulary.map (·.id),
      ∃ t, vocabulary.lookup id = some t ∧ vocabulary.resolve t.canonical = some id) ∧
    crowdedVocabulary.map Term.bare = vocabulary.map Term.bare ∧
    (∀ t ∈ vocabulary, crowdedVocabulary.resolve t.canonical = vocabulary.resolve t.canonical) ∧
    crowdedVocabulary.resolve "check" = some .fixture ∧
    crowdedVocabulary.resolve "Test" = none := by
  have hdistinct : (vocabulary.map (·.canonical)).Nodup := by decide
  have hbare : crowdedVocabulary.map Term.bare = vocabulary.map Term.bare := rfl
  obtain ⟨_, _, hback, hstays⟩ := Vocabulary.resolve_written_before_aliased vocabulary
  obtain ⟨hresolves, hunknown, _, _⟩ :=
    Vocabulary.resolve_written_before_aliased crowdedVocabulary
  refine ⟨hdistinct, hback hdistinct, hbare, hstays crowdedVocabulary hbare, ?_, ?_⟩
  · -- no kind is written like this, and the first one has it as an alias
    refine (hresolves "check" _).mpr (.aliased (by decide) ⟨[], _, rfl, by decide, ?_⟩)
    intro earlier hearlier
    cases hearlier
  · exact (hunknown "Test").mpr (by decide)

end SuiteScript
