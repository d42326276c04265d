/-! # Vocabularies

    A vocabulary is a table of terms.  Each term has one canonical spelling
    and any number of aliases.  A spelling is resolved against the whole
    table twice: first among the canonical spellings, then among all of
    them, so an alias never hides a canonical spelling, wherever the two
    stand in the table. -/

namespace SuiteScript

/-- A term of a vocabulary whose terms are known by ids from `ι`. -/
structure Term (ι : Type) where
  /-- What the term stands for. -/
  id : ι
  /-- The spelling that is written. -/
  canonical : String
  /-- Further spellings that are read. -/
  aliases : List String
  /-- One sentence for a reader. -/
  description : String

/-- A table of terms, in order. -/
abbrev Vocabulary (ι : Type) := List (Term ι)

variable {ι : Type}

/-- Is `name` a spelling of the term? -/
def Term.isSpelled (t : Term ι) (name : String) : Bool :=
  t.canonical == name || t.aliases.contains name

namespace Vocabulary

/-- The id that `name` stands for: of the first term with this canonical
    spelling, else of the first term that has it as an alias. -/
def resolve (table : Vocabulary ι) (name : String) : Option ι :=
  match table.find? (·.canonical == name) with
  | some t => some t.id
  | none => (table.find? (·.isSpelled name)).map (·.id)

/-- The first term with the given id. -/
def lookup [DecidableEq ι] (table : Vocabulary ι) (id : ι) : Option (Term ι) :=
  table.find? (·.id = id)

end Vocabulary

end SuiteScript
