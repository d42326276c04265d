import SuiteScript.PlanFile.Field
import SuiteScript.SourceMap

/-! # Source maps as JSON

    A source map is written as an array with an object for each entry, one
    member a line. -/

namespace SuiteScript

open Json (Value)

/-- The object of an entry. -/
def SourceEntry.toValue (e : SourceEntry) : Value := .object [
  ("position", .ofNat e.position),
  ("start_line", .ofNat e.startLine),
  ("end_line", .ofNat e.endLine),
  ("kind", .text e.kind.name),
  ("script_path", .text e.scriptPath),
  ("directory", .text e.place.directory),
  ("depth", .ofNat e.place.depth.toNat),
  ("ordinal", .ofNat e.ordinal.toNat)]

/-- The array of a map. -/
def SourceMap.toValue (m : SourceMap) : Value := .array (m.entries.map SourceEntry.toValue)

/-- A map as text. -/
def SourceMap.render (m : SourceMap) : String := String.ofList (m.toValue.pretty 0)

end SuiteScript
