/-
  SearchQuery.Request.Json — requests as JSON. Empty lists and unset values are left out
  when writing, and may be missing when reading.
-/

import SearchQuery.Json.Reading
import SearchQuery.Number.Integer
import SearchQuery.Request.Basic

namespace SearchQuery

open Json

def Order.read (d : Document) : Reading Order := do
  let name ← d.asName
  if name = "asc" then return .asc else if name = "desc" then return .desc else Reading.malformed

def Side.read (d : Document) : Reading Side := do
  let name ← d.asName
  if name = "from" then return .lower else if name = "to" then return .upper else Reading.malformed

namespace Request

/-! ## Writing -/

def listMember (key : String) (items : List Document) : List (String × Document) :=
  if items.isEmpty then [] else [(key, .array items)]

def optionalMember (key : String) : Option Document → List (String × Document)
  | none => []
  | some d => [(key, d)]

def countDocument (n : UInt64) : Document := .number (Number.natChars n.toNat)

def document (r : Request) : Document :=
  .obj (("q", .str r.q) :: listMember "filter_queries" (r.filters.map .str) ++ listMember "fields" (r.fields.map .str) ++
    listMember "sort" (r.sort.map fun s => .array [.str s.1, .str s.2.text]) ++
    optionalMember "start" (r.start.map countDocument) ++ optionalMember "rows" (r.rows.map countDocument) ++
    optionalMember "default_field" (r.defaultField.map .str))

/-! ## Reading -/

def readSortClause : Document → Reading (String × Order)
  | .array [field, order] => do return (← field.asText, ← Order.read order)
  | _ => Reading.malformed

def read (d : Document) : Reading Request := do
  let fields ← Reading.ofOption
    (d.fields? ["q", "filter_queries", "fields", "sort", "start", "rows", "default_field"])
  return {
    q := ← Document.needed fields "q" Document.asText
    filters := ← Document.missingAs fields "filter_queries" [] (Document.asList Document.asText)
    fields := ← Document.missingAs fields "fields" [] (Document.asList Document.asText)
    sort := ← Document.missingAs fields "sort" [] (Document.asList readSortClause)
    start := ← Document.missingAs fields "start" none (Document.asOptional Document.asCount)
    rows := ← Document.missingAs fields "rows" none (Document.asOptional Document.asCount)
    defaultField := ← Document.missingAs fields "default_field" none (Document.asOptional Document.asText) }

end Request

end SearchQuery
