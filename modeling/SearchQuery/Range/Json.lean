/-
  SearchQuery.Range.Json — bounds and ranges as JSON. A range that is read is made by
  `Range.make`, once both its bounds are there.
-/

import SearchQuery.Json.Reading
import SearchQuery.Range.Basic

namespace SearchQuery

open Json Number Time

namespace Bound

/-- A number that is not finite has no JSON form; it is written as `null`. -/
def decimalDocument (x : Double) : Document := if x.isFinite then .number (x.written .json) else .null

def document : Bound → Document
  | .date t => .obj [("date", .str t.stamp)]
  | .integer n => .obj [("integer", .number (intChars n.val))]
  | .decimal x => .obj [("decimal", decimalDocument x)]
  | .token s => .obj [("token", .str s)]
  | .unbounded => .str "unbounded"

/-- The bound of one kind. -/
def readKind (kind : String) (d : Document) : Reading Bound :=
  if kind = "date" then do return .date (← Reading.ofOption (Instant.read? (← d.asText)))
  else if kind = "integer" then do return .integer (← Reading.ofOption (Int128.ofInt? (← d.asInteger)))
  else if kind = "decimal" then do return .decimal (← d.asDouble)
  else if kind = "token" then do return .token (← d.asText)
  else if kind = "unbounded" then match d with
    | .null => pure .unbounded
    | _ => Reading.malformed
  else Reading.malformed

def read : Document → Reading Bound
  | .string (some kind) => if kind = "unbounded" then pure .unbounded else Reading.malformed
  | .object [(some kind, d)] => readKind kind d
  | _ => Reading.malformed

end Bound

namespace Range

def document (r : Range) : Document := .obj [("from", r.lower.document), ("to", r.upper.document)]

def read (d : Document) : Reading Range := do
  let fields ← Reading.ofOption (d.fields? ["from", "to"])
  let lower ← Document.needed fields "from" Bound.read
  let upper ← Document.needed fields "to" Bound.read
  Reading.checked (.ofExcept (make lower upper))

end Range

end SearchQuery
