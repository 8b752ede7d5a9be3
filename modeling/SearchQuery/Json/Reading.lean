/-
  SearchQuery.Json.Reading — values from trees. A reader stops at the first thing in the
  text that it cannot take: something that is no JSON or has another shape (`malformed`),
  or a part that is complete but refused (`rejected`).
-/

import SearchQuery.Json.Depth
import SearchQuery.Json.Parse
import SearchQuery.Log
import SearchQuery.Number.Numeral

namespace SearchQuery.Json

open Number

inductive Fault where
  | malformed
  | rejected (reason : Rejection)
  deriving DecidableEq, Repr

abbrev Reading (α : Type) := Logged Fault α

namespace Reading

variable {α : Type}

def malformed : Reading α := .fail .malformed

def ofOption : Option α → Reading α
  | some a => pure a
  | none => malformed

/-- Takes a value if nothing follows it where nothing may follow. -/
def last {β : Type} (rest : List β) (a : α) : Reading α := if rest.isEmpty then pure a else malformed

def checked (x : Logged Rejection α) : Reading α := x.mapError .rejected

end Reading

open Reading

namespace Document

def asText : Document → Reading String
  | .string (some s) => pure s
  | _ => malformed

def asBool : Document → Reading Bool
  | .boolean b => pure b
  | _ => malformed

def asNumeral : Document → Reading Numeral
  | .number literal => ofOption (Numeral.read? literal)
  | _ => malformed

/-- An integer, written without point and exponent. -/
def asInteger (d : Document) : Reading Int := do ofOption (← d.asNumeral).value?

/-- An integer of 64 bits without sign; not even zero has one. -/
def asCount (d : Document) : Reading UInt64 := do
  let n ← d.asNumeral
  if n.isWhole && !n.negative && n.digits < UInt64.size then return UInt64.ofNat n.digits else malformed

/-- The double nearest to any number that is not too large for one. -/
def asDouble (d : Document) : Reading Double := do
  let x := (← d.asNumeral).nearest .double
  if x.isFinite then return x else malformed

def asOptional {α : Type} (read : Document → Reading α) : Document → Reading (Option α)
  | .null => pure none
  | d => do return some (← read d)

def readItems {α : Type} (read : Document → Reading α) : List Document → Reading (List α)
  | [] => pure []
  | d :: ds => do
    let a ← read d
    return a :: (← readItems read ds)

def asList {α : Type} (read : Document → Reading α) : Document → Reading (List α)
  | .array items => readItems read items
  | _ => malformed

/-- One of several names, alone or as the key of `null`. -/
def asName : Document → Reading String
  | .string (some s) => pure s
  | .object [(some s, .null)] => pure s
  | _ => malformed

/-! ## Records

  A record is an object with its fields in any order, among members that are skipped, or
  an array of its fields in order. -/

/-- The members that have one of the names, each name at most once; what is skipped has to
    be JSON. -/
def namedMembers? (names : List String) : List (Key × Document) → Option (List (String × Document))
  | [] => some []
  | (none, _) :: _ => none
  | (some key, d) :: ms =>
    if names.contains key then
      (namedMembers? names ms).bind fun found =>
        if (found.map (·.1)).contains key then none else some ((key, d) :: found)
    else if d.isWhole then namedMembers? names ms
    else none

def fields? (names : List String) : Document → Option (List (String × Document))
  | .object members => namedMembers? names members
  | .array items => if items.length ≤ names.length then some (names.zip items) else none
  | _ => none

def needed {α : Type} (fields : List (String × Document)) (name : String) (read : Document → Reading α) : Reading α :=
  match fields.lookup name with
  | some d => read d
  | none => malformed

def missingAs {α : Type} (fields : List (String × Document)) (name : String) (a : α) (read : Document → Reading α) :
    Reading α :=
  match fields.lookup name with
  | some d => read d
  | none => pure a

end Document

/-- Reads a whole text, which must not nest too deep where it is read. What follows the
    value is noticed after the value itself. -/
def readText {α : Type} (read : Document → Reading α) (s : String) : Reading α := do
  let parsed := Parsed.ofText s
  let a ← read (parsed.document.clip maxDepth)
  if parsed.atEnd then return a else malformed

end SearchQuery.Json
