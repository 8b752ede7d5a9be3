/-
  SearchQuery.Range.Basic — bounds, and ranges between two of them, both included.
  `Range.make` is the only way the library makes a range; it checks the lower bound, then
  the upper one.
-/

import SearchQuery.Log
import SearchQuery.Number.Written
import SearchQuery.Time.Stamp

namespace SearchQuery

open Number Time

inductive Bound where
  | date (t : Instant)
  | integer (n : Int128)
  | decimal (x : Double)
  /-- Text for the search engine to understand, such as `NOW-1DAY`. -/
  | token (s : String)
  /-- No bound on this side. -/
  | unbounded
  deriving DecidableEq

namespace Bound

def text : Bound → String
  | .date t => t.text
  | .integer n => intText n.val
  | .decimal x => x.text
  | .token s => s
  | .unbounded => "*"

def isUnbounded : Bound → Bool
  | .unbounded => true
  | _ => false

/-- Bounds given as text: a lone `*` leaves the side open. -/
def ofText (s : String) : Bound := if s = "*" then .unbounded else .token s

/-- Integers stay exact and are refused beyond 128 bits; a single-precision number becomes
    the double of the same value. -/
def ofScalar? : Scalar → Option Bound
  | .integer n => some (.integer n)
  | .wide n => (Int128.ofInt? n).map .integer
  | .double x => some (.decimal x)
  | .single x => some (.decimal x.widen)

/-- Equality of bounds of one kind; decimals are equal as numbers. -/
def same : Bound → Bound → Bool
  | .date t, .date u => t = u
  | .integer m, .integer n => m = n
  | .decimal x, .decimal y => x.sameNumber y
  | .token s, .token t => s = t
  | .unbounded, .unbounded => true
  | _, _ => false

/-- Why a bound cannot stand on a side of a range: nothing would be written, or the
    engine could not read it. -/
def check (side : Side) : Bound → Except Rejection Unit
  | .token s => if s = "" then .error (.emptyBound side) else .ok ()
  | .decimal x => if x.isFinite then .ok () else .error (.invalidBound side x.text)
  | _ => .ok ()

end Bound

/-! ## Ranges -/

structure Range where
  lower : Bound
  upper : Bound
  deriving DecidableEq

namespace Range

def make (lower upper : Bound) : Except Rejection Range := do
  lower.check .lower
  upper.check .upper
  return ⟨lower, upper⟩

def text (r : Range) : String := "[" ++ r.lower.text ++ " TO " ++ r.upper.text ++ "]"

def same (r s : Range) : Bool := r.lower.same s.lower && r.upper.same s.upper

end Range

end SearchQuery
