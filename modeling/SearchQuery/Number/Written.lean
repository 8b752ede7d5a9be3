/-
  SearchQuery.Number.Written — the texts of numbers. Binary numbers are written in two
  styles: in queries always positional and without a needless point, in JSON with a point
  for every whole number and an exponent for the very small and the very large.
-/

import SearchQuery.Number.Integer
import SearchQuery.Number.Nearest
import SearchQuery.Number.Shortest

namespace SearchQuery.Number

/-- What a text format decides about a number's shortest digits. -/
structure Style where
  tie : Tie
  /-- What follows the digits of a whole number. -/
  wholeTail : List Char
  /-- The exponents of the leading digit that are written positionally, from the first up
      to but not including the second; all when none are given. -/
  positional : Option (Int × Int)
  deriving DecidableEq, Repr

def Style.query : Style := ⟨.up, [], none⟩
def Style.json : Style := ⟨.even, ['.', '0'], some (-5, 16)⟩

/-- Digits with the point where it belongs, padded with zeros. -/
def Decimal.plain (wholeTail : List Char) (d : Decimal) : List Char :=
  let ds := natChars d.digits
  if 0 ≤ d.exponent then ds ++ List.replicate d.exponent.toNat '0' ++ wholeTail
  else
    let places := (-d.exponent).toNat
    let padded := List.replicate (places + 1 - ds.length) '0' ++ ds
    padded.take (padded.length - places) ++ '.' :: padded.drop (padded.length - places)

/-- The exponent of ten that belongs to the first digit. -/
def Decimal.leading (d : Decimal) : Int := (natChars d.digits).length - 1 + d.exponent

/-- One digit before the point, the others after it, and the exponent with its sign. -/
def Decimal.scientific (d : Decimal) : List Char :=
  let point := match natChars d.digits with
    | [] => []
    | [c] => [c]
    | c :: cs => c :: '.' :: cs
  point ++ 'e' :: (if 0 ≤ d.leading then '+' :: intChars d.leading else intChars d.leading)

def Decimal.written (style : Style) (d : Decimal) : List Char :=
  match style.positional with
  | none => d.plain style.wholeTail
  | some (low, high) =>
    if d.digits = 0 ∨ (low ≤ d.leading ∧ d.leading < high) then d.plain style.wholeTail else d.scientific

namespace Binary

variable {f : Format}

def sign (x : Binary f) : List Char := if x.negative then ['-'] else []

def written (style : Style) (x : Binary f) : List Char :=
  if x.isNaN then ['N', 'a', 'N']
  else if x.isFinite then x.sign ++ (f.shortest style.tie x.magnitude).written style
  else x.sign ++ ['i', 'n', 'f']

/-- The text in a query. -/
def text (x : Binary f) : String := String.ofList (x.written .query)

end Binary

/-! ## Numbers of any kind -/

/-- The numbers that may be handed over where an expression or a bound is wanted. -/
inductive Scalar where
  /-- Any integer that fits into 128 bits with sign. -/
  | integer (n : Int128)
  /-- An integer of 128 bits without sign. -/
  | wide (n : Nat)
  | double (x : Double)
  | single (x : Single)

def Scalar.text : Scalar → String
  | .integer n => intText n.val
  | .wide n => natText n
  | .double x => x.text
  | .single x => x.text

end SearchQuery.Number
