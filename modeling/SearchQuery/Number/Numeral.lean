/-
  SearchQuery.Number.Numeral — numbers as they are written: a sign, digits, and perhaps a
  point with more digits and an exponent. `read?` takes the numbers that JSON has; `value?`
  and `nearest` say which integer they stand for, or which number of a binary format is
  nearest to them.
-/

import SearchQuery.Number.Integer
import SearchQuery.Number.Nearest

namespace SearchQuery.Number

/-- The parts of a number; `exponent` is what stands behind the `e`. -/
structure Numeral where
  negative : Bool
  whole : List Char
  fraction : Option (List Char)
  exponent : Option Int
  deriving DecidableEq

namespace Numeral

def isNumberChar (c : Char) : Bool := c.isDigit || ['-', '+', '.', 'e', 'E'].contains c

def readExponent? : List Char → Option Int
  | '+' :: cs => (readNat? cs).map fun n => (n : Int)
  | cs => readInt? cs

def readTail? : List Char → Option (Option (List Char) × Option Int)
  | [] => some (none, none)
  | '.' :: cs =>
    let digits := cs.takeWhile Char.isDigit
    if digits = [] then none
    else match cs.dropWhile Char.isDigit with
      | [] => some (some digits, none)
      | c :: cs => if c = 'e' || c = 'E' then (readExponent? cs).map fun e => (some digits, some e) else none
  | c :: cs => if c = 'e' || c = 'E' then (readExponent? cs).map fun e => (none, some e) else none

/-- A number starts with no needless zero and has digits wherever it has a point or an
    exponent. -/
def read? (cs : List Char) : Option Numeral :=
  let negative := cs.head? = some '-'
  let cs := if negative then cs.drop 1 else cs
  let whole := cs.takeWhile Char.isDigit
  if whole = [] ∨ (whole.head? = some '0' ∧ whole.length ≠ 1) then none
  else (readTail? (cs.dropWhile Char.isDigit)).map fun t => ⟨negative, whole, t.1, t.2⟩

def isWhole (n : Numeral) : Bool := n.fraction.isNone && n.exponent.isNone

def digits (n : Numeral) : Nat := Nat.ofDigitChars 10 (n.whole ++ n.fraction.getD []) 0

/-- The exponent of ten that belongs to `digits`. -/
def power (n : Numeral) : Int := n.exponent.getD 0 - (n.fraction.getD []).length

def value? (n : Numeral) : Option Int :=
  if n.isWhole then some (if n.negative then -(n.digits : Int) else n.digits) else none

def nearest (f : Format) (n : Numeral) : Binary f := .ofDecimal n.negative n.digits n.power

end Numeral

end SearchQuery.Number
