/-
  SearchQuery.Number.Shortest — the fewest decimal digits that read back as the same binary
  number; a `Decimal` is `digits * 10 ^ exponent`.

  In units of 10 ^ -scale every value of a format (`fine`), and every middle between two
  values, is a whole or half number, so the search is exact: from the coarsest decimal grid
  to the finest, the two neighbours of the value on the grid are tried, and the first grid
  with one that reads back gives the digits; of two, the nearer one; of two equally near,
  the upper or the even one, as `Tie` says.
-/

import SearchQuery.Number.Binary

namespace SearchQuery.Number

inductive Tie where
  | up
  | even
  deriving DecidableEq, Repr

structure Decimal where
  digits : Nat
  exponent : Int
  deriving DecidableEq, Repr

namespace Format

variable (f : Format)

def fine (k : Nat) : Nat := f.value k * Nat.pow 5 f.scale

/-- Whether a decimal number, given as twice its count of units of 10 ^ -scale, is read as
    the magnitude `k`: it lies between the edges, which belong to even magnitudes. -/
def readsBack (k twice : Nat) : Bool :=
  let low := f.edgeBelow k * Nat.pow 5 f.scale
  let high := f.edgeAbove k * Nat.pow 5 f.scale
  if k % 2 = 0 then low ≤ twice && twice ≤ high else low < twice && twice < high

/-- The digits on the grid of 10 ^ n units, when a neighbour on it reads back. -/
def onGrid? (tie : Tie) (k n : Nat) : Option Nat :=
  let low := f.fine k / Nat.pow 10 n
  let excess := f.fine k % Nat.pow 10 n
  match f.readsBack k (2 * (low * Nat.pow 10 n)), f.readsBack k (2 * ((low + 1) * Nat.pow 10 n)) with
  | false, false => none
  | true, false => some low
  | false, true => some (low + 1)
  | true, true =>
    if 2 * excess < Nat.pow 10 n then some low
    else if Nat.pow 10 n < 2 * excess then some (low + 1)
    else match tie with
      | .up => some (low + 1)
      | .even => some (if low % 2 = 0 then low else low + 1)

/-- The digits on the first grid, from 10 ^ n units down, that has some. On the finest grid
    they are the value itself. -/
def searchGrids (tie : Tie) (k : Nat) : Nat → Nat × Nat
  | 0 => (f.fine k, 0)
  | n + 1 =>
    match f.onGrid? tie k (n + 1) with
    | some d => (d, n + 1)
    | none => searchGrids tie k n

def shortest (tie : Tie) (k : Nat) : Decimal :=
  if k = 0 then ⟨0, 0⟩
  else
    let found := f.searchGrids tie k (Nat.toDigits 10 (f.fine k)).length
    ⟨found.1, found.2 - (f.scale : Int)⟩

end Format

end SearchQuery.Number
