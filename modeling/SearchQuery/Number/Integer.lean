/-
  SearchQuery.Number.Integer — whole numbers: their decimal text, the reader of that text,
  and the signed integers of 128 bits that a range bound holds.
-/

namespace SearchQuery.Number

def natChars (n : Nat) : List Char := Nat.toDigits 10 n

def natText (n : Nat) : String := String.ofList (natChars n)

def intChars : Int → List Char
  | .ofNat n => natChars n
  | .negSucc n => '-' :: natChars (n + 1)

def intText (n : Int) : String := String.ofList (intChars n)

/-- The number that a run of digits stands for; nothing for an empty run. -/
def readNat? (cs : List Char) : Option Nat :=
  if cs.isEmpty || !cs.all Char.isDigit then none else some (Nat.ofDigitChars 10 cs 0)

def readInt? : List Char → Option Int
  | '-' :: cs => (readNat? cs).map fun n => -(n : Int)
  | cs => (readNat? cs).map fun n => (n : Int)

/-- Two to the power of 127. -/
def Int128.limit : Int := 170141183460469231731687303715884105728

/-- An integer of 128 bits with sign. -/
structure Int128 where
  val : Int
  lower : -Int128.limit ≤ val
  upper : val < Int128.limit
  deriving DecidableEq, Repr

def Int128.ofInt? (n : Int) : Option Int128 :=
  if h : -Int128.limit ≤ n ∧ n < Int128.limit then some ⟨n, h.1, h.2⟩ else none

end SearchQuery.Number
