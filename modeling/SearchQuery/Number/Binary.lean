/-
  SearchQuery.Number.Binary — binary floating-point numbers as data. A number is a sign and
  a magnitude, its place in the ascending list of the non-negative values of its format:
  0 is zero, 1 the smallest positive value, `infinity` the first place that is not finite;
  all places after that are not numbers.

  Every finite value is a whole multiple of 2 ^ -scale, so `value` counts those units and
  every comparison is one of natural numbers.
-/

namespace SearchQuery.Number

structure Format where
  fractionBits : Nat
  exponentBits : Nat
  deriving DecidableEq, Repr

namespace Format

def single : Format := ⟨23, 8⟩
def double : Format := ⟨52, 11⟩

variable (f : Format)

def scale : Nat := Nat.pow 2 (f.exponentBits - 1) - 2 + f.fractionBits

/-- How many magnitudes share an exponent. -/
def binade : Nat := Nat.pow 2 f.fractionBits

/-- How many magnitudes there are, those that are not numbers included. -/
def places : Nat := Nat.pow 2 (f.exponentBits + f.fractionBits)

def infinity : Nat := (Nat.pow 2 f.exponentBits - 1) * f.binade

/-- The value of a magnitude, in units of 2 ^ -scale. -/
def value (k : Nat) : Nat :=
  if k / f.binade = 0 then k else (f.binade + k % f.binade) * Nat.pow 2 (k / f.binade - 1)

/-- Twice the middle between a magnitude's value and the next one's. -/
def edgeAbove (k : Nat) : Nat := f.value k + f.value (k + 1)

/-- Twice the middle between a magnitude's value and the one's before it. -/
def edgeBelow (k : Nat) : Nat := f.value (k - 1) + f.value k

theorem places_pos : 0 < f.places := Nat.two_pow_pos _

end Format

structure Binary (f : Format) where
  negative : Bool
  magnitude : Nat
  inFormat : magnitude < f.places
  deriving DecidableEq, Repr

abbrev Single := Binary .single
abbrev Double := Binary .double

namespace Binary

variable {f : Format}

def isFinite (x : Binary f) : Bool := x.magnitude < f.infinity
def isNaN (x : Binary f) : Bool := f.infinity < x.magnitude

theorem isNaN_of_isFinite {x : Binary f} (finite : x.isFinite = true) : x.isNaN = false := by
  simp only [isFinite, isNaN, decide_eq_true_eq, decide_eq_false_iff_not] at finite ⊢
  omega

/-- The number with the given bits: the sign first, then the magnitude. -/
def ofBits (bits : Nat) : Binary f :=
  ⟨bits / f.places % 2 = 1, bits % f.places, Nat.mod_lt _ f.places_pos⟩

def toBits (x : Binary f) : Nat := (if x.negative then f.places else 0) + x.magnitude

/-- Equality of numbers: the two zeros are equal, and what is not a number differs from itself. -/
def sameNumber (x y : Binary f) : Bool :=
  !x.isNaN && x.magnitude == y.magnitude && (x.negative == y.negative || x.magnitude == 0)

end Binary

end SearchQuery.Number
