/-
  SearchQuery.Number.Nearest — rounding to a binary format. `nearest` finds the magnitude
  whose value is closest to a fraction, by bisection over the ascending list of values; in
  the middle between two values the even magnitude wins, and what lies at or beyond the
  middle after the largest finite value becomes infinity.
-/

import SearchQuery.Number.Binary

namespace SearchQuery.Number

namespace Format

variable (f : Format)

/-- Whether `num / den` is not below the lower edge of the magnitude `k`, the edge itself
    belonging to the even neighbour. -/
def reaches (num den k : Nat) : Bool :=
  if k % 2 = 0 then k == 0 || f.edgeBelow k * den ≤ num * Nat.pow 2 (f.scale + 1)
  else f.edgeBelow k * den < num * Nat.pow 2 (f.scale + 1)

/-- The greatest magnitude below `base + 2 ^ bits` that is reached, given that `base` is. -/
def climb (num den : Nat) : Nat → Nat → Nat
  | 0, base => base
  | bits + 1, base =>
    let k := base + Nat.pow 2 bits
    climb num den bits (if k ≤ f.infinity && f.reaches num den k then k else base)

def nearest (num den : Nat) : Nat := f.climb num den (f.exponentBits + f.fractionBits) 0

/-- The magnitude nearest to `digits * 10 ^ exponent`. -/
def nearestDecimal (digits : Nat) (exponent : Int) : Nat :=
  -- The count of digits settles a number far outside the format; no huge power is computed.
  let leading := (Nat.toDigits 10 digits).length + exponent
  if digits = 0 ∨ leading < -(f.scale + 2 : Nat) then 0
  else if (f.scale + 2 : Nat) < leading then f.infinity
  else if 0 ≤ exponent then f.nearest (digits * Nat.pow 10 exponent.toNat) 1
  else f.nearest digits (Nat.pow 10 (-exponent).toNat)

theorem infinity_lt_places : f.infinity < f.places := by
  have h : 0 < f.binade := Nat.two_pow_pos _
  have h' : 0 < Nat.pow 2 f.exponentBits := Nat.two_pow_pos _
  have e : f.places = Nat.pow 2 f.exponentBits * f.binade := Nat.pow_add ..
  rw [infinity, e]
  exact Nat.mul_lt_mul_of_pos_right (Nat.sub_lt h' Nat.one_pos) h

theorem climb_le (num den : Nat) : ∀ bits base, base ≤ f.infinity → f.climb num den bits base ≤ f.infinity := by
  intro bits
  induction bits with
  | zero => intro base h; exact h
  | succ bits ih =>
    intro base h
    rw [climb]
    apply ih
    split
    · rename_i hk; simp only [Bool.and_eq_true, decide_eq_true_eq] at hk; exact hk.1
    · exact h

theorem nearest_le (num den : Nat) : f.nearest num den ≤ f.infinity := f.climb_le num den _ 0 (Nat.zero_le _)

theorem nearestDecimal_le (digits : Nat) (exponent : Int) : f.nearestDecimal digits exponent ≤ f.infinity := by
  unfold nearestDecimal
  simp only
  split
  · exact Nat.zero_le _
  · split
    · exact Nat.le_refl _
    · split
      · exact f.nearest_le _ _
      · exact f.nearest_le _ _

end Format

def Binary.ofDecimal {f : Format} (negative : Bool) (digits : Nat) (exponent : Int) : Binary f :=
  ⟨negative, f.nearestDecimal digits exponent,
    Nat.lt_of_le_of_lt (f.nearestDecimal_le _ _) f.infinity_lt_places⟩

def Single.widen (x : Single) : Double :=
  if x.isNaN then ⟨x.negative, Format.double.infinity + 1, by decide⟩
  else if x.isFinite then
    ⟨x.negative, Format.double.nearest (Format.single.value x.magnitude) (Nat.pow 2 Format.single.scale),
      Nat.lt_of_le_of_lt (Format.double.nearest_le _ _) Format.double.infinity_lt_places⟩
  else ⟨x.negative, Format.double.infinity, Format.double.infinity_lt_places⟩

end SearchQuery.Number
