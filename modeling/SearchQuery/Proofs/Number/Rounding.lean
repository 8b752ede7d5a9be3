/-
  SearchQuery.Proofs.Number.Rounding — what rounding to a binary format finds. The values
  of the magnitudes ascend, so every fraction lies between the edges of one magnitude, whose
  number is the nearest (`closest_of_rounds`). `nearest_eq` says that the bisection finds
  that one; `nearestDecimal_eq` says the same of a decimal number, however many zeros its
  digits carry.
-/

import Mathlib.Data.Rat.Defs
import Mathlib.Algebra.Order.Field.Power
import Mathlib.Tactic.FieldSimp
import Mathlib.Tactic.Positivity
import Mathlib.Tactic.Ring
import Mathlib.Tactic.Linarith
import SearchQuery.Number.Nearest

namespace SearchQuery.Number.Format

variable (f : Format)

/-! ## Values in order -/

theorem binade_pos : 0 < f.binade := Nat.two_pow_pos _

theorem value_mul_add {r : Nat} (small : r < f.binade) (q : Nat) :
    f.value (f.binade * q + r) = if q = 0 then r else (f.binade + r) * 2 ^ (q - 1) := by
  have quotient : (f.binade * q + r) / f.binade = q := by
    rw [Nat.mul_add_div f.binade_pos, Nat.div_eq_of_lt small, Nat.add_zero]
  have remainder : (f.binade * q + r) % f.binade = r := by rw [Nat.mul_add_mod, Nat.mod_eq_of_lt small]
  rw [value, quotient, remainder, Nat.pow_eq]
  by_cases first : q = 0
  · rw [if_pos first, if_pos first, first, Nat.mul_zero, Nat.zero_add]
  · rw [if_neg first, if_neg first]

/-- The step to the next value is the unit of the binade. -/
theorem value_succ (k : Nat) : f.value (k + 1) = f.value k + 2 ^ (k / f.binade - 1) := by
  have small := Nat.mod_lt k f.binade_pos
  have here := f.value_mul_add small (k / f.binade)
  rw [Nat.div_add_mod] at here
  rw [here]
  by_cases inside : k % f.binade + 1 < f.binade
  · have next := f.value_mul_add inside (k / f.binade)
    rw [← Nat.add_assoc, Nat.div_add_mod] at next
    rw [next]
    by_cases first : k / f.binade = 0
    · simp [first]
    · rw [if_neg first, if_neg first]
      ring
  · have carry : k % f.binade + 1 = f.binade := by omega
    have place : f.binade * (k / f.binade + 1) + 0 = k + 1 := by
      have whole := Nat.div_add_mod k f.binade
      rw [Nat.mul_add]
      omega
    have next := f.value_mul_add f.binade_pos (k / f.binade + 1)
    rw [place] at next
    rw [next, if_neg (Nat.succ_ne_zero _)]
    cases q : k / f.binade with
    | zero => simpa using carry.symm
    | succ p =>
      have double : f.binade + k % f.binade + 1 = 2 * f.binade := by omega
      calc (f.binade + 0) * 2 ^ (p + 1 + 1 - 1) = 2 * f.binade * 2 ^ p := by rw [Nat.add_sub_cancel]; ring
        _ = (f.binade + k % f.binade) * 2 ^ p + 2 ^ p := by rw [← double]; ring

theorem value_strictMono : StrictMono f.value :=
  strictMono_nat_of_lt_succ fun k => by
    rw [value_succ]
    exact Nat.lt_add_of_pos_right (Nat.two_pow_pos _)

theorem value_zero : f.value 0 = 0 := by simp [value]

theorem edgeBelow_succ (k : Nat) : f.edgeBelow (k + 1) = f.edgeAbove k := rfl

theorem edgeBelow_lt_succ {k : Nat} (pos : 0 < k) : f.edgeBelow k < f.edgeBelow (k + 1) := by
  have below : f.value (k - 1) < f.value k := f.value_strictMono (by omega)
  have above : f.value k < f.value (k + 1) := f.value_strictMono (by omega)
  rw [edgeBelow_succ, edgeBelow, edgeAbove]
  omega

/-! ## The fractions that belong to a magnitude -/

/-- A fraction is not below the lower edge of a magnitude; the edge belongs to the even
    neighbour. -/
def Reaches (q : ℚ) (k : Nat) : Prop :=
  if k % 2 = 0 then k = 0 ∨ (f.edgeBelow k : ℚ) ≤ q * 2 ^ (f.scale + 1) else (f.edgeBelow k : ℚ) < q * 2 ^ (f.scale + 1)

/-- A fraction is rounded to a magnitude. -/
def Rounds (q : ℚ) (k : Nat) : Prop := f.Reaches q k ∧ ¬ f.Reaches q (k + 1)

theorem reaches_iff {den : Nat} (pos : 0 < den) (num k : Nat) :
    f.reaches num den k = true ↔ f.Reaches (num / den) k := by
  have scaled : (num / den : ℚ) * 2 ^ (f.scale + 1) = (num * 2 ^ (f.scale + 1) : Nat) / (den : ℚ) := by push_cast; ring
  have pos : (0 : ℚ) < den := by exact_mod_cast pos
  unfold reaches Reaches
  rw [scaled, le_div_iff₀ pos, lt_div_iff₀ pos, Nat.pow_eq]
  norm_cast
  by_cases even : k % 2 = 0 <;> simp [even]

variable {f}

/-- Above the lower edge a magnitude is reached, and from the edge on it may be. -/
theorem reaches_of_lt {q : ℚ} {k : Nat} (h : (f.edgeBelow k : ℚ) < q * 2 ^ (f.scale + 1)) : f.Reaches q k := by
  unfold Reaches
  by_cases even : k % 2 = 0
  · rw [if_pos even]
    exact .inr h.le
  · rw [if_neg even]
    exact h

theorem edge_le_of_reaches {q : ℚ} {k : Nat} (pos : 0 < k) (h : f.Reaches q k) :
    (f.edgeBelow k : ℚ) ≤ q * 2 ^ (f.scale + 1) := by
  unfold Reaches at h
  by_cases even : k % 2 = 0
  · rw [if_pos even] at h
    exact h.resolve_left (Nat.ne_of_gt pos)
  · rw [if_neg even] at h
    exact h.le

theorem reaches_of_succ {q : ℚ} {k : Nat} (h : f.Reaches q (k + 1)) : f.Reaches q k := by
  by_cases first : k = 0
  · subst first
    exact Or.inl rfl
  · have edge : (f.edgeBelow k : ℚ) < f.edgeBelow (k + 1) := by
      exact_mod_cast f.edgeBelow_lt_succ (Nat.pos_of_ne_zero first)
    exact reaches_of_lt (lt_of_lt_of_le edge (edge_le_of_reaches k.succ_pos h))

theorem reaches_of_le {q : ℚ} {j k : Nat} (le : j ≤ k) (h : f.Reaches q k) : f.Reaches q j := by
  induction k, le using Nat.le_induction with
  | base => exact h
  | succ k _ ih => exact ih (reaches_of_succ h)

theorem reaches_iff_le {q : ℚ} {j k : Nat} (h : f.Rounds q k) : f.Reaches q j ↔ j ≤ k := by
  constructor
  · intro reached
    by_contra above
    exact h.2 (reaches_of_le (by omega) reached)
  · intro le
    exact reaches_of_le le h.1

theorem le_edgeAbove_of_rounds {q : ℚ} {k : Nat} (h : f.Rounds q k) : q * 2 ^ (f.scale + 1) ≤ f.edgeAbove k := by
  by_contra above
  exact h.2 (reaches_of_lt (not_le.1 above))

/-! ## The nearest number -/

/-- The number of a magnitude. -/
def number (f : Format) (k : Nat) : ℚ := f.value k / 2 ^ f.scale

/-- No magnitude has a number nearer to the fraction; one with another as near is even. -/
def Closest (f : Format) (q : ℚ) (k : Nat) : Prop :=
  ∀ j, |q - f.number k| ≤ |q - f.number j| ∧ (|q - f.number k| = |q - f.number j| → j ≠ k → k % 2 = 0)

theorem distance_number (q : ℚ) (k : Nat) : |q - f.number k| = |q * 2 ^ (f.scale + 1) - 2 * f.value k| / 2 ^ (f.scale + 1) := by
  have unit : (0 : ℚ) < 2 ^ (f.scale + 1) := by positivity
  have scaled : q - f.number k = (q * 2 ^ (f.scale + 1) - 2 * f.value k) / 2 ^ (f.scale + 1) := by
    rw [number, pow_succ]
    field_simp
  rw [scaled, abs_div, abs_of_pos unit]

/-- What is rounded to a magnitude is nearest to its number. -/
theorem closest_of_rounds {q : ℚ} {k : Nat} (h : f.Rounds q k) : f.Closest q k := by
  intro j
  have unit : (0 : ℚ) < 2 ^ (f.scale + 1) := by positivity
  rw [distance_number, distance_number, div_le_div_iff_of_pos_right unit, div_left_inj' unit.ne']
  have above := le_edgeAbove_of_rounds h
  generalize twice : q * 2 ^ (f.scale + 1) = t at above
  rcases Nat.lt_trichotomy j k with less | rfl | greater
  · have pos : 0 < k := by omega
    have below := edge_le_of_reaches pos h.1
    have step : (f.value j : ℚ) ≤ f.value (k - 1) := by exact_mod_cast f.value_strictMono.monotone (by omega : j ≤ k - 1)
    have apart : (f.value j : ℚ) < f.value k := by exact_mod_cast f.value_strictMono less
    rw [twice, edgeBelow, Nat.cast_add] at below
    have outside : |t - 2 * f.value j| = t - 2 * f.value j := abs_of_nonneg (by linarith)
    rw [outside, abs_le]
    refine ⟨⟨by linarith, by linarith⟩, fun same _ => ?_⟩
    by_contra odd
    have strict := h.1
    rw [Reaches, if_neg odd, twice, edgeBelow, Nat.cast_add] at strict
    rcases abs_choice (t - 2 * f.value k) with inside | inside <;> rw [inside] at same <;> linarith
  · exact ⟨le_refl _, fun _ other => absurd rfl other⟩
  · have step : (f.value (k + 1) : ℚ) ≤ f.value j := by exact_mod_cast f.value_strictMono.monotone greater
    have apart : (f.value k : ℚ) < f.value j := by exact_mod_cast f.value_strictMono greater
    rw [edgeAbove, Nat.cast_add] at above
    have outside : |t - 2 * f.value j| = 2 * f.value j - t := by rw [abs_of_nonpos (by linarith)]; ring
    rw [outside, abs_le]
    refine ⟨⟨by linarith, by linarith⟩, fun same _ => ?_⟩
    by_contra odd
    have strict := h.2
    rw [Reaches, if_pos (by omega), twice, edgeBelow_succ, edgeAbove, Nat.cast_add] at strict
    refine strict (.inr ?_)
    rcases abs_choice (t - 2 * f.value k) with inside | inside <;> rw [inside] at same <;> linarith

/-! ## The bisection -/

/-- The bisection keeps the magnitude that it looks for between its bounds. -/
theorem climb_eq {num den k : Nat} (test : ∀ j, (j ≤ f.infinity && f.reaches num den j) = decide (j ≤ k)) (bits base : Nat)
    (low : base ≤ k) (high : k < base + 2 ^ bits) : f.climb num den bits base = k := by
  induction bits generalizing base with
  | zero => rw [climb]; omega
  | succ bits ih =>
    rw [climb, test, Nat.pow_eq]
    rw [Nat.pow_succ] at high
    by_cases upper : base + 2 ^ bits ≤ k
    · rw [decide_eq_true upper, if_pos rfl]
      exact ih _ upper (by omega)
    · rw [decide_eq_false upper, if_neg Bool.false_ne_true]
      exact ih _ low (by omega)

theorem nearest_eq {num den k : Nat} (pos : 0 < den) (finite : k < f.infinity) (h : f.Rounds (num / den) k) :
    f.nearest num den = k := by
  have places := f.infinity_lt_places
  rw [Format.places, Nat.pow_eq] at places
  refine climb_eq (fun j => ?_) _ 0 (Nat.zero_le k) (by omega)
  rw [Bool.eq_iff_iff, Bool.and_eq_true, reaches_iff f pos, reaches_iff_le h, decide_eq_true_iff, decide_eq_true_iff]
  omega

/-! ## Decimal numbers -/

theorem lt_pow_leading (digits : Nat) (exponent : Int) :
    (digits : ℚ) * 10 ^ exponent < 10 ^ ((Nat.toDigits 10 digits).length + exponent : ℤ) := by
  have fits : digits < 10 ^ (Nat.toDigits 10 digits).length :=
    (Nat.length_toDigits_le_iff (by decide) Nat.length_toDigits_pos).1 (Nat.le_refl _)
  rw [zpow_add₀ (by norm_num), zpow_natCast]
  gcongr
  exact_mod_cast fits

theorem pow_leading_le {digits : Nat} (pos : 0 < digits) (exponent : Int) :
    (10 : ℚ) ^ ((Nat.toDigits 10 digits).length - 1 + exponent : ℤ) ≤ digits * 10 ^ exponent := by
  have some : 0 < (Nat.toDigits 10 digits).length := Nat.length_toDigits_pos
  have fills : 10 ^ ((Nat.toDigits 10 digits).length - 1) ≤ digits := by
    by_cases one : (Nat.toDigits 10 digits).length - 1 = 0
    · rw [one]
      exact pos
    · by_contra below
      have fewer := (Nat.length_toDigits_le_iff (by decide) (by omega)).2 (Nat.lt_of_not_le below)
      omega
  have count : ((Nat.toDigits 10 digits).length - 1 : ℤ) = ((Nat.toDigits 10 digits).length - 1 : Nat) := by omega
  rw [count, zpow_add₀ (by norm_num), zpow_natCast]
  gcongr
  exact_mod_cast fills

variable (f)

theorem edgeBelow_one : f.edgeBelow 1 = 1 := by
  have one := f.value_succ 0
  rw [Nat.zero_div, Nat.zero_sub, value_zero, Nat.zero_add] at one
  rw [edgeBelow, Nat.sub_self, value_zero, one]
  rfl

/-- All finite values are far below what the count of digits settles. -/
theorem value_infinity_le : f.value f.infinity ≤ 2 ^ (2 * f.scale + 2) := by
  have place : f.infinity = f.binade * (2 ^ f.exponentBits - 1) + 0 := by rw [infinity, Nat.mul_comm]; rfl
  rw [place, value_mul_add f f.binade_pos]
  by_cases none : 2 ^ f.exponentBits - 1 = 0
  · rw [if_pos none]
    exact Nat.zero_le _
  · rw [if_neg none, binade, Nat.pow_eq, Nat.add_zero, ← Nat.pow_add]
    refine Nat.pow_le_pow_right (by decide) ?_
    have half : 2 ^ f.exponentBits ≤ 2 * 2 ^ (f.exponentBits - 1) := by
      rw [← Nat.pow_succ']
      exact Nat.pow_le_pow_right (by decide) (by omega)
    rw [scale, Nat.pow_eq]
    omega

variable {f}

theorem not_reaches_one {q : ℚ} (tiny : q < 10 ^ (-(f.scale + 2 : ℤ))) : ¬ f.Reaches q 1 := by
  have power : (2 : ℚ) ^ (f.scale + 1) ≤ 10 ^ (f.scale + 2) :=
    calc (2 : ℚ) ^ (f.scale + 1) ≤ 10 ^ (f.scale + 1) := pow_le_pow_left₀ (by norm_num) (by norm_num) _
      _ ≤ 10 ^ (f.scale + 2) := pow_le_pow_right₀ (by norm_num) (by omega)
  have small : q * 2 ^ (f.scale + 1) ≤ 1 := by
    by_cases negative : q < 0
    · exact (mul_nonpos_of_nonpos_of_nonneg negative.le (by positivity)).trans zero_le_one
    · calc q * 2 ^ (f.scale + 1) ≤ 10 ^ (-(f.scale + 2 : ℤ)) * 10 ^ (f.scale + 2) :=
            mul_le_mul tiny.le power (by positivity) (by positivity)
        _ = 1 := by
          rw [zpow_neg]
          exact inv_mul_cancel₀ (by positivity)
  rw [Reaches, if_neg (by decide), edgeBelow_one, Nat.cast_one]
  exact not_lt.2 small

theorem rounds_zero : f.Rounds 0 0 := ⟨.inl rfl, not_reaches_one (by positivity)⟩

theorem reaches_of_huge {q : ℚ} {k : Nat} (huge : 10 ^ (f.scale + 2) ≤ q) (finite : k < f.infinity) : f.Reaches q (k + 1) := by
  have below : f.value k < f.value f.infinity := f.value_strictMono finite
  have above : f.value (k + 1) ≤ f.value f.infinity := f.value_strictMono.monotone finite
  have bound := f.value_infinity_le
  have edge : f.edgeBelow (k + 1) < 2 ^ (2 * f.scale + 3) := by
    rw [edgeBelow_succ, edgeAbove, Nat.pow_succ]
    omega
  refine reaches_of_lt ?_
  calc (f.edgeBelow (k + 1) : ℚ) < 2 ^ (2 * f.scale + 3) := by exact_mod_cast edge
    _ = 2 ^ (f.scale + 2) * 2 ^ (f.scale + 1) := by rw [← pow_add]; congr 1; omega
    _ ≤ 10 ^ (f.scale + 2) * 2 ^ (f.scale + 1) := by gcongr; norm_num
    _ ≤ q * 2 ^ (f.scale + 1) := by gcongr

/-- Reading a decimal number finds the magnitude that its value is rounded to. -/
theorem nearestDecimal_eq {digits : Nat} {exponent : Int} {k : Nat} (finite : k < f.infinity)
    (h : f.Rounds (digits * 10 ^ exponent) k) : f.nearestDecimal digits exponent = k := by
  unfold nearestDecimal
  simp only
  by_cases small : digits = 0 ∨ (Nat.toDigits 10 digits).length + exponent < -(f.scale + 2 : Nat)
  · rw [if_pos small]
    have tiny : (digits : ℚ) * 10 ^ exponent < 10 ^ (-(f.scale + 2 : ℤ)) := by
      rcases small with rfl | low
      · rw [Nat.cast_zero, zero_mul]
        positivity
      · exact (lt_pow_leading digits exponent).trans_le (zpow_le_zpow_right₀ (by norm_num) (by omega))
    have first := mt (reaches_iff_le h).2 (not_reaches_one tiny)
    omega
  · rw [if_neg small]
    by_cases large : (f.scale + 2 : Nat) < (Nat.toDigits 10 digits).length + exponent
    · have huge : (10 : ℚ) ^ (f.scale + 2) ≤ digits * 10 ^ exponent :=
        calc (10 : ℚ) ^ (f.scale + 2) = 10 ^ ((f.scale + 2 : Nat) : ℤ) := (zpow_natCast _ _).symm
          _ ≤ 10 ^ ((Nat.toDigits 10 digits).length - 1 + exponent : ℤ) := zpow_le_zpow_right₀ (by norm_num) (by omega)
          _ ≤ digits * 10 ^ exponent := pow_leading_le (by omega) exponent
      exact absurd (reaches_of_huge huge finite) h.2
    · rw [if_neg large]
      by_cases whole : 0 ≤ exponent
      · rw [if_pos whole]
        refine nearest_eq Nat.one_pos finite ?_
        rw [Nat.pow_eq, Nat.cast_one, div_one, Nat.cast_mul, Nat.cast_pow, Nat.cast_ofNat, ← zpow_natCast,
          Int.toNat_of_nonneg whole]
        exact h
      · rw [if_neg whole]
        refine nearest_eq (Nat.pow_pos (by decide)) finite ?_
        rw [Nat.pow_eq, Nat.cast_pow, Nat.cast_ofNat, ← zpow_natCast, Int.toNat_of_nonneg (by omega), zpow_neg,
          div_inv_eq_mul]
        exact h

end SearchQuery.Number.Format
