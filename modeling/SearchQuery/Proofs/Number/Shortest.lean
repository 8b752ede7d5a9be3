/-
  SearchQuery.Proofs.Number.Shortest — the decimal number that is written for a magnitude
  is rounded to that magnitude (`rounds_shortest`). The grids are searched for a number that
  passes `readsBack`; that this test is the right one is `rounds_of_readsBack`.
-/

import SearchQuery.Number.Shortest
import SearchQuery.Proofs.Number.Rounding

namespace SearchQuery.Number

/-- The number that decimal digits with an exponent of ten stand for. -/
def Decimal.value (d : Decimal) : ℚ := d.digits * 10 ^ d.exponent

namespace Format

variable {f : Format}

/-- Twice a count of units of 10 ^ -scale, over twice the number of units in one. -/
theorem rounds_of_readsBack {k twice : Nat} (h : f.readsBack k twice = true) :
    f.Rounds (twice / (2 * 10 ^ f.scale)) k := by
  have scaled : (twice / (2 * 10 ^ f.scale) : ℚ) * 2 ^ (f.scale + 1) = twice / (5 ^ f.scale : Nat) := by
    have split : (10 : ℚ) ^ f.scale = 2 ^ f.scale * 5 ^ f.scale := by rw [← mul_pow]; norm_num
    rw [split, pow_succ]
    push_cast
    field_simp
  have five : (0 : ℚ) < (5 ^ f.scale : Nat) := by positivity
  unfold readsBack at h
  simp only [Nat.pow_eq] at h
  unfold Rounds Reaches
  rw [scaled, le_div_iff₀ five, lt_div_iff₀ five, le_div_iff₀ five, lt_div_iff₀ five, edgeBelow_succ]
  norm_cast
  by_cases even : k % 2 = 0
  · have odd : ¬ (k + 1) % 2 = 0 := by omega
    rw [if_pos even, Bool.and_eq_true, decide_eq_true_iff, decide_eq_true_iff] at h
    rw [if_pos even, if_neg odd]
    exact ⟨.inr h.1, Nat.not_lt.2 h.2⟩
  · have even' : (k + 1) % 2 = 0 := by omega
    rw [if_neg even, Bool.and_eq_true, decide_eq_true_iff, decide_eq_true_iff] at h
    rw [if_neg even, if_pos even']
    refine ⟨h.1, ?_⟩
    rintro (none | above)
    · omega
    · exact absurd above (Nat.not_le.2 h.2)

/-! ## The search -/

theorem readsBack_onGrid {tie : Tie} {k n d : Nat} (h : f.onGrid? tie k n = some d) :
    f.readsBack k (2 * (d * 10 ^ n)) = true := by
  unfold onGrid? at h
  simp only [Nat.pow_eq] at h
  cases low : f.readsBack k (2 * (f.fine k / 10 ^ n * 10 ^ n)) <;>
    cases high : f.readsBack k (2 * ((f.fine k / 10 ^ n + 1) * 10 ^ n)) <;> rw [low, high] at h
  · cases h
  · obtain rfl := Option.some.inj h
    exact high
  · obtain rfl := Option.some.inj h
    exact low
  · -- both neighbours read back, so it does not matter which one is taken
    have either : d = f.fine k / 10 ^ n ∨ d = f.fine k / 10 ^ n + 1 := by
      simp only at h
      split at h
      · exact .inl (Option.some.inj h).symm
      · split at h
        · exact .inr (Option.some.inj h).symm
        · cases tie with
          | up => exact .inr (Option.some.inj h).symm
          | even =>
            simp only [Option.some.injEq] at h
            split at h
            · exact .inl h.symm
            · exact .inr h.symm
    rcases either with rfl | rfl
    · exact low
    · exact high

/-- A value lies strictly between its own edges. -/
theorem readsBack_fine {k : Nat} (pos : 0 < k) : f.readsBack k (2 * f.fine k) = true := by
  have below : f.value (k - 1) < f.value k := f.value_strictMono (by omega)
  have above : f.value k < f.value (k + 1) := f.value_strictMono (by omega)
  have five : 0 < 5 ^ f.scale := Nat.pow_pos (by decide)
  have twice : 2 * f.fine k = 2 * f.value k * 5 ^ f.scale := by rw [fine, Nat.pow_eq, Nat.mul_assoc]
  have low : f.edgeBelow k * 5 ^ f.scale < 2 * f.value k * 5 ^ f.scale :=
    Nat.mul_lt_mul_of_pos_right (by rw [edgeBelow]; omega) five
  have high : 2 * f.value k * 5 ^ f.scale < f.edgeAbove k * 5 ^ f.scale :=
    Nat.mul_lt_mul_of_pos_right (by rw [edgeAbove]; omega) five
  unfold readsBack
  simp only [Nat.pow_eq, twice, low, high, low.le, high.le, decide_true, Bool.and_self, ite_self]

theorem readsBack_searchGrids (tie : Tie) {k : Nat} (pos : 0 < k) (n : Nat) :
    f.readsBack k (2 * ((f.searchGrids tie k n).1 * 10 ^ (f.searchGrids tie k n).2)) = true := by
  induction n with
  | zero =>
    rw [searchGrids, Nat.pow_zero, Nat.mul_one]
    exact readsBack_fine pos
  | succ n ih =>
    rw [searchGrids]
    cases found : f.onGrid? tie k (n + 1) with
    | none => exact ih
    | some d => exact readsBack_onGrid found

theorem rounds_shortest (tie : Tie) (k : Nat) : f.Rounds (f.shortest tie k).value k := by
  rcases Nat.eq_zero_or_pos k with rfl | pos
  · rw [shortest, if_pos rfl, Decimal.value, Nat.cast_zero, zero_mul]
    exact rounds_zero
  · have back := rounds_of_readsBack (readsBack_searchGrids (f := f) tie pos (Nat.toDigits 10 (f.fine k)).length)
    rw [shortest, if_neg (by omega), Decimal.value]
    simp only
    rw [zpow_sub₀ (by norm_num), zpow_natCast, zpow_natCast, ← mul_div_assoc]
    rw [Nat.cast_mul, Nat.cast_ofNat, mul_div_mul_left _ _ two_ne_zero] at back
    exact_mod_cast back

end Format

end SearchQuery.Number
