/-
  SearchQuery.Proofs.Number.Widening — a format whose numbers are all numbers of a wider
  one (`Widens`). The wider one has also the middle between two neighbours, so its edges
  around a number of the narrower one lie strictly inside the edges there: what is rounded
  to such a number in the wider format is rounded to it in the narrower one
  (`Widens.rounds`). Singles become doubles in this way (`widen_exact`).
-/

import SearchQuery.Proofs.Number.Rounding

namespace SearchQuery.Number

namespace Format

/-! ## Numbers that a format has -/

theorem value_of_lt (f : Format) {k : Nat} (small : k < 2 * f.binade) : f.value k = k := by
  by_cases first : k < f.binade
  · have value := f.value_mul_add first 0
    rwa [Nat.mul_zero, Nat.zero_add, if_pos rfl] at value
  · have rest : k - f.binade < f.binade := by omega
    have place : f.binade * 1 + (k - f.binade) = k := by omega
    have value := f.value_mul_add rest 1
    rw [place, if_neg Nat.one_ne_zero, Nat.sub_self, Nat.pow_zero, Nat.mul_one] at value
    omega

theorem exists_double (f : Format) (k : Nat) : ∃ j, f.value j = 2 * f.value k := by
  by_cases first : k < f.binade
  · exact ⟨2 * k, by rw [f.value_of_lt (by omega), f.value_of_lt (by omega)]⟩
  · have small := Nat.mod_lt k f.binade_pos
    obtain ⟨q, quotient⟩ : ∃ q, k / f.binade = q + 1 :=
      ⟨k / f.binade - 1, by have := Nat.div_pos (Nat.le_of_not_lt first) f.binade_pos; omega⟩
    have here := f.value_mul_add small (q + 1)
    have next := f.value_mul_add small (q + 2)
    rw [← quotient, Nat.div_add_mod] at here
    refine ⟨f.binade * (q + 2) + k % f.binade, ?_⟩
    rw [next, here, quotient, if_neg (by omega), if_neg (by omega)]
    show _ * 2 ^ (q + 1) = 2 * (_ * 2 ^ q)
    rw [Nat.pow_succ]
    ring

/-- A format has every number whose digits in base two fit into its fraction. -/
theorem exists_value (f : Format) {m : Nat} (fits : m < 2 * f.binade) (p : Nat) : ∃ k, f.value k = m * 2 ^ p := by
  induction p with
  | zero => exact ⟨m, by rw [f.value_of_lt fits, Nat.pow_zero, Nat.mul_one]⟩
  | succ p ih =>
    obtain ⟨k, value⟩ := ih
    obtain ⟨j, double⟩ := f.exists_double k
    exact ⟨j, by rw [double, value, Nat.pow_succ]; ring⟩

theorem value_eq_mul (f : Format) (k : Nat) : ∃ m < 2 * f.binade, f.value k = m * 2 ^ (k / f.binade - 1) := by
  have small := Nat.mod_lt k f.binade_pos
  have value := f.value_mul_add small (k / f.binade)
  rw [Nat.div_add_mod] at value
  by_cases first : k / f.binade = 0
  · exact ⟨k % f.binade, by omega, by rw [value, if_pos first, first, Nat.zero_sub, Nat.pow_zero, Nat.mul_one]⟩
  · exact ⟨f.binade + k % f.binade, by omega, by rw [value, if_neg first]⟩

/-- A number is rounded to itself. -/
theorem rounds_number (f : Format) (k : Nat) : f.Rounds (f.number k) k := by
  have twice : f.number k * 2 ^ (f.scale + 1) = (2 * f.value k : Nat) := by
    rw [number, pow_succ]
    push_cast
    field_simp
  constructor
  · rcases Nat.eq_zero_or_pos k with rfl | pos
    · exact Or.inl rfl
    · have below : f.value (k - 1) < f.value k := f.value_strictMono (by omega)
      refine reaches_of_lt ?_
      rw [twice, edgeBelow]
      exact_mod_cast (show f.value (k - 1) + f.value k < 2 * f.value k by omega)
  · intro reached
    have above : f.value k < f.value (k + 1) := f.value_strictMono (Nat.lt_succ_self k)
    have edge := edge_le_of_reaches k.succ_pos reached
    rw [twice, edgeBelow_succ, edgeAbove, Nat.cast_le] at edge
    omega

/-! ## A format inside a wider one -/

/-- The values of `f` are `s` bits above the last bit of `g`, which has at least one digit more. -/
structure Widens (f g : Format) (s : Nat) : Prop where
  scale : g.scale = f.scale + s
  some : 0 < s
  finer : 2 * f.binade ≤ g.binade
  room : f.value f.infinity * 2 ^ s < g.value g.infinity

theorem single_widens : Widens single double 925 := ⟨by decide, by decide, by decide, by decide +kernel⟩

namespace Widens

variable {f g : Format} {s k wide : Nat}

theorem exists_wide (w : Widens f g s) (finite : k < f.infinity) :
    ∃ wide < g.infinity, g.value wide = f.value k * 2 ^ s := by
  obtain ⟨m, fits, value⟩ := f.value_eq_mul k
  obtain ⟨wide, same⟩ := g.exists_value (show m < 2 * g.binade by have := w.finer; omega) (k / f.binade - 1 + s)
  have exact : g.value wide = f.value k * 2 ^ s := by rw [same, value, Nat.pow_add, Nat.mul_assoc]
  refine ⟨wide, g.value_strictMono.lt_iff_lt.1 ?_, exact⟩
  rw [exact]
  exact lt_trans (Nat.mul_lt_mul_of_pos_right (f.value_strictMono finite) (Nat.two_pow_pos s)) w.room

/-- The wider format has the middle between two neighbours. -/
theorem exists_middle (w : Widens f g s) (k : Nat) : ∃ middle, 2 * g.value middle = f.edgeAbove k * 2 ^ s := by
  obtain ⟨m, fits, value⟩ := f.value_eq_mul k
  obtain ⟨t, rfl⟩ : ∃ t, s = t + 1 := ⟨s - 1, by have := w.some; omega⟩
  obtain ⟨middle, same⟩ := g.exists_value (show 2 * m + 1 < 2 * g.binade by have := w.finer; omega) (k / f.binade - 1 + t)
  refine ⟨middle, ?_⟩
  rw [same, edgeAbove, value_succ, value, Nat.pow_add, Nat.pow_succ]
  ring

theorem edgeAbove_lt (w : Widens f g s) (exact : g.value wide = f.value k * 2 ^ s) :
    g.edgeAbove wide < f.edgeAbove k * 2 ^ s := by
  obtain ⟨middle, same⟩ := w.exists_middle k
  have step : f.value k < f.value (k + 1) := f.value_strictMono (Nat.lt_succ_self k)
  have wider : f.value k * 2 ^ s < f.value (k + 1) * 2 ^ s := Nat.mul_lt_mul_of_pos_right step (Nat.two_pow_pos s)
  rw [edgeAbove, Nat.add_mul] at same
  have before : wide < middle := g.value_strictMono.lt_iff_lt.1 (by omega)
  have next : g.value (wide + 1) ≤ g.value middle := g.value_strictMono.monotone before
  rw [edgeAbove, edgeAbove, Nat.add_mul]
  omega

theorem lt_edgeBelow (w : Widens f g s) (exact : g.value wide = f.value k * 2 ^ s) (pos : 0 < k) :
    f.edgeBelow k * 2 ^ s < g.edgeBelow wide := by
  obtain ⟨middle, same⟩ := w.exists_middle (k - 1)
  rw [edgeAbove, Nat.sub_add_cancel pos, Nat.add_mul] at same
  have step : f.value (k - 1) < f.value k := f.value_strictMono (by omega)
  have wider : f.value (k - 1) * 2 ^ s < f.value k * 2 ^ s := Nat.mul_lt_mul_of_pos_right step (Nat.two_pow_pos s)
  have before : middle < wide := g.value_strictMono.lt_iff_lt.1 (by omega)
  have next : g.value middle ≤ g.value (wide - 1) := g.value_strictMono.monotone (by omega)
  rw [edgeBelow, edgeBelow, Nat.add_mul]
  omega

/-- What is rounded to a number of the wider format that the narrower one has too, is
    rounded to it in the narrower one. -/
theorem rounds (w : Widens f g s) (exact : g.value wide = f.value k * 2 ^ s) {q : ℚ} (h : g.Rounds q wide) :
    f.Rounds q k := by
  have scaled : q * 2 ^ (g.scale + 1) = q * 2 ^ (f.scale + 1) * 2 ^ s := by
    rw [w.scale, mul_assoc, ← pow_add]
    congr 2
    omega
  have unit : (0 : ℚ) < 2 ^ s := by positivity
  constructor
  · rcases Nat.eq_zero_or_pos k with rfl | pos
    · exact Or.inl rfl
    · have edge := w.lt_edgeBelow exact pos
      have wide_pos : 0 < wide := by
        by_contra none
        have zero : g.edgeBelow 0 = 0 := by rw [edgeBelow, Nat.zero_sub, value_zero]
        rw [Nat.eq_zero_of_not_pos none, zero] at edge
        omega
      have above : ((f.edgeBelow k * 2 ^ s : Nat) : ℚ) < q * 2 ^ (f.scale + 1) * 2 ^ s := by
        rw [← scaled]
        exact lt_of_lt_of_le (by exact_mod_cast edge) (edge_le_of_reaches wide_pos h.1)
      push_cast at above
      exact reaches_of_lt (lt_of_mul_lt_mul_right above unit.le)
  · intro reached
    have edge := w.edgeAbove_lt exact
    refine h.2 (reaches_of_lt ?_)
    rw [scaled, edgeBelow_succ]
    calc (g.edgeAbove wide : ℚ) < f.edgeAbove k * 2 ^ s := by exact_mod_cast edge
      _ ≤ q * 2 ^ (f.scale + 1) * 2 ^ s := by
        rw [← edgeBelow_succ]
        exact mul_le_mul_of_nonneg_right (edge_le_of_reaches k.succ_pos reached) unit.le

theorem number_eq (w : Widens f g s) (exact : g.value wide = f.value k * 2 ^ s) : g.number wide = f.number k := by
  rw [number, number, exact, w.scale, pow_add]
  push_cast
  field_simp

/-- A value of the narrower format is found where the wider one has it. -/
theorem nearest_value (w : Widens f g s) (finite : wide < g.infinity) (exact : g.value wide = f.value k * 2 ^ s) :
    g.nearest (f.value k) (Nat.pow 2 f.scale) = wide := by
  refine nearest_eq (Nat.two_pow_pos _) finite ?_
  have same := g.rounds_number wide
  rw [w.number_eq exact, number] at same
  rw [Nat.pow_eq, Nat.cast_pow, Nat.cast_ofNat]
  exact same

end Widens

end Format

/-! ## The double of a single -/

namespace Binary

/-- A finite single becomes the double of the same number, with its sign, and whatever is
    rounded to that double is rounded to the single. -/
theorem widen_exact {x : Single} (finite : x.isFinite = true) :
    x.widen.isFinite = true ∧ x.widen.negative = x.negative ∧
      Format.double.number x.widen.magnitude = Format.single.number x.magnitude ∧
      ∀ q, Format.double.Rounds q x.widen.magnitude → Format.single.Rounds q x.magnitude := by
  have below : x.magnitude < Format.single.infinity := by simpa [isFinite] using finite
  obtain ⟨wide, wide_finite, exact⟩ := Format.single_widens.exists_wide below
  have nearest := Format.single_widens.nearest_value wide_finite exact
  rw [Single.widen, isNaN_of_isFinite finite, finite]
  simp only [isFinite, Bool.false_eq_true, if_false, if_true, nearest, wide_finite, decide_true, true_and]
  exact ⟨Format.single_widens.number_eq exact, fun _ => Format.single_widens.rounds exact⟩

end Binary

end SearchQuery.Number
