/-
  SearchQuery.Proofs.Number.Digits — runs of decimal digits: where they end, and the number
  that they stand for. A number other than 0 is written without a leading zero. Among runs
  of one length the order of the texts is the order of the numbers (`digits_lt_iff`).
-/

import Mathlib.Data.List.Basic
import SearchQuery.Number.Integer

namespace SearchQuery.Number

def AllDigits (cs : List Char) : Prop := ∀ c ∈ cs, c.isDigit = true

/-- No digit comes next. -/
def NoDigit (cs : List Char) : Prop := ∀ c ∈ cs.head?, c.isDigit = false

theorem noDigit_nil : NoDigit [] := fun _ h => by cases h

theorem noDigit_cons {c : Char} (h : c.isDigit = false) (cs : List Char) : NoDigit (c :: cs) := by
  intro d hd
  obtain rfl := Option.some.inj hd
  exact h

theorem takeWhile_digits {digits rest : List Char} (all : AllDigits digits) (stop : NoDigit rest) :
    (digits ++ rest).takeWhile Char.isDigit = digits := by
  rw [List.takeWhile_append_of_pos all]
  cases rest with
  | nil => simp
  | cons c cs => simp [stop c rfl]

theorem dropWhile_digits {digits rest : List Char} (all : AllDigits digits) (stop : NoDigit rest) :
    (digits ++ rest).dropWhile Char.isDigit = rest := by
  rw [List.dropWhile_append_of_pos all]
  cases rest with
  | nil => rfl
  | cons c cs => simp [stop c rfl]

theorem allDigits_append {cs ds : List Char} (h : AllDigits cs) (h' : AllDigits ds) : AllDigits (cs ++ ds) := by
  intro c hc
  rcases List.mem_append.1 hc with hc | hc
  · exact h c hc
  · exact h' c hc

theorem allDigits_zeros (n : Nat) : AllDigits (List.replicate n '0') := by
  intro c hc
  obtain rfl := (List.mem_replicate.1 hc).2
  decide

theorem allDigits_natChars (n : Nat) : AllDigits (natChars n) :=
  fun _ => Nat.isDigit_of_mem_toDigits (by decide) (by decide)

theorem natChars_ne_nil (n : Nat) : natChars n ≠ [] := Nat.toDigits_ne_nil

theorem ofDigitChars_natChars (n : Nat) : Nat.ofDigitChars 10 (natChars n) 0 = n := Nat.ofDigitChars_ten_toDigits

theorem ofDigitChars_zeros_append (n : Nat) (cs : List Char) :
    Nat.ofDigitChars 10 (List.replicate n '0' ++ cs) 0 = Nat.ofDigitChars 10 cs 0 := by
  rw [Nat.ofDigitChars_append, Nat.ofDigitChars_replicate_zero, Nat.mul_zero]

theorem ofDigitChars_append_zeros (cs : List Char) (n : Nat) :
    Nat.ofDigitChars 10 (cs ++ List.replicate n '0') 0 = Nat.ofDigitChars 10 cs 0 * Nat.pow 10 n := by
  rw [Nat.ofDigitChars_append, Nat.ofDigitChars_replicate_zero, Nat.mul_comm]
  rfl

/-- A number other than 0 is written without a leading zero. -/
theorem head?_natChars_ne {n : Nat} (pos : 0 < n) : (natChars n).head? ≠ some '0' := by
  induction n using Nat.strongRecOn with
  | _ n ih =>
    by_cases short : n < 10
    · have one : ∀ m < 10, 0 < m → Nat.digitChar m ≠ '0' := by decide
      rw [natChars, Nat.toDigits_of_lt_base short]
      simpa using one n short pos
    · rw [natChars, Nat.toDigits_of_base_le (by decide) (by omega),
        List.head?_append_of_ne_nil _ Nat.toDigits_ne_nil]
      exact ih (n / 10) (by omega) (by omega)

/-! ## Digits in order -/

theorem digit_bounds {c : Char} (h : c.isDigit = true) : 48 ≤ c.toNat ∧ c.toNat ≤ 57 := by
  have zero : '0'.val.toNat = 48 := rfl
  have nine : '9'.val.toNat = 57 := rfl
  simp only [Char.isDigit, Bool.and_eq_true, decide_eq_true_eq, ge_iff_le, UInt32.le_iff_toNat_le] at h
  have code : c.toNat = c.val.toNat := rfl
  omega

/-- The first digit counts once for every number that the others can make. -/
theorem ofDigitChars_cons (c : Char) (cs : List Char) :
    Nat.ofDigitChars 10 (c :: cs) 0 = Nat.pow 10 cs.length * (c.toNat - 48) + Nat.ofDigitChars 10 cs 0 := by
  rw [Nat.ofDigitChars_cons, Nat.ofDigitChars_eq_ofDigitChars_zero, Nat.mul_zero, Nat.zero_add]
  rfl

theorem ofDigitChars_lt_pow {cs : List Char} (all : AllDigits cs) : Nat.ofDigitChars 10 cs 0 < Nat.pow 10 cs.length := by
  induction cs with
  | nil => decide
  | cons c cs ih =>
    have digit := digit_bounds (all c List.mem_cons_self)
    have rest := ih fun d hd => all d (List.mem_cons_of_mem c hd)
    have first := Nat.mul_le_mul_left (Nat.pow 10 cs.length) (show c.toNat - 48 ≤ 9 by omega)
    have next : Nat.pow 10 (cs.length + 1) = Nat.pow 10 cs.length * 10 := rfl
    rw [ofDigitChars_cons, List.length_cons, next]
    omega

theorem digits_lt_iff {cs ds : List Char} (length : cs.length = ds.length) (hc : AllDigits cs) (hd : AllDigits ds) :
    cs < ds ↔ Nat.ofDigitChars 10 cs 0 < Nat.ofDigitChars 10 ds 0 := by
  induction cs generalizing ds with
  | nil =>
    obtain rfl := List.length_eq_zero_iff.1 length.symm
    simp
  | cons c cs ih =>
    cases ds with
    | nil => cases length
    | cons d ds =>
      have length := Nat.succ.inj length
      have first := digit_bounds (hc c List.mem_cons_self)
      have first' := digit_bounds (hd d List.mem_cons_self)
      have hc : AllDigits cs := fun e he => hc e (List.mem_cons_of_mem c he)
      have hd : AllDigits ds := fun e he => hd e (List.mem_cons_of_mem d he)
      have small := ofDigitChars_lt_pow hc
      have small' := ofDigitChars_lt_pow hd
      rw [← length] at small'
      rw [List.cons_lt_cons_iff, ih length hc hd, ofDigitChars_cons, ofDigitChars_cons, ← length]
      -- a smaller first digit outweighs whatever the others are
      rcases Nat.lt_trichotomy c.toNat d.toNat with less | same | greater
      · have above := Nat.mul_le_mul_left (Nat.pow 10 cs.length) (show c.toNat - 48 + 1 ≤ d.toNat - 48 by omega)
        rw [Nat.mul_add] at above
        exact iff_of_true (.inl less) (by omega)
      · obtain rfl := Char.toNat_inj.1 same
        simp
      · have above := Nat.mul_le_mul_left (Nat.pow 10 cs.length) (show d.toNat - 48 + 1 ≤ c.toNat - 48 by omega)
        rw [Nat.mul_add] at above
        refine iff_of_false ?_ (by omega)
        rintro (less | ⟨rfl, -⟩)
        · exact Nat.lt_asymm greater less
        · exact Nat.lt_irrefl _ greater

/-! ## In front of a point -/

/-- The digits in front of a point: there are some, and no needless zero leads them. -/
structure IsWholePart (cs : List Char) : Prop where
  ne_nil : cs ≠ []
  digits : AllDigits cs
  lead : cs.head? = some '0' → cs.length = 1

theorem isWholePart_natChars (n : Nat) : IsWholePart (natChars n) where
  ne_nil := natChars_ne_nil n
  digits := allDigits_natChars n
  lead := by
    intro zero
    rcases Nat.eq_zero_or_pos n with rfl | pos
    · rfl
    · exact absurd zero (head?_natChars_ne pos)

end SearchQuery.Number
