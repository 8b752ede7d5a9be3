/-
  SearchQuery.Proofs.Time.Stamp — an instant is read back from its stamp as itself, to the
  nanosecond, in leap seconds and in years of any sign (`read?_stamp`). Each reader takes
  the part it is meant for from in front of what follows.
-/

import SearchQuery.Proofs.Number.Digits
import SearchQuery.Proofs.Time.Calendar
import SearchQuery.Time.Stamp

namespace SearchQuery.Time

open Number Text

/-! ## Padded numbers -/

theorem length_natChars_le {width n : Nat} (pos : 0 < width) (fits : n < Nat.pow 10 width) :
    (natChars n).length ≤ width := (Nat.length_toDigits_le_iff (by decide) pos).2 fits

theorem length_padded {width n : Nat} (pos : 0 < width) (fits : n < Nat.pow 10 width) :
    (padded width n).length = width := by
  have short := length_natChars_le pos fits
  rw [padded, List.length_append, List.length_replicate]
  omega

theorem allDigits_padded (width n : Nat) : AllDigits (padded width n) :=
  allDigits_append (allDigits_zeros _) (allDigits_natChars n)

theorem ofDigitChars_padded (width n : Nat) : Nat.ofDigitChars 10 (padded width n) 0 = n := by
  rw [padded, ofDigitChars_zeros_append, ofDigitChars_natChars]

theorem padded_ne_nil (width n : Nat) : padded width n ≠ [] := by simp [padded, natChars_ne_nil]

/-! ## Parts in front of what follows -/

theorem isWhiteSpace_digit {c : Char} (h : c.isDigit = true) : isWhiteSpace c = false := by
  have code := digit_bounds h
  simp only [isWhiteSpace, whiteSpaceRanges, List.any_cons, List.any_nil, Bool.or_false, Bool.or_eq_false_iff,
    Bool.and_eq_false_iff, decide_eq_false_iff_not]
  omega

theorem skipBlanks_cons {c : Char} (h : isWhiteSpace c = false) (cs : List Char) : skipBlanks (c :: cs) = c :: cs := by
  simp [skipBlanks, h]

theorem skipBlanks_digits {digits : List Char} (ne : digits ≠ []) (all : AllDigits digits) (rest : List Char) :
    skipBlanks (digits ++ rest) = digits ++ rest := by
  cases digits with
  | nil => exact absurd rfl ne
  | cons c cs => exact skipBlanks_cons (isWhiteSpace_digit (all c List.mem_cons_self)) _

/-- A number ends after as many digits as may be taken, or where no digit comes next. -/
theorem takeNumber_digits {most : Nat} {digits rest : List Char} (ne : digits ≠ []) (all : AllDigits digits)
    (fits : digits.length ≤ most) (stop : digits.length = most ∨ NoDigit rest) :
    takeNumber most (digits ++ rest) = some (Nat.ofDigitChars 10 digits 0, rest) := by
  have next : NoDigit (rest.take (most - digits.length)) := by
    rcases stop with full | stop
    · rw [full, Nat.sub_self, List.take_zero]
      exact noDigit_nil
    · intro c hc
      refine stop c ?_
      rw [List.head?_take] at hc
      split at hc
      · cases hc
      · exact hc
  have taken : ((digits ++ rest).take most).takeWhile Char.isDigit = digits := by
    rw [List.take_append, List.take_of_length_le fits, takeWhile_digits all next]
  have some : digits.isEmpty = false := by simpa using ne
  simp [takeNumber, taken, some]

theorem takeField_padded {n : Nat} (fits : n < 100) (rest : List Char) :
    takeField (padded 2 n ++ rest) = some (n, rest) := by
  have length : (padded 2 n).length = 2 := length_padded (by decide) fits
  rw [takeField, skipBlanks_digits (padded_ne_nil 2 n) (allDigits_padded 2 n),
    takeNumber_digits (padded_ne_nil 2 n) (allDigits_padded 2 n) (Nat.le_of_eq length) (.inl length), ofDigitChars_padded]

theorem takeMark_cons {mark : Char} (h : isWhiteSpace mark = false) (rest : List Char) :
    takeMark mark (mark :: rest) = some rest := by
  simp [takeMark, skipBlanks_cons h]

/-- Any number of digits behind a sign. -/
theorem takeNumber_padded (width n : Nat) {rest : List Char} (stop : NoDigit rest) :
    takeNumber (padded width n ++ rest).length (padded width n ++ rest) = some (n, rest) := by
  rw [takeNumber_digits (padded_ne_nil width n) (allDigits_padded width n) (by simp) (.inr stop), ofDigitChars_padded]

theorem takeYear_yearChars (year : Int) {rest : List Char} (stop : NoDigit rest) :
    takeYear (yearChars year ++ rest) = some (year, rest) := by
  unfold yearChars
  by_cases short : 0 ≤ year ∧ year ≤ 9999
  · rw [if_pos short]
    have length : (padded 4 year.toNat).length = 4 := length_padded (by decide) (show year.toNat < 10000 by omega)
    have read : takeNumber 4 (padded 4 year.toNat ++ rest) = _ :=
      takeNumber_digits (padded_ne_nil 4 year.toNat) (allDigits_padded 4 year.toNat) (Nat.le_of_eq length) (.inl length)
    have all := allDigits_padded 4 year.toNat
    have blank := skipBlanks_digits (padded_ne_nil 4 year.toNat) all rest
    rw [ofDigitChars_padded] at read
    unfold takeYear
    rw [blank]
    cases digits : padded 4 year.toNat with
    | nil => exact absurd digits (padded_ne_nil 4 _)
    | cons c cs =>
      rw [digits] at read all
      have digit := all c List.mem_cons_self
      split
      · rename_i begins
        obtain rfl := (List.cons.inj begins).1
        cases digit
      · rename_i begins
        obtain rfl := (List.cons.inj begins).1
        cases digit
      · have back : (year.toNat : Int) = year := by omega
        simp only [read, Option.map_some, back]
  · rw [if_neg short]
    by_cases negative : year < 0
    · rw [if_pos negative]
      unfold takeYear
      rw [List.cons_append, skipBlanks_cons (by decide)]
      have back : -(year.natAbs : Int) = year := by omega
      simp only [takeNumber_padded 4 _ stop, Option.map_some, back]
    · rw [if_neg negative]
      unfold takeYear
      rw [List.cons_append, skipBlanks_cons (by decide)]
      have back : (year.natAbs : Int) = year := by omega
      simp only [takeNumber_padded 4 _ stop, Option.map_some, back]

/-- The digits of a fraction say how small a part of a second they count. -/
theorem takeFraction_padded {width n : Nat} (pos : 0 < width) (most : width ≤ 9) (fits : n < Nat.pow 10 width)
    {rest : List Char} (stop : NoDigit rest) :
    takeFraction ('.' :: padded width n ++ rest) = some (n * Nat.pow 10 (9 - width), rest) := by
  have length := length_padded pos fits
  have read : takeNumber 9 (padded width n ++ rest) = _ :=
    takeNumber_digits (padded_ne_nil width n) (allDigits_padded width n) (by omega) (.inr stop)
  rw [ofDigitChars_padded] at read
  have dropped : rest.dropWhile Char.isDigit = rest := @dropWhile_digits [] rest (fun _ h => by cases h) stop
  simp [takeFraction, read, dropped, length]

theorem takeFraction_fractionChars {nanos : Nat} (fits : nanos < 1000000000) {rest : List Char} (stop : NoDigit rest)
    (mark : rest.head? ≠ some '.') : takeFraction (fractionChars nanos ++ rest) = some (nanos, rest) := by
  unfold fractionChars
  by_cases none : nanos = 0
  · rw [if_pos none, none, List.nil_append]
    unfold takeFraction
    split
    · exact absurd rfl mark
    · rfl
  · rw [if_neg none]
    by_cases millis : nanos % 1000000 = 0
    · rw [if_pos millis, takeFraction_padded (by decide) (by decide) (show nanos / 1000000 < 1000 by omega) stop]
      show some (nanos / 1000000 * 1000000, _) = _
      rw [Nat.div_mul_cancel (Nat.dvd_of_mod_eq_zero millis)]
    · rw [if_neg millis]
      by_cases micros : nanos % 1000 = 0
      · rw [if_pos micros, takeFraction_padded (by decide) (by decide) (show nanos / 1000 < 1000000 by omega) stop]
        show some (nanos / 1000 * 1000, _) = _
        rw [Nat.div_mul_cancel (Nat.dvd_of_mod_eq_zero micros)]
      · rw [if_neg micros, takeFraction_padded (by decide) (by decide) fits stop]
        show some (nanos * 1, _) = _
        rw [Nat.mul_one]

/-! ## The whole stamp -/

theorem isValid_bounds {r : Reading} (h : r.isValid = true) :
    r.date.month < 100 ∧ r.date.day < 100 ∧ r.hour < 100 ∧ r.minute < 100 ∧ r.second < 100 ∧ r.nanos < 1000000000 := by
  have lengths : ∀ leap, ∀ m < 12, (monthLengths leap).getD m 0 ≤ 31 := by decide
  simp only [Reading.isValid, Date.isValid, Bool.and_eq_true, decide_eq_true_eq] at h
  have day := lengths (isLeap r.date.year) (r.date.month - 1) (by omega)
  omega

/-- Date and time are read up to the second, then whatever fraction follows, then `Z`. -/
theorem read?_secondChars {r : Reading} (valid : r.isValid = true) {fraction : List Char} {nanos : Nat}
    (read : takeFraction (fraction ++ ['Z']) = some (nanos, ['Z'])) :
    Instant.read? (String.ofList (r.secondChars ++ fraction ++ ['Z'])) = Reading.instant? { r with nanos := nanos } 0 := by
  obtain ⟨month, day, hour, minute, second, -⟩ := isValid_bounds valid
  have dash : isWhiteSpace '-' = false := by decide
  have colon : isWhiteSpace ':' = false := by decide
  have zone : takeOffset (skipBlanks ['Z']) = some (0, []) := by decide
  rw [Instant.read?, Reading.secondChars, String.toList_ofList]
  simp only [List.append_assoc, List.cons_append, takeYear_yearChars _ (noDigit_cons (c := '-') (by decide) _),
    Option.bind_eq_bind, Option.bind_some, takeMark_cons dash, takeMark_cons colon, takeField_padded month,
    takeField_padded day, takeField_padded hour, takeField_padded minute, takeField_padded second, takeTimeMark,
    read, zone]
  rfl

/-- An instant is read back from its stamp, with every nanosecond. -/
theorem read?_stamp (t : Instant) : Instant.read? t.stamp = some t := by
  have valid := reading_isValid t
  obtain ⟨-, -, -, -, -, nanos⟩ := isValid_bounds valid
  rw [Instant.stamp, read?_secondChars valid (takeFraction_fractionChars nanos (noDigit_cons (by decide) _) (by decide))]
  exact instant?_reading t

end SearchQuery.Time
