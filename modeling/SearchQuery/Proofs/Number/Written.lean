/-
  SearchQuery.Proofs.Number.Written — the text of a finite binary number, in either style,
  is a numeral that stands for its shortest decimal number, so that the number read back
  from it is the same one, sign and all (`read_written`).
-/

import SearchQuery.Number.Written
import SearchQuery.Proofs.Number.Numeral
import SearchQuery.Proofs.Number.Shortest

namespace SearchQuery.Number

open Numeral

namespace Numeral

def pointChars : Option (List Char) → List Char
  | none => []
  | some digits => '.' :: digits

/-- A text is a numeral that is written without an exponent: a sign if it is negative,
    digits, and perhaps a point with more digits. -/
structure Positional (n : Numeral) (cs : List Char) : Prop where
  chars : cs = signChars n.negative ++ (n.whole ++ pointChars n.fraction)
  whole : IsWholePart n.whole
  fraction : ∀ digits ∈ n.fraction, digits ≠ [] ∧ AllDigits digits
  exponent : n.exponent = none

theorem read?_positional {n : Numeral} {cs : List Char} (h : n.Positional cs) : read? cs = some n := by
  obtain ⟨negative, whole, fraction, exponent⟩ := n
  obtain ⟨rfl, part, digits, rfl⟩ := h
  cases fraction with
  | none => exact read?_append negative part noDigit_nil
  | some cs =>
    obtain ⟨some, all⟩ := digits cs rfl
    show read? (signChars negative ++ (whole ++ '.' :: cs)) = _
    rw [read?_append negative part (noDigit_cons (by decide) cs), readTail?_point some all]
    rfl

end Numeral

namespace Decimal

/-! ## Positional -/

/-- A text stands for this number with this sign, and has no exponent. -/
def PlainlyDenotes (cs : List Char) (negative : Bool) (q : ℚ) : Prop :=
  ∃ n : Numeral, n.Positional cs ∧ n.negative = negative ∧ (n.digits : ℚ) * 10 ^ n.power = q

theorem isWholePart_zeros {n : Nat} (pos : 0 < n) (count : Nat) :
    IsWholePart (natChars n ++ List.replicate count '0') where
  ne_nil := by simp [natChars_ne_nil]
  digits := allDigits_append (allDigits_natChars n) (allDigits_zeros count)
  lead := by
    rw [List.head?_append_of_ne_nil _ (natChars_ne_nil n)]
    intro zero
    exact absurd zero (head?_natChars_ne pos)

theorem plainlyDenotes_whole {wholeTail : List Char} (tail : wholeTail = [] ∨ wholeTail = ['.', '0']) (negative : Bool)
    {d : Decimal} (zero : d.digits = 0 → d.exponent = 0) (whole : 0 ≤ d.exponent) :
    PlainlyDenotes (signChars negative ++ d.plain wholeTail) negative d.value := by
  have part : IsWholePart (natChars d.digits ++ List.replicate d.exponent.toNat '0') := by
    rcases Nat.eq_zero_or_pos d.digits with none | pos
    · rw [zero none, Int.toNat_zero, List.replicate_zero, List.append_nil]
      exact isWholePart_natChars _
    · exact isWholePart_zeros pos _
  have digits : Nat.ofDigitChars 10 (natChars d.digits ++ List.replicate d.exponent.toNat '0') 0 =
      d.digits * 10 ^ d.exponent.toNat := by
    rw [ofDigitChars_append_zeros, ofDigitChars_natChars, Nat.pow_eq]
  have exponent : (10 : ℚ) ^ d.exponent = 10 ^ d.exponent.toNat := by
    rw [← zpow_natCast, Int.toNat_of_nonneg whole]
  rw [plain, if_pos whole, Decimal.value, exponent]
  rcases tail with rfl | rfl
  · refine ⟨⟨negative, _, none, none⟩, ⟨rfl, part, ?_, rfl⟩, rfl, ?_⟩
    · intro cs h
      cases h
    · show ((Nat.ofDigitChars 10 (_ ++ []) 0 : Nat) : ℚ) * 10 ^ (0 - 0 : Int) = _
      rw [List.append_nil, digits]
      simp
  · refine ⟨⟨negative, _, some ['0'], none⟩, ⟨rfl, part, ?_, rfl⟩, rfl, ?_⟩
    · intro cs h
      obtain rfl := Option.some.inj h
      exact ⟨List.cons_ne_nil _ _, allDigits_zeros 1⟩
    · show ((Nat.ofDigitChars 10 (_ ++ List.replicate 1 '0') 0 : Nat) : ℚ) * 10 ^ (0 - 1 : Int) = _
      rw [ofDigitChars_append_zeros, digits, Nat.pow_eq]
      push_cast
      norm_num
      ring

/-- Digits that are padded so that one stands before the point. -/
theorem plainlyDenotes_point (wholeTail : List Char) (negative : Bool) {d : Decimal}
    (zero : d.digits = 0 → d.exponent = 0) (part : ¬ 0 ≤ d.exponent) :
    PlainlyDenotes (signChars negative ++ d.plain wholeTail) negative d.value := by
  have pos : 0 < d.digits := by
    rcases Nat.eq_zero_or_pos d.digits with none | pos
    · exact absurd (zero none).ge part
    · exact pos
  rw [plain, if_neg part]
  simp only
  generalize count : (-d.exponent).toNat = places
  generalize zeros : List.replicate (places + 1 - (natChars d.digits).length) '0' ++ natChars d.digits = padded
  have size : padded.length = (places + 1 - (natChars d.digits).length) + (natChars d.digits).length := by
    rw [← zeros, List.length_append, List.length_replicate]
  have all : AllDigits padded := zeros ▸ allDigits_append (allDigits_zeros _) (allDigits_natChars _)
  have places_pos : 0 < places := by omega
  have whole : IsWholePart (padded.take (padded.length - places)) := by
    refine ⟨?_, fun c hc => all c (List.mem_of_mem_take hc), ?_⟩
    · intro none
      have length := congrArg List.length none
      rw [List.length_take, List.length_nil] at length
      omega
    · rw [List.head?_take, if_neg (by omega), List.length_take]
      intro lead
      by_cases fits : places + 1 ≤ (natChars d.digits).length
      · rw [← zeros, Nat.sub_eq_zero_of_le fits, List.replicate_zero, List.nil_append] at lead
        exact absurd lead (head?_natChars_ne pos)
      · omega
  have length : (padded.drop (padded.length - places)).length = places := by rw [List.length_drop]; omega
  refine ⟨⟨negative, _, some (padded.drop (padded.length - places)), none⟩, ⟨rfl, whole, ?_, rfl⟩, rfl, ?_⟩
  · intro cs h
    obtain rfl := Option.some.inj h
    refine ⟨?_, fun c hc => all c (List.mem_of_mem_drop hc)⟩
    intro none
    rw [none, List.length_nil] at length
    omega
  · show ((Nat.ofDigitChars 10 (_ ++ padded.drop (padded.length - places)) 0 : Nat) : ℚ) *
      10 ^ (0 - (padded.drop (padded.length - places)).length : Int) = _
    rw [List.take_append_drop, length, ← zeros, ofDigitChars_zeros_append, ofDigitChars_natChars, Decimal.value, ← count,
      Int.toNat_of_nonneg (by omega)]
    simp

theorem plainlyDenotes_plain {wholeTail : List Char} (tail : wholeTail = [] ∨ wholeTail = ['.', '0']) (negative : Bool)
    {d : Decimal} (zero : d.digits = 0 → d.exponent = 0) :
    PlainlyDenotes (signChars negative ++ d.plain wholeTail) negative d.value := by
  by_cases whole : 0 ≤ d.exponent
  · exact plainlyDenotes_whole tail negative zero whole
  · exact plainlyDenotes_point wholeTail negative zero whole

/-! ## With an exponent -/

/-- A text is a numeral with this sign that stands for this number. -/
def Denotes (cs : List Char) (negative : Bool) (q : ℚ) : Prop :=
  ∃ n : Numeral, read? cs = some n ∧ n.negative = negative ∧ (n.digits : ℚ) * 10 ^ n.power = q

theorem denotes_of_plainlyDenotes {cs : List Char} {negative : Bool} {q : ℚ} (h : PlainlyDenotes cs negative q) :
    Denotes cs negative q := by
  obtain ⟨n, positional, rest⟩ := h
  exact ⟨n, read?_positional positional, rest⟩

theorem denotes_scientific (negative : Bool) {d : Decimal} (pos : 0 < d.digits) :
    Denotes (signChars negative ++ d.scientific) negative d.value := by
  have part := isWholePart_natChars d.digits
  have value := ofDigitChars_natChars d.digits
  have lead := head?_natChars_ne pos
  unfold scientific Decimal.value leading
  cases digits : natChars d.digits with
  | nil => exact absurd digits (natChars_ne_nil _)
  | cons c cs =>
    rw [digits] at part value lead
    have first : IsWholePart [c] := by
      refine ⟨by simp, fun e he => part.digits e ?_, fun _ => rfl⟩
      obtain rfl := List.mem_singleton.1 he
      exact List.mem_cons_self
    cases cs with
    | nil =>
      have read := read?_append negative first (noDigit_cons (c := 'e') (by decide) (exponentChars (1 - 1 + d.exponent)))
      rw [readTail?_exponent] at read
      refine ⟨_, read, rfl, ?_⟩
      show ((Nat.ofDigitChars 10 [c] 0 : Nat) : ℚ) * 10 ^ (1 - 1 + d.exponent - 0 : Int) = _
      rw [value]
      simp
    | cons c' cs =>
      have rest : AllDigits (c' :: cs) := fun e he => part.digits e (List.mem_cons_of_mem _ he)
      have read := read?_append negative first
        (noDigit_cons (c := '.') (by decide) (c' :: cs ++ 'e' :: exponentChars ((c :: c' :: cs).length - 1 + d.exponent)))
      rw [readTail?_point_exponent (List.cons_ne_nil _ _) rest] at read
      refine ⟨_, read, rfl, ?_⟩
      show ((Nat.ofDigitChars 10 (c :: c' :: cs) 0 : Nat) : ℚ) *
        10 ^ ((c :: c' :: cs).length - 1 + d.exponent - (c' :: cs).length : Int) = _
      rw [value, List.length_cons (a := c)]
      congr 2
      push_cast
      ring

/-- A style that ends whole numbers as JSON or queries do is read back. -/
theorem denotes_written {style : Style} (tail : style.wholeTail = [] ∨ style.wholeTail = ['.', '0']) (negative : Bool)
    {d : Decimal} (zero : d.digits = 0 → d.exponent = 0) :
    Denotes (signChars negative ++ d.written style) negative d.value := by
  have plain := denotes_of_plainlyDenotes (plainlyDenotes_plain tail negative zero)
  unfold written
  cases style.positional with
  | none => exact plain
  | some limits =>
    by_cases small : d.digits = 0 ∨ (limits.1 ≤ d.leading ∧ d.leading < limits.2)
    · simp only [if_pos small]
      exact plain
    · simp only [if_neg small]
      exact denotes_scientific negative (by omega)

end Decimal

/-! ## Binary numbers -/

namespace Binary

variable {f : Format}

/-- The number that is read from a text is settled by what the text stands for. -/
theorem nearest_of_rounds {n : Numeral} {x : Binary f} (finite : x.isFinite = true) (sign : n.negative = x.negative)
    (rounds : f.Rounds (n.digits * 10 ^ n.power) x.magnitude) : n.nearest f = x := by
  obtain ⟨negative, magnitude, inFormat⟩ := x
  have below : magnitude < f.infinity := by simpa [isFinite] using finite
  rw [Numeral.nearest, Binary.ofDecimal]
  simp only [Binary.mk.injEq]
  exact ⟨sign, Format.nearestDecimal_eq below rounds⟩

theorem shortest_zero (tie : Tie) (k : Nat) (zero : (f.shortest tie k).digits = 0) : (f.shortest tie k).exponent = 0 := by
  rcases Nat.eq_zero_or_pos k with rfl | pos
  · rfl
  · have reached := Format.reaches_of_le pos (Format.rounds_shortest (f := f) tie k).1
    rw [Decimal.value, zero, Nat.cast_zero, zero_mul] at reached
    exact absurd reached (Format.not_reaches_one (by positivity))

theorem written_of_isFinite (style : Style) {x : Binary f} (finite : x.isFinite = true) :
    x.written style = signChars x.negative ++ (f.shortest style.tie x.magnitude).written style := by
  rw [written, isNaN_of_isFinite finite, finite]
  rfl

/-- What is written is read back as the same number, and zero with its sign. -/
theorem read_written {style : Style} (tail : style.wholeTail = [] ∨ style.wholeTail = ['.', '0']) {x : Binary f}
    (finite : x.isFinite = true) : (read? (x.written style)).map (Numeral.nearest f) = some x := by
  obtain ⟨n, read, sign, value⟩ :=
    Decimal.denotes_written tail x.negative (shortest_zero style.tie x.magnitude)
  have rounds := Format.rounds_shortest (f := f) style.tie x.magnitude
  rw [← value] at rounds
  rw [written_of_isFinite style finite, read, Option.map_some, nearest_of_rounds finite sign rounds]

end Binary

end SearchQuery.Number
