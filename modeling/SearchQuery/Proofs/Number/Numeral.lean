/-
  SearchQuery.Proofs.Number.Numeral — how numerals are read. The reader takes the sign, the
  digits before the point and the rest one after the other (`read?_append`), and finds in
  the text of an integer that integer (`value?_intChars`). Whatever it takes is made of the
  characters of numbers (`numberChars_of_read?`).
-/

import Mathlib.Data.List.TakeWhile
import SearchQuery.Number.Numeral
import SearchQuery.Proofs.Number.Digits

namespace SearchQuery.Number

/-! ## Reading the parts of a numeral -/

theorem readNat?_digits {cs : List Char} (ne : cs ≠ []) (all : AllDigits cs) :
    readNat? cs = some (Nat.ofDigitChars 10 cs 0) := by
  have empty : cs.isEmpty = false := by simpa using ne
  have digits : cs.all Char.isDigit = true := List.all_eq_true.2 all
  simp [readNat?, empty, digits]

theorem readNat?_natChars (n : Nat) : readNat? (natChars n) = some n := by
  rw [readNat?_digits (natChars_ne_nil n) (allDigits_natChars n), ofDigitChars_natChars]

/-- A run of digits does not begin with a mark. -/
theorem readInt?_natChars (n : Nat) : readInt? (natChars n) = some (n : Int) := by
  have read := readNat?_natChars n
  cases digits : natChars n with
  | nil => exact absurd digits (natChars_ne_nil n)
  | cons c cs =>
    have digit : c.isDigit = true := allDigits_natChars n c (digits ▸ List.mem_cons_self)
    have mark : c ≠ '-' := by rintro rfl; cases digit
    rw [digits] at read
    rw [readInt?, read]
    · rfl
    · intro _ begins
      exact mark (List.cons.inj begins).1

theorem readInt?_intChars (n : Int) : readInt? (intChars n) = some n := by
  cases n with
  | ofNat n => exact readInt?_natChars n
  | negSucc n =>
    rw [intChars, readInt?, readNat?_natChars]
    rfl

namespace Numeral

/-- An exponent is written with its sign. -/
def exponentChars (e : Int) : List Char := if 0 ≤ e then '+' :: intChars e else intChars e

theorem readExponent?_exponentChars (e : Int) : readExponent? (exponentChars e) = some e := by
  cases e with
  | ofNat n =>
    show readExponent? ('+' :: natChars n) = _
    rw [readExponent?, readNat?_natChars]
    rfl
  | negSucc n =>
    show readExponent? ('-' :: natChars (n + 1)) = _
    rw [readExponent?]
    · exact readInt?_intChars (.negSucc n)
    · intro _ begins
      cases begins

theorem readTail?_point {digits : List Char} (ne : digits ≠ []) (all : AllDigits digits) :
    readTail? ('.' :: digits) = some (some digits, none) := by
  have taken := takeWhile_digits all noDigit_nil
  have dropped := dropWhile_digits all noDigit_nil
  rw [List.append_nil] at taken dropped
  simp only [readTail?, taken, dropped, if_neg ne]

theorem readTail?_exponent (e : Int) : readTail? ('e' :: exponentChars e) = some (none, some e) := by
  show (if ('e' = 'e' || 'e' = 'E') = true then (readExponent? (exponentChars e)).map _ else none) = _
  rw [if_pos (by decide), readExponent?_exponentChars]
  rfl

theorem readTail?_point_exponent {digits : List Char} (ne : digits ≠ []) (all : AllDigits digits) (e : Int) :
    readTail? ('.' :: (digits ++ 'e' :: exponentChars e)) = some (some digits, some e) := by
  have stop : NoDigit ('e' :: exponentChars e) := noDigit_cons (by decide) _
  simp only [readTail?, takeWhile_digits all stop, dropWhile_digits all stop, if_neg ne]
  rw [if_pos (by decide), readExponent?_exponentChars]
  rfl

def signChars (negative : Bool) : List Char := if negative then ['-'] else []

/-- A numeral is read sign first, then the digits before the point, then the rest. -/
theorem read?_append (negative : Bool) {whole tail : List Char} (h : IsWholePart whole) (stop : NoDigit tail) :
    read? (signChars negative ++ (whole ++ tail)) = (readTail? tail).map fun t => ⟨negative, whole, t.1, t.2⟩ := by
  have taken := takeWhile_digits h.digits stop
  have dropped := dropWhile_digits h.digits stop
  have lead : ¬ (whole = [] ∨ (whole.head? = some '0' ∧ whole.length ≠ 1)) := by
    rintro (none | ⟨zero, long⟩)
    · exact h.ne_nil none
    · exact long (h.lead zero)
  cases negative with
  | true => simp only [signChars, read?, if_true, List.cons_append, List.nil_append, List.head?_cons, List.drop_succ_cons,
      List.drop_zero, decide_true, taken, dropped, if_neg lead]
  | false =>
    have mark : (whole ++ tail).head? ≠ some '-' := by
      rw [List.head?_append_of_ne_nil _ h.ne_nil]
      intro begins
      have digit := h.digits '-' (List.mem_of_mem_head? begins)
      cases digit
    simp only [signChars, read?, List.nil_append, mark, decide_false, Bool.false_eq_true, if_false, taken, dropped, if_neg lead]

/-! ## Integers -/

theorem read?_intChars (n : Int) : read? (intChars n) = some ⟨n < 0, natChars n.natAbs, none, none⟩ := by
  have read := read?_append (n < 0) (isWholePart_natChars n.natAbs) noDigit_nil
  rw [List.append_nil] at read
  cases n with
  | ofNat n => exact read
  | negSucc n =>
    rw [decide_eq_true (Int.negSucc_lt_zero n)] at *
    exact read

theorem digits_natChars (negative : Bool) (n : Nat) : digits ⟨negative, natChars n, none, none⟩ = n := by
  show Nat.ofDigitChars 10 (natChars n ++ []) 0 = n
  rw [List.append_nil, ofDigitChars_natChars]

/-- An integer is read back as itself. -/
theorem value?_intChars (n : Int) : (read? (intChars n)).bind value? = some n := by
  rw [read?_intChars, Option.bind_some, value?, if_pos (by rfl), digits_natChars]
  by_cases negative : n < 0
  · rw [if_pos (decide_eq_true negative)]
    congr 1
    omega
  · rw [if_neg (by simpa using negative)]
    congr 1
    omega

/-! ## What a numeral is made of -/

def NumberChars (cs : List Char) : Prop := ∀ c ∈ cs, isNumberChar c = true

theorem numberChars_cons {c : Char} {cs : List Char} (h : isNumberChar c = true) (hs : NumberChars cs) :
    NumberChars (c :: cs) := by
  intro d hd
  rcases List.mem_cons.1 hd with rfl | hd
  · exact h
  · exact hs d hd

theorem numberChars_of_digits {cs : List Char} (h : AllDigits cs) : NumberChars cs := by
  intro c hc
  rw [isNumberChar, h c hc, Bool.true_or]

/-- Digits, and after them what is made of the right characters. -/
theorem numberChars_of_dropWhile {cs : List Char} (h : NumberChars (cs.dropWhile Char.isDigit)) : NumberChars cs := by
  rw [← List.takeWhile_append_dropWhile (p := Char.isDigit) (l := cs)]
  intro c hc
  rcases List.mem_append.1 hc with hc | hc
  · exact numberChars_of_digits (fun d hd => List.mem_takeWhile_imp hd) c hc
  · exact h c hc

theorem numberChars_of_readNat? {α : Type} {cs : List Char} {f : Nat → Option α}
    (h : ((readNat? cs).bind f).isSome = true) : NumberChars cs := by
  unfold readNat? at h
  by_cases bad : (cs.isEmpty || !cs.all Char.isDigit) = true
  · rw [if_pos bad] at h
    cases h
  · have digits : cs.all Char.isDigit = true := by
      simp only [Bool.or_eq_true, Bool.not_eq_true', not_or, Bool.not_eq_false] at bad
      exact bad.2
    exact numberChars_of_digits (List.all_eq_true.1 digits)

theorem numberChars_of_readInt? {cs : List Char} (h : (readInt? cs).isSome = true) : NumberChars cs := by
  unfold readInt? at h
  split at h
  · exact numberChars_cons (by decide) (numberChars_of_readNat? (by simpa using h))
  · exact numberChars_of_readNat? (by simpa using h)

theorem numberChars_of_readExponent? {cs : List Char} (h : (readExponent? cs).isSome = true) : NumberChars cs := by
  unfold readExponent? at h
  split at h
  · exact numberChars_cons (by decide) (numberChars_of_readNat? (by simpa using h))
  · exact numberChars_of_readInt? h

/-- The exponent mark and the exponent. -/
theorem numberChars_of_exponent {α : Type} {f : Int → α} {c : Char} {cs : List Char}
    (h : (if (c = 'e' || c = 'E') = true then (readExponent? cs).map f else none).isSome = true) : NumberChars (c :: cs) := by
  by_cases mark : (c = 'e' || c = 'E') = true
  · rw [if_pos mark, Option.isSome_map] at h
    refine numberChars_cons ?_ (numberChars_of_readExponent? h)
    rcases (by simpa using mark : c = 'e' ∨ c = 'E') with rfl | rfl <;> decide
  · rw [if_neg mark] at h
    cases h

theorem numberChars_of_readTail? {cs : List Char} (h : (readTail? cs).isSome = true) : NumberChars cs := by
  unfold readTail? at h
  split at h
  · exact fun _ hc => by cases hc
  · rename_i cs
    refine numberChars_cons (by decide) (numberChars_of_dropWhile ?_)
    simp only at h
    by_cases none : cs.takeWhile Char.isDigit = []
    · rw [if_pos none] at h
      cases h
    · rw [if_neg none] at h
      cases rest : cs.dropWhile Char.isDigit with
      | nil => exact fun _ hc => by cases hc
      | cons c cs =>
        rw [rest] at h
        exact numberChars_of_exponent h
  · exact numberChars_of_exponent h

/-- A numeral is made of the characters of numbers, and begins with a minus or a digit. -/
theorem numberChars_of_read? {cs : List Char} (h : (read? cs).isSome = true) :
    NumberChars cs ∧ ∃ c ∈ cs.head?, c = '-' ∨ c.isDigit = true := by
  cases cs with
  | nil => cases h
  | cons c cs =>
    unfold read? at h
    by_cases minus : c = '-'
    · subst minus
      simp only [List.head?_cons, decide_true, if_true, List.drop_succ_cons, List.drop_zero] at h
      split at h
      · cases h
      · rw [Option.isSome_map] at h
        exact ⟨numberChars_cons (by decide) (numberChars_of_dropWhile (numberChars_of_readTail? h)), _, rfl, .inl rfl⟩
    · simp only [List.head?_cons, Option.some.injEq, minus, decide_false, if_false] at h
      split at h
      · cases h
      · rename_i some
        rw [Option.isSome_map] at h
        have digit : c.isDigit = true := by
          by_contra other
          exact some (.inl (by simp [other]))
        exact ⟨numberChars_of_dropWhile (numberChars_of_readTail? h), _, rfl, .inr digit⟩

end Numeral

end SearchQuery.Number
