/-
  SearchQuery.Proofs.Figures — what the texts of numbers and dates are made of: letters,
  digits and the marks `-`, `+`, `.` and `:`. So nothing in them means anything to a reader
  of ranges, and the only reserved characters among them are the marks.
-/

import SearchQuery.Proofs.Number.Digits
import SearchQuery.Range.Basic

namespace SearchQuery

open Number Time

def isFigureChar (c : Char) : Bool := c.isAlphanum || ['-', '+', '.', ':'].contains c

def Figures (cs : List Char) : Prop := ∀ c ∈ cs, isFigureChar c = true

theorem figures_nil : Figures [] := fun _ h => by cases h

theorem figures_cons {c : Char} {cs : List Char} (h : isFigureChar c = true) (hs : Figures cs) : Figures (c :: cs) := by
  intro d hd
  rcases List.mem_cons.mp hd with rfl | hd
  · exact h
  · exact hs d hd

theorem figures_append {cs ds : List Char} (h : Figures cs) (hs : Figures ds) : Figures (cs ++ ds) := by
  intro d hd
  rcases List.mem_append.mp hd with hd | hd
  · exact h d hd
  · exact hs d hd

theorem figures_of_subset {cs ds : List Char} (h : Figures ds) (sub : ∀ c ∈ cs, c ∈ ds) : Figures cs :=
  fun c hc => h c (sub c hc)

theorem figures_letters {cs : List Char} (h : cs.all isFigureChar = true) : Figures cs := List.all_eq_true.mp h

/-! ## Numbers -/

theorem figures_digits {cs : List Char} (h : AllDigits cs) : Figures cs := by
  intro c hc
  simp [isFigureChar, Char.isAlphanum, h c hc]

theorem figures_natChars (n : Nat) : Figures (natChars n) := figures_digits (allDigits_natChars n)

theorem figures_zeros (n : Nat) : Figures (List.replicate n '0') := figures_digits (allDigits_zeros n)

theorem figures_intChars (n : Int) : Figures (intChars n) := by
  cases n with
  | ofNat n => exact figures_natChars n
  | negSucc n => exact figures_cons (by decide) (figures_natChars _)

theorem figures_plain (d : Decimal) : Figures (d.plain []) := by
  unfold Decimal.plain
  simp only
  split
  · exact figures_append (figures_append (figures_natChars _) (figures_zeros _)) figures_nil
  · have digits := figures_append (figures_zeros ((-d.exponent).toNat + 1 - (natChars d.digits).length))
      (figures_natChars d.digits)
    refine figures_append (figures_of_subset digits fun c hc => List.mem_of_mem_take hc) (figures_cons (by decide) ?_)
    exact figures_of_subset digits fun c hc => List.mem_of_mem_drop hc

theorem figures_written {f : Format} (x : Binary f) : Figures (x.written .query) := by
  have sign : Figures x.sign := by
    unfold Binary.sign
    split
    · exact figures_cons (by decide) figures_nil
    · exact figures_nil
  unfold Binary.written
  split
  · exact figures_letters (by decide)
  · split
    · exact figures_append sign (figures_plain _)
    · exact figures_append sign (figures_letters (by decide))

/-! ## Dates -/

theorem figures_padded (width n : Nat) : Figures (padded width n) :=
  figures_append (figures_zeros _) (figures_natChars n)

theorem figures_yearChars (year : Int) : Figures (yearChars year) := by
  unfold yearChars
  split
  · exact figures_padded _ _
  · exact figures_cons (by split <;> decide) (figures_padded _ _)

theorem figures_secondChars (r : Reading) : Figures r.secondChars := by
  unfold Reading.secondChars
  simp only [List.append_assoc, List.cons_append]
  exact figures_append (figures_yearChars _) <| figures_cons (by decide) <|
    figures_append (figures_padded _ _) <| figures_cons (by decide) <|
    figures_append (figures_padded _ _) <| figures_cons (by decide) <|
    figures_append (figures_padded _ _) <| figures_cons (by decide) <|
    figures_append (figures_padded _ _) <| figures_cons (by decide) (figures_padded _ _)

theorem figures_instant (t : Instant) : Figures t.text.toList := by
  rw [Instant.text, String.toList_ofList, List.append_assoc]
  exact figures_append (figures_secondChars _) <| figures_cons (by decide) <|
    figures_append (figures_padded _ _) (figures_cons (by decide) figures_nil)

/-! ## Bounds -/

/-- Only a token can be anything else. -/
theorem figures_bound (b : Bound) : Figures b.text.toList ∨ b.text = "*" ∨ ∃ s, b = .token s := by
  cases b with
  | date t => exact .inl (figures_instant t)
  | integer n =>
    left
    show Figures (intText n.val).toList
    rw [intText, String.toList_ofList]
    exact figures_intChars _
  | decimal x =>
    left
    show Figures x.text.toList
    rw [Binary.text, String.toList_ofList]
    exact figures_written x
  | token s => exact .inr (.inr ⟨s, rfl⟩)
  | unbounded => exact .inr (.inl rfl)

end SearchQuery
