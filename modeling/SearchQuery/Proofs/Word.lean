/-
  SearchQuery.Proofs.Word — the words of a query: runs of characters in which everything
  reserved but the two wildcards has a backslash in front. `takeWord` reads one; it reads a
  guarded text to its end and stops at the first bare reserved character behind it.

  Whatever the escapers write is guarded (`guarded_escape`, `guarded_escapeWildcard`).
-/

import SearchQuery.Text.Data

namespace SearchQuery.Text

/-- A character that stands in a word without a backslash. -/
def isWordChar (c : Char) : Bool := !isReserved c || c = '*' || c = '?'

/-- Every character is fit for a word or has a backslash in front, which takes it out of
    account. -/
def isGuarded : List Char → Bool
  | [] => true
  | '\\' :: _ :: cs => isGuarded cs
  | c :: cs => isWordChar c && isGuarded cs

/-- The word at the beginning of a text, and the rest. -/
def takeWord : List Char → List Char × List Char
  | [] => ([], [])
  | '\\' :: c :: cs => ('\\' :: c :: (takeWord cs).1, (takeWord cs).2)
  | c :: cs => if isWordChar c then (c :: (takeWord cs).1, (takeWord cs).2) else ([], c :: cs)

theorem guarded_cons {c : Char} (h : c ≠ '\\') (cs : List Char) :
    isGuarded (c :: cs) = (isWordChar c && isGuarded cs) :=
  isGuarded.eq_3 c cs fun _ _ e _ => h e

theorem takeWord_cons {c : Char} (h : c ≠ '\\') (cs : List Char) :
    takeWord (c :: cs) = if isWordChar c then (c :: (takeWord cs).1, (takeWord cs).2) else ([], c :: cs) :=
  takeWord.eq_3 c cs fun _ _ e _ => h e

theorem isWordChar_of_not_reserved {c : Char} (h : isReserved c = false) : isWordChar c = true := by
  simp [isWordChar, h]

theorem ne_backslash_of_isWordChar {c : Char} (h : isWordChar c = true) : c ≠ '\\' := by
  rintro rfl
  exact absurd h (by decide)

/-! ## Reading words -/

/-- Nothing that could belong to a word comes next. -/
def EndsWord (rest : List Char) : Prop := ∀ c ∈ rest.head?, isWordChar c = false ∧ c ≠ '\\'

theorem takeWord_of_end {rest : List Char} (h : EndsWord rest) : takeWord rest = ([], rest) := by
  cases rest with
  | nil => rfl
  | cons c cs =>
    obtain ⟨bare, noEscape⟩ := h c rfl
    rw [takeWord_cons noEscape, bare]; rfl

theorem takeWord_append {w : List Char} (h : isGuarded w = true) {rest : List Char} (stop : EndsWord rest) :
    takeWord (w ++ rest) = (w, rest) := by
  fun_induction isGuarded w with
  | case1 => exact takeWord_of_end stop
  | case2 c cs ih =>
    show ('\\' :: c :: (takeWord (cs ++ rest)).1, (takeWord (cs ++ rest)).2) = _
    rw [ih h]
  | case3 c cs _ ih =>
    rw [Bool.and_eq_true] at h
    rw [List.cons_append, takeWord_cons (ne_backslash_of_isWordChar h.1), h.1, ih h.2]; rfl

theorem guarded_of_not_reserved {cs : List Char} (h : ∀ c ∈ cs, isReserved c = false) : isGuarded cs = true := by
  induction cs with
  | nil => rfl
  | cons c cs ih =>
    have word := isWordChar_of_not_reserved (h c List.mem_cons_self)
    rw [guarded_cons (ne_backslash_of_isWordChar word), word, Bool.true_and]
    exact ih fun d hd => h d (List.mem_cons_of_mem _ hd)

/-- An operator with a space behind it is read as that word. -/
theorem takeWord_operator {o : List Char} (h : o ∈ operators) (cs : List Char) :
    takeWord (o ++ ' ' :: cs) = (o, ' ' :: cs) := by
  have space : EndsWord (' ' :: cs) := fun c hc => by cases hc; decide
  refine takeWord_append ?_ space
  revert o
  decide

/-! ## What the escapers write

  The wildcard escaper puts wildcards back after escaping; `putBack` makes no character
  unfit for a word, and leaves the backslashes alone. -/

theorem isWordChar_putBack {c : Char} (h : isReserved c = false) : isWordChar (putBack c) = true := by
  unfold putBack
  split
  · decide
  · split
    · decide
    · exact isWordChar_of_not_reserved h

theorem guarded_map {f : Char → Char} (backslash : f '\\' = '\\')
    (fit : ∀ c, isReserved c = false → isWordChar (f c) = true) (cs : List Char) :
    isGuarded ((escapeChars cs).map f) = true := by
  induction cs with
  | nil => rfl
  | cons c cs ih =>
    rw [escapeChars, List.flatMap_cons, escapeChar, List.map_append]
    cases h : isReserved c with
    | true =>
      show isGuarded (f '\\' :: f c :: (escapeChars cs).map f) = true
      rw [backslash]; exact ih
    | false =>
      have word := fit c h
      show isGuarded (f c :: (escapeChars cs).map f) = true
      rw [guarded_cons (ne_backslash_of_isWordChar word), word, ih]; rfl

theorem guarded_escape (s : String) : isGuarded (escape s).toList = true := by
  rw [escape, String.toList_ofList, ← List.map_id (escapeChars s.toList)]
  exact guarded_map rfl (fun _ => isWordChar_of_not_reserved) _

theorem guarded_escapeWildcard (s : String) : isGuarded (escapeWildcard s).toList = true := by
  rw [escapeWildcard, String.toList_ofList]
  exact guarded_map rfl (fun _ => isWordChar_putBack) _

end SearchQuery.Text
