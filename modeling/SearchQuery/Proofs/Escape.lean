/-
  SearchQuery.Proofs.Escape — texts with escapes, written and read.

  Escaping is an exact code (`escape_exact`): it is read back as what was escaped, it is
  done piece by piece, and it writes just the texts in which whatever is reserved, and
  nothing else, is behind a backslash.

  The wildcard escaper goes over a text three times. What it writes is what one pass writes
  that leaves the wildcards alone, if the stand-ins are taken for wildcards from the
  start; so the two agree for a text exactly when there is no stand-in in it
  (`escapeWildcard_onePass_iff`).
-/

import Mathlib.Data.List.Basic
import SearchQuery.Proofs.Word

namespace SearchQuery.Text

/-! ## Reading escapes -/

theorem unescapeChars_cons {c : Char} (h : c ≠ '\\') (cs : List Char) :
    unescapeChars (c :: cs) = c :: unescapeChars cs :=
  unescapeChars.eq_4 c cs (fun e _ => h e) fun _ _ e _ => h e

theorem isEscaped_cons {c : Char} (h : c ≠ '\\') (cs : List Char) :
    isEscaped (c :: cs) = (!isReserved c && isEscaped cs) :=
  isEscaped.eq_3 c cs fun _ _ e _ => h e

theorem ne_backslash_of_not_reserved {c : Char} (h : isReserved c = false) : c ≠ '\\' :=
  ne_backslash_of_isWordChar (isWordChar_of_not_reserved h)

/-- The last case of the functions that read escapes is about other characters only. -/
theorem ne_backslash_of_unmatched {c : Char} {cs : List Char} (noEnd : c = '\\' → cs = [] → False)
    (noEscape : ∀ d ds, c = '\\' → cs = d :: ds → False) : c ≠ '\\' := by
  intro backslash
  cases cs with
  | nil => exact noEnd backslash rfl
  | cons d ds => exact noEscape d ds backslash rfl

theorem length_unescapeChars_le (cs : List Char) : (unescapeChars cs).length ≤ cs.length := by
  fun_induction unescapeChars cs <;> grind

/-- Reading escapes leaves a text as it is only if there are none. -/
theorem unescapeChars_eq_self_iff (cs : List Char) : unescapeChars cs = cs ↔ '\\' ∉ cs := by
  fun_induction unescapeChars cs with
  | case1 => simp
  | case2 => simp
  | case3 c cs ih =>
    have shorter := length_unescapeChars_le cs
    refine iff_of_false (fun same => ?_) (by simp)
    have lengths := congrArg List.length same
    simp only [List.length_cons] at lengths
    omega
  | case4 c cs noEnd noEscape ih =>
    have letter := ne_backslash_of_unmatched noEnd noEscape
    simp [ih, Ne.symm letter]

/-! ## Escaping -/

theorem escapeChars_cons (c : Char) (cs : List Char) : escapeChars (c :: cs) = escapeChar c ++ escapeChars cs :=
  List.flatMap_cons

theorem escapeChars_append (cs ds : List Char) : escapeChars (cs ++ ds) = escapeChars cs ++ escapeChars ds :=
  List.flatMap_append

theorem escapeChars_around {c : Char} (h : isReserved c = true) (before after : List Char) :
    escapeChars (before ++ c :: after) = escapeChars before ++ '\\' :: c :: escapeChars after := by
  rw [escapeChars_append, escapeChars_cons, escapeChar, if_pos h]
  rfl

theorem isEscaped_escapeChars (cs : List Char) : isEscaped (escapeChars cs) = true := by
  induction cs with
  | nil => rfl
  | cons c cs ih =>
    rw [escapeChars_cons, escapeChar]
    cases h : isReserved c with
    | true =>
      show (isReserved c && isEscaped (escapeChars cs)) = true
      simp [h, ih]
    | false =>
      show isEscaped (c :: escapeChars cs) = true
      rw [isEscaped_cons (ne_backslash_of_not_reserved h)]
      simp [h, ih]

theorem unescapeChars_escapeChars (cs : List Char) : unescapeChars (escapeChars cs) = cs := by
  induction cs with
  | nil => rfl
  | cons c cs ih =>
    rw [escapeChars_cons, escapeChar]
    cases h : isReserved c with
    | true =>
      show c :: unescapeChars (escapeChars cs) = c :: cs
      rw [ih]
    | false =>
      show unescapeChars (c :: escapeChars cs) = c :: cs
      rw [unescapeChars_cons (ne_backslash_of_not_reserved h), ih]

theorem escapeChars_unescapeChars {cs : List Char} (h : isEscaped cs = true) : escapeChars (unescapeChars cs) = cs := by
  fun_induction isEscaped cs with
  | case1 => rfl
  | case2 c cs ih =>
    rw [Bool.and_eq_true] at h
    show escapeChars (c :: unescapeChars cs) = '\\' :: c :: cs
    rw [escapeChars_cons, escapeChar, if_pos h.1, ih h.2]
    rfl
  | case3 c cs _ ih =>
    rw [Bool.and_eq_true, Bool.not_eq_true'] at h
    have bare : ¬ isReserved c = true := by simp [h.1]
    rw [unescapeChars_cons (ne_backslash_of_not_reserved h.1), escapeChars_cons, escapeChar, if_neg bare, ih h.2]
    rfl

/-- The escaped form of a text is read back as the text. The texts that are the escaped
    form of anything are those in which just what is reserved is behind a backslash, and
    they are the ones that escaping restores after they have been read. And the escaped form
    of two texts together is made of theirs. -/
theorem escape_exact (s t x : String) :
    unescape (escape s) = s ∧ ((∃ r, escape r = x) ↔ isEscaped x.toList = true) ∧
      (isEscaped x.toList = true ↔ escape (unescape x) = x) ∧ escape (s ++ t) = escape s ++ escape t := by
  have written (r : String) : isEscaped (escape r).toList = true := by
    rw [escape, String.toList_ofList]
    exact isEscaped_escapeChars r.toList
  have restored (h : isEscaped x.toList = true) : escape (unescape x) = x := by
    rw [escape, unescape, String.toList_ofList, escapeChars_unescapeChars h, String.ofList_toList]
  refine ⟨?_, ⟨?_, fun h => ⟨unescape x, restored h⟩⟩, ⟨restored, fun h => ?_⟩, ?_⟩
  · rw [unescape, escape, String.toList_ofList, unescapeChars_escapeChars, String.ofList_toList]
  · rintro ⟨r, rfl⟩
    exact written r
  · rw [← h]
    exact written (unescape x)
  · rw [escape, String.toList_append, escapeChars_append, String.ofList_append]
    rfl

/-- Of two backslashes in front of a space the second is escaped and the space is not. -/
example : escape "a\\ b" = "a\\\\\\ b" ∧ isEscaped "a\\\\\\ b".toList = true ∧ isEscaped "a\\\\ b".toList = false := by
  decide

/-! ## Wildcards -/

def isWildcard (c : Char) : Bool := c = '*' || c = '?'

/-- What one pass writes for a character: a wildcard stays as it is. -/
def escapeOther (c : Char) : List Char := if isWildcard c then [c] else escapeChar c

def standIns : List Char := ['\uFDD0', '\uFDD1']

theorem standIn_of_not_isWildcard {c : Char} (h : isWildcard c = false) : standIn c = c := by
  simp only [isWildcard, Bool.or_eq_false_iff, decide_eq_false_iff_not] at h
  rw [standIn, if_neg h.1, if_neg h.2]

theorem putBack_of_not_mem {c : Char} (h : c ∉ standIns) : putBack c = c := by
  simp only [standIns, List.mem_cons, List.not_mem_nil, or_false, not_or] at h
  rw [putBack, if_neg h.1, if_neg h.2]

/-- The three passes on a single character. -/
theorem map_putBack_escapeChar_standIn (c : Char) : (escapeChar (standIn c)).map putBack = escapeOther (putBack c) := by
  by_cases wildcard : c ∈ ['*', '?']
  · rcases List.mem_pair.1 wildcard with rfl | rfl <;> decide
  · by_cases inside : c ∈ standIns
    · rcases List.mem_pair.1 inside with rfl | rfl <;> decide
    · have other : isWildcard c = false := by simpa [isWildcard] using wildcard
      rw [standIn_of_not_isWildcard other, putBack_of_not_mem inside, escapeOther, other, escapeChar]
      cases isReserved c with
      | true =>
        show ['\\', putBack c] = ['\\', c]
        rw [putBack_of_not_mem inside]
      | false =>
        show [putBack c] = [c]
        rw [putBack_of_not_mem inside]

theorem escapeWildcardChars_eq (cs : List Char) : escapeWildcardChars cs = (cs.map putBack).flatMap escapeOther := by
  rw [escapeWildcardChars, escapeChars, List.map_flatMap, List.flatMap_map, List.flatMap_map]
  simp only [map_putBack_escapeChar_standIn]

/-- A stand-in is written as one character, whether or not it is taken for a wildcard. -/
theorem escapeOther_putBack_eq_iff (c : Char) :
    (escapeOther (putBack c)).length = (escapeOther c).length ∧
      (escapeOther (putBack c) = escapeOther c ↔ c ∉ standIns) := by
  by_cases inside : c ∈ standIns
  · rcases List.mem_pair.1 inside with rfl | rfl <;> decide
  · rw [putBack_of_not_mem inside]
    simp [inside]

theorem flatMap_putBack_eq_iff (cs : List Char) :
    (cs.map putBack).flatMap escapeOther = cs.flatMap escapeOther ↔ ∀ c ∈ cs, c ∉ standIns := by
  induction cs with
  | nil => simp
  | cons c cs ih =>
    obtain ⟨lengths, here⟩ := escapeOther_putBack_eq_iff c
    rw [List.map_cons, List.flatMap_cons, List.flatMap_cons, List.forall_mem_cons, ← here, ← ih]
    exact List.append_eq_append_iff_of_size_eq_left lengths

theorem filter_escapeOther (c : Char) : (escapeOther c).filter isWildcard = if isWildcard c then [c] else [] := by
  rw [escapeOther]
  cases wildcard : isWildcard c with
  | true => simp [wildcard]
  | false =>
    rw [escapeChar]
    cases isReserved c with
    | true => simp [wildcard, show isWildcard '\\' = false by decide]
    | false => simp [wildcard]

theorem filter_flatMap_escapeOther (cs : List Char) : (cs.flatMap escapeOther).filter isWildcard = cs.filter isWildcard := by
  induction cs with
  | nil => rfl
  | cons c cs ih =>
    rw [List.flatMap_cons, List.filter_append, filter_escapeOther, ih, List.filter_cons]
    cases isWildcard c <;> rfl

/-- The wildcard escaper writes what one pass over the text would write if every stand-in in
    it were the wildcard itself; so just these stand-ins and the wildcards of the text come
    out as wildcards. One pass over the text as it is writes the same exactly when there is
    no stand-in in it. -/
theorem escapeWildcard_onePass_iff (s : String) :
    (escapeWildcard s).toList = (s.toList.map putBack).flatMap escapeOther ∧
      (escapeWildcard s).toList.filter isWildcard = (s.toList.map putBack).filter isWildcard ∧
      ((escapeWildcard s).toList = s.toList.flatMap escapeOther ↔ ∀ c ∈ s.toList, c ∉ standIns) := by
  rw [escapeWildcard, String.toList_ofList, escapeWildcardChars_eq]
  exact ⟨rfl, filter_flatMap_escapeOther _, flatMap_putBack_eq_iff _⟩

/-- Neither text has a wildcard in it, and each comes out as one. -/
theorem stand_in_becomes_wildcard :
    (escapeWildcard "\uFDD0").toList = ['*'] ∧ "\uFDD0".toList.flatMap escapeOther = ['\uFDD0'] ∧
      (escapeWildcard "\uFDD1").toList = ['?'] ∧ "\uFDD1".toList.flatMap escapeOther = ['\uFDD1'] := by
  decide

end SearchQuery.Text
