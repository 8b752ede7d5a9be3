/-
  SearchQuery.Proofs.WordCount — the number of words in a text, and when a term is quoted.

  A delimiter belongs to no word and lets none go on past it (`words_append_delimiter`). So
  the words of two texts add up, except that one is counted twice if it goes on from the
  first text into the second (`wordCount_append`), and a text has several words exactly
  when a delimiter stands between two other characters of it (`one_lt_wordCount_iff`).

  A term is quoted when its text has several words. In a term that is not quoted every
  delimiter of the text is behind a backslash (`words_and_quotes`).
-/

import SearchQuery.Proofs.Term

namespace SearchQuery

namespace Text

/-! ## Delimiters -/

theorem isDelimiter_iff (c : Char) :
    isDelimiter c = true ↔ c = ' ' ∨ c = '\t' ∨ c = '\n' ∨ c = '\r' ∨ c = '\x0c' := by
  simp [isDelimiter]

theorem isReserved_of_isDelimiter {c : Char} (h : isDelimiter c = true) : isReserved c = true := by
  have reserved : [' ', '\t', '\n', '\r', '\x0c'].all isReserved = true := by decide
  exact List.all_eq_true.1 reserved c (List.contains_iff_mem.1 h)

/-- The word before a delimiter ends there. -/
theorem words_append_delimiter {c : Char} (h : isDelimiter c = true) (cs ds : List Char) :
    words (cs ++ c :: ds) = words cs ++ words ds := by
  unfold words
  rw [List.splitOnP_append_cons cs ds h, List.filter_append]

theorem words_cons_delimiter {c : Char} (h : isDelimiter c = true) (cs : List Char) : words (c :: cs) = words cs :=
  words_append_delimiter h [] cs

@[simp] theorem words_nil : words [] = [] := rfl

/-- A text without delimiters is one word at most. -/
theorem wordCount_le_one {s : String} (none : ∀ c ∈ s.toList, isDelimiter c = false) : wordCount s ≤ 1 := by
  have single : s.toList.splitOnP isDelimiter = [s.toList] := List.splitOnP_eq_singleton none
  rw [wordCount, words, single]
  exact List.length_filter_le _ _

/-! ## Counting -/

/-- The first character, if there is one, belongs to a word. -/
def startsInWord (cs : List Char) : Bool := cs.head?.any (!isDelimiter ·)

/-- The last character, if there is one, belongs to a word. -/
def endsInWord (cs : List Char) : Bool := cs.getLast?.any (!isDelimiter ·)

theorem words_singleton {c : Char} (h : isDelimiter c = false) : words [c] = [[c]] := by
  have single : [c].splitOnP isDelimiter = [[c]] := List.splitOnP_eq_singleton (by simpa using h)
  rw [words, single]
  rfl

/-- A character in front of a word makes it longer, and is a word of its own in front of
    anything else. -/
theorem length_words_cons {c : Char} (h : isDelimiter c = false) (cs : List Char) :
    (words (c :: cs)).length = (words cs).length + if startsInWord cs then 0 else 1 := by
  cases cs with
  | nil => simp [words_singleton h, startsInWord]
  | cons d ds =>
    cases delimiter : isDelimiter d with
    | true =>
      show (words ([c] ++ d :: ds)).length = _
      rw [words_append_delimiter delimiter, words_cons_delimiter delimiter, words_singleton h]
      simp [startsInWord, delimiter, Nat.add_comm]
    | false =>
      obtain ⟨piece, pieces, split⟩ := List.exists_cons_of_ne_nil (List.splitOnP_ne_nil isDelimiter ds)
      simp [words, startsInWord, List.splitOnP_cons_eq_if_modifyHead, h, delimiter, split]

theorem length_words_append (cs ds : List Char) :
    (words (cs ++ ds)).length + (if endsInWord cs && startsInWord ds then 1 else 0) =
      (words cs).length + (words ds).length := by
  induction cs with
  | nil => simp [endsInWord]
  | cons c cs ih =>
    cases h : isDelimiter c with
    | true =>
      have ends : endsInWord (c :: cs) = endsInWord cs := by
        cases cs with
        | nil => simp [endsInWord, h]
        | cons d cs => simp [endsInWord]
      rw [List.cons_append, words_cons_delimiter h, words_cons_delimiter h, ends, ih]
    | false =>
      cases cs with
      | nil =>
        have ends : endsInWord [c] = true := by simp [endsInWord, h]
        rw [List.singleton_append, length_words_cons h, words_singleton h, ends]
        cases startsInWord ds <;> simp [Nat.add_comm]
      | cons d cs =>
        have ends : endsInWord (c :: d :: cs) = endsInWord (d :: cs) := by simp [endsInWord]
        have starts : startsInWord (d :: cs ++ ds) = startsInWord (d :: cs) := rfl
        rw [List.cons_append, length_words_cons h, length_words_cons h, ends, starts]
        omega

theorem words_eq_nil_iff (cs : List Char) : words cs = [] ↔ ∀ c ∈ cs, isDelimiter c = true := by
  induction cs with
  | nil => simp
  | cons c cs ih =>
    cases h : isDelimiter c with
    | true => simp [words_cons_delimiter h, ih, h]
    | false =>
      refine iff_of_false ?_ (by simp [h])
      intro none
      have counted := length_words_cons h cs
      rw [none, List.length_nil] at counted
      cases starts : startsInWord cs with
      | false => simp [starts] at counted
      | true =>
        have blank := ih.1 (List.length_eq_zero_iff.1 (by omega))
        cases cs with
        | nil => simp [startsInWord] at starts
        | cons d ds => simp [startsInWord, blank d List.mem_cons_self] at starts

theorem length_words_pos_iff (cs : List Char) : 0 < (words cs).length ↔ ∃ c ∈ cs, isDelimiter c = false := by
  rw [List.length_pos_iff, ne_eq, words_eq_nil_iff]
  simp

/-- A delimiter stands between characters of two words. -/
def Separated (cs : List Char) : Prop :=
  ∃ before c after, cs = before ++ c :: after ∧ isDelimiter c = true ∧
    (∃ x ∈ before, isDelimiter x = false) ∧ ∃ y ∈ after, isDelimiter y = false

theorem separated_cons {cs : List Char} (h : Separated cs) (c : Char) : Separated (c :: cs) := by
  obtain ⟨before, d, after, rfl, delimiter, ⟨x, mem, left⟩, right⟩ := h
  exact ⟨c :: before, d, after, rfl, delimiter, ⟨x, List.mem_cons_of_mem c mem, left⟩, right⟩

theorem one_lt_length_words_iff (cs : List Char) : 1 < (words cs).length ↔ Separated cs := by
  constructor
  · intro several
    induction cs with
    | nil => simp at several
    | cons c cs ih =>
      cases h : isDelimiter c with
      | true =>
        rw [words_cons_delimiter h] at several
        exact separated_cons (ih several) c
      | false =>
        rw [length_words_cons h] at several
        cases starts : startsInWord cs with
        | true =>
          rw [starts] at several
          exact separated_cons (ih several) c
        | false =>
          -- The word of `c` ends here, and the other one stands behind the next character.
          cases cs with
          | nil => simp [startsInWord] at several
          | cons d ds =>
            have delimiter : isDelimiter d = true := by simpa [startsInWord] using starts
            rw [words_cons_delimiter delimiter, starts] at several
            have right := (length_words_pos_iff ds).1 (by simpa using several)
            exact ⟨[c], d, ds, rfl, delimiter, ⟨c, List.mem_singleton_self c, h⟩, right⟩
  · rintro ⟨before, c, after, rfl, delimiter, left, right⟩
    rw [words_append_delimiter delimiter, List.length_append]
    have := (length_words_pos_iff before).2 left
    have := (length_words_pos_iff after).2 right
    omega

/-! ## Runs of delimiters -/

theorem words_delimiters_append {run : List Char} (h : ∀ c ∈ run, isDelimiter c = true) (cs : List Char) :
    words (run ++ cs) = words cs := by
  induction run with
  | nil => rfl
  | cons c run ih =>
    rw [List.forall_mem_cons] at h
    rw [List.cons_append, words_cons_delimiter h.1, ih h.2]

/-- A run of delimiters keeps two texts apart, however long it is. -/
theorem words_append_delimiters {run : List Char} (h : ∀ c ∈ run, isDelimiter c = true) (ne : run ≠ [])
    (cs ds : List Char) : words (cs ++ run ++ ds) = words cs ++ words ds := by
  cases run with
  | nil => exact absurd rfl ne
  | cons c run =>
    rw [List.forall_mem_cons] at h
    rw [List.append_assoc, List.cons_append, words_append_delimiter h.1, words_delimiters_append h.2]

theorem words_append_trailing {run : List Char} (h : ∀ c ∈ run, isDelimiter c = true) (cs : List Char) :
    words (cs ++ run) = words cs := by
  by_cases ne : run = []
  · rw [ne, List.append_nil]
  · have apart := words_append_delimiters h ne cs []
    rwa [List.append_nil, words_nil, List.append_nil] at apart

/-! ## Bare characters -/

theorem not_isWordChar_of_isDelimiter {c : Char} (h : isDelimiter c = true) : isWordChar c = false := by
  have bare : [' ', '\t', '\n', '\r', '\x0c'].all (!isWordChar ·) = true := by decide
  simpa using List.all_eq_true.1 bare c (List.contains_iff_mem.1 h)

/-- In a guarded text a character that is not fit for a word has a backslash in front, and
    that backslash is no escaped one. -/
theorem behind_backslash_of_guarded {before after : List Char} {c : Char} (h : isGuarded (before ++ c :: after) = true)
    (unfit : isWordChar c = false) (letter : c ≠ '\\') : ∃ front, before = front ++ ['\\'] ∧ isGuarded front = true := by
  fun_induction isGuarded before with
  | case1 =>
    rw [List.nil_append, guarded_cons letter, unfit] at h
    cases h
  | case2 d ds ih =>
    obtain ⟨front, rfl, guarded⟩ := ih h
    exact ⟨'\\' :: d :: front, rfl, guarded⟩
  | case3 d ds alone ih =>
    by_cases backslash : d = '\\'
    · cases ds with
      | nil => exact ⟨[], by rw [backslash]; rfl, rfl⟩
      | cons e es => exact absurd rfl (alone e es backslash)
    · rw [List.cons_append, guarded_cons backslash, Bool.and_eq_true] at h
      obtain ⟨front, rfl, guarded⟩ := ih h.2
      refine ⟨d :: front, rfl, ?_⟩
      rw [guarded_cons backslash, h.1, guarded]
      rfl

end Text

open Text

namespace Expr

/-! ## Quotes -/

theorem term_eq_phrase_iff (s : String) : term s = phrase s ↔ 1 < wordCount s := by
  refine ⟨fun quoted => ?_, term_of_words⟩
  by_contra word
  have guarded := guarded_term (Nat.not_lt.1 word)
  rw [quoted] at guarded
  exact ne_quote_of_guarded guarded _ (render_phrase s)

/-- A delimiter in the text of one word is written behind a backslash, and what stands
    before and after it is written as if it were not there. -/
theorem render_term_around {s : String} (word : wordCount s ≤ 1) {before after : List Char} {c : Char}
    (split : s.toList = before ++ c :: after) (delimiter : isDelimiter c = true) :
    (term s).render.toList = escapeChars before ++ '\\' :: c :: escapeChars after := by
  have mem : c ∈ s.toList := by simp [split]
  have given : s ≠ "" := by
    intro empty
    rw [empty] at mem
    cases mem
  have bounded : s ≠ "*" := by
    intro mark
    rw [mark] at mem
    rw [List.mem_singleton.1 mem] at delimiter
    cases delimiter
  rw [render_term_of_word given bounded word, split, escapeChars_around (isReserved_of_isDelimiter delimiter)]

theorem behind_backslash_of_delimiter {s : String} (word : wordCount s ≤ 1) {before after : List Char} {c : Char}
    (text : (term s).render.toList = before ++ c :: after) (delimiter : isDelimiter c = true) :
    ∃ front, before = front ++ ['\\'] ∧ isGuarded front = true := by
  have guarded := guarded_term word
  rw [text] at guarded
  have letter : c ≠ '\\' := by
    intro backslash
    rw [backslash] at delimiter
    cases delimiter
  exact behind_backslash_of_guarded guarded (not_isWordChar_of_isDelimiter delimiter) letter

/-- Words are delimited by five characters. A word that goes on from one text into the next
    is counted once, all others add up. There are several words exactly when a delimiter
    stands somewhere between two other characters; so it does not matter whether there are
    delimiters at the beginning or at the end, or how many of them stand together. A term is
    quoted when it has several words, and then shows its text as it is. If it is not quoted,
    the text comes back once the escapes are taken out, each of its delimiters is written
    behind a backslash, and none stands bare in what is written. -/
theorem words_and_quotes (s t : String) :
    (∀ c, isDelimiter c = true ↔ c = ' ' ∨ c = '\t' ∨ c = '\n' ∨ c = '\r' ∨ c = '\x0c') ∧
    wordCount (s ++ t) + (if endsInWord s.toList && startsInWord t.toList then 1 else 0) = wordCount s + wordCount t ∧
    (1 < wordCount s ↔ ∃ before c after, s.toList = before ++ c :: after ∧ isDelimiter c = true ∧
      (∃ x ∈ before, isDelimiter x = false) ∧ ∃ y ∈ after, isDelimiter y = false) ∧
    (∀ run : String, (∀ c ∈ run.toList, isDelimiter c = true) →
      wordCount (run ++ s) = wordCount s ∧ wordCount (s ++ run) = wordCount s ∧
        (run ≠ "" → wordCount (s ++ run ++ t) = wordCount s + wordCount t)) ∧
    (term s = phrase s ↔ 1 < wordCount s) ∧
    (term s = phrase s → (term s).render.toList = '"' :: s.toList ++ ['"']) ∧
    (term s ≠ phrase s →
      unescapeChars (term s).render.toList = s.toList ∧
      (∀ before c after, s.toList = before ++ c :: after → isDelimiter c = true →
        (term s).render.toList = escapeChars before ++ '\\' :: c :: escapeChars after) ∧
      ∀ before c after, (term s).render.toList = before ++ c :: after → isDelimiter c = true →
        ∃ front, before = front ++ ['\\'] ∧ isGuarded front = true) := by
  simp only [wordCount, String.toList_append]
  refine ⟨isDelimiter_iff, length_words_append _ _, one_lt_length_words_iff _, ?_, term_eq_phrase_iff s, ?_, ?_⟩
  · intro run blank
    refine ⟨by rw [words_delimiters_append blank], by rw [words_append_trailing blank], ?_⟩
    intro given
    have ne : run.toList ≠ [] := fun empty => given (String.toList_eq_nil_iff.1 empty)
    rw [words_append_delimiters blank ne, List.length_append]
  · intro quoted
    rw [quoted, render_phrase]
  · intro unquoted
    have word : wordCount s ≤ 1 := Nat.not_lt.1 fun several => unquoted (term_of_words several)
    refine ⟨unescapeChars_term word, ?_, ?_⟩
    · intro before c after split delimiter
      exact render_term_around word split delimiter
    · intro before c after text delimiter
      exact behind_backslash_of_delimiter word text delimiter

/-- One word among delimiters is not quoted, and the delimiters are escaped with it. -/
theorem delimiters_around_are_escaped :
    wordCount ("a b" ++ "c d") + 1 = wordCount "a b" + wordCount "c d" ∧ wordCount (" \t" ++ "a b") = wordCount "a b" ∧
      wordCount ("a b" ++ " \t" ++ "c d") = wordCount "a b" + wordCount "c d" ∧
      (term "a b").render.toList = "\"a b\"".toList ∧ term " a\n" ≠ phrase " a\n" ∧
      (term " a\n").render = "\\ a\\\n" ∧ unescapeChars (term " a\n").render.toList = " a\n".toList ∧
      ∃ front, "\\ a\\".toList = front ++ ['\\'] ∧ isGuarded front = true := by
  obtain ⟨-, joined, -, runs, several, asItIs, -⟩ := words_and_quotes "a b" "c d"
  obtain ⟨-, -, -, -, quoted, -, escaped⟩ := words_and_quotes " a\n" ""
  have apart := runs " \t" (List.all_eq_true.1 (by decide))
  have unquoted : term " a\n" ≠ phrase " a\n" := fun h => absurd (quoted.1 h) (by decide)
  obtain ⟨back, written, bare⟩ := escaped unquoted
  have text : (term " a\n").render = "\\ a\\\n" :=
    String.toList_inj.1 ((written [] ' ' ['a', '\n'] (by decide) (by decide)).trans (by decide))
  refine ⟨joined, apart.1, apart.2.2 (by decide), asItIs (several.2 (by decide)), unquoted, text, back, ?_⟩
  exact bare _ '\n' [] (by rw [text]; decide) (by decide)

end Expr

end SearchQuery
