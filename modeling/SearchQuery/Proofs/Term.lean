/-
  SearchQuery.Proofs.Term — how a reader of the query takes the text of a term, and what
  that text says of the text that the term was made from.

  Escaped text is read back as what was escaped (`unescapeChars_escapeChars`), so a term of
  one word is one token of data, unless it spells an operator: nothing keeps those apart. A
  term of several words stands between quotes as it is, and is one quoted section with the
  given text in it only if there is no quotation mark and no backslash in the text
  (`term_isData_iff`).

  Whoever knows that quoted text is not escaped gets the given text back from any term
  (`term_keeps_text`): escaped text never starts with a quotation mark, so the two forms
  do not overlap.
-/

import SearchQuery.Expr.Build
import SearchQuery.Expr.Render
import SearchQuery.Proofs.Escape

namespace SearchQuery

namespace Text

/-! ## Quoted sections -/

theorem afterQuote_cons {c : Char} (h : c ≠ '\\') (cs : List Char) :
    afterQuote (c :: cs) = if c = '"' then some cs else afterQuote cs :=
  afterQuote.eq_3 c cs fun _ _ e _ => h e

/-- Between quotes the text closes no section, and leaves the quotation mark behind it to
    close one: every quotation mark in it is escaped, and the last character escapes nothing. -/
def staysQuoted : List Char → Bool
  | [] => true
  | ['\\'] => false
  | '\\' :: _ :: cs => staysQuoted cs
  | c :: cs => c != '"' && staysQuoted cs

theorem isQuotedSection_quoted_iff (cs : List Char) :
    IsQuotedSection ('"' :: cs ++ ['"']) ↔ staysQuoted cs = true := by
  show afterQuote (cs ++ ['"']) = some [] ↔ _
  fun_induction staysQuoted cs with
  | case1 => exact iff_of_true rfl rfl
  | case2 => exact iff_of_false (by decide) (by decide)
  | case3 _ cs ih => exact ih
  | case4 c cs noEnd noEscape ih =>
    have letter := ne_backslash_of_unmatched noEnd noEscape
    rw [List.cons_append, afterQuote_cons letter]
    by_cases quote : c = '"'
    · simp [quote]
    · simp [quote, ih]

theorem staysQuoted_iff {cs : List Char} (backslash : '\\' ∉ cs) : staysQuoted cs = true ↔ '"' ∉ cs := by
  induction cs with
  | nil => simp [staysQuoted]
  | cons c cs ih =>
    simp only [List.mem_cons, not_or] at backslash
    have here : staysQuoted (c :: cs) = (c != '"' && staysQuoted cs) :=
      staysQuoted.eq_4 c cs (fun e _ => backslash.1 e.symm) fun _ _ e _ => backslash.1 e.symm
    rw [here, Bool.and_eq_true, ih backslash.2, bne_iff_ne, List.mem_cons, not_or, ne_comm]

theorem content_quoted (cs : List Char) : content ('"' :: cs ++ ['"']) = unescapeChars cs := by
  show unescapeChars (cs ++ ['"']).dropLast = unescapeChars cs
  rw [List.dropLast_concat]

/-- A text between quotes is one section and stands for itself only if nothing in it means
    something to the reader of quotes. -/
theorem quoted_isData_iff (cs : List Char) :
    IsQuotedSection ('"' :: cs ++ ['"']) ∧ content ('"' :: cs ++ ['"']) = cs ↔ '"' ∉ cs ∧ '\\' ∉ cs := by
  rw [isQuotedSection_quoted_iff, content_quoted, unescapeChars_eq_self_iff]
  exact and_congr_left staysQuoted_iff

theorem verbatim_quoted (cs : List Char) : verbatim ('"' :: cs ++ ['"']) = cs := by
  show (cs ++ ['"']).dropLast = cs
  rw [List.dropLast_concat]

/-! ## Tokens -/

theorem isEscaped_quote (cs : List Char) : isEscaped ('"' :: cs) = false := by
  rw [isEscaped_cons (by decide), show isReserved '"' = true by decide]
  rfl

theorem not_isToken_quoted (cs : List Char) : ¬ IsToken ('"' :: cs) := by
  rintro ⟨-, escaped, -⟩
  rw [isEscaped_quote] at escaped
  cases escaped

theorem escapeChars_mem_operators_iff (cs : List Char) : escapeChars cs ∈ operators ↔ cs ∈ operators := by
  have plain : ∀ o ∈ operators, escapeChars o = o ∧ unescapeChars o = o := by decide
  refine ⟨fun mem => ?_, fun mem => ?_⟩
  · rw [← unescapeChars_escapeChars cs, (plain _ mem).2]
    exact mem
  · rw [(plain cs mem).1]
    exact mem

theorem escapeChars_ne_nil {cs : List Char} (h : cs ≠ []) : escapeChars cs ≠ [] := by
  intro empty
  exact h (by rw [← unescapeChars_escapeChars cs, empty]; rfl)

theorem isToken_escapeChars_iff {cs : List Char} (h : cs ≠ []) : IsToken (escapeChars cs) ↔ cs ∉ operators := by
  simp only [IsToken, escapeChars_ne_nil h, isEscaped_escapeChars, escapeChars_mem_operators_iff, ne_eq,
    not_false_eq_true, true_and]

/-- What is escaped has no quotes around it to be taken off. -/
theorem ne_quote_of_escaped {cs : List Char} (h : isEscaped cs = true) (rest : List Char) : cs ≠ '"' :: rest := by
  rintro rfl
  rw [isEscaped_quote] at h
  cases h

theorem content_of_escaped {cs : List Char} (h : isEscaped cs = true) : content cs = unescapeChars cs :=
  content.eq_2 cs (ne_quote_of_escaped h)

theorem ne_quote_of_guarded {cs : List Char} (h : isGuarded cs = true) (rest : List Char) : cs ≠ '"' :: rest := by
  intro quoted
  rw [quoted, guarded_cons (by decide)] at h
  cases h

theorem verbatim_of_guarded {cs : List Char} (h : isGuarded cs = true) : verbatim cs = unescapeChars cs :=
  verbatim.eq_2 cs (ne_quote_of_guarded h)

theorem content_escapeChars (cs : List Char) : content (escapeChars cs) = cs := by
  rw [content_of_escaped (isEscaped_escapeChars cs), unescapeChars_escapeChars]

end Text

open Text

namespace Expr

/-! ## Terms -/

theorem render_term_of_word {s : String} (given : s ≠ "") (bounded : s ≠ "*") (word : wordCount s ≤ 1) :
    (term s).render.toList = escapeChars s.toList := by
  rw [term, if_neg bounded, if_neg given, if_neg (Nat.not_lt.2 word)]
  exact String.toList_ofList

theorem render_phrase (s : String) : (phrase s).render.toList = '"' :: s.toList ++ ['"'] := by
  show ("\"" ++ s ++ "\"").toList = _
  rw [String.toList_append, String.toList_append]
  rfl

theorem term_of_words {s : String} (words : 1 < wordCount s) : term s = phrase s := by
  have bounded : s ≠ "*" := by rintro rfl; exact absurd words (by decide)
  have given : s ≠ "" := by rintro rfl; exact absurd words (by decide)
  rw [term, if_neg bounded, if_neg given, if_pos words]
  rfl

theorem render_term_of_words {s : String} (words : 1 < wordCount s) :
    (term s).render.toList = '"' :: s.toList ++ ['"'] := by
  rw [term_of_words words, render_phrase]

theorem guarded_term {s : String} (word : wordCount s ≤ 1) : isGuarded (term s).render.toList = true := by
  unfold term
  split
  · rfl
  · split
    · rfl
    · rw [if_neg (Nat.not_lt.2 word)]
      exact guarded_escape s

theorem guarded_wildcard (s : String) : isGuarded (wildcard s).render.toList = true := by
  unfold wildcard
  split
  · rfl
  · split
    · rfl
    · exact guarded_escapeWildcard s

/-- The text of a term of one word is a token in which everything reserved is escaped, and
    read as data unless the word is an operator. A term of several words is one quoted
    section unless a quotation mark in it, or a backslash at its end, prevents that; it is
    read back as given exactly when there is no backslash in it. -/
theorem term_isData_iff {s : String} (given : s ≠ "") (bounded : s ≠ "*") :
    (wordCount s ≤ 1 → isEscaped (term s).render.toList = true ∧ content (term s).render.toList = s.toList ∧
      (IsToken (term s).render.toList ↔ s.toList ∉ operators)) ∧
    (1 < wordCount s → ¬ IsToken (term s).render.toList ∧
      (IsQuotedSection (term s).render.toList ↔ staysQuoted s.toList = true) ∧
      (content (term s).render.toList = s.toList ↔ '\\' ∉ s.toList) ∧
      (IsQuotedSection (term s).render.toList ∧ content (term s).render.toList = s.toList ↔
        '"' ∉ s.toList ∧ '\\' ∉ s.toList)) := by
  refine ⟨fun word => ?_, fun words => ?_⟩
  · have ne : s.toList ≠ [] := fun empty => given (String.toList_eq_nil_iff.1 empty)
    rw [render_term_of_word given bounded word]
    exact ⟨isEscaped_escapeChars _, content_escapeChars _, isToken_escapeChars_iff ne⟩
  · rw [render_term_of_words words]
    refine ⟨not_isToken_quoted _, isQuotedSection_quoted_iff _, ?_, quoted_isData_iff _⟩
    rw [content_quoted, unescapeChars_eq_self_iff]

/-- Marks and operators that stay data: escaped in one word, and between quotes in several. -/
theorem marks_and_words_are_data :
    IsToken (term "-\"a:b").render.toList ∧ content (term "-\"a:b").render.toList = "-\"a:b".toList ∧
      IsQuotedSection (term "x OR (y").render.toList ∧ content (term "x OR (y").render.toList = "x OR (y".toList := by
  have word := (term_isData_iff (s := "-\"a:b") (by decide) (by decide)).1 (by decide)
  have words := (term_isData_iff (s := "x OR (y") (by decide) (by decide)).2 (by decide)
  exact ⟨word.2.2.2 (by decide), word.2.1, words.2.2.2.2 (by decide)⟩

/-- An operator stays an operator, a quotation mark ends the section early, and a backslash
    is lost to the reader. -/
theorem operator_quote_and_backslash_are_no_data :
    ¬ IsData (term "OR").render.toList ∧ ¬ IsData (term "a\" OR \"b").render.toList ∧
      content (term "a\\b c").render.toList ≠ "a\\b c".toList := by
  decide

/-! ## The text that a term was made from -/

theorem unescapeChars_term {s : String} (word : wordCount s ≤ 1) : unescapeChars (term s).render.toList = s.toList := by
  by_cases bounded : s = "*"
  · rw [bounded]
    rfl
  by_cases given : s = ""
  · rw [given]
    rfl
  rw [render_term_of_word given bounded word, unescapeChars_escapeChars]

theorem verbatim_term (s : String) : verbatim (term s).render.toList = s.toList := by
  rcases Nat.lt_or_ge 1 (wordCount s) with words | word
  · rw [render_term_of_words words, verbatim_quoted]
  · rw [verbatim_of_guarded (guarded_term word), unescapeChars_term word]

theorem render_term_inj {s t : String} : (term s).render = (term t).render ↔ s = t := by
  refine ⟨fun same => ?_, fun same => by rw [same]⟩
  rw [← String.toList_inj, ← verbatim_term s, same, verbatim_term t]

theorem term_eq_text (s : String) : term s = .text (term s).render := by
  unfold term
  split
  · rfl
  · split <;> rfl

/-- From the text of a term the given text comes back, without the quotes if there are any
    and without the escapes otherwise. So terms of different texts are different, in their
    own text and as expressions; only the term of the empty text is empty, and only the term
    of a lone `*` matches everything. -/
theorem term_keeps_text (s t : String) :
    verbatim (term s).render.toList = s.toList ∧
      ((term s).render = (term t).render ↔ s = t) ∧ ((term s).same (term t) = true ↔ s = t) ∧
      ((term s).isEmpty = true ↔ s = "") ∧ ((term s).isAny = true ↔ s = "*") ∧ (term s = everything ↔ s = "*") := by
  refine ⟨verbatim_term s, render_term_inj, ?_, ?_, ?_, ?_⟩
  · rw [term_eq_text s, term_eq_text t, same, decide_eq_true_iff]
    exact render_term_inj
  · rw [isEmpty, decide_eq_true_iff]
    exact render_term_inj (t := "")
  · rw [term_eq_text s, isAny, decide_eq_true_iff]
    exact render_term_inj (t := "*")
  · rw [term_eq_text s, everything, Expr.text.injEq]
    exact render_term_inj (t := "*")

/-- Quotes that were given and quotes that were put on: the texts differ. -/
example : (term "a b").render = "\"a b\"" ∧ (term "\"ab\"").render = "\\\"ab\\\"" ∧
    (term "\"a b\"").render = "\"\"a b\"\"" := by
  decide

end Expr

end SearchQuery
