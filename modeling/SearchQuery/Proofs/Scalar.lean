/-
  SearchQuery.Proofs.Scalar — a number as a range bound and as a term.

  Its text is a minus or none, and behind it characters that no reader of queries reserves
  (`signed_text`). So the term is that text with a backslash before the minus, and never
  between quotes. A bound has the same text, except that a single is written as the double
  it becomes. Whichever text it is, the number is read back from it, of a finite binary
  number all bits (`bound_and_term_agree`).
-/

import SearchQuery.Proofs.Number.Widening
import SearchQuery.Proofs.Number.Written
import SearchQuery.Proofs.WordCount

namespace SearchQuery

open Number Numeral Text

/-! ## A sign in front of plain characters -/

namespace Text

theorem isReserved_digit {c : Char} (h : c.isDigit = true) : isReserved c = false := by
  have code := digit_bounds h
  have plain : ∀ n ≤ 57, 48 ≤ n → isReserved (Char.ofNat n) = false := by decide
  rw [← Char.ofNat_toNat c]
  exact plain c.toNat code.2 code.1

theorem escapeChars_plain {cs : List Char} (plain : ∀ c ∈ cs, isReserved c = false) : escapeChars cs = cs := by
  induction cs with
  | nil => rfl
  | cons c cs ih =>
    rw [escapeChars_cons, ih fun d hd => plain d (List.mem_cons_of_mem c hd), escapeChar, plain c List.mem_cons_self]
    rfl

/-- A minus or none, and at least one character behind it, none of which is reserved. -/
structure IsSigned (cs : List Char) (negative : Bool) (rest : List Char) : Prop where
  chars : cs = signChars negative ++ rest
  ne_nil : rest ≠ []
  plain : ∀ c ∈ rest, isReserved c = false

namespace IsSigned

variable {cs rest : List Char} {negative : Bool}

theorem mem (h : IsSigned cs negative rest) {c : Char} (mem : c ∈ cs) : c = '-' ∨ isReserved c = false := by
  rw [h.chars] at mem
  rcases List.mem_append.1 mem with sign | mem
  · cases negative with
    | true => exact .inl (List.mem_singleton.1 sign)
    | false => cases sign
  · exact .inr (h.plain c mem)

theorem not_mem (h : IsSigned cs negative rest) {c : Char} (mark : c ≠ '-') (reserved : isReserved c = true) : c ∉ cs := by
  intro mem
  rcases h.mem mem with minus | plain
  · exact mark minus
  · rw [reserved] at plain
    cases plain

theorem isDelimiter_of_mem (h : IsSigned cs negative rest) {c : Char} (mem : c ∈ cs) : isDelimiter c = false := by
  rcases h.mem mem with rfl | plain
  · decide
  · by_contra delimiter
    rw [isReserved_of_isDelimiter (by simpa using delimiter)] at plain
    cases plain

theorem escapeChars_eq (h : IsSigned cs negative rest) :
    escapeChars cs = (if negative then ['\\', '-'] else []) ++ rest := by
  rw [h.chars, escapeChars_append, escapeChars_plain h.plain]
  cases negative <;> rfl

end IsSigned

end Text

namespace Expr

/-- An expression shows a text as a single text of its own, in which a minus at the
    beginning is all that is escaped, and neither is empty, quoted or matches everything. -/
structure Shows (e : Expr) (s : String) : Prop where
  text : ∃ negative rest, IsSigned s.toList negative rest ∧
    e = .text (String.ofList ((if negative then ['\\', '-'] else []) ++ rest))
  unescaped : unescape e.render = s
  unquoted : '"' ∉ e.render.toList
  notEmpty : e.isEmpty = false
  notAny : e.isAny = false

theorem term_shows {s : String} {negative : Bool} {rest : List Char} (h : IsSigned s.toList negative rest) :
    (term s).Shows s := by
  have given : s ≠ "" := by
    rintro rfl
    have chars := h.chars
    exact h.ne_nil (List.append_eq_nil_iff.1 chars.symm).2
  have bounded : s ≠ "*" := by
    rintro rfl
    exact h.not_mem (c := '*') (by decide) (by decide) List.mem_cons_self
  have rendered := render_term_of_word given bounded (wordCount_le_one fun c => h.isDelimiter_of_mem)
  refine ⟨⟨negative, rest, h, ?_⟩, ?_, ?_, ?_, ?_⟩
  · rw [term_eq_text, ← h.escapeChars_eq, ← rendered, String.ofList_toList]
  · rw [unescape, rendered, unescapeChars_escapeChars, String.ofList_toList]
  · rw [rendered, h.escapeChars_eq]
    intro quote
    rcases List.mem_append.1 quote with sign | quote
    · cases negative <;> simp at sign
    · exact absurd (h.plain '"' quote) (by decide)
  · exact decide_eq_false fun empty => given ((render_term_inj (t := "")).1 empty)
  · rw [term_eq_text]
    exact decide_eq_false fun any => bounded ((render_term_inj (t := "*")).1 any)

end Expr

namespace Number

/-! ## The texts of numbers -/

theorem plain_of_all {cs : List Char} (all : cs.all (!isReserved ·) = true) : ∀ c ∈ cs, isReserved c = false := by
  intro c mem
  simpa using List.all_eq_true.1 all c mem

theorem plain_of_digits {cs : List Char} (all : AllDigits cs) : ∀ c ∈ cs, isReserved c = false :=
  fun c mem => isReserved_digit (all c mem)

theorem signed_natChars (negative : Bool) (n : Nat) :
    IsSigned (signChars negative ++ natChars n) negative (natChars n) :=
  ⟨rfl, natChars_ne_nil n, plain_of_digits (allDigits_natChars n)⟩

theorem signed_positional {n : Numeral} {cs : List Char} (h : n.Positional cs) :
    IsSigned cs n.negative (n.whole ++ pointChars n.fraction) where
  chars := h.chars
  ne_nil := fun none => h.whole.ne_nil (List.append_eq_nil_iff.1 none).1
  plain := by
    intro c mem
    rcases List.mem_append.1 mem with whole | point
    · exact plain_of_digits h.whole.digits c whole
    · cases fraction : n.fraction with
      | none =>
        rw [fraction] at point
        cases point
      | some digits =>
        rw [fraction] at point
        rcases List.mem_cons.1 point with rfl | digit
        · decide
        · exact plain_of_digits (h.fraction digits fraction).2 c digit

namespace Binary

variable {f : Format}

/-- In a query a finite number is written without an exponent. -/
theorem plainlyDenotes_text {x : Binary f} (finite : x.isFinite = true) :
    Decimal.PlainlyDenotes x.text.toList x.negative (f.shortest .up x.magnitude).value := by
  rw [text, String.toList_ofList, written_of_isFinite .query finite]
  exact Decimal.plainlyDenotes_plain (.inl rfl) x.negative (shortest_zero .up x.magnitude)

theorem signed_binary (x : Binary f) : ∃ negative rest, IsSigned x.text.toList negative rest := by
  cases nan : x.isNaN with
  | true =>
    have chars : x.text.toList = ['N', 'a', 'N'] := by rw [text, String.toList_ofList, written, nan]; rfl
    exact ⟨false, ['N', 'a', 'N'], chars, by decide, plain_of_all (by decide)⟩
  | false =>
    cases finite : x.isFinite with
    | true =>
      obtain ⟨n, positional, -⟩ := plainlyDenotes_text finite
      exact ⟨_, _, signed_positional positional⟩
    | false =>
      have chars : x.text.toList = signChars x.negative ++ ['i', 'n', 'f'] := by
        rw [text, String.toList_ofList, written, nan, finite]; rfl
      exact ⟨x.negative, ['i', 'n', 'f'], chars, by decide, plain_of_all (by decide)⟩

/-- A text is a number without an exponent that stands for a decimal number nearest to this
    one, and is read back as this one with its sign. -/
def RecoveredFrom (x : Binary f) (s : String) : Prop :=
  ∃ n : Numeral, n.Positional s.toList ∧ n.negative = x.negative ∧ f.Closest (n.digits * 10 ^ n.power) x.magnitude ∧
    n.nearest f = x

theorem recoveredFrom_of_rounds {x : Binary f} (finite : x.isFinite = true) {s : String} {q : ℚ}
    (h : Decimal.PlainlyDenotes s.toList x.negative q) (rounds : f.Rounds q x.magnitude) : x.RecoveredFrom s := by
  obtain ⟨n, positional, sign, rfl⟩ := h
  exact ⟨n, positional, sign, Format.closest_of_rounds rounds, nearest_of_rounds finite sign rounds⟩

theorem recoveredFrom_text {x : Binary f} (finite : x.isFinite = true) : x.RecoveredFrom x.text :=
  recoveredFrom_of_rounds finite (plainlyDenotes_text finite) (Format.rounds_shortest .up x.magnitude)

/-- The text of the double is as good for the single as the single's own. -/
theorem recoveredFrom_widen {y : Single} (finite : y.isFinite = true) : y.RecoveredFrom y.widen.text := by
  obtain ⟨wide_finite, sign, -, narrow⟩ := widen_exact finite
  have denotes := plainlyDenotes_text wide_finite
  rw [sign] at denotes
  exact recoveredFrom_of_rounds finite denotes (narrow _ (Format.rounds_shortest .up y.widen.magnitude))

end Binary

namespace Scalar

theorem signed_text (n : Scalar) : ∃ negative rest, IsSigned n.text.toList negative rest := by
  cases n with
  | integer i =>
    rw [text, intText, String.toList_ofList]
    cases i.val with
    | ofNat n => exact ⟨false, _, signed_natChars false n⟩
    | negSucc n => exact ⟨true, _, signed_natChars true (n + 1)⟩
  | wide w =>
    rw [text, natText, String.toList_ofList]
    exact ⟨false, _, signed_natChars false w⟩
  | double x => exact x.signed_binary
  | single x => exact x.signed_binary

/-- A number is read back from a text. Texts of numbers that are not finite only name them. -/
def RecoveredFrom (s : String) : Scalar → Prop
  | .integer i => readInt? s.toList = some i.val
  | .wide w => readInt? s.toList = some (w : Int)
  | .double x => x.isFinite = true → x.RecoveredFrom s
  | .single y => y.isFinite = true → y.RecoveredFrom s

theorem recoveredFrom_text (n : Scalar) : n.RecoveredFrom n.text := by
  cases n with
  | integer i =>
    rw [RecoveredFrom, text, intText, String.toList_ofList]
    exact readInt?_intChars i.val
  | wide w =>
    rw [RecoveredFrom, text, natText, String.toList_ofList]
    exact readInt?_natChars w
  | double x => exact Binary.recoveredFrom_text
  | single y => exact Binary.recoveredFrom_text

end Scalar

end Number

/-! ## Bounds -/

namespace Bound

theorem ofScalar?_eq_none_iff (n : Scalar) : ofScalar? n = none ↔ ∃ w : Nat, n = .wide w ∧ Int128.limit ≤ w := by
  cases n with
  | wide w =>
    have lower : -Int128.limit ≤ (w : Int) := by rw [Int128.limit]; omega
    by_cases fits : (w : Int) < Int128.limit
    · refine iff_of_false ?_ ?_
      · rw [ofScalar?, Int128.ofInt?, dif_pos ⟨lower, fits⟩]
        nofun
      · rintro ⟨_, ⟨⟩, beyond⟩
        omega
    · refine iff_of_true ?_ ⟨w, rfl, Int.not_lt.1 fits⟩
      rw [ofScalar?, Int128.ofInt?, dif_neg fun h => fits h.2]
      rfl
  | _ => exact iff_of_false nofun nofun

theorem text_ofScalar? {n : Scalar} {b : Bound} (h : ofScalar? n = some b) : (∃ y, n = .single y) ∨ b.text = n.text := by
  cases n with
  | integer i =>
    obtain rfl := Option.some.inj h
    exact .inr rfl
  | wide w =>
    rw [ofScalar?, Option.map_eq_some_iff] at h
    obtain ⟨i, fits, rfl⟩ := h
    have same : i.val = (w : Int) := by
      rw [Int128.ofInt?] at fits
      split at fits
      · exact (congrArg Int128.val (Option.some.inj fits)).symm
      · cases fits
    exact .inr (by rw [text, same]; rfl)
  | double x =>
    obtain rfl := Option.some.inj h
    exact .inr rfl
  | single y => exact .inl ⟨y, rfl⟩

theorem recoveredFrom_ofScalar? {n : Scalar} {b : Bound} (h : ofScalar? n = some b) : n.RecoveredFrom b.text := by
  rcases text_ofScalar? h with ⟨y, rfl⟩ | same
  · obtain rfl := Option.some.inj h
    exact Binary.recoveredFrom_widen
  · rw [same]
    exact n.recoveredFrom_text

end Bound

/-- A number as a term is its own text with a backslash before the minus, and nothing else;
    as a bound it has the same text, or for a single that of the double it becomes. Integers
    and finite binary numbers are read back from either, and only what needs more than 128
    bits with sign cannot be a bound. -/
theorem bound_and_term_agree (n : Scalar) :
    (Expr.ofScalar n).Shows n.text ∧ n.RecoveredFrom n.text ∧
      (Bound.ofScalar? n = none ↔ ∃ w : Nat, n = .wide w ∧ Int128.limit ≤ w) ∧
      ∀ b ∈ Bound.ofScalar? n,
        n.RecoveredFrom b.text ∧ ((∃ y, n = .single y) ∨ b.text = unescape (Expr.ofScalar n).render) := by
  obtain ⟨negative, rest, signed⟩ := n.signed_text
  have shown := Expr.term_shows signed
  refine ⟨shown, n.recoveredFrom_text, Bound.ofScalar?_eq_none_iff n, fun b bound => ?_⟩
  refine ⟨Bound.recoveredFrom_ofScalar? bound, ?_⟩
  rw [Expr.ofScalar, shown.unescaped]
  exact Bound.text_ofScalar? bound

example : Number.Scalar.text (.single (.ofBits 0xBDCCCCCD)) = "-0.1" ∧
    (Bound.ofScalar? (.single (.ofBits 0xBDCCCCCD))).map Bound.text = some "-0.10000000149011612" ∧
    (Expr.ofScalar (.single (.ofBits 0xBDCCCCCD))).render = "\\-0.1" := by
  decide +kernel

end SearchQuery
