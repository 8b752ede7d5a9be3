/-
  SearchQuery.Proofs.Balance — the parentheses of a query match.

  A neutral text leaves the scanner as it found it, however many parentheses are open
  around it (`scan_deeper`). So neutral texts can stand in parentheses and behind one
  another, which is all that rendering does with them; and what the escapers write, what
  stands between quotes and the texts of numbers and dates are neutral of themselves.
  `neutral_queries` puts this together.
-/

import SearchQuery.Proofs.Checks
import SearchQuery.Proofs.Figures
import SearchQuery.Proofs.Term
import SearchQuery.Text.Balance

namespace SearchQuery

namespace Text

/-! ## The scanner under open parentheses -/

namespace Scanner

/-- The same scanner with `d` more parentheses open. -/
def deeper (d : Nat) (s : Scanner) : Scanner := { s with depth := s.depth + d }

theorem step_deeper {s t : Scanner} {c : Char} (h : s.step c = some t) (d : Nat) :
    (s.deeper d).step c = some (t.deeper d) := by
  -- A parenthesis that closes another one still does so when more of them are open.
  simp only [step, deeper] at h ⊢
  split_ifs at h ⊢ <;> grind

theorem scan_cons (s : Scanner) (c : Char) (cs : List Char) : s.scan (c :: cs) = (s.step c).bind (·.scan cs) := rfl

/-- What is open around a text does not matter to it. -/
theorem scan_deeper {s t : Scanner} {cs : List Char} (h : s.scan cs = some t) (d : Nat) :
    (s.deeper d).scan cs = some (t.deeper d) := by
  induction cs generalizing s with
  | nil =>
    obtain rfl := Option.some.inj h
    rfl
  | cons c cs ih =>
    rw [scan_cons] at h ⊢
    obtain ⟨u, first, rest⟩ := Option.bind_eq_some_iff.1 h
    rw [step_deeper first d]
    exact ih rest

/-- The characters that mean something to the scanner outside quotes. -/
def marks : List Char := ['\\', '"', '(', ')']

theorem step_unmarked {c : Char} (h : c ∉ marks) : start.step c = some start := by
  simp only [marks, List.mem_cons, List.not_mem_nil, or_false, not_or] at h
  simp [step, start, h]

theorem step_quoted {c : Char} (quote : c ≠ '"') (backslash : c ≠ '\\') :
    (⟨0, true, false⟩ : Scanner).step c = some ⟨0, true, false⟩ := by
  simp [step, quote, backslash]

theorem scan_quoted {cs : List Char} (quote : '"' ∉ cs) (backslash : '\\' ∉ cs) :
    (⟨0, true, false⟩ : Scanner).scan cs = some ⟨0, true, false⟩ := by
  induction cs with
  | nil => rfl
  | cons c cs ih =>
    simp only [List.mem_cons, not_or] at quote backslash
    rw [scan_cons, step_quoted (Ne.symm quote.1) (Ne.symm backslash.1)]
    exact ih quote.2 backslash.2

end Scanner

open Scanner

/-! ## Neutral texts -/

theorem neutral_nil : Neutral [] := rfl

theorem balanced_of_neutral {cs : List Char} (h : Neutral cs) : Balanced cs := ⟨.start, h, rfl⟩

theorem neutral_append {cs ds : List Char} (h : Neutral cs) (h' : Neutral ds) : Neutral (cs ++ ds) := by
  show start.scan (cs ++ ds) = some start
  rw [scan_append, h]
  exact h'

theorem neutral_parenthesized {cs : List Char} (h : Neutral cs) : Neutral ('(' :: cs ++ [')']) := by
  have inside : (start.deeper 1).scan cs = some (start.deeper 1) := scan_deeper h 1
  show (start.deeper 1).scan (cs ++ [')']) = some start
  rw [scan_append, inside]
  rfl

theorem neutral_quoted {cs : List Char} (quote : '"' ∉ cs) (backslash : '\\' ∉ cs) : Neutral ('"' :: cs ++ ['"']) := by
  show (⟨0, true, false⟩ : Scanner).scan (cs ++ ['"']) = some start
  rw [scan_append, scan_quoted quote backslash]
  rfl

theorem neutral_of_unmarked {cs : List Char} (h : ∀ c ∈ cs, c ∉ marks) : Neutral cs := by
  induction cs with
  | nil => exact neutral_nil
  | cons c cs ih =>
    show start.scan (c :: cs) = some start
    rw [scan_cons, step_unmarked (h c List.mem_cons_self)]
    exact ih fun d mem => h d (List.mem_cons_of_mem c mem)

theorem unmarked_of_class {p : Char → Bool} (none : marks.all (!p ·) = true) {c : Char} (h : p c = true) : c ∉ marks := by
  intro mem
  have unfit := List.all_eq_true.1 none c mem
  simp [h] at unfit

/-- A backslash takes out of account whatever stands behind it. -/
theorem neutral_of_guarded {cs : List Char} (h : isGuarded cs = true) : Neutral cs := by
  fun_induction isGuarded cs with
  | case1 => exact neutral_nil
  | case2 c cs ih => exact ih h
  | case3 c cs _ ih =>
    rw [Bool.and_eq_true] at h
    show start.scan (c :: cs) = some start
    rw [scan_cons, step_unmarked (unmarked_of_class (by decide) h.1)]
    exact ih h.2

theorem neutral_figures {cs : List Char} (h : Figures cs) : Neutral cs :=
  neutral_of_unmarked fun c mem => unmarked_of_class (by decide) (h c mem)

theorem neutral_intercalate {separator : String} (h : Neutral separator.toList) {texts : List String}
    (all : ∀ t ∈ texts, Neutral t.toList) : Neutral (separator.intercalate texts).toList := by
  induction texts with
  | nil => exact neutral_nil
  | cons t texts ih =>
    rw [List.forall_mem_cons] at all
    cases texts with
    | nil =>
      rw [String.intercalate_singleton]
      exact all.1
    | cons u texts =>
      rw [String.intercalate_cons_cons, String.toList_append, String.toList_append]
      exact neutral_append (neutral_append all.1 h) (ih all.2)

end Text

open Text

/-! ## Rendering -/

/-- Nothing in the bound unbalances what is around it. -/
def Bound.Neutral : Bound → Prop
  | .token s => Text.Neutral s.toList
  | _ => True

instance (b : Bound) : Decidable b.Neutral := by
  unfold Bound.Neutral
  split <;> infer_instance

theorem Bound.neutral_text {b : Bound} (h : b.Neutral) : Text.Neutral b.text.toList := by
  rcases figures_bound b with figures | star | ⟨s, rfl⟩
  · exact neutral_figures figures
  · rw [star]; rfl
  · exact h

theorem Range.neutral_text {r : Range} (h : r.lower.Neutral ∧ r.upper.Neutral) : Text.Neutral r.text.toList := by
  have opening : Text.Neutral "[".toList := rfl
  have middle : Text.Neutral " TO ".toList := rfl
  have closing : Text.Neutral "]".toList := rfl
  simp only [Range.text, String.toList_append]
  exact neutral_append (neutral_append (neutral_append (neutral_append opening (Bound.neutral_text h.1)) middle)
    (Bound.neutral_text h.2)) closing

namespace Expr

/-- What an expression itself, without the expressions inside it, adds to a query. -/
def NeutralPart : Expr → Prop
  | .text content => Neutral content.toList
  | .range r => r.lower.Neutral ∧ r.upper.Neutral
  | .field name _ => Neutral name.toList
  | _ => True

instance (e : Expr) : Decidable e.NeutralPart := by
  unfold NeutralPart
  split <;> infer_instance

theorem neutral_enclosed (leaf : Bool) {s : String} (h : Neutral s.toList) : Neutral (enclosed leaf s).toList := by
  unfold enclosed
  split
  · exact h
  · rw [String.toList_append, String.toList_append]
    exact neutral_parenthesized h

theorem neutral_behind {lead s : String} (hl : Neutral lead.toList) (h : Neutral s.toList) :
    Neutral (behind lead s).toList := by
  unfold behind
  split
  · exact neutral_nil
  · rw [String.toList_append]
    exact neutral_append hl h

theorem neutral_joined {separator : String} (h : Neutral separator.toList) {texts : List String}
    (all : ∀ t ∈ texts, Neutral t.toList) : Neutral (joined separator texts).toList := by
  unfold joined
  split
  · exact neutral_nil
  · rw [String.toList_append, String.toList_append]
    exact neutral_parenthesized (neutral_intercalate h fun t mem => all t (List.mem_of_mem_filter mem))

theorem neutral_render {e : Expr} (h : ∀ n ∈ e.nodes, n.NeutralPart) : Neutral e.render.toList := by
  induction e with
  | text content => exact h _ (List.mem_singleton_self _)
  | range r => exact Range.neutral_text (h _ (List.mem_singleton_self _))
  | field name child ih =>
    simp only [nodes, List.forall_mem_append, List.forall_mem_singleton] at h
    have lead : Neutral (name ++ ":").toList := by
      rw [String.toList_append]
      exact neutral_append h.2 rfl
    exact neutral_behind lead (neutral_enclosed _ (ih h.1))
  | group j operands ih =>
    simp only [nodes, List.forall_mem_append, List.forall_mem_singleton] at h
    have separator : Neutral j.separator.toList := by cases j <;> rfl
    refine neutral_joined separator fun t mem => ?_
    rw [renderAll_eq_map] at mem
    obtain ⟨e, inside, rfl⟩ := List.mem_map.1 mem
    exact ih e inside fun n found => h.1 n (mem_allNodes.2 ⟨e, inside, found⟩)
  | signed s operand ih =>
    simp only [nodes, List.forall_mem_append, List.forall_mem_singleton] at h
    have lead : Neutral s.lead.toList := by cases s <;> rfl
    exact neutral_behind lead (neutral_enclosed _ (ih h.1))
  | choice flag yes no ihYes ihNo =>
    simp only [nodes, List.forall_mem_append, List.forall_mem_singleton] at h
    cases flag
    · exact ihNo h.1.2
    · exact ihYes h.1.1

/-! ## Texts made safe -/

theorem neutral_phrase {s : String} (quote : '"' ∉ s.toList) (backslash : '\\' ∉ s.toList) :
    Neutral (phrase s).render.toList := by
  rw [render_phrase]
  exact neutral_quoted quote backslash

/-- A query is neutral, and so its parentheses match, if every text, every field name and
    every token in a range is neutral. Wildcards, terms of one word and phrases without
    quotes and backslashes are; and of the bounds only a token can be anything else. -/
theorem neutral_queries :
    (∀ e : Expr, (∀ n ∈ e.nodes, n.NeutralPart) → Neutral e.render.toList ∧ Balanced e.render.toList) ∧
    (∀ s, Neutral (wildcard s).render.toList) ∧
    (∀ s, wordCount s ≤ 1 → Neutral (term s).render.toList) ∧
    (∀ s : String, '"' ∉ s.toList → '\\' ∉ s.toList → Neutral (phrase s).render.toList) ∧
    ∀ b : Bound, (∀ s, b ≠ .token s) → Neutral b.text.toList := by
  refine ⟨fun e h => ?_, fun s => ?_, fun s word => ?_, fun s => neutral_phrase, fun b noToken => ?_⟩
  · exact ⟨neutral_render h, balanced_of_neutral (neutral_render h)⟩
  · exact neutral_of_guarded (guarded_wildcard s)
  · exact neutral_of_guarded (guarded_term word)
  · refine Bound.neutral_text ?_
    cases b with
    | token s => exact absurd rfl (noToken s)
    | _ => trivial

/-- Parentheses that are escaped, quoted or paired, in a range and in a branch that is not
    selected; and an operand that stands for nothing. -/
theorem paired_and_escaped_are_neutral :
    let e := choice true
      (field "f(x)" (group .or [text "a\\)b", nothing, signed .not (range ⟨.token "now(1)", .unbounded⟩)]))
      (text "\"u )\"")
    (∀ n ∈ e.nodes, n.NeutralPart) ∧ Neutral e.render.toList ∧ Neutral (term " (x").render.toList ∧
      Neutral (phrase "a ) b").render.toList ∧ Neutral (Bound.unbounded).text.toList := by
  intro e
  have parts : ∀ n ∈ e.nodes, n.NeutralPart := by decide
  have noToken : ∀ s, Bound.unbounded ≠ .token s := by simp
  exact ⟨parts, (neutral_queries.1 e parts).1, neutral_queries.2.2.1 " (x" (by decide),
    neutral_queries.2.2.2.1 "a ) b" (by decide) (by decide), neutral_queries.2.2.2.2 .unbounded noToken⟩

end Expr

end SearchQuery
