/-
  SearchQuery.Proofs.Construction — well-formed expressions are exactly the expressions that
  a caller can get hold of (`reachable_iff_wellFormed`).

  The checks let nothing else through; that is `wellFormed_of_reachable`. The other way
  round, every well-formed expression tells the steps that build it: `recipe` takes texts
  from JSON, where they are taken as they are, and puts everything else together by the
  constructors, none of which refuses it.
-/

import SearchQuery.Proofs.RoundTrip

namespace SearchQuery

open Json Logged Number Time

/-! ## Bounds show -/

namespace Bound

/-- A bound that passes its check leaves no gap in the text of its range. -/
theorem text_ne_empty {b : Bound} (h : b.WellFormed) : b.text ≠ "" := by
  intro empty
  cases b with
  | date t =>
    have nothing := String.ofList_eq_empty_iff.1 empty
    simp at nothing
  | integer n =>
    have read := readInt?_intChars n.val
    rw [String.ofList_eq_empty_iff.1 empty] at read
    cases read
  | decimal x =>
    have back : (Numeral.read? (x.written .query)).map (Numeral.nearest .double) = some x :=
      Binary.read_written (.inl rfl) h
    rw [String.ofList_eq_empty_iff.1 empty] at back
    cases back
  | token s => exact h empty
  | unbounded => exact absurd empty (by decide)

end Bound

namespace Expr

/-! ## The steps that build an expression -/

mutual

def recipe : Expr → Recipe
  | .text content => .json (document (.text content)).text
  | .range r => .range (.bound r.lower) (.bound r.upper)
  | .field name child => .inField name (recipe child)
  | .group j operands => .join j (recipes operands)
  | .signed s operand => .signed s (recipe operand)
  | .choice flag yes no => .choice flag (recipe yes) (recipe no)

def recipes : List Expr → List Recipe
  | [] => []
  | e :: es => recipe e :: recipes es

end

variable (env : String → Option Expr)

theorem result_runAll_recipes {es : List Expr} (h : ∀ e ∈ es, (e.recipe.run env).result = .ok e) :
    (Recipe.runAll env (recipes es)).result = .ok es := by
  induction es with
  | nil => rfl
  | cons e es ih =>
    rw [List.forall_mem_cons] at h
    rw [recipes, Recipe.runAll, result_bind, h.1]
    show (Recipe.runAll env (recipes es) >>= fun es => pure (e :: es)).result = _
    rw [result_bind, ih h.2]
    rfl

/-- Only JSON gives a text as it is. -/
theorem result_readText_text (content : String) :
    (readText read (document (.text content)).text).result = .ok (.text content) := by
  have legible : (document (.text content)).Legible := Document.legible_single trivial
  have shallow : (document (.text content)).depth = 1 := rfl
  rw [readText_text read legible (by rw [shallow]; decide)]
  rfl

theorem result_run_recipe {e : Expr} (h : e.WellFormed) : (e.recipe.run env).result = .ok e := by
  induction e with
  | text content =>
    rw [recipe, Recipe.run, result_mapError, result_readText_text]
    rfl
  | range r =>
    rw [recipe, Recipe.run]
    simp only [Limit.make, Logged.ofExcept, Range.make_of_wellFormed h, ok_bind]
    rfl
  | field name child ih =>
    rw [recipe, Recipe.run, result_bind, ih h.2]
    show ((inField name child).mapError Failure.rejected).result = _
    rw [inField, if_neg h.1]
    rfl
  | group j operands ih =>
    have each : ∀ e ∈ operands, (e.recipe.run env).result = .ok e := fun e mem =>
      ih e mem ((allWellFormed_iff operands).1 h.2 e mem)
    rw [recipe, Recipe.run, result_bind, result_runAll_recipes env each]
    show ((join j operands).mapError Failure.rejected).result = _
    rw [join, if_neg (Nat.not_lt.2 h.1)]
    rfl
  | signed s operand ih =>
    rw [recipe, Recipe.run, result_bind, ih h]
    rfl
  | choice flag yes no ihYes ihNo =>
    rw [recipe, Recipe.run, result_bind, ihYes h.1]
    show (no.recipe.run env >>= fun no => pure (choice flag yes no)).result = _
    rw [result_bind, ihNo h.2]
    rfl

theorem reachable_of_wellFormed {e : Expr} (h : e.WellFormed) : Reachable e :=
  .run (fun _ _ known => by cases known) (result_run_recipe (fun _ => none) h)

/-- A caller can get hold of the well-formed expressions and of no others. Each of them
    equals itself, and wherever a range stands in it, both its bounds have a text. -/
theorem reachable_iff_wellFormed (e : Expr) :
    (Reachable e ↔ e.WellFormed) ∧
    (Reachable e → e.same e = true ∧ ∀ r, .range r ∈ e.nodes → r.lower.text ≠ "" ∧ r.upper.text ≠ "") := by
  refine ⟨⟨wellFormed_of_reachable, reachable_of_wellFormed⟩, fun reached => ?_⟩
  have h := wellFormed_of_reachable reached
  refine ⟨same_self e h, fun r mem => ?_⟩
  obtain ⟨lower, upper⟩ : r.WellFormed := wellFormed_of_mem_nodes h (.range r) mem
  exact ⟨Bound.text_ne_empty lower, Bound.text_ne_empty upper⟩

/-- A bracket left open, minus zero and a group of two that stands for nothing can be
    reached, also in a branch that is not selected. -/
theorem odd_branch_is_reachable :
    let e := choice true nothing
      (group .and [text "(\"", field "f" (range ⟨.decimal ⟨true, 0, Format.places_pos _⟩, .token "*"⟩)])
    e.WellFormed ∧ Reachable e ∧ e.same e = true := by
  intro e
  have h : e.WellFormed := by
    simp [e, nothing, WellFormed, AllWellFormed, Range.WellFormed, Bound.WellFormed]
    decide
  have reached : Reachable e := (reachable_iff_wellFormed e).1.2 h
  exact ⟨h, reached, ((reachable_iff_wellFormed e).2 reached).1⟩

end Expr

end SearchQuery
