/-
  SearchQuery.Proofs.Replacement — when one expression may stand for another in any query.

  Equal texts are not enough: under a field or a sign a composite gets parentheses that a
  leaf with the same text does not get, and a choice hands on what its branch is through
  any number of levels. `Alike` adds just that, and only for texts that are not empty; every
  layer of a context keeps it (`alike_fill`), and a single sign in front tells apart what
  is not alike.
-/

import SearchQuery.Expr.WellFormed
import SearchQuery.Proofs.Pruning

namespace SearchQuery.Expr

/-! ## Choices made at the top -/

theorem render_selected (e : Expr) : e.selected.render = e.render := by
  induction e with
  | choice flag yes no ihYes ihNo =>
    cases flag
    · exact ihNo
    · exact ihYes
  | _ => rfl

theorem selected_selected (e : Expr) : e.selected.selected = e.selected := by
  induction e with
  | choice flag yes no ihYes ihNo =>
    cases flag
    · exact ihNo
    · exact ihYes
  | _ => rfl

theorem renderAll_append (es fs : List Expr) : renderAll (es ++ fs) = renderAll es ++ renderAll fs := by
  simp only [renderAll_eq_map, List.map_append]

/-! ## Expressions that render alike -/

/-- Equal texts, and both or neither a leaf unless there is no text. -/
def Alike (a b : Expr) : Prop := a.render = b.render ∧ (a.render = "" ∨ a.selected.isLeaf = b.selected.isLeaf)

theorem alike_selected (e : Expr) : Alike e e.selected :=
  ⟨(render_selected e).symm, .inr (by rw [selected_selected])⟩

theorem alike_under (lead : String) {a b : Expr} (h : Alike a b) :
    behind lead (enclosed a.selected.isLeaf a.render) = behind lead (enclosed b.selected.isLeaf b.render) := by
  obtain ⟨text, empty | leaf⟩ := h
  · rw [← text, empty, enclosed_empty, enclosed_empty]
  · rw [text, leaf]

theorem alike_fill {a b : Expr} (h : Alike a b) (c : Context) : Alike (c.fill a) (c.fill b) := by
  induction c with
  | hole => exact h
  | field name inner ih => exact ⟨alike_under _ ih, .inr rfl⟩
  | group j before inner after ih =>
    refine ⟨?_, .inr rfl⟩
    show joined _ (renderAll (before ++ inner.fill a :: after)) = joined _ (renderAll (before ++ inner.fill b :: after))
    rw [renderAll_append, renderAll_append, renderAll, renderAll, ih.1]
  | signed s inner ih => exact ⟨alike_under _ ih, .inr rfl⟩
  | chosen flag inner no ih =>
    cases flag
    · exact ⟨rfl, .inr rfl⟩
    · exact ih
  | otherwise flag yes inner ih =>
    cases flag
    · exact ih
    · exact ⟨rfl, .inr rfl⟩

/-! ## Telling expressions apart -/

theorem length_enclosed (leaf : Bool) {s : String} (h : s ≠ "") :
    (enclosed leaf s).length = s.length + (if leaf then 0 else 2) := by
  rw [enclosed_of_ne leaf h]
  cases leaf
  · simp only [Pruned.parenthesized, Bool.false_eq_true, if_false, String.length_append]
    show 1 + s.length + 1 = s.length + 2
    omega
  · rfl

/-- The two parentheses of a composite show. -/
theorem leaf_of_enclosed_eq {s : String} (h : s ≠ "") {p q : Bool} (e : enclosed p s = enclosed q s) : p = q := by
  have lengths := congrArg String.length e
  rw [length_enclosed p h, length_enclosed q h] at lengths
  cases p <;> cases q <;> simp at lengths ⊢

theorem alike_of_required {a b : Expr} (text : a.render = b.render)
    (h : (signed .required a).render = (signed .required b).render) : Alike a b := by
  refine ⟨text, ?_⟩
  by_cases empty : a.render = ""
  · exact .inl empty
  · right
    have ne : ∀ leaf, enclosed leaf a.render ≠ "" := fun leaf => by
      rw [enclosed_of_ne leaf empty]; exact parenthesized_ne leaf empty
    have h : behind "+" (enclosed a.selected.isLeaf a.render) = behind "+" (enclosed b.selected.isLeaf b.render) := h
    rw [← text, behind_of_ne _ (ne _), behind_of_ne _ (ne _), String.append_right_inj] at h
    exact leaf_of_enclosed_eq empty h

/-- Two expressions may replace each other in every context exactly when their texts agree
    and, unless these are empty, both or neither are leaves once their choices are made. So
    making the choices at the top of an expression never changes a query. -/
theorem render_fill_eq_iff (a b : Expr) :
    ((∀ c : Context, c.Sound → (c.fill a).render = (c.fill b).render) ↔
      a.render = b.render ∧ (a.render = "" ∨ a.selected.isLeaf = b.selected.isLeaf)) ∧
    ∀ c : Context, (c.fill a).render = (c.fill a.selected).render := by
  refine ⟨⟨fun h => ?_, fun h c _ => ?_⟩, fun c => ?_⟩
  · exact alike_of_required (h .hole trivial) (h (.signed .required .hole) trivial)
  · exact (alike_fill h c).1
  · exact (alike_fill (alike_selected a) c).1

/-- The same text as a leaf and as a composite: it shows under a sign. -/
example : (text "(x)").render = (group .and [text "x", nothing]).render ∧
    (signed .not (text "(x)")).render ≠ (signed .not (group .and [text "x", nothing])).render := by
  decide

end SearchQuery.Expr
