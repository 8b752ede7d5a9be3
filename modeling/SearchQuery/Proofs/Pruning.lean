/-
  SearchQuery.Proofs.Pruning — rendering a tree is printing what pruning leaves of it.

  The renderer makes the choices, drops what is empty and writes parentheses all at once,
  and asks the texts whether they are empty. `prune_spec` ties all of it to the pruned
  tree: a tree of which nothing is left has no text, and of any other tree the text is
  that of the pruned one, is not empty, and counts as a leaf when the pruned one is a leaf.
-/

import SearchQuery.Expr.Prune
import SearchQuery.Expr.Render

namespace SearchQuery.Expr

/-! ## Empty texts -/

theorem behind_empty (lead : String) : behind lead "" = "" := rfl

theorem behind_of_ne (lead : String) {s : String} (h : s ≠ "") : behind lead s = lead ++ s := if_neg h

theorem enclosed_empty (leaf : Bool) : enclosed leaf "" = "" := rfl

theorem enclosed_of_ne (leaf : Bool) {s : String} (h : s ≠ "") : enclosed leaf s = Pruned.parenthesized leaf s := by
  simp [enclosed, Pruned.parenthesized, h]

theorem append_ne_right (s : String) {t : String} (h : t ≠ "") : s ++ t ≠ "" :=
  fun e => h (String.append_eq_empty_iff.mp e).2

theorem parenthesized_ne (leaf : Bool) {s : String} (h : s ≠ "") : Pruned.parenthesized leaf s ≠ "" := by
  cases leaf
  · exact append_ne_right _ (by decide)
  · exact h

/-! ## What a tree shares with what is left of it -/

def Leaves (e : Expr) : Option Pruned → Prop
  | none => e.render = ""
  | some p => e.render = p.print ∧ p.print ≠ "" ∧ p.isLeaf = e.selected.isLeaf

/-! A field and a sign treat their operand alike. -/

theorem behind_nothing (lead : String) {e : Expr} (h : Leaves e none) :
    behind lead (enclosed e.selected.isLeaf e.render) = "" := by
  have h : e.render = "" := h
  rw [h, enclosed_empty, behind_empty]

theorem behind_left (lead : String) {e : Expr} {p : Pruned} (h : Leaves e (some p)) :
    behind lead (enclosed e.selected.isLeaf e.render) = lead ++ Pruned.parenthesized p.isLeaf p.print ∧
      lead ++ Pruned.parenthesized p.isLeaf p.print ≠ "" := by
  obtain ⟨text, ne, leaf⟩ := h
  have ne' := parenthesized_ne p.isLeaf ne
  rw [text, ← leaf, enclosed_of_ne _ ne, behind_of_ne lead ne']
  exact ⟨rfl, append_ne_right _ ne'⟩

mutual

theorem prune_spec : ∀ e : Expr, Leaves e e.prune
  | .text content => by
    by_cases h : content = ""
    · simp only [prune, h, if_true]; exact rfl
    · simp only [prune, h, if_false]; exact ⟨rfl, h, rfl⟩
  | .range r => by
    refine ⟨rfl, ?_, rfl⟩
    show r.text ≠ ""
    exact append_ne_right _ (by decide)
  | .field name child => by
    have ih := prune_spec child
    rw [prune]
    cases h : child.prune with
    | none => rw [h] at ih; exact behind_nothing _ ih
    | some p =>
      rw [h] at ih
      obtain ⟨text, ne⟩ := behind_left (name ++ ":") ih
      exact ⟨text, ne, rfl⟩
  | .group j operands => by
    have ih := pruneAll_spec operands
    rw [prune]
    cases h : pruneAll operands with
    | nil =>
      rw [h] at ih
      show joined _ (renderAll operands) = ""
      simp only [joined, ih, Pruned.printAll]
    | cons p ps =>
      rw [h] at ih
      refine ⟨?_, append_ne_right _ (by decide), rfl⟩
      show joined _ (renderAll operands) = "(" ++ j.separator.intercalate (Pruned.printAll (p :: ps)) ++ ")"
      simp only [joined, ih, Pruned.printAll]
  | .signed s operand => by
    have ih := prune_spec operand
    rw [prune]
    cases h : operand.prune with
    | none => rw [h] at ih; exact behind_nothing _ ih
    | some p =>
      rw [h] at ih
      obtain ⟨text, ne⟩ := behind_left s.lead ih
      exact ⟨text, ne, rfl⟩
  | .choice true yes no => prune_spec yes
  | .choice false yes no => prune_spec no

theorem pruneAll_spec : ∀ es : List Expr, (renderAll es).filter (· ≠ "") = Pruned.printAll (pruneAll es)
  | [] => rfl
  | e :: es => by
    have ih := prune_spec e
    have ihs := pruneAll_spec es
    rw [renderAll, pruneAll]
    cases h : e.prune with
    | none =>
      rw [h] at ih
      have text : e.render = "" := ih
      rw [List.filter_cons_of_neg (by simp [text]), ihs]; rfl
    | some p =>
      rw [h] at ih
      obtain ⟨text, ne, -⟩ := ih
      rw [List.filter_cons_of_pos (by simpa [text] using ne), ihs, text]; rfl

end

theorem render_of_prune_none {e : Expr} (h : e.prune = none) : e.render = "" := by
  have spec := prune_spec e
  rwa [h] at spec

theorem render_of_prune_some {e : Expr} {p : Pruned} (h : e.prune = some p) : e.render = p.print ∧ p.print ≠ "" := by
  have spec := prune_spec e
  rw [h] at spec
  exact ⟨spec.1, spec.2.1⟩

theorem isEmpty_iff_render_eq (e : Expr) : e.isEmpty = true ↔ e.render = "" := decide_eq_true_iff

/-- Rendering is making the choices, dropping what is empty and printing the rest, in this
    order; and an expression is empty exactly when that leaves nothing. -/
theorem render_eq_print_prune (e : Expr) :
    e.render = e.prune.elim "" Pruned.print ∧ (e.isEmpty = true ↔ e.prune = none) := by
  rw [isEmpty_iff_render_eq]
  cases left : e.prune with
  | none => exact ⟨render_of_prune_none left, iff_of_true (render_of_prune_none left) rfl⟩
  | some p =>
    obtain ⟨text, ne⟩ := render_of_prune_some left
    refine ⟨text, iff_of_false ?_ (by simp)⟩
    rwa [text]

/-- A sign over a group that keeps one operand, which is a choice. -/
example : (signed .not (group .or [nothing, choice true (field "f" (text "a")) nothing])).prune =
      some (.signed .not (.group .or [.field "f" (.text "a")])) ∧
    (signed .not (group .or [nothing, choice true (field "f" (text "a")) nothing])).render = "NOT ((f:a))" :=
  ⟨rfl, by decide⟩

end SearchQuery.Expr
