/-
  SearchQuery.Proofs.Shape — the text of a tree is the text of its shape.

  `Shape.chars` writes a shape; `print_shape` says that a pruned tree prints as its shape
  does, so what a shape forgets, the junction of a group of one and the kinds of bounds,
  is nowhere in the text. With the pruning of `Expr.prune_spec` this gives the text of any
  expression from its shape (`render_eq_chars`).
-/

import SearchQuery.Proofs.Pruning

namespace SearchQuery

/-- What a reader of the query can tell of an expression; nothing when it has no text. -/
def Expr.shape? (e : Expr) : Option Shape := e.prune.map Pruned.shape

namespace Shape

def isLeaf : Shape → Bool
  | .text _ => true
  | .range _ _ => true
  | _ => false

def parenthesized (leaf : Bool) (cs : List Char) : List Char := if leaf then cs else '(' :: cs ++ [')']

mutual

def chars : Shape → List Char
  | .text content => content.toList
  | .range lower upper => '[' :: (lower.toList ++ ([' ', 'T', 'O', ' '] ++ (upper.toList ++ [']'])))
  | .field name child => name.toList ++ ':' :: parenthesized child.isLeaf (chars child)
  | .single operand => '(' :: chars operand ++ [')']
  | .group _ [] => ['(', ')']
  | .group j (p :: ps) => '(' :: chars p ++ charsAfter j ps ++ [')']
  | .signed s operand => s.lead.toList ++ parenthesized operand.isLeaf (chars operand)

/-- The operands behind the first one, a separator before each. -/
def charsAfter (j : Junction) : List Shape → List Char
  | [] => []
  | p :: ps => j.separator.toList ++ chars p ++ charsAfter j ps

end

end Shape

namespace Pruned

open Shape (chars charsAfter)

theorem isLeaf_shape (p : Pruned) : p.shape.isLeaf = p.isLeaf := by
  cases p with
  | group j operands =>
    match operands with
    | [] => rfl
    | [_] => rfl
    | _ :: _ :: _ => rfl
  | _ => rfl

theorem parenthesized_toList (leaf : Bool) (s : String) :
    (parenthesized leaf s).toList = Shape.parenthesized leaf s.toList := by
  cases leaf
  · simp only [parenthesized, Shape.parenthesized, Bool.false_eq_true, if_false, String.toList_append]; rfl
  · rfl

mutual

theorem print_shape : ∀ p : Pruned, p.print.toList = p.shape.chars
  | .text _ => rfl
  | .range r => by
    show ("[" ++ r.lower.text ++ " TO " ++ r.upper.text ++ "]").toList = _
    simp only [String.toList_append, List.append_assoc]; rfl
  | .field name child => by
    show (name ++ ":" ++ parenthesized child.isLeaf child.print).toList =
      name.toList ++ ':' :: Shape.parenthesized child.shape.isLeaf child.shape.chars
    rw [String.toList_append, String.toList_append, parenthesized_toList, print_shape child, isLeaf_shape,
      List.append_assoc]
    rfl
  | .group j [] => by
    show ("(" ++ j.separator.intercalate [] ++ ")").toList = ['(', ')']
    rw [String.intercalate_nil]; rfl
  | .group j [p] => by
    show ("(" ++ j.separator.intercalate [p.print] ++ ")").toList = '(' :: p.shape.chars ++ [')']
    rw [String.intercalate_singleton, String.toList_append, String.toList_append, print_shape p]; rfl
  | .group j (p :: q :: ps) => by
    show ("(" ++ j.separator.intercalate (p.print :: printAll (q :: ps)) ++ ")").toList =
      '(' :: p.shape.chars ++ charsAfter j (shapes (q :: ps)) ++ [')']
    rw [String.toList_append, String.toList_append, printAll_shapes j p.print (q :: ps), print_shape p]
    rfl
  | .signed s operand => by
    show (s.lead ++ parenthesized operand.isLeaf operand.print).toList =
      s.lead.toList ++ Shape.parenthesized operand.shape.isLeaf operand.shape.chars
    rw [String.toList_append, parenthesized_toList, print_shape operand, isLeaf_shape]

theorem printAll_shapes (j : Junction) (first : String) : ∀ ps : List Pruned,
    (j.separator.intercalate (first :: printAll ps)).toList = first.toList ++ charsAfter j (shapes ps)
  | [] => by
    show (j.separator.intercalate [first]).toList = _
    rw [String.intercalate_singleton]; exact (List.append_nil _).symm
  | p :: ps => by
    show (j.separator.intercalate (first :: p.print :: printAll ps)).toList =
      first.toList ++ (j.separator.toList ++ p.shape.chars ++ charsAfter j (shapes ps))
    rw [String.intercalate_cons_cons, String.toList_append, String.toList_append, printAll_shapes j p.print ps,
      print_shape p, List.append_assoc, List.append_assoc]

end

end Pruned

namespace Expr

theorem render_eq_chars (e : Expr) : e.render.toList = e.shape?.elim [] Shape.chars := by
  unfold shape?
  cases h : e.prune with
  | none => rw [render_of_prune_none h]; rfl
  | some p => rw [(render_of_prune_some h).1]; exact p.print_shape

/-- Equal shapes have equal texts. -/
theorem render_eq_of_shape_eq {a b : Expr} (h : a.shape? = b.shape?) : a.render = b.render := by
  apply String.toList_injective
  rw [render_eq_chars, render_eq_chars, h]

end Expr

end SearchQuery
