/-
  SearchQuery.Expr.Prune — trees without choices and without parts that stand for nothing.
  `prune` makes the choices and drops what is empty; `print` writes what is left, with no
  test for emptiness. `Shape` is what a reader of the query can tell apart: it forgets the
  junction of a group that has kept a single operand, and the kinds of bounds.
-/

import SearchQuery.Expr.Basic

namespace SearchQuery

/-- A tree in which every part has a text. -/
inductive Pruned where
  | text (content : String)
  | range (r : Range)
  | field (name : String) (child : Pruned)
  | group (j : Junction) (operands : List Pruned)
  | signed (s : Sign) (operand : Pruned)

namespace Expr

mutual

/-- What is left of a tree, if anything is. -/
def prune : Expr → Option Pruned
  | .text content => if content = "" then none else some (.text content)
  | .range r => some (.range r)
  | .field name child => (prune child).map (.field name)
  | .group j operands => match pruneAll operands with
    | [] => none
    | kept => some (.group j kept)
  | .signed s operand => (prune operand).map (.signed s)
  | .choice flag yes no => if flag then prune yes else prune no

def pruneAll : List Expr → List Pruned
  | [] => []
  | e :: es => (prune e).toList ++ pruneAll es

end

end Expr

namespace Pruned

/-! ## Printing -/

def isLeaf : Pruned → Bool
  | .text _ => true
  | .range _ => true
  | _ => false

/-- Parentheses around everything but a leaf. -/
def parenthesized (leaf : Bool) (s : String) : String := if leaf then s else "(" ++ s ++ ")"

mutual

def print : Pruned → String
  | .text content => content
  | .range r => r.text
  | .field name child => name ++ ":" ++ parenthesized child.isLeaf (print child)
  | .group j operands => "(" ++ j.separator.intercalate (printAll operands) ++ ")"
  | .signed s operand => s.lead ++ parenthesized operand.isLeaf (print operand)

def printAll : List Pruned → List String
  | [] => []
  | p :: ps => print p :: printAll ps

end

end Pruned

/-! ## Shapes -/

inductive Shape where
  | text (content : String)
  | range (lower upper : String)
  | field (name : String) (child : Shape)
  /-- A group of one. -/
  | single (operand : Shape)
  | group (j : Junction) (operands : List Shape)
  | signed (s : Sign) (operand : Shape)

mutual

def Pruned.shape : Pruned → Shape
  | .text content => .text content
  | .range r => .range r.lower.text r.upper.text
  | .field name child => .field name (Pruned.shape child)
  | .group _ [p] => .single (Pruned.shape p)
  | .group j operands => .group j (Pruned.shapes operands)
  | .signed s operand => .signed s (Pruned.shape operand)

def Pruned.shapes : List Pruned → List Shape
  | [] => []
  | p :: ps => Pruned.shape p :: Pruned.shapes ps

end

end SearchQuery
