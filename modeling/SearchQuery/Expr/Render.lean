/-
  SearchQuery.Expr.Render — the query text of a tree. An operand that renders to nothing
  takes its field name, sign or separator with it. Under a field or a sign, an operand that
  is no leaf once its choices are made stands in one more pair of parentheses.
-/

import SearchQuery.Expr.Basic

namespace SearchQuery.Expr

/-- An operand's text as it stands under a field or a sign. -/
def enclosed (leaf : Bool) (s : String) : String := if s = "" || leaf then s else "(" ++ s ++ ")"

/-- Text behind a field name or a sign; nothing stays nothing. -/
def behind (lead s : String) : String := if s = "" then "" else lead ++ s

/-- The texts that are not empty, in parentheses. -/
def joined (separator : String) (texts : List String) : String :=
  match texts.filter (· ≠ "") with
  | [] => ""
  | parts => "(" ++ separator.intercalate parts ++ ")"

mutual

def render : Expr → String
  | .text content => content
  | .range r => r.text
  | .field name child => behind (name ++ ":") (enclosed child.selected.isLeaf (render child))
  | .group j operands => joined j.separator (renderAll operands)
  | .signed s operand => behind s.lead (enclosed operand.selected.isLeaf (render operand))
  | .choice flag yes no => if flag then render yes else render no

def renderAll : List Expr → List String
  | [] => []
  | e :: es => render e :: renderAll es

end

theorem renderAll_eq_map (es : List Expr) : renderAll es = es.map render := by
  induction es with
  | nil => rfl
  | cons e es ih => simp [renderAll, ih]

def isEmpty (e : Expr) : Bool := render e = ""

end SearchQuery.Expr
