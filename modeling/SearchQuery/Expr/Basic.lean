/-
  SearchQuery.Expr.Basic — expression trees. A text is already in the form in which the
  query shows it. Both branches of a choice are kept; `selected` is what it stands for.
-/

import SearchQuery.Range.Basic

namespace SearchQuery

inductive Junction where
  | and
  | or
  /-- Side by side, without a word. -/
  | firstOf
  deriving DecidableEq, Repr

def Junction.operator : Junction → String
  | .and => "AND"
  | .or => "OR"
  | .firstOf => "FIRST_OF"

def Junction.separator : Junction → String
  | .and => " AND "
  | .or => " OR "
  | .firstOf => " "

inductive Sign where
  | not
  | required
  | prohibited
  deriving DecidableEq, Repr

def Sign.lead : Sign → String
  | .not => "NOT "
  | .required => "+"
  | .prohibited => "-"

inductive Expr where
  | text (content : String)
  | range (r : Range)
  | field (name : String) (child : Expr)
  | group (j : Junction) (operands : List Expr)
  | signed (s : Sign) (operand : Expr)
  | choice (flag : Bool) (yes no : Expr)

namespace Expr

/-- Induction over trees; for a group the property is there of every operand. -/
@[induction_eliminator]
theorem induction {P : Expr → Prop} (text : ∀ content, P (.text content)) (range : ∀ r, P (.range r))
    (field : ∀ name child, P child → P (.field name child))
    (group : ∀ j operands, (∀ e ∈ operands, P e) → P (.group j operands))
    (signed : ∀ s operand, P operand → P (.signed s operand))
    (choice : ∀ flag yes no, P yes → P no → P (.choice flag yes no)) (e : Expr) : P e := by
  refine @Expr.rec P (fun es => ∀ e ∈ es, P e) text range field group signed choice ?nil ?cons e
  case nil => exact fun _ mem => nomatch mem
  case cons =>
    intro e es first others f mem
    rcases List.mem_cons.1 mem with rfl | mem
    · exact first
    · exact others f mem

/-- Matches everything. -/
def everything : Expr := .text "*"

/-- Stands for nothing. -/
def nothing : Expr := .text ""

/-- The expression that is left when choices at the top are made. -/
def selected : Expr → Expr
  | .choice flag yes no => if flag then yes.selected else no.selected
  | e => e

/-- Texts and ranges; they need no parentheses as operands. -/
def isLeaf : Expr → Bool
  | .text _ => true
  | .range _ => true
  | _ => false

def isAny : Expr → Bool
  | .text s => s = "*"
  | _ => false

mutual

/-- Equality of trees, choices not made; bounds are compared by `Bound.same`. -/
def same : Expr → Expr → Bool
  | .text s, .text t => s = t
  | .range r, .range s => r.same s
  | .field n a, .field m b => n = m && same a b
  | .group j as, .group k bs => j = k && allSame as bs
  | .signed s a, .signed t b => s = t && same a b
  | .choice f a b, .choice g c d => f = g && same a c && same b d
  | _, _ => false

def allSame : List Expr → List Expr → Bool
  | [], [] => true
  | a :: as, b :: bs => same a b && allSame as bs
  | _, _ => false

end

end Expr

end SearchQuery
