/-
  SearchQuery.Expr.WellFormed — what the checks of building leave: every bound has a text
  the search engine can read, every field has a name, and every group has two operands or
  more. A choice is well formed only with both its branches.

  A context is an expression with one hole, and `fill` puts an expression into it. It is
  sound when everything around the hole could have been built, that is with a name for
  every field and two operands or more in every group.
-/

import SearchQuery.Expr.Basic

namespace SearchQuery

def Bound.WellFormed : Bound → Prop
  | .token s => s ≠ ""
  | .decimal x => x.isFinite = true
  | _ => True

def Range.WellFormed (r : Range) : Prop := r.lower.WellFormed ∧ r.upper.WellFormed

namespace Expr

mutual

def WellFormed : Expr → Prop
  | .text _ => True
  | .range r => r.WellFormed
  | .field name child => name ≠ "" ∧ WellFormed child
  | .group _ operands => 2 ≤ operands.length ∧ AllWellFormed operands
  | .signed _ operand => WellFormed operand
  | .choice _ yes no => WellFormed yes ∧ WellFormed no

def AllWellFormed : List Expr → Prop
  | [] => True
  | e :: es => WellFormed e ∧ AllWellFormed es

end

theorem allWellFormed_iff (es : List Expr) : AllWellFormed es ↔ ∀ e ∈ es, e.WellFormed := by
  induction es with
  | nil => simp [AllWellFormed]
  | cons e es ih => simp [AllWellFormed, ih]

end Expr

/-! ## Contexts -/

inductive Context where
  | hole
  | field (name : String) (inner : Context)
  | group (j : Junction) (before : List Expr) (inner : Context) (after : List Expr)
  | signed (s : Sign) (inner : Context)
  | chosen (flag : Bool) (inner : Context) (no : Expr)
  | otherwise (flag : Bool) (yes : Expr) (inner : Context)

namespace Context

def fill (e : Expr) : Context → Expr
  | .hole => e
  | .field name inner => .field name (inner.fill e)
  | .group j before inner after => .group j (before ++ inner.fill e :: after)
  | .signed s inner => .signed s (inner.fill e)
  | .chosen flag inner no => .choice flag (inner.fill e) no
  | .otherwise flag yes inner => .choice flag yes (inner.fill e)

def Sound : Context → Prop
  | .hole => True
  | .field name inner => name ≠ "" ∧ inner.Sound
  | .group _ before inner after => 0 < before.length + after.length ∧ inner.Sound
  | .signed _ inner => inner.Sound
  | .chosen _ inner _ => inner.Sound
  | .otherwise _ _ inner => inner.Sound

end Context

end SearchQuery
