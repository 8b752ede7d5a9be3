/-
  SearchQuery.Expr.Build — making expressions out of plain text, numbers and parts. Texts
  are made safe here, and every check happens here, once, whether the parts come from a
  caller or from JSON.
-/

import SearchQuery.Expr.Basic
import SearchQuery.Log
import SearchQuery.Text.Basic

namespace SearchQuery.Expr

open Number Text

/-- Text between quotes, as it is. -/
def quoted (s : String) : String := "\"" ++ s ++ "\""

/-- A text that is data. Several words are quoted, and one word is escaped; a lone `*`
    matches everything, and the empty text stands for nothing. -/
def term (s : String) : Expr :=
  if s = "*" then everything
  else if s = "" then nothing
  else .text (if 1 < wordCount s then quoted s else escape s)

/-- A text in which `*` and `?` are wildcards. -/
def wildcard (s : String) : Expr :=
  if s = "*" then everything
  else if s = "" then nothing
  else .text (escapeWildcard s)

def phrase (s : String) : Expr := .text (quoted s)

def ofScalar (n : Scalar) : Expr := term n.text

def ofBool (b : Bool) : Expr := term (if b then "true" else "false")

def between (lower upper : Bound) : Logged Rejection Expr :=
  match Range.make lower upper with
  | .ok r => pure (.range r)
  | .error reason => .reject (.rangeRejected reason) reason

def inField (name : String) (child : Expr) : Logged Rejection Expr :=
  if name = "" then .reject .fieldRejected .emptyField else pure (.field name child)

def join (j : Junction) (operands : List Expr) : Logged Rejection Expr :=
  if operands.length < 2 then
    .reject (.groupRejected j.operator operands.length) (.tooFewOperands j.operator operands.length)
  else pure (.group j operands)

end SearchQuery.Expr
