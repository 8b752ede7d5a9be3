/-
  SearchQuery.Expr.Json — expressions as JSON. An expression is an object with one member,
  the kind of the expression and its body. Reading builds every field and every group under
  the checks of `Expr.inField` and `Expr.join`, as soon as its body has been read; so of
  several faults the first in the text is the one reported, inner ones before outer ones.
-/

import SearchQuery.Expr.Build
import SearchQuery.Range.Json

namespace SearchQuery

open Json Json.Reading

def Junction.tag : Junction → String
  | .and => "and"
  | .or => "or"
  | .firstOf => "first_of"

def Junction.ofTag? (tag : String) : Option Junction := [Junction.and, .or, .firstOf].find? (·.tag = tag)

def Sign.tag : Sign → String
  | .not => "not"
  | .required => "required"
  | .prohibited => "prohibited"

def Sign.ofTag? (tag : String) : Option Sign := [Sign.not, .required, .prohibited].find? (·.tag = tag)

namespace Expr

/-- The four kinds of expressions that JSON tells apart. -/
inductive Kind where
  | text
  | range
  | field
  | combinator
  deriving DecidableEq, Repr

def Kind.tag : Kind → String
  | .text => "text"
  | .range => "range"
  | .field => "field"
  | .combinator => "combinator"

def Kind.ofTag? (tag : String) : Option Kind := [Kind.text, .range, .field, .combinator].find? (·.tag = tag)

def kind : Expr → Kind
  | .text _ => .text
  | .range _ => .range
  | .field _ _ => .field
  | _ => .combinator

/-! ## Writing -/

def tagged (k : Kind) (body : Document) : Document := .obj [(k.tag, body)]

mutual

/-- What stands behind the kind. -/
def body : Expr → Document
  | .text content => .str content
  | .range r => r.document
  | .field name child => .obj [("name", .str name), ("child", tagged child.kind (body child))]
  | .group j operands => .obj [(j.tag, .array (documents operands))]
  | .signed s operand => .obj [(s.tag, tagged operand.kind (body operand))]
  | .choice flag yes no =>
    .obj [("conditional", .obj [("flag", .boolean flag), ("then", tagged yes.kind (body yes)),
      ("otherwise", tagged no.kind (body no))])]

def documents : List Expr → List Document
  | [] => []
  | e :: es => tagged e.kind (body e) :: documents es

end

def document (e : Expr) : Document := tagged e.kind e.body

/-! ## Reading -/

/-- The parts of a choice that have been read. -/
structure Branches where
  flag : Option Bool
  yes : Option Expr
  no : Option Expr

def Branches.choice : Branches → Reading Expr
  | ⟨some flag, some yes, some no⟩ => pure (.choice flag yes no)
  | _ => malformed

mutual

def read : Document → Reading Expr
  | .object ((some tag, d) :: rest) =>
    match Kind.ofTag? tag with
    | some k => do last rest (← readBody k d)
    | none => malformed
  | _ => malformed

/-- Reads what stands behind the kind. -/
def readBody : Kind → Document → Reading Expr
  | .text, d => do return .text (← d.asText)
  | .range, d => do return .range (← Range.read d)
  | .field, .array (name :: child :: rest) => do
    let name ← name.asText
    let child ← read child
    checked (inField name (← last rest child))
  | .field, .object members => readFieldMembers none none members
  | .combinator, .object ((some tag, d) :: rest) =>
    match Junction.ofTag? tag, Sign.ofTag? tag with
    | some j, _ => do checked (join j (← last rest (← readOperands d)))
    | none, some s => do return .signed s (← last rest (← read d))
    | none, none => if tag = "conditional" then do last rest (← readChoice d) else malformed
  | _, _ => malformed

def readFieldMembers (name : Option String) (child : Option Expr) : List (Key × Document) → Reading Expr
  | [] => match name, child with
    | some name, some child => checked (inField name child)
    | _, _ => malformed
  | (key, d) :: ms =>
    if key = some "name" then
      if name.isSome then malformed else do readFieldMembers (some (← d.asText)) child ms
    else if key = some "child" then
      if child.isSome then malformed else do readFieldMembers name (some (← read d)) ms
    else if key.isSome && d.isWhole then readFieldMembers name child ms
    else malformed

def readOperands : Document → Reading (List Expr)
  | .array items => readAll items
  | _ => malformed

def readAll : List Document → Reading (List Expr)
  | [] => pure []
  | d :: ds => do
    let e ← read d
    return e :: (← readAll ds)

def readChoice : Document → Reading Expr
  | .array (flag :: yes :: no :: rest) => do
    let flag ← flag.asBool
    let yes ← read yes
    let no ← read no
    last rest (.choice flag yes no)
  | .array (flag :: yes :: _) => do
    let _ ← flag.asBool
    let _ ← read yes
    malformed
  | .object members => readChoiceMembers ⟨none, none, none⟩ members
  | _ => malformed

def readChoiceMembers (found : Branches) : List (Key × Document) → Reading Expr
  | [] => found.choice
  | (key, d) :: ms =>
    if key = some "flag" then
      if found.flag.isSome then malformed else do readChoiceMembers { found with flag := some (← d.asBool) } ms
    else if key = some "then" then
      if found.yes.isSome then malformed else do readChoiceMembers { found with yes := some (← read d) } ms
    else if key = some "otherwise" then
      if found.no.isSome then malformed else do readChoiceMembers { found with no := some (← read d) } ms
    else if key.isSome && d.isWhole then readChoiceMembers found ms
    else malformed

end

end Expr

end SearchQuery
