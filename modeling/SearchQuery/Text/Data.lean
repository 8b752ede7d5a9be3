/-
  SearchQuery.Text.Data — texts that a query reader takes for one piece of data: a token in
  which every reserved character is behind a backslash and which is no operator, or one
  quoted section. `content` is the data that such a text stands for.
-/

import SearchQuery.Text.Basic

namespace SearchQuery.Text

/-- Every backslash has a reserved character behind it, and every reserved character has a
    backslash in front. -/
def isEscaped : List Char → Bool
  | [] => true
  | '\\' :: c :: cs => isReserved c && isEscaped cs
  | c :: cs => !isReserved c && isEscaped cs

def operators : List (List Char) := [['A', 'N', 'D'], ['O', 'R'], ['N', 'O', 'T']]

def IsToken (cs : List Char) : Prop := cs ≠ [] ∧ isEscaped cs = true ∧ cs ∉ operators

/-- What is left after the quotation mark that closes a quoted section. -/
def afterQuote : List Char → Option (List Char)
  | [] => none
  | '\\' :: _ :: cs => afterQuote cs
  | c :: cs => if c = '"' then some cs else afterQuote cs

/-- A section that opens at the first character and closes at the last. -/
def IsQuotedSection : List Char → Prop
  | '"' :: cs => afterQuote cs = some []
  | _ => False

def IsData (cs : List Char) : Prop := IsToken cs ∨ IsQuotedSection cs

instance (cs : List Char) : Decidable (IsToken cs) := by unfold IsToken; infer_instance

instance (cs : List Char) : Decidable (IsQuotedSection cs) := by unfold IsQuotedSection; split <;> infer_instance

instance (cs : List Char) : Decidable (IsData cs) := by unfold IsData; infer_instance

/-- A text without its quotes, if it has them, and without its escapes. -/
def content : List Char → List Char
  | '"' :: cs => unescapeChars cs.dropLast
  | cs => unescapeChars cs

/-- What stands between quotes as it is, and anything else without its escapes. -/
def verbatim : List Char → List Char
  | '"' :: cs => cs.dropLast
  | cs => unescapeChars cs

end SearchQuery.Text
