/-
  SearchQuery.Json.Document — JSON values as trees, and their compact text.

  A tree may stand for a text that is JSON only up to some point: `cut` is in the place
  where it stops being JSON, and nothing follows it. A string has no text when it contains
  half of a surrogate pair. An array or object that is nested too deep to be read is
  `deep`: all that is known of it is that it is JSON.
-/

namespace SearchQuery.Json

abbrev Key := Option String

inductive Document where
  | null
  | boolean (b : Bool)
  /-- A number, as it is written. -/
  | number (literal : List Char)
  | string (s : Option String)
  | array (items : List Document)
  | object (members : List (Key × Document))
  | deep
  | cut

namespace Document

def str (s : String) : Document := .string (some s)

def obj (members : List (String × Document)) : Document := .object (members.map fun m => (some m.1, m.2))

mutual

/-- Whether a tree stands for a whole JSON text. -/
def isWhole : Document → Bool
  | .array items => allWhole items
  | .object members => membersWhole members
  | .cut => false
  | _ => true

def allWhole : List Document → Bool
  | [] => true
  | d :: ds => isWhole d && allWhole ds

def membersWhole : List (Key × Document) → Bool
  | [] => true
  | (_, d) :: ms => isWhole d && membersWhole ms

end

/-! ## Text -/

def hexDigit (n : Nat) : Char := Nat.digitChar n

/-- Quotes, backslashes and control characters are escaped, all else stands for itself. -/
def escapeChar (c : Char) : List Char :=
  if c = '"' then ['\\', '"']
  else if c = '\\' then ['\\', '\\']
  else if c = '\x08' then ['\\', 'b']
  else if c = '\x0c' then ['\\', 'f']
  else if c = '\n' then ['\\', 'n']
  else if c = '\r' then ['\\', 'r']
  else if c = '\t' then ['\\', 't']
  else if c.toNat < 32 then ['\\', 'u', '0', '0', hexDigit (c.toNat / 16), hexDigit (c.toNat % 16)]
  else [c]

/-- A string without text is written as the surrogate that has no partner. -/
def stringChars : Option String → List Char
  | some s => '"' :: s.toList.flatMap escapeChar ++ ['"']
  | none => ['"', '\\', 'u', 'd', '8', '0', '0', '"']

mutual

def chars : Document → List Char
  | .null => ['n', 'u', 'l', 'l']
  | .boolean b => if b then ['t', 'r', 'u', 'e'] else ['f', 'a', 'l', 's', 'e']
  | .number literal => literal
  | .string s => stringChars s
  | .array [] => ['[', ']']
  | .array (d :: ds) => '[' :: chars d ++ restChars ds ++ [']']
  | .object [] => ['{', '}']
  | .object ((k, d) :: ms) => '{' :: stringChars k ++ ':' :: chars d ++ restMembers ms ++ ['}']
  | .deep => []
  | .cut => []

def restChars : List Document → List Char
  | [] => []
  | d :: ds => ',' :: chars d ++ restChars ds

def restMembers : List (Key × Document) → List Char
  | [] => []
  | (k, d) :: ms => ',' :: stringChars k ++ ':' :: chars d ++ restMembers ms

end

def text (d : Document) : String := String.ofList d.chars

end Document

end SearchQuery.Json
