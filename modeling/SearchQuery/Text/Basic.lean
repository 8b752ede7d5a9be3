/-
  SearchQuery.Text.Basic — the characters that count in a text, and texts made safe for a
  query. White space is the Unicode property White_Space, which date texts skip; a word
  ends at a delimiter; and every character that the query syntax reserves, its own blanks
  among them, is written behind a backslash. `unescape` is the reader's side: a backslash
  makes the next character literal.

  The wildcard escaper leaves `*` and `?` to the query. It puts two stand-ins in their
  place, escapes, and puts them back, so the stand-ins themselves also come out as
  wildcards.
-/

namespace SearchQuery.Text

/-! ## White space -/

/-- The code points of the property White_Space, as inclusive ranges. -/
def whiteSpaceRanges : List (Nat × Nat) :=
  [(0x0009, 0x000D), (0x0020, 0x0020), (0x0085, 0x0085), (0x00A0, 0x00A0), (0x1680, 0x1680), (0x2000, 0x200A),
   (0x2028, 0x2029), (0x202F, 0x202F), (0x205F, 0x205F), (0x3000, 0x3000)]

def isWhiteSpace (c : Char) : Bool := whiteSpaceRanges.any fun r => r.1 ≤ c.toNat && c.toNat ≤ r.2

/-- White space that joins words instead of separating them: next line and the no-break spaces. -/
def joiningBlanks : List Nat := [0x0085, 0x00A0, 0x2007, 0x202F]

/-- A blank of the query syntax: an information separator (U+001C to U+001F), or white
    space that separates. -/
def isQueryBlank (c : Char) : Bool :=
  (0x1C ≤ c.toNat && c.toNat ≤ 0x1F) || (!joiningBlanks.contains c.toNat && isWhiteSpace c)

/-! ## Words -/

/-- Space, tab, line feed, carriage return and form feed. -/
def isDelimiter (c : Char) : Bool := [' ', '\t', '\n', '\r', '\x0c'].contains c

def words (cs : List Char) : List (List Char) := (cs.splitOnP isDelimiter).filter (!·.isEmpty)

def wordCount (s : String) : Nat := (words s.toList).length

/-! ## Escapes -/

/-- The punctuation that the query syntax reads as an operator. -/
def reservedMarks : List Char :=
  ['\\', '+', '-', '!', '(', ')', ':', '^', '[', ']', '"', '{', '}', '~', '*', '?', '|', '&', ';', '/']

def isReserved (c : Char) : Bool := reservedMarks.contains c || isQueryBlank c

def escapeChar (c : Char) : List Char := if isReserved c then ['\\', c] else [c]

def escapeChars (cs : List Char) : List Char := cs.flatMap escapeChar

def escape (s : String) : String := String.ofList (escapeChars s.toList)

/-- Drops each backslash that is not itself escaped and keeps the character after it. -/
def unescapeChars : List Char → List Char
  | [] => []
  | ['\\'] => []
  | '\\' :: c :: cs => c :: unescapeChars cs
  | c :: cs => c :: unescapeChars cs

def unescape (s : String) : String := String.ofList (unescapeChars s.toList)

/-! ## Wildcards -/

/-- A wildcard's stand-in while the text around it is escaped. -/
def standIn (c : Char) : Char :=
  if c = '*' then '\uFDD0' else if c = '?' then '\uFDD1' else c

def putBack (c : Char) : Char :=
  if c = '\uFDD0' then '*' else if c = '\uFDD1' then '?' else c

def escapeWildcardChars (cs : List Char) : List Char := (escapeChars (cs.map standIn)).map putBack

def escapeWildcard (s : String) : String := String.ofList (escapeWildcardChars s.toList)

end SearchQuery.Text
