/-
  SearchQuery.Json.Token — a JSON text as a list of tokens, read one character at a time.
  What is no token is `invalid`, and ends the list.
-/

import SearchQuery.Number.Numeral

namespace SearchQuery.Json

open Number Number.Numeral

inductive Token where
  | openObject
  | closeObject
  | openArray
  | closeArray
  | comma
  | colon
  | null
  | boolean (b : Bool)
  | number (literal : List Char)
  | string (s : Option String)
  | invalid
  deriving DecidableEq

/-! ## Strings -/

/-- What stands at one place of a string: a character, or half of a surrogate pair. -/
inductive Part where
  | char (c : Char)
  | half (code : Nat)
  deriving DecidableEq

def isHighHalf (n : Nat) : Bool := 0xD800 ≤ n && n < 0xDC00
def isLowHalf (n : Nat) : Bool := 0xDC00 ≤ n && n < 0xE000

def Part.ofCode (n : Nat) : Part := if isHighHalf n || isLowHalf n then .half n else .char (Char.ofNat n)

/-- The characters of a string: a high half and the low half right after it make one. -/
def joinParts : List Part → Option (List Char)
  | [] => some []
  | .char c :: ps => (joinParts ps).map (c :: ·)
  | .half h :: .half l :: ps =>
    if isHighHalf h && isLowHalf l then
      (joinParts ps).map (Char.ofNat (0x10000 + (h - 0xD800) * 0x400 + (l - 0xDC00)) :: ·)
    else none
  | .half _ :: _ => none

def Token.ofParts (ps : List Part) : Token := .string ((joinParts ps).map String.ofList)

/-- The character that a one-letter escape stands for. -/
def escaped? : Char → Option Char
  | '"' => some '"'
  | '\\' => some '\\'
  | '/' => some '/'
  | 'b' => some '\x08'
  | 'f' => some '\x0c'
  | 'n' => some '\n'
  | 'r' => some '\r'
  | 't' => some '\t'
  | _ => none

def hexValue? (c : Char) : Option Nat :=
  if '0' ≤ c && c ≤ '9' then some (c.toNat - '0'.toNat)
  else if 'a' ≤ c && c ≤ 'f' then some (c.toNat - 'a'.toNat + 10)
  else if 'A' ≤ c && c ≤ 'F' then some (c.toNat - 'A'.toNat + 10)
  else none

/-! ## Numbers and words -/

def Token.ofNumber (literal : List Char) : Token :=
  if (Numeral.read? literal).isSome then .number literal else .invalid

def Token.ofWord (letters : List Char) : Token :=
  if letters = ['n', 'u', 'l', 'l'] then .null
  else if letters = ['t', 'r', 'u', 'e'] then .boolean true
  else if letters = ['f', 'a', 'l', 's', 'e'] then .boolean false
  else .invalid

/-! ## The scanner -/

/-- Where the scanner is; what it has seen of a token is kept last character first. -/
inductive Mode where
  | between
  | word (seen : List Char)
  | number (seen : List Char)
  | inString (seen : List Part)
  /-- Behind a backslash in a string. -/
  | escape (seen : List Part)
  /-- In the four hexadecimal digits of an escape. -/
  | hex (seen : List Part) (left value : Nat)
  /-- After something invalid. -/
  | stopped

namespace Mode

/-- The beginning of a token, or a token of one character. -/
def start (c : Char) : List Token × Mode :=
  if c = ' ' || c = '\t' || c = '\n' || c = '\r' then ([], between)
  else if c = '{' then ([.openObject], between)
  else if c = '}' then ([.closeObject], between)
  else if c = '[' then ([.openArray], between)
  else if c = ']' then ([.closeArray], between)
  else if c = ',' then ([.comma], between)
  else if c = ':' then ([.colon], between)
  else if c = '"' then ([], inString [])
  else if c.isAlpha then ([], word [c])
  else if isNumberChar c then ([], number [c])
  else ([.invalid], stopped)

/-- A finished token, and the beginning of the next one unless it is invalid. -/
def finish (t : Token) (c : Char) : List Token × Mode :=
  if t = .invalid then ([.invalid], stopped)
  else
    let next := start c
    (t :: next.1, next.2)

def step : Mode → Char → List Token × Mode
  | between, c => start c
  | word seen, c => if c.isAlpha then ([], word (c :: seen)) else finish (.ofWord seen.reverse) c
  | number seen, c => if isNumberChar c then ([], number (c :: seen)) else finish (.ofNumber seen.reverse) c
  | inString seen, c =>
    if c = '"' then ([.ofParts seen.reverse], between)
    else if c = '\\' then ([], escape seen)
    else if c.toNat < 32 then ([.invalid], stopped)
    else ([], inString (.char c :: seen))
  | escape seen, c =>
    if c = 'u' then ([], hex seen 3 0)
    else match escaped? c with
      | some d => ([], inString (.char d :: seen))
      | none => ([.invalid], stopped)
  | hex seen left value, c =>
    match hexValue? c, left with
    | some d, 0 => ([], inString (.ofCode (value * 16 + d) :: seen))
    | some d, left + 1 => ([], hex seen left (value * 16 + d))
    | none, _ => ([.invalid], stopped)
  | stopped, _ => ([], stopped)

/-- What the end of the text makes of an unfinished token. -/
def atEnd : Mode → List Token
  | between => []
  | stopped => []
  | word seen => [.ofWord seen.reverse]
  | number seen => [.ofNumber seen.reverse]
  | _ => [.invalid]

end Mode

def scan : Mode → List Char → List Token
  | m, [] => m.atEnd
  | m, c :: cs => (m.step c).1 ++ scan (m.step c).2 cs

def tokens (s : String) : List Token := scan .between s.toList

end SearchQuery.Json
