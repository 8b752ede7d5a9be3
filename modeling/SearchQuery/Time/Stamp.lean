/-
  SearchQuery.Time.Stamp — the texts of instants. Queries show whole milliseconds, cut
  down; JSON shows the fewest digits out of 0, 3, 6 and 9 that lose nothing. `Instant.read?`
  reads a date and time with its offset from UTC: each of the `take` functions takes one
  part off the front of a text, with blanks allowed before numbers and marks.
-/

import SearchQuery.Number.Integer
import SearchQuery.Text.Basic
import SearchQuery.Time.Instant

namespace SearchQuery.Time

open Number (natChars)
open Text (isWhiteSpace)

/-! ## Writing -/

/-- Decimal digits, with zeros in front up to `width`. -/
def padded (width n : Nat) : List Char := List.replicate (width - (natChars n).length) '0' ++ natChars n

/-- Four digits for the years 0 to 9999; all others have a sign. -/
def yearChars (year : Int) : List Char :=
  if 0 ≤ year ∧ year ≤ 9999 then padded 4 year.toNat
  else (if year < 0 then '-' else '+') :: padded 4 year.natAbs

def Reading.secondChars (r : Reading) : List Char :=
  yearChars r.date.year ++ '-' :: padded 2 r.date.month ++ '-' :: padded 2 r.date.day ++
    'T' :: padded 2 r.hour ++ ':' :: padded 2 r.minute ++ ':' :: padded 2 r.second

/-- The text in a query, such as `2013-02-17T00:00:00.000Z`. -/
def Instant.text (t : Instant) : String :=
  String.ofList (t.reading.secondChars ++ '.' :: padded 3 (t.reading.nanos / 1000000) ++ ['Z'])

def fractionChars (nanos : Nat) : List Char :=
  if nanos = 0 then []
  else if nanos % 1000000 = 0 then '.' :: padded 3 (nanos / 1000000)
  else if nanos % 1000 = 0 then '.' :: padded 6 (nanos / 1000)
  else '.' :: padded 9 nanos

def Instant.stamp (t : Instant) : String :=
  String.ofList (t.reading.secondChars ++ fractionChars t.reading.nanos ++ ['Z'])

/-! ## Reading -/

def skipBlanks (cs : List Char) : List Char := cs.dropWhile isWhiteSpace

/-- A number of one to `most` digits and the rest. -/
def takeNumber (most : Nat) (cs : List Char) : Option (Nat × List Char) :=
  let ds := (cs.take most).takeWhile Char.isDigit
  if ds.isEmpty then none else some (Nat.ofDigitChars 10 ds 0, cs.drop ds.length)

def takeField (cs : List Char) : Option (Nat × List Char) := takeNumber 2 (skipBlanks cs)

/-- At most four digits, or any number of them behind a sign. -/
def takeYear (cs : List Char) : Option (Int × List Char) :=
  match skipBlanks cs with
  | '-' :: cs => (takeNumber cs.length cs).map fun r => (-(r.1 : Int), r.2)
  | '+' :: cs => (takeNumber cs.length cs).map fun r => ((r.1 : Int), r.2)
  | cs => (takeNumber 4 cs).map fun r => ((r.1 : Int), r.2)

def takeMark (mark : Char) (cs : List Char) : Option (List Char) :=
  match skipBlanks cs with
  | c :: cs => if c = mark then some cs else none
  | [] => none

def takeTimeMark : List Char → Option (List Char)
  | 'T' :: cs => some cs
  | 't' :: cs => some cs
  | ' ' :: cs => some cs
  | _ => none

/-- The fraction of a second, in nanoseconds; digits after the ninth are dropped. -/
def takeFraction : List Char → Option (Nat × List Char)
  | '.' :: cs =>
    (takeNumber 9 cs).map fun r => (r.1 * Nat.pow 10 (9 - (cs.length - r.2.length)), r.2.dropWhile Char.isDigit)
  | cs => some (0, cs)

def takeSign : List Char → Option (Int × List Char)
  | '+' :: cs => some (1, cs)
  | '-' :: cs => some (-1, cs)
  | '\u2212' :: cs => some (-1, cs)
  | _ => none

def takePair (tens : Nat) : List Char → Option (Nat × List Char)
  | a :: b :: cs =>
    if a.isDigit && b.isDigit && Nat.ofDigitChars 10 [a] 0 < tens then some (Nat.ofDigitChars 10 [a, b] 0, cs)
    else none
  | _ => none

/-- The offset from UTC in seconds: `Z`, `UTC`, or a sign with hours and minutes. -/
def takeOffset (cs : List Char) : Option (Int × List Char) :=
  if (cs.take 3).map Char.toUpper = ['U', 'T', 'C'] then some (0, cs.drop 3)
  else if (cs.take 1).map Char.toUpper = ['Z'] then some (0, cs.drop 1)
  else do
    let (sign, cs) ← takeSign cs
    let (hours, cs) ← takePair 10 cs
    -- Any run of colons and blanks stands between hours and minutes, or nothing at all.
    let (minutes, cs) ← takePair 6 (cs.dropWhile fun c => c == ':' || isWhiteSpace c)
    if hours < 24 then some (sign * (hours * 3600 + minutes * 60), cs) else none

def Instant.read? (s : String) : Option Instant := do
  let (year, cs) ← takeYear s.toList
  let (month, cs) ← takeField (← takeMark '-' cs)
  let (day, cs) ← takeField (← takeMark '-' cs)
  let (hour, cs) ← takeField (← takeTimeMark cs)
  let (minute, cs) ← takeField (← takeMark ':' cs)
  let (second, cs) ← takeField (← takeMark ':' cs)
  let (nanos, cs) ← takeFraction cs
  let (ahead, cs) ← takeOffset (skipBlanks cs)
  if skipBlanks cs = [] then Reading.instant? ⟨⟨year, month, day⟩, hour, minute, second, nanos⟩ ahead else none

end SearchQuery.Time
