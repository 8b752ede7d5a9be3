/-
  SearchQuery.Time.Calendar — the proleptic Gregorian calendar: dates, and the days counted
  from the first day of year 0. Every division below is the one that rounds down, so years
  before 0 need no case of their own.
-/

namespace SearchQuery.Time

structure Date where
  year : Int
  month : Nat
  day : Nat
  deriving DecidableEq, Repr

def isLeap (year : Int) : Bool := year % 4 = 0 && (year % 100 ≠ 0 || year % 400 = 0)

def monthLengths (leap : Bool) : List Nat := [31, if leap then 29 else 28, 31, 30, 31, 30, 31, 31, 30, 31, 30, 31]

def Date.isValid (d : Date) : Bool :=
  1 ≤ d.month && d.month ≤ 12 && 1 ≤ d.day && d.day ≤ (monthLengths (isLeap d.year)).getD (d.month - 1) 0

/-- Days from the first day of year 0 to the first day of a year: 365 for each year, and
    one for each leap year in between. -/
def daysBeforeYear (year : Int) : Int := 365 * year + (year + 3) / 4 - (year + 99) / 100 + (year + 399) / 400

def daysBeforeMonth (leap : Bool) (month : Nat) : Nat := ((monthLengths leap).take (month - 1)).foldl (· + ·) 0

def Date.dayNumber (d : Date) : Int :=
  daysBeforeYear d.year + daysBeforeMonth (isLeap d.year) d.month + d.day - 1

/-- The year of a day: 400 years have 146097 days, which gives the year or one of its
    neighbours. -/
def yearOfDay (n : Int) : Int :=
  let guess := 400 * n / 146097
  if n < daysBeforeYear guess then guess - 1
  else if daysBeforeYear (guess + 1) ≤ n then guess + 1
  else guess

/-- Month and day of month of a day of the year, counted from `month` on. -/
def findMonth : List Nat → Nat → Nat → Nat × Nat
  | [], month, rest => (month, rest + 1)
  | length :: lengths, month, rest =>
    if rest < length then (month, rest + 1) else findMonth lengths (month + 1) (rest - length)

def Date.ofDayNumber (n : Int) : Date :=
  let year := yearOfDay n
  let found := findMonth (monthLengths (isLeap year)) 1 (n - daysBeforeYear year).toNat
  ⟨year, found.1, found.2⟩

end SearchQuery.Time
