/-
  SearchQuery.Time.Instant — points in time on the UTC scale, the clock that shows them,
  and their order. A leap second shares its second count with the second before it and has
  a thousand million nanoseconds more; the clock shows it as second 60. A query can show
  whole milliseconds only; `wholeMillis` is what it can show of an instant.
-/

import SearchQuery.Time.Calendar

namespace SearchQuery.Time

def secondsPerDay : Int := 86400

/-- The first day of 1970, from which seconds are counted. -/
def epochDay : Int := 719528

def firstYear : Int := -262143
def lastYear : Int := 262142

def firstSecond : Int := (daysBeforeYear firstYear - epochDay) * secondsPerDay
def lastSecond : Int := (daysBeforeYear (lastYear + 1) - epochDay) * secondsPerDay - 1

/-- A second count and the nanoseconds in it are a point in time: in the years that can be
    shown, and with a leap second only at the end of a minute. -/
def InScale (seconds : Int) (nanos : Nat) : Prop :=
  firstSecond ≤ seconds ∧ seconds ≤ lastSecond ∧ nanos < 2000000000 ∧ (1000000000 ≤ nanos → seconds % 60 = 59)

instance (seconds : Int) (nanos : Nat) : Decidable (InScale seconds nanos) := by unfold InScale; infer_instance

/-- Seconds from the beginning of 1970, and nanoseconds. -/
structure Instant where
  seconds : Int
  nanos : Nat
  inScale : InScale seconds nanos
  deriving DecidableEq

def Instant.ofUnix? (seconds : Int) (nanos : Nat) : Option Instant :=
  if h : InScale seconds nanos then some ⟨seconds, nanos, h⟩ else none

structure Reading where
  date : Date
  hour : Nat
  minute : Nat
  second : Nat
  nanos : Nat
  deriving DecidableEq, Repr

/-- What the clock shows at an instant. -/
def Instant.reading (t : Instant) : Reading :=
  let rest := (t.seconds % secondsPerDay).toNat
  { date := Date.ofDayNumber (t.seconds / secondsPerDay + epochDay)
    hour := rest / 3600
    minute := rest / 60 % 60
    second := rest % 60 + (if t.nanos < 1000000000 then 0 else 1)
    nanos := t.nanos % 1000000000 }

def Reading.isValid (r : Reading) : Bool :=
  r.date.isValid && firstYear ≤ r.date.year && r.date.year ≤ lastYear &&
    r.hour < 24 && r.minute < 60 && r.second ≤ 60 && r.nanos < 1000000000

/-- The instant at which a clock `ahead` seconds ahead of UTC shows `r`. -/
def Reading.instant? (r : Reading) (ahead : Int) : Option Instant :=
  if r.isValid then
    Instant.ofUnix?
      ((r.date.dayNumber - epochDay) * secondsPerDay + r.hour * 3600 + r.minute * 60 + min r.second 59 - ahead)
      (r.nanos + (if r.second = 60 then 1000000000 else 0))
  else none

/-- Midnight at the beginning of a date. -/
def Instant.ofDate? (d : Date) : Option Instant := Reading.instant? ⟨d, 0, 0, 0, 0⟩ 0

namespace Instant

/-- By seconds, then by nanoseconds: a leap second comes after the second before it and
    before the next one. -/
def NotAfter (t u : Instant) : Prop := t.seconds < u.seconds ∨ (t.seconds = u.seconds ∧ t.nanos ≤ u.nanos)

instance (t u : Instant) : Decidable (t.NotAfter u) := by unfold NotAfter; infer_instance

/-- Never rounded up, not even before 1970 or in a leap second. -/
def wholeMillis (t : Instant) : Instant where
  seconds := t.seconds
  nanos := t.nanos / 1000000 * 1000000
  inScale := by
    have h := t.inScale
    unfold InScale at *
    omega

end Instant

end SearchQuery.Time
