/-
  SearchQuery.Proofs.Time.Calendar — the calendar is right: every day belongs to one year,
  found by `yearOfDay`, and to one month of it, and the date found for a day is a valid
  date whose day number is that day (`ofDayNumber_spec`). Later dates have greater day
  numbers (`dayNumber_lt`), so a valid date is the one found for its day
  (`ofDayNumber_dayNumber`). From this the clock shows an instant completely
  (`instant?_reading`).
-/

import SearchQuery.Time.Instant

namespace SearchQuery.Time

/-! ## Years -/

/-- The days of months of these lengths. -/
def total (lengths : List Nat) : Nat := lengths.foldl (· + ·) 0

theorem total_cons (length : Nat) (lengths : List Nat) : total (length :: lengths) = length + total lengths := by
  have comm : 0 + length = length + 0 := Nat.add_comm ..
  rw [total, List.foldl_cons, comm, List.foldl_assoc, total]

theorem isLeap_iff (year : Int) : isLeap year = true ↔ year % 4 = 0 ∧ (year % 100 ≠ 0 ∨ year % 400 = 0) := by
  simp [isLeap]

/-- A year has 365 days, and one more if it is a leap year. -/
theorem daysBeforeYear_succ (year : Int) :
    daysBeforeYear (year + 1) = daysBeforeYear year + total (monthLengths (isLeap year)) := by
  unfold daysBeforeYear
  cases leap : isLeap year with
  | true =>
    rw [isLeap_iff] at leap
    show _ = _ + (366 : Int)
    omega
  | false =>
    have common := mt (isLeap_iff year).2 (by rw [leap]; exact Bool.false_ne_true)
    show _ = _ + (365 : Int)
    omega

theorem daysBeforeYear_le {year later : Int} (h : year ≤ later) :
    daysBeforeYear year + 365 * (later - year) ≤ daysBeforeYear later := by
  unfold daysBeforeYear
  omega

/-- A day lies in the year that is found for it. -/
theorem yearOfDay_spec (n : Int) : daysBeforeYear (yearOfDay n) ≤ n ∧ n < daysBeforeYear (yearOfDay n + 1) := by
  unfold yearOfDay
  simp only
  generalize eq : 400 * n / 146097 = guess
  by_cases before : n < daysBeforeYear guess
  · rw [if_pos before]
    refine ⟨?_, by rw [Int.sub_add_cancel]; exact before⟩
    unfold daysBeforeYear
    omega
  · rw [if_neg before]
    by_cases after : daysBeforeYear (guess + 1) ≤ n
    · rw [if_pos after]
      refine ⟨after, ?_⟩
      unfold daysBeforeYear
      omega
    · rw [if_neg after]
      omega

/-! ## Months -/

/-- The months before the one that is found, and the day in it, make up the day of the year. -/
theorem findMonth_spec : ∀ (lengths : List Nat) (month rest : Nat), rest < total lengths →
    ∃ i day, findMonth lengths month rest = (month + i, day + 1) ∧ i < lengths.length ∧ day < lengths.getD i 0 ∧
      total (lengths.take i) + day = rest
  | [], _, _, h => by cases h
  | length :: lengths, month, rest, h => by
    rw [total_cons] at h
    by_cases here : rest < length
    · exact ⟨0, rest, by rw [findMonth, if_pos here]; rfl, by simp, here, Nat.zero_add rest⟩
    · obtain ⟨i, day, found, inside, fits, total_days⟩ := findMonth_spec lengths (month + 1) (rest - length) (by omega)
      refine ⟨i + 1, day, ?_, by simpa using inside, fits, ?_⟩
      · rw [findMonth, if_neg here, found, Nat.add_assoc, Nat.add_comm 1]
      · rw [List.take_succ_cons, total_cons]
        omega

/-! ## Dates -/

/-- Every day has a date, in the year that is found for it. -/
theorem ofDayNumber_spec (n : Int) :
    (Date.ofDayNumber n).isValid = true ∧ (Date.ofDayNumber n).dayNumber = n ∧
      (Date.ofDayNumber n).year = yearOfDay n := by
  have year := yearOfDay_spec n
  rw [daysBeforeYear_succ] at year
  obtain ⟨i, day, found, inside, fits, total_days⟩ :=
    findMonth_spec (monthLengths (isLeap (yearOfDay n))) 1 (n - daysBeforeYear (yearOfDay n)).toNat (by omega)
  have date : Date.ofDayNumber n = ⟨yearOfDay n, 1 + i, day + 1⟩ := by rw [Date.ofDayNumber, found]
  have twelve : (monthLengths (isLeap (yearOfDay n))).length = 12 := rfl
  rw [date]
  refine ⟨?_, ?_, rfl⟩
  · simp only [Date.isValid, Nat.add_sub_cancel_left, Bool.and_eq_true, decide_eq_true_eq]
    omega
  · rw [total] at total_days
    simp only [Date.dayNumber, daysBeforeMonth, Nat.add_sub_cancel_left]
    omega

/-! ## Dates in order -/

/-- Dates in order: by year, then by month, then by day. -/
def Date.Before (d e : Date) : Prop :=
  d.year < e.year ∨ d.year = e.year ∧ (d.month < e.month ∨ d.month = e.month ∧ d.day < e.day)

theorem daysBeforeMonth_add_le : ∀ (leap : Bool), ∀ later ≤ 13, ∀ month < later, 1 ≤ month →
    daysBeforeMonth leap month + (monthLengths leap).getD (month - 1) 0 ≤ daysBeforeMonth leap later := by decide

theorem daysBeforeMonth_last (leap : Bool) : daysBeforeMonth leap 13 = total (monthLengths leap) := rfl

/-- A date lies in its year. -/
theorem dayNumber_inYear {d : Date} (h : d.isValid = true) :
    daysBeforeYear d.year ≤ d.dayNumber ∧ d.dayNumber < daysBeforeYear (d.year + 1) := by
  simp only [Date.isValid, Bool.and_eq_true, decide_eq_true_eq] at h
  have fits := daysBeforeMonth_add_le (isLeap d.year) 13 (by omega) d.month (by omega) (by omega)
  rw [daysBeforeMonth_last] at fits
  rw [daysBeforeYear_succ, Date.dayNumber]
  omega

theorem dayNumber_lt {d e : Date} (hd : d.isValid = true) (he : e.isValid = true) (before : d.Before e) :
    d.dayNumber < e.dayNumber := by
  rcases before with year | ⟨year, inYear⟩
  · have apart := @daysBeforeYear_le (d.year + 1) e.year (by omega)
    have early := dayNumber_inYear hd
    have late := dayNumber_inYear he
    omega
  · simp only [Date.isValid, Bool.and_eq_true, decide_eq_true_eq] at hd he
    rw [Date.dayNumber, Date.dayNumber, ← year]
    rcases inYear with month | ⟨month, day⟩
    · have apart := daysBeforeMonth_add_le (isLeap d.year) e.month (by omega) d.month month (by omega)
      omega
    · rw [month]
      omega

theorem before_or_eq_or_before (d e : Date) : d.Before e ∨ d = e ∨ e.Before d := by
  obtain ⟨y, m, n⟩ := d
  obtain ⟨y', m', n'⟩ := e
  simp only [Date.Before, Date.mk.injEq]
  omega

theorem ofDayNumber_dayNumber {d : Date} (h : d.isValid = true) : Date.ofDayNumber d.dayNumber = d := by
  obtain ⟨valid, number, -⟩ := ofDayNumber_spec d.dayNumber
  rcases before_or_eq_or_before (Date.ofDayNumber d.dayNumber) d with before | same | after
  · have less := dayNumber_lt valid h before
    omega
  · exact same
  · have greater := dayNumber_lt h valid after
    omega

/-! ## The clock -/

theorem year_inScale {t : Instant} : firstYear ≤ t.reading.date.year ∧ t.reading.date.year ≤ lastYear := by
  have scale := t.inScale
  have spec := yearOfDay_spec (t.seconds / secondsPerDay + epochDay)
  rw [← (ofDayNumber_spec _).2.2] at spec
  have year : t.reading.date.year = (Date.ofDayNumber (t.seconds / secondsPerDay + epochDay)).year := rfl
  rw [← year] at spec
  generalize t.reading.date.year = y at *
  unfold InScale firstSecond lastSecond secondsPerDay at scale
  unfold secondsPerDay at spec
  constructor
  · refine Int.not_lt.1 fun before => ?_
    have le := @daysBeforeYear_le (y + 1) firstYear (by omega)
    omega
  · refine Int.not_lt.1 fun after => ?_
    have le := @daysBeforeYear_le (lastYear + 1) y (by omega)
    omega

theorem reading_isValid (t : Instant) : t.reading.isValid = true := by
  have year := year_inScale (t := t)
  obtain ⟨date, -, -⟩ := ofDayNumber_spec (t.seconds / secondsPerDay + epochDay)
  have rest : 0 ≤ t.seconds % secondsPerDay ∧ t.seconds % secondsPerDay < 86400 := by unfold secondsPerDay; omega
  simp only [Reading.isValid, Bool.and_eq_true, decide_eq_true_eq]
  refine ⟨⟨⟨⟨⟨⟨date, year.1⟩, year.2⟩, ?_⟩, ?_⟩, ?_⟩, Nat.mod_lt _ (by decide)⟩
  · show (t.seconds % secondsPerDay).toNat / 3600 < 24
    omega
  · show (t.seconds % secondsPerDay).toNat / 60 % 60 < 60
    omega
  · show (t.seconds % secondsPerDay).toNat % 60 + (if t.nanos < 1000000000 then 0 else 1) ≤ 60
    split <;> omega

theorem ofUnix?_self (t : Instant) : Instant.ofUnix? t.seconds t.nanos = some t := dif_pos t.inScale

/-- The second count of an instant, from what the clock shows; a leap second has the count
    of the second before it. -/
theorem seconds_of_reading (t : Instant) :
    t.seconds = (t.reading.date.dayNumber - epochDay) * secondsPerDay + t.reading.hour * 3600 + t.reading.minute * 60 +
      min t.reading.second 59 := by
  obtain ⟨-, -, -, leap⟩ := t.inScale
  obtain ⟨-, number, -⟩ := ofDayNumber_spec (t.seconds / secondsPerDay + epochDay)
  have split := Int.emod_add_mul_ediv t.seconds secondsPerDay
  have rest : 0 ≤ t.seconds % secondsPerDay ∧ t.seconds % secondsPerDay < 86400 := by unfold secondsPerDay; omega
  have minute : t.seconds % 60 = t.seconds % secondsPerDay % 60 := by unfold secondsPerDay; omega
  show _ = ((Date.ofDayNumber _).dayNumber - epochDay) * secondsPerDay +
    ((t.seconds % secondsPerDay).toNat / 3600 : Nat) * 3600 + ((t.seconds % secondsPerDay).toNat / 60 % 60 : Nat) * 60 +
    (min ((t.seconds % secondsPerDay).toNat % 60 + (if t.nanos < 1000000000 then 0 else 1)) 59 : Nat)
  rw [number]
  generalize t.seconds % secondsPerDay = r at *
  unfold secondsPerDay at *
  split <;> omega

theorem nanos_of_reading (t : Instant) :
    t.nanos = t.reading.nanos + (if t.reading.second = 60 then 1000000000 else 0) := by
  obtain ⟨-, -, small, leap⟩ := t.inScale
  have rest : 0 ≤ t.seconds % secondsPerDay := by unfold secondsPerDay; omega
  have minute : t.seconds % 60 = t.seconds % secondsPerDay % 60 := by unfold secondsPerDay; omega
  show _ = t.nanos % 1000000000 + (if (t.seconds % secondsPerDay).toNat % 60 +
    (if t.nanos < 1000000000 then 0 else 1) = 60 then 1000000000 else 0)
  split <;> split at * <;> omega

/-- The clock shows an instant completely, leap seconds and nanoseconds included. -/
theorem instant?_reading (t : Instant) : t.reading.instant? 0 = some t := by
  rw [Reading.instant?, if_pos (reading_isValid t), Int.sub_zero, ← seconds_of_reading, ← nanos_of_reading, ofUnix?_self]

end SearchQuery.Time
