/-
  SearchQuery.Proofs.Time.Text — what the text of an instant in a query tells of it. The text
  is read back as the instant in whole milliseconds (`read?_text`). As long as the year has
  four digits, every field stands at a place of its own and is padded to its width, so the
  texts are in order like what the clock shows (`shown_lt_iff`), and that is in order like
  the instants, leap seconds included. `text_exact` puts this together.
-/

import SearchQuery.Proofs.Time.Stamp
import SearchQuery.Range.Basic

namespace SearchQuery.Time

open Number

/-! ## Texts of one length -/

theorem append_lt_append_iff {as bs : List Char} (length : as.length = bs.length) (cs ds : List Char) :
    as ++ cs < bs ++ ds ↔ as < bs ∨ as = bs ∧ cs < ds := by
  induction as generalizing bs with
  | nil =>
    obtain rfl := List.length_eq_zero_iff.1 length.symm
    simp
  | cons a as ih =>
    cases bs with
    | nil => cases length
    | cons b bs =>
      simp only [List.cons_append, List.cons_lt_cons_iff, ih (Nat.succ.inj length), List.cons.injEq]
      tauto

theorem padded_lt_iff {width m n : Nat} (pos : 0 < width) (hm : m < Nat.pow 10 width) (hn : n < Nat.pow 10 width) :
    padded width m < padded width n ↔ m < n := by
  rw [digits_lt_iff ((length_padded pos hm).trans (length_padded pos hn).symm) (allDigits_padded width m)
    (allDigits_padded width n), ofDigitChars_padded, ofDigitChars_padded]

theorem padded_append_lt_iff {width m n : Nat} (pos : 0 < width) (hm : m < Nat.pow 10 width) (hn : n < Nat.pow 10 width)
    (cs ds : List Char) : padded width m ++ cs < padded width n ++ ds ↔ m < n ∨ m = n ∧ cs < ds := by
  have same : padded width m = padded width n ↔ m = n := by
    refine ⟨fun same => ?_, fun same => by rw [same]⟩
    rw [← ofDigitChars_padded width m, same, ofDigitChars_padded]
  rw [append_lt_append_iff ((length_padded pos hm).trans (length_padded pos hn).symm), padded_lt_iff pos hm hn, same]

theorem mark_lt_iff (c : Char) (cs ds : List Char) : c :: cs < c :: ds ↔ cs < ds := by
  simp

/-! ## Readings in order -/

/-- Readings in order, fractions of milliseconds not counted. -/
def Reading.Before (r s : Reading) : Prop :=
  r.date.Before s.date ∨ r.date = s.date ∧ (r.hour < s.hour ∨ r.hour = s.hour ∧ (r.minute < s.minute ∨
    r.minute = s.minute ∧ (r.second < s.second ∨ r.second = s.second ∧ r.nanos / 1000000 < s.nanos / 1000000)))

/-- The year is written with four digits and no sign. -/
def Reading.ShortYear (r : Reading) : Prop := 0 ≤ r.date.year ∧ r.date.year ≤ 9999

instance (r : Reading) : Decidable r.ShortYear := by unfold Reading.ShortYear; infer_instance

/-- The text of a reading in a query. -/
def Reading.shown (r : Reading) : List Char := r.secondChars ++ '.' :: padded 3 (r.nanos / 1000000) ++ ['Z']

theorem shown_eq {r : Reading} (short : r.ShortYear) :
    r.shown = padded 4 r.date.year.toNat ++ '-' :: (padded 2 r.date.month ++ '-' :: (padded 2 r.date.day ++
      'T' :: (padded 2 r.hour ++ ':' :: (padded 2 r.minute ++ ':' :: (padded 2 r.second ++
        '.' :: (padded 3 (r.nanos / 1000000) ++ ['Z'])))))) := by
  have year : yearChars r.date.year = padded 4 r.date.year.toNat := if_pos short
  simp only [Reading.shown, Reading.secondChars, year, List.append_assoc, List.cons_append]

theorem length_shown {r : Reading} (valid : r.isValid = true) (short : r.ShortYear) : r.shown.length = 24 := by
  obtain ⟨month, day, hour, minute, second, nanos⟩ := isValid_bounds valid
  have year : r.date.year.toNat < Nat.pow 10 4 := show r.date.year.toNat < 10000 by have := short.2; omega
  have millis : r.nanos / 1000000 < Nat.pow 10 3 := show r.nanos / 1000000 < 1000 by omega
  have two {n : Nat} (fits : n < 100) : (padded 2 n).length = 2 := length_padded (by decide) fits
  rw [shown_eq short]
  simp only [List.length_append, List.length_cons, List.length_nil, length_padded (by decide) year, two month, two day,
    two hour, two minute, two second, length_padded (by decide) millis]

theorem shown_lt_iff {r s : Reading} (hr : r.isValid = true) (hs : s.isValid = true) (yr : r.ShortYear) (ys : s.ShortYear) :
    r.shown < s.shown ↔ r.Before s := by
  obtain ⟨month, day, hour, minute, second, nanos⟩ := isValid_bounds hr
  obtain ⟨month', day', hour', minute', second', nanos'⟩ := isValid_bounds hs
  have year : r.date.year.toNat < Nat.pow 10 4 := show r.date.year.toNat < 10000 by have := yr.2; omega
  have year' : s.date.year.toNat < Nat.pow 10 4 := show s.date.year.toNat < 10000 by have := ys.2; omega
  have millis : r.nanos / 1000000 < Nat.pow 10 3 := show r.nanos / 1000000 < 1000 by omega
  have millis' : s.nanos / 1000000 < Nat.pow 10 3 := show s.nanos / 1000000 < 1000 by omega
  have two {m n : Nat} (hm : m < 100) (hn : n < 100) (cs ds : List Char) :
      padded 2 m ++ cs < padded 2 n ++ ds ↔ m < n ∨ m = n ∧ cs < ds := padded_append_lt_iff (by decide) hm hn cs ds
  rw [shown_eq yr, shown_eq ys]
  simp only [mark_lt_iff, padded_append_lt_iff (show 0 < 4 by decide) year year', two month month', two day day',
    two hour hour', two minute minute', two second second', padded_append_lt_iff (show 0 < 3 by decide) millis millis',
    List.lt_irrefl, and_false, or_false]
  have years : r.date.year.toNat < s.date.year.toNat ↔ r.date.year < s.date.year := by have := yr.1; have := ys.1; omega
  have sameYear : r.date.year.toNat = s.date.year.toNat ↔ r.date.year = s.date.year := by have := yr.1; have := ys.1; omega
  rw [years, sameYear, Reading.Before, Date.Before]
  have dates : r.date = s.date ↔ r.date.year = s.date.year ∧ r.date.month = s.date.month ∧ r.date.day = s.date.day := by
    obtain ⟨⟨_, _, _⟩, _, _, _, _⟩ := r
    obtain ⟨⟨_, _, _⟩, _, _, _, _⟩ := s
    simp
  rw [dates]
  simp only [and_or_left, or_assoc, and_assoc]

/-! ## Instants in order -/

theorem before_notAfter {t u : Instant} (h : t.reading.Before u.reading) : ¬ u.NotAfter t := by
  have valid := reading_isValid t
  have valid' := reading_isValid u
  rw [Instant.NotAfter, seconds_of_reading t, seconds_of_reading u, nanos_of_reading t, nanos_of_reading u]
  generalize t.reading = r at *
  generalize u.reading = s at *
  simp only [Reading.isValid, Bool.and_eq_true, decide_eq_true_eq] at valid valid'
  unfold secondsPerDay
  rcases h with date | ⟨date, time⟩
  · have days := dayNumber_lt valid.1.1.1.1.1.1 valid'.1.1.1.1.1.1 date
    omega
  · rw [date]
    split <;> split <;> omega

theorem toList_text (t : Instant) : t.text.toList = t.reading.shown := String.toList_ofList

theorem text_le {t u : Instant} (short : t.reading.ShortYear) (short' : u.reading.ShortYear) (order : t.NotAfter u) :
    t.text ≤ u.text := by
  intro smaller
  rw [String.lt_iff, toList_text, toList_text, shown_lt_iff (reading_isValid u) (reading_isValid t) short' short] at smaller
  exact before_notAfter smaller order

/-! ## Whole milliseconds -/

theorem reading_wholeMillis (t : Instant) :
    t.wholeMillis.reading = { t.reading with nanos := t.reading.nanos / 1000000 * 1000000 } := by
  have leap : t.nanos / 1000000 * 1000000 < 1000000000 ↔ t.nanos < 1000000000 := by omega
  have part : t.nanos / 1000000 * 1000000 % 1000000000 = t.nanos % 1000000000 / 1000000 * 1000000 := by omega
  simp only [Instant.reading, Instant.wholeMillis, leap, part]

/-- The text of an instant is read as the instant in whole milliseconds. -/
theorem read?_text (t : Instant) : Instant.read? t.text = some t.wholeMillis := by
  have valid := reading_isValid t
  obtain ⟨-, -, -, -, -, nanos⟩ := isValid_bounds valid
  have read : takeFraction ('.' :: padded 3 (t.reading.nanos / 1000000) ++ ['Z']) =
      some (t.reading.nanos / 1000000 * 1000000, ['Z']) :=
    takeFraction_padded (by decide) (by decide) (show t.reading.nanos / 1000000 < 1000 by omega) (noDigit_cons (by decide) _)
  rw [Instant.text, read?_secondChars valid read, ← reading_wholeMillis]
  exact instant?_reading t.wholeMillis

theorem text_eq_iff (t u : Instant) : t.text = u.text ↔ t.wholeMillis = u.wholeMillis := by
  constructor
  · intro same
    have read := read?_text t
    rw [same, read?_text u] at read
    exact (Option.some.inj read).symm
  · intro same
    have readings := congrArg Instant.reading same
    rw [reading_wholeMillis, reading_wholeMillis, Reading.mk.injEq] at readings
    obtain ⟨date, hour, minute, second, nanos⟩ := readings
    have millis : t.reading.nanos / 1000000 = u.reading.nanos / 1000000 := by omega
    rw [Instant.text, Instant.text, Reading.secondChars, Reading.secondChars, date, hour, minute, second, millis]

/-! ## Dates without a time -/

/-- A date in the years that can be shown begins at an instant that the clock shows as
    midnight. -/
theorem ofDate?_eq {d : Date} (valid : d.isValid = true) (first : firstYear ≤ d.year) (last : d.year ≤ lastYear) :
    ∃ t, Instant.ofDate? d = some t ∧ t.reading = ⟨d, 0, 0, 0, 0⟩ := by
  have scale : InScale ((d.dayNumber - epochDay) * secondsPerDay) 0 := by
    have inYear := dayNumber_inYear valid
    have low := @daysBeforeYear_le firstYear d.year first
    have high := @daysBeforeYear_le (d.year + 1) (lastYear + 1) (by omega)
    unfold InScale firstSecond lastSecond secondsPerDay
    omega
  have shown : Reading.isValid ⟨d, 0, 0, 0, 0⟩ = true := by
    simp [Reading.isValid, valid, first, last]
  refine ⟨⟨(d.dayNumber - epochDay) * secondsPerDay, 0, scale⟩, ?_, ?_⟩
  · have seconds : (d.dayNumber - epochDay) * secondsPerDay + (0 : Nat) * 3600 + (0 : Nat) * 60 + (min 0 59 : Nat) - 0 =
        (d.dayNumber - epochDay) * secondsPerDay := by simp
    rw [Instant.ofDate?, Reading.instant?, if_pos shown]
    simp only [seconds]
    exact dif_pos scale
  · have day : (d.dayNumber - epochDay) * secondsPerDay / secondsPerDay + epochDay = d.dayNumber := by
      unfold secondsPerDay; omega
    have rest : (d.dayNumber - epochDay) * secondsPerDay % secondsPerDay = 0 := Int.mul_emod_left ..
    simp only [Instant.reading, day, rest, ofDayNumber_dayNumber valid]
    rfl

/-- What the text of an instant tells of it: the text is read back as the instant cut down
    to whole milliseconds, and two texts are the same exactly when that is the same. The
    text of a date shows the date and midnight. In the years that have four digits all
    texts have 24 characters, and later instants have no smaller texts. -/
theorem text_exact (t u : Instant) (d : Date) :
    Instant.read? t.text = some t.wholeMillis ∧ (t.text = u.text ↔ t.wholeMillis = u.wholeMillis) ∧
      (d.isValid = true → firstYear ≤ d.year → d.year ≤ lastYear →
        ∃ m, Instant.ofDate? d = some m ∧ m.reading = ⟨d, 0, 0, 0, 0⟩ ∧
          (Bound.date m).text = String.ofList (yearChars d.year ++ '-' :: padded 2 d.month ++ '-' :: padded 2 d.day) ++
            "T00:00:00.000Z") ∧
      (t.reading.ShortYear → t.text.length = 24 ∧ (u.reading.ShortYear → t.NotAfter u → t.text ≤ u.text)) := by
  refine ⟨read?_text t, text_eq_iff t u, ?_, ?_⟩
  · intro valid first last
    obtain ⟨m, made, reading⟩ := ofDate?_eq valid first last
    refine ⟨m, made, reading, ?_⟩
    show m.text = _
    rw [← String.toList_inj, String.toList_append, String.toList_ofList, toList_text, reading, Reading.shown, Reading.secondChars]
    simp only [List.append_assoc, List.cons_append]
    rfl
  · intro short
    have length : t.text.length = t.reading.shown.length := by rw [← String.length_toList, toList_text]
    exact ⟨length.trans (length_shown (reading_isValid t) short), fun short' order => text_le short short' order⟩

/-- The leap second at the end of 2016 stands between the second before it and the year
    after it; its nanoseconds are cut down, as they are before 1970. -/
theorem leap_second_in_order :
    let before : Instant := ⟨1483228799, 999999999, by decide⟩
    let leap : Instant := ⟨1483228799, 1500999999, by decide⟩
    let after : Instant := ⟨1483228800, 0, by decide⟩
    let early : Instant := ⟨-1, 999999999, by decide⟩
    let date : Instant := ⟨-62193744000, 0, by decide⟩
    before.NotAfter leap ∧ leap.NotAfter after ∧ before.text ≤ leap.text ∧ leap.text ≤ after.text ∧
      before.text = "2016-12-31T23:59:59.999Z" ∧ leap.text = "2016-12-31T23:59:60.500Z" ∧
      after.text = "2017-01-01T00:00:00.000Z" ∧ early.text = "1969-12-31T23:59:59.999Z" ∧
      Instant.read? early.text = some ⟨-1, 999000000, by decide⟩ ∧
      Instant.ofDate? ⟨-1, 2, 28⟩ = some date ∧ (Bound.date date).text = "-0001-02-28T00:00:00.000Z" := by
  intro before leap after early date
  have first := (text_exact before leap ⟨-1, 2, 28⟩).2.2.2 (by decide)
  have second := (text_exact leap after ⟨-1, 2, 28⟩).2.2.2 (by decide)
  obtain ⟨back, -, midnight, -⟩ := text_exact early leap ⟨-1, 2, 28⟩
  obtain ⟨m, made, -, text⟩ := midnight (by decide) (by decide) (by decide)
  have named : Instant.ofDate? ⟨-1, 2, 28⟩ = some date := by decide
  have same : m = date := Option.some.inj (made.symm.trans named)
  rw [same] at text
  exact ⟨by decide, by decide, first.2 (by decide) (by decide), second.2 (by decide) (by decide),
    by decide, by decide, by decide, by decide, back.trans (by decide), named, text⟩

end SearchQuery.Time
