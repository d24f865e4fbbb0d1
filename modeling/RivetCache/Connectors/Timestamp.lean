/-
**`connectors.rs`: the timestamps of signed requests.**

`civilFromDays` and `awsTimestamp` are the functions of the source with their arithmetic as it is: a value
that is no `i64` is a panic, and a division truncates.

* `civilFromDays_civil`: there is no such value, and the result is the date of the calendar;
* `awsTimestamp_gregorian`: the texts are those of the date and the time of the instant, up to the year 9999,
  and are in the order of the instants.
-/

import RivetCache.Base
import RivetCache.Library.Calendar
import RivetCache.Library.Digits

set_option linter.unusedSectionVars false

namespace RivetCache

open Library

/-! ### The source -/

/-- An `i64`, or the panic of an overflow. -/
def i64 (value : Int) : Except Fault Int :=
  if -2 ^ 63 ≤ value ∧ value < 2 ^ 63 then .ok value else .error .panic

/-- `civil_from_days`. -/
def civilFromDays (daysSinceEpoch : Int) : Except Fault (Int × Int × Int) := do
  let z ← i64 (daysSinceEpoch + 719468)
  let dividend ← if 0 ≤ z then pure z else i64 (z - 146096)
  let era ← i64 (dividend.tdiv 146097)
  let eraDays ← i64 (era * 146097)
  let doe ← i64 (z - eraDays)
  let quarters ← i64 (doe.tdiv 1460)
  let years ← i64 (doe - quarters)
  let centuries ← i64 (doe.tdiv 36524)
  let years ← i64 (years + centuries)
  let eras ← i64 (doe.tdiv 146096)
  let years ← i64 (years - eras)
  let yoe ← i64 (years.tdiv 365)
  let eraYears ← i64 (era * 400)
  let year ← i64 (yoe + eraYears)
  let wholeYears ← i64 (365 * yoe)
  let leapDays ← i64 (yoe.tdiv 4)
  let yearDays ← i64 (wholeYears + leapDays)
  let commonDays ← i64 (yoe.tdiv 100)
  let yearDays ← i64 (yearDays - commonDays)
  let doy ← i64 (doe - yearDays)
  let fifths ← i64 (5 * doy)
  let fifths ← i64 (fifths + 2)
  let mp ← i64 (fifths.tdiv 153)
  let monthDays ← i64 (153 * mp)
  let monthDays ← i64 (monthDays + 2)
  let monthDays ← i64 (monthDays.tdiv 5)
  let day ← i64 (doy - monthDays)
  let day ← i64 (day + 1)
  let month ← i64 (mp + if mp < 10 then 3 else -9)
  let year ← i64 (year + if month ≤ 2 then 1 else 0)
  pure (year, month, day)

/-- `{value:0width}`. -/
def zeroPadded (width : Nat) (value : Int) : List Char :=
  let sign := if value < 0 then ['-'] else []
  let digits := Nat.toDigits 10 value.natAbs
  sign ++ (List.replicate (width - sign.length - digits.length) '0' ++ digits)

/-- `aws_timestamp`. -/
def awsTimestamp (seconds : UInt64) : Except Fault (String × String) := do
  let days := ((seconds.toNat / 86400 : Nat) : Int)
  let secondsOfDay := seconds.toNat % 86400
  let (year, month, day) ← civilFromDays days
  if ¬ (1970 ≤ year ∧ year ≤ 9999) then
    .error (.error ⟨.invalidData, "S3 timestamp year is out of range"⟩)
  else
    let hour := secondsOfDay / 3600
    let minute := secondsOfDay % 3600 / 60
    let second := secondsOfDay % 60
    let date := zeroPadded 4 year ++ (zeroPadded 2 month ++ zeroPadded 2 day)
    pure (String.ofList date, String.ofList (date ++ ('T' :: (zeroPadded 2 hour ++ (zeroPadded 2 minute ++
      (zeroPadded 2 second ++ ['Z']))))))

/-! ### The calendar -/

section

variable {α : Type} {next : Int → Except Fault α} {value : Int}

/-- A step whose value is a number that fits. -/
theorem i64_then {result : Except Fault α} (n : Nat) (same : value = n) (fits : n < 2 ^ 63)
    (rest : next n = result) : (i64 value >>= next) = result := by
  unfold i64
  rw [same, if_pos (by omega)]
  exact rest

/-- Division of numbers, as `i64` divides. -/
theorem tdiv_eq (n divisor : Nat) : (n : Int).tdiv divisor = (n / divisor : Nat) := rfl

/-- **`civil_from_days` is the calendar**: no step overflows, on any day a `u64` of seconds reaches. -/
theorem civilFromDays_civil {days : Nat} (reached : days < 2 ^ 48) :
    civilFromDays days =
      .ok (((civil days).1 : Int), ((civil days).2.1 : Int), ((civil days).2.2 : Int)) := by
  obtain ⟨era, dayOfEra, eras, rest, split_, inside⟩ := exists_era days
  obtain ⟨short, first, -⟩ := yearOfEra_spec inside
  have years : yearOfEra dayOfEra =
    (dayOfEra - dayOfEra / 1460 + dayOfEra / 36524 - dayOfEra / 146096) / 365 := rfl
  have start : 365 * yearOfEra dayOfEra + yearOfEra dayOfEra / 4 - yearOfEra dayOfEra / 100 ≤
    dayOfEra := (Nat.le_add_right _ _).trans first
  unfold civilFromDays
  refine i64_then (days + 719468) (by omega) (by omega) ?_
  rw [if_pos (by omega), pure_bind]
  refine i64_then era (by rw [← eras]; exact tdiv_eq _ _) (by omega) ?_
  refine i64_then (era * 146097) (by omega) (by omega) ?_
  refine i64_then dayOfEra (by omega) (by omega) ?_
  refine i64_then (dayOfEra / 1460) (tdiv_eq _ _) (by omega) ?_
  refine i64_then (dayOfEra - dayOfEra / 1460) (by omega) (by omega) ?_
  refine i64_then (dayOfEra / 36524) (tdiv_eq _ _) (by omega) ?_
  refine i64_then (dayOfEra - dayOfEra / 1460 + dayOfEra / 36524) (by omega) (by omega) ?_
  refine i64_then (dayOfEra / 146096) (tdiv_eq _ _) (by omega) ?_
  refine i64_then (dayOfEra - dayOfEra / 1460 + dayOfEra / 36524 - dayOfEra / 146096)
    (by omega) (by omega) ?_
  refine i64_then (yearOfEra dayOfEra) (tdiv_eq _ _) (by omega) ?_
  unfold civil
  dsimp only
  rw [eras, rest]
  clear first years
  generalize yearOfEra dayOfEra = year at short start ⊢
  obtain ⟨dayOfYear, day_eq⟩ : ∃ n, n = dayOfEra - (365 * year + year / 4 - year / 100) := ⟨_, rfl⟩
  rw [← day_eq]
  obtain ⟨month, month_eq⟩ : ∃ n, n = (5 * dayOfYear + 2) / 153 := ⟨_, rfl⟩
  rw [← month_eq]
  refine i64_then (era * 400) (by omega) (by omega) ?_
  refine i64_then (year + era * 400) (by omega) (by omega) ?_
  refine i64_then (365 * year) (by omega) (by omega) ?_
  refine i64_then (year / 4) (tdiv_eq _ _) (by omega) ?_
  refine i64_then (365 * year + year / 4) (by omega) (by omega) ?_
  refine i64_then (year / 100) (tdiv_eq _ _) (by omega) ?_
  refine i64_then (365 * year + year / 4 - year / 100) (by omega) (by omega) ?_
  refine i64_then dayOfYear (by omega) (by omega) ?_
  refine i64_then (5 * dayOfYear) (by omega) (by omega) ?_
  refine i64_then (5 * dayOfYear + 2) (by omega) (by omega) ?_
  refine i64_then month (by rw [month_eq]; exact tdiv_eq _ _) (by omega) ?_
  refine i64_then (153 * month) (by omega) (by omega) ?_
  refine i64_then (153 * month + 2) (by omega) (by omega) ?_
  refine i64_then ((153 * month + 2) / 5) (tdiv_eq _ _) (by omega) ?_
  refine i64_then (dayOfYear - (153 * month + 2) / 5) (by omega) (by omega) ?_
  refine i64_then (dayOfYear - (153 * month + 2) / 5 + 1) (by omega) (by omega) ?_
  refine i64_then (if month < 10 then month + 3 else month - 9) (by split <;> split <;> omega)
    (by split <;> omega) ?_
  refine i64_then (year + era * 400 + if (if month < 10 then month + 3 else month - 9) ≤ 2 then 1 else 0)
    ?_ ?_ rfl
  · generalize (if month < 10 then month + 3 else month - 9) = calendarMonth
    split <;> split <;> omega
  · generalize (if month < 10 then month + 3 else month - 9) = calendarMonth
    split <;> omega

end

/-! ### The texts -/

/-- The digits of a date: four of the year, two of the month and two of the day. -/
def dateDigits (date : Date) : List Char :=
  fixedDigits 4 date.year ++ (fixedDigits 2 date.month ++ fixedDigits 2 date.day)

/-- The digits of a time: two of the hour, two of the minute and two of the second. -/
def timeDigits (time : TimeOfDay) : List Char :=
  fixedDigits 2 time.hour ++ (fixedDigits 2 time.minute ++ fixedDigits 2 time.second)

/-- The text of an instant: the date, a `T`, the time and a `Z`. -/
def stampText (date : Date) (time : TimeOfDay) : String :=
  String.ofList (dateDigits date ++ ('T' :: (timeDigits time ++ ['Z'])))

section

variable {width n : Nat} {earlier later : Date} {sooner after : TimeOfDay}

theorem zeroPadded_eq (some_ : 0 < width) (fits : n < 10 ^ width) :
    zeroPadded width n = fixedDigits width n := by
  have positive : ¬ (n : Int) < 0 := by omega
  unfold zeroPadded
  rw [if_neg positive]
  exact padded_eq some_ fits

/-- The digits of a date are those of its number. -/
theorem dateDigits_eq (date : Date) : dateDigits date = fixedDigits 8 date.key := by
  have month := date.month_le
  have day := date.day_short
  unfold dateDigits Date.key
  rw [← fixedDigits_append 2 2 date.month (by omega),
    ← fixedDigits_append 4 4 date.year (by omega)]
  rfl

theorem timeDigits_eq (time : TimeOfDay) : timeDigits time = fixedDigits 6 time.key := by
  have minute := time.minute_lt
  have second := time.second_lt
  unfold timeDigits TimeOfDay.key
  rw [← fixedDigits_append 2 2 time.minute (by omega),
    ← fixedDigits_append 2 4 time.hour (by omega)]
  rfl

/-- **A later instant has a later text.** -/
theorem stampText_lt (fits : later.year ≤ 9999)
    (order : earlier.dayNumber < later.dayNumber ∨
      earlier.dayNumber = later.dayNumber ∧ sooner.seconds < after.seconds) :
    stampText earlier sooner < stampText later after := by
  have month := later.month_le
  have day := later.day_short
  have hour := after.hour_lt
  have minute := after.minute_lt
  have second := after.second_lt
  show (String.ofList _).toList < (String.ofList _).toList
  rw [String.toList_ofList, String.toList_ofList, dateDigits_eq, dateDigits_eq, timeDigits_eq,
    timeDigits_eq]
  rcases order with date | ⟨date, time⟩
  · refine append_lt (fixedDigits_lt (Date.key_lt_iff.mpr date) ?_) (by simp) _ _
    unfold Date.key
    omega
  · rw [Date.dayNumber_injective date]
    refine List.append_left_lt (List.cons_lt_cons_iff.mpr (.inr ⟨rfl, ?_⟩))
    refine append_lt (fixedDigits_lt (TimeOfDay.key_lt_iff.mpr time) ?_) (by simp) _ _
    unfold TimeOfDay.key
    omega

theorem zeroPadded_date {date : Date} (year : date.year ≤ 9999) :
    zeroPadded 4 date.year ++ (zeroPadded 2 date.month ++ zeroPadded 2 date.day) = dateDigits date := by
  have month := date.month_le
  have day := date.day_short
  rw [zeroPadded_eq (by decide) (by omega), zeroPadded_eq (by decide) (by omega),
    zeroPadded_eq (by decide) (by omega)]
  rfl

/-- **`aws_timestamp` is the calendar**: it finds the date of the day and the time of it, and refuses a year
above 9999; it does not panic. -/
theorem awsTimestamp_eq (seconds : UInt64) :
    ∃ date : Date, date.dayNumber = (seconds.toNat / 86400 : Nat) ∧
      awsTimestamp seconds =
        if date.year ≤ 9999 then
          .ok (String.ofList (dateDigits date), stampText date (timeOf seconds.toNat))
        else .error (.error ⟨.invalidData, "S3 timestamp year is out of range"⟩) := by
  have bound := seconds.toNat_lt
  obtain ⟨date, found, number⟩ := civil_dayNumber (seconds.toNat / 86400)
  have computed := @civilFromDays_civil (seconds.toNat / 86400) (by omega)
  rw [← found] at computed
  refine ⟨date, number, ?_⟩
  have recent : 1970 ≤ date.year := Date.year_recent (by omega)
  have hour := (timeOf seconds.toNat).hour_lt
  have minute := (timeOf seconds.toNat).minute_lt
  have second := (timeOf seconds.toNat).second_lt
  unfold awsTimestamp
  dsimp only
  rw [computed]
  show (if ¬ ((1970 : Int) ≤ date.year ∧ (date.year : Int) ≤ 9999) then _ else _) = _
  by_cases year : date.year ≤ 9999
  · have date_eq := zeroPadded_date year
    have hours : zeroPadded 2 (seconds.toNat % 86400 / 3600 : Nat) =
        fixedDigits 2 (timeOf seconds.toNat).hour := zeroPadded_eq (by decide) (by omega)
    have minutes : zeroPadded 2 (seconds.toNat % 86400 % 3600 / 60 : Nat) =
        fixedDigits 2 (timeOf seconds.toNat).minute := zeroPadded_eq (by decide) (by omega)
    have seconds_ : zeroPadded 2 (seconds.toNat % 86400 % 60 : Nat) =
        fixedDigits 2 (timeOf seconds.toNat).second := zeroPadded_eq (by decide) (by omega)
    rw [if_neg (by omega), if_pos year, date_eq, hours, minutes, seconds_]
    unfold stampText timeDigits
    rw [List.append_assoc, List.append_assoc]
    rfl
  · rw [if_pos (by omega), if_neg year]

/-- **The timestamps are the Gregorian calendar.** Every instant has one date and one time; the year of the
date decides whether there is a timestamp, which has their digits. Timestamps are in the order of the
instants. -/
theorem awsTimestamp_gregorian :
    (∀ seconds : UInt64, ∃ (date : Date) (time : TimeOfDay),
      date.dayNumber = (seconds.toNat / 86400 : Nat) ∧
      (∀ other : Date, other.dayNumber = (seconds.toNat / 86400 : Nat) → other = date) ∧
      time.seconds = seconds.toNat % 86400 ∧
      awsTimestamp seconds =
        if date.year ≤ 9999 then .ok (String.ofList (dateDigits date), stampText date time)
        else .error (.error ⟨.invalidData, "S3 timestamp year is out of range"⟩)) ∧
    ∀ (earlier later : UInt64) (text text' : String × String), earlier < later →
      awsTimestamp earlier = .ok text → awsTimestamp later = .ok text' → text.2 < text'.2 := by
  refine ⟨fun seconds => ?_, fun earlier later text text' order stamped stamped' => ?_⟩
  · obtain ⟨date, number, stamp⟩ := awsTimestamp_eq seconds
    exact ⟨date, timeOf seconds.toNat, number,
      fun other same => Date.dayNumber_injective (same.trans number.symm), timeOf_seconds _, stamp⟩
  · obtain ⟨date, number, stamp⟩ := awsTimestamp_eq earlier
    obtain ⟨date', number', stamp'⟩ := awsTimestamp_eq later
    rw [stamp] at stamped
    rw [stamp'] at stamped'
    split at stamped
    · split at stamped'
      next year' =>
        cases stamped
        cases stamped'
        refine stampText_lt year' ?_
        rw [number, number', timeOf_seconds, timeOf_seconds]
        have less := UInt64.lt_iff_toNat_lt.mp order
        omega
      · cases stamped'
    · cases stamped

end

end RivetCache
