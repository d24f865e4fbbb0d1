/-
**The Gregorian calendar.**

The years of the proleptic Gregorian calendar from the year zero on. A `Date` is a day of it, so its month
and its day are within their bounds; `Date.dayNumber` counts the days before it, year by year and month by
month, from the first of January 1970. No two dates have one number (`dayNumber_injective`), and a later
number is a later date (`key_lt_iff`).

`civil` finds the date of a number by divisions: it counts from the first of March of the year zero, where
the leap day is the last of its year, in eras of 400 years.

* `civil_dayNumber`: it is the date of that number.
-/

import Mathlib.Tactic
import Mathlib.Algebra.BigOperators.Intervals

namespace Library

/-! ### Years and months -/

/-- **Leap years.** -/
def LeapYear (year : Nat) : Prop := 4 ∣ year ∧ (¬ 100 ∣ year ∨ 400 ∣ year)

instance (year : Nat) : Decidable (LeapYear year) := inferInstanceAs (Decidable (_ ∧ _))

/-- The days of a year. -/
def yearLength (year : Nat) : Nat := if LeapYear year then 366 else 365

/-- The days of a month, of which there are twelve. -/
def monthLength (year month : Nat) : Nat :=
  if month = 2 then (if LeapYear year then 29 else 28)
  else if month = 4 ∨ month = 6 ∨ month = 9 ∨ month = 11 then 30
  else 31

/-- The days from the year zero to a year. -/
def daysBeforeYear (year : Nat) : Nat := ∑ earlier ∈ Finset.range year, yearLength earlier

/-- The days of a year before a month. -/
def daysBeforeMonth (year month : Nat) : Nat :=
  ∑ earlier ∈ Finset.range (month - 1), monthLength year (earlier + 1)

/-- **A day of the calendar.** -/
structure Date where
  year : Nat
  month : Nat
  day : Nat
  month_pos : 1 ≤ month
  month_le : month ≤ 12
  day_pos : 1 ≤ day
  day_le : day ≤ monthLength year month

/-- The days from the year zero to a date. -/
def Date.daysBefore (date : Date) : Nat :=
  daysBeforeYear date.year + daysBeforeMonth date.year date.month + (date.day - 1)

/-- The first of January 1970. -/
def epoch : Date := ⟨1970, 1, 1, by decide, by decide, by decide, by decide⟩

/-- **The number of a day**, counted from the first of January 1970. -/
def Date.dayNumber (date : Date) : Int := (date.daysBefore : Int) - epoch.daysBefore

/-! ### Days before a year, and before a month -/

theorem daysBeforeYear_succ (year : Nat) :
    daysBeforeYear (year + 1) = daysBeforeYear year + yearLength year :=
  Finset.sum_range_succ _ _

theorem daysBeforeMonth_succ (year : Nat) {month : Nat} (positive : 1 ≤ month) :
    daysBeforeMonth year (month + 1) = daysBeforeMonth year month + monthLength year month := by
  obtain ⟨earlier, rfl⟩ : ∃ n, month = n + 1 := ⟨month - 1, by omega⟩
  exact Finset.sum_range_succ _ _

theorem daysBeforeYear_mono {earlier later : Nat} (order : earlier ≤ later) :
    daysBeforeYear earlier ≤ daysBeforeYear later :=
  Finset.sum_le_sum_of_subset (Finset.range_subset_range.mpr order)

theorem daysBeforeMonth_mono (year : Nat) {earlier later : Nat} (order : earlier ≤ later) :
    daysBeforeMonth year earlier ≤ daysBeforeMonth year later :=
  Finset.sum_le_sum_of_subset (Finset.range_subset_range.mpr (by omega))

theorem yearLength_eq (year : Nat) :
    yearLength year = if 4 ∣ year ∧ (¬ 100 ∣ year ∨ 400 ∣ year) then 366 else 365 := rfl

/-- The leap years up to a year, by divisions: one every four years, less one every hundred, and one every
four hundred. -/
theorem daysBeforeYear_eq (year : Nat) :
    daysBeforeYear (year + 1) + year / 100 = 365 * (year + 1) + year / 4 + year / 400 + 1 := by
  induction year with
  | zero => rfl
  | succ year ih =>
      have hundred : 400 ∣ year + 1 → 100 ∣ year + 1 := (show 100 ∣ 400 by decide).trans
      have four : 100 ∣ year + 1 → 4 ∣ year + 1 := (show 4 ∣ 100 by decide).trans
      have quarters := @Nat.succ_div year 4
      have centuries := @Nat.succ_div year 100
      have eras := @Nat.succ_div year 400
      rw [daysBeforeYear_succ, yearLength_eq]
      by_cases era : 400 ∣ year + 1
      · rw [if_pos era] at eras
        rw [if_pos (hundred era)] at centuries
        rw [if_pos (four (hundred era))] at quarters
        rw [if_pos ⟨four (hundred era), .inr era⟩]
        omega
      rw [if_neg era] at eras
      by_cases century : 100 ∣ year + 1
      · rw [if_pos century] at centuries
        rw [if_pos (four century)] at quarters
        rw [if_neg fun leap => leap.2.elim (fun other => other century) era]
        omega
      rw [if_neg century] at centuries
      by_cases quarter : 4 ∣ year + 1
      · rw [if_pos quarter] at quarters
        rw [if_pos ⟨quarter, .inl century⟩]
        omega
      · rw [if_neg quarter] at quarters
        rw [if_neg fun leap => quarter leap.1]
        omega

/-- The days before a month: from March on, the months take 153 days in every five. -/
theorem daysBeforeMonth_eq (year : Nat) {month : Nat} (first : 1 ≤ month) (last : month ≤ 13) :
    daysBeforeMonth year month =
      if month ≤ 2 then 31 * (month - 1)
      else 59 + (yearLength year - 365) + (153 * (month - 3) + 2) / 5 := by
  induction month, first using Nat.le_induction with
  | base => rfl
  | succ month first ih =>
      have inside : month ≤ 12 := by omega
      rw [daysBeforeMonth_succ year first, ih (by omega)]
      unfold yearLength monthLength
      clear ih last
      by_cases leap : LeapYear year <;> interval_cases month <;> simp [leap]

theorem yearLength_pos (year : Nat) : 365 ≤ yearLength year := by
  unfold yearLength
  split <;> omega

/-- Twelve months are a year. -/
theorem daysBeforeMonth_year (year : Nat) : daysBeforeMonth year 13 = yearLength year := by
  have length := yearLength_pos year
  rw [daysBeforeMonth_eq year (by decide) le_rfl, if_neg (by decide)]
  omega

theorem monthLength_le (year month : Nat) : monthLength year month ≤ 31 := by
  unfold monthLength
  split
  · split <;> omega
  split <;> omega

/-! ### The order of the days -/

namespace Date

variable (date : Date) {earlier later : Date}

/-- A date as a number: its year, its month and its day, two digits each for the last. -/
def key : Nat := date.year * 10000 + (date.month * 100 + date.day)

theorem day_short : date.day ≤ 31 := date.day_le.trans (monthLength_le _ _)

/-- A day is within its month. -/
theorem before_next_month : daysBeforeMonth date.year date.month + (date.day - 1) <
    daysBeforeMonth date.year (date.month + 1) := by
  have positive := date.day_pos
  have within := date.day_le
  rw [daysBeforeMonth_succ date.year date.month_pos]
  omega

/-- A day is within its year. -/
theorem before_next_year : date.daysBefore < daysBeforeYear (date.year + 1) := by
  have month := date.before_next_month
  have last := daysBeforeMonth_mono date.year (show date.month + 1 ≤ 13 by have := date.month_le; omega)
  rw [daysBeforeMonth_year] at last
  rw [daysBeforeYear_succ]
  unfold daysBefore
  omega

/-- **A later date is a later day.** -/
theorem daysBefore_lt (order : earlier.key < later.key) : earlier.daysBefore < later.daysBefore := by
  have month := earlier.month_le
  have month' := later.month_le
  have day := earlier.day_short
  have day' := later.day_short
  have next := earlier.before_next_year
  unfold key at order
  rcases Nat.lt_trichotomy earlier.year later.year with year | year | year
  · have between := daysBeforeYear_mono (show earlier.year + 1 ≤ later.year from year)
    show _ < daysBeforeYear later.year + daysBeforeMonth later.year later.month + (later.day - 1)
    omega
  · have within := earlier.before_next_month
    have positive := earlier.day_pos
    unfold daysBefore
    rw [year] at within ⊢
    rcases Nat.lt_or_ge earlier.month later.month with sooner | same
    · have between := daysBeforeMonth_mono later.year (show earlier.month + 1 ≤ later.month from sooner)
      omega
    · have months : earlier.month = later.month := by omega
      rw [months]
      omega
  · omega

theorem key_inj (same : earlier.key = later.key) : earlier = later := by
  have month := earlier.month_le
  have month' := later.month_le
  have day := earlier.day_short
  have day' := later.day_short
  unfold key at same
  have years : earlier.year = later.year := by omega
  have months : earlier.month = later.month := by omega
  have days : earlier.day = later.day := by omega
  cases earlier
  cases later
  cases years
  cases months
  cases days
  rfl

/-- Later numbers are later dates. -/
theorem key_lt_iff : earlier.key < later.key ↔ earlier.dayNumber < later.dayNumber := by
  unfold dayNumber
  constructor
  · intro order
    have sooner := daysBefore_lt order
    omega
  · intro sooner
    by_contra order
    rcases Nat.lt_or_eq_of_le (Nat.not_lt.mp order) with after | same
    · have later_ := daysBefore_lt after
      omega
    · cases key_inj same
      omega

/-- **A day has one date.** -/
theorem dayNumber_injective (same : earlier.dayNumber = later.dayNumber) : earlier = later := by
  apply key_inj
  rcases Nat.lt_trichotomy earlier.key later.key with order | equal | order
  · exact absurd (key_lt_iff.mp order) (by omega)
  · exact equal
  · exact absurd (key_lt_iff.mp order) (by omega)

end Date

/-! ### The date of a day -/

/-- The days of an era before a year of it, from the first of March on. -/
def eraDays (year : Nat) : Nat := 365 * year + year / 4 - year / 100 + year / 400

/-- The days of an era, less its leap days. -/
def withoutLeapDays (day : Nat) : Nat := day - day / 1460 + day / 36524 - day / 146096

/-- The year of a day of an era. -/
def yearOfEra (day : Nat) : Nat := withoutLeapDays day / 365

/-- **The date of a day**: year, month and day. -/
def civil (days : Nat) : Nat × Nat × Nat :=
  let era := (days + 719468) / 146097
  let dayOfEra := (days + 719468) % 146097
  let year := yearOfEra dayOfEra
  let dayOfYear := dayOfEra - (365 * year + year / 4 - year / 100)
  let fromMarch := (5 * dayOfYear + 2) / 153
  let day := dayOfYear - (153 * fromMarch + 2) / 5 + 1
  let month := if fromMarch < 10 then fromMarch + 3 else fromMarch - 9
  (year + era * 400 + (if month ≤ 2 then 1 else 0), month, day)

/-- A quotient grows by one at most, and where a multiple grows so does the number. -/
theorem withoutLeapDays_step {day quarters centuries eras quarter century era : Nat}
    (below : quarters ≤ day) (one : quarter ≤ 1) (fourth : era ≤ century) :
    day - quarters + centuries - eras ≤
      day + 1 - (quarters + quarter) + (centuries + century) - (eras + era) := by
  omega

theorem withoutLeapDays_mono : Monotone withoutLeapDays := by
  refine monotone_nat_of_le_succ fun day => ?_
  have four : 146096 ∣ day + 1 → 36524 ∣ day + 1 := (show 36524 ∣ 146096 by decide).trans
  unfold withoutLeapDays
  rw [@Nat.succ_div day 1460, @Nat.succ_div day 36524, @Nat.succ_div day 146096]
  refine withoutLeapDays_step (Nat.div_le_self _ _) ?_ ?_
  · split
    · exact le_rfl
    · exact Nat.zero_le _
  · by_cases fourth : 146096 ∣ day + 1
    · rw [if_pos fourth, if_pos (four fourth)]
    · rw [if_neg fourth]
      exact Nat.zero_le _

/-- The first and the last day of each year of an era. -/
theorem withoutLeapDays_year : ∀ year < 400, 365 * year ≤ withoutLeapDays (eraDays year) ∧
    withoutLeapDays (eraDays (year + 1) - 1) < 365 * (year + 1) := by
  decide +kernel

/-- **The year of a day is the one it is in.** -/
theorem yearOfEra_spec {day : Nat} (inside : day < 146097) :
    yearOfEra day < 400 ∧ eraDays (yearOfEra day) ≤ day ∧ day < eraDays (yearOfEra day + 1) := by
  have length : eraDays 400 = 146097 := by decide
  have year : 365 * yearOfEra day ≤ withoutLeapDays day := Nat.mul_div_le _ _
  have next : withoutLeapDays day < 365 * (yearOfEra day + 1) := Nat.lt_mul_div_succ _ (by decide)
  have short : yearOfEra day < 400 := by
    have last : withoutLeapDays (eraDays 400 - 1) < 365 * 400 :=
      (withoutLeapDays_year 399 (by decide)).2
    have below := withoutLeapDays_mono (show day ≤ eraDays 400 - 1 by omega)
    omega
  refine ⟨short, ?_, ?_⟩
  · by_contra before
    have some_ : yearOfEra day ≠ 0 := by
      intro zero
      rw [zero] at before
      exact before (Nat.zero_le _)
    obtain ⟨earlier, same⟩ : ∃ n, yearOfEra day = n + 1 := ⟨yearOfEra day - 1, by omega⟩
    rw [same] at before year
    have last := (withoutLeapDays_year earlier (by omega)).2
    have below := withoutLeapDays_mono (show day ≤ eraDays (earlier + 1) - 1 by omega)
    omega
  · by_contra after
    rcases Nat.lt_or_ge (yearOfEra day + 1) 400 with within | past
    · have first := (withoutLeapDays_year (yearOfEra day + 1) within).1
      have above := withoutLeapDays_mono (Nat.not_lt.mp after)
      omega
    · rw [show yearOfEra day + 1 = 400 by omega] at after
      omega

/-- A year that begins in March, among all years. -/
theorem eraDays_era (era : Nat) {year : Nat} (short : year < 400) :
    era * 146097 + eraDays year + 366 = daysBeforeYear (era * 400 + year + 1) := by
  have days := daysBeforeYear_eq (era * 400 + year)
  have quarters : (era * 400 + year) / 4 = era * 100 + year / 4 := by omega
  have centuries : (era * 400 + year) / 100 = era * 4 + year / 100 := by omega
  have eras : (era * 400 + year) / 400 = era := by omega
  unfold eraDays
  omega

/-- The year that begins in March has the leap day of the next. -/
theorem eraDays_succ (era : Nat) {year : Nat} (short : year < 400) :
    eraDays (year + 1) = eraDays year + yearLength (era * 400 + year + 1) := by
  have here := eraDays_era era short
  have next := daysBeforeYear_succ (era * 400 + year + 1)
  rcases Nat.lt_or_ge (year + 1) 400 with within | past
  · have there := eraDays_era era within
    rw [← Nat.add_assoc] at there
    omega
  · -- the last year of an era ends where the next era begins
    have last : year = 399 := by omega
    subst last
    have there := @eraDays_era (era + 1) 0 (by decide)
    have none : eraDays 0 = 0 := rfl
    have whole : eraDays (399 + 1) = 146097 := by decide
    have same : (era + 1) * 400 + 0 + 1 = era * 400 + 399 + 1 + 1 := by ring
    rw [same, none] at there
    omega

theorem epoch_daysBefore : epoch.daysBefore = 719528 := by
  have year := daysBeforeYear_eq 1969
  have month := daysBeforeMonth_eq 1970 le_rfl (by decide)
  rw [if_pos (by decide)] at month
  unfold Date.daysBefore epoch
  dsimp only
  rw [month]
  norm_num at year ⊢
  omega

section

variable {year dayOfYear month : Nat} (month_eq : month = (5 * dayOfYear + 2) / 153)
include month_eq

/-- A day of March to December is within its month. -/
theorem spring_day_le (spring : month < 10) :
    dayOfYear - (153 * month + 2) / 5 + 1 ≤ monthLength year (month + 3) := by
  unfold monthLength
  interval_cases month <;> simp <;> omega

/-- A day of January or February is within its month. -/
theorem winter_day_le (winter : 10 ≤ month) (within : dayOfYear < yearLength year) :
    dayOfYear - (153 * month + 2) / 5 + 1 ≤ monthLength year (month - 9) := by
  unfold yearLength at within
  have short : dayOfYear < 366 := by split at within <;> omega
  obtain ten | eleven : month = 10 ∨ month = 11 := by omega
  · have january : monthLength year 1 = 31 := rfl
    rw [ten, january]
    omega
  · have february : monthLength year 2 = if LeapYear year then 29 else 28 := rfl
    rw [eleven, february]
    split at within <;> rename_i leap
    · rw [if_pos leap]
      omega
    · rw [if_neg leap]
      omega

end

/-- The era of a day, and its number there. -/
theorem exists_era (days : Nat) :
    ∃ era dayOfEra, (days + 719468) / 146097 = era ∧ (days + 719468) % 146097 = dayOfEra ∧
      days + 719468 = era * 146097 + dayOfEra ∧ dayOfEra < 146097 :=
  ⟨(days + 719468) / 146097, (days + 719468) % 146097, rfl, rfl, by omega, Nat.mod_lt _ (by decide)⟩

/-- **`civil` finds the date of a day.** -/
theorem civil_dayNumber (days : Nat) :
    ∃ date : Date, (date.year, date.month, date.day) = civil days ∧ date.dayNumber = days := by
  obtain ⟨era, dayOfEra, eras, rest, split_, inside⟩ := exists_era days
  obtain ⟨short, first, last⟩ := yearOfEra_spec inside
  unfold civil
  dsimp only
  rw [eras, rest]
  generalize yearOfEra dayOfEra = year at short first last ⊢
  have before := eraDays_era era short
  have length := eraDays_succ era short
  have start : 365 * year + year / 4 - year / 100 = eraDays year := by
    unfold eraDays
    omega
  rw [start]
  obtain ⟨dayOfYear, day_eq⟩ : ∃ n, dayOfEra = eraDays year + n := ⟨dayOfEra - eraDays year, by omega⟩
  rw [day_eq, Nat.add_sub_cancel_left]
  have within : dayOfYear < yearLength (era * 400 + year + 1) := by omega
  have leap : yearLength (era * 400 + year + 1) ≤ 366 := by
    unfold yearLength
    split <;> omega
  obtain ⟨month, month_eq⟩ : ∃ n, n = (5 * dayOfYear + 2) / 153 := ⟨_, rfl⟩
  rw [← month_eq]
  have number : days + 719528 + 306 = daysBeforeYear (era * 400 + year + 1) + dayOfYear := by omega
  rcases Nat.lt_or_ge month 10 with spring | winter
  · -- March to December: the year is the one that began in March
    have months := daysBeforeMonth_eq (era * 400 + year) (show 1 ≤ month + 3 by omega) (by omega)
    have next := daysBeforeYear_succ (era * 400 + year)
    have days_ := yearLength_pos (era * 400 + year)
    rw [if_neg (by omega), Nat.add_sub_cancel] at months
    have inMonth := @spring_day_le (era * 400 + year) _ _ month_eq spring
    refine ⟨⟨era * 400 + year, month + 3, dayOfYear - (153 * month + 2) / 5 + 1, by omega, by omega,
      by omega, inMonth⟩, ?_, ?_⟩
    · have later : ¬ month + 3 ≤ 2 := by omega
      have year_eq : era * 400 + year = year + era * 400 + 0 := by ring
      rw [if_pos spring, if_neg later, ← year_eq]
    · unfold Date.dayNumber
      rw [epoch_daysBefore]
      unfold Date.daysBefore
      dsimp only
      omega
  · -- January and February belong to the next year
    have months := daysBeforeMonth_eq (era * 400 + year + 1) (show 1 ≤ month - 9 by omega) (by omega)
    rw [if_pos (by omega)] at months
    have inMonth := winter_day_le month_eq winter within
    have since : 31 * (month - 9 - 1) + 306 = (153 * month + 2) / 5 := by
      obtain ten | eleven : month = 10 ∨ month = 11 := by omega
      · rw [ten]
      · rw [eleven]
    refine ⟨⟨era * 400 + year + 1, month - 9, dayOfYear - (153 * month + 2) / 5 + 1, by omega, by omega,
      by omega, inMonth⟩, ?_, ?_⟩
    · have early : month - 9 ≤ 2 := by omega
      have year_eq : era * 400 + year + 1 = year + era * 400 + 1 := by ring
      rw [if_neg (Nat.not_lt.mpr winter), if_pos early, ← year_eq]
    · unfold Date.dayNumber
      rw [epoch_daysBefore]
      unfold Date.daysBefore
      dsimp only
      omega

/-- The dates from 1970 on. -/
theorem Date.year_recent {date : Date} (recent : 0 ≤ date.dayNumber) : 1970 ≤ date.year := by
  by_contra early
  have month := date.month_le
  have day := date.day_short
  have before : date.key < epoch.key := by
    have first : epoch.key = 19700101 := rfl
    unfold Date.key at first ⊢
    omega
  have negative := Date.key_lt_iff.mp before
  have zero : epoch.dayNumber = 0 := sub_self _
  omega

/-! ### The time of a day -/

/-- **A time of a day**, to the second. -/
structure TimeOfDay where
  hour : Nat
  minute : Nat
  second : Nat
  hour_lt : hour < 24
  minute_lt : minute < 60
  second_lt : second < 60

/-- The seconds of a day before a time of it. -/
def TimeOfDay.seconds (time : TimeOfDay) : Nat := time.hour * 3600 + (time.minute * 60 + time.second)

/-- A time as a number, two digits each for the hour, the minute and the second. -/
def TimeOfDay.key (time : TimeOfDay) : Nat := time.hour * 10000 + (time.minute * 100 + time.second)

/-- The time after so many seconds. -/
def timeOf (seconds : Nat) : TimeOfDay where
  hour := seconds % 86400 / 3600
  minute := seconds % 86400 % 3600 / 60
  second := seconds % 86400 % 60
  hour_lt := by omega
  minute_lt := by omega
  second_lt := by omega

theorem timeOf_seconds (seconds : Nat) : (timeOf seconds).seconds = seconds % 86400 := by
  unfold timeOf TimeOfDay.seconds
  dsimp only
  omega

/-- A later time is a later number. -/
theorem TimeOfDay.key_lt_iff {earlier later : TimeOfDay} :
    earlier.key < later.key ↔ earlier.seconds < later.seconds := by
  have minute := earlier.minute_lt
  have minute' := later.minute_lt
  have second := earlier.second_lt
  have second' := later.second_lt
  unfold key seconds
  omega

end Library
