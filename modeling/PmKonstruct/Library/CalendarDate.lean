import PmKonstruct.Library.DecimalText

/- Calendar days as a count from the epoch, and the way a day is written. -/
namespace CalendarDate
open PlainText DecimalText

abbrev Date := Int

structure Civil where
  year : Int
  month : Int
  day : Int
  deriving DecidableEq, Repr

/-- The proleptic Gregorian day. Years run from March, so that the leap day comes last. -/
def civil (date : Date) : Civil :=
  let shifted := date + 719468
  let era := shifted / 146097
  let dayOfEra := shifted % 146097
  let yearOfEra := (dayOfEra - dayOfEra / 1460 + dayOfEra / 36524 - dayOfEra / 146096) / 365
  let dayOfYear := dayOfEra - (365 * yearOfEra + yearOfEra / 4 - yearOfEra / 100)
  let monthFromMarch := (5 * dayOfYear + 2) / 153
  let day := dayOfYear - (153 * monthFromMarch + 2) / 5 + 1
  let month := if monthFromMarch < 10 then monthFromMarch + 3 else monthFromMarch - 9
  let year := yearOfEra + era * 400
  ⟨if month ≤ 2 then year + 1 else year, month, day⟩

def padded (width : Nat) (n : Int) : Text :=
  let digits := decimal n
  List.replicate (width - digits.length) '0' ++ digits

/-- `YYYY-MM-DD`; a year of more or fewer than four digits carries its sign. -/
def isoDate (date : Date) : Text :=
  let c := civil date
  let year :=
    if 0 ≤ c.year ∧ c.year ≤ 9999 then padded 4 c.year
    else (if c.year < 0 then '-' else '+') :: padded 4 c.year.natAbs
  year ++ ('-' :: (padded 2 c.month ++ ('-' :: padded 2 c.day)))

/-- The day on the wall at a number of microseconds since the epoch, where clocks run ahead by an offset. -/
def localDate (offset instant : Int) : Date := (instant + offset) / 86400000000

/- Months and years. -/

/-- Days from the start of the era to the start of a year that runs from March. -/
def yearStart (year : Int) : Int := 365 * year + year / 4 - year / 100 + year / 400

def monthStart (index : Int) : Int :=
  yearStart ((index - 2) / 12) + (153 * ((index - 2) % 12) + 2) / 5 - 719468

def monthIndex (date : Date) : Int := 12 * (civil date).year + (civil date).month - 1

/-- The years that a day may be named by. -/
def yearMin : Int := -262143

def yearMax : Int := 262142

def fromYmdOpt (year month day : Int) : Option Date :=
  let date := monthStart (12 * year + (month - 1)) + (day - 1)
  if yearMin ≤ year ∧ year ≤ yearMax ∧ 1 ≤ month ∧ month ≤ 12 ∧ 1 ≤ day ∧ date < monthStart (12 * year + month) then
    some date
  else none

/-- The day before, unless there is none. -/
def predOpt (date : Date) : Option Date := if date ≤ monthStart (12 * yearMin) then none else some (date - 1)

def dateMin : Int := monthStart (12 * yearMin)

def dateMax : Int := monthStart (12 * yearMax + 12) - 1

/-- A number of days later. There is no day outside the calendar. -/
def addDays (date : Date) (days : Int) : Option Date :=
  if dateMin ≤ date + days ∧ date + days ≤ dateMax then some (date + days) else none

/- Days of the week. -/

inductive Weekday where
  | monday
  | tuesday
  | wednesday
  | thursday
  | friday
  | saturday
  | sunday
  deriving DecidableEq, Repr

/-- The epoch was a Thursday. -/
def weekday (date : Date) : Weekday :=
  match ((date + 3) % 7).toNat with
  | 0 => .monday
  | 1 => .tuesday
  | 2 => .wednesday
  | 3 => .thursday
  | 4 => .friday
  | 5 => .saturday
  | _ => .sunday

theorem yearStart_next (year : Int) : yearStart year + 365 ≤ yearStart (year + 1) := by
  simp only [yearStart]
  omega

theorem monthStart_next (index : Int) : monthStart index + 28 ≤ monthStart (index + 1) := by
  have next := yearStart_next ((index - 2) / 12)
  simp only [monthStart]
  by_cases last : (index - 2) % 12 = 11
  · have year : (index + 1 - 2) / 12 = (index - 2) / 12 + 1 := by omega
    have month : (index + 1 - 2) % 12 = 0 := by omega
    rw [year, month, last]
    omega
  · have year : (index + 1 - 2) / 12 = (index - 2) / 12 := by omega
    rw [year]
    omega

/-- A day of a century, counted from its start, lies in the year that the count shortened by the leap days gives. -/
theorem year_of_century {century day : Int} (first : 0 ≤ century) (last : century < 4) (low : 0 ≤ day)
    (high : day < 36524) :
    let year := (day - (24 * century + day) / 1460) / 365
    0 ≤ year ∧ year < 100 ∧ 365 * year + year / 4 ≤ day ∧
      (year < 99 → day < 365 * (year + 1) + (year + 1) / 4) := by
  intro year
  obtain ⟨cycle, rest, split, within, below⟩ :
      ∃ cycle rest, day = 1461 * cycle + rest ∧ 0 ≤ rest ∧ rest < 1461 :=
    ⟨day / 1461, day % 1461, by omega, by omega, by omega⟩
  obtain ⟨excess, counted⟩ : ∃ excess, (24 * century + day) / 1460 = cycle + excess :=
    ⟨(24 * century + day) / 1460 - cycle, by omega⟩
  have small : 0 ≤ excess ∧ excess ≤ 1 ∧ (excess = 1 ↔ 1460 ≤ 24 * century + cycle + rest) := by omega
  have years : year = 4 * cycle + (rest - excess) / 365 := by
    simp only [year, counted]
    omega
  omega

theorem year_of_era {day : Int} (low : 0 ≤ day) (high : day < 146097) :
    let year := (day - day / 1460 + day / 36524 - day / 146096) / 365
    0 ≤ year ∧ year < 400 ∧ yearStart year ≤ day ∧ day < yearStart (year + 1) := by
  intro year
  by_cases final : day = 146096
  · subst final
    decide
  · obtain ⟨century, rest, split, within, below⟩ :
        ∃ century rest, day = 36524 * century + rest ∧ 0 ≤ rest ∧ rest < 36524 :=
      ⟨day / 36524, day % 36524, by omega, by omega, by omega⟩
    have first : 0 ≤ century ∧ century < 4 := by omega
    have years : year = 100 * century + (rest - (24 * century + rest) / 1460) / 365 := by
      simp only [year]
      omega
    obtain ⟨least, most, starts, ends⟩ := year_of_century first.1 first.2 within below
    generalize (rest - (24 * century + rest) / 1460) / 365 = inner at years least most starts ends
    clear_value year
    subst years split
    have start : yearStart (100 * century + inner) = 36524 * century + (365 * inner + inner / 4) := by
      simp only [yearStart]
      omega
    refine ⟨by omega, by omega, by omega, ?_⟩
    by_cases final : inner = 99
    · subst final
      simp only [yearStart]
      omega
    · have next : yearStart (100 * century + inner + 1) = 36524 * century + (365 * (inner + 1) + (inner + 1) / 4) := by
        have fours : (100 * century + inner + 1) / 4 = 25 * century + (inner + 1) / 4 := by omega
        have centuries : (100 * century + inner + 1) / 100 = century := by omega
        have eras : (100 * century + inner + 1) / 400 = 0 := by omega
        simp only [yearStart, fours, centuries, eras]
        omega
      omega

/-- The month of a day of the year, where the months run from March. -/
theorem month_of_year {day : Int} (low : 0 ≤ day) (high : day < 366) :
    let month := (5 * day + 2) / 153
    0 ≤ month ∧ month < 12 ∧ (153 * month + 2) / 5 ≤ day ∧ day < (153 * (month + 1) + 2) / 5 := by
  intro month
  omega

theorem yearStart_era (era year : Int) : yearStart (year + era * 400) = 146097 * era + yearStart year := by
  simp only [yearStart]
  omega

theorem monthStart_eq {year month : Int} (low : 0 ≤ month) (high : month < 12) :
    monthStart (12 * year + month + 2) = yearStart year + (153 * month + 2) / 5 - 719468 := by
  have years : (12 * year + month + 2 - 2) / 12 = year := by omega
  have months : (12 * year + month + 2 - 2) % 12 = month := by omega
  rw [monthStart, years, months]

/-- A day comes in its month after as many days as its number says. -/
theorem civil_spec (date : Int) :
    (monthStart (monthIndex date) ≤ date ∧ date < monthStart (monthIndex date + 1)) ∧
      (1 ≤ (civil date).month ∧ (civil date).month ≤ 12) ∧
      date = monthStart (monthIndex date) + ((civil date).day - 1) := by
  have days : 146097 * ((date + 719468) / 146097) + (date + 719468) % 146097 = date + 719468 :=
    Int.mul_ediv_add_emod _ _
  have within := @year_of_era ((date + 719468) % 146097) (by omega) (by omega)
  simp only at within
  simp only [monthIndex, civil]
  generalize (date + 719468) / 146097 = era at days ⊢
  generalize (date + 719468) % 146097 = rest at days within ⊢
  generalize (rest - rest / 1460 + rest / 36524 - rest / 146096) / 365 = year at within ⊢
  obtain ⟨low, high, starts, ends⟩ := within
  have start : yearStart year = 365 * year + year / 4 - year / 100 := by
    simp only [yearStart]
    omega
  have leap : yearStart (year + 1) ≤ yearStart year + 366 := by
    simp only [yearStart]
    omega
  obtain ⟨day, split⟩ : ∃ day, rest = yearStart year + day := ⟨rest - yearStart year, by omega⟩
  have offset : rest - (365 * year + year / 4 - year / 100) = day := by omega
  rw [offset]
  obtain ⟨least, most, begins, closes⟩ := @month_of_year day (by omega) (by omega)
  generalize (5 * day + 2) / 153 = month at *
  have index : 12 * (if (if month < 10 then month + 3 else month - 9) ≤ 2 then year + era * 400 + 1
      else year + era * 400) + (if month < 10 then month + 3 else month - 9) - 1 =
        12 * (year + era * 400) + month + 2 := by
    split <;> split <;> omega
  have numbered : 1 ≤ (if month < 10 then month + 3 else month - 9) ∧ (if month < 10 then month + 3 else month - 9) ≤ 12 := by
    split <;> omega
  rw [index, monthStart_eq least most, yearStart_era]
  refine ⟨⟨by omega, ?_⟩, numbered, by omega⟩
  by_cases last : month = 11
  · have next : 12 * (year + era * 400) + month + 2 + 1 = 12 * (year + 1 + era * 400) + 0 + 2 := by omega
    rw [next, monthStart_eq (by omega) (by omega), yearStart_era]
    omega
  · have next : 12 * (year + era * 400) + month + 2 + 1 = 12 * (year + era * 400) + (month + 1) + 2 := by omega
    rw [next, monthStart_eq (by omega) (by omega), yearStart_era]
    omega

theorem monthStart_monthIndex (date : Int) :
    monthStart (monthIndex date) ≤ date ∧ date < monthStart (monthIndex date + 1) := (civil_spec date).1

theorem monthStart_mono {a b : Int} (ordered : a ≤ b) : monthStart a ≤ monthStart b := by
  obtain ⟨steps, rfl⟩ := Int.le.dest ordered
  induction steps with
  | zero => simp
  | succ n ih =>
    have next := monthStart_next (a + n)
    have sum : a + (n + 1 : Nat) = a + n + 1 := by omega
    rw [sum]
    have before := ih (by omega)
    omega

/-- A month lies wholly before the next one. -/
theorem monthStart_lt_iff {a b : Int} : monthStart a < monthStart b ↔ a < b := by
  constructor
  · intro below
    by_contra above
    have := @monthStart_mono b a (by omega)
    omega
  · intro below
    have := @monthStart_mono (a + 1) b (by omega)
    have := monthStart_next a
    omega

theorem monthStart_le_iff {index date : Int} : monthStart index ≤ date ↔ index ≤ monthIndex date := by
  obtain ⟨starts, ends⟩ := monthStart_monthIndex date
  constructor
  · intro begun
    have : index < monthIndex date + 1 := monthStart_lt_iff.mp (by omega)
    omega
  · intro ordered
    have := monthStart_mono ordered
    omega

theorem lt_monthStart_iff {index date : Int} : date < monthStart index ↔ monthIndex date < index := by
  have := @monthStart_le_iff index date
  omega

theorem monthIndex_mono {early late : Int} (ordered : early ≤ late) : monthIndex early ≤ monthIndex late :=
  monthStart_le_iff.mp (Int.le_trans (monthStart_monthIndex early).1 ordered)

theorem monthIndex_monthStart (index : Int) : monthIndex (monthStart index) = index := by
  obtain ⟨starts, ends⟩ := monthStart_monthIndex (monthStart index)
  have before : monthIndex (monthStart index) < index + 1 :=
    lt_monthStart_iff.mp (monthStart_lt_iff.mpr (Int.lt_succ index))
  have after : index ≤ monthIndex (monthStart index) := monthStart_le_iff.mp (Int.le_refl _)
  omega

/-- A month starts on its day 1. -/
theorem civil_monthStart (index : Int) : (civil (monthStart index)).day = 1 := by
  have numbered := (civil_spec (monthStart index)).2.2
  rw [monthIndex_monthStart] at numbered
  omega

theorem civil_of_monthIndex {date : Int} : (civil date).year = monthIndex date / 12 ∧
    (civil date).month = monthIndex date % 12 + 1 := by
  obtain ⟨low, high⟩ := (civil_spec date).2.1
  simp only [monthIndex]
  omega

/-- The first day of a month. -/
theorem fromYmdOpt_first {year month : Int} : fromYmdOpt year month 1 =
    if yearMin ≤ year ∧ year ≤ yearMax ∧ 1 ≤ month ∧ month ≤ 12 then some (monthStart (12 * year + (month - 1)))
    else none := by
  have next := monthStart_next (12 * year + (month - 1))
  have sum : 12 * year + (month - 1) + 1 = 12 * year + month := by omega
  rw [sum] at next
  have begun : monthStart (12 * year + (month - 1)) < monthStart (12 * year + month) := by omega
  simp only [fromYmdOpt, Int.le_refl, Int.sub_self, Int.add_zero, begun, and_true]

theorem parseDigits_padded (width n : Nat) : parseDigits (padded width n) = some n :=
  parseDigits_replicate (parseDigits_toDigits n) _

theorem addDays_eq {date days later : Int} (added : addDays date days = some later) : later = date + days := by
  rw [addDays, Option.ite_none_right_eq_some] at added
  exact (Option.some.inj added.2).symm

/-- The last two of the seven days that start with a Monday. -/
theorem weekday_late_iff (date : Int) :
    (weekday date = .saturday ∨ weekday date = .sunday) ↔ 5 ≤ (date + 3) % 7 := by
  obtain ⟨k, place⟩ := Int.eq_ofNat_of_zero_le (Int.emod_nonneg (date + 3) (by decide : (7 : Int) ≠ 0))
  have bound : k < 7 := by omega
  rw [weekday, place, Int.toNat_natCast]
  match k, bound with
  | 0, _ | 1, _ | 2, _ | 3, _ | 4, _ | 5, _ | 6, _ => decide

example : isoDate 20519 = text "2026-03-07" ∧ weekday 20519 = .saturday := by decide +kernel

example : isoDate 20587 = text "2026-05-14" := by decide +kernel

end CalendarDate
