import PmKonstruct.Dashboard.Calendar

/- The months of the calendar side by side: the window that a date gives and the one that its `YYYY-MM` gives are one, and
   each window starts where the one before it ends. -/
namespace MonthTiling
open PlainText DecimalText DomainErrors CalendarDate Calendar

/-- `YYYY-MM`. -/
def yearMonth (date : Date) : Text := padded 4 (civil date).year ++ '-' :: padded 2 (civil date).month

/-- The years that four digits name. -/
def NamedYear (date : Date) : Prop := 1 ≤ (civil date).year ∧ (civil date).year ≤ 9999

instance (date : Date) : Decidable (NamedYear date) := inferInstanceAs (Decidable (_ ∧ _))

def SameMonth (a b : Civil) : Prop := a.year = b.year ∧ a.month = b.month

def NextMonth (a b : Civil) : Prop :=
  if a.month = 12 then b.year = a.year + 1 ∧ b.month = 1 else b.year = a.year ∧ b.month = a.month + 1

/-- The window of a date among the windows of the others. -/
structure Tiles (date : Date) (window : MonthWindow) : Prop where
  inside : window.first ≤ date ∧ date ≤ window.last
  ordered : window.first ≤ window.last
  starts : civil window.first = ⟨(civil date).year, (civil date).month, 1⟩
  parsed : MonthWindow.parse (yearMonth date) = .ok window
  apart : ∀ other, NamedYear other → ¬ SameMonth (civil date) (civil other) → ∀ day,
    ¬ ((window.first ≤ day ∧ day ≤ window.last) ∧
      (MonthWindow.containing other).first ≤ day ∧ day ≤ (MonthWindow.containing other).last)
  follows : NextMonth (civil date) (civil (window.last + 1))
  adjacent : ∀ other, NextMonth (civil date) (civil other) → (MonthWindow.containing other).first = window.last + 1

section Months
variable {date other : Int}

theorem sameMonth_iff : SameMonth (civil date) (civil other) ↔ monthIndex date = monthIndex other := by
  obtain ⟨year, month⟩ := @civil_of_monthIndex date
  obtain ⟨otherYear, otherMonth⟩ := @civil_of_monthIndex other
  rw [SameMonth, year, month, otherYear, otherMonth]
  omega

theorem nextMonth_iff : NextMonth (civil date) (civil other) ↔ monthIndex other = monthIndex date + 1 := by
  obtain ⟨year, month⟩ := @civil_of_monthIndex date
  obtain ⟨otherYear, otherMonth⟩ := @civil_of_monthIndex other
  rw [NextMonth, year, month, otherYear, otherMonth]
  split <;> omega

theorem monthIndex_bounds (named : NamedYear date) : 12 ≤ monthIndex date ∧ monthIndex date < 120000 := by
  obtain ⟨year, -⟩ := @civil_of_monthIndex date
  rw [NamedYear, year] at named
  omega

/-- Away from the ends of the calendar the window of a date is its whole month. -/
theorem containing_isMonth (within : HasMonth date) : (MonthWindow.containing date).IsMonth (monthIndex date) := by
  obtain ⟨low, high⟩ := within
  obtain ⟨first, last⟩ := (civil_spec date).2.1
  have least : yearMin = -262143 := rfl
  have most : yearMax = 262142 := rfl
  have index : 12 * (civil date).year + (civil date).month = monthIndex date + 1 := by
    rw [monthIndex]
    omega
  have begun := @fromYmdOpt_month (civil date).year (civil date).month (by omega) (by omega) first last
  have ended := nextFirst_eq (by omega : yearMin ≤ (civil date).year) first last
  rw [if_pos (by omega)] at ended
  constructor
  · rw [MonthWindow.containing, begun, Option.getD_some, index, Int.add_sub_cancel]
  · rw [MonthWindow.containing, ended, index, Option.bind_some, predOpt_monthStart (by omega), Option.getD_some]

theorem isMonth_unique {window same : MonthWindow} {index : Int} (month : window.IsMonth index)
    (again : same.IsMonth index) : window = same := by
  obtain ⟨first, last⟩ := window
  obtain ⟨other, final⟩ := same
  obtain ⟨rfl, rfl⟩ := month
  obtain ⟨rfl, rfl⟩ := again
  rfl

theorem civil_first (index : Int) : civil (monthStart index) = ⟨index / 12, index % 12 + 1, 1⟩ := by
  obtain ⟨year, month⟩ := @civil_of_monthIndex (monthStart index)
  have parts : civil (monthStart index) =
      ⟨(civil (monthStart index)).year, (civil (monthStart index)).month, (civil (monthStart index)).day⟩ := rfl
  rw [parts, year, month, civil_monthStart, monthIndex_monthStart]

theorem parse_yearMonth (named : NamedYear date) :
    ∃ window, MonthWindow.parse (yearMonth date) = .ok window ∧ window.IsMonth (monthIndex date) := by
  obtain ⟨first, last⟩ := (civil_spec date).2.1
  obtain ⟨low, high⟩ := named
  obtain ⟨y, year⟩ := Int.eq_ofNat_of_zero_le (by omega : 0 ≤ (civil date).year)
  obtain ⟨m, month⟩ := Int.eq_ofNat_of_zero_le (by omega : 0 ≤ (civil date).month)
  have most : yearMax = 262142 := rfl
  obtain ⟨window, parsed, index⟩ := parse_digits (parseDigits_padded 4 y) (parseDigits_padded 2 m) (by omega) (by omega)
    (by omega)
  refine ⟨window, ?_, ?_⟩
  · rw [yearMonth, year, month]
    exact parsed
  · rw [monthIndex, year, month]
    exact index

end Months

/-- Every day of four-digit years lies in one window, and the windows follow one another without a gap. -/
theorem months_tile {date : Int} (named : NamedYear date) : Tiles date (MonthWindow.containing date) := by
  obtain ⟨low, high⟩ := monthIndex_bounds named
  have most : yearMax = 262142 := rfl
  have month : (MonthWindow.containing date).IsMonth (monthIndex date) := containing_isMonth ⟨by omega, by omega⟩
  constructor
  · exact containing_bounds date
  · exact IsMonth.ordered month
  · rw [month.first, civil_first, ← civil_of_monthIndex.1, ← civil_of_monthIndex.2]
  · obtain ⟨window, parsed, same⟩ := parse_yearMonth named
    rw [parsed, isMonth_unique month same]
  · intro other otherNamed different day both
    obtain ⟨otherLow, otherHigh⟩ := monthIndex_bounds otherNamed
    have otherMonth : (MonthWindow.containing other).IsMonth (monthIndex other) := containing_isMonth ⟨by omega, by omega⟩
    have here := (IsMonth.contains_iff month).mp both.1
    have there := (IsMonth.contains_iff otherMonth).mp both.2
    exact different (sameMonth_iff.mpr (here.symm.trans there))
  · rw [nextMonth_iff, month.last, Int.sub_add_cancel, monthIndex_monthStart]
  · intro other next
    have index := nextMonth_iff.mp next
    have otherMonth : (MonthWindow.containing other).IsMonth (monthIndex other) := containing_isMonth ⟨by omega, by omega⟩
    rw [otherMonth.first, month.last, index, Int.sub_add_cancel]

/-- The last day of a year, whose next month is in another year. -/
theorem december_tiles : Tiles 20818 (MonthWindow.containing 20818) := months_tile (by decide +kernel)

end MonthTiling
