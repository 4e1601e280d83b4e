import Mathlib.Data.Set.Card
import Mathlib.Data.Int.Interval
import PmKonstruct.Library.CalendarDate

/- The working days of a range, by whole weeks and a walk over the days that are left. `none` stands for the panic of a
   sum that leaves the calendar. -/
namespace WorkingDays
open CalendarDate

def isWeekend (day : Date) : Bool := weekday day = .saturday || weekday day = .sunday

/-- `while day <= end`. -/
def walk (finish day : Date) (count : Int) : Option Int :=
  if day ≤ finish then
    match added : addDays day 1 with
    | none => none
    | some next => walk finish next (if isWeekend day then count else count + 1)
  else some count
termination_by (finish + 1 - day).toNat
decreasing_by
  have later := addDays_eq added
  have ahead := Int.sub_nonneg_of_le ‹day ≤ finish›
  omega

def workingDays (start finish : Date) : Option Int :=
  if start > finish then some 0
  else
    let totalDays := finish - start + 1
    let wholeWeeks := totalDays.tdiv 7
    (addDays start (wholeWeeks * 7)).bind fun remainderStart => walk finish remainderStart (wholeWeeks * 5)

/- The weekdays before a day, counted from a Monday. -/

def weekdaysBefore (day : Date) : Int := 5 * ((day + 3) / 7) + min 5 ((day + 3) % 7)

theorem isWeekend_iff (day : Int) : isWeekend day = true ↔ 5 ≤ (day + 3) % 7 := by
  rw [isWeekend, Bool.or_eq_true, decide_eq_true_iff, decide_eq_true_iff, weekday_late_iff]

theorem weekdaysBefore_next (day : Int) :
    weekdaysBefore (day + 1) = weekdaysBefore day + if isWeekend day = false then 1 else 0 := by
  have late := isWeekend_iff day
  simp only [weekdaysBefore]
  cases weekend : isWeekend day with
  | true =>
    have := late.mp weekend
    simp only [Bool.true_eq_false, if_false]
    omega
  | false =>
    have : ¬ 5 ≤ (day + 3) % 7 := fun there => by simp [late.mpr there] at weekend
    simp only [if_true]
    omega

theorem weekdaysBefore_weeks (day weeks : Int) : weekdaysBefore (day + weeks * 7) = weekdaysBefore day + weeks * 5 := by
  simp only [weekdaysBefore]
  omega

section Walk
variable {start middle finish day count : Int}

theorem addDays_within {days : Int} (low : dateMin ≤ day + days) (high : day + days ≤ dateMax) :
    addDays day days = some (day + days) := if_pos ⟨low, high⟩

/-- What the walk adds is what the running count gains up to the day after the last. -/
theorem walk_eq (bounded : finish < dateMax) (low : dateMin ≤ day) (within : day ≤ finish + 1) :
    walk finish day count = some (count + (weekdaysBefore (finish + 1) - weekdaysBefore day)) := by
  obtain ⟨left, distance⟩ : ∃ left : Nat, finish + 1 = day + left := ⟨(finish + 1 - day).toNat, by omega⟩
  induction left generalizing day count with
  | zero =>
    have reached : day = finish + 1 := by omega
    rw [walk, if_neg (Int.not_le.mpr (by omega)), reached, Int.sub_self, Int.add_zero]
  | succ left ih =>
    have next : addDays day 1 = some (day + 1) := addDays_within (by omega) (by omega)
    rw [walk, if_pos (Int.le_of_lt_add_one (by omega))]
    split
    · next failed =>
      rw [next] at failed
      cases failed
    · next later added =>
      rw [next] at added
      cases added
      rw [ih (by omega) (by omega) (by omega), weekdaysBefore_next day]
      cases isWeekend day with
      | true => simp
      | false =>
        simp only [Bool.false_eq_true, if_false, if_true, Option.some.injEq]
        omega

theorem workingDays_eq (low : dateMin ≤ start) (bounded : finish < dateMax) (ordered : start ≤ finish + 1) :
    workingDays start finish = some (weekdaysBefore (finish + 1) - weekdaysBefore start) := by
  by_cases inverted : finish < start
  · have reached : finish + 1 = start := by omega
    rw [workingDays, if_pos inverted, reached, Int.sub_self]
  · have weeks : (finish - start + 1).tdiv 7 = (finish - start + 1) / 7 := Int.tdiv_eq_ediv_of_nonneg (by omega)
    have later : addDays start ((finish - start + 1) / 7 * 7) = some (start + (finish - start + 1) / 7 * 7) :=
      addDays_within (by omega) (by omega)
    rw [workingDays, if_neg inverted]
    simp only [weeks]
    rw [later, Option.bind_some, walk_eq bounded (by omega) (by omega), weekdaysBefore_weeks]
    congr 1
    omega

/-- The days from one to another that fall on Monday to Friday. -/
def weekdaysIn (start finish : Int) : Set Int := {day | start ≤ day ∧ day ≤ finish ∧ isWeekend day = false}

theorem weekdaysIn_inverted (inverted : finish < start) : weekdaysIn start finish = ∅ := by
  refine Set.eq_empty_iff_forall_notMem.mpr fun day inside => ?_
  have := le_trans inside.1 inside.2.1
  omega

theorem weekdaysIn_finite : (weekdaysIn start finish).Finite :=
  (Set.finite_Icc start finish).subset fun _ inside => ⟨inside.1, inside.2.1⟩

theorem weekdaysIn_next (ordered : start ≤ finish + 1) : weekdaysIn start (finish + 1) =
    if isWeekend (finish + 1) = false then insert (finish + 1) (weekdaysIn start finish) else weekdaysIn start finish := by
  have later : ∀ day, day ≤ finish + 1 ↔ day = finish + 1 ∨ day ≤ finish := by
    intro day
    omega
  ext day
  split
  · next weekday =>
    simp only [weekdaysIn, Set.mem_insert_iff, Set.mem_ofPred_eq, later]
    constructor
    · rintro ⟨after, rfl | before, free⟩
      · exact .inl rfl
      · exact .inr ⟨after, before, free⟩
    · rintro (rfl | ⟨after, before, free⟩)
      · exact ⟨ordered, .inl rfl, weekday⟩
      · exact ⟨after, .inr before, free⟩
  · next weekend =>
    simp only [weekdaysIn, Set.mem_ofPred_eq, later]
    constructor
    · rintro ⟨after, rfl | before, free⟩
      · exact absurd free weekend
      · exact ⟨after, before, free⟩
    · rintro ⟨after, before, free⟩
      exact ⟨after, .inr before, free⟩

/-- The running count gains one at each weekday. -/
theorem ncard_weekdaysIn (ordered : start ≤ finish + 1) :
    ((weekdaysIn start finish).ncard : Int) = weekdaysBefore (finish + 1) - weekdaysBefore start := by
  obtain ⟨length, distance⟩ : ∃ length : Nat, finish + 1 = start + length := ⟨(finish + 1 - start).toNat, by omega⟩
  induction length generalizing finish with
  | zero =>
    have reached : finish + 1 = start := by omega
    rw [weekdaysIn_inverted (by omega), reached, Set.ncard_empty, Int.sub_self, Int.natCast_zero]
  | succ length ih =>
    obtain ⟨before, rfl⟩ : ∃ before, finish = before + 1 := ⟨finish - 1, by omega⟩
    have counted := @ih before (by omega) (by omega)
    rw [weekdaysIn_next (by omega), weekdaysBefore_next (before + 1)]
    split
    · have new : before + 1 ∉ weekdaysIn start before := fun inside => by
        have := inside.2.1
        omega
      rw [Set.ncard_insert_of_notMem new weekdaysIn_finite, Int.natCast_add, counted]
      omega
    · rw [counted]
      omega

/-- Whole weeks and the days that are left come to the days that are counted. -/
theorem working_days_exact (low : dateMin ≤ start) (bounded : finish < dateMax) :
    (start ≤ finish → workingDays start finish = some ((weekdaysIn start finish).ncard : Int)) ∧
    (finish < start → workingDays start finish = some 0) ∧
    (start ≤ middle + 1 → middle ≤ finish → ∃ front back, workingDays start middle = some front ∧
      workingDays (middle + 1) finish = some back ∧ workingDays start finish = some (front + back)) := by
  refine ⟨fun ordered => ?_, fun inverted => if_pos inverted, fun before after => ?_⟩
  · rw [workingDays_eq low bounded (by omega), ncard_weekdaysIn (by omega)]
  · refine ⟨_, _, workingDays_eq low (by omega) before, workingDays_eq (by omega) bounded (by omega), ?_⟩
    rw [workingDays_eq low bounded (by omega)]
    congr 1
    omega

end Walk

/-- The year 2026, in two parts. -/
theorem working_days_year : workingDays 20454 20818 = some ((weekdaysIn 20454 20818).ncard : Int) ∧
    workingDays 20454 20818 = some 261 ∧ ∃ front back, workingDays 20454 20600 = some front ∧
      workingDays 20601 20818 = some back ∧ workingDays 20454 20818 = some (front + back) := by
  have exactly := @working_days_exact 20454 20600 20818 (by decide) (by decide)
  refine ⟨exactly.1 (by decide), ?_, exactly.2.2 (by decide) (by decide)⟩
  rw [workingDays_eq (by decide) (by decide) (by decide)]
  decide

end WorkingDays
