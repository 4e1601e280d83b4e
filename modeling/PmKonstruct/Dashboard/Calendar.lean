import PmKonstruct.Library.CalendarDate
import PmKonstruct.Domain.Errors
import PmKonstruct.Store.Schema

/- The shapes of the calendar: the kinds of its bars, the window of days a request asks for, and the days that an item
   takes up. -/
namespace Calendar
open PlainText DecimalText DomainErrors CalendarDate Schema

inductive EventKind where
  | job
  | claim
  | task
  deriving DecidableEq, Repr

def EventKind.asStr : EventKind → Text
  | .job => text "job"
  | .claim => text "claim"
  | .task => text "task"

/-- `all` stands for every kind. -/
def EventKind.parseFilter (raw : Option Text) : Except DomainError (Option EventKind) :=
  match raw.map trim with
  | none => .ok none
  | some kind =>
    if kind = [] ∨ kind = text "all" then .ok none
    else if kind = text "job" then .ok (some .job)
    else if kind = text "claim" then .ok (some .claim)
    else if kind = text "task" then .ok (some .task)
    else .error (.invalid "type" "must be one of job, claim, task, all")

def EventKind.includedBy (kind : EventKind) (filter : Option EventKind) : Bool := filter.all (· = kind)

/-- Both days are part of the window. -/
structure MonthWindow where
  first : Date
  last : Date
  deriving DecidableEq, Repr

def badMonth : DomainError := .invalid "month" "must be in YYYY-MM form"

/-- The first of the month that follows. -/
def nextFirst (year month : Int) : Option Date :=
  if month = 12 then fromYmdOpt (year + 1) 1 1 else fromYmdOpt year (month + 1) 1

/-- `YYYY-MM`, cut at the first hyphen. -/
def MonthWindow.parse (month : Text) : Except DomainError MonthWindow :=
  match splitOnce '-' (trim month) with
  | none => .error badMonth
  | some (year, month) =>
    match parseI32 year, parseU32 month with
    | some year, some month =>
      if 1 ≤ month ∧ month ≤ 12 then
        match fromYmdOpt year month 1, (nextFirst year month).bind predOpt with
        | some first, some last => .ok ⟨first, last⟩
        | _, _ => .error badMonth
      else .error (.invalid "month" "must be between 01 and 12")
    | _, _ => .error badMonth

def MonthWindow.containing (today : Date) : MonthWindow where
  first := (fromYmdOpt (civil today).year (civil today).month 1).getD today
  last := ((nextFirst (civil today).year (civil today).month).bind predOpt).getD today

def MonthWindow.allTime : MonthWindow where
  first := (fromYmdOpt 1900 1 1).getD 0
  last := (fromYmdOpt 2999 12 31).getD 0

/-- Actual dates win over estimates, and either end falls back to the other. -/
def effectiveRange (actualStart estStart actualFinish estFinish : Option Date) : Option (Date × Date) := do
  let start ← ((actualStart.or estStart).or actualFinish).or estFinish
  let finish ← ((actualFinish.or estFinish).or actualStart).or estStart
  some (start, finish)

structure CalendarEvent where
  id : Text
  kind : EventKind
  title : Text
  start : Date
  finish : Date
  estStart : Option Date
  estFinish : Option Date
  actualStart : Option Date
  actualFinish : Option Date
  jobId : JobId
  jobName : Text
  jobNumber : Text
  jobAddress : Option Text
  supervisorId : Option UserId
  supervisorName : Option Text
  status : Text
  supplierTrade : Option Text
  url : Text
  deriving DecidableEq, Repr

/- A month that can be asked for. -/

/-- The window is the month of this number, counted from January of year 0. -/
structure MonthWindow.IsMonth (window : MonthWindow) (index : Int) : Prop where
  first : window.first = monthStart index
  last : window.last = monthStart (index + 1) - 1

theorem IsMonth.contains_iff {window : MonthWindow} {index day : Int} (month : window.IsMonth index) :
    window.first ≤ day ∧ day ≤ window.last ↔ monthIndex day = index := by
  rw [month.first, month.last, monthStart_le_iff, Int.le_sub_one_iff, lt_monthStart_iff]
  omega

/-- From January of year 0 on, and before the last month that a day may be named by. -/
def HasMonth (day : Date) : Prop := 0 ≤ monthIndex day ∧ monthIndex day < 12 * yearMax + 11

instance (day : Date) : Decidable (HasMonth day) := inferInstanceAs (Decidable (_ ∧ _))

section Months
variable {year month : Int}

theorem fromYmdOpt_month (low : yearMin ≤ year) (high : year ≤ yearMax) (first : 1 ≤ month) (last : month ≤ 12) :
    fromYmdOpt year month 1 = some (monthStart (12 * year + month - 1)) := by
  rw [fromYmdOpt_first, if_pos ⟨low, high, first, last⟩, Int.add_sub_assoc]

theorem nextFirst_eq (low : yearMin ≤ year) (first : 1 ≤ month) (last : month ≤ 12) :
    nextFirst year month = if 12 * year + month < 12 * yearMax + 12 then some (monthStart (12 * year + month)) else none := by
  rw [nextFirst]
  by_cases december : month = 12
  · subst december
    rw [if_pos rfl, fromYmdOpt_first]
    have sum : 12 * (year + 1) + (1 - 1) = 12 * year + 12 := by omega
    rw [sum]
    refine if_congr ?_ rfl rfl
    omega
  · rw [if_neg december, fromYmdOpt_first]
    have sum : 12 * year + (month + 1 - 1) = 12 * year + month := by omega
    rw [sum]
    refine if_congr ?_ rfl rfl
    omega

theorem predOpt_monthStart {index : Int} (after : 12 * yearMin < index) :
    predOpt (monthStart index) = some (monthStart index - 1) := by
  rw [predOpt, if_neg (Int.not_le.mpr (monthStart_lt_iff.mpr after))]

/-- What is parsed is a month, and its number is not below that of January of year 0. -/
theorem parse_isMonth {month : Text} {window : MonthWindow} (parsed : MonthWindow.parse month = .ok window) :
    ∃ index, 0 ≤ index ∧ index < 12 * yearMax + 11 ∧ window.IsMonth index := by
  rw [MonthWindow.parse] at parsed
  split at parsed
  · cases parsed
  · next year mon cut =>
    split at parsed
    · next y m readYear readMonth =>
      split at parsed
      · next within =>
        split at parsed
        · next first last starts ends =>
          cases parsed
          have unsigned := (splitOnce_eq_some.mp cut).1
          have positive := parseI32_nonneg unsigned readYear
          have low : yearMin ≤ y := by
            have : yearMin ≤ 0 := by decide
            omega
          rw [fromYmdOpt_first] at starts
          split at starts
          · next inRange =>
            cases starts
            rw [nextFirst_eq low (by omega) (by omega)] at ends
            split at ends
            · next below =>
              rw [Option.bind_some, predOpt_monthStart (by omega)] at ends
              cases ends
              refine ⟨12 * y + m - 1, by omega, by omega, ?_, ?_⟩
              · exact congrArg monthStart (by omega)
              · exact congrArg (monthStart · - 1) (by omega)
            · cases ends
          · cases starts
        · cases parsed
      · cases parsed
    · cases parsed

/-- The way a month is asked for. -/
def monthText (index : Nat) : Text := decimal (index / 12 : Nat) ++ '-' :: decimal (index % 12 + 1 : Nat)

/-- A day lies in the month that contains it, also where that month is cut short. -/
theorem containing_bounds (today : Int) :
    (MonthWindow.containing today).first ≤ today ∧ today ≤ (MonthWindow.containing today).last := by
  obtain ⟨starts, ends⟩ := monthStart_monthIndex today
  rw [monthIndex] at starts ends
  constructor
  · rw [MonthWindow.containing, fromYmdOpt_first]
    split
    · rw [Option.getD_some, ← Int.add_sub_assoc]
      exact starts
    · exact Int.le_refl _
  · have next : ∀ first, nextFirst (civil today).year (civil today).month = some first → today < first := by
      intro first found
      rw [nextFirst] at found
      split at found
      · next december =>
        rw [fromYmdOpt_first] at found
        split at found
        · cases found
          rw [december] at ends
          have sum : 12 * ((civil today).year + 1) + (1 - 1) = 12 * (civil today).year + 12 - 1 + 1 := by omega
          rw [sum]
          exact ends
        · cases found
      · rw [fromYmdOpt_first] at found
        split at found
        · cases found
          have sum : 12 * (civil today).year + ((civil today).month + 1 - 1) =
              12 * (civil today).year + (civil today).month - 1 + 1 := by omega
          rw [sum]
          exact ends
        · cases found
    rw [MonthWindow.containing]
    cases found : nextFirst (civil today).year (civil today).month with
    | none => exact Int.le_refl _
    | some first =>
      rw [Option.bind_some, predOpt]
      split
      · exact Int.le_refl _
      · exact Int.le_sub_one_of_lt (next first found)

theorem IsMonth.ordered {window : MonthWindow} {index : Int} (month : window.IsMonth index) :
    window.first ≤ window.last := by
  have := monthStart_next index
  rw [month.first, month.last]
  exact Int.le_sub_one_of_lt (by omega)

theorem visible_of_digit {c : Char} (digit : c.isDigit = true) : isWhitespace c = false := by
  rw [Char.isDigit_iff_toNat] at digit
  have zero : '0'.toNat = 48 := rfl
  have nine : '9'.toNat = 57 := rfl
  simp only [isWhitespace, Bool.or_eq_false_iff, Bool.and_eq_false_iff, decide_eq_false_iff_not, beq_eq_false_iff_ne]
  omega

/-- A year and a month in digits, however many of them. -/
theorem parse_digits {yearText monthText : Text} {y m : Nat} (readYear : parseDigits yearText = some y)
    (readMonth : parseDigits monthText = some m) (first : 1 ≤ m) (last : m ≤ 12)
    (within : (12 * y + m : Int) < 12 * yearMax + 12) : ∃ window,
      MonthWindow.parse (yearText ++ '-' :: monthText) = .ok window ∧ window.IsMonth (12 * y + m - 1) := by
  obtain ⟨⟨yearNonempty, yearDigits⟩, -⟩ := parseDigits_eq_some.mp readYear
  obtain ⟨⟨monthNonempty, monthDigits⟩, -⟩ := parseDigits_eq_some.mp readMonth
  have trimmed : trim (yearText ++ '-' :: monthText) = yearText ++ '-' :: monthText := by
    obtain ⟨c, rest, starts⟩ := List.exists_cons_of_ne_nil yearNonempty
    have ends : yearText ++ '-' :: monthText =
        (yearText ++ '-' :: monthText.dropLast) ++ [monthText.getLast monthNonempty] := by
      rw [List.append_assoc, List.cons_append, List.dropLast_append_getLast]
    refine trim_of_edges (by rw [starts, List.cons_append]) ends (visible_of_digit ?_) (visible_of_digit ?_)
    · exact yearDigits c (starts ▸ List.mem_cons_self)
    · exact monthDigits _ (List.getLast_mem monthNonempty)
  have cut : splitOnce '-' (yearText ++ '-' :: monthText) = some (yearText, monthText) :=
    splitOnce_eq_some.mpr ⟨fun member => absurd (yearDigits _ member) (by decide), rfl⟩
  have most : yearMax = 262142 := rfl
  have least : yearMin = -262143 := rfl
  have year : parseI32 yearText = some (y : Int) := parseI32_digits readYear ⟨by omega, by omega⟩
  have month : parseU32 monthText = some m := parseU32_digits readMonth (by omega)
  have begun := @fromYmdOpt_month y m (by omega) (by omega) (by omega) (by omega)
  have next := @nextFirst_eq y m (by omega) (by omega) (by omega)
  rw [if_pos (by omega)] at next
  have ended := @predOpt_monthStart (12 * y + m) (by omega)
  refine ⟨⟨monthStart (12 * y + m - 1), monthStart (12 * y + m) - 1⟩, ?_, rfl, ?_⟩
  · rw [MonthWindow.parse, trimmed, cut]
    simp only [year, month, first, last, and_self, if_true, begun, next, Option.bind_some, ended]
  · rw [Int.sub_add_cancel]

/-- Every month up to the last one can be asked for. -/
theorem parse_monthText {index : Nat} (within : (index : Int) < 12 * yearMax + 11) :
    ∃ window, MonthWindow.parse (monthText index) = .ok window ∧ window.IsMonth index := by
  obtain ⟨window, parsed, month⟩ := parse_digits (parseDigits_toDigits (index / 12)) (parseDigits_toDigits (index % 12 + 1))
    (by omega) (by omega) (by omega)
  refine ⟨window, parsed, ?_⟩
  have number : 12 * ((index / 12 : Nat) : Int) + ((index % 12 + 1 : Nat) : Int) - 1 = index := by omega
  rwa [number] at month

end Months

end Calendar
