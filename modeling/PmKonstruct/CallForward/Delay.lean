import PmKonstruct.Store.Schema

/- The delay of an item as of a given day, computed when it is read and never stored. The order of the rules is
   what matters: on hold beats late, and late beats the stored status. -/
namespace Delay
open PlainText CalendarDate Schema

def CfStatus.parse (s : Text) : Option CfStatus :=
  if s = text "not_started" then some .notStarted
  else if s = text "in_progress" then some .inProgress
  else if s = text "completed" then some .completed
  else if s = text "on_hold" then some .onHold
  else none

inductive DelayStatus where
  | notStarted
  | inProgress
  | completed
  | onHold
  | delayed
  deriving DecidableEq, Repr

/-- The fields the rules read. -/
structure DelayInput where
  status : Option CfStatus
  estStart : Option Date
  estFinish : Option Date
  actualStart : Option Date
  actualFinish : Option Date
  deriving DecidableEq, Repr

structure DelayInfo where
  delayStatus : DelayStatus
  delayDays : Option Int
  deriving DecidableEq, Repr

def DelayInfo.plain (status : DelayStatus) : DelayInfo := ⟨status, none⟩

/-- The rules from the fourth on, for an item that is neither held, finished nor late. -/
def computeStarted (item : DelayInput) (today : Date) : DelayInfo :=
  if item.actualStart.isSome then .plain .inProgress
  else
    match item.status with
    | some .inProgress => .plain .inProgress
    | some .notStarted => .plain .notStarted
    | _ => if item.estStart.any (· ≤ today) then .plain .inProgress else .plain .notStarted

def computeDelayInfo (item : DelayInput) (today : Date) : DelayInfo :=
  if item.status = some .onHold then .plain .onHold
  else if item.status = some .completed ∨ item.actualFinish.isSome then .plain .completed
  else
    match item.estFinish with
    | some finish => if today > finish then ⟨.delayed, some (today - finish)⟩ else computeStarted item today
    | none => computeStarted item today

theorem computeStarted_not_delayed {item : DelayInput} {today : Date} :
    (computeStarted item today).delayStatus ≠ .delayed := by
  unfold computeStarted DelayInfo.plain
  split
  · simp
  · split
    · simp
    · simp
    · split <;> simp

/-- Late is what is neither held nor finished, by its status or by a date, once its estimate has passed. -/
theorem delayed_iff {item : DelayInput} {today : Date} : (computeDelayInfo item today).delayStatus = .delayed ↔
    item.status ≠ some .onHold ∧ item.status ≠ some .completed ∧ item.actualFinish = none ∧
      ∃ finish, item.estFinish = some finish ∧ finish < today := by
  unfold computeDelayInfo
  by_cases held : item.status = some .onHold
  · simp [held, DelayInfo.plain]
  · by_cases done : item.status = some .completed ∨ item.actualFinish.isSome = true
    · rw [if_neg held, if_pos done]
      constructor
      · intro plain
        cases plain
      · rintro ⟨-, unfinished, undated, -⟩
        simp [unfinished, undated] at done
    · rw [if_neg held, if_neg done]
      simp only [not_or, Bool.not_eq_true, Option.isSome_eq_false_iff, Option.isNone_iff_eq_none] at done
      simp only [ne_eq, held, not_false_eq_true, done, true_and]
      cases item.estFinish with
      | none => simp [computeStarted_not_delayed]
      | some finish =>
        simp only [Option.some.injEq, exists_eq_left']
        by_cases past : today > finish
        · rw [if_pos past]
          exact iff_of_true rfl past
        · rw [if_neg past]
          exact iff_of_false computeStarted_not_delayed past

theorem delayDays_of_delayed {item : DelayInput} {today finish : Date} (planned : item.estFinish = some finish)
    (late : (computeDelayInfo item today).delayStatus = .delayed) :
    (computeDelayInfo item today).delayDays = some (today - finish) := by
  obtain ⟨held, done, undated, other, same, past⟩ := delayed_iff.mp late
  rw [planned] at same
  cases same
  unfold computeDelayInfo
  rw [if_neg held, if_neg (by simp [done, undated]), planned]
  exact congrArg DelayInfo.delayDays (if_pos past)

end Delay
