import Mathlib.Data.Int.Order.Basic
import PmKonstruct.CallForward.Item

/- The delay of an item on different days. A day further on only moves an item that is neither held nor finished, from not
   started to in progress and on to late. -/
namespace DelayOverTime
open CalendarDate Schema Delay CallForwardItem

/-- Held by its status, or finished by its status or by a date. -/
def Settled (item : DelayInput) : Prop :=
  item.status = some .onHold ∨ item.status = some .completed ∨ item.actualFinish.isSome = true

def settledStatus (item : DelayInput) : DelayStatus := if item.status = some .onHold then .onHold else .completed

def Late (item : DelayInput) (today : Date) : Prop := ∃ finish, item.estFinish = some finish ∧ finish < today

/-- Everything the rules can say of an item on a day. -/
theorem computeDelayInfo_cases (item : DelayInput) (today : Date) :
    (Settled item ∧ computeDelayInfo item today = .plain (settledStatus item)) ∨
    (¬ Settled item ∧ ∃ finish, item.estFinish = some finish ∧ finish < today ∧
      computeDelayInfo item today = ⟨.delayed, some (today - finish)⟩) ∨
    (¬ Settled item ∧ ¬ Late item today ∧ computeDelayInfo item today = computeStarted item today) := by
  unfold computeDelayInfo settledStatus
  by_cases held : item.status = some .onHold
  · simp [Settled, held]
  · by_cases done : item.status = some .completed ∨ item.actualFinish.isSome = true
    · simp [Settled, held, done]
    · right
      have unsettled : ¬ Settled item := by simp [Settled, held, done]
      simp only [unsettled, not_false_eq_true, true_and, held, done, if_false]
      cases planned : item.estFinish with
      | none => simp [Late, planned]
      | some finish =>
        by_cases past : finish < today
        · simp [past]
        · simp [Late, planned, past]

theorem computeStarted_cases (item : DelayInput) (today : Date) :
    computeStarted item today = .plain .inProgress ∨ computeStarted item today = .plain .notStarted := by
  unfold computeStarted
  split
  · simp
  · split
    · simp
    · simp
    · split <;> simp

/-- Only a late item has days. -/
theorem computeDelayInfo_days (item : DelayInput) (today : Date) :
    (∃ status, status ≠ .delayed ∧ computeDelayInfo item today = .plain status) ∨
    ∃ finish < today, computeDelayInfo item today = ⟨.delayed, some (today - finish)⟩ := by
  rcases computeDelayInfo_cases item today with ⟨-, found⟩ | ⟨-, finish, -, past, found⟩ | ⟨-, -, found⟩
  · refine .inl ⟨settledStatus item, ?_, found⟩
    unfold settledStatus
    split <;> decide
  · exact .inr ⟨finish, past, found⟩
  · rw [found]
    rcases computeStarted_cases item today with started | waiting
    · exact .inl ⟨.inProgress, by decide, started⟩
    · exact .inl ⟨.notStarted, by decide, waiting⟩

/-- The one rule that looks at the day holds from its day on. -/
theorem computeStarted_stays {item : DelayInput} {earlier later : Date} (ordered : earlier ≤ later)
    (started : computeStarted item earlier = .plain .inProgress) : computeStarted item later = .plain .inProgress := by
  unfold computeStarted at started ⊢
  by_cases begun : item.actualStart.isSome = true
  · simp [begun]
  · simp only [begun, Bool.false_eq_true, if_false] at started ⊢
    split at started
    · simp
    · simp [DelayInfo.plain] at started
    · split at started
      · next due =>
        have stillDue : item.estStart.any (· ≤ later) = true := by
          simp only [Option.any_eq_true, decide_eq_true_eq] at due ⊢
          obtain ⟨start, planned, reached⟩ := due
          exact ⟨start, planned, le_trans reached ordered⟩
        simp [stillDue]
      · simp [DelayInfo.plain] at started

def stage : DelayStatus → Nat
  | .notStarted => 0
  | .inProgress => 1
  | .delayed => 2
  | .completed => 3
  | .onHold => 3

/-- No day takes an item back to an earlier stage. -/
theorem stage_monotone (item : DelayInput) {earlier later : Date} (ordered : earlier ≤ later) :
    stage (computeDelayInfo item earlier).delayStatus ≤ stage (computeDelayInfo item later).delayStatus := by
  rcases computeDelayInfo_cases item earlier with ⟨settled, before⟩ | ⟨unsettled, finish, planned, past, before⟩ |
    ⟨unsettled, punctual, before⟩
  · rcases computeDelayInfo_cases item later with ⟨-, after⟩ | ⟨unsettled, -⟩ | ⟨unsettled, -⟩
    · rw [before, after]
    · exact absurd settled unsettled
    · exact absurd settled unsettled
  · rcases computeDelayInfo_cases item later with ⟨settled, -⟩ | ⟨-, other, same, -, after⟩ | ⟨-, punctual, -⟩
    · exact absurd settled unsettled
    · simp [before, after]
    · exact absurd ⟨finish, planned, lt_of_lt_of_le past ordered⟩ punctual
  · rcases computeDelayInfo_cases item later with ⟨settled, -⟩ | ⟨-, finish, planned, past, after⟩ | ⟨-, -, after⟩
    · exact absurd settled unsettled
    · rcases computeStarted_cases item earlier with started | waiting
      · simp [before, started, after, stage, DelayInfo.plain]
      · simp [before, waiting, after, stage, DelayInfo.plain]
    · rcases computeStarted_cases item earlier with started | waiting
      · simp [before, started, after, computeStarted_stays ordered started]
      · simp [before, waiting, stage, DelayInfo.plain]

/-- How a delay develops from day to day. -/
structure Develops (delayOn : Date → DelayInfo) : Prop where
  delayed_stays : ∀ earlier later, earlier ≤ later → (delayOn earlier).delayStatus = .delayed →
    (delayOn later).delayStatus = .delayed ∧ ∃ days, (delayOn earlier).delayDays = some days ∧
      (delayOn later).delayDays = some (days + (later - earlier))
  settled_always : ∀ one other, (delayOn one).delayStatus = .completed ∨ (delayOn one).delayStatus = .onHold →
    (delayOn other).delayStatus = (delayOn one).delayStatus
  days_iff : ∀ today, (delayOn today).delayDays.isSome = true ↔ (delayOn today).delayStatus = .delayed
  days_positive : ∀ today days, (delayOn today).delayDays = some days → 1 ≤ days
  never_back : ∀ earlier later, earlier ≤ later → (delayOn earlier).delayStatus = .inProgress →
    (delayOn later).delayStatus ≠ .notStarted

theorem days_between (finish earlier later : Int) : later - finish = earlier - finish + (later - earlier) := by omega

theorem develops (item : DelayInput) : Develops (computeDelayInfo item) where
  delayed_stays := by
    intro earlier later ordered late
    obtain ⟨held, unfinished, undated, finish, planned, past⟩ := delayed_iff.mp late
    have stillLate : (computeDelayInfo item later).delayStatus = .delayed :=
      delayed_iff.mpr ⟨held, unfinished, undated, finish, planned, lt_of_lt_of_le past ordered⟩
    have grown : later - finish = earlier - finish + (later - earlier) := days_between finish earlier later
    refine ⟨stillLate, earlier - finish, delayDays_of_delayed planned late, ?_⟩
    rw [delayDays_of_delayed planned stillLate, grown]
  settled_always := by
    intro one other status
    rcases computeDelayInfo_cases item one with ⟨settled, before⟩ | ⟨-, finish, -, -, before⟩ | ⟨-, -, before⟩
    · rcases computeDelayInfo_cases item other with ⟨-, after⟩ | ⟨unsettled, -⟩ | ⟨unsettled, -⟩
      · rw [before, after]
      · exact absurd settled unsettled
      · exact absurd settled unsettled
    · simp [before] at status
    · rcases computeStarted_cases item one with started | waiting
      · simp [before, started, DelayInfo.plain] at status
      · simp [before, waiting, DelayInfo.plain] at status
  days_iff := by
    intro today
    rcases computeDelayInfo_days item today with ⟨status, other, found⟩ | ⟨finish, -, found⟩
    · simp [found, other, DelayInfo.plain]
    · simp [found]
  days_positive := by
    intro today days counted
    rcases computeDelayInfo_days item today with ⟨status, -, found⟩ | ⟨finish, past, found⟩
    · simp [found, DelayInfo.plain] at counted
    · simp only [found, Option.some.injEq] at counted
      rw [← counted]
      exact Int.sub_pos_of_lt past
  never_back := by
    intro earlier later ordered started waiting
    have further := stage_monotone item ordered
    simp [started, waiting, stage] at further

/-- The delay of an item, and of a stored row as it is read. -/
theorem delay_over_time :
    (∀ item : DelayInput, Develops (computeDelayInfo item)) ∧
      ∀ row : CallForwardRow, Develops fun today => (withDelay today row).delay := by
  constructor
  · intro item
    exact develops item
  · intro row
    exact develops ⟨some row.status, row.estStart, row.estFinish, row.actualStart, row.actualFinish⟩

end DelayOverTime
