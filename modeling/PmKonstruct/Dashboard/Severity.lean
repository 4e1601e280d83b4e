import Mathlib.Logic.Function.Basic
import PmKonstruct.Store.Schema

/- The shapes of the dashboard: its counters, the jobs a query may count, and the four buckets that overdue items
   fall into by how late they are. -/
namespace Dashboard
open PlainText DomainErrors

structure DashboardStats where
  totalJobs : Int
  activeJobs : Int
  completedJobs : Int
  openCallForwards : Int
  overdueCallForwards : Int
  totalUsers : Option Int
  recentDiaryEntries : Int
  deriving DecidableEq, Repr

inductive DelayBucket where
  | underOneWeek
  | oneToTwoWeeks
  | twoToFourWeeks
  | overFourWeeks
  deriving DecidableEq, Repr

def DelayBucket.label : DelayBucket → Text
  | .underOneWeek => text "< 1 week"
  | .oneToTwoWeeks => text "1–2 weeks"
  | .twoToFourWeeks => text "2–4 weeks"
  | .overFourWeeks => text "> 4 weeks"

/-- Every bucket, in chart order. -/
def DelayBucket.all : List DelayBucket := [.underOneWeek, .oneToTwoWeeks, .twoToFourWeeks, .overFourWeeks]

/-- Exactly seven days late still counts as under a week. -/
def DelayBucket.of (daysLate : Int) : DelayBucket :=
  if daysLate ≤ 7 then .underOneWeek
  else if daysLate ≤ 14 then .oneToTwoWeeks
  else if daysLate ≤ 28 then .twoToFourWeeks
  else .overFourWeeks

structure DelaySeverity where
  label : Text
  count : Int
  avgDays : Int
  maxDays : Int
  deriving DecidableEq, Repr

/-- What the loop carries for one bucket. -/
structure Tally where
  count : Int
  sum : Int
  most : Int
  deriving DecidableEq, Repr

/-- A 64-bit number of a release build. -/
def wrapI64 (n : Int) : Int := n.bmod (2 ^ 64)

/-- A slice in memory is far shorter than 2^63, so a count cannot wrap; a sum can. -/
def Tally.add (tally : Tally) (days : Int) : Tally :=
  ⟨tally.count + 1, wrapI64 (tally.sum + days), max tally.most days⟩

def tallies (start : DelayBucket → Tally) : List Int → DelayBucket → Tally
  | [] => start
  | days :: rest =>
    tallies (Function.update start (DelayBucket.of days) ((start (DelayBucket.of days)).add days)) rest

/-- Integer division rounding half away from zero, for numbers that are not negative, were they unbounded. -/
def roundDiv (sum count : Int) : Int := (sum * 2 + count).tdiv (count * 2)

/-- `round_div`, which doubles and adds before it divides. -/
def roundDivI64 (sum count : Int) : Int := wrapI64 ((wrapI64 (wrapI64 (sum * 2) + count)).tdiv (wrapI64 (count * 2)))

def delaySeverity (daysLate : List Int) : List DelaySeverity :=
  let final := tallies (fun _ => ⟨0, 0, 0⟩) daysLate
  DelayBucket.all.map fun bucket =>
    let tally := final bucket
    ⟨bucket.label, tally.count, if tally.count > 0 then roundDivI64 tally.sum tally.count else 0, tally.most⟩

inductive JobScope where
  | all
  | only (ids : List JobId)
  deriving DecidableEq, Repr

def JobScope.isEmpty : JobScope → Bool
  | .all => false
  | .only ids => ids.isEmpty

def JobScope.ids : JobScope → Option (List JobId)
  | .all => none
  | .only ids => some ids

/-- `$1 IS NULL OR job_id = ANY($1)`. -/
def JobScope.covers (jobs : JobScope) (job : JobId) : Bool := jobs.ids.all fun ids => decide (job ∈ ids)

theorem covers_of_isEmpty {jobs : JobScope} {job : JobId} (empty : jobs.isEmpty = true) : jobs.covers job = false := by
  cases jobs with
  | all => cases empty
  | only ids =>
    have none : ids = [] := List.isEmpty_iff.mp empty
    simp [JobScope.covers, JobScope.ids, none]

def counted (tallies : DelayBucket → Tally) : Int := (DelayBucket.all.map fun bucket => (tallies bucket).count).sum

theorem counted_update {start : DelayBucket → Tally} {bucket : DelayBucket} {days : Int} :
    counted (Function.update start bucket ((start bucket).add days)) = counted start + 1 := by
  simp only [counted, DelayBucket.all, List.map_cons, List.map_nil, List.sum_cons, List.sum_nil, Function.update_apply]
  cases bucket <;> simp [Tally.add] <;> omega

theorem counted_tallies {start : DelayBucket → Tally} {daysLate : List Int} :
    counted (tallies start daysLate) = counted start + daysLate.length := by
  induction daysLate generalizing start with
  | nil => simp [tallies]
  | cons days rest ih =>
    rw [tallies, ih, counted_update, List.length_cons]
    omega

/-- Every item falls into one bucket. -/
theorem severity_counts_sum (daysLate : List Int) :
    ((delaySeverity daysLate).map (·.count)).sum = daysLate.length := by
  have summed := @counted_tallies (fun _ => ⟨0, 0, 0⟩) daysLate
  have fresh : counted (fun _ => ⟨0, 0, 0⟩) = 0 := rfl
  rw [fresh, Int.zero_add] at summed
  rw [← summed]
  simp only [delaySeverity, counted, List.map_map]
  rfl

end Dashboard
