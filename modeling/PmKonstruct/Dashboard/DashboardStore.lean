import Mathlib.Data.List.Sort
import PmKonstruct.Dashboard.Severity
import PmKonstruct.Store.RowSecurity

/- The dashboard queries over jobs and the programme. A heading row is no work, so no count and no list has one.
   The counters ask the database for the date, and the lists are handed the company's. -/
namespace DashboardStore
open PlainText DomainErrors CalendarDate Schema KeyedTable RowSecurity Dashboard

structure DashboardCallForward where
  id : CallForwardItemId
  jobId : JobId
  jobNumber : Text
  jobAddress : Text
  title : Text
  itemType : ItemType
  estStart : Option Date
  estFinish : Option Date
  status : CfStatus
  deriving DecidableEq, Repr

section Repository
variable (db : Db) (scope : CompanyId) (jobs : JobScope)

def jobCount (p : JobRow → Bool) : Int :=
  (db.jobs.select fun j => j.companyId = scope && jobs.covers j.id && p j).length

/-- Rows of `call_forward` that the policy and the job list leave. -/
def programme : List CallForwardRow :=
  db.callForward.select fun c => jobInScope db scope c.jobId && jobs.covers c.jobId

def isOpen (item : CallForwardRow) : Bool :=
  (item.status = .notStarted || item.status = .inProgress) && item.itemType ≠ .header

/-- The condition on an overdue item, without its date. -/
def unfinished (item : CallForwardRow) : Bool :=
  item.itemType ≠ .header && item.actualFinish.isNone && item.status ≠ .completed && item.status ≠ .onHold

/-- `est_finish < $2`, which an absent estimate does not satisfy. -/
def dueBefore (today : Date) (item : CallForwardRow) : Bool := item.estFinish.any (· < today)

def stats (currentDate diarySince : Date) (includeUserCount : Bool) : DashboardStats :=
  if jobs.isEmpty then ⟨0, 0, 0, 0, 0, if includeUserCount then some 0 else none, 0⟩
  else
    { totalJobs := jobCount db scope jobs fun _ => true
      activeJobs := jobCount db scope jobs (·.status = .active)
      completedJobs := jobCount db scope jobs (·.status = .completed)
      openCallForwards := (programme db scope jobs).countP isOpen
      overdueCallForwards := (programme db scope jobs).countP fun i =>
        i.status ≠ .completed && i.status ≠ .onHold && i.itemType ≠ .header && i.estFinish.isSome &&
          dueBefore currentDate i && i.actualFinish.isNone
      totalUsers := if includeUserCount then some (db.users.select (·.companyId = scope)).length else none
      recentDiaryEntries := (db.siteDiary.select fun e =>
        jobInScope db scope e.jobId && diarySince ≤ e.date && jobs.covers e.jobId).length }

/-- `JOIN jobs j ON j.id = cf.job_id`. -/
def joined (item : CallForwardRow) : Option DashboardCallForward :=
  (db.jobs.reach (·.companyId = scope) item.jobId).map fun job =>
    ⟨item.id, item.jobId, job.jobNumber, job.address, item.title, item.itemType, item.estStart, item.estFinish,
      item.status⟩

def overdueRows (today : Date) : List CallForwardRow :=
  (programme db scope jobs).filter fun i => unfinished i && dueBefore today i

/-- `ORDER BY cf.est_finish`; the list has no row without one. -/
def overdueCallForwards (today : Date) : List DashboardCallForward :=
  if jobs.isEmpty then []
  else ((overdueRows db scope jobs today).insertionSort fun a b => a.estFinish.getD 0 ≤ b.estFinish.getD 0).filterMap
    (joined db scope)

def overdueDays (today : Date) : List Int :=
  if jobs.isEmpty then [] else (overdueRows db scope jobs today).filterMap fun i => i.estFinish.map (today - ·)

end Repository

variable {db : Db} {scope : CompanyId} {jobs : JobScope} {today : Date} {item : CallForwardRow}

theorem mem_programme : item ∈ programme db scope jobs ↔
    item ∈ db.callForward.rows ∧ jobInScope db scope item.jobId = true ∧ jobs.covers item.jobId = true := by
  simp only [programme, Table.mem_select, Bool.and_eq_true]

theorem programme_of_isEmpty (empty : jobs.isEmpty = true) : programme db scope jobs = [] := by
  refine List.eq_nil_iff_forall_not_mem.mpr ?_
  intro item member
  have covered := (mem_programme.mp member).2.2
  rw [covers_of_isEmpty empty] at covered
  cases covered

/-- A row the policy leaves has its job in the same company, so the join drops nothing. -/
theorem joined_isSome (member : item ∈ programme db scope jobs) : (joined db scope item).isSome = true := by
  obtain ⟨job, found, owned⟩ := jobInScope_iff.mp (mem_programme.mp member).2.1
  have reached : db.jobs.reach (·.companyId = scope) item.jobId = some job :=
    Table.reach_eq_some_iff.mpr ⟨found, by simpa using owned⟩
  simp [joined, reached]

theorem length_filterMap_of_isSome {α β : Type} {f : α → Option β} {items : List α}
    (total : ∀ item ∈ items, (f item).isSome = true) : (items.filterMap f).length = items.length := by
  induction items with
  | nil => rfl
  | cons item rest ih =>
    obtain ⟨value, found⟩ := Option.isSome_iff_exists.mp (total item List.mem_cons_self)
    rw [List.filterMap_cons_some found, List.length_cons, List.length_cons,
      ih fun other member => total other (List.mem_cons_of_mem _ member)]

def overdueCount (db : Db) (scope : CompanyId) (jobs : JobScope) (today : Date) : Nat :=
  (programme db scope jobs).countP fun i => unfinished i && dueBefore today i

theorem overdueCallForwards_length :
    (overdueCallForwards db scope jobs today).length = overdueCount db scope jobs today := by
  unfold overdueCallForwards overdueCount
  split
  · next empty => simp [programme_of_isEmpty empty]
  · rw [length_filterMap_of_isSome, List.length_insertionSort, overdueRows, List.countP_eq_length_filter]
    intro item member
    have listed := (List.mem_insertionSort _).mp member
    exact joined_isSome (List.mem_filter.mp listed).1

theorem overdueDays_length : (overdueDays db scope jobs today).length = overdueCount db scope jobs today := by
  unfold overdueDays overdueCount
  split
  · next empty => simp [programme_of_isEmpty empty]
  · rw [length_filterMap_of_isSome, overdueRows, List.countP_eq_length_filter]
    intro item member
    have due := (Bool.and_eq_true _ _ ▸ (List.mem_filter.mp member).2).2
    obtain ⟨finish, there, -⟩ := Option.any_eq_true _ _ |>.mp due
    simp [there]

/-- The counter of the statistics is the same count on the date of the database. -/
theorem stats_overdue {currentDate diarySince : Date} {includeUserCount : Bool} :
    (stats db scope jobs currentDate diarySince includeUserCount).overdueCallForwards =
      overdueCount db scope jobs currentDate := by
  unfold stats overdueCount
  split
  · next empty => simp [programme_of_isEmpty empty]
  · simp only [Int.natCast_inj]
    refine List.countP_congr fun item _ => ?_
    simp only [unfinished, dueBefore]
    cases item.estFinish with
    | none => simp
    | some finish =>
      simp only [Option.isSome_some, Option.any_some, Bool.and_eq_true]
      tauto

end DashboardStore
