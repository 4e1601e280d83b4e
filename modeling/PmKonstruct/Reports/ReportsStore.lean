import Mathlib.Data.List.Sort
import PmKonstruct.CallForward.Item
import PmKonstruct.Dashboard.Severity
import PmKonstruct.Store.RowSecurity

/- The classifications the reports print, and the queries over the programme. Each query has a condition of its own
   for work that is late. -/
namespace ReportsStore
open PlainText DomainErrors CalendarDate Schema KeyedTable RowSecurity Dashboard

inductive Severity where
  | low
  | medium
  | high
  | critical
  deriving DecidableEq, Repr

/-- Exactly fourteen days late is high and not critical. -/
def Severity.of (delayDays : Int) : Severity :=
  if delayDays > 14 then .critical
  else if delayDays > 7 then .high
  else if delayDays > 3 then .medium
  else .low

inductive JobHealth where
  | onTrack
  | atRisk
  | delayed
  deriving DecidableEq, Repr

def jobHealth (delayedCount : Int) : JobHealth := if delayedCount > 0 then .delayed else .onTrack

def completionPct (completed total : Int) : Int :=
  if total ≤ 0 then 0 else (completed * 200 + total).tdiv (total * 2)

structure ReportRange where
  start : Option Date
  finish : Option Date
  deriving DecidableEq, Repr

def ReportRange.validate (range : ReportRange) : Except DomainError Unit :=
  if range.start.any fun f => range.finish.any fun t => f > t then
    .error (.invalid "dateTo" "must be on or after the from date")
  else .ok ()

structure ReportFilter where
  jobId : Option JobId
  supervisorId : Option UserId
  range : ReportRange
  deriving DecidableEq, Repr

structure JobProgressRow where
  jobId : JobId
  jobNumber : Text
  jobName : Text
  client : Text
  address : Text
  status : JobStatus
  startDate : Option Date
  endDate : Option Date
  supervisorId : Option UserId
  supervisorName : Option Text
  totalTasks : Int
  notStarted : Int
  inProgress : Int
  completed : Int
  onHold : Int
  delayedCount : Int
  deriving DecidableEq, Repr

structure DelayRow where
  taskId : CallForwardItemId
  title : Text
  itemType : ItemType
  supplierTrade : Option Text
  jobId : JobId
  jobNumber : Text
  jobName : Text
  jobAddress : Text
  supervisorId : Option UserId
  supervisorName : Option Text
  estFinish : Option Date
  actualFinish : Option Date
  delayDays : Int
  status : CfStatus
  deriving DecidableEq, Repr

structure DailyTaskRow where
  id : CallForwardItemId
  title : Text
  itemType : ItemType
  supplierTrade : Option Text
  estStart : Option Date
  estFinish : Option Date
  actualStart : Option Date
  actualFinish : Option Date
  status : CfStatus
  sortOrder : Int
  deriving DecidableEq, Repr

structure DailyProgressData where
  jobId : JobId
  jobNumber : Text
  jobName : Text
  client : Text
  supervisorId : Option UserId
  supervisorName : Option Text
  tasks : List DailyTaskRow
  deriving DecidableEq, Repr

section Repository
variable (db : Db) (scope : CompanyId)

def supervisorName (job : JobRow) : Option Text :=
  (job.supervisorId.bind fun u => db.users.reach (·.companyId = scope) u).map (·.name)

/-- The person a report is filtered by supervises the job or is assigned to it. -/
def supervisorJobs (supervisor : Option UserId) (job : JobRow) : Bool := supervisor.all fun u => supervises db u job

def workOf (job : JobId) : List CallForwardRow :=
  db.callForward.select fun i => i.jobId = job && jobInScope db scope i.jobId && i.itemType ≠ .header

def delayedInProgress (today : Date) (item : CallForwardRow) : Bool :=
  item.status ≠ .completed && item.status ≠ .onHold && item.estFinish.isSome && item.estFinish.any (· < today)

/-- The items that `delayed_count` counts. -/
def delayedItems (today : Date) (job : JobId) : List CallForwardRow :=
  (workOf db scope job).filter (delayedInProgress today)

def progressRow (today : Date) (job : JobRow) : JobProgressRow :=
  let work := workOf db scope job.id
  let count (status : CfStatus) : Int := work.countP (·.status = status)
  ⟨job.id, job.jobNumber, job.name, job.client, job.address, job.status, job.startDate, job.endDate, job.supervisorId,
    supervisorName db scope job, work.length, count .notStarted, count .inProgress, count .completed, count .onHold,
    (delayedItems db scope today job.id).length⟩

/-- A job that is named, or runs, or was planned within the range. -/
def reported (jobs : JobScope) (filter : ReportFilter) (job : JobRow) : Bool :=
  job.companyId = scope && jobs.covers job.id && filter.jobId.all (job.id = ·) &&
    supervisorJobs db filter.supervisorId job &&
    (filter.jobId.isSome || job.status = .active ||
      (filter.range.start.all fun f => job.endDate.all (f ≤ ·)) &&
        (filter.range.finish.all fun t => job.startDate.any (· ≤ t)) && job.startDate.isSome)

/-- `ORDER BY j.job_number`, in the order of the database's collation. -/
def jobProgress (collation : Text → Text → Bool) (jobs : JobScope) (filter : ReportFilter) (today : Date) :
    List JobProgressRow :=
  if jobs.isEmpty then []
  else ((db.jobs.select (reported db scope jobs filter)).insertionSort fun a b =>
    collation a.jobNumber b.jobNumber = true).map (progressRow db scope today)

def delayRow (today : Date) (item : CallForwardRow) : Option DelayRow :=
  (db.jobs.reach (·.companyId = scope) item.jobId).bind fun job =>
    item.estFinish.map fun finish =>
      ⟨item.id, item.title, item.itemType, item.supplierTrade, item.jobId, job.jobNumber, job.name, job.address,
        job.supervisorId, supervisorName db scope job, item.estFinish, item.actualFinish, today - finish, item.status⟩

/-- An item that was finished late is no active delay, whatever its status says. -/
def delayedNow (today : Date) (item : CallForwardRow) : Bool :=
  item.itemType ≠ .header && item.estFinish.isSome && item.estFinish.any (· < today) && item.actualFinish.isNone &&
    item.status ≠ .completed && item.status ≠ .onHold

def delayListed (jobs : JobScope) (filter : ReportFilter) (today : Date) (item : CallForwardRow) : Bool :=
  jobInScope db scope item.jobId && delayedNow today item && jobs.covers item.jobId &&
    filter.jobId.all (item.jobId = ·) &&
    ((db.jobs.reach (·.companyId = scope) item.jobId).any (supervisorJobs db filter.supervisorId)) &&
    (filter.range.start.all fun f => item.estFinish.any (f ≤ ·)) &&
    (filter.range.finish.all fun t => item.estFinish.any (· ≤ t))

def delays (jobs : JobScope) (filter : ReportFilter) (today : Date) : List DelayRow :=
  if jobs.isEmpty then []
  else ((db.callForward.select (delayListed db scope jobs filter today)).filterMap (delayRow db scope today)).insertionSort
    fun a b => b.delayDays < a.delayDays ∨ a.delayDays = b.delayDays ∧ a.taskId ≤ b.taskId

def dailyTask (item : CallForwardRow) : DailyTaskRow :=
  ⟨item.id, item.title, item.itemType, item.supplierTrade, item.estStart, item.estFinish, item.actualStart,
    item.actualFinish, item.status, item.sortOrder⟩

def dailyProgress (job : JobId) : Option DailyProgressData :=
  (db.jobs.reach (·.companyId = scope) job).map fun row =>
    let items := db.callForward.select fun i => i.jobId = job && jobInScope db scope i.jobId
    let tasks := items.insertionSort fun a b => a.sortOrder < b.sortOrder ∨ a.sortOrder = b.sortOrder ∧ a.id ≤ b.id
    ⟨row.id, row.jobNumber, row.name, row.client, row.supervisorId, supervisorName db scope row, tasks.map dailyTask⟩

end Repository

end ReportsStore
