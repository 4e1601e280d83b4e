import PmKonstruct.Dashboard.Calendar
import PmKonstruct.Dashboard.DashboardService
import PmKonstruct.Jobs.JobStore

/- The calendar request and its two queries, one over the jobs and one over the items of the programme. A comparison
   with a missing date is not true, so it keeps nothing. -/
namespace CalendarService
open PlainText DecimalText DomainErrors Accounts CalendarDate Schema KeyedTable RowSecurity Dashboard Calendar
open DashboardService (Clock Clock.today jobScope)
open AuthService (SessionUser)

structure CalendarFilter where
  jobId : Option JobId
  supervisorId : Option UserId
  deriving DecidableEq, Repr

structure CalendarJobRow where
  id : JobId
  name : Option Text
  jobNumber : Option Text
  address : Option Text
  startDate : Option Date
  endDate : Option Date
  status : Text
  supervisorId : Option UserId
  supervisorName : Option Text
  deriving DecidableEq, Repr

structure CalendarItemRow where
  id : CallForwardItemId
  title : Text
  estStart : Option Date
  estFinish : Option Date
  actualStart : Option Date
  actualFinish : Option Date
  status : Text
  supplierTrade : Option Text
  jobId : JobId
  jobName : Option Text
  jobNumber : Option Text
  jobAddress : Option Text
  supervisorId : Option UserId
  supervisorName : Option Text
  deriving DecidableEq, Repr

def statusText : CfStatus → Text
  | .notStarted => text "not_started"
  | .inProgress => text "in_progress"
  | .completed => text "completed"
  | .onHold => text "on_hold"

section Repository
variable (db : Db) (scope : CompanyId) (jobs : JobScope) (window : MonthWindow) (filter : CalendarFilter)

/-- `LEFT JOIN users u ON u.id = j.supervisor_id`. -/
def supervisorName (job : JobRow) : Option Text :=
  (job.supervisorId.bind (db.users.reach (·.companyId = scope))).map (·.name)

/-- `j.start_date <= $2 AND (j.end_date >= $3 OR j.end_date IS NULL)`. -/
def jobMeets (job : JobRow) : Bool :=
  job.startDate.any (· ≤ window.last) && (job.endDate.any (window.first ≤ ·) || job.endDate.isNone)

def supervisedBy (job : JobRow) : Bool := filter.supervisorId.all fun u => job.supervisorId = some u

def calendarJobRow (job : JobRow) : CalendarJobRow :=
  ⟨job.id, some job.name, some job.jobNumber, some job.address, job.startDate, job.endDate,
    JobStore.statusText job.status, job.supervisorId, supervisorName db scope job⟩

def jobsInWindow : List CalendarJobRow :=
  if jobs.isEmpty then []
  else (db.jobs.select fun j => j.companyId = scope && jobMeets window j && jobs.covers j.id &&
      filter.jobId.all (· = j.id) && supervisedBy filter j).map (calendarJobRow db scope)

def effectiveStart (item : CallForwardRow) : Option Date :=
  ((item.actualStart.or item.estStart).or item.actualFinish).or item.estFinish

def effectiveFinish (item : CallForwardRow) : Option Date :=
  ((item.actualFinish.or item.estFinish).or item.actualStart).or item.estStart

def itemMeets (item : CallForwardRow) : Bool :=
  (effectiveStart item).any (· ≤ window.last) && (effectiveFinish item).any (window.first ≤ ·)

def kindType : EventKind → Option ItemType
  | .claim => some .stageClaim
  | .task => some .task
  | .job => none

def calendarItemRow (item : CallForwardRow) (job : JobRow) : CalendarItemRow :=
  ⟨item.id, item.title, item.estStart, item.estFinish, item.actualStart, item.actualFinish, statusText item.status,
    item.supplierTrade, item.jobId, some job.name, some job.jobNumber, some job.address, job.supervisorId,
    supervisorName db scope job⟩

/-- `JOIN jobs j ON j.id = cf.job_id`, with the conditions on the job. -/
def itemRow (item : CallForwardRow) : Option CalendarItemRow :=
  ((db.jobs.reach (·.companyId = scope) item.jobId).filter (supervisedBy filter)).map (calendarItemRow db scope item)

def itemsInWindow (kind : EventKind) : List CalendarItemRow :=
  if jobs.isEmpty then []
  else
    match kindType kind with
    | none => []
    | some itemType =>
      (db.callForward.select fun c => jobInScope db scope c.jobId && c.itemType = itemType && itemMeets window c &&
        jobs.covers c.jobId && filter.jobId.all (· = c.jobId)).filterMap (itemRow db scope filter)

end Repository

structure CalendarQuery where
  month : Option Text
  allDates : Bool
  jobId : Option JobId
  supervisorId : Option UserId
  kind : Option Text
  deriving DecidableEq, Repr

/-- A job without dates takes up the window it was asked about. -/
def jobEvent (window : MonthWindow) (j : CalendarJobRow) : CalendarEvent :=
  { id := text "job-" ++ decimal j.id
    kind := .job
    title := j.name.getD []
    start := j.startDate.getD window.first
    finish := j.endDate.getD window.last
    estStart := some (j.startDate.getD window.first)
    estFinish := j.endDate
    actualStart := none
    actualFinish := none
    jobId := j.id
    jobName := j.name.getD []
    jobNumber := j.jobNumber.getD []
    jobAddress := j.address
    supervisorId := j.supervisorId
    supervisorName := j.supervisorName
    status := j.status
    supplierTrade := none
    url := text "/jobs/" ++ decimal j.id }

def eventId (pre : Text) (id : CallForwardItemId) : Text := pre ++ '-' :: decimal id

/-- An item without a date has nowhere to be drawn. -/
def itemEvent (kind : EventKind) (pre : Text) (r : CalendarItemRow) : Option CalendarEvent :=
  (effectiveRange r.actualStart r.estStart r.actualFinish r.estFinish).map fun (start, finish) =>
    { id := eventId pre r.id
      kind := kind
      title := r.title
      start := start
      finish := finish
      estStart := r.estStart
      estFinish := r.estFinish
      actualStart := r.actualStart
      actualFinish := r.actualFinish
      jobId := r.jobId
      jobName := r.jobName.getD []
      jobNumber := r.jobNumber.getD []
      jobAddress := r.jobAddress
      supervisorId := r.supervisorId
      supervisorName := r.supervisorName
      status := r.status
      supplierTrade := r.supplierTrade
      url := text "/jobs/" ++ decimal r.jobId ++ text "/call-forward?itemId=" ++ decimal r.id }

section Service
variable (db : Db) (clock : Clock) (s : SessionUser)

def windowOf (q : CalendarQuery) : Except DomainError MonthWindow :=
  if q.allDates then .ok .allTime
  else
    match q.month with
    | some month => MonthWindow.parse month
    | none => .ok (.containing clock.today)

/-- The caller has named one job, and it is not among those it may see. -/
def jobDenied (jobs : JobScope) (filter : CalendarFilter) : Bool := filter.jobId.any fun job => !jobs.covers job

def eventsOf (kind : Option EventKind) (window : MonthWindow) (filter : CalendarFilter) : List CalendarEvent :=
  let jobs := jobScope db s
  let scope := s.principal.companyId
  let ofJobs :=
    if EventKind.job.includedBy kind then (jobsInWindow db scope jobs window filter).map (jobEvent window) else []
  ofJobs ++ [(EventKind.claim, text "claim"), (.task, text "task")].flatMap fun (k, pre) =>
    if k.includedBy kind then (itemsInWindow db scope jobs window filter k).filterMap (itemEvent k pre) else []

def calendar (q : CalendarQuery) : Except AppError (List CalendarEvent) :=
  match EventKind.parseFilter q.kind, windowOf clock q with
  | .error e, _ => .error (.domain e)
  | .ok _, .error e => .error (.domain e)
  | .ok kind, .ok window =>
    let filter : CalendarFilter := ⟨q.jobId, q.supervisorId⟩
    if jobDenied (jobScope db s) filter then .error (.domain (.forbidden "that job is not yours to see"))
    else .ok (eventsOf db s kind window filter)

end Service

/-- Whatever a request asks for is a window. -/
theorem windowOf_ordered {clock : Clock} {q : CalendarQuery} {window : MonthWindow} (asked : windowOf clock q = .ok window) :
    window.first ≤ window.last := by
  rw [windowOf] at asked
  split at asked
  · cases asked
    decide
  · split at asked
    · obtain ⟨index, -, -, month⟩ := parse_isMonth asked
      exact IsMonth.ordered month
    · cases asked
      obtain ⟨before, after⟩ := containing_bounds clock.today
      exact Int.le_trans before after

end CalendarService
