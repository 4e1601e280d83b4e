import Mathlib.Data.List.Sort
import PmKonstruct.CallForward.ProgrammeStore
import PmKonstruct.Media.DeletionQueue
import PmKonstruct.Store.RowSecurity
import PmKonstruct.Store.Requests

/- Jobs and their assignments: the input checks of the domain and the repository, one transaction a function. -/
namespace JobStore
open PlainText DomainErrors Accounts AuthStore CalendarDate Schema KeyedTable RowSecurity Requests DeletionQueue

structure JobInput where
  name : Text
  jobNumber : Text
  client : Text
  clientNumber : Option Text
  clientEmail : Option Text
  address : Text
  status : Option JobStatus
  startDate : Option Date
  endDate : Option Date
  managerId : Option UserId
  supervisorId : Option UserId
  dropboxPath : Option Text
  description : Option Text
  contact2Name : Option Text
  contact2Phone : Option Text
  contact2Email : Option Text
  deriving DecidableEq, Repr

structure JobAssignment where
  userId : UserId
  name : Text
  role : Role
  isPrimary : Bool
  assignedAt : Instant
  deriving DecidableEq, Repr

def JobInput.normalised (input : JobInput) : JobInput :=
  { input with
    name := trim input.name
    jobNumber := trim input.jobNumber
    client := trim input.client
    address := trim input.address }

def required : List (String × Text) → Except DomainError Unit
  | [] => .ok ()
  | (field, value) :: rest => if trim value = [] then .error (.invalid field "is required") else required rest

/-- A blank address counts as none given. -/
def emailsWellFormed : List (String × Option Text) → Except DomainError Unit
  | [] => .ok ()
  | (field, value) :: rest =>
    if value.any fun e => trim e ≠ [] && !looksLikeEmail e then .error (.invalid field "must be an email address")
    else emailsWellFormed rest

/-- `jobs_date_order_check`. -/
def datesOrdered (start finish : Option Date) : Bool := start.all fun s => finish.all fun f => s ≤ f

def JobInput.validate (input : JobInput) : Except DomainError Unit :=
  match required [("jobNumber", input.jobNumber), ("client", input.client), ("address", input.address)] with
  | .error e => .error e
  | .ok _ =>
    if byteLength input.name > 200 then .error (.invalid "name" "must be 200 characters or fewer")
    else if byteLength input.jobNumber > 60 then .error (.invalid "jobNumber" "must be 60 characters or fewer")
    else
      match emailsWellFormed [("clientEmail", input.clientEmail), ("contact2Email", input.contact2Email)] with
      | .error e => .error e
      | .ok _ =>
        if datesOrdered input.startDate input.endDate = false then
          .error (.invalid "endDate" "must be on or after the start date")
        else .ok ()

structure JobFilter where
  status : Option Text
  supervisorId : Option UserId
  search : Option Text
  deriving DecidableEq, Repr

def statusText : JobStatus → Text
  | .active => text "active"
  | .completed => text "completed"
  | .archived => text "archived"
  | .onHold => text "on_hold"

/-- The supervisor a job mirrors: its primary assignment, else its earliest. -/
def primarySupervisor (assignmentsByAssignedAt : List (UserId × Bool)) : Option UserId :=
  ((assignmentsByAssignedAt.find? (·.2)).or assignmentsByAssignedAt.head?).map (·.1)

section Repository
variable (db : Db) (scope : CompanyId)

def userMissing (user : Option UserId) : Bool := user.any fun u => (db.users.find u).isNone

/-- The constraints a written job runs into, in the order in which they are checked. Foreign keys see the users
    of every company. -/
def jobConstraint (self : Option JobId) (input : JobInput) : Option PortError :=
  firstViolation [
    (!datesOrdered input.startDate input.endDate, .checkViolation (some "jobs_date_order_check")),
    (db.jobs.rows.any fun j => j.companyId = scope && j.jobNumber = input.jobNumber && some j.id ≠ self,
      .conflict (some "jobs_company_job_number_unique")),
    (userMissing db input.managerId, .conflict (some "jobs_manager_id_users_id_fk")),
    (userMissing db input.supervisorId, .conflict (some "jobs_supervisor_id_users_id_fk"))]

def newJob (now : Instant) (input : JobInput) (id : JobId) : JobRow :=
  ⟨id, scope, input.name, input.jobNumber, input.client, input.clientNumber, input.clientEmail, input.address,
    input.status.getD .active, input.startDate, input.endDate, input.managerId, input.supervisorId, input.dropboxPath,
    input.description, input.contact2Name, input.contact2Phone, input.contact2Email, now, now⟩

def changedJob (now : Instant) (input : JobInput) (job : JobRow) : JobRow :=
  { job with
    name := input.name
    jobNumber := input.jobNumber
    client := input.client
    clientNumber := input.clientNumber
    clientEmail := input.clientEmail
    address := input.address
    status := input.status.getD job.status
    startDate := input.startDate
    endDate := input.endDate
    managerId := input.managerId
    supervisorId := input.supervisorId
    dropboxPath := input.dropboxPath
    description := input.description
    contact2Name := input.contact2Name
    contact2Phone := input.contact2Phone
    contact2Email := input.contact2Email
    updatedAt := now }

def create (now : Instant) (input : JobInput) : Except PortError (JobRow × Db) :=
  insertRow db.jobs (fun jobs => { db with jobs := jobs }) (fun j => j) (newJob scope now input) (fun _ => rfl)
    (jobConstraint db scope none input)

def update (now : Instant) (id : JobId) (input : JobInput) : Except PortError (Option JobRow × Db) :=
  checkedChange db.jobs (fun jobs => { db with jobs := jobs }) (fun j => j) (·.companyId = scope) id
    (changedJob now input) (fun _ => rfl) (jobConstraint db scope (some id) input)

/-- What the filter asks of a job. Archived jobs are hidden unless asked for by name, and a blank search asks nothing;
    `ilike` is the matching of the database, under its collation. -/
def matchesFilter (ilike : Text → Text → Bool) (filter : JobFilter) (job : JobRow) : Bool :=
  let search := filter.search.filter fun s => trim s ≠ []
  filter.status.all (statusText job.status = ·) && (filter.status.isSome || job.status ≠ .archived) &&
    filter.supervisorId.all (job.supervisorId = some ·) &&
    search.all fun s =>
      let pattern := '%' :: (s ++ ['%'])
      ilike job.name pattern || ilike job.jobNumber pattern || ilike job.client pattern

/-- Visibility is part of the query. The newest job comes first. -/
def listVisible (ilike : Text → Text → Bool) (viewer : UserId) (viewerSeesAll : Bool) (filter : JobFilter) : List JobRow :=
  (db.jobs.select fun j => j.companyId = scope && (viewerSeesAll || supervises db viewer j) &&
    matchesFilter ilike filter j).insertionSort fun a b => b.createdAt ≤ a.createdAt

/-- Of two assignments made in the same transaction clock the table order decides. -/
def assignmentsOf (job : JobId) : List JobAssignmentRow :=
  (db.jobAssignments.select fun a => a.jobId = job && jobInScope db scope a.jobId).insertionSort
    fun a b => a.assignedAt ≤ b.assignedAt

def assignmentOfRow (row : JobAssignmentRow) : JobAssignment :=
  let user := db.users.reach (·.companyId = scope) row.userId
  ⟨row.userId, (user.map (·.name)).getD [], (user.bind fun u => Role.parse u.role).getD .office, row.isPrimary,
    row.assignedAt⟩

/-- Reloads the assignments of a job and rewrites its supervisor to match. -/
def syncPrimarySupervisor (now : Instant) (job : JobId) : List JobAssignment × Db :=
  let rows := assignmentsOf db scope job
  let primary := primarySupervisor (rows.map fun a => (a.userId, a.isPrimary))
  (rows.map (assignmentOfRow db scope), { db with
    jobs := db.jobs.update (fun j => j.id = job && j.companyId = scope)
      (fun j => { j with
        supervisorId := primary
        updatedAt := now })
      (fun _ => rfl) })

def clearPrimary (job : JobId) : Db :=
  { db with
    jobAssignments := db.jobAssignments.update (fun a => a.jobId = job && jobInScope db scope a.jobId)
      (fun a => { a with isPrimary := false }) (fun _ => rfl) }

/-- Clearing the old primary first is what keeps the partial unique index satisfied. -/
def addAssignment (now : Instant) (job : JobId) (user : UserId) (primary : Bool) :
    Except PortError (List JobAssignment × Db) :=
  let makePrimary := primary || (assignmentsOf db scope job).isEmpty
  let cleared := if makePrimary then clearPrimary db scope job else db
  let violation := firstViolation [
    (cleared.jobAssignments.rows.any fun a => a.jobId = job && a.userId = user,
      .conflict (some "uq_job_assignments_job_user")),
    (userMissing db (some user), .conflict (some "job_assignments_user_id_users_id_fk"))]
  match violation with
  | some e => .error e
  | none =>
    let assigned := { cleared with
      jobAssignments := cleared.jobAssignments.insert (fun id => ⟨id, job, user, makePrimary, now⟩) (fun _ => rfl) }
    .ok (syncPrimarySupervisor assigned scope now job)

def assignmentIs (job : JobId) (user : UserId) (a : JobAssignmentRow) : Bool :=
  a.jobId = job && a.userId = user && jobInScope db scope a.jobId

def removeAssignment (now : Instant) (job : JobId) (user : UserId) : List JobAssignment × Db :=
  let removed := { db with jobAssignments := db.jobAssignments.delete (assignmentIs db scope job user) }
  syncPrimarySupervisor removed scope now job

/-- Nobody is made primary by a request about someone who is not assigned. -/
def setPrimaryAssignment (now : Instant) (job : JobId) (user : UserId) : Except PortError (List JobAssignment × Db) :=
  let cleared := clearPrimary db scope job
  if cleared.jobAssignments.rows.any (assignmentIs cleared scope job user) then
    let promoted := { cleared with
      jobAssignments := cleared.jobAssignments.update (assignmentIs cleared scope job user)
        (fun a => { a with isPrimary := true }) (fun _ => rfl) }
    .ok (syncPrimarySupervisor promoted scope now job)
  else .error .notFound

/-- Everything that hangs off a deleted job. -/
def cascadeJobs (gone : JobRow → Bool) (db : Db) : Db :=
  let jobGone (job : JobId) : Bool := (db.jobs.find job).any gone
  let cleared := cascadeForms (fun f => jobGone f.jobId) (cascadeEntries (fun e => jobGone e.jobId) db)
  { cleared with
    jobs := db.jobs.delete gone
    jobAssignments := db.jobAssignments.delete fun a => jobGone a.jobId
    jobTasks := db.jobTasks.delete fun t => jobGone t.jobId
    jobLinks := db.jobLinks.delete fun l => jobGone l.jobId
    jobMedia := db.jobMedia.delete fun m => jobGone m.jobId
    etoJobSequences := db.etoJobSequences.filter fun e => !jobGone e.jobId
    callForward := ProgrammeStore.cascadeDelete db.callForward fun i => jobGone i.jobId
    schedulerAllocations := db.schedulerAllocations.delete fun a => a.jobId.any jobGone }

/-- The objects are queued before the delete: the cascade takes the only record of their names. -/
def purge (id : JobId) : Bool × Db :=
  let queued := enqueueJobMedia db scope id
  match db.jobs.reach (·.companyId = scope) id with
  | none => (false, queued)
  | some _ => (true, cascadeJobs (fun j => j.id = id) queued)

end Repository

end JobStore
