import PmKonstruct.Jobs.JobStore
import PmKonstruct.Library.ReadCommitted

/- The calls that change the assignments of a job, as transactions under READ COMMITTED. Each ends by reloading the
   assignments in one statement and rewriting the supervisor of the job in the next. -/
namespace AssignmentPrograms
open PlainText DomainErrors Accounts AuthStore Schema KeyedTable RowSecurity Requests ReadCommitted
open StatementProgram (Program)
open JobStore (JobAssignment assignmentsOf assignmentOfRow primarySupervisor userMissing)

inductive Query where
  | countAssignments
  | lockJob
  | clearPrimary
  | insertAssignment (user : UserId) (primary : Bool) (now : Instant)
  | deleteAssignment (user : UserId)
  | makePrimary (user : UserId)
  | selectAssignments
  | setSupervisor (user : Option UserId) (now : Instant)

/-- Making an assignment primary answers how many rows it affected. -/
abbrev Reply : Query → Type
  | .countAssignments => Nat
  | .lockJob => Unit
  | .clearPrimary => Unit
  | .insertAssignment _ _ _ => Unit
  | .deleteAssignment _ => Unit
  | .makePrimary _ => Nat
  | .selectAssignments => List JobAssignment
  | .setSupervisor _ _ => Unit

structure Statement where
  scope : CompanyId
  job : JobId
  query : Query

abbrev Answer (statement : Statement) : Type := Except PortError (Reply statement.query)

/-- `FOR KEY SHARE` of a foreign key, `FOR NO KEY UPDATE` of an update, and `FOR UPDATE`. -/
inductive Strength where
  | keyShare
  | noKeyUpdate
  | update
  deriving DecidableEq

def Strength.excludes : Strength → Strength → Bool
  | .keyShare, other => other = .update
  | .noKeyUpdate, other => other ≠ .keyShare
  | .update, _ => true

/-- A row, or a place in one of the two unique indexes. -/
inductive Lock where
  | job (id : JobId) (strength : Strength)
  | assignment (id : Int)
  | pair (job : JobId) (user : UserId)
  | primaryOf (job : JobId)
  deriving DecidableEq

def conflicts : Lock → Lock → Bool
  | .job id strength, .job other held => id = other && strength.excludes held
  | a, b => a = b

abbrev Outcome (α : Type) : Type := Effect (Except PortError α) Db Lock

section Statements
variable (snapshot current : Db) (scope : CompanyId) (job : JobId)

/-- The policy of `job_assignments`: a row is reached through its job. -/
def listed (p : JobAssignmentRow → Bool) : List JobAssignmentRow :=
  if jobInScope snapshot scope job then snapshot.jobAssignments.select fun a => a.jobId = job && p a else []

/-- The rows a statement saw, as they are once it has their locks. -/
def present (p : JobAssignmentRow → Bool) : List JobAssignmentRow :=
  (listed snapshot scope job p).filterMap fun a => current.jobAssignments.find a.id

def mark (ids : List Int) (primary : Bool) (db : Db) : Db :=
  { db with
    jobAssignments := db.jobAssignments.update (fun a => a.jobId = job && a.id ∈ ids)
      (fun a => { a with isPrimary := primary }) (fun _ => rfl) }

def unassign (ids : List Int) (db : Db) : Db :=
  { db with jobAssignments := db.jobAssignments.delete fun a => a.jobId = job && a.id ∈ ids }

def assign (row : JobAssignmentRow) (db : Db) : Db := { db with jobAssignments := db.jobAssignments.put row }

def supervise (user : Option UserId) (now : Instant) (db : Db) : Db :=
  { db with
    jobs := db.jobs.update (fun j => j.id = job)
      (fun j => { j with
        supervisorId := user
        updatedAt := now })
      (fun _ => rfl) }

/-- A row that leaves the partial index keeps its place there until the transaction ends. -/
def leaving (rows : List JobAssignmentRow) : List Lock :=
  rows.flatMap fun a => .assignment a.id :: if a.isPrimary then [.primaryOf a.jobId] else []

def clearPrimary : Outcome Unit :=
  let rows := present snapshot current scope job fun _ => true
  { answer := .ok ()
    change := mark job (rows.map (·.id)) false
    awaits := (listed snapshot scope job fun _ => true).map fun a => .assignment a.id
    takes := leaving rows
    drawn := 0 }

def deleteAssignment (user : UserId) : Outcome Unit :=
  let rows := present snapshot current scope job (·.userId = user)
  { answer := .ok ()
    change := unassign job (rows.map (·.id))
    awaits := (listed snapshot scope job (·.userId = user)).map fun a => .assignment a.id
    takes := leaving rows ++ rows.map fun a => .pair a.jobId a.userId
    drawn := 0 }

def primaryTaken (ids : List Int) : Bool :=
  current.jobAssignments.rows.any fun a => a.jobId = job && a.isPrimary && a.id ∉ ids

def makePrimary (user : UserId) : Outcome Nat :=
  let rows := present snapshot current scope job (·.userId = user)
  let ids := rows.map (·.id)
  let seen := (listed snapshot scope job (·.userId = user)).map fun a => Lock.assignment a.id
  if ids ≠ [] && primaryTaken current job ids then
    ⟨.error (.conflict (some "uq_job_assignments_single_primary")), fun db => db, .primaryOf job :: seen, [], 0⟩
  else
    { answer := .ok ids.length
      change := mark job ids true
      awaits := seen
      takes := ids.flatMap fun id => [.assignment id, .primaryOf job]
      drawn := 0 }

def insertAssignment (serial : Int) (user : UserId) (primary : Bool) (now : Instant) : Outcome Unit :=
  let places := .pair job user :: if primary then [.primaryOf job] else []
  let violation := firstViolation [
    (!jobInScope snapshot scope job, rowDenied "job_assignments"),
    (primary && primaryTaken current job [], .conflict (some "uq_job_assignments_single_primary")),
    (current.jobAssignments.rows.any fun a => a.jobId = job && a.userId = user,
      .conflict (some "uq_job_assignments_job_user")),
    (userMissing current (some user), .conflict (some "job_assignments_user_id_users_id_fk"))]
  match violation with
  | some e => ⟨.error e, fun db => db, places, [], 0⟩
  | none => ⟨.ok (), assign ⟨serial, job, user, primary, now⟩, [], .job job .keyShare :: places, 1⟩

def setSupervisor (user : Option UserId) (now : Instant) : Outcome Unit :=
  if jobInScope snapshot scope job then
    if userMissing current user then
      ⟨.error (.conflict (some "jobs_supervisor_id_users_id_fk")), fun db => db, [.job job .noKeyUpdate], [], 0⟩
    else ⟨.ok (), supervise job user now, [], [.job job .noKeyUpdate], 0⟩
  else .answers (.ok ())

def perform (serial : Int) : (query : Query) → Outcome (Reply query)
  | .countAssignments => .answers (.ok (listed snapshot scope job fun _ => true).length)
  | .lockJob =>
    ⟨.ok (), fun db => db, [], if jobInScope snapshot scope job then [.job job .update] else [], 0⟩
  | .clearPrimary => clearPrimary snapshot current scope job
  | .insertAssignment user primary now => insertAssignment snapshot current scope job serial user primary now
  | .deleteAssignment user => deleteAssignment snapshot current scope job user
  | .makePrimary user => makePrimary snapshot current scope job user
  | .selectAssignments => .answers (.ok ((assignmentsOf snapshot scope job).map (assignmentOfRow snapshot scope)))
  | .setSupervisor user now => setSupervisor snapshot current scope job user now

end Statements

/-- Any statement may meet a fault of the driver. -/
def execute (fault : Option PortError) (serial : Int) (statement : Statement) (snapshot current : Db) :
    Effect (Answer statement) Db Lock :=
  match fault with
  | some e => .answers (.error e)
  | none => perform snapshot current statement.scope statement.job serial statement.query

/- The transactions of the repository. -/

abbrev Steps : Type := Program Statement Answer (Ending (Except PortError (List JobAssignment)))

def fail (e : PortError) : Steps := .done (.rollback (.error e))

/-- The error of a statement ends the transaction. -/
def orFail {α : Type} (next : α → Steps) : Except PortError α → Steps
  | .error e => fail e
  | .ok reply => next reply

section Repository
variable (scope : CompanyId) (job : JobId) (now : Instant)

def supervising (assignments : List JobAssignment) : Steps :=
  .stmt ⟨scope, job, .setSupervisor (primarySupervisor (assignments.map fun a => (a.userId, a.isPrimary))) now⟩
    (orFail fun _ => .done (.commit (.ok assignments)))

def syncPrimarySupervisor : Steps := .stmt ⟨scope, job, .selectAssignments⟩ (orFail (supervising scope job now))

def assigning (user : UserId) (primary : Bool) : Steps :=
  .stmt ⟨scope, job, .insertAssignment user primary now⟩ (orFail fun _ => syncPrimarySupervisor scope job now)

/-- The first assignment is made primary, and the old primary is cleared before the new one. -/
def addAssignment (user : UserId) (primary : Bool) : Steps :=
  .stmt ⟨scope, job, .countAssignments⟩ (orFail fun existing =>
    if primary || existing = 0 then
      .stmt ⟨scope, job, .clearPrimary⟩ (orFail fun _ => assigning scope job now user true)
    else assigning scope job now user false)

def removeAssignment (user : UserId) : Steps :=
  .stmt ⟨scope, job, .deleteAssignment user⟩ (orFail fun _ => syncPrimarySupervisor scope job now)

def setPrimaryAssignment (user : UserId) : Steps :=
  .stmt ⟨scope, job, .lockJob⟩ (orFail fun _ =>
    .stmt ⟨scope, job, .clearPrimary⟩ (orFail fun _ =>
      .stmt ⟨scope, job, .makePrimary user⟩ (orFail fun affected =>
        if affected = 0 then fail .notFound else syncPrimarySupervisor scope job now)))

end Repository

inductive Call where
  | addAssignment (user : UserId) (primary : Bool)
  | removeAssignment (user : UserId)
  | setPrimaryAssignment (user : UserId)

structure Request where
  scope : CompanyId
  job : JobId
  now : Instant
  call : Call

def program (request : Request) : Steps :=
  match request.call with
  | .addAssignment user primary => addAssignment request.scope request.job request.now user primary
  | .removeAssignment user => removeAssignment request.scope request.job request.now user
  | .setPrimaryAssignment user => setPrimaryAssignment request.scope request.job request.now user

abbrev Running : Type := Transaction Statement Answer (Except PortError (List JobAssignment)) Request Db Lock

abbrev Runs : Type := Config Statement Answer (Except PortError (List JobAssignment)) Request Db Lock

/-- Calls on any jobs, under a condition on the store they start from and on their steps. -/
def assignments (starts : Db → Prop) (permits : Runs → Label Request (Option PortError) → Bool) :
    Database Statement Answer (Except PortError (List JobAssignment)) Request (Option PortError) Db Lock where
  program := program
  execute := execute
  conflicts := conflicts
  initial db serial := starts db ∧ ∀ a ∈ db.jobAssignments.rows, a.id < serial
  permits := permits

end AssignmentPrograms
