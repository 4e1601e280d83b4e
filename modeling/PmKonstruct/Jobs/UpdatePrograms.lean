import PmKonstruct.CallForward.CallForwardService
import PmKonstruct.Jobs.JobPatch
import PmKonstruct.Jobs.JobService

/- Partial updates of jobs and of programme items as calls on one database. The row is read, the patch is merged into the
   copy, the row is read once more for the session to be allowed to see it, and every column is written. -/
namespace UpdatePrograms
open PlainText DomainErrors Accounts CalendarDate Schema KeyedTable RowSecurity Requests StatementProgram
open JobStore (JobInput)
open CallForwardItem (CallForwardInput CallForwardItemWithDelay withDelay validateParent)
open JobPatch (JobPatchRequest)
open ItemPatch (CallForwardPatchRequest)
open AuthService (SessionUser)

structure AssignedSupervisor where
  userId : UserId
  name : Text
  isPrimary : Bool
  deriving DecidableEq, Repr

/-- A job with its manager and supervisors; the supervisor shown is the first, not the primary one. -/
structure JobView where
  job : JobRow
  managerName : Option Text
  supervisorName : Option Text
  supervisors : List AssignedSupervisor
  deriving DecidableEq, Repr

def JobView.assemble (job : JobRow) (managerName : Option Text) (supervisors : List AssignedSupervisor) : JobView :=
  ⟨job, managerName, supervisors.head?.map (·.name), supervisors⟩

structure Env where
  now : Instant
  today : Date
  fault : Option PortError

inductive Statement where
  | assertVisible (scope : CompanyId) (viewer : UserId) (seesAll : Bool) (job : JobId)
  | selectJob (scope : CompanyId) (job : JobId)
  | updateJob (scope : CompanyId) (job : JobId) (input : JobInput)
  | managerName (scope : CompanyId) (job : JobId)
  | supervisors (scope : CompanyId) (job : JobId)
  | visibleJobIds (scope : CompanyId) (viewer : UserId)
  | findItem (scope : CompanyId) (visible : Option (List JobId)) (item : CallForwardItemId)
  | typeAndJob (scope : CompanyId) (item : CallForwardItemId)
  | updateItem (scope : CompanyId) (item : CallForwardItemId) (input : CallForwardInput)
  | today

abbrev Reply : Statement → Type
  | .assertVisible _ _ _ _ => Unit
  | .selectJob _ _ => Option JobRow
  | .updateJob _ _ _ => Option JobRow
  | .managerName _ _ => Option Text
  | .supervisors _ _ => List AssignedSupervisor
  | .visibleJobIds _ _ => List JobId
  | .findItem _ _ _ => Option CallForwardRow
  | .typeAndJob _ _ => Option (ItemType × JobId)
  | .updateItem _ _ _ => Option CallForwardRow
  | .today => Date

abbrev Answer (statement : Statement) : Type := Except PortError (Reply statement)

section Queries
variable (db : Db) (scope : CompanyId) (job : JobId)

/-- A user of another company is not there for the join. -/
def userName (user : UserId) : Option Text := (db.users.reach (·.companyId = scope) user).map (·.name)

def managerOf : Option Text :=
  (db.jobs.reach (·.companyId = scope) job).bind fun row => row.managerId.bind (userName db scope)

def supervisorsOf : List AssignedSupervisor :=
  (JobStore.assignmentsOf db scope job).map fun a => ⟨a.userId, (userName db scope a.userId).getD [], a.isPrimary⟩

end Queries

def perform (env : Env) : (statement : Statement) → Db → Answer statement × Db
  | .assertVisible scope viewer seesAll job, db => (assertVisible db scope viewer seesAll job, db)
  | .selectJob scope job, db => (.ok (db.jobs.reach (·.companyId = scope) job), db)
  | .updateJob scope job input, db => settled db (JobStore.update db scope env.now job input)
  | .managerName scope job, db => (.ok (managerOf db scope job), db)
  | .supervisors scope job, db => (.ok (supervisorsOf db scope job), db)
  | .visibleJobIds scope viewer, db => (.ok (visibleJobIds db scope viewer), db)
  | .findItem scope visible item, db => (.ok (ProgrammeStore.findItem db scope visible item), db)
  | .typeAndJob scope item, db => (.ok (ProgrammeStore.typeAndJob db scope item), db)
  | .updateItem scope item input, db => settled db (ProgrammeStore.update db scope env.now item input)
  | .today, db => (.ok env.today, db)

/-- The clock is read without the database. -/
def Statement.queries : Statement → Bool
  | .today => false
  | _ => true

def execute : Executes Statement Answer Env Db := faulting (·.fault) Statement.queries perform

abbrev Action (α : Type) : Type := Program Statement Answer (Except AppError α)

def fail {α : Type} (error : AppError) : Action α := .done (.error error)

/-- Awaits a statement and passes a driver error on. -/
def call {α : Type} (statement : Statement) (next : Reply statement → Action α) : Action α :=
  await .port statement next

section Jobs
variable {α : Type} (s : SessionUser) (id : JobId)

def getJob (next : JobRow → Action α) : Action α :=
  .stmt (.assertVisible s.principal.companyId s.user.id s.user.role.seesAllCompanyJobs id) fun
  | .error .notFound => fail (.domain (.notFound "Job"))
  | .error e => fail (.port e)
  | .ok _ => call (.selectJob s.principal.companyId id) fun
    | none => fail (.domain (.notFound "Job"))
    | some row => next row

def writeJob (input : JobInput) (next : Action α) : Action α :=
  getJob s id fun _ =>
    match input.normalised.validate with
    | .error e => fail (.domain e)
    | .ok _ => call (.updateJob s.principal.companyId id input.normalised) fun
      | none => fail (.domain (.notFound "Job"))
      | some _ => next

def getWithPeople : Action JobView :=
  getJob s id fun job =>
    call (.managerName s.principal.companyId id) fun managerName =>
      call (.supervisors s.principal.companyId id) fun supervisors =>
        .done (.ok (.assemble job managerName supervisors))

/-- `PUT /jobs/{id}`. -/
def updateJob (req : JobPatchRequest) : Action JobView :=
  getJob s id fun current =>
    match req.apply current with
    | .error e => fail (.domain e)
    | .ok input => writeJob s id input (getWithPeople s id)

end Jobs

section Items
variable {α : Type} (s : SessionUser) (id : CallForwardItemId)

def withVisibleJobs (next : Option (List JobId) → Action α) : Action α :=
  if s.user.role.seesAllCompanyJobs then next none
  else call (.visibleJobIds s.principal.companyId s.user.id) fun ids => next (some ids)

def getItem (next : CallForwardRow → Action α) : Action α :=
  withVisibleJobs s fun visible =>
    call (.findItem s.principal.companyId visible id) fun
    | none => fail (.domain (.notFound "Call forward item"))
    | some row => next row

def checkParent (childType : ItemType) (parentId : Option CallForwardItemId) (job : JobId) (next : Action α) : Action α :=
  match parentId with
  | none => next
  | some parent => call (.typeAndJob s.principal.companyId parent) fun
    | none => fail (.domain (.invalid "parentId" "no such item"))
    | some (parentType, parentJob) =>
      match validateParent childType (some id) (some (parent, parentType, parentJob)) job with
      | .error e => fail (.domain e)
      | .ok _ => next

def writeItem (input : CallForwardInput) : Action CallForwardItemWithDelay :=
  getItem s id fun existing =>
    match input.validate with
    | .error e => fail (.domain e)
    | .ok _ =>
      checkParent s id (input.itemType.getD existing.itemType) input.parentId existing.jobId
        (call .today fun today =>
          call (.updateItem s.principal.companyId id input) fun
          | none => fail (.domain (.notFound "Call forward item"))
          | some row => .done (.ok (withDelay today row)))

/-- `PUT /call-forward/{id}`. -/
def updateItem (req : CallForwardPatchRequest) : Action CallForwardItemWithDelay :=
  getItem s id fun current =>
    match req.apply current with
    | .error e => fail (.domain e)
    | .ok input => writeItem s id input

end Items

/- The calls that may be in flight together. -/

inductive Request where
  | job (s : SessionUser) (id : JobId) (req : JobPatchRequest)
  | item (s : SessionUser) (id : CallForwardItemId) (req : CallForwardPatchRequest)

inductive Returned where
  | job (view : JobView)
  | item (item : CallForwardItemWithDelay)
  deriving DecidableEq, Repr

abbrev Outcome : Type := Except AppError Returned

def programOf : Request → Program Statement Answer Outcome
  | .job s id req => (updateJob s id req).mapResult (·.map .job)
  | .item s id req => (updateItem s id req).mapResult (·.map .item)

def updates (initial : Db → Prop) : Service Statement Answer Outcome Request Env Db where
  program := programOf
  execute := execute
  initial := initial
  admits := fun _ _ _ => true

abbrev Underway : Type := Call Statement Answer Outcome Request

abbrev Running : Type := Config Statement Answer Outcome Request Db

end UpdatePrograms
