import PmKonstruct.Scheduler.AbsencePrograms
import PmKonstruct.Scheduler.SchedulerService

/- Allocations beside absences, under READ COMMITTED. A call reads the job and the absences in transactions of their own
   and writes in another. The reads take no locks and leave nothing behind, so here a call is one transaction that has
   written nothing until its last statement; each of its statements takes a snapshot of its own either way. -/
namespace AllocationPrograms
open DomainErrors CalendarDate Schema KeyedTable RowSecurity Requests ReadCommitted
open StatementProgram (Program)
open AuthService (SessionUser)
open SchedulerStore (AllocationInput Allocation Absence absenceCovering allocationConstraint allocationOfRow newAllocation
  changedAllocation)
open SchedulerService (absenceMessage)

/-- A written allocation is answered as the row it is by then. -/
inductive Query where
  | absence (query : AbsencePrograms.Query)
  | findJob (viewer : UserId) (seesAll : Bool) (job : JobId)
  | absences (first last : Date)
  | insert (input : AllocationInput)
  | update (id : SchedulerAllocationId) (input : AllocationInput)

abbrev Reply : Query → Type
  | .absence query => AbsencePrograms.Reply query
  | .findJob _ _ _ => Option JobRow
  | .absences _ _ => List Absence
  | .insert _ => SchedulerAllocationRow
  | .update _ _ => Option SchedulerAllocationRow

/-- A statement runs for the company its transaction was opened for. -/
structure Statement where
  scope : CompanyId
  query : Query

abbrev Answer (statement : Statement) : Type := Except PortError (Reply statement.query)

/-- A row, and a place in one of the three unique indexes. -/
inductive Lock where
  | absence (lock : AbsencePrograms.Lock)
  | allocation (id : SchedulerAllocationId)
  | day (company : CompanyId) (worker : SchedulerWorkerId) (date : Date)
  | jobDay (worker : SchedulerWorkerId) (job : JobId) (date : Date)
  | maintenanceDay (worker : SchedulerWorkerId) (job : Int) (date : Date)
  deriving DecidableEq

def placesOf (row : SchedulerAllocationRow) : List Lock :=
  .day row.companyId row.workerId row.assignedDate ::
    ((row.jobId.map fun job => Lock.jobDay row.workerId job row.assignedDate).toList ++
      (row.maintenanceJobId.map fun job => Lock.maintenanceDay row.workerId job row.assignedDate).toList)

def amongAbsences {α : Type} (effect : Effect α Db AbsencePrograms.Lock) : Effect α Db Lock where
  answer := effect.answer
  change := effect.change
  awaits := effect.awaits.map .absence
  takes := effect.takes.map .absence
  drawn := effect.drawn

section Statements
variable (snapshot current : Db) (scope : CompanyId)

/-- An update waits for the row it saw, and then goes by the row as it is. -/
def present (id : SchedulerAllocationId) : Option SchedulerAllocationRow :=
  (snapshot.schedulerAllocations.reach (·.companyId = scope) id).bind fun _ =>
    current.schedulerAllocations.reach (·.companyId = scope) id

def awaited (id : SchedulerAllocationId) : List Lock :=
  ((snapshot.schedulerAllocations.reach (·.companyId = scope) id).map fun _ => Lock.allocation id).toList

def put (new : SchedulerAllocationRow) (db : Db) : Db :=
  { db with schedulerAllocations := db.schedulerAllocations.put new }

def replace (new : SchedulerAllocationRow) (db : Db) : Db :=
  { db with
    schedulerAllocations := db.schedulerAllocations.update (fun a => a.id = new.id) (fun a => { new with id := a.id })
      (fun _ => rfl) }

def insert (serial : Int) (input : AllocationInput) : Effect (Except PortError SchedulerAllocationRow) Db Lock :=
  let new := newAllocation scope input serial
  match allocationConstraint current scope none input with
  | some e => ⟨.error e, fun db => db, placesOf new, [], 1⟩
  | none => ⟨.ok new, put new, [], placesOf new, 1⟩

/-- A row that leaves its places in the indexes keeps them until the transaction ends. -/
def update (id : SchedulerAllocationId) (input : AllocationInput) :
    Effect (Except PortError (Option SchedulerAllocationRow)) Db Lock :=
  match present snapshot current scope id with
  | none => ⟨.ok none, fun db => db, awaited snapshot scope id, [], 0⟩
  | some row =>
    let new := changedAllocation input row
    match allocationConstraint current scope (some id) input with
    | some e => ⟨.error e, fun db => db, placesOf new, [.allocation id], 0⟩
    | none => ⟨.ok (some new), replace new, [], .allocation id :: (placesOf new ++ placesOf row), 0⟩

def perform (serial : Int) : (query : Query) → Effect (Except PortError (Reply query)) Db Lock
  | .absence query => amongAbsences (AbsencePrograms.perform snapshot current scope serial query)
  | .findJob viewer seesAll job => .answers (RowSecurity.findJob snapshot scope viewer seesAll job)
  | .absences first last => .answers (.ok (SchedulerStore.absences snapshot scope first last))
  | .insert input => insert current scope serial input
  | .update id input => update snapshot current scope id input

end Statements

/-- Any statement may meet a fault of the driver. -/
def execute (fault : Option PortError) (serial : Int) (statement : Statement) (snapshot current : Db) :
    Effect (Answer statement) Db Lock :=
  match fault with
  | some e => .answers (.error e)
  | none => perform snapshot current statement.scope serial statement.query

/- The calls. -/

inductive Result where
  | absence (result : AbsencePrograms.Result)
  | allocation (result : Except AppError Allocation)

abbrev Steps : Type := Program Statement Answer (Ending Result)

def absenceEnding : Ending AbsencePrograms.Result → Ending Result
  | .commit result => .commit (.absence result)
  | .rollback result => .rollback (.absence result)

/-- A transaction on the absences alone. -/
def onAbsences : AbsencePrograms.Steps → Steps
  | .done ending => .done (absenceEnding ending)
  | .stmt statement next => .stmt ⟨statement.scope, .absence statement.query⟩ fun answer => onAbsences (next answer)

def fail (e : AppError) : Steps := .done (.rollback (.allocation (.error e)))

def finish (result : Except AppError Allocation) : Steps := .done (.commit (.allocation result))

section Calls
variable (s : SessionUser)

def ask (query : Query) (next : Reply query → Steps) : Steps :=
  .stmt ⟨s.principal.companyId, query⟩ fun answer =>
    match answer with
    | .error e => fail (.port e)
    | .ok reply => next reply

/-- A real job must be one the caller can see. -/
def assertTargetVisible (input : AllocationInput) (next : Steps) : Steps :=
  match input.target with
  | .error e => fail (.domain e)
  | .ok (.maintenanceJob _) => next
  | .ok (.job job) => ask s (.findJob s.user.id s.user.role.seesAllCompanyJobs job) fun
    | none => fail (.domain (.notFound "Job"))
    | some _ => next

def assertWorkerAvailable (input : AllocationInput) (next : Steps) : Steps :=
  ask s (.absences input.assignedDate input.assignedDate) fun absences =>
    match absenceCovering absences input.workerId input.assignedDate with
    | some conflict => fail (.domain (.conflict (absenceMessage conflict)))
    | none => next

def checked (input : AllocationInput) (next : Steps) : Steps :=
  match input.validate with
  | .error e => fail (.domain e)
  | .ok _ => assertTargetVisible s input (assertWorkerAvailable s input next)

def createAllocation (input : AllocationInput) : Steps :=
  checked s input (ask s (.insert input) fun row => finish (.ok (allocationOfRow row)))

def updateAllocation (id : SchedulerAllocationId) (input : AllocationInput) : Steps :=
  checked s input (ask s (.update id input) fun
    | none => finish (.error (.domain (.notFound "Allocation")))
    | some row => finish (.ok (allocationOfRow row)))

end Calls

inductive Request where
  | absence (request : AbsencePrograms.Request)
  | create (s : SessionUser) (input : AllocationInput)
  | update (s : SessionUser) (id : SchedulerAllocationId) (input : AllocationInput)

def Request.program : Request → Steps
  | .absence request => onAbsences request.program
  | .create s input => createAllocation s input
  | .update s id input => updateAllocation s id input

abbrev Booking : Type := Transaction Statement Answer Result Request Db Lock

abbrev Bookings : Type := Config Statement Answer Result Request Db Lock

/-- Any number of calls, from any store, in any order of their statements; any of them may abort at any time. -/
def bookings : Database Statement Answer Result Request (Option PortError) Db Lock where
  program := Request.program
  execute := execute
  conflicts a b := a = b
  initial _ _ := True
  permits _ _ := true

end AllocationPrograms
