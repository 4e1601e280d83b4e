import Mathlib.Data.List.Sort
import PmKonstruct.Store.RowSecurity
import PmKonstruct.Store.Requests

/- The trade scheduler: allocations and absences of workers, their input checks and their repository. Every
   table carries its company, and every foreign key sees the rows of every company. -/
namespace SchedulerStore
open PlainText DomainErrors CalendarDate Schema KeyedTable RowSecurity Requests

structure AbsenceInput where
  workerId : SchedulerWorkerId
  absenceType : AbsenceType
  startDate : Date
  endDate : Date
  deriving DecidableEq, Repr

structure Absence where
  id : SchedulerAbsenceId
  workerId : SchedulerWorkerId
  absenceType : AbsenceType
  startDate : Date
  endDate : Date
  deriving DecidableEq, Repr

structure AllocationInput where
  workerId : SchedulerWorkerId
  jobId : Option JobId
  maintenanceJobId : Option Int
  assignedDate : Date
  note : Option Text
  deriving DecidableEq, Repr

inductive AllocationTarget where
  | job (id : JobId)
  | maintenanceJob (id : Int)
  deriving DecidableEq, Repr

structure Allocation where
  id : SchedulerAllocationId
  workerId : SchedulerWorkerId
  target : AllocationTarget
  assignedDate : Date
  note : Option Text
  deriving DecidableEq, Repr

structure AbsenceConflict where
  absenceId : SchedulerAbsenceId
  absenceType : AbsenceType
  startDate : Date
  endDate : Date
  deriving DecidableEq, Repr

def AbsenceType.asStr : AbsenceType → Text
  | .sick => text "sick"
  | .leave => text "leave"
  | .tradeSchool => text "trade_school"

def AbsenceInput.validate (input : AbsenceInput) : Except DomainError Unit :=
  if input.workerId ≤ 0 then .error (.invalid "workerId" "is required")
  else if input.startDate > input.endDate then .error (.invalid "endDate" "must be on or after the start date")
  else if input.endDate - input.startDate > 366 then .error (.invalid "endDate" "an absence cannot exceed one year")
  else .ok ()

/-- Both ends are part of a period. -/
def AbsenceInput.overlaps (input : AbsenceInput) (otherStart otherEnd : Date) : Bool :=
  input.startDate ≤ otherEnd && otherStart ≤ input.endDate

/-- Exactly one of the two, never both, never neither. -/
def AllocationInput.target (input : AllocationInput) : Except DomainError AllocationTarget :=
  match input.jobId, input.maintenanceJobId with
  | some job, none => .ok (.job job)
  | none, some maintenance => .ok (.maintenanceJob maintenance)
  | some _, some _ => .error (.invalid "jobId" "an allocation targets a job or a maintenance job, not both")
  | none, none => .error (.invalid "jobId" "an allocation must target a job or a maintenance job")

def AllocationInput.validate (input : AllocationInput) : Except DomainError Unit :=
  if input.workerId ≤ 0 then .error (.invalid "workerId" "is required")
  else
    match input.target with
    | .error e => .error e
    | .ok _ => .ok ()

/-- The first absence of a worker that covers a day, both ends included. -/
def absenceCovering (absences : List Absence) (worker : SchedulerWorkerId) (date : Date) : Option AbsenceConflict :=
  (absences.find? fun a => a.workerId = worker && a.startDate ≤ date && date ≤ a.endDate).map
    fun a => ⟨a.id, a.absenceType, a.startDate, a.endDate⟩

def absenceOfRow (row : SchedulerAbsenceRow) : Absence :=
  ⟨row.id, row.workerId, row.absenceType, row.startDate, row.endDate⟩

def allocationOfRow (row : SchedulerAllocationRow) : Allocation :=
  let target :=
    match row.jobId, row.maintenanceJobId with
    | some job, _ => AllocationTarget.job job
    | none, some maintenance => .maintenanceJob maintenance
    -- Unreachable under the constraint on the target.
    | none, none => .maintenanceJob 0
  ⟨row.id, row.workerId, target, row.assignedDate, row.note⟩

section Repository
variable (db : Db) (scope : CompanyId)

/-- The absences that meet a range of days. -/
def absences (first last : Date) : List Absence :=
  let rows := db.schedulerAbsences.select fun a => a.companyId = scope && a.startDate ≤ last && first ≤ a.endDate
  (rows.insertionSort fun a b => a.workerId < b.workerId ∨ a.workerId = b.workerId ∧ a.startDate ≤ b.startDate).map
    absenceOfRow

/-- The constraints a written absence runs into. The trigger fires first and looks at one company; the unique
    period and the foreign key do not. -/
def absenceConstraint (self : Option SchedulerAbsenceId) (input : AbsenceInput) : Option PortError :=
  let clashes (p : SchedulerAbsenceRow → Bool) : Bool := db.schedulerAbsences.rows.any fun a =>
    some a.id ≠ self && a.workerId = input.workerId && p a
  firstViolation [
    (clashes fun a => a.companyId = scope && a.startDate ≤ input.endDate && input.startDate ≤ a.endDate,
      .conflict (some "scheduler_worker_absence_overlap")),
    (input.startDate > input.endDate, .checkViolation (some "scheduler_worker_absence_dates_check")),
    (clashes fun a => a.absenceType = input.absenceType && a.startDate = input.startDate && a.endDate = input.endDate,
      .conflict (some "uq_scheduler_worker_absence_period")),
    ((db.schedulerWorkers.find input.workerId).isNone,
      .conflict (some "scheduler_worker_absences_worker_id_fkey"))]

def newAbsence (input : AbsenceInput) (id : SchedulerAbsenceId) : SchedulerAbsenceRow :=
  ⟨id, scope, input.workerId, input.absenceType, input.startDate, input.endDate⟩

def createAbsence (input : AbsenceInput) : Except PortError (Absence × Db) :=
  insertRow db.schedulerAbsences (fun rows => { db with schedulerAbsences := rows }) absenceOfRow
    (newAbsence scope input) (fun _ => rfl) (absenceConstraint db scope none input)

def changedAbsence (input : AbsenceInput) (row : SchedulerAbsenceRow) : SchedulerAbsenceRow :=
  { row with
    workerId := input.workerId
    absenceType := input.absenceType
    startDate := input.startDate
    endDate := input.endDate }

def updateAbsence (id : SchedulerAbsenceId) (input : AbsenceInput) :
    Except PortError (Option Absence × Db) :=
  checkedChange db.schedulerAbsences (fun rows => { db with schedulerAbsences := rows }) absenceOfRow
    (·.companyId = scope) id (changedAbsence input) (fun _ => rfl) (absenceConstraint db scope (some id) input)

/-- Double-booking is excluded by indexes. A missing job or maintenance job never equals another. -/
def allocationConstraint (self : Option SchedulerAllocationId) (input : AllocationInput) : Option PortError :=
  let clashes (p : SchedulerAllocationRow → Bool) : Bool := db.schedulerAllocations.rows.any fun a =>
    some a.id ≠ self && a.workerId = input.workerId && a.assignedDate = input.assignedDate && p a
  firstViolation [
    (input.jobId.isSome = input.maintenanceJobId.isSome, .checkViolation (some "scheduler_allocation_target_check")),
    (clashes fun a => a.companyId = scope, .conflict (some "uq_scheduler_company_worker_date")),
    (clashes fun a => a.jobId.isSome && a.jobId = input.jobId, .conflict (some "uq_scheduler_worker_job_date")),
    (clashes fun a => a.maintenanceJobId.isSome && a.maintenanceJobId = input.maintenanceJobId,
      .conflict (some "uq_scheduler_worker_maintenance_job_date")),
    ((db.schedulerWorkers.find input.workerId).isNone,
      .conflict (some "scheduler_allocations_worker_id_scheduler_workers_id_fk")),
    (input.jobId.any fun job => (db.jobs.find job).isNone,
      .conflict (some "scheduler_allocations_job_id_jobs_id_fk")),
    (input.maintenanceJobId.any fun m => (db.schedulerMaintenanceJobs.find m).isNone,
      .conflict (some "scheduler_allocations_maintenance_job_id_fkey"))]

def newAllocation (input : AllocationInput) (id : SchedulerAllocationId) : SchedulerAllocationRow :=
  ⟨id, scope, input.workerId, input.jobId, input.maintenanceJobId, input.assignedDate, input.note⟩

def createAllocation (input : AllocationInput) : Except PortError (Allocation × Db) :=
  insertRow db.schedulerAllocations (fun rows => { db with schedulerAllocations := rows }) allocationOfRow
    (newAllocation scope input) (fun _ => rfl) (allocationConstraint db scope none input)

def changedAllocation (input : AllocationInput) (row : SchedulerAllocationRow) : SchedulerAllocationRow :=
  { row with
    workerId := input.workerId
    jobId := input.jobId
    maintenanceJobId := input.maintenanceJobId
    assignedDate := input.assignedDate
    note := input.note }

def updateAllocation (id : SchedulerAllocationId) (input : AllocationInput) :
    Except PortError (Option Allocation × Db) :=
  checkedChange db.schedulerAllocations (fun rows => { db with schedulerAllocations := rows }) allocationOfRow
    (·.companyId = scope) id (changedAllocation input) (fun _ => rfl) (allocationConstraint db scope (some id) input)

end Repository

end SchedulerStore
