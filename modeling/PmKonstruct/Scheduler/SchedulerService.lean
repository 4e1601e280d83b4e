import PmKonstruct.Scheduler.SchedulerStore

/- The use cases that book a worker or record an absence. A job is looked up before it is booked; a worker and
   a maintenance job are not. -/
namespace SchedulerService
open PlainText DomainErrors CalendarDate Schema KeyedTable RowSecurity Requests
open SchedulerStore (AbsenceInput AllocationInput Absence Allocation AbsenceConflict AbsenceType.asStr absenceCovering)
open AuthService (SessionUser)

def absenceMessage (conflict : AbsenceConflict) : String :=
  String.ofList (text "That worker is on " ++ AbsenceType.asStr conflict.absenceType ++ text " from " ++
    isoDate conflict.startDate ++ text " to " ++ isoDate conflict.endDate)

section Service
variable (db : Db) (s : SessionUser)

def createAbsence (input : AbsenceInput) : Outcome Absence :=
  attempt db (inDomain input.validate) fun _ =>
    committed db (SchedulerStore.createAbsence db s.principal.companyId input)

def updateAbsence (id : SchedulerAbsenceId) (input : AbsenceInput) : Outcome Absence :=
  attempt db (inDomain input.validate) fun _ =>
    orNotFound "Absence" (committed db (SchedulerStore.updateAbsence db s.principal.companyId id input))

/-- A maintenance job is left to row-level security, which only ever sees the allocation. -/
def assertTargetVisible (input : AllocationInput) : Except AppError Unit :=
  match input.target with
  | .error e => .error (.domain e)
  | .ok (.maintenanceJob _) => .ok ()
  | .ok (.job job) =>
    match getJob db s job with
    | .error e => .error e
    | .ok _ => .ok ()

def assertWorkerAvailable (input : AllocationInput) : Except AppError Unit :=
  let absences := SchedulerStore.absences db s.principal.companyId input.assignedDate input.assignedDate
  match absenceCovering absences input.workerId input.assignedDate with
  | some conflict => .error (.domain (.conflict (absenceMessage conflict)))
  | none => .ok ()

def createAllocation (input : AllocationInput) : Outcome Allocation :=
  attempt db (inDomain input.validate) fun _ =>
    attempt db (assertTargetVisible db s input) fun _ =>
      attempt db (assertWorkerAvailable db s input) fun _ =>
        committed db (SchedulerStore.createAllocation db s.principal.companyId input)

def updateAllocation (id : SchedulerAllocationId) (input : AllocationInput) : Outcome Allocation :=
  attempt db (inDomain input.validate) fun _ =>
    attempt db (assertTargetVisible db s input) fun _ =>
      attempt db (assertWorkerAvailable db s input) fun _ =>
        orNotFound "Allocation" (committed db (SchedulerStore.updateAllocation db s.principal.companyId id input))

end Service

end SchedulerService
