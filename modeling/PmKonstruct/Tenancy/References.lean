import PmKonstruct.Jobs.JobService
import PmKonstruct.Library.TransitionRuns
import PmKonstruct.Scheduler.SchedulerService

/- References between rows of one company, over whole runs of several. Row-level security checks the company of
   the row written and a foreign key only that the row named exists, so a client's id is followed across. -/
namespace References
open PlainText DomainErrors Accounts AuthStore CalendarDate Schema KeyedTable RowSecurity Requests TransitionRuns
open JobStore (JobInput)
open SchedulerStore (AbsenceInput AllocationInput)
open AuthService (SessionUser)

section Company
variable (db : Db) (company : CompanyId)

def UserOf (user : UserId) : Prop := db.users.Has UserRow.companyId user company

def JobOf (job : JobId) : Prop := db.jobs.Has JobRow.companyId job company

def WorkerOf (worker : SchedulerWorkerId) : Prop := db.schedulerWorkers.Has SchedulerWorkerRow.companyId worker company

def MaintenanceJobOf (maintenance : Int) : Prop :=
  db.schedulerMaintenanceJobs.Has SchedulerMaintenanceJobRow.companyId maintenance company

/-- A job names a manager and a supervisor of its own company. -/
def PeopleOf (job : JobRow) : Prop :=
  (∀ user, job.managerId = some user → UserOf db job.companyId user) ∧
    ∀ user, job.supervisorId = some user → UserOf db job.companyId user

def AssignmentAgrees (assignment : JobAssignmentRow) : Prop :=
  ∃ company, JobOf db company assignment.jobId ∧ UserOf db company assignment.userId

def AllocationAgrees (allocation : SchedulerAllocationRow) : Prop :=
  WorkerOf db allocation.companyId allocation.workerId ∧
    (∀ job, allocation.jobId = some job → JobOf db allocation.companyId job) ∧
    ∀ maintenance, allocation.maintenanceJobId = some maintenance →
      MaintenanceJobOf db allocation.companyId maintenance

end Company

/-- Every reference leads to a row of the company that the naming row belongs to. -/
structure ReferencesAgree (db : Db) : Prop where
  jobs : ∀ job ∈ db.jobs.rows, PeopleOf db job
  assignments : ∀ assignment ∈ db.jobAssignments.rows, AssignmentAgrees db assignment
  allocations : ∀ allocation ∈ db.schedulerAllocations.rows, AllocationAgrees db allocation
  absences : ∀ absence ∈ db.schedulerAbsences.rows, WorkerOf db absence.companyId absence.workerId

/- The calls and their runs. -/

inductive Call where
  | createJob (input : JobInput)
  | updateJob (id : JobId) (input : JobInput)
  | addAssignment (job : JobId) (user : UserId) (primary : Bool)
  | createAllocation (input : AllocationInput)
  | updateAllocation (id : SchedulerAllocationId) (input : AllocationInput)
  | createAbsence (input : AbsenceInput)
  | updateAbsence (id : SchedulerAbsenceId) (input : AbsenceInput)
  deriving DecidableEq, Repr

structure Request where
  now : Instant
  session : SessionUser
  call : Call
  deriving DecidableEq, Repr

def serve (db : Db) (r : Request) : Db :=
  match r.call with
  | .createJob input => (JobService.create db r.session r.now input).2
  | .updateJob id input => (JobService.update db r.session r.now id input).2
  | .addAssignment job user primary => (JobService.addAssignment db r.session r.now job user primary).2
  | .createAllocation input => (SchedulerService.createAllocation db r.session input).2
  | .updateAllocation id input => (SchedulerService.updateAllocation db r.session id input).2
  | .createAbsence input => (SchedulerService.createAbsence db r.session input).2
  | .updateAbsence id input => (SchedulerService.updateAbsence db r.session id input).2

section Own
variable (db : Db) (company : CompanyId)

/-- The id names a row of the company, or no row at all. -/
def ownUser (user : UserId) : Bool := (db.users.find user).all (·.companyId = company)

def ownWorker (worker : SchedulerWorkerId) : Bool := (db.schedulerWorkers.find worker).all (·.companyId = company)

def ownMaintenanceJob (maintenance : Int) : Bool :=
  (db.schedulerMaintenanceJobs.find maintenance).all (·.companyId = company)

def ownPeople (input : JobInput) : Bool :=
  input.managerId.all (ownUser db company) && input.supervisorId.all (ownUser db company)

def ownTargets (input : AllocationInput) : Bool :=
  ownWorker db company input.workerId && input.maintenanceJobId.all (ownMaintenanceJob db company)

end Own

def books (db : Db) (s : SessionUser) (input : AllocationInput) : Bool :=
  input.validate.isOk && (SchedulerService.assertTargetVisible db s input).isOk &&
    (SchedulerService.assertWorkerAvailable db s input).isOk

/-- The call gets past the checks that come before its row, and finds the row it changes. -/
def writes (db : Db) (r : Request) : Bool :=
  let s := r.session
  let company := s.principal.companyId
  match r.call with
  | .createJob input =>
    input.normalised.validate.isOk && (JobStore.jobConstraint db company none input.normalised).isNone
  | .updateJob id input => (getJob db s id).isOk && input.normalised.validate.isOk &&
    (JobStore.jobConstraint db company (some id) input.normalised).isNone
  | .addAssignment job _ _ => (getJob db s job).isOk
  | .createAllocation input => books db s input && (SchedulerStore.allocationConstraint db company none input).isNone
  | .updateAllocation id input => books db s input &&
    (SchedulerStore.allocationConstraint db company (some id) input).isNone &&
      (db.schedulerAllocations.reach (·.companyId = company) id).isSome
  | .createAbsence input => input.validate.isOk && (SchedulerStore.absenceConstraint db company none input).isNone
  | .updateAbsence id input => input.validate.isOk &&
    (SchedulerStore.absenceConstraint db company (some id) input).isNone &&
      (db.schedulerAbsences.reach (·.companyId = company) id).isSome

def ownIds (db : Db) (r : Request) : Bool :=
  let company := r.session.principal.companyId
  match r.call with
  | .createJob input => ownPeople db company input
  | .updateJob _ input => ownPeople db company input
  | .addAssignment _ user _ => ownUser db company user
  | .createAllocation input => ownTargets db company input
  | .updateAllocation _ input => ownTargets db company input
  | .createAbsence input => ownWorker db company input.workerId
  | .updateAbsence _ input => ownWorker db company input.workerId

/-- The users, workers and maintenance jobs that a client writes into a row are not another company's. The job of an
    allocation is left out: it is the one reference that is looked up. -/
def namesOwn (db : Db) (r : Request) : Bool := !writes db r || ownIds db r

/-- The companies of one deployment, under a condition on the requests that are made. -/
def tenants (admits : Db → Request → Bool) : Machine Db Request where
  initial := ReferencesAgree
  step db r := some (serve db r)
  allowed := admits

/- Tables replaced one at a time. -/

section Replace
variable {db : Db}

theorem agree_jobs {jobs : Table JobRow} (agree : ReferencesAgree db)
    (kept : ∀ company job, JobOf db company job → jobs.Has JobRow.companyId job company)
    (people : ∀ job ∈ jobs.rows, PeopleOf db job) : ReferencesAgree { db with jobs := jobs } where
  jobs := people
  assignments := by
    intro assignment member
    obtain ⟨company, job, user⟩ := agree.assignments assignment member
    exact ⟨company, kept company assignment.jobId job, user⟩
  allocations := by
    intro allocation member
    obtain ⟨worker, job, maintenance⟩ := agree.allocations allocation member
    exact ⟨worker, fun id named => kept allocation.companyId id (job id named), maintenance⟩
  absences := agree.absences

theorem agree_assignments {assignments : Table JobAssignmentRow} (agree : ReferencesAgree db)
    (rows : ∀ assignment ∈ assignments.rows, AssignmentAgrees db assignment) :
    ReferencesAgree { db with jobAssignments := assignments } :=
  ⟨agree.jobs, rows, agree.allocations, agree.absences⟩

theorem agree_allocations {allocations : Table SchedulerAllocationRow} (agree : ReferencesAgree db)
    (rows : ∀ allocation ∈ allocations.rows, AllocationAgrees db allocation) :
    ReferencesAgree { db with schedulerAllocations := allocations } :=
  ⟨agree.jobs, agree.assignments, rows, agree.absences⟩

theorem agree_absences {absences : Table SchedulerAbsenceRow} (agree : ReferencesAgree db)
    (rows : ∀ absence ∈ absences.rows, WorkerOf db absence.companyId absence.workerId) :
    ReferencesAgree { db with schedulerAbsences := absences } :=
  ⟨agree.jobs, agree.assignments, agree.allocations, rows⟩

end Replace

/- A foreign key finds a row, the condition its company. -/

section ForeignKeys
variable {db : Db} {company : CompanyId}

theorem userOf_own {user : UserId} (there : JobStore.userMissing db (some user) = false)
    (own : ownUser db company user = true) : UserOf db company user := by
  cases found : db.users.find user with
  | none => simp [JobStore.userMissing, found] at there
  | some row => exact ⟨row, found, by simpa [ownUser, found] using own⟩

theorem workerOf_own {worker : SchedulerWorkerId} (there : (db.schedulerWorkers.find worker).isNone = false)
    (own : ownWorker db company worker = true) : WorkerOf db company worker := by
  cases found : db.schedulerWorkers.find worker with
  | none => simp [found] at there
  | some row => exact ⟨row, found, by simpa [ownWorker, found] using own⟩

theorem maintenanceJobOf_own {maintenance : Int}
    (there : (db.schedulerMaintenanceJobs.find maintenance).isNone = false)
    (own : ownMaintenanceJob db company maintenance = true) : MaintenanceJobOf db company maintenance := by
  cases found : db.schedulerMaintenanceJobs.find maintenance with
  | none => simp [found] at there
  | some row => exact ⟨row, found, by simpa [ownMaintenanceJob, found] using own⟩

theorem jobOf_sees {s : SessionUser} {job : JobId} (sees : SeesJob db s job) : JobOf db s.principal.companyId job := by
  obtain ⟨row, found, owned, _⟩ := sees
  exact ⟨row, found, owned⟩

theorem jobOf_visible {s : SessionUser} {input : AllocationInput} {job : JobId}
    (visible : SchedulerService.assertTargetVisible db s input = .ok ()) (named : input.jobId = some job) :
    JobOf db s.principal.companyId job := by
  unfold SchedulerService.assertTargetVisible SchedulerStore.AllocationInput.target at visible
  rw [named] at visible
  cases maintenance : input.maintenanceJobId with
  | some id => simp [maintenance] at visible
  | none =>
    simp only [maintenance] at visible
    cases got : getJob db s job with
    | error e => simp [got] at visible
    | ok row => exact jobOf_sees (getJob_ok_iff.mp ⟨row, got⟩)

theorem people_own {self : Option JobId} {input : JobInput} {job : JobRow}
    (written : JobStore.jobConstraint db company self input = none) (own : ownPeople db company input = true)
    (owner : job.companyId = company) (manager : job.managerId = input.managerId)
    (supervisor : job.supervisorId = input.supervisorId) : PeopleOf db job := by
  simp only [ownPeople, Bool.and_eq_true] at own
  simp only [JobStore.jobConstraint, firstViolation_cons] at written
  obtain ⟨_, _, managerThere, supervisorThere, _⟩ := written
  constructor
  · intro user named
    rw [manager] at named
    rw [named] at managerThere own
    rw [owner]
    exact userOf_own managerThere own.1
  · intro user named
    rw [supervisor] at named
    rw [named] at supervisorThere own
    rw [owner]
    exact userOf_own supervisorThere own.2

theorem targets_own {s : SessionUser} {self : Option SchedulerAllocationId} {input : AllocationInput}
    {allocation : SchedulerAllocationRow}
    (written : SchedulerStore.allocationConstraint db s.principal.companyId self input = none)
    (visible : SchedulerService.assertTargetVisible db s input = .ok ())
    (own : ownTargets db s.principal.companyId input = true) (owner : allocation.companyId = s.principal.companyId)
    (worker : allocation.workerId = input.workerId) (job : allocation.jobId = input.jobId)
    (maintenance : allocation.maintenanceJobId = input.maintenanceJobId) : AllocationAgrees db allocation := by
  simp only [ownTargets, Bool.and_eq_true] at own
  simp only [SchedulerStore.allocationConstraint, firstViolation_cons] at written
  obtain ⟨_, _, _, _, workerThere, _, maintenanceThere, _⟩ := written
  rw [AllocationAgrees, owner, worker, job, maintenance]
  constructor
  · exact workerOf_own workerThere own.1
  constructor
  · intro id named
    exact jobOf_visible visible named
  · intro id named
    rw [named] at maintenanceThere own
    exact maintenanceJobOf_own maintenanceThere own.2

theorem worker_own {self : Option SchedulerAbsenceId} {input : AbsenceInput} {absence : SchedulerAbsenceRow}
    (written : SchedulerStore.absenceConstraint db company self input = none)
    (own : ownWorker db company input.workerId = true) (owner : absence.companyId = company)
    (worker : absence.workerId = input.workerId) : WorkerOf db absence.companyId absence.workerId := by
  simp only [SchedulerStore.absenceConstraint, firstViolation_cons] at written
  obtain ⟨_, _, _, workerThere, _⟩ := written
  rw [owner, worker]
  exact workerOf_own workerThere own

end ForeignKeys

/- One call at a time. -/

section Steps
variable {db : Db} {s : SessionUser} {now : Instant}

theorem createJob_agrees {input : JobInput} (agree : ReferencesAgree db)
    (own : writes db ⟨now, s, .createJob input⟩ = true → ownPeople db s.principal.companyId input = true) :
    ReferencesAgree (JobService.create db s now input).2 := by
  apply attempt_keeps ReferencesAgree agree
  intro _ valid
  apply committed_keeps ReferencesAgree agree
  intro row after created
  obtain ⟨written, rfl⟩ := insertRow_ok created
  have people := own (by simp [writes, inDomain_ok valid, written, Except.isOk, Except.toBool])
  apply agree_jobs agree
  · intro company job there
    exact there.insert
  · exact Table.all_insert agree.jobs (people_own written people rfl rfl rfl)

theorem updateJob_agrees {id : JobId} {input : JobInput} (agree : ReferencesAgree db)
    (own : writes db ⟨now, s, .updateJob id input⟩ = true → ownPeople db s.principal.companyId input = true) :
    ReferencesAgree (JobService.update db s now id input).2 := by
  apply attempt_keeps ReferencesAgree agree
  intro _ got
  apply attempt_keeps ReferencesAgree agree
  intro _ valid
  rw [orNotFound_after]
  apply committed_keeps ReferencesAgree agree
  intro row after updated
  obtain ⟨rfl, written⟩ := checkedChange_ok updated
  apply agree_jobs agree
  · intro company job there
    exact there.update fun _ => rfl
  · apply Table.all_update agree.jobs
    intro job member matched
    have passed := written job member matched
    have people := own (by simp [writes, got, inDomain_ok valid, passed, Except.isOk, Except.toBool])
    rw [Bool.and_eq_true, decide_eq_true_eq, decide_eq_true_eq] at matched
    exact people_own passed people matched.2 rfl rfl

theorem primarySupervisor_mem {pairs : List (UserId × Bool)} {user : UserId}
    (primary : JobStore.primarySupervisor pairs = some user) : ∃ flag, (user, flag) ∈ pairs := by
  unfold JobStore.primarySupervisor at primary
  obtain ⟨pair, chosen, rfl⟩ := Option.map_eq_some_iff.mp primary
  cases marked : pairs.find? (·.2) with
  | some first =>
    rw [marked, Option.some_or] at chosen
    cases chosen
    exact ⟨pair.2, List.mem_of_find?_eq_some marked⟩
  | none =>
    rw [marked, Option.none_or] at chosen
    exact ⟨pair.2, List.mem_of_head? chosen⟩

theorem mem_assignmentsOf {company : CompanyId} {job : JobId} {assignment : JobAssignmentRow}
    (listed : assignment ∈ JobStore.assignmentsOf db company job) :
    assignment ∈ db.jobAssignments.rows ∧ assignment.jobId = job := by
  have chosen := (List.perm_insertionSort _ _).mem_iff.mp listed
  simp only [Table.mem_select, Bool.and_eq_true, decide_eq_true_eq] at chosen
  exact ⟨chosen.1, chosen.2.1⟩

/-- The mirrored supervisor is assigned to the job, so it is one of the job's company. -/
theorem sync_agrees {job : JobId} (agree : ReferencesAgree db) :
    ReferencesAgree (JobStore.syncPrimarySupervisor db s.principal.companyId now job).2 := by
  apply agree_jobs agree
  · intro company id there
    exact there.update fun _ => rfl
  · apply Table.all_update agree.jobs
    intro row member matched
    rw [Bool.and_eq_true, decide_eq_true_eq, decide_eq_true_eq] at matched
    constructor
    · exact (agree.jobs row member).1
    · intro user mirrored
      obtain ⟨flag, listed⟩ := primarySupervisor_mem mirrored
      obtain ⟨assignment, chosen, pair⟩ := List.mem_map.mp listed
      cases pair
      obtain ⟨there, named⟩ := mem_assignmentsOf chosen
      obtain ⟨company, ofJob, ofUser⟩ := agree.assignments assignment there
      have own : JobOf db row.companyId row.id := Table.has_of_mem member
      rw [matched.1, ← named] at own
      rw [← own.unique ofJob] at ofUser
      exact ofUser

theorem clearPrimary_agrees {job : JobId} (agree : ReferencesAgree db) :
    ReferencesAgree (JobStore.clearPrimary db s.principal.companyId job) := by
  apply agree_assignments agree
  apply Table.all_update agree.assignments
  intro assignment member _
  exact agree.assignments assignment member

theorem addAssignment_agrees {job : JobId} {user : UserId} {primary : Bool} (agree : ReferencesAgree db)
    (own : writes db ⟨now, s, .addAssignment job user primary⟩ = true → ownUser db s.principal.companyId user = true) :
    ReferencesAgree (JobService.addAssignment db s now job user primary).2 := by
  apply attempt_keeps ReferencesAgree agree
  intro row got
  apply committed_keeps ReferencesAgree agree
  intro listed after added
  have ofJob := jobOf_sees (getJob_ok_iff.mp ⟨row, got⟩)
  simp only [JobStore.addAssignment] at added
  split at added
  · cases added
  · next written =>
    cases added
    simp only [firstViolation_cons] at written
    have ofUser := userOf_own written.2.1 (own (by simp [writes, got, Except.isOk, Except.toBool]))
    apply sync_agrees
    split
    · have cleared : ReferencesAgree (JobStore.clearPrimary db s.principal.companyId job) := clearPrimary_agrees agree
      exact agree_assignments cleared (Table.all_insert cleared.assignments ⟨_, ofJob, ofUser⟩)
    · exact agree_assignments agree (Table.all_insert agree.assignments ⟨_, ofJob, ofUser⟩)

theorem createAllocation_agrees {input : AllocationInput} (agree : ReferencesAgree db)
    (own : writes db ⟨now, s, .createAllocation input⟩ = true → ownTargets db s.principal.companyId input = true) :
    ReferencesAgree (SchedulerService.createAllocation db s input).2 := by
  apply attempt_keeps ReferencesAgree agree
  intro _ valid
  apply attempt_keeps ReferencesAgree agree
  intro _ visible
  apply attempt_keeps ReferencesAgree agree
  intro _ available
  apply committed_keeps ReferencesAgree agree
  intro row after created
  obtain ⟨written, rfl⟩ := insertRow_ok created
  have targets := own (by simp [writes, books, inDomain_ok valid, visible, available, written, Except.isOk, Except.toBool])
  apply agree_allocations agree
  exact Table.all_insert agree.allocations (targets_own written visible targets rfl rfl rfl rfl)

theorem updateAllocation_agrees {id : SchedulerAllocationId} {input : AllocationInput} (agree : ReferencesAgree db)
    (own : writes db ⟨now, s, .updateAllocation id input⟩ = true → ownTargets db s.principal.companyId input = true) :
    ReferencesAgree (SchedulerService.updateAllocation db s id input).2 := by
  apply attempt_keeps ReferencesAgree agree
  intro _ valid
  apply attempt_keeps ReferencesAgree agree
  intro _ visible
  apply attempt_keeps ReferencesAgree agree
  intro _ available
  rw [orNotFound_after]
  apply committed_keeps ReferencesAgree agree
  intro row after updated
  obtain ⟨rfl, written⟩ := checkedChange_ok updated
  apply agree_allocations agree
  apply Table.all_update agree.allocations
  intro allocation member matched
  have passed := written allocation member matched
  rw [Bool.and_eq_true, decide_eq_true_eq, decide_eq_true_eq] at matched
  have there : db.schedulerAllocations.reach (·.companyId = s.principal.companyId) id = some allocation :=
    Table.reach_eq_some_iff.mpr ⟨Table.find_eq_some_iff.mpr ⟨member, matched.1⟩, decide_eq_true matched.2⟩
  have targets := own
    (by simp [writes, books, inDomain_ok valid, visible, available, passed, there, Except.isOk, Except.toBool])
  exact targets_own passed visible targets matched.2 rfl rfl rfl

theorem createAbsence_agrees {input : AbsenceInput} (agree : ReferencesAgree db)
    (own : writes db ⟨now, s, .createAbsence input⟩ = true → ownWorker db s.principal.companyId input.workerId = true) :
    ReferencesAgree (SchedulerService.createAbsence db s input).2 := by
  apply attempt_keeps ReferencesAgree agree
  intro _ valid
  apply committed_keeps ReferencesAgree agree
  intro row after created
  obtain ⟨written, rfl⟩ := insertRow_ok created
  have worker := own (by simp [writes, inDomain_ok valid, written, Except.isOk, Except.toBool])
  apply agree_absences agree
  exact Table.all_insert agree.absences (worker_own written worker rfl rfl)

theorem updateAbsence_agrees {id : SchedulerAbsenceId} {input : AbsenceInput} (agree : ReferencesAgree db)
    (own : writes db ⟨now, s, .updateAbsence id input⟩ = true → ownWorker db s.principal.companyId input.workerId = true) :
    ReferencesAgree (SchedulerService.updateAbsence db s id input).2 := by
  apply attempt_keeps ReferencesAgree agree
  intro _ valid
  rw [orNotFound_after]
  apply committed_keeps ReferencesAgree agree
  intro row after updated
  obtain ⟨rfl, written⟩ := checkedChange_ok updated
  apply agree_absences agree
  apply Table.all_update agree.absences
  intro absence member matched
  have passed := written absence member matched
  rw [Bool.and_eq_true, decide_eq_true_eq, decide_eq_true_eq] at matched
  have there : db.schedulerAbsences.reach (·.companyId = s.principal.companyId) id = some absence :=
    Table.reach_eq_some_iff.mpr ⟨Table.find_eq_some_iff.mpr ⟨member, matched.1⟩, decide_eq_true matched.2⟩
  have worker := own (by simp [writes, inDomain_ok valid, passed, there, Except.isOk, Except.toBool])
  exact worker_own passed worker matched.2 rfl

/-- What one call preserves. -/
theorem serve_agrees {r : Request} (agree : ReferencesAgree db) (own : namesOwn db r = true) :
    ReferencesAgree (serve db r) := by
  have own : writes db r = true → ownIds db r = true := by
    intro written
    simpa [namesOwn, written] using own
  obtain ⟨now, session, call⟩ := r
  cases call with
  | createJob input => exact createJob_agrees agree own
  | updateJob id input => exact updateJob_agrees agree own
  | addAssignment job user primary => exact addAssignment_agrees agree own
  | createAllocation input => exact createAllocation_agrees agree own
  | updateAllocation id input => exact updateAllocation_agrees agree own
  | createAbsence input => exact createAbsence_agrees agree own
  | updateAbsence id input => exact updateAbsence_agrees agree own

end Steps

/-- References never cross companies as long as no client gets another company's user, worker or maintenance job into
    a row. -/
theorem references_agree (db : Db) (reached : (tenants namesOwn).Reachable db) : ReferencesAgree db := by
  apply Reachable.invariant ReferencesAgree reached
  · intro start agree
    exact agree
  · intro before after request agree own served
    cases served
    exact serve_agrees agree own

/- Two companies with one user each; the manager of the first creates a job. -/

def userOf (id : Int) (company : CompanyId) (inRange : DecimalText.InI32 id) : UserRow :=
  ⟨id, company, text "Alex", text "alex@example.com", text "MANAGER", none, true, none, none, inRange⟩

def twoCompanies : Db :=
  { Db.empty with users := ⟨[userOf 1 1 (by decide), userOf 2 2 (by decide)], 3, by decide, by decide⟩ }

def managerOfFirst : SessionUser where
  user := ⟨1, 1, text "Alex", text "alex@example.com", .manager, none, true, none⟩
  principal := ⟨1, 1, .manager⟩
  permissions := []
  entitlement := ⟨true, true, true, none⟩

def jobManagedBy (user : UserId) : Request where
  now := 0
  session := managerOfFirst
  call := .createJob ⟨[], text "J-1", text "Smith", none, none, text "1 St", none, none, none, some user, none, none,
    none, none, none, none⟩

theorem twoCompanies_agree : ReferencesAgree twoCompanies where
  jobs := fun _ member => nomatch member
  assignments := fun _ member => nomatch member
  allocations := fun _ member => nomatch member
  absences := fun _ member => nomatch member

theorem references_agree_own_manager : (serve twoCompanies (jobManagedBy 1)).jobs.rows.length = 1 ∧
    ReferencesAgree (serve twoCompanies (jobManagedBy 1)) := by
  have reached : (tenants namesOwn).Reachable (serve twoCompanies (jobManagedBy 1)) := by
    have run : (tenants namesOwn).execute twoCompanies [jobManagedBy 1] =
        some (serve twoCompanies (jobManagedBy 1)) := rfl
    exact execute_reachable twoCompanies_agree run
  exact ⟨rfl, references_agree _ reached⟩

theorem foreign_manager_stored : ∃ db, (tenants fun _ _ => true).Reachable db ∧ ¬ ReferencesAgree db := by
  have run : (tenants fun _ _ => true).execute twoCompanies [jobManagedBy 2] =
      some (serve twoCompanies (jobManagedBy 2)) := rfl
  have stored : (serve twoCompanies (jobManagedBy 2)).jobs.rows.map (fun j => (j.companyId, j.managerId)) =
      [(1, some 2)] := by rfl
  refine ⟨_, execute_reachable twoCompanies_agree run, ?_⟩
  intro agree
  obtain ⟨job, member, columns⟩ := List.mem_map.mp (stored ▸ List.mem_singleton_self ((1 : Int), some (2 : Int)))
  obtain ⟨row, found, same⟩ := (agree.jobs job member).1 2 (congrArg Prod.snd columns)
  rw [show job.companyId = 1 from congrArg Prod.fst columns] at same
  cases found
  cases same

end References
