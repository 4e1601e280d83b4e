import PmKonstruct.Identity.AuthService
import PmKonstruct.Store.Schema

/- What a session may touch: the tenant policies of the database and the job visibility rule laid over them. -/
namespace RowSecurity
open DomainErrors Accounts Schema KeyedTable
open AuthService (SessionUser)

/- Tenant policies. A row without a company of its own is reached through its parents; foreign keys and
   cascades do not consult the policies. -/

section Policies
variable (db : Db) (scope : CompanyId)

def jobInScope (job : JobId) : Bool := (db.jobs.find job).any (·.companyId = scope)

def entryInScope (entry : DiaryEntryId) : Bool := (db.siteDiary.find entry).any fun e => jobInScope db scope e.jobId

def noteInScope (note : DiaryNoteId) : Bool := (db.diaryNotes.find note).any fun n => entryInScope db scope n.diaryEntryId

def formInScope (form : InspectionFormId) : Bool := (db.inspectionForms.find form).any (·.companyId = scope)

end Policies

/- Job visibility. An assignment of a job in scope is itself in scope, so its policy adds nothing. -/

section Jobs
variable (db : Db)

def assigned (job : JobId) (viewer : UserId) : Bool :=
  db.jobAssignments.rows.any fun a => a.jobId = job && a.userId = viewer

def supervises (viewer : UserId) (job : JobRow) : Bool := job.supervisorId = some viewer || assigned db job.id viewer

def assertVisible (scope : CompanyId) (viewer : UserId) (seesAll : Bool) (job : JobId) : Except PortError Unit :=
  match db.jobs.reach (·.companyId = scope) job with
  | none => .error .notFound
  | some row => if seesAll || supervises db viewer row then .ok () else .error .notFound

def findJob (scope : CompanyId) (viewer : UserId) (seesAll : Bool) (job : JobId) : Except PortError (Option JobRow) :=
  match assertVisible db scope viewer seesAll job with
  | .ok _ => .ok (db.jobs.reach (·.companyId = scope) job)
  | .error .notFound => .ok none
  | .error e => .error e

def visibleJobIds (scope : CompanyId) (viewer : UserId) : List JobId :=
  (db.jobs.select fun j => j.companyId = scope && supervises db viewer j).map (·.id)

variable (s : SessionUser)

/-- `none` leaves the jobs unrestricted; an empty list matches nothing. -/
def visibleJobs : Option (List JobId) :=
  if s.user.role.seesAllCompanyJobs then none else some (visibleJobIds db s.principal.companyId s.user.id)

def getJob (id : JobId) : Except AppError JobRow :=
  match findJob db s.principal.companyId s.user.id s.user.role.seesAllCompanyJobs id with
  | .error e => .error (.port e)
  | .ok none => .error (.domain (.notFound "Job"))
  | .ok (some job) => .ok job

/-- A job of the session's company that its role, its supervision or an assignment opens to it. -/
def SeesJob (job : JobId) : Prop :=
  ∃ row, db.jobs.find job = some row ∧ row.companyId = s.principal.companyId ∧
    (s.user.role.seesAllCompanyJobs || supervises db s.user.id row) = true

def SeesEntry (entry : DiaryEntryId) : Prop :=
  ∃ row, db.siteDiary.find entry = some row ∧ SeesJob db s row.jobId

end Jobs

variable {db : Db} {s : SessionUser} {job : JobId}

theorem jobInScope_iff {scope : CompanyId} :
    jobInScope db scope job = true ↔ ∃ row, db.jobs.find job = some row ∧ row.companyId = scope := by
  simp [jobInScope, Option.any_eq_true]

theorem getJob_sees {row : JobRow} (found : db.jobs.find job = some row)
    (owned : row.companyId = s.principal.companyId)
    (opened : (s.user.role.seesAllCompanyJobs || supervises db s.user.id row) = true) : getJob db s job = .ok row := by
  have reached : db.jobs.reach (·.companyId = s.principal.companyId) job = some row :=
    Table.reach_eq_some_iff.mpr ⟨found, by simpa using owned⟩
  simp only [getJob, findJob, assertVisible, reached, opened, if_true]

theorem getJob_hidden (hidden : ¬ SeesJob db s job) : getJob db s job = .error (.domain (.notFound "Job")) := by
  cases reached : db.jobs.reach (·.companyId = s.principal.companyId) job with
  | none => simp only [getJob, findJob, assertVisible, reached]
  | some row =>
    obtain ⟨found, owned⟩ := Table.reach_eq_some_iff.mp reached
    have closed : ¬ (s.user.role.seesAllCompanyJobs || supervises db s.user.id row) = true := by
      intro opened
      exact hidden ⟨row, found, by simpa using owned, opened⟩
    simp only [getJob, findJob, assertVisible, reached, if_neg closed]

theorem getJob_ok_iff : (∃ row, getJob db s job = .ok row) ↔ SeesJob db s job := by
  constructor
  · intro ⟨row, ok⟩
    by_contra hidden
    rw [getJob_hidden hidden] at ok
    cases ok
  · intro ⟨row, found, owned, opened⟩
    exact ⟨row, getJob_sees found owned opened⟩

theorem mem_visibleJobIds : job ∈ visibleJobIds db s.principal.companyId s.user.id ↔
    ∃ row, db.jobs.find job = some row ∧ row.companyId = s.principal.companyId ∧ supervises db s.user.id row = true := by
  simp only [visibleJobIds, List.mem_map, Table.mem_select, Bool.and_eq_true, decide_eq_true_eq]
  constructor
  · rintro ⟨row, ⟨member, owned, opened⟩, same⟩
    exact ⟨row, Table.find_eq_some_iff.mpr ⟨member, same⟩, owned, opened⟩
  · rintro ⟨row, found, owned, opened⟩
    obtain ⟨member, same⟩ := Table.find_eq_some_iff.mp found
    exact ⟨row, ⟨member, owned, opened⟩, same⟩

/-- The two ways of asking whether a job is visible, by lookup and by the list of ids, agree. -/
theorem admits_iff_sees : (jobInScope db s.principal.companyId job &&
    (visibleJobs db s).all fun ids => decide (job ∈ ids)) = true ↔ SeesJob db s job := by
  unfold visibleJobs
  cases everything : s.user.role.seesAllCompanyJobs with
  | true =>
    simp only [if_true, Option.all_none, Bool.and_true, jobInScope_iff, SeesJob, everything, Bool.true_or, and_true]
  | false =>
    simp only [Bool.false_eq_true, if_false, Option.all_some, Bool.and_eq_true, decide_eq_true_eq, mem_visibleJobIds,
      jobInScope_iff, SeesJob, everything, Bool.false_or]
    constructor
    · intro ⟨_, sees⟩
      exact sees
    · intro ⟨row, found, owned, opened⟩
      exact ⟨⟨row, found, owned⟩, row, found, owned, opened⟩

end RowSecurity
