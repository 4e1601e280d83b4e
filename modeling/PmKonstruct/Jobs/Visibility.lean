import Mathlib.Data.Finset.Dedup
import Mathlib.Data.Finset.Lattice.Basic
import PmKonstruct.Jobs.JobStore
import PmKonstruct.Users.UserStore

/- Which jobs a user may see. The rule is written down as a set of ids, in three queries on jobs, and once more from
   the job's side as the list of those who are told of it. -/
namespace Visibility
open PlainText DomainErrors Accounts AuthStore Schema KeyedTable RowSecurity
open JobStore (JobFilter listVisible matchesFilter)
open UserStore (emailRecipientsForJob)

/-- `allInCompany` is every job of the tenant. -/
inductive JobVisibility where
  | allInCompany
  | restricted (ids : Finset JobId)

/-- Assignments together with the jobs whose primary supervisor the user is. -/
def JobVisibility.resolve (role : Role) (assigned primarySupervisorOf : List JobId) : JobVisibility :=
  if role.seesAllCompanyJobs then .allInCompany else .restricted (assigned.toFinset ∪ primarySupervisorOf.toFinset)

def JobVisibility.allows : JobVisibility → JobId → Bool
  | .allInCompany, _ => true
  | .restricted ids, job => job ∈ ids

def JobVisibility.assertAllows (visibility : JobVisibility) (job : JobId) : Except DomainError Unit :=
  if visibility.allows job then .ok () else .error (.notFound "Job")

section Ids
variable (db : Db) (scope : CompanyId) (user : UserId)

/-- The ids the rule is given for a user. -/
def assignedIds : List JobId :=
  (db.jobAssignments.select fun a => a.userId = user && jobInScope db scope a.jobId).map (·.jobId)

def primarySupervisorIds : List JobId :=
  (db.jobs.select fun j => j.companyId = scope && j.supervisorId = some user).map (·.id)

end Ids

/-- What the schema promises of the users: `users_role_check` and `users_email_unique`. -/
structure Constrained (db : Db) : Prop where
  roles : ∀ u ∈ db.users.rows, (Role.parse u.role).isSome = true
  emails : db.users.Unique (·.email)

def unfiltered : JobFilter := ⟨none, none, none⟩

section Rule
variable {db : Db} {scope : CompanyId} {user : UserRow} {job : JobRow} {role : Role}

/-- A job of the company is seen by those who see all of them, supervise it or are assigned to it. -/
def sees (db : Db) (role : Role) (user : UserId) (job : JobRow) : Bool := role.seesAllCompanyJobs || supervises db user job

theorem job_found (there : job ∈ db.jobs.rows) : db.jobs.find job.id = some job := Table.find_eq_some_iff.mpr ⟨there, rfl⟩

theorem job_reached (there : job ∈ db.jobs.rows) (owned : job.companyId = scope) :
    db.jobs.reach (·.companyId = scope) job.id = some job :=
  Table.reach_eq_some_iff.mpr ⟨job_found there, decide_eq_true owned⟩

theorem findJob_iff (there : job ∈ db.jobs.rows) (owned : job.companyId = scope) :
    findJob db scope user.id role.seesAllCompanyJobs job.id = .ok (some job) ↔ sees db role user.id job = true := by
  rw [findJob, assertVisible, job_reached there owned]
  constructor
  · intro found
    by_contra hidden
    rw [sees] at hidden
    simp [hidden] at found
  · intro visible
    rw [sees] at visible
    simp only [visible, if_true]

theorem mem_visibleJobIds_iff (there : job ∈ db.jobs.rows) (owned : job.companyId = scope) :
    job.id ∈ visibleJobIds db scope user.id ↔ supervises db user.id job = true := by
  rw [visibleJobIds, List.mem_map]
  constructor
  · rintro ⟨row, seen, same⟩
    obtain ⟨member, picked⟩ := Table.mem_select.mp seen
    rw [Table.key_inj member there same] at picked
    exact (Bool.and_eq_true_iff.mp picked).2
  · intro visible
    exact ⟨job, Table.mem_select.mpr ⟨there, Bool.and_eq_true_iff.mpr ⟨decide_eq_true owned, visible⟩⟩, rfl⟩

theorem assigned_iff : assigned db job.id user.id = true ↔
    ∃ a ∈ db.jobAssignments.rows, a.jobId = job.id ∧ a.userId = user.id := by
  simp [assigned]

theorem mem_assignedIds (there : job ∈ db.jobs.rows) (owned : job.companyId = scope) :
    job.id ∈ assignedIds db scope user.id ↔ assigned db job.id user.id = true := by
  have visible : jobInScope db scope job.id = true := jobInScope_iff.mpr ⟨job, job_found there, owned⟩
  rw [assignedIds, List.mem_map, assigned_iff]
  constructor
  · rintro ⟨a, seen, same⟩
    obtain ⟨member, picked⟩ := Table.mem_select.mp seen
    exact ⟨a, member, same, of_decide_eq_true (Bool.and_eq_true_iff.mp picked).1⟩
  · rintro ⟨a, member, same, own⟩
    refine ⟨a, Table.mem_select.mpr ⟨member, Bool.and_eq_true_iff.mpr ⟨decide_eq_true own, ?_⟩⟩, same⟩
    rw [same]
    exact visible

theorem mem_primarySupervisorIds (there : job ∈ db.jobs.rows) (owned : job.companyId = scope) :
    job.id ∈ primarySupervisorIds db scope user.id ↔ job.supervisorId = some user.id := by
  rw [primarySupervisorIds, List.mem_map]
  constructor
  · rintro ⟨row, seen, same⟩
    obtain ⟨member, picked⟩ := Table.mem_select.mp seen
    rw [Table.key_inj member there same] at picked
    exact of_decide_eq_true (Bool.and_eq_true_iff.mp picked).2
  · intro supervised
    refine ⟨job, Table.mem_select.mpr ⟨there, ?_⟩, rfl⟩
    exact Bool.and_eq_true_iff.mpr ⟨decide_eq_true owned, decide_eq_true supervised⟩

theorem allows_iff (there : job ∈ db.jobs.rows) (owned : job.companyId = scope) :
    (JobVisibility.resolve role (assignedIds db scope user.id) (primarySupervisorIds db scope user.id)).allows job.id = true ↔
      sees db role user.id job = true := by
  rw [JobVisibility.resolve, sees]
  split
  · next all => simp [JobVisibility.allows, all]
  · next restricted =>
    simp only [JobVisibility.allows, decide_eq_true_eq, Finset.mem_union, List.mem_toFinset, restricted, Bool.false_or,
      mem_assignedIds there owned, mem_primarySupervisorIds there owned, supervises, Bool.or_eq_true]
    exact or_comm

theorem sees_all_iff {stored : Text} (parsed : Role.parse stored = some role) :
    role.seesAllCompanyJobs = true ↔ stored = text "MANAGER" ∨ stored = text "OFFICE" := by
  rw [Role.parse] at parsed
  split at parsed
  · next manager =>
    cases parsed
    exact ⟨fun _ => .inl manager, fun _ => rfl⟩
  · next notManager =>
    split at parsed
    · next supervisor =>
      cases parsed
      subst supervisor
      decide
    · split at parsed
      · next office =>
        cases parsed
        exact ⟨fun _ => .inr office, fun _ => rfl⟩
      · cases parsed

theorem mem_recipients {collation : Text → Text → Bool} (constrained : Constrained db) (known : user ∈ db.users.rows)
    (member : user.companyId = scope) (parsed : Role.parse user.role = some role) (active : user.active = true)
    (there : job ∈ db.jobs.rows) (owned : job.companyId = scope) :
    user.email ∈ emailRecipientsForJob db scope collation job.id ↔ sees db role user.id job = true := by
  have visible : jobInScope db scope job.id = true := jobInScope_iff.mpr ⟨job, job_found there, owned⟩
  have told : sees db role user.id job = true ↔ (user.role = text "MANAGER" ∨ user.role = text "OFFICE") ∨
      job.supervisorId = some user.id ∨ assigned db job.id user.id = true := by
    rw [← sees_all_iff parsed, sees, supervises, Bool.or_eq_true, Bool.or_eq_true, decide_eq_true_eq]
  rw [emailRecipientsForJob, List.mem_insertionSort, List.mem_map, told]
  simp only [job_reached there owned, Option.bind_some, visible, Bool.true_and, Table.mem_select, Bool.and_eq_true,
    Bool.or_eq_true, decide_eq_true_eq]
  constructor
  · rintro ⟨other, ⟨present, -, opened⟩, same⟩
    rw [constrained.emails other present user known same] at opened
    rcases opened with ((manager | office) | supervisor) | assigned
    · exact .inl (.inl manager)
    · exact .inl (.inr office)
    · exact .inr (.inl supervisor)
    · exact .inr (.inr assigned)
  · intro opened
    refine ⟨user, ⟨known, ⟨member, active⟩, ?_⟩, rfl⟩
    rcases opened with (manager | office) | supervisor | assigned
    · exact .inl (.inl (.inl manager))
    · exact .inl (.inl (.inr office))
    · exact .inl (.inr supervisor)
    · exact .inr assigned

theorem matches_unfiltered {ilike : Text → Text → Bool} :
    matchesFilter ilike unfiltered job = decide (job.status ≠ .archived) := by
  simp [matchesFilter, unfiltered]

theorem mem_listVisible {ilike : Text → Text → Bool} :
    job ∈ listVisible db scope ilike user.id role.seesAllCompanyJobs unfiltered ↔
    job ∈ db.jobs.rows ∧ job.companyId = scope ∧ sees db role user.id job = true ∧ job.status ≠ .archived := by
  rw [listVisible, List.mem_insertionSort, Table.mem_select, matches_unfiltered, sees, Bool.and_eq_true, Bool.and_eq_true,
    decide_eq_true_eq, decide_eq_true_eq, and_assoc]

theorem findJob_unseen {id : JobId} (absent : jobInScope db scope id = false) :
    findJob db scope user.id role.seesAllCompanyJobs id = .ok none ∧ id ∉ visibleJobIds db scope user.id := by
  constructor
  · cases reached : db.jobs.reach (·.companyId = scope) id with
    | none => simp only [findJob, assertVisible, reached]
    | some row =>
      obtain ⟨found, owned⟩ := Table.reach_eq_some_iff.mp reached
      rw [jobInScope_iff.mpr ⟨row, found, of_decide_eq_true owned⟩] at absent
      cases absent
  · intro listed
    obtain ⟨row, seen, same⟩ := List.mem_map.mp listed
    obtain ⟨member, picked⟩ := Table.mem_select.mp seen
    have owned := of_decide_eq_true (Bool.and_eq_true_iff.mp picked).1
    rw [jobInScope_iff.mpr ⟨row, Table.find_eq_some_iff.mpr ⟨member, same⟩, owned⟩] at absent
    cases absent

end Rule

/-- For every user of a company and every job of it. Of an id without a job there, the lookup and the list of ids say
    the same. -/
theorem visibility_agrees (db : Db) (constrained : Constrained db) (scope : CompanyId)
    (ilike collation : Text → Text → Bool) (user : UserRow) (known : user ∈ db.users.rows)
    (member : user.companyId = scope) (role : Role) (parsed : Role.parse user.role = some role) :
    (∀ job ∈ db.jobs.rows, job.companyId = scope →
      (findJob db scope user.id role.seesAllCompanyJobs job.id = .ok (some job) ↔
        role.seesAllCompanyJobs = true ∨ job.id ∈ visibleJobIds db scope user.id) ∧
      (findJob db scope user.id role.seesAllCompanyJobs job.id = .ok (some job) ↔
        (JobVisibility.resolve role (assignedIds db scope user.id) (primarySupervisorIds db scope user.id)).allows
          job.id = true) ∧
      (user.active = true → (findJob db scope user.id role.seesAllCompanyJobs job.id = .ok (some job) ↔
        user.email ∈ emailRecipientsForJob db scope collation job.id))) ∧
    (∀ id, jobInScope db scope id = false →
      findJob db scope user.id role.seesAllCompanyJobs id = .ok none ∧ id ∉ visibleJobIds db scope user.id) ∧
    ∀ job, job ∈ listVisible db scope ilike user.id role.seesAllCompanyJobs unfiltered ↔
      job ∈ db.jobs.rows ∧ job.companyId = scope ∧ job.status ≠ .archived ∧
        findJob db scope user.id role.seesAllCompanyJobs job.id = .ok (some job) := by
  refine ⟨fun job there owned => ⟨?_, ?_, fun active => ?_⟩, fun id absent => findJob_unseen absent, fun job => ?_⟩
  · rw [findJob_iff there owned, mem_visibleJobIds_iff there owned, sees, Bool.or_eq_true]
  · rw [findJob_iff there owned, allows_iff there owned]
  · rw [findJob_iff there owned, mem_recipients constrained known member parsed active there owned]
  · rw [mem_listVisible]
    constructor
    · rintro ⟨there, owned, visible, current⟩
      exact ⟨there, owned, current, (findJob_iff there owned).mpr visible⟩
    · rintro ⟨there, owned, current, found⟩
      exact ⟨there, owned, (findJob_iff there owned).mp found, current⟩

/- A supervisor who is assigned to one job of two. -/

def oneAssigned : Db :=
  { Db.empty with
    users := .of [.plain 8 1 (text "Tom") (text "tom@example.com") (text "SUPERVISOR") (Eq.refl true)] 9 (Eq.refl true)
    jobs := .of [⟨1, 1, [], text "J1", text "Smith", none, none, text "1 St", .active, none, none, none, none, none, none,
        none, none, none, 0, 0⟩,
      ⟨2, 1, [], text "J2", text "Jones", none, none, text "2 St", .active, none, none, none, none, none, none, none,
        none, none, 0, 0⟩] 3 (Eq.refl true)
    jobAssignments := .of [⟨1, 2, 8, true, 0⟩] 2 (Eq.refl true) }

theorem oneAssigned_constrained : Constrained oneAssigned := by
  refine ⟨by decide, fun a left b right _ => ?_⟩
  rw [List.mem_singleton.mp left, List.mem_singleton.mp right]

theorem assigned_job_seen : visibleJobIds oneAssigned 1 8 = [2] ∧
    text "tom@example.com" ∉ emailRecipientsForJob oneAssigned 1 (fun _ _ => true) 1 := by
  have agrees := visibility_agrees oneAssigned oneAssigned_constrained 1 (fun _ _ => false) (fun _ _ => true)
    ⟨8, 1, text "Tom", text "tom@example.com", text "SUPERVISOR", none, true, none, none, by decide⟩
    (List.mem_singleton_self _) rfl .supervisor (by decide)
  have listed : visibleJobIds oneAssigned 1 8 = [2] := by decide
  refine ⟨listed, fun told => ?_⟩
  obtain ⟨byId, -, byEmail⟩ := agrees.1 _ (List.mem_cons_self) rfl
  have seen := byId.mp ((byEmail rfl).mpr told)
  rcases seen with all | visible
  · cases all
  · rw [listed] at visible
    revert visible
    decide

end Visibility
