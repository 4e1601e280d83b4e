import PmKonstruct.Jobs.JobService
import PmKonstruct.Library.RowOrder
import PmKonstruct.Library.TransitionRuns
import PmKonstruct.Users.UsersService

/- The supervisor column of a job repeats what its assignments say. The requests on assignments rewrite it; editing
   a job and deleting a user write it, or the assignments, on their own. -/
namespace SupervisorMirror
open PlainText DomainErrors Accounts AuthStore Schema KeyedTable RowSecurity Requests TransitionRuns RowOrder
open JobStore (JobInput primarySupervisor assignmentsOf syncPrimarySupervisor clearPrimary assignmentIs)
open AuthService (SessionUser)

inductive Call where
  | createJob (input : JobInput)
  | updateJob (id : JobId) (input : JobInput)
  | addAssignment (id : JobId) (user : UserId) (primary : Bool)
  | removeAssignment (id : JobId) (user : UserId)
  | setPrimary (id : JobId) (user : UserId)
  | deleteUser (id : UserId)
  deriving DecidableEq, Repr

structure Request where
  now : Instant
  session : SessionUser
  call : Call

def serve (db : Db) (r : Request) : Db :=
  match r.call with
  | .createJob input => (JobService.create db r.session r.now input).2
  | .updateJob id input => (JobService.update db r.session r.now id input).2
  | .addAssignment id user primary => (JobService.addAssignment db r.session r.now id user primary).2
  | .removeAssignment id user => (JobService.removeAssignment db r.session r.now id user).2
  | .setPrimary id user => (JobService.setPrimary db r.session r.now id user).2
  | .deleteUser id => (UsersService.delete db r.session id).2

section Keys
variable (t : Table JobAssignmentRow)

/-- `uq_job_assignments_job_user`. -/
def PairsDistinct : Prop := ∀ a ∈ t.rows, ∀ b ∈ t.rows, a.jobId = b.jobId → a.userId = b.userId → a = b

/-- `uq_job_assignments_single_primary`. -/
def SinglePrimary : Prop := ∀ a ∈ t.rows, ∀ b ∈ t.rows, a.jobId = b.jobId → a.isPrimary = true →
  b.isPrimary = true → a = b

def NonePrimary (job : JobId) : Prop := ∀ a ∈ t.rows, a.jobId = job → a.isPrimary = false

end Keys

section Mirror
variable (db : Db)

/-- The assignments of a job, ordered by the time they were made. -/
def ofJob (job : JobId) : List JobAssignmentRow :=
  (db.jobAssignments.select fun a => a.jobId = job).insertionSort fun a b => a.assignedAt ≤ b.assignedAt

def mirror (job : JobId) : Option UserId := primarySupervisor ((ofJob db job).map fun a => (a.userId, a.isPrimary))

def MirroredJob (job : JobRow) : Prop := ofJob db job.id ≠ [] → job.supervisorId = mirror db job.id

def Mirrored (company : CompanyId) : Prop := ∀ job ∈ db.jobs.rows, job.companyId = company → MirroredJob db job

/-- What the keys of the assignments promise of every stored state. -/
structure Constrained : Prop where
  jobs : ∀ a ∈ db.jobAssignments.rows, (db.jobs.find a.jobId).isSome = true
  pairs : PairsDistinct db.jobAssignments
  primaries : SinglePrimary db.jobAssignments

/-- Every job of the company with an assignment names its mirrored supervisor, and one assignment at most is
    primary. -/
def SupervisorAgrees (company : CompanyId) : Prop := ∀ job ∈ db.jobs.rows, job.companyId = company →
  ofJob db job.id ≠ [] → job.supervisorId = mirror db job.id ∧
    ∀ a ∈ ofJob db job.id, ∀ b ∈ ofJob db job.id, a.isPrimary = true → b.isPrimary = true → a = b

end Mirror

/-- The edit passes every check on the way to the row. -/
def edits (db : Db) (s : SessionUser) (id : JobId) (input : JobInput) : Bool :=
  (getJob db s id).isOk && input.normalised.validate.isOk &&
    (JobStore.jobConstraint db s.principal.companyId (some id) input.normalised).isNone

def deletes (db : Db) (s : SessionUser) (id : UserId) : Bool := s.user.id ≠ id && (UsersService.get db s id).isOk

/-- A job with assignments is edited with the supervisor they give, and whoever is the supervisor of a job with
    assignments is deleted only as the last one assigned. -/
def keepsMirror (company : CompanyId) (db : Db) (r : Request) : Bool :=
  match r.call with
  | .updateJob id input => !edits db r.session id input || db.jobs.rows.all fun job =>
      job.id ≠ id || job.companyId ≠ company || (ofJob db id).isEmpty || input.supervisorId = mirror db id
  | .deleteUser id => !deletes db r.session id || db.jobs.rows.all fun job =>
      job.companyId ≠ company || job.supervisorId ≠ some id || (ofJob db job.id).all fun a => a.userId = id
  | _ => true

/-- Jobs, assignments and users under any sessions, from a state in which the company has no job. -/
def staffing (company : CompanyId) (allowed : Db → Request → Bool) : Machine Db Request where
  initial db := Constrained db ∧ ∀ job ∈ db.jobs.rows, job.companyId ≠ company
  step db r := some (serve db r)
  allowed := allowed

section Keys
variable {t : Table JobAssignmentRow} {p : JobAssignmentRow → Bool} {job : JobId} {user : UserId} {primary : Bool}
    {now : Instant}

/-- The statement that marks assignments as primary, or as not. -/
theorem mark_key (primary : Bool) (a : JobAssignmentRow) :
    Keyed.key ({ a with isPrimary := primary } : JobAssignmentRow) = Keyed.key a := rfl

def mark (t : Table JobAssignmentRow) (p : JobAssignmentRow → Bool) (primary : Bool) : Table JobAssignmentRow :=
  t.update p (fun a => { a with isPrimary := primary }) (mark_key primary)

def assign (t : Table JobAssignmentRow) (job : JobId) (user : UserId) (primary : Bool) (now : Instant) :
    Table JobAssignmentRow :=
  t.insert (fun id => ⟨id, job, user, primary, now⟩) fun _ => rfl

theorem mem_mark {a : JobAssignmentRow} (member : a ∈ (mark t p primary).rows) :
    ∃ old ∈ t.rows, a.jobId = old.jobId ∧ a.userId = old.userId ∧
      a = if p old then { old with isPrimary := primary } else old := by
  obtain ⟨old, there, made⟩ := Table.mem_update.mp member
  refine ⟨old, there, ?_, ?_, made⟩
  · rw [made]
    split <;> rfl
  · rw [made]
    split <;> rfl

theorem pairs_mark (pairs : PairsDistinct t) : PairsDistinct (mark t p primary) := by
  intro a left b right sameJob sameUser
  obtain ⟨oldA, thereA, jobA, userA, madeA⟩ := mem_mark left
  obtain ⟨oldB, thereB, jobB, userB, madeB⟩ := mem_mark right
  have same := pairs oldA thereA oldB thereB (jobA.symm.trans (sameJob.trans jobB)) (userA.symm.trans (sameUser.trans userB))
  rw [madeA, madeB, same]

theorem primaries_clear (primaries : SinglePrimary t) : SinglePrimary (mark t p false) := by
  intro a left b right sameJob primaryA primaryB
  obtain ⟨oldA, thereA, jobA, -, madeA⟩ := mem_mark left
  obtain ⟨oldB, thereB, jobB, -, madeB⟩ := mem_mark right
  split at madeA
  · rw [madeA] at primaryA
    cases primaryA
  · split at madeB
    · rw [madeB] at primaryB
      cases primaryB
    · subst madeA madeB
      exact primaries a thereA b thereB sameJob primaryA primaryB

theorem nonePrimary_clear (covers : ∀ a ∈ t.rows, a.jobId = job → p a = true) : NonePrimary (mark t p false) job := by
  intro a member own
  obtain ⟨old, there, sameJob, -, made⟩ := mem_mark member
  rw [made, if_pos (covers old there (sameJob.symm.trans own))]

/-- Among distinct pairs one assignment is promoted, in a job that had no primary. -/
theorem primaries_promote (pairs : PairsDistinct t) (primaries : SinglePrimary t) (none : NonePrimary t job)
    (one : ∀ a ∈ t.rows, p a = true → a.jobId = job ∧ a.userId = user) : SinglePrimary (mark t p true) := by
  intro a left b right sameJob primaryA primaryB
  obtain ⟨oldA, thereA, jobA, -, madeA⟩ := mem_mark left
  obtain ⟨oldB, thereB, jobB, -, madeB⟩ := mem_mark right
  have sameOld : oldA.jobId = oldB.jobId := jobA.symm.trans (sameJob.trans jobB)
  by_cases promotedA : p oldA = true
  · obtain ⟨inA, userA⟩ := one oldA thereA promotedA
    by_cases promotedB : p oldB = true
    · obtain ⟨inB, userB⟩ := one oldB thereB promotedB
      rw [madeA, madeB, pairs oldA thereA oldB thereB sameOld (userA.trans userB.symm)]
    · rw [if_neg promotedB] at madeB
      rw [madeB, none oldB thereB (sameOld.symm.trans inA)] at primaryB
      cases primaryB
  · rw [if_neg promotedA] at madeA
    by_cases promotedB : p oldB = true
    · rw [madeA, none oldA thereA (sameOld.trans (one oldB thereB promotedB).1)] at primaryA
      cases primaryA
    · rw [if_neg promotedB] at madeB
      rw [madeA] at primaryA ⊢
      rw [madeB] at primaryB ⊢
      exact primaries oldA thereA oldB thereB sameOld primaryA primaryB

theorem pairs_assign (pairs : PairsDistinct t) (new : ∀ a ∈ t.rows, a.jobId = job → a.userId ≠ user) :
    PairsDistinct (assign t job user primary now) := by
  intro a left b right sameJob sameUser
  rcases Table.mem_insert.mp left with oldA | rfl
  · rcases Table.mem_insert.mp right with oldB | rfl
    · exact pairs a oldA b oldB sameJob sameUser
    · exact absurd sameUser (new a oldA sameJob)
  · rcases Table.mem_insert.mp right with oldB | rfl
    · exact absurd sameUser.symm (new b oldB sameJob.symm)
    · rfl

theorem primaries_assign (primaries : SinglePrimary t) (none : primary = true → NonePrimary t job) :
    SinglePrimary (assign t job user primary now) := by
  intro a left b right sameJob primaryA primaryB
  rcases Table.mem_insert.mp left with oldA | rfl
  · rcases Table.mem_insert.mp right with oldB | rfl
    · exact primaries a oldA b oldB sameJob primaryA primaryB
    · rw [none primaryB a oldA sameJob] at primaryA
      cases primaryA
  · rcases Table.mem_insert.mp right with oldB | rfl
    · rw [none primaryA b oldB sameJob.symm] at primaryB
      cases primaryB
    · rfl

end Keys

section Assignments
variable {db staged : Db} {company scope : CompanyId} {job : JobId} {user : UserId} {now : Instant}

theorem mem_ofJob {a : JobAssignmentRow} : a ∈ ofJob db job ↔ a ∈ db.jobAssignments.rows ∧ a.jobId = job := by
  simp [ofJob]

theorem assignmentsOf_visible (visible : jobInScope db scope job = true) : assignmentsOf db scope job = ofJob db job := by
  have same : (fun a : JobAssignmentRow => decide (a.jobId = job) && jobInScope db scope a.jobId) =
      fun a => decide (a.jobId = job) := by
    funext a
    by_cases own : a.jobId = job
    · simp [own, visible]
    · simp [own]
  simp only [assignmentsOf, ofJob, same]

/-- Rewriting the supervisor of one job, once its assignments have changed. -/
theorem sync_mirrors (visible : jobInScope staged scope job = true)
    (others : ∀ row ∈ staged.jobs.rows, row.companyId = company → row.id ≠ job → MirroredJob staged row) :
    Mirrored (syncPrimarySupervisor staged scope now job).2 company := by
  obtain ⟨found, located, owned⟩ := jobInScope_iff.mp visible
  intro row member ofCompany
  simp only [syncPrimarySupervisor, assignmentsOf_visible visible] at member
  obtain ⟨old, there, rfl⟩ := Table.mem_update.mp member
  by_cases own : old.id = job
  · have same : old = found := by
      rw [← own] at located
      obtain ⟨present, key⟩ := Table.find_eq_some_iff.mp located
      exact Table.key_inj there present key.symm
    have matched : (decide (old.id = job) && decide (old.companyId = scope)) = true := by
      rw [Bool.and_eq_true]
      exact ⟨decide_eq_true own, decide_eq_true (same ▸ owned)⟩
    rw [if_pos matched]
    intro _
    exact congrArg (mirror staged) own.symm
  · have unmatched : ¬ (decide (old.id = job) && decide (old.companyId = scope)) = true := by simp [own]
    rw [if_neg unmatched] at ofCompany ⊢
    exact others old there ofCompany own

theorem sync_constrained (constrained : Constrained staged) :
    Constrained (syncPrimarySupervisor staged scope now job).2 := by
  constructor
  · intro a member
    simp only [syncPrimarySupervisor, Table.isSome_find_update]
    exact constrained.jobs a member
  · exact constrained.pairs
  · exact constrained.primaries

/-- A job that no changed assignment belongs to keeps its mirror. -/
theorem mirroredJob_congr {row : JobRow} (same : ofJob staged row.id = ofJob db row.id) (mirrored : MirroredJob db row) :
    MirroredJob staged row := by
  unfold MirroredJob mirror at *
  rw [same]
  exact mirrored

theorem ofJob_congr (same : staged.jobAssignments.select (fun a => a.jobId = job) =
    db.jobAssignments.select (fun a => a.jobId = job)) : ofJob staged job = ofJob db job := by
  rw [ofJob, ofJob, same]

theorem select_mark {t : Table JobAssignmentRow} {p : JobAssignmentRow → Bool} {primary : Bool}
    (apart : ∀ a, p a = true → a.jobId ≠ job) :
    (mark t p primary).select (fun a => a.jobId = job) = t.select (fun a => a.jobId = job) := by
  refine Table.select_update fun a _ matched => ?_
  have other := apart a matched
  exact ⟨decide_eq_false other, decide_eq_false other⟩

theorem select_assign {t : Table JobAssignmentRow} {primary : Bool} {other : JobId} (apart : job ≠ other) :
    (assign t job user primary now).select (fun a => a.jobId = other) = t.select (fun a => a.jobId = other) :=
  Table.select_insert (decide_eq_false apart)

end Assignments

def Kept (company : CompanyId) (db : Db) : Prop := Constrained db ∧ Mirrored db company

section Steps
variable {db after : Db} {company scope : CompanyId} {s : SessionUser} {now : Instant} {job : JobId} {user : UserId}

theorem getJob_inScope {row : JobRow} (found : getJob db s job = .ok row) :
    jobInScope db s.principal.companyId job = true := by
  obtain ⟨seen, located, owned, -⟩ := getJob_ok_iff.mp ⟨row, found⟩
  exact jobInScope_iff.mpr ⟨seen, located, owned⟩

theorem visible_find (visible : jobInScope db scope job = true) : (db.jobs.find job).isSome = true := by
  obtain ⟨row, located, -⟩ := jobInScope_iff.mp visible
  rw [located]
  rfl

/-- A request that rewrites the assignments of one job and then its supervisor. -/
theorem sync_kept {staged : Db} (kept : Kept company db) (visible : jobInScope db scope job = true)
    (jobs : staged.jobs = db.jobs) (constrained : Constrained staged)
    (others : ∀ other, other ≠ job → ofJob staged other = ofJob db other) :
    Kept company (syncPrimarySupervisor staged scope now job).2 := by
  have stillVisible : jobInScope staged scope job = true := by
    rw [jobInScope, jobs]
    exact visible
  refine ⟨sync_constrained constrained, sync_mirrors stillVisible ?_⟩
  intro row member ofCompany apart
  rw [jobs] at member
  exact mirroredJob_congr (others row.id apart) (kept.2 row member ofCompany)

theorem clearPrimary_marks : (clearPrimary db scope job).jobAssignments =
    mark db.jobAssignments (fun a => a.jobId = job && jobInScope db scope a.jobId) false := rfl

theorem clear_constrained (constrained : Constrained db) : Constrained (clearPrimary db scope job) := by
  constructor
  · intro a member
    obtain ⟨old, there, same, -, -⟩ := mem_mark (clearPrimary_marks ▸ member)
    rw [same]
    exact constrained.jobs old there
  · exact pairs_mark constrained.pairs
  · exact primaries_clear constrained.primaries

theorem clear_none (visible : jobInScope db scope job = true) :
    NonePrimary (clearPrimary db scope job).jobAssignments job := by
  apply nonePrimary_clear
  intro a _ own
  simp [own, visible]

theorem clear_others {other : JobId} (apart : other ≠ job) : ofJob (clearPrimary db scope job) other = ofJob db other := by
  apply ofJob_congr
  rw [clearPrimary_marks]
  apply select_mark
  intro a matched same
  simp [same, apart] at matched

theorem addAssignment_kept {primary : Bool} {value : List JobStore.JobAssignment} (kept : Kept company db)
    (visible : jobInScope db scope job = true)
    (added : JobStore.addAssignment db scope now job user primary = .ok (value, after)) : Kept company after := by
  unfold JobStore.addAssignment at added
  simp only at added
  generalize choice : (primary || (assignmentsOf db scope job).isEmpty) = makePrimary at added
  split at added
  · cases added
  · next passed =>
    obtain ⟨new, -⟩ := firstViolation_cons.mp passed
    cases added
    have cleared : Constrained (if makePrimary then clearPrimary db scope job else db) := by
      split
      · exact clear_constrained kept.1
      · exact kept.1
    have jobs : (if makePrimary then clearPrimary db scope job else db).jobs = db.jobs := by split <;> rfl
    have none : makePrimary = true →
        NonePrimary (if makePrimary then clearPrimary db scope job else db).jobAssignments job := by
      intro made
      rw [if_pos made]
      exact clear_none visible
    have others : ∀ other, other ≠ job →
        ofJob (if makePrimary then clearPrimary db scope job else db) other = ofJob db other := by
      intro other apart
      split
      · exact clear_others apart
      · rfl
    refine sync_kept kept visible jobs ?_ ?_
    · constructor
      · intro a member
        simp only [jobs]
        rcases Table.mem_insert.mp member with old | rfl
        · rw [← jobs]
          exact cleared.jobs a old
        · exact visible_find visible
      · refine pairs_assign cleared.pairs ?_
        intro a there own same
        have free := List.any_eq_false.mp new a there
        simp [own, same] at free
      · exact primaries_assign cleared.primaries none
    · intro other apart
      rw [← others other apart]
      exact ofJob_congr (select_assign fun same => apart same.symm)

theorem removeAssignment_kept (kept : Kept company db) (visible : jobInScope db scope job = true) :
    Kept company (JobStore.removeAssignment db scope now job user).2 := by
  refine sync_kept kept visible ?_ ?_ ?_
  · rfl
  · constructor
    · intro a member
      exact kept.1.jobs a (Table.mem_delete.mp member).1
    · intro a left b right
      exact kept.1.pairs a (Table.mem_delete.mp left).1 b (Table.mem_delete.mp right).1
    · intro a left b right
      exact kept.1.primaries a (Table.mem_delete.mp left).1 b (Table.mem_delete.mp right).1
  · intro other apart
    apply ofJob_congr
    apply Table.select_delete_apart
    intro a _ own
    have elsewhere : a.jobId ≠ job := by
      rw [of_decide_eq_true own]
      exact apart
    simp [assignmentIs, elsewhere]

theorem setPrimary_kept {value : List JobStore.JobAssignment} (kept : Kept company db)
    (visible : jobInScope db scope job = true)
    (promoted : JobStore.setPrimaryAssignment db scope now job user = .ok (value, after)) : Kept company after := by
  unfold JobStore.setPrimaryAssignment at promoted
  simp only at promoted
  split at promoted
  · cases promoted
    have cleared : Constrained (clearPrimary db scope job) := clear_constrained kept.1
    refine sync_kept kept visible ?_ ?_ ?_
    · rfl
    · constructor
      · intro a member
        obtain ⟨old, there, same, -, -⟩ := mem_mark member
        rw [same]
        exact cleared.jobs old there
      · exact pairs_mark cleared.pairs
      · apply primaries_promote cleared.pairs cleared.primaries (clear_none visible)
        intro a _ matched
        simp only [assignmentIs, Bool.and_eq_true, decide_eq_true_eq] at matched
        exact matched.1
    · intro other apart
      have unmarked : ofJob (clearPrimary db scope job) other = ofJob db other := clear_others apart
      rw [← unmarked]
      apply ofJob_congr
      apply select_mark
      intro a matched same
      simp [assignmentIs, same, apart] at matched
  · cases promoted

/-- A statement on the jobs that loses none of them. -/
theorem kept_jobs {jobs : Table JobRow} (kept : Kept company db)
    (lost : ∀ job, (db.jobs.find job).isSome = true → (jobs.find job).isSome = true)
    (mirrored : ∀ row ∈ jobs.rows, row.companyId = company → MirroredJob db row) :
    Kept company { db with jobs := jobs } := by
  refine ⟨⟨?_, kept.1.pairs, kept.1.primaries⟩, mirrored⟩
  intro a member
  exact lost a.jobId (kept.1.jobs a member)

theorem create_kept {input : JobInput} {row : JobRow} (kept : Kept company db)
    (created : JobStore.create db scope now input = .ok (row, after)) : Kept company after := by
  obtain ⟨-, rfl⟩ := insertRow_ok created
  apply kept_jobs kept
  · intro _ there
    exact Table.isSome_find_insert there
  · refine Table.all_insert kept.2 ?_
    intro _ assigned
    -- the key of a new job is past every job that an assignment can name
    obtain ⟨a, there⟩ := List.exists_mem_of_ne_nil _ assigned
    obtain ⟨member, own⟩ := mem_ofJob.mp there
    obtain ⟨found, located⟩ := Option.isSome_iff_exists.mp (kept.1.jobs a member)
    obtain ⟨present, key⟩ := Table.find_eq_some_iff.mp located
    have below := db.jobs.below found present
    rw [key, own] at below
    exact absurd below (lt_irrefl _)

/-- An edit that gives a job with assignments the supervisor they have. -/
theorem update_kept {input : JobInput} {value : Option JobRow} (kept : Kept company db)
    (mirrors : ∀ row ∈ db.jobs.rows, row.id = job → row.companyId = company →
      JobStore.jobConstraint db scope (some job) input = none → ofJob db job ≠ [] → input.supervisorId = mirror db job)
    (updated : JobStore.update db scope now job input = .ok (value, after)) : Kept company after := by
  obtain ⟨rfl, written⟩ := checkedChange_ok updated
  apply kept_jobs kept
  · intro _ there
    exact Table.isSome_find_update.trans there
  · apply Table.all_update kept.2
    intro row member matched ofCompany assigned
    have own : row.id = job := of_decide_eq_true (Bool.and_eq_true _ _ ▸ matched).1
    have given := mirrors row member own ofCompany (written row member matched) (own ▸ assigned)
    exact given.trans (congrArg (mirror db) own.symm)

theorem mirror_isSome {a : JobAssignmentRow} (member : a ∈ ofJob db job) : mirror db job ≠ none := by
  unfold mirror primarySupervisor
  cases rows : ofJob db job with
  | nil =>
    rw [rows] at member
    cases member
  | cons first rest => simp

/-- Leaving out the assignments of someone else leaves the mirror as it was. -/
theorem primarySupervisor_filter {pairs : List (UserId × Bool)} {named : UserId}
    (mirrored : primarySupervisor pairs = some named) (other : named ≠ user) :
    primarySupervisor (pairs.filter fun a => !decide (a.1 = user)) = some named := by
  unfold primarySupervisor at mirrored ⊢
  cases found : pairs.find? (·.2) with
  | some pair =>
    rw [found, Option.some_or, Option.map_some, Option.some.injEq] at mirrored
    obtain ⟨primary, left, right, split, none⟩ := List.find?_eq_some_iff_append.mp found
    have kept : (!decide (pair.1 = user)) = true := by simp [mirrored, other]
    have stays : (pairs.filter fun a => !decide (a.1 = user)).find? (·.2) = some pair := by
      refine List.find?_eq_some_iff_append.mpr ⟨primary, left.filter fun a => !decide (a.1 = user),
        right.filter fun a => !decide (a.1 = user), ?_, ?_⟩
      · rw [split, List.filter_append, List.filter_cons, if_pos kept]
      · intro a member
        exact none a (List.mem_filter.mp member).1
    rw [stays, Option.some_or, Option.map_some, mirrored]
  | none =>
    have absent : (pairs.filter fun a => !decide (a.1 = user)).find? (·.2) = none := by
      refine List.find?_eq_none.mpr ?_
      intro a member
      exact List.find?_eq_none.mp found a (List.mem_filter.mp member).1
    rw [found, Option.none_or] at mirrored
    rw [absent, Option.none_or]
    cases pairs with
    | nil => cases mirrored
    | cons first rest =>
      rw [List.head?_cons, Option.map_some, Option.some.injEq] at mirrored
      have kept : (!decide (first.1 = user)) = true := by simp [mirrored, other]
      rw [List.filter_cons, if_pos kept, List.head?_cons, Option.map_some, mirrored]

theorem ofJob_deleteUser : ofJob (UserStore.cascadeUser user db) job =
    (ofJob db job).filter fun a => !decide (a.userId = user) := by
  have total : Std.Total fun a b : JobAssignmentRow => a.assignedAt ≤ b.assignedAt :=
    ⟨fun a b => le_total a.assignedAt b.assignedAt⟩
  have chained : IsTrans JobAssignmentRow fun a b => a.assignedAt ≤ b.assignedAt := ⟨fun _ _ _ => le_trans⟩
  have left : (UserStore.cascadeUser user db).jobAssignments = db.jobAssignments.delete fun a => a.userId = user := rfl
  rw [ofJob, ofJob, left, Table.select_delete, filter_insertionSort]

/-- The deletion of a user who supervises no job that others are assigned to. -/
theorem deleteUser_kept (kept : Kept company db)
    (last : ∀ row ∈ db.jobs.rows, row.companyId = company → row.supervisorId = some user →
      ∀ a ∈ ofJob db row.id, a.userId = user) : Kept company (UserStore.cascadeUser user db) := by
  constructor
  · constructor
    · intro a member
      rw [UserStore.cascadeUser_jobs, Table.isSome_find_update]
      exact kept.1.jobs a (Table.mem_delete.mp member).1
    · intro a left b right
      exact kept.1.pairs a (Table.mem_delete.mp left).1 b (Table.mem_delete.mp right).1
    · intro a left b right
      exact kept.1.primaries a (Table.mem_delete.mp left).1 b (Table.mem_delete.mp right).1
  · intro row member ofCompany assigned
    rw [UserStore.cascadeUser_jobs] at member
    obtain ⟨old, there, rfl⟩ := Table.mem_update.mp member
    simp only [if_true] at ofCompany assigned ⊢
    rw [ofJob_deleteUser] at assigned
    obtain ⟨a, remains⟩ := List.exists_mem_of_ne_nil _ assigned
    obtain ⟨before, other⟩ := List.mem_filter.mp remains
    have someoneElse : old.supervisorId ≠ some user := by
      intro same
      simp [last old there ofCompany same a before] at other
    have mirrored := kept.2 old there ofCompany (List.ne_nil_of_mem before)
    rw [UserStore.setNull, if_neg someoneElse, mirrored]
    have mapped : mirror (UserStore.cascadeUser user db) old.id = primarySupervisor
        (((ofJob db old.id).map fun a => (a.userId, a.isPrimary)).filter fun a => !decide (a.1 = user)) := by
      rw [mirror, ofJob_deleteUser, List.filter_map]
      rfl
    cases named : mirror db old.id with
    | none => exact absurd named (mirror_isSome before)
    | some supervisor =>
      have apart : supervisor ≠ user := by
        intro same
        exact someoneElse (mirrored.trans (named.trans (congrArg some same)))
      rw [mapped]
      exact (primarySupervisor_filter named apart).symm

theorem updateJob_kept {input : JobInput} (kept : Kept company db)
    (own : keepsMirror company db ⟨now, s, .updateJob job input⟩ = true) :
    Kept company (JobService.update db s now job input).2 := by
  apply attempt_keeps (Kept company) kept
  intro found seen
  apply attempt_keeps (Kept company) kept
  intro passed valid
  rw [orNotFound_after]
  apply committed_keeps (Kept company) kept
  intro value after updated
  refine update_kept kept ?_ updated
  intro row member named ofCompany written assigned
  have accepted : edits db s job input = true := by
    simp [edits, seen, inDomain_ok valid, written, Except.isOk, Except.toBool]
  simp only [keepsMirror, accepted, Bool.not_true, Bool.false_or, List.all_eq_true] at own
  have given := own row member
  simp only [named, ofCompany, ne_eq, not_true_eq_false, decide_false, Bool.false_or, Bool.or_eq_true,
    decide_eq_true_eq, List.isEmpty_iff] at given
  exact given.resolve_left assigned

theorem deleteUser_request_kept (kept : Kept company db)
    (own : keepsMirror company db ⟨now, s, .deleteUser user⟩ = true) :
    Kept company (UsersService.delete db s user).2 := by
  apply attempt_keeps (Kept company) kept
  intro _ notSelf
  apply attempt_keeps (Kept company) kept
  intro found seen
  rw [deletedOrNotFound_after]
  unfold UserStore.delete
  split
  · exact kept
  · refine deleteUser_kept kept ?_
    intro row member ofCompany supervised a assigned
    have other : s.user.id ≠ user := by
      intro same
      simp [UsersService.assertNotSelf, same, inDomain] at notSelf
    have accepted : deletes db s user = true := by
      simp [deletes, other, seen, Except.isOk, Except.toBool]
    simp only [keepsMirror, accepted, Bool.not_true, Bool.false_or, List.all_eq_true] at own
    have given := own row member
    simp only [ofCompany, supervised, ne_eq, not_true_eq_false, decide_false, Bool.false_or, List.all_eq_true,
      decide_eq_true_eq] at given
    exact given a assigned

/-- What one request preserves. -/
theorem serve_kept {r : Request} (kept : Kept company db) (own : keepsMirror company db r = true) :
    Kept company (serve db r) := by
  obtain ⟨now, s, call⟩ := r
  cases call with
  | createJob input =>
    apply attempt_keeps (Kept company) kept
    intro _ _
    apply committed_keeps (Kept company) kept
    intro row after created
    exact create_kept kept created
  | updateJob id input => exact updateJob_kept kept own
  | addAssignment id user primary =>
    apply attempt_keeps (Kept company) kept
    intro found seen
    apply committed_keeps (Kept company) kept
    intro value after added
    exact addAssignment_kept kept (getJob_inScope seen) added
  | removeAssignment id user =>
    apply attempt_keeps (Kept company) kept
    intro found seen
    exact removeAssignment_kept kept (getJob_inScope seen)
  | setPrimary id user =>
    apply attempt_keeps (Kept company) kept
    intro found seen
    apply committed_keeps (Kept company) kept
    intro value after promoted
    exact setPrimary_kept kept (getJob_inScope seen) promoted
  | deleteUser id => exact deleteUser_request_kept kept own

end Steps

theorem supervisorAgrees_of_kept {db : Db} {company : CompanyId} (kept : Kept company db) :
    SupervisorAgrees db company := by
  intro job member ofCompany assigned
  refine ⟨kept.2 job member ofCompany assigned, ?_⟩
  intro a left b right primaryA primaryB
  obtain ⟨thereA, jobA⟩ := mem_ofJob.mp left
  obtain ⟨thereB, jobB⟩ := mem_ofJob.mp right
  exact kept.1.primaries a thereA b thereB (jobA.trans jobB.symm) primaryA primaryB

/-- As long as jobs with assignments are edited with the supervisor these give, and nobody is deleted who supervises
    a job that others are assigned to, the supervisor of a job is the one its assignments name. -/
theorem supervisor_mirrors (company : CompanyId) (db : Db)
    (reached : (staffing company (keepsMirror company)).Reachable db) : SupervisorAgrees db company := by
  have kept : Kept company db := by
    apply Reachable.invariant (Kept company) reached
    · rintro start ⟨constrained, none⟩
      exact ⟨constrained, fun job member ofCompany => absurd ofCompany (none job member)⟩
    · intro before after request kept own served
      cases served
      exact serve_kept kept own
  exact supervisorAgrees_of_kept kept

/- A manager assigns one supervisor to a job and then saves the job form, which names no supervisor. -/

def manager : SessionUser where
  user := ⟨7, 1, text "Sarah", text "sarah@example.com", .manager, none, true, none⟩
  principal := ⟨7, 1, .manager⟩
  permissions := []
  entitlement := ⟨true, true, true, none⟩

def newCompany : Db :=
  { Db.empty with
    users := .of [.plain 7 1 (text "Sarah") (text "sarah@example.com") (text "MANAGER") (Eq.refl true),
      .plain 8 1 (text "Tom") (text "tom@example.com") (text "SUPERVISOR") (Eq.refl true)] 9 (Eq.refl true) }

def jobForm : JobInput :=
  ⟨[], text "J1", text "Smith", none, none, text "1 St", none, none, none, none, none, none, none, none, none, none⟩

def assigning : List Request := [⟨0, manager, .createJob jobForm⟩, ⟨1, manager, .addAssignment 1 8 false⟩]

theorem newCompany_initial : Constrained newCompany ∧ ∀ job ∈ newCompany.jobs.rows, job.companyId ≠ 1 := by
  refine ⟨⟨?_, ?_, ?_⟩, ?_⟩
  · intro a member
    cases member
  · intro a member
    cases member
  · intro a member
    cases member
  · intro job member
    cases member

theorem assigned_supervisor_mirrored : ∃ db, (staffing 1 (keepsMirror 1)).execute newCompany assigning = some db ∧
    db.jobs.rows.map (·.supervisorId) = [some 8] ∧ SupervisorAgrees db 1 := by
  have run : ∃ db, (staffing 1 (keepsMirror 1)).execute newCompany assigning = some db ∧
      db.jobs.rows.map (·.supervisorId) = [some 8] := ⟨_, rfl, by decide⟩
  obtain ⟨db, ran, named⟩ := run
  exact ⟨db, ran, named, supervisor_mirrors 1 db (execute_reachable newCompany_initial ran)⟩

theorem saved_form_unmirrors :
    ∃ db, (staffing 1 fun _ _ => true).Reachable db ∧ ¬ SupervisorAgrees db 1 := by
  have run : ∃ db, (staffing 1 fun _ _ => true).execute newCompany
      (assigning ++ [⟨2, manager, .updateJob 1 jobForm⟩]) = some db ∧
      ∃ job ∈ db.jobs.rows, job.companyId = 1 ∧ ofJob db job.id ≠ [] ∧ job.supervisorId ≠ mirror db job.id :=
    ⟨_, rfl, by decide⟩
  obtain ⟨db, ran, job, member, ofCompany, assigned, apart⟩ := run
  refine ⟨db, execute_reachable newCompany_initial ran, ?_⟩
  intro agrees
  exact apart (agrees job member ofCompany assigned).1

end SupervisorMirror
