import PmKonstruct.Diary.NoteIsolation
import PmKonstruct.Jobs.TasksLinks

/- Which tasks and links a request may reach. Row-level security stops at the company, so the rule of the job
   has to come from the request itself: no task request asks for it, and a link request asks it of another job. -/
namespace RowIsolation
open PlainText DomainErrors Accounts Schema KeyedTable RowSecurity Requests TasksLinks
open AuthService (SessionUser)

def TaskOf (db : Db) (id : JobTaskId) (job : JobId) : Prop := ∃ row, db.jobTasks.find id = some row ∧ row.jobId = job

def LinkOf (db : Db) (id : JobLinkId) (job : JobId) : Prop := ∃ row, db.jobLinks.find id = some row ∧ row.jobId = job

def OwnsTask (db : Db) (s : SessionUser) (id : JobTaskId) : Prop := ∃ job, TaskOf db id job ∧ SeesJob db s job

/-- The row a request names is one of a job the session sees, and of the job in the path when there is one. -/
def OwnsRow (db : Db) (s : SessionUser) : RowRequest → Prop
  | .getTask id => OwnsTask db s id
  | .updateTask id _ => OwnsTask db s id
  | .updateTaskNotes id _ => OwnsTask db s id
  | .deleteTask id => OwnsTask db s id
  | .updateLink job id _ => SeesJob db s job ∧ LinkOf db id job
  | .deleteLink job id => SeesJob db s job ∧ LinkOf db id job

def TaskMissing (db : Db) (s : SessionUser) (id : JobTaskId) : Prop := findTask db s.principal.companyId id = none

def LinkMissing (db : Db) (s : SessionUser) (id : JobLinkId) : Prop :=
  db.jobLinks.reach (linkVisible s.principal.companyId) id = none

/-- The request fails with not found of its own accord: the job in its path is hidden, or the whole company has
    no such row and the input is not complained about first. -/
def RowMissing (db : Db) (s : SessionUser) : RowRequest → Prop
  | .getTask id => TaskMissing db s id
  | .updateTask id input => TaskMissing db s id ∧ validateTask input = .ok ()
  | .updateTaskNotes id _ => TaskMissing db s id
  | .deleteTask id => TaskMissing db s id
  | .updateLink job id input => ¬ SeesJob db s job ∨ LinkMissing db s id ∧ input.normalised.validate = .ok ()
  | .deleteLink job id => ¬ SeesJob db s job ∨ LinkMissing db s id

section Refusals
variable {now : Instant} {db : Db} {s : SessionUser} {id : Int} {job : JobId}

theorem refused_reply {α : Type} {wrap : α → RowReply} {outcome : Outcome α} :
    Refused db (reply wrap outcome) ↔ Refused db outcome :=
  refused_map wrap

theorem validateTask_error {input : JobTaskInput} {e : AppError} (rejected : validateTask input = .error e) :
    notFoundError e = false := by
  unfold validateTask at rejected
  split at rejected
  · cases rejected
    rfl
  · split at rejected
    · cases rejected
      rfl
    · cases rejected

theorem validateLink_error {input : JobLinkInput} {e : DomainError} (rejected : input.validate = .error e) :
    ∃ field reason, e = .invalid field reason := by
  simp only [JobLinkInput.validate] at rejected
  repeat' split at rejected
  all_goals cases rejected
  all_goals exact ⟨_, _, rfl⟩

theorem getTask_refused : Refused db (getTask db s id) ↔ TaskMissing db s id := by
  simp [getTask, refused_orNotFound, TaskMissing]

theorem updateTask_refused {input : JobTaskInput} :
    Refused db (updateTask db s now id input) ↔ TaskMissing db s id ∧ validateTask input = .ok () := by
  unfold updateTask
  cases checked : validateTask input with
  | error e => simp [attempt, refused_error_iff, validateTask_error checked]
  | ok _ =>
    simp only [attempt, and_true]
    apply refused_checkedChange rfl
    intro e violated
    apply firstViolation_named _ violated
    intro c listed
    cases List.mem_singleton.mp listed
    rfl

theorem deleteTask_refused : Refused db (deleteTask db s id) ↔ TaskMissing db s id := by
  unfold deleteTask deleteTaskRow
  exact refused_removeRow rfl

theorem updateTaskNotes_refused {notes : Option Text} :
    Refused db (updateTaskNotes db s now id notes) ↔ TaskMissing db s id := by
  unfold updateTaskNotes updateTaskRowNotes
  exact refused_changeRow rfl

theorem updateLink_refused {input : JobLinkInput} : Refused db (updateLink db s job id input) ↔
    ¬ SeesJob db s job ∨ LinkMissing db s id ∧ input.normalised.validate = .ok () := by
  unfold updateLink
  by_cases sees : SeesJob db s job
  · obtain ⟨row, got⟩ := getJob_ok_iff.mpr sees
    rw [got]
    simp only [attempt, sees, not_true_eq_false, false_or]
    cases checked : input.normalised.validate with
    | error e =>
      obtain ⟨field, reason, rfl⟩ := validateLink_error checked
      simp [inDomain, refused_error_iff, notFoundError]
    | ok _ =>
      simp only [inDomain, and_true]
      exact refused_changeRow rfl
  · have denied := getJob_hidden sees
    simp only [sees, not_false_eq_true, true_or, iff_true]
    exact refused_attempt denied rfl

theorem deleteLink_refused : Refused db (deleteLink db s job id) ↔ ¬ SeesJob db s job ∨ LinkMissing db s id := by
  unfold deleteLink
  by_cases sees : SeesJob db s job
  · obtain ⟨row, got⟩ := getJob_ok_iff.mpr sees
    rw [got]
    simp only [attempt, sees, not_true_eq_false, false_or]
    exact refused_removeRow rfl
  · have denied := getJob_hidden sees
    simp only [sees, not_false_eq_true, true_or, iff_true]
    exact refused_attempt denied rfl

theorem perform_refused (request : RowRequest) : Refused db (perform now db s request) ↔ RowMissing db s request := by
  cases request with
  | getTask id => exact refused_reply.trans getTask_refused
  | updateTask id input => exact refused_reply.trans updateTask_refused
  | updateTaskNotes id notes => exact refused_reply.trans updateTaskNotes_refused
  | deleteTask id => exact refused_reply.trans deleteTask_refused
  | updateLink job id input => exact refused_reply.trans updateLink_refused
  | deleteLink job id => exact refused_reply.trans deleteLink_refused

end Refusals

/-- A request for one task or link is confined to the jobs of its session exactly when it owns the row or the
    row is missing for everybody in the company. -/
theorem row_request_confined_iff (now : Instant) (db : Db) (s : SessionUser) (request : RowRequest) :
    Confined (OwnsRow db s request) db (perform now db s request) ↔ OwnsRow db s request ∨ RowMissing db s request := by
  rw [Confined, perform_refused]

/- The company of two jobs again, with a task and a link of the job the supervisor cannot see. -/

def twoJobsWithRows : Db :=
  { NoteIsolation.twoJobs with
    jobTasks := ⟨[⟨1, 2, text "Pour slab", text "pending", none, 0, 0, 0⟩], 2, by decide, by decide⟩
    jobLinks := ⟨[⟨1, 2, 1, text "Plans", text "https://files.example", 0, 0⟩], 2, by decide, by decide⟩ }

theorem foreign_rows_reached : NoteIsolation.supervisor.user.role = .supervisor ∧
    ¬ Confined (OwnsRow twoJobsWithRows NoteIsolation.supervisor (.deleteTask 1)) twoJobsWithRows
      (perform 0 twoJobsWithRows NoteIsolation.supervisor (.deleteTask 1)) ∧
    ¬ Confined (OwnsRow twoJobsWithRows NoteIsolation.supervisor (.deleteLink 1 1)) twoJobsWithRows
      (perform 0 twoJobsWithRows NoteIsolation.supervisor (.deleteLink 1 1)) := by
  have taskDeleted : (perform 0 twoJobsWithRows NoteIsolation.supervisor (.deleteTask 1)).1 = .ok .deleted := by rfl
  have linkDeleted : (perform 0 twoJobsWithRows NoteIsolation.supervisor (.deleteLink 1 1)).1 = .ok .deleted := by rfl
  have hidden : ¬ SeesJob twoJobsWithRows NoteIsolation.supervisor 2 := by
    intro ⟨row, found, _, opened⟩
    cases found
    exact absurd opened (by decide)
  constructor
  · rfl
  constructor
  · intro confined
    cases confined with
    | inl owns =>
      obtain ⟨job, ⟨row, found, same⟩, sees⟩ := owns
      cases found
      cases same
      exact hidden sees
    | inr refused =>
      obtain ⟨⟨e, failed, _⟩, _⟩ := refused
      rw [taskDeleted] at failed
      cases failed
  · intro confined
    cases confined with
    | inl owns =>
      obtain ⟨_, row, found, same⟩ := owns
      cases found
      cases same
    | inr refused =>
      obtain ⟨⟨e, failed, _⟩, _⟩ := refused
      rw [linkDeleted] at failed
      cases failed

end RowIsolation
