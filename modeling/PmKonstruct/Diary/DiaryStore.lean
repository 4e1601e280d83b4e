import Mathlib.Data.List.Sort
import PmKonstruct.Media.DeletionQueue
import PmKonstruct.Store.Requests

/- The diary repository: each function is one transaction of a company, addressing a note by its own id. -/
namespace DiaryStore
open PlainText DomainErrors Accounts CalendarDate Schema KeyedTable RowSecurity Requests DeletionQueue

structure DiaryNote where
  id : DiaryNoteId
  diaryEntryId : DiaryEntryId
  category : NoteCategory
  content : Text
  actionStatus : Option ActionStatus
  actionRaisedBy : Option UserId
  sortOrder : Int
  archived : Bool
  createdAt : Instant
  deriving DecidableEq, Repr

structure DiaryNoteInput where
  category : NoteCategory
  content : Text
  actionStatus : Option ActionStatus
  sortOrder : Option Int
  deriving DecidableEq, Repr

structure DiaryNoteComment where
  id : DiaryNoteCommentId
  noteId : DiaryNoteId
  authorId : Option UserId
  authorName : Option Text
  content : Text
  createdAt : Instant
  deriving DecidableEq, Repr

def DiaryNoteInput.validate (input : DiaryNoteInput) : Except DomainError Unit :=
  if trim input.content = [] then .error (.invalid "content" "is required") else .ok ()

/-- A category the client cannot send reads back as general. -/
def StoredCategory.toDomain : StoredCategory → NoteCategory
  | .listed category => category
  | .propertyInspection => .general

def noteOfRow (row : DiaryNoteRow) : DiaryNote :=
  ⟨row.id, row.diaryEntryId, StoredCategory.toDomain row.category, row.content, row.actionStatus, row.actionRaisedBy,
    row.sortOrder, row.archived, row.createdAt⟩

section Repository
variable (db : Db) (scope : CompanyId)

/-- An entry as the forms write one: who and when, and a line on what was done. -/
def insertEntry (job : JobId) (author : UserId) (date : Date) (workCompleted : Text) :
    Except PortError (SiteDiaryRow × Db) :=
  insertRow db.siteDiary (fun entries => { db with siteDiary := entries }) (fun e => e)
    (fun id => ⟨id, job, some author, date, workCompleted, none, none⟩) (fun _ => rfl)
    (firstViolation [
      (!jobInScope db scope job, rowDenied "site_diary"),
      ((db.users.find author).isNone, .conflict (some "site_diary_author_id_users_id_fk")),
      ((db.jobs.find job).isNone, .conflict (some "site_diary_job_id_jobs_id_fk"))])

def insertNote (now : Instant) (entry : DiaryEntryId) (category : StoredCategory) (content : Text)
    (action : Option (ActionStatus × UserId)) : Except PortError (DiaryNoteRow × Db) :=
  insertRow db.diaryNotes (fun notes => { db with diaryNotes := notes }) (fun n => n)
    (fun id => ⟨id, entry, category, content, action.map (·.1), action.map (·.2), 0, false, now⟩) (fun _ => rfl)
    (firstViolation [
      (!entryInScope db scope entry, rowDenied "diary_notes"),
      ((action.map (·.2)).any fun u => (db.users.find u).isNone,
        .conflict (some "diary_notes_action_raised_by_users_id_fk")),
      ((db.siteDiary.find entry).isNone, .conflict (some "diary_notes_diary_entry_id_site_diary_id_fk"))])

def findEntry (visible : Option (List JobId)) (entry : DiaryEntryId) : Option SiteDiaryRow :=
  db.siteDiary.reach (fun e => jobInScope db scope e.jobId && visible.all fun ids => decide (e.jobId ∈ ids)) entry

def noteVisible (note : DiaryNoteRow) : Bool := entryInScope db scope note.diaryEntryId

def changeNote (note : DiaryNoteId) (change : DiaryNoteRow → DiaryNoteRow) (keeps : ∀ n, (change n).id = n.id) :
    Option DiaryNote × Db :=
  changeRow db.diaryNotes (fun notes => { db with diaryNotes := notes }) noteOfRow (noteVisible db scope) note change
    keeps

def updateNote (note : DiaryNoteId) (input : DiaryNoteInput) : Option DiaryNote × Db :=
  changeNote db scope note
    (fun n => { n with
      category := .listed input.category
      content := input.content
      sortOrder := input.sortOrder.getD n.sortOrder })
    (fun _ => rfl)

/-- A status comes with whoever set it; clearing the status clears the name. The foreign key of the name is
    checked against every company's users, and only when a row is written. -/
def setNoteActionStatus (note : DiaryNoteId) (status : Option ActionStatus) (raisedBy : Option UserId) :
    Except PortError (Option DiaryNote × Db) :=
  let raiser := status.bind fun _ => raisedBy
  checkedChange db.diaryNotes (fun notes => { db with diaryNotes := notes }) noteOfRow (noteVisible db scope) note
    (fun n => { n with
      actionStatus := status
      actionRaisedBy := raiser })
    (fun _ => rfl)
    (firstViolation [
      (raiser.any fun u => (db.users.find u).isNone, .conflict (some "diary_notes_action_raised_by_users_id_fk"))])

def setNoteArchived (note : DiaryNoteId) (archived : Bool) : Option DiaryNote × Db :=
  changeNote db scope note (fun n => { n with archived := archived }) (fun _ => rfl)

/-- The objects are queued first, while their rows still name them, and stay queued when no note is deleted. -/
def deleteNote (note : DiaryNoteId) : Bool × Db :=
  let queued := enqueueNoteMedia db scope note
  match db.diaryNotes.reach (noteVisible db scope) note with
  | none => (false, queued)
  | some _ => (true, cascadeNotes (fun n => n.id = note) queued)

def deleteEntry (entry : DiaryEntryId) : Bool × Db :=
  let queued := enqueueDiaryEntryMedia db scope entry
  match db.siteDiary.reach (fun e => jobInScope db scope e.jobId) entry with
  | none => (false, queued)
  | some _ => (true, cascadeEntries (fun e => e.id = entry) queued)

def notes (entry : DiaryEntryId) (includeArchived : Bool) : List DiaryNote :=
  let rows := db.diaryNotes.select fun n =>
    n.diaryEntryId = entry && (includeArchived || !n.archived) && noteVisible db scope n
  (rows.insertionSort fun a b => a.sortOrder < b.sortOrder ∨ a.sortOrder = b.sortOrder ∧ a.id ≤ b.id).map noteOfRow

def commentOfRow (row : DiaryNoteCommentRow) : DiaryNoteComment :=
  let author := row.authorId.bind fun u => db.users.reach (·.companyId = scope) u
  ⟨row.id, row.noteId, row.authorId, author.map (·.name), row.content, row.createdAt⟩

def comments (note : DiaryNoteId) : List DiaryNoteComment :=
  let rows := db.diaryNoteComments.select fun c => c.noteId = note && noteInScope db scope c.noteId
  (rows.insertionSort fun a b => a.createdAt < b.createdAt ∨ a.createdAt = b.createdAt ∧ a.id ≤ b.id).map
    (commentOfRow db scope)

def addComment (now : Instant) (note : DiaryNoteId) (author : UserId) (content : Text) :
    Except PortError (DiaryNoteComment × Db) :=
  if db.diaryNotes.reach (noteVisible db scope) note = none then .error .notFound
  else if (db.users.find author).isNone then
    .error (.conflict (some "diary_note_comments_author_id_users_id_fk"))
  else
    let row : DiaryNoteCommentRow := ⟨db.diaryNoteComments.serial, note, some author, content, now⟩
    .ok (commentOfRow db scope row, { db with
      diaryNoteComments := db.diaryNoteComments.insert (fun id => ⟨id, note, some author, content, now⟩) (fun _ => rfl) })

end Repository

section Reach
variable {db : Db} {scope : CompanyId} {note : DiaryNoteId}

theorem noteInScope_iff : noteInScope db scope note = true ↔
    ∃ row, db.diaryNotes.reach (noteVisible db scope) note = some row := by
  simp [noteInScope, Option.any_eq_true, Table.reach_eq_some_iff, noteVisible]

theorem noteInScope_false_iff : noteInScope db scope note = false ↔
    db.diaryNotes.reach (noteVisible db scope) note = none := by
  rw [Bool.eq_false_iff, ne_eq, noteInScope_iff]
  cases db.diaryNotes.reach (noteVisible db scope) note <;> simp

/-- A status change rewrites one note that the company owns, and nothing else. -/
theorem setNoteActionStatus_ok {status : Option ActionStatus} {raisedBy : Option UserId} {value : Option DiaryNote}
    {after : Db} (changed : setNoteActionStatus db scope note status raisedBy = .ok (value, after)) :
    after.users = db.users ∧ after.diaryNotes.serial = db.diaryNotes.serial ∧
      ∀ n ∈ after.diaryNotes.rows, n ∈ db.diaryNotes.rows ∨ ∃ old ∈ db.diaryNotes.rows,
        old.id = note ∧ noteVisible db scope old = true ∧ n = { old with
          actionStatus := status
          actionRaisedBy := status.bind fun _ => raisedBy } := by
  have same := (checkedChange_ok changed).1
  subst same
  refine ⟨rfl, rfl, ?_⟩
  intro n member
  obtain ⟨old, there, made⟩ := List.mem_map.mp member
  split at made
  · next matched =>
    rw [Bool.and_eq_true] at matched
    exact .inr ⟨old, there, of_decide_eq_true matched.1, matched.2, made.symm⟩
  · exact .inl (made ▸ there)

end Reach

end DiaryStore
