import PmKonstruct.Diary.DiaryStore
import PmKonstruct.Forms.EtoNote
import PmKonstruct.Users.UserStore

/- Extras to order: raising one writes an entry and its note, and the list of a job's approved ones reads the notes
   back. -/
namespace EtoStore
open PlainText DomainErrors Accounts CalendarDate Schema KeyedTable RowSecurity Requests EtoNote
open UserStore (visibleUser)

structure EtoRaised where
  entryId : DiaryEntryId
  noteId : DiaryNoteId
  etoNumber : Int
  poNumber : Text
  raisedBy : Text
  deriving DecidableEq, Repr

structure EtoListItem where
  noteId : DiaryNoteId
  entryId : DiaryEntryId
  etoNumber : Text
  content : Text
  raisedBy : Text
  diaryDate : Date
  approvedAt : Instant
  jobNumber : Text
  jobName : Text
  jobAddress : Text
  deriving DecidableEq, Repr

section Repository
variable (db : Db) (scope : CompanyId)

def bumpSequence (job : JobId) : List EtoJobSequenceRow → List EtoJobSequenceRow
  | [] => [⟨job, 2⟩]
  | row :: rest => if row.jobId = job then ⟨job, row.nextNumber + 1⟩ :: rest else row :: bumpSequence job rest

/-- The upsert is the allocation: it hands out the number before the one it stores. -/
def allocateNumber (job : JobId) : Except PortError (Int × Db) :=
  let rows := bumpSequence job db.etoJobSequences
  let next := ((rows.find? (·.jobId = job)).map (·.nextNumber)).getD 2
  if next < 2 ^ 31 then .ok (next - 1, { db with etoJobSequences := rows })
  else .error (.storage "error returned from database: integer out of range")

/-- A supervisor who raises one asks for an action in the same note. -/
def raiseEto (now : Instant) (author : UserId) (authorName : Text) (input : EtoInput) (date : Date) :
    Except PortError (EtoRaised × Db) :=
  match db.jobs.reach (·.companyId = scope) input.jobId with
  | none => .error .notFound
  | some job => do
    let header : JobHeader := ⟨job.jobNumber, job.name, job.address⟩
    let (number, db) ← allocateNumber db input.jobId
    let po := poNumber number job.jobNumber input.jobId
    let (entry, db) ← DiaryStore.insertEntry db scope input.jobId author date (etoEntrySummary po)
    let (note, db) ← DiaryStore.insertNote db scope now entry.id (.listed .eto) (etoNote po authorName header input)
      (some (.action, author))
    return (⟨entry.id, note.id, number, po, authorName⟩, db)

/-- The name the list gives: that of the user in the column, else the one in the text, else a placeholder. -/
def raiserName (note : DiaryNoteRow) : Text :=
  let named := (note.actionRaisedBy.bind (visibleUser db scope)).map (·.name)
  (named.or (parseEtoRaisedBy note.content)).getD (text "User")

def etoItem (note : DiaryNoteRow) (entry : SiteDiaryRow) (job : JobRow) : EtoListItem :=
  ⟨note.id, entry.id, parseEtoNumber note.content note.id, note.content, raiserName db scope note, entry.date,
    note.createdAt, job.jobNumber, job.name, job.address⟩

/-- An approved note is one whose action is completed. -/
def etosForJob (job : JobId) : List EtoListItem :=
  let approved := db.diaryNotes.select fun n =>
    n.category = .listed .eto && n.actionStatus = some .completed && !n.archived
  (approved.insertionSort fun a b => b.createdAt ≤ a.createdAt).filterMap fun note => do
    let entry ← db.siteDiary.find note.diaryEntryId
    let row ← db.jobs.reach (·.companyId = scope) entry.jobId
    if entry.jobId = job then some (etoItem db scope note entry row) else none

end Repository

end EtoStore
