import PmKonstruct.Media.DeletionQueue
import PmKonstruct.Media.Upload
import PmKonstruct.Store.Requests
import PmKonstruct.Store.RowSecurity

/- The media repository: one row under a diary entry, or under a job, for an upload that has been checked. -/
namespace MediaStore
open PlainText DomainErrors Accounts AuthStore Schema KeyedTable RowSecurity Requests DeletionQueue

inductive MediaOwner where
  | diary (entry : DiaryEntryId) (note : Option DiaryNoteId)
  | job (job : JobId)
  deriving DecidableEq, Repr

structure Media where
  id : MediaId
  owner : MediaOwner
  fileType : FileType
  mimeType : Text
  originalName : Text
  storedName : Text
  fileSize : Int
  url : Text
  uploadedBy : Option UserId
  createdAt : Instant
  deriving DecidableEq, Repr

/-- The size is a signed 64-bit number here and a signed 32-bit column in the tables. -/
structure MediaRecord where
  owner : MediaOwner
  fileType : FileType
  mimeType : Text
  originalName : Text
  storedName : Text
  fileSize : Int
  url : Text
  uploadedBy : UserId
  deriving DecidableEq, Repr

/-- One item of a bulk delete, from `job_media` or from `diary_media`. -/
structure MediaSelection where
  jobMedia : Bool
  id : MediaId
  deriving DecidableEq, Repr

/-- What a bulk delete found before it went ahead, or did not. -/
structure BulkDeletePlan where
  missing : List MediaSelection
  forbidden : List MediaSelection
  deleted : List MediaSelection
  deriving DecidableEq, Repr

/-- Office staff may remove only their own uploads. -/
def mayDeleteMedia (role : Role) (viewer : UserId) (uploadedBy : Option UserId) : Bool :=
  role ≠ .office || uploadedBy = some viewer

def sizeColumn (size : Int) : Int := if DecimalText.InI32 size then size else 2 ^ 31 - 1

def mediaOfDiaryRow (row : DiaryMediaRow) : Media :=
  ⟨row.id, .diary row.diaryEntryId row.noteId, row.fileType, row.mimeType, row.originalName, row.storedName,
    row.fileSize, row.url, row.uploadedBy, row.createdAt⟩

def mediaOfJobRow (row : JobMediaRow) : Media :=
  ⟨row.id, .job row.jobId, row.fileType, row.mimeType, row.originalName, row.storedName, row.fileSize, row.url,
    row.uploadedBy, row.createdAt⟩

/-- What both media tables ask of the columns they share. -/
def fileViolations (record : MediaRecord) : List (Bool × PortError) :=
  [tooLong 100 record.mimeType, overlong 255 record.originalName, tooLong 255 record.storedName,
    tooLong 500 record.url]

/-- The name of the client's file as its column holds it. -/
def originalColumn (record : MediaRecord) : Text := record.originalName.take 255

section Repository
variable (db : Db) (scope : CompanyId) (now : Instant)

/-- The policy follows the entry; the note is left to a foreign key that finds any company's note. -/
def diaryMediaConstraint (entry : DiaryEntryId) (note : Option DiaryNoteId) (record : MediaRecord) :
    Option PortError :=
  firstViolation (fileViolations record ++ [
    (!entryInScope db scope entry, rowDenied "diary_media"),
    (decide (sizeColumn record.fileSize < 0), .checkViolation (some "diary_media_size_check")),
    ((db.siteDiary.find entry).isNone, .conflict (some "diary_media_diary_entry_id_site_diary_id_fk")),
    (note.any fun n => (db.diaryNotes.find n).isNone, .conflict (some "diary_media_note_id_diary_notes_id_fk")),
    ((db.users.find record.uploadedBy).isNone, .conflict (some "diary_media_uploaded_by_users_id_fk"))])

def jobMediaConstraint (job : JobId) (record : MediaRecord) : Option PortError :=
  firstViolation (fileViolations record ++ [
    (!jobInScope db scope job, rowDenied "job_media"),
    (decide (sizeColumn record.fileSize < 0), .checkViolation (some "job_media_size_check")),
    ((db.jobs.find job).isNone, .conflict (some "job_media_job_id_fkey")),
    ((db.users.find record.uploadedBy).isNone, .conflict (some "job_media_uploaded_by_fkey"))])

def insertDiaryMedia (entry : DiaryEntryId) (note : Option DiaryNoteId) (fileType : FileType) (record : MediaRecord) :
    Except PortError (DiaryMediaRow × Db) :=
  insertRow db.diaryMedia (fun media => { db with diaryMedia := media }) (fun m => m)
    (fun id => ⟨id, entry, note, fileType, record.mimeType, originalColumn record, record.storedName,
      sizeColumn record.fileSize, record.url, some record.uploadedBy, now⟩)
    (fun _ => rfl) (diaryMediaConstraint db scope entry note record)

def insertJobMedia (job : JobId) (record : MediaRecord) : Except PortError (JobMediaRow × Db) :=
  insertRow db.jobMedia (fun media => { db with jobMedia := media }) (fun m => m)
    (fun id => ⟨id, job, record.fileType, record.mimeType, originalColumn record, record.storedName,
      sizeColumn record.fileSize, record.url, some record.uploadedBy, now⟩)
    (fun _ => rfl) (jobMediaConstraint db scope job record)

def record (rec : MediaRecord) : Except PortError (Media × Db) :=
  match rec.owner with
  | .diary entry note =>
    (insertDiaryMedia db scope now entry note rec.fileType rec).map fun (row, after) => (mediaOfDiaryRow row, after)
  | .job job => (insertJobMedia db scope now job rec).map fun (row, after) => (mediaOfJobRow row, after)

def find (id : MediaId) (jobMedia : Bool) : Option Media :=
  if jobMedia then (db.jobMedia.reach (fun m => jobInScope db scope m.jobId) id).map mediaOfJobRow
  else (db.diaryMedia.reach (fun m => entryInScope db scope m.diaryEntryId) id).map mediaOfDiaryRow

/-- The row goes and its object is queued, in one transaction. -/
def delete (id : MediaId) (jobMedia : Bool) : Bool × Db :=
  if (find db scope id jobMedia).isNone then (false, db)
  else if jobMedia then (true, removeJobMedia db scope (·.id = id))
  else (true, removeDiaryMedia db scope (·.id = id))

/-- Diary media reaches the job through its entry. All of the selection goes, or nothing. -/
def deleteMany (job : JobId) (selections : List MediaSelection) (uploadedBy : Option UserId) : BulkDeletePlan × Db :=
  if selections.isEmpty then (⟨[], [], []⟩, db)
  else
    let jobIds := (selections.filter (·.jobMedia)).map (·.id)
    let diaryIds := (selections.filter (!·.jobMedia)).map (·.id)
    let onJob (m : JobMediaRow) : Bool := m.jobId = job && m.id ∈ jobIds
    let inDiary (m : DiaryMediaRow) : Bool := (db.siteDiary.find m.diaryEntryId).any (·.jobId = job) && m.id ∈ diaryIds
    let found := (db.jobMedia.select fun m => onJob m && jobInScope db scope m.jobId).map
        (fun m => (MediaSelection.mk true m.id, m.uploadedBy)) ++
      (visibleMedia db scope inDiary).map fun m => (MediaSelection.mk false m.id, m.uploadedBy)
    let owner (sel : MediaSelection) : Option (Option UserId) := (found.find? (·.1 = sel)).map (·.2)
    let missing := selections.filter fun sel => (owner sel).isNone
    let forbidden := selections.filter fun sel =>
      (owner sel).any fun uploader => uploadedBy.any fun user => uploader ≠ some user
    if missing ≠ [] || forbidden ≠ [] then (⟨missing, forbidden, []⟩, db)
    else (⟨[], [], selections⟩, removeDiaryMedia (removeJobMedia db scope onJob) scope inDiary)

end Repository

section Inserts
variable {db after : Db} {scope : CompanyId} {now : Instant}

/-- The policies look at the row that is written. -/
theorem inserted_visible {entry : DiaryEntryId} {note : Option DiaryNoteId} {fileType : FileType} {rec : MediaRecord}
    {row : DiaryMediaRow} (inserted : insertDiaryMedia db scope now entry note fileType rec = .ok (row, after)) :
    entryInScope db scope entry = true := by
  obtain ⟨written, -⟩ := insertRow_ok inserted
  simp only [diaryMediaConstraint, fileViolations, overlong, tooLong, List.cons_append, List.nil_append,
    firstViolation_cons, Bool.not_eq_false'] at written
  exact written.2.2.2.2.1

theorem insertedFile_visible {job : JobId} {rec : MediaRecord} {row : JobMediaRow}
    (inserted : insertJobMedia db scope now job rec = .ok (row, after)) : jobInScope db scope job = true := by
  obtain ⟨written, -⟩ := insertRow_ok inserted
  simp only [jobMediaConstraint, fileViolations, overlong, tooLong, List.cons_append, List.nil_append,
    firstViolation_cons, Bool.not_eq_false'] at written
  exact written.2.2.2.2.1

end Inserts

end MediaStore
