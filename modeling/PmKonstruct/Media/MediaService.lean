import PmKonstruct.Diary.DiaryService
import PmKonstruct.Media.MediaStore

/- The second step of an upload: the caller reaches the owner, the object passes its check, the row is written.
   The note of a diary upload is the client's and is handed on as it came. A deletion takes the row at once and
   leaves the object to the queue. -/
namespace MediaService
open PlainText DomainErrors Accounts Schema RowSecurity Requests MediaStore Upload
open AuthService (SessionUser)
open DeletionQueue (objectKey)

section Service
variable (db : Db) (s : SessionUser)

def assertDiaryAccess (entry : DiaryEntryId) : Except AppError Unit := (DiaryService.get db s entry).map fun _ => ()

def assertJobAccess (job : JobId) : Except AppError Unit := (getJob db s job).map fun _ => ()

def assertOwnerAccess : MediaOwner → Except AppError Unit
  | .diary entry _ => assertDiaryAccess db s entry
  | .job job => assertJobAccess db s job

def keyFor (owner : MediaOwner) (storedName : Text) : Text :=
  match owner with
  | .diary entry _ => objectKey s.principal.companyId (text "diary") entry storedName
  | .job job => objectKey s.principal.companyId (text "job") job storedName

def confirmUpload (storage : ObjectStore) (now : Instant) (owner : MediaOwner)
    (storedName originalName mimeType : Text) : Outcome Media :=
  attempt db (assertOwnerAccess db s owner) fun _ =>
    let key := keyFor s owner storedName
    attempt db (verify storage key mimeType originalName) fun verified =>
      committed db (record db s.principal.companyId now
        ⟨owner, verified.kind.fileType, verified.kind.mime, originalName, storedName, verified.sizeBytes, key,
          s.user.id⟩)

/-- Reaching the job at all is not enough for office staff. -/
def delete (id : MediaId) (jobMedia : Bool) : Outcome Unit :=
  match MediaStore.find db s.principal.companyId id jobMedia with
  | none => (.error (.domain (.notFound "Media")), db)
  | some media =>
    attempt db (assertOwnerAccess db s media.owner) fun _ =>
      if mayDeleteMedia s.user.role s.user.id media.uploadedBy then
        deletedOrNotFound "Media" (MediaStore.delete db s.principal.companyId id jobMedia)
      else (.error (.domain (.forbidden "You can only delete photos you uploaded")), db)

def deleteSelected (job : JobId) (selections : List MediaSelection) : Outcome BulkDeletePlan :=
  attempt db (assertJobAccess db s job) fun _ =>
    let restrictTo := if s.user.role = .office then some s.user.id else none
    committed db (.ok (deleteMany db s.principal.companyId job selections restrictTo))

/-- The upload gets past the checks that come before its row. -/
def confirms (storage : ObjectStore) (owner : MediaOwner) (storedName originalName mimeType : Text) : Bool :=
  (assertOwnerAccess db s owner).isOk && (verify storage (keyFor s owner storedName) mimeType originalName).isOk

end Service

end MediaService
