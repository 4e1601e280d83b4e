import PmKonstruct.Forms.InspectionStore
import PmKonstruct.Media.MediaService

/- The use cases of an inspection draft. A save renders the diary's copy of it; a change of its photos does not. -/
namespace InspectionService
open PlainText DomainErrors Accounts CalendarDate Schema RowSecurity Requests MediaStore InspectionStore Upload
open AuthService (SessionUser)
open DeletionQueue (objectKey)
open MediaService (assertJobAccess)
open InspectionNote

structure InspectionPhotoUpload where
  storedName : Text
  originalName : Text
  mimeType : Text
  deriving DecidableEq, Repr

def staleRevision : DomainError :=
  .conflict "This inspection changed in another session. Reload it before continuing."

def assertItemExists (draft : InspectionForm) (clientKey : Text) : Except DomainError Unit :=
  let key := trim clientKey
  if key = [] then .error (.invalid "clientKey" "an inspection item is required")
  else if draft.items.any (·.clientKey = key) then .ok ()
  else .error (.conflict "Save the inspection item before adding photos")

def assertPhoto (fileType : FileType) : Except DomainError Unit :=
  if fileType = .photo then .ok ()
  else .error (.invalid "mimeType" "an inspection item accepts photos only")

def batchOk (uploads : List InspectionPhotoUpload) : Except DomainError Unit :=
  if uploads.isEmpty then .error (.invalid "files" "Choose at least one photo")
  else validateBatchSize uploads.length maxFilesPerUpload

section Service
variable (db : Db) (s : SessionUser)

/-- The text of an empty note is rendered from the date and is taken as it comes. -/
def getOrCreateDraft (now : Instant) (job : JobId) (date : Date) (emptyNote : Text) : Outcome InspectionForm :=
  attempt db (assertJobAccess db s job) fun _ =>
    committed db (InspectionStore.getOrCreateDraft db s.principal.companyId now job s.user.id date emptyNote)

def findDraft (id : InspectionFormId) : Except AppError InspectionForm :=
  match load db s.principal.companyId id s.user.id with
  | none => .error (.domain (.notFound "Inspection draft"))
  | some draft => (assertJobAccess db s draft.form.jobId).map fun _ => draft

/-- Inspection photos are diary media, so they share the diary key space. -/
def keyFor (draft : InspectionForm) (storedName : Text) : Text :=
  objectKey s.principal.companyId (text "diary") draft.form.diaryEntryId storedName

/-- One bad file fails the batch. -/
def verifyEach (storage : ObjectStore) (draft : InspectionForm) (clientKey : Text) :
    List InspectionPhotoUpload → Except AppError (List InspectionPhotoRecord)
  | [] => .ok []
  | u :: rest => do
    let key := keyFor s draft u.storedName
    let verified ← verify storage key u.mimeType u.originalName
    inDomain (assertPhoto verified.kind.fileType)
    let records ← verifyEach storage draft clientKey rest
    return ⟨⟨.diary draft.form.diaryEntryId (some draft.form.diaryNoteId), verified.kind.fileType, verified.kind.mime,
      u.originalName, u.storedName, verified.sizeBytes, key, s.user.id⟩, clientKey⟩ :: records

def orStale {α : Type} (outcome : Outcome (Option α)) : Outcome α :=
  match outcome with
  | (.error e, after) => (.error e, after)
  | (.ok none, after) => (.error (.domain staleRevision), after)
  | (.ok (some value), after) => (.ok value, after)

def attachPhotos (storage : ObjectStore) (now : Instant) (id : InspectionFormId) (clientKey : Text)
    (expected : Int) (uploads : List InspectionPhotoUpload) : Outcome InspectionForm :=
  attempt db (inDomain (batchOk uploads)) fun _ =>
    attempt db (findDraft db s id) fun draft =>
      if draft.form.revision ≠ expected then (.error (.domain staleRevision), db)
      else
        attempt db (inDomain (assertItemExists draft clientKey)) fun _ =>
          attempt db (verifyEach s storage draft clientKey uploads) fun records =>
            orStale (committed db
              (InspectionStore.attachPhotos db s.principal.companyId now id s.user.id expected records))

def emptyDraft : InspectionDraftInput := ⟨[], [], [], [], none, 0, []⟩

/-- The draft's note reads sensibly from the moment it appears in the diary. -/
def emptyNote (date : Date) : Text := inspectionNote emptyDraft date fun _ => 0

def asStr : InspectionNote.ActionStatus → Schema.ActionStatus
  | .action => .action
  | .completed => .completed

/-- Everything a save writes into the diary. -/
def render (input : InspectionDraftInput) (inspectionDate : Date) (counts : Text → Nat) : RenderedInspection :=
  ⟨inspectionNote input inspectionDate counts, inspectionEntrySummary input.inspectionType input.stage,
    (inspectionActionStatus input.retained counts).map asStr⟩

def saveDraft (now : Instant) (id : InspectionFormId) (input : InspectionDraftInput) : Outcome InspectionForm :=
  attempt db (inDomain input.validate) fun _ =>
    attempt db (findDraft db s id) fun draft =>
      let rendered := render input draft.form.inspectionDate (photoCounts db s.principal.companyId id)
      orStale (committed db (InspectionStore.saveDraft db s.principal.companyId now id s.user.id input rendered))

def deletePhoto (now : Instant) (id : InspectionFormId) (expected photo : Int) : Outcome InspectionForm :=
  attempt db (findDraft db s id) fun _ =>
    orStale (committed db (InspectionStore.deletePhoto db s.principal.companyId now id s.user.id expected photo))

end Service

theorem orStale_after {α : Type} {outcome : Outcome (Option α)} : (orStale outcome).2 = outcome.2 := by
  obtain ⟨result, after⟩ := outcome
  cases result with
  | error e => rfl
  | ok found => cases found <;> rfl

theorem findDraft_load {db : Db} {s : SessionUser} {id : InspectionFormId} {draft : InspectionForm}
    (found : findDraft db s id = .ok draft) : load db s.principal.companyId id s.user.id = some draft := by
  unfold findDraft at found
  split at found
  · cases found
  · next there =>
    obtain ⟨_, -, rfl⟩ := map_ok found
    exact there

end InspectionService
