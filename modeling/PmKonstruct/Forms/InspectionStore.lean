import Mathlib.Data.List.Sort
import PmKonstruct.Diary.DiaryStore
import PmKonstruct.Forms.InspectionNote
import PmKonstruct.Media.MediaStore

/- Inspection drafts: a form, the diary entry and the note it is written to, its items and their photos. A draft
   belongs to the person who started it, so ownership is part of every lookup. -/
namespace InspectionStore
open PlainText DomainErrors Accounts CalendarDate Schema KeyedTable RowSecurity Requests MediaStore DeletionQueue
open InspectionNote (InspectionItemInput InspectionDraftInput)

structure InspectionPhoto where
  id : Int
  itemId : Int
  diaryMediaId : MediaId
  sortOrder : Int
  originalName : Text
  mimeType : Text
  fileSize : Int
  url : Text
  deriving DecidableEq, Repr

structure InspectionItem where
  id : Int
  clientKey : Text
  room : Text
  description : Text
  actioned : Bool
  sortOrder : Int
  photos : List InspectionPhoto
  deriving DecidableEq, Repr

structure InspectionForm where
  form : InspectionFormRow
  items : List InspectionItem
  deriving DecidableEq, Repr

/-- What a save writes into the diary. -/
structure RenderedInspection where
  noteContent : Text
  entrySummary : Text
  actionStatus : Option ActionStatus
  deriving DecidableEq, Repr

/-- An item as the upsert proposes it. -/
structure ProposedItem where
  clientKey : Text
  room : Text
  description : Text
  actioned : Bool
  sortOrder : Int
  deriving DecidableEq, Repr

structure InspectionPhotoRecord where
  media : MediaRecord
  clientKey : Text
  deriving DecidableEq, Repr

section Repository
variable (db : Db) (scope : CompanyId)

def photosOf (form : InspectionFormId) : List InspectionPhoto :=
  let links := (db.inspectionFormMedia.select fun m => m.formId = form && formInScope db scope m.formId).insertionSort
    fun a b => a.sortOrder < b.sortOrder ∨ a.sortOrder = b.sortOrder ∧ a.id ≤ b.id
  links.filterMap fun m =>
    (db.diaryMedia.reach (fun d => entryInScope db scope d.diaryEntryId) m.diaryMediaId).map fun d =>
      ⟨m.id, m.itemId, m.diaryMediaId, m.sortOrder, d.originalName, d.mimeType, d.fileSize, d.url⟩

def itemsOf (form : InspectionFormId) : List InspectionItem :=
  let rows := (db.inspectionFormItems.select fun i => i.formId = form && formInScope db scope i.formId).insertionSort
    fun a b => a.sortOrder < b.sortOrder ∨ a.sortOrder = b.sortOrder ∧ a.id ≤ b.id
  rows.map fun i => ⟨i.id, i.clientKey, i.room, i.description, i.actioned, i.sortOrder,
    (photosOf db scope form).filter (·.itemId = i.id)⟩

def load (form : InspectionFormId) (user : UserId) : Option InspectionForm :=
  (db.inspectionForms.reach (fun f => f.companyId = scope && f.createdBy = user) form).map fun row =>
    ⟨row, itemsOf db scope form⟩

def nextRevision (now : Instant) (form : InspectionFormRow) : InspectionFormRow :=
  { form with
    revision := form.revision + 1
    updatedAt := now }

theorem nextRevision_key (now : Instant) (form : InspectionFormRow) :
    Keyed.key (nextRevision now form) = Keyed.key form := rfl

/-- The whole of the concurrency control: the update that matches no row is the conflict. -/
def claimRevision (now : Instant) (form : InspectionFormId) (expected : Int) : Bool × Db :=
  let (claimed, forms) := db.inspectionForms.updateAt (fun f => f.revision = expected && f.companyId = scope) form
    (nextRevision now) (nextRevision_key now)
  (claimed.isSome, { db with inspectionForms := forms })

def insertEntry (job : JobId) (author : UserId) (date : Date) : Except PortError (SiteDiaryRow × Db) :=
  DiaryStore.insertEntry db scope job author date (text "Site Inspection — Draft")

def insertInspectionNote (now : Instant) (entry : DiaryEntryId) (content : Text) :
    Except PortError (DiaryNoteRow × Db) :=
  DiaryStore.insertNote db scope now entry .propertyInspection content none

def insertForm (now : Instant) (job : JobId) (user : UserId) (entry : DiaryEntryId) (note : DiaryNoteId)
    (date : Date) : Except PortError (InspectionFormRow × Db) :=
  insertRow db.inspectionForms (fun forms => { db with inspectionForms := forms }) (fun f => f)
    (fun id => ⟨id, scope, job, user, entry, note, date, [], [], [], [], none, 0, now, now⟩) (fun _ => rfl)
    (firstViolation [
      (db.inspectionForms.rows.any fun f => f.companyId = scope && f.jobId = job && f.createdBy = user,
        .conflict (some "inspection_forms_user_job_unique")),
      ((db.users.find user).isNone, .conflict (some "inspection_forms_created_by_fkey")),
      ((db.siteDiary.find entry).isNone, .conflict (some "inspection_forms_diary_entry_id_fkey")),
      ((db.diaryNotes.find note).isNone, .conflict (some "inspection_forms_diary_note_id_fkey")),
      ((db.jobs.find job).isNone, .conflict (some "inspection_forms_job_id_fkey"))])

def loaded (form : InspectionFormId) (user : UserId) : Except PortError (InspectionForm × Db) :=
  match load db scope form user with
  | none => .error .notFound
  | some draft => .ok (draft, db)

/-- One draft for a person on a job; a new one comes with its entry and its note. -/
def getOrCreateDraft (now : Instant) (job : JobId) (user : UserId) (date : Date) (emptyNote : Text) :
    Except PortError (InspectionForm × Db) :=
  let mine := db.inspectionForms.select fun f => f.jobId = job && f.createdBy = user && f.companyId = scope
  match mine.head? with
  | some existing => loaded db scope existing.id user
  | none => do
    let (entry, db) ← insertEntry db scope job user date
    let (note, db) ← insertInspectionNote db scope now entry.id emptyNote
    let (form, db) ← insertForm db scope now job user entry.id note.id date
    loaded db scope form.id user

/-- The photo goes to the end of its item. -/
def linkPhoto (form : InspectionFormId) (item : Int) (media : MediaId) : Except PortError Db :=
  let orders := (db.inspectionFormMedia.select fun m => m.itemId = item && formInScope db scope m.formId).map
    (·.sortOrder)
  (nextOrder orders).map fun order => { db with
    inspectionFormMedia := db.inspectionFormMedia.insert (fun id => ⟨id, form, item, media, order⟩) (fun _ => rfl) }

/-- A missing item is a lost race and not a bad request: it was there when the upload was signed. -/
def attachPhoto (now : Instant) (form : InspectionFormRow) (photo : InspectionPhotoRecord) : Except PortError Db :=
  let items := db.inspectionFormItems.select fun i =>
    i.formId = form.id && i.clientKey = trim photo.clientKey && formInScope db scope i.formId
  match items.head? with
  | none => .error (.conflict (some "inspection_item_missing"))
  | some item => do
    let (media, after) ← insertDiaryMedia db scope now form.diaryEntryId (some form.diaryNoteId) .photo photo.media
    linkPhoto after scope form.id item.id media.id

def attachEach (now : Instant) (form : InspectionFormRow) (db : Db) : List InspectionPhotoRecord → Except PortError Db
  | [] => .ok db
  | photo :: rest =>
    match attachPhoto db scope now form photo with
    | .error e => .error e
    | .ok after => attachEach now form after rest

def attachPhotos (now : Instant) (id : InspectionFormId) (user : UserId) (expected : Int)
    (photos : List InspectionPhotoRecord) : Except PortError (Option InspectionForm × Db) :=
  match load db scope id user with
  | none => .error .notFound
  | some draft =>
    match claimRevision db scope now id expected with
    | (false, _) => .ok (none, db)
    | (true, claimed) =>
      match attachEach scope now draft.form claimed photos with
      | .error e => .error e
      | .ok attached => .ok (load attached scope id user, attached)

/- Saving replaces the checklist: the items that were not sent again go, with their photos. -/

/-- An item without a place of its own takes the one it was sent at. -/
def proposedItems (items : List InspectionItemInput) : List ProposedItem :=
  items.mapIdx fun index i => ⟨trim i.clientKey, i.room, i.description, i.actioned,
    i.sortOrder.getD (if (index : Int) < 2 ^ 31 then index else 2 ^ 31 - 1)⟩

def ProposedItem.row (form : InspectionFormId) (item : ProposedItem) (id : Int) : InspectionFormItemRow :=
  ⟨id, form, item.clientKey, item.room, item.description, item.actioned, item.sortOrder⟩

def holdsKey (form : InspectionFormId) (clientKey : Text) (item : InspectionFormItemRow) : Bool :=
  item.formId = form && item.clientKey = clientKey

/-- `ON CONFLICT (form_id, client_key) DO UPDATE`, a row at a time. -/
def upsertItem (form : InspectionFormId) (items : Table InspectionFormItemRow) (item : ProposedItem) :
    Table InspectionFormItemRow :=
  if items.rows.any (holdsKey form item.clientKey) then
    items.update (holdsKey form item.clientKey) (fun row => item.row form row.id) (fun _ => rfl)
  else items.insert (item.row form) (fun _ => rfl)

def upsertItems (form : InspectionFormId) (items : Table InspectionFormItemRow) :
    List ProposedItem → Table InspectionFormItemRow
  | [] => items
  | item :: rest => upsertItems form (upsertItem form items item) rest

def upsertViolation (keys : List Text) : Option PortError :=
  firstViolation ((keys.map (tooLong 100)) ++ [(decide ¬ keys.Nodup,
    .storage "error returned from database: ON CONFLICT DO UPDATE command cannot affect row a second time")])

def detachMedia (ids : List MediaId) : Db := removeDiaryMedia db scope fun m => m.id ∈ ids

def dropped (form : InspectionFormId) (keys : List Text) (item : InspectionFormItemRow) : Bool :=
  item.formId = form && item.clientKey ∉ keys && formInScope db scope item.formId

def onDropped (form : InspectionFormId) (keys : List Text) (link : InspectionFormMediaRow) : Bool :=
  (db.inspectionFormItems.find link.itemId).any (dropped db scope form keys)

def orphanedMedia (form : InspectionFormId) (keys : List Text) : List MediaId :=
  (db.inspectionFormMedia.select fun m => onDropped db scope form keys m && formInScope db scope m.formId).map
    (·.diaryMediaId)

def dropItems (form : InspectionFormId) (keys : List Text) : Db := { db with
  inspectionFormItems := db.inspectionFormItems.delete (dropped db scope form keys)
  inspectionFormMedia := db.inspectionFormMedia.delete (onDropped db scope form keys) }

def writeFields (form : InspectionFormId) (input : InspectionDraftInput) : Db := { db with
  inspectionForms := db.inspectionForms.update (fun f => f.id = form && f.companyId = scope)
    (fun f => { f with
      inspector := input.inspector
      inspectionType := input.inspectionType
      stage := input.stage
      observations := input.observations
      weatherData := input.weatherData })
    (fun _ => rfl) }

def writeItems (form : InspectionFormId) (items : List InspectionItemInput) : Except PortError Db :=
  let proposed := proposedItems items
  let keys := proposed.map (·.clientKey)
  let detached := detachMedia db scope (orphanedMedia db scope form keys)
  let kept := dropItems detached scope form keys
  match upsertViolation keys with
  | some e => .error e
  | none => .ok { kept with inspectionFormItems := upsertItems form kept.inspectionFormItems proposed }

/-- Only an outstanding action names who raised it. -/
def actionRaiser (rendered : RenderedInspection) (user : UserId) : Option UserId :=
  if rendered.actionStatus = some .action then some user else none

def writeNote (note : DiaryNoteId) (user : UserId) (rendered : RenderedInspection) : Except PortError Db :=
  (checkedChange db.diaryNotes (fun notes => { db with diaryNotes := notes }) (fun n => n)
    (DiaryStore.noteVisible db scope) note
    (fun n => { n with
      content := rendered.noteContent
      actionStatus := rendered.actionStatus
      actionRaisedBy := actionRaiser rendered user })
    (fun _ => rfl)
    (firstViolation [((actionRaiser rendered user).any fun u => (db.users.find u).isNone,
      .conflict (some "diary_notes_action_raised_by_users_id_fk"))])).map (·.2)

def writeEntry (entry : DiaryEntryId) (user : UserId) (rendered : RenderedInspection) : Except PortError Db :=
  (checkedChange db.siteDiary (fun entries => { db with siteDiary := entries }) (fun e => e)
    (fun e => jobInScope db scope e.jobId) entry
    (fun e => { e with
      workCompleted := rendered.entrySummary
      actionStatus := rendered.actionStatus
      actionRaisedBy := actionRaiser rendered user })
    (fun _ => rfl)
    (firstViolation [((actionRaiser rendered user).any fun u => (db.users.find u).isNone,
      .conflict (some "site_diary_action_raised_by_users_id_fk"))])).map (·.2)

def saveDraft (now : Instant) (id : InspectionFormId) (user : UserId) (input : InspectionDraftInput)
    (rendered : RenderedInspection) : Except PortError (Option InspectionForm × Db) :=
  match load db scope id user with
  | none => .error .notFound
  | some draft =>
    match claimRevision db scope now id input.revision with
    | (false, _) => .ok (none, db)
    | (true, claimed) => do
      let written ← writeItems (writeFields claimed scope id input) scope id input.retained
      let noted ← writeNote written scope draft.form.diaryNoteId user rendered
      let entered ← writeEntry noted scope draft.form.diaryEntryId user rendered
      return (load entered scope id user, entered)

/-- A photo is looked for on the form: an id guessed from another inspection is not found. -/
def deletePhoto (now : Instant) (id : InspectionFormId) (user : UserId) (expected photo : Int) :
    Except PortError (Option InspectionForm × Db) :=
  match load db scope id user with
  | none => .error .notFound
  | some _ =>
    match claimRevision db scope now id expected with
    | (false, _) => .ok (none, db)
    | (true, claimed) =>
      match claimed.inspectionFormMedia.reach (fun m => m.formId = id && formInScope claimed scope m.formId) photo with
      | none => .error .notFound
      | some link =>
        let detached := detachMedia claimed scope [link.diaryMediaId]
        .ok (load detached scope id user, detached)

/-- How many photos the item under a key has; a key without an item has none. -/
def photoCounts (form : InspectionFormId) (clientKey : Text) : Nat :=
  (db.inspectionFormMedia.select fun m => m.formId = form && formInScope db scope m.formId &&
    (db.inspectionFormItems.find m.itemId).any fun i => i.clientKey = clientKey && formInScope db scope i.formId).length

end Repository

end InspectionStore
