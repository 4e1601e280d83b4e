import PmKonstruct.Forms.InspectionStore
import PmKonstruct.Library.ReadCommitted

/- The changes to an inspection draft, as transactions under READ COMMITTED. A statement looks at the rows of its
   snapshot; a row it writes is read again as it is once its lock is free, and must still match. What is written is the
   image of a row, or the id of a row that goes. The key-share locks of foreign keys are left out: they exclude nothing
   but deletions of the rows they name. -/
namespace DraftPrograms
open PlainText DomainErrors Accounts Schema KeyedTable RowSecurity Requests DeletionQueue ReadCommitted
open StatementProgram (Program)
open MediaStore (diaryMediaConstraint originalColumn sizeColumn)
open InspectionStore (InspectionForm InspectionItem InspectionPhoto InspectionPhotoRecord ProposedItem RenderedInspection
  actionRaiser dropped holdsKey nextRevision orphanedMedia photosOf proposedItems upsertViolation)
open InspectionNote (InspectionDraftInput)

inductive Query where
  | selectForm (form : InspectionFormId) (user : UserId)
  | selectItems (form : InspectionFormId)
  | selectPhotos (form : InspectionFormId)
  | claimRevision (form : InspectionFormId) (expected : Int) (now : Instant)
  | writeFields (form : InspectionFormId) (input : InspectionDraftInput)
  | selectOrphaned (form : InspectionFormId) (keys : List Text)
  | deleteMedia (ids : List MediaId)
  | enqueue (keys : List Text)
  | dropItems (form : InspectionFormId) (keys : List Text)
  | upsertItems (form : InspectionFormId) (items : List ProposedItem)
  | updateNote (note : DiaryNoteId) (user : UserId) (rendered : RenderedInspection)
  | updateEntry (entry : DiaryEntryId) (user : UserId) (rendered : RenderedInspection)
  | selectItem (form : InspectionFormId) (clientKey : Text)
  | insertMedia (form : InspectionFormRow) (photo : InspectionPhotoRecord) (now : Instant)
  | linkPhoto (form : InspectionFormId) (item : Int) (media : MediaId)
  | selectPhotoMedia (form : InspectionFormId) (photo : Int)

/-- An update answers whether it affected a row. -/
abbrev Reply : Query → Type
  | .selectForm _ _ => Option InspectionFormRow
  | .selectItems _ => List InspectionFormItemRow
  | .selectPhotos _ => List InspectionPhoto
  | .claimRevision _ _ _ => Bool
  | .writeFields _ _ => Bool
  | .selectOrphaned _ _ => List MediaId
  | .deleteMedia _ => List (Text × DiaryEntryId)
  | .enqueue _ => Unit
  | .dropItems _ _ => Unit
  | .upsertItems _ _ => Unit
  | .updateNote _ _ _ => Bool
  | .updateEntry _ _ _ => Bool
  | .selectItem _ _ => Option Int
  | .insertMedia _ _ _ => MediaId
  | .linkPhoto _ _ _ => Unit
  | .selectPhotoMedia _ _ => Option MediaId

/-- A statement runs for the company its transaction was opened for. -/
structure Statement where
  scope : CompanyId
  query : Query

abbrev Answer (statement : Statement) : Type := Except PortError (Reply statement.query)

/-- A row of a table, or a place in a unique index. -/
inductive Lock where
  | form (id : InspectionFormId)
  | item (id : Int)
  | itemKey (form : InspectionFormId) (clientKey : Text)
  | note (id : DiaryNoteId)
  | entry (id : DiaryEntryId)
  | media (id : MediaId)
  | link (id : Int)
  | queued (key : Text)
  deriving DecidableEq

def reading {α : Type} (answer : α) : Effect (Except PortError α) Db Lock := ⟨.ok answer, fun db => db, [], [], 0⟩

def failing {α : Type} (e : PortError) : Effect (Except PortError α) Db Lock := ⟨.error e, fun db => db, [], [], 0⟩

/-- `UPDATE … WHERE id = $1`, with a row that must match in the snapshot and as it is. -/
def updateOne {Row : Type} [Keyed Row] (snapshot current : Table Row) (p : Row → Bool) (id : Int) (lock : Lock)
    (change : Row → Except PortError Row) (put : Row → Db → Db) : Effect (Except PortError Bool) Db Lock :=
  match snapshot.reach p id with
  | none => reading false
  | some _ =>
    match current.reach p id with
    | none => ⟨.ok false, fun db => db, [lock], [lock], 0⟩
    | some row =>
      match change row with
      | .error e => ⟨.error e, fun db => db, [lock], [], 0⟩
      | .ok image => ⟨.ok true, put image, [lock], [lock], 0⟩

def inOrder {Row : Type} (sortOrder id : Row → Int) (rows : List Row) : List Row :=
  rows.insertionSort fun a b => sortOrder a < sortOrder b ∨ sortOrder a = sortOrder b ∧ id a ≤ id b

section Statements
variable (snapshot current : Db) (scope : CompanyId)

def selectForm (form : InspectionFormId) (user : UserId) : Option InspectionFormRow :=
  snapshot.inspectionForms.reach (fun f => f.companyId = scope && f.createdBy = user) form

def selectItems (form : InspectionFormId) : List InspectionFormItemRow :=
  inOrder (·.sortOrder) (·.id)
    (snapshot.inspectionFormItems.select fun i => i.formId = form && formInScope snapshot scope i.formId)

def putForm (form : InspectionFormRow) (db : Db) : Db := { db with inspectionForms := db.inspectionForms.put form }

/-- The revision is a signed 32-bit column. -/
def claimRevision (form : InspectionFormId) (expected : Int) (now : Instant) :
    Effect (Except PortError Bool) Db Lock :=
  updateOne snapshot.inspectionForms current.inspectionForms (fun f => f.revision = expected && f.companyId = scope)
    form (.form form)
    (fun row =>
      if row.revision + 1 < 2 ^ 31 then .ok (nextRevision now row)
      else .error (.storage "error returned from database: integer out of range"))
    putForm

def writeFields (form : InspectionFormId) (input : InspectionDraftInput) : Effect (Except PortError Bool) Db Lock :=
  updateOne snapshot.inspectionForms current.inspectionForms (fun f => f.companyId = scope) form (.form form)
    (fun row => .ok { row with
      inspector := input.inspector
      inspectionType := input.inspectionType
      stage := input.stage
      observations := input.observations
      weatherData := input.weatherData })
    putForm

/-- The links of a deleted photo or item go with it. -/
def deleteMedia (ids : List MediaId) : Effect (Except PortError (List (Text × DiaryEntryId))) Db Lock :=
  let listed := visibleMedia snapshot scope fun m => m.id ∈ ids
  let present := listed.filterMap fun m => current.diaryMedia.find m.id
  let gone := present.map (·.id)
  let links := (current.inspectionFormMedia.select fun l => l.diaryMediaId ∈ gone).map (·.id)
  { answer := .ok (present.map fun m => (m.storedName, m.diaryEntryId))
    change := fun db => { db with
      diaryMedia := db.diaryMedia.delete fun m => m.id ∈ gone
      inspectionFormMedia := db.inspectionFormMedia.delete fun l => l.id ∈ links }
    awaits := listed.map fun m => .media m.id
    takes := (gone.map .media) ++ links.map .link
    drawn := 0 }

def enqueueKeys (keys : List Text) : Effect (Except PortError Unit) Db Lock :=
  { answer := .ok ()
    change := fun db => { db with mediaDeletionQueue := enqueue db.mediaDeletionQueue keys }
    awaits := keys.map .queued
    takes := (keys.filter fun key => key ∉ current.mediaDeletionQueue).map .queued
    drawn := 0 }

def dropItems (form : InspectionFormId) (keys : List Text) : Effect (Except PortError Unit) Db Lock :=
  let listed := (snapshot.inspectionFormItems.select (dropped snapshot scope form keys)).map (·.id)
  let gone := listed.filter fun id => (current.inspectionFormItems.find id).isSome
  let links := (current.inspectionFormMedia.select fun l => l.itemId ∈ gone).map (·.id)
  { answer := .ok ()
    change := fun db => { db with
      inspectionFormItems := db.inspectionFormItems.delete fun i => i.id ∈ gone
      inspectionFormMedia := db.inspectionFormMedia.delete fun l => l.id ∈ links }
    awaits := listed.map .item
    takes := (gone.map .item) ++ links.map .link
    drawn := 0 }

/-- `ON CONFLICT (form_id, client_key) DO UPDATE`: a taken key is updated under the id it has, and a draw is lost. -/
def upsertItems (serial : Int) (form : InspectionFormId) (items : List ProposedItem) :
    Effect (Except PortError Unit) Db Lock :=
  let keys := items.map (·.clientKey)
  match upsertViolation keys with
  | some e => failing e
  | none =>
    let taken (key : Text) : Option Int := (current.inspectionFormItems.rows.find? (holdsKey form key)).map (·.id)
    let rows := items.mapIdx fun n item => item.row form ((taken item.clientKey).getD (serial + n))
    { answer := .ok ()
      change := fun db => { db with inspectionFormItems := db.inspectionFormItems.putAll rows }
      awaits := []
      takes := keys.map (.itemKey form) ++ (keys.filterMap taken).map .item
      drawn := items.length }

def raiserCheck {Row : Type} (constraint : String) (user : UserId) (rendered : RenderedInspection) (row : Row) :
    Except PortError Row :=
  if (actionRaiser rendered user).any fun u => (current.users.find u).isNone then
    .error (.conflict (some constraint))
  else .ok row

def updateNote (note : DiaryNoteId) (user : UserId) (rendered : RenderedInspection) :
    Effect (Except PortError Bool) Db Lock :=
  updateOne snapshot.diaryNotes current.diaryNotes (DiaryStore.noteVisible snapshot scope) note (.note note)
    (fun row => raiserCheck current "diary_notes_action_raised_by_users_id_fk" user rendered { row with
      content := rendered.noteContent
      actionStatus := rendered.actionStatus
      actionRaisedBy := actionRaiser rendered user })
    (fun image db => { db with diaryNotes := db.diaryNotes.put image })

def updateEntry (entry : DiaryEntryId) (user : UserId) (rendered : RenderedInspection) :
    Effect (Except PortError Bool) Db Lock :=
  updateOne snapshot.siteDiary current.siteDiary (fun e => jobInScope snapshot scope e.jobId) entry (.entry entry)
    (fun row => raiserCheck current "site_diary_action_raised_by_users_id_fk" user rendered { row with
      workCompleted := rendered.entrySummary
      actionStatus := rendered.actionStatus
      actionRaisedBy := actionRaiser rendered user })
    (fun image db => { db with siteDiary := db.siteDiary.put image })

def selectItem (form : InspectionFormId) (clientKey : Text) : Option Int :=
  let items := snapshot.inspectionFormItems.select fun i =>
    i.formId = form && i.clientKey = clientKey && formInScope snapshot scope i.formId
  items.head?.map (·.id)

def insertMedia (serial : Int) (form : InspectionFormRow) (photo : InspectionPhotoRecord) (now : Instant) :
    Effect (Except PortError MediaId) Db Lock :=
  match diaryMediaConstraint current scope form.diaryEntryId (some form.diaryNoteId) photo.media with
  | some e => failing e
  | none =>
    let media : DiaryMediaRow := ⟨serial, form.diaryEntryId, some form.diaryNoteId, .photo, photo.media.mimeType,
      originalColumn photo.media, photo.media.storedName, sizeColumn photo.media.fileSize, photo.media.url,
      some photo.media.uploadedBy, now⟩
    { answer := .ok serial
      change := fun db => { db with diaryMedia := db.diaryMedia.put media }
      awaits := []
      takes := []
      drawn := 1 }

/-- The place after the last photo of the item, as the snapshot shows them. -/
def linkPhoto (serial : Int) (form : InspectionFormId) (item : Int) (media : MediaId) :
    Effect (Except PortError Unit) Db Lock :=
  let orders := (snapshot.inspectionFormMedia.select fun m => m.itemId = item && formInScope snapshot scope m.formId).map
    (·.sortOrder)
  match nextOrder orders with
  | .error e => failing e
  | .ok order =>
    match firstViolation [
        (!formInScope snapshot scope form, rowDenied "inspection_form_media"),
        ((current.diaryMedia.find media).isNone, .conflict (some "inspection_form_media_diary_media_id_fkey")),
        ((current.inspectionForms.find form).isNone, .conflict (some "inspection_form_media_form_id_fkey")),
        ((current.inspectionFormItems.find item).isNone, .conflict (some "inspection_form_media_item_id_fkey"))] with
    | some e => failing e
    | none =>
      { answer := .ok ()
        change := fun db => { db with
          inspectionFormMedia := db.inspectionFormMedia.put ⟨serial, form, item, media, order⟩ }
        awaits := []
        takes := []
        drawn := 1 }

def selectPhotoMedia (form : InspectionFormId) (photo : Int) : Option MediaId :=
  (snapshot.inspectionFormMedia.reach (fun m => m.formId = form && formInScope snapshot scope m.formId) photo).map
    (·.diaryMediaId)

def perform (serial : Int) : (query : Query) → Effect (Except PortError (Reply query)) Db Lock
  | .selectForm form user => reading (selectForm snapshot scope form user)
  | .selectItems form => reading (selectItems snapshot scope form)
  | .selectPhotos form => reading (photosOf snapshot scope form)
  | .claimRevision form expected now => claimRevision snapshot current scope form expected now
  | .writeFields form input => writeFields snapshot current scope form input
  | .selectOrphaned form keys => reading (orphanedMedia snapshot scope form keys)
  | .deleteMedia ids => deleteMedia snapshot current scope ids
  | .enqueue keys => enqueueKeys current keys
  | .dropItems form keys => dropItems snapshot current scope form keys
  | .upsertItems form items => upsertItems current serial form items
  | .updateNote note user rendered => updateNote snapshot current scope note user rendered
  | .updateEntry entry user rendered => updateEntry snapshot current scope entry user rendered
  | .selectItem form clientKey => reading (selectItem snapshot scope form clientKey)
  | .insertMedia form photo now => insertMedia current scope serial form photo now
  | .linkPhoto form item media => linkPhoto snapshot current scope serial form item media
  | .selectPhotoMedia form photo => reading (selectPhotoMedia snapshot scope form photo)

end Statements

/-- Any statement may meet a fault of the driver. -/
def execute (fault : Option PortError) (serial : Int) (statement : Statement) (snapshot current : Db) :
    Effect (Answer statement) Db Lock :=
  match fault with
  | some e => failing e
  | none => perform snapshot current statement.scope serial statement.query

/- The transactions of the repository. -/

abbrev Result : Type := Except PortError (Option InspectionForm)

abbrev Steps : Type := Program Statement Answer (Ending Result)

def fail (e : PortError) : Steps := .done (.rollback (.error e))

/-- A revision that could not be claimed. -/
def stale : Steps := .done (.rollback (.ok none))

def saved (form : Option InspectionForm) : Steps := .done (.commit (.ok form))

section Repository
variable (scope : CompanyId)

/-- The error of a statement ends the transaction. -/
def ask (query : Query) (next : Reply query → Steps) : Steps :=
  .stmt ⟨scope, query⟩ fun answer =>
    match answer with
    | .error e => fail e
    | .ok reply => next reply

def assemble (form : InspectionFormRow) (items : List InspectionFormItemRow) (photos : List InspectionPhoto) :
    InspectionForm :=
  ⟨form, items.map fun i => ⟨i.id, i.clientKey, i.room, i.description, i.actioned, i.sortOrder,
    photos.filter (·.itemId = i.id)⟩⟩

def load (form : InspectionFormId) (user : UserId) (next : Option InspectionForm → Steps) : Steps :=
  ask scope (.selectForm form user) fun
  | none => next none
  | some row =>
    ask scope (.selectItems form) fun items =>
      ask scope (.selectPhotos form) fun photos => next (some (assemble row items photos))

/-- Loads the draft of the user and claims its revision. -/
def claiming (form : InspectionFormId) (user : UserId) (expected : Int) (now : Instant)
    (next : InspectionForm → Steps) : Steps :=
  load scope form user fun
  | none => fail .notFound
  | some draft =>
    ask scope (.claimRevision form expected now) fun
    | false => stale
    | true => next draft

def detachMedia (ids : List MediaId) (next : Steps) : Steps :=
  if ids.isEmpty then next
  else
    ask scope (.deleteMedia ids) fun rows =>
      let keys := rows.map fun (storedName, entry) => objectKey scope (text "diary") entry storedName
      if keys.isEmpty then next else ask scope (.enqueue keys) fun _ => next

def saveDraft (id : InspectionFormId) (user : UserId) (now : Instant) (input : InspectionDraftInput)
    (rendered : RenderedInspection) : Steps :=
  claiming scope id user input.revision now fun form =>
    ask scope (.writeFields id input) fun _ =>
      let items := proposedItems input.retained
      let keys := items.map (·.clientKey)
      let written : Steps :=
        ask scope (.updateNote form.form.diaryNoteId user rendered) fun _ =>
          ask scope (.updateEntry form.form.diaryEntryId user rendered) fun _ => load scope id user saved
      ask scope (.selectOrphaned id keys) fun orphaned =>
        detachMedia scope orphaned (ask scope (.dropItems id keys) fun _ =>
          if items.isEmpty then written else ask scope (.upsertItems id items) fun _ => written)

def attachEach (id : InspectionFormId) (now : Instant) (form : InspectionForm) (next : Steps) :
    List InspectionPhotoRecord → Steps
  | [] => next
  | photo :: rest =>
    ask scope (.selectItem id (trim photo.clientKey)) fun
    | none => fail (.conflict (some "inspection_item_missing"))
    | some item =>
      ask scope (.insertMedia form.form photo now) fun media =>
        ask scope (.linkPhoto id item media) fun _ => attachEach id now form next rest

def attachPhotos (id : InspectionFormId) (user : UserId) (now : Instant) (expectedRevision : Int)
    (photos : List InspectionPhotoRecord) : Steps :=
  claiming scope id user expectedRevision now fun form =>
    attachEach scope id now form (load scope id user saved) photos

def deletePhoto (id : InspectionFormId) (user : UserId) (now : Instant) (expectedRevision photoId : Int) : Steps :=
  claiming scope id user expectedRevision now fun _ =>
    ask scope (.selectPhotoMedia id photoId) fun
    | none => fail .notFound
    | some media => detachMedia scope [media] (load scope id user saved)

end Repository

inductive Edit where
  | saveDraft (input : InspectionDraftInput) (rendered : RenderedInspection)
  | attachPhotos (expectedRevision : Int) (photos : List InspectionPhotoRecord)
  | deletePhoto (expectedRevision photoId : Int)

/-- A call, with the time its transaction begins. -/
structure Request where
  scope : CompanyId
  id : InspectionFormId
  user : UserId
  now : Instant
  edit : Edit

def Request.expected (request : Request) : Int :=
  match request.edit with
  | .saveDraft input _ => input.revision
  | .attachPhotos expectedRevision _ => expectedRevision
  | .deletePhoto expectedRevision _ => expectedRevision

def program (request : Request) : Steps :=
  match request.edit with
  | .saveDraft input rendered => saveDraft request.scope request.id request.user request.now input rendered
  | .attachPhotos expectedRevision photos =>
    attachPhotos request.scope request.id request.user request.now expectedRevision photos
  | .deletePhoto expectedRevision photoId =>
    deletePhoto request.scope request.id request.user request.now expectedRevision photoId

abbrev Editing : Type := Transaction Statement Answer Result Request Db Lock

abbrev Edits : Type := Config Statement Answer Result Request Db Lock

/-- Any number of changes to any drafts, in any order of their statements. -/
def edits : Database Statement Answer Result Request (Option PortError) Db Lock where
  program := program
  execute := execute
  conflicts a b := a = b
  initial db serial := db.diaryMedia.serial ≤ serial ∧ db.inspectionFormItems.serial ≤ serial ∧
    db.inspectionFormMedia.serial ≤ serial
  permits _ _ := true

end DraftPrograms
