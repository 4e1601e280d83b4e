import PmKonstruct.Jobs.JobStore
import PmKonstruct.Library.ReadCommitted
import PmKonstruct.Media.MediaStore

/- Deletions that cascade over media, and the uploads that run beside them, as transactions under READ COMMITTED. The
   list of objects is read by one statement and queued by the next; what goes is whatever hangs off the root when the
   `DELETE` has its locks. A foreign key holds its row for share, and a deletion holds every row it takes. -/
namespace DeletionPrograms
open PlainText DomainErrors Accounts Schema KeyedTable RowSecurity Requests DeletionQueue ReadCommitted
open StatementProgram (Program)
open MediaStore (Media MediaOwner MediaRecord diaryMediaConstraint jobMediaConstraint mediaOfDiaryRow mediaOfJobRow
  originalColumn sizeColumn)

inductive Root where
  | job (id : JobId)
  | entry (id : DiaryEntryId)
  | note (id : DiaryNoteId)
  deriving DecidableEq

inductive Query where
  | selectFiles (job : JobId)
  | selectMedia (root : Root)
  | enqueue (keys : List Text)
  | delete (root : Root)
  | insert (rec : MediaRecord) (now : Instant)

/-- A deletion answers whether it affected a row. -/
abbrev Reply : Query → Type
  | .selectFiles _ => List Text
  | .selectMedia _ => List (Text × DiaryEntryId)
  | .enqueue _ => Unit
  | .delete _ => Bool
  | .insert _ _ => Media

structure Statement where
  scope : CompanyId
  query : Query

abbrev Answer (statement : Statement) : Type := Except PortError (Reply statement.query)

inductive Place where
  | job (id : JobId)
  | entry (id : DiaryEntryId)
  | note (id : DiaryNoteId)
  | media (id : MediaId)
  | file (id : MediaId)
  | queued (key : Text)
  deriving DecidableEq

structure Lock where
  place : Place
  exclusive : Bool
  deriving DecidableEq

def Place.exclusive (place : Place) : Lock := ⟨place, true⟩

def Place.shared (place : Place) : Lock := ⟨place, false⟩

def conflicts (a b : Lock) : Bool := a.place = b.place && (a.exclusive || b.exclusive)

def reading {α : Type} (answer : α) : Effect (Except PortError α) Db Lock := ⟨.ok answer, fun db => db, [], [], 0⟩

def failing {α : Type} (e : PortError) : Effect (Except PortError α) Db Lock := ⟨.error e, fun db => db, [], [], 0⟩

def Root.place : Root → Place
  | .job id => .job id
  | .entry id => .entry id
  | .note id => .note id

def rootInScope (db : Db) (scope : CompanyId) : Root → Bool
  | .job id => jobInScope db scope id
  | .entry id => entryInScope db scope id
  | .note id => noteInScope db scope id

/-- The media a root is asked for: those of its entries, or those that name the note. -/
def under (db : Db) (root : Root) (media : DiaryMediaRow) : Bool :=
  match root with
  | .job id => (db.siteDiary.find media.diaryEntryId).any (·.jobId = id)
  | .entry id => media.diaryEntryId = id
  | .note id => media.noteId = some id

def cascade (root : Root) (db : Db) : Db :=
  match root with
  | .job id => JobStore.cascadeJobs (fun j => j.id = id) db
  | .entry id => cascadeEntries (fun e => e.id = id) db
  | .note id => cascadeNotes (fun n => n.id = id) db

section Gone
variable {Row : Type} [Keyed Row] [DecidableEq Row]

def gone (before after : Table Row) (row : Row) : Bool := row ∈ before.rows && row ∉ after.rows

/-- The rows that went from one table to another, taken from a third. -/
def minus (before after table : Table Row) : Table Row := table.delete (gone before after)

end Gone

/-- What a deletion took from one store, taken from another. -/
def without (before after db : Db) : Db :=
  { db with
    jobs := minus before.jobs after.jobs db.jobs
    jobAssignments := minus before.jobAssignments after.jobAssignments db.jobAssignments
    jobTasks := minus before.jobTasks after.jobTasks db.jobTasks
    jobLinks := minus before.jobLinks after.jobLinks db.jobLinks
    siteDiary := minus before.siteDiary after.siteDiary db.siteDiary
    diaryNotes := minus before.diaryNotes after.diaryNotes db.diaryNotes
    diaryNoteComments := minus before.diaryNoteComments after.diaryNoteComments db.diaryNoteComments
    diaryMedia := minus before.diaryMedia after.diaryMedia db.diaryMedia
    jobMedia := minus before.jobMedia after.jobMedia db.jobMedia
    inspectionForms := minus before.inspectionForms after.inspectionForms db.inspectionForms
    inspectionFormItems := minus before.inspectionFormItems after.inspectionFormItems db.inspectionFormItems
    inspectionFormMedia := minus before.inspectionFormMedia after.inspectionFormMedia db.inspectionFormMedia
    etoJobSequences := db.etoJobSequences.filter fun e =>
      !(e ∈ before.etoJobSequences && e ∉ after.etoJobSequences)
    callForward := minus before.callForward after.callForward db.callForward
    schedulerAllocations := minus before.schedulerAllocations after.schedulerAllocations db.schedulerAllocations }

section Statements
variable (snapshot current : Db) (scope : CompanyId)

def selectFiles (job : JobId) : List Text :=
  (snapshot.jobMedia.select fun m => m.jobId = job && jobInScope snapshot scope m.jobId).map (·.storedName)

def selectMedia (root : Root) : List (Text × DiaryEntryId) :=
  (visibleMedia snapshot scope (under snapshot root)).map fun m => (m.storedName, m.diaryEntryId)

def enqueueKeys (keys : List Text) : Effect (Except PortError Unit) Db Lock :=
  { answer := .ok ()
    change := fun db => { db with mediaDeletionQueue := enqueue db.mediaDeletionQueue keys }
    awaits := keys.map fun key => Place.exclusive (.queued key)
    takes := (keys.filter fun key => key ∉ current.mediaDeletionQueue).map fun key => Place.exclusive (.queued key)
    drawn := 0 }

/-- The places of the rows that went. -/
def taken (before after : Db) : List Place :=
  (before.jobs.rows.filter (gone before.jobs after.jobs)).map (fun j => Place.job j.id) ++
    (before.siteDiary.rows.filter (gone before.siteDiary after.siteDiary)).map (fun e => Place.entry e.id) ++
    (before.diaryNotes.rows.filter (gone before.diaryNotes after.diaryNotes)).map (fun n => Place.note n.id) ++
    (before.diaryMedia.rows.filter (gone before.diaryMedia after.diaryMedia)).map (fun m => Place.media m.id) ++
    (before.jobMedia.rows.filter (gone before.jobMedia after.jobMedia)).map (fun m => Place.file m.id)

/-- The root must be there when the statement starts, and still be there when it is free. -/
def deleteRoot (root : Root) : Effect (Except PortError Bool) Db Lock :=
  if rootInScope snapshot scope root then
    if rootInScope current scope root then
      let after := cascade root current
      { answer := .ok true
        change := without current after
        awaits := []
        takes := (root.place :: taken current after).map Place.exclusive
        drawn := 0 }
    else ⟨.ok false, fun db => db, [root.place.exclusive], [], 0⟩
  else reading false

def insertMedia (serial : Int) (rec : MediaRecord) (now : Instant) : Effect (Except PortError Media) Db Lock :=
  match rec.owner with
  | .diary entry note =>
    match diaryMediaConstraint current scope entry note rec with
    | some e => failing e
    | none =>
      let row : DiaryMediaRow := ⟨serial, entry, note, rec.fileType, rec.mimeType, originalColumn rec, rec.storedName,
        sizeColumn rec.fileSize, rec.url, some rec.uploadedBy, now⟩
      { answer := .ok (mediaOfDiaryRow row)
        change := fun db => { db with diaryMedia := db.diaryMedia.put row }
        awaits := []
        takes := (Place.entry entry :: note.toList.map Place.note).map Place.shared
        drawn := 1 }
  | .job job =>
    match jobMediaConstraint current scope job rec with
    | some e => failing e
    | none =>
      let row : JobMediaRow := ⟨serial, job, rec.fileType, rec.mimeType, originalColumn rec, rec.storedName,
        sizeColumn rec.fileSize, rec.url, some rec.uploadedBy, now⟩
      { answer := .ok (mediaOfJobRow row)
        change := fun db => { db with jobMedia := db.jobMedia.put row }
        awaits := []
        takes := [Place.shared (.job job)]
        drawn := 1 }

def perform (serial : Int) : (query : Query) → Effect (Except PortError (Reply query)) Db Lock
  | .selectFiles job => reading (selectFiles snapshot scope job)
  | .selectMedia root => reading (selectMedia snapshot scope root)
  | .enqueue keys => enqueueKeys current keys
  | .delete root => deleteRoot snapshot current scope root
  | .insert rec now => insertMedia current scope serial rec now

end Statements

/-- Any statement may meet a fault of the driver. -/
def execute (fault : Option PortError) (serial : Int) (statement : Statement) (snapshot current : Db) :
    Effect (Answer statement) Db Lock :=
  match fault with
  | some e => failing e
  | none => perform snapshot current statement.scope serial statement.query

/- The transactions of the repositories. -/

inductive Outcome where
  | deleted (affected : Bool)
  | recorded (media : Media)

abbrev Steps : Type := Program Statement Answer (Ending (Except PortError Outcome))

def fail (e : PortError) : Steps := .done (.rollback (.error e))

/-- The error of a statement ends the transaction. -/
def orFail {α : Type} (next : α → Steps) : Except PortError α → Steps
  | .error e => fail e
  | .ok reply => next reply

def finished (outcome : Outcome) : Steps := .done (.commit (.ok outcome))

section Repository
variable (scope : CompanyId)

def deleting (root : Root) : Steps := .stmt ⟨scope, .delete root⟩ (orFail fun affected => finished (.deleted affected))

def enqueueing (root : Root) (keys : List Text) : Steps :=
  if keys.isEmpty then deleting scope root
  else .stmt ⟨scope, .enqueue keys⟩ (orFail fun _ => deleting scope root)

/-- The keys of the media under a root, after the keys of its own files. -/
def listing (root : Root) (files : List Text) : Steps :=
  .stmt ⟨scope, .selectMedia root⟩ (orFail fun rows =>
    enqueueing scope root (files ++ rows.map fun (storedName, entry) => objectKey scope (text "diary") entry storedName))

def purge (job : JobId) : Steps :=
  .stmt ⟨scope, .selectFiles job⟩ (orFail fun names =>
    listing scope (.job job) (names.map fun storedName => objectKey scope (text "job") job storedName))

def deleteEntry (entry : DiaryEntryId) : Steps := listing scope (.entry entry) []

def deleteNote (note : DiaryNoteId) : Steps := listing scope (.note note) []

def record (rec : MediaRecord) (now : Instant) : Steps :=
  .stmt ⟨scope, .insert rec now⟩ (orFail fun media => finished (.recorded media))

end Repository

inductive Call where
  | purge (job : JobId)
  | deleteEntry (entry : DiaryEntryId)
  | deleteNote (note : DiaryNoteId)
  | record (rec : MediaRecord) (now : Instant)

structure Request where
  scope : CompanyId
  call : Call

def program (request : Request) : Steps :=
  match request.call with
  | .purge job => purge request.scope job
  | .deleteEntry entry => deleteEntry request.scope entry
  | .deleteNote note => deleteNote request.scope note
  | .record rec now => record request.scope rec now

abbrev Running : Type := Transaction Statement Answer (Except PortError Outcome) Request Db Lock

abbrev Runs : Type := Config Statement Answer (Except PortError Outcome) Request Db Lock

/-- Deletions and uploads of any companies, under a condition on the store they start from and on their steps. -/
def deletions (tidy : Db → Prop) (permits : Runs → Label Request (Option PortError) → Bool) :
    Database Statement Answer (Except PortError Outcome) Request (Option PortError) Db Lock where
  program := program
  execute := execute
  conflicts := conflicts
  initial db serial := tidy db ∧ (∀ m ∈ db.diaryMedia.rows, m.id < serial) ∧ ∀ m ∈ db.jobMedia.rows, m.id < serial
  permits := permits

end DeletionPrograms
