import PmKonstruct.Media.DeletionPrograms

/- The bulk delete of media as a transaction under READ COMMITTED, beside every other call that deletes media: the delete
   of one row, the photos that a draft lets go, and the cascades. The selected rows are locked before anything is
   decided about them. -/
namespace SelectionPrograms
open PlainText DomainErrors Accounts AuthStore Schema KeyedTable RowSecurity DeletionQueue ReadCommitted
open StatementProgram (Program)
open MediaStore (MediaSelection BulkDeletePlan)
open DeletionPrograms (Root Place Lock failing without taken)

/-- A delete names a job when it is of a bulk delete. -/
inductive Query where
  | lockFiles (job : JobId) (ids : List MediaId)
  | lockMedia (job : JobId) (ids : List MediaId)
  | deleteFiles (job : Option JobId) (ids : List MediaId)
  | deleteMedia (job : Option JobId) (ids : List MediaId)
  | cascading (query : DeletionPrograms.Query)

/-- A delete answers the names of the rows that went, each with its owner. -/
abbrev Reply : Query → Type
  | .lockFiles _ _ => List JobMediaRow
  | .lockMedia _ _ => List DiaryMediaRow
  | .deleteFiles _ _ => List (Text × JobId)
  | .deleteMedia _ _ => List (Text × DiaryEntryId)
  | .cascading query => DeletionPrograms.Reply query

structure Statement where
  scope : CompanyId
  query : Query

abbrev Answer (statement : Statement) : Type := Except PortError (Reply statement.query)

/- The `WHERE` of the statements. -/

def fileAmong (job : Option JobId) (ids : List MediaId) (m : JobMediaRow) : Bool :=
  job.all (fun j => m.jobId = j) && m.id ∈ ids

/-- Diary media reaches the job through its entry. -/
def mediaAmong (db : Db) (job : Option JobId) (ids : List MediaId) (m : DiaryMediaRow) : Bool :=
  job.all (fun j => (db.siteDiary.find m.diaryEntryId).any (·.jobId = j)) && m.id ∈ ids

def visibleFiles (db : Db) (scope : CompanyId) (p : JobMediaRow → Bool) : List JobMediaRow :=
  db.jobMedia.select fun m => p m && jobInScope db scope m.jobId

section Statements
variable (snapshot current : Db) (scope : CompanyId)

/-- `SELECT … FOR UPDATE`: a row that went while the statement waited for it is not among its answer. -/
def lockFiles (job : JobId) (ids : List MediaId) : Effect (Except PortError (List JobMediaRow)) Db Lock :=
  let listed := visibleFiles snapshot scope (fileAmong (some job) ids)
  let present := current.jobMedia.select (fileAmong (some job) (listed.map (·.id)))
  { answer := .ok present
    change := fun db => db
    awaits := listed.map fun m => (Place.file m.id).exclusive
    takes := present.map fun m => (Place.file m.id).exclusive
    drawn := 0 }

/-- The join locks the rows of both tables. -/
def lockMedia (job : JobId) (ids : List MediaId) : Effect (Except PortError (List DiaryMediaRow)) Db Lock :=
  let listed := visibleMedia snapshot scope (mediaAmong snapshot (some job) ids)
  let present := current.diaryMedia.select (mediaAmong current (some job) (listed.map (·.id)))
  let places (rows : List DiaryMediaRow) : List Place :=
    rows.map (fun m => Place.media m.id) ++ rows.map fun m => Place.entry m.diaryEntryId
  { answer := .ok present
    change := fun db => db
    awaits := (places listed).map Place.exclusive
    takes := (places present).map Place.exclusive
    drawn := 0 }

def deleteFiles (job : Option JobId) (ids : List MediaId) :
    Effect (Except PortError (List (Text × JobId))) Db Lock :=
  let listed := visibleFiles snapshot scope (fileAmong job ids)
  let going := fileAmong job (listed.map (·.id))
  let after := { current with jobMedia := current.jobMedia.delete going }
  { answer := .ok ((current.jobMedia.select going).map fun m => (m.storedName, m.jobId))
    change := without current after
    awaits := listed.map fun m => (Place.file m.id).exclusive
    takes := (taken current after).map Place.exclusive
    drawn := 0 }

def deleteMedia (job : Option JobId) (ids : List MediaId) :
    Effect (Except PortError (List (Text × DiaryEntryId))) Db Lock :=
  let listed := visibleMedia snapshot scope (mediaAmong snapshot job ids)
  let going := mediaAmong current job (listed.map (·.id))
  let after := cascadeMedia going current
  { answer := .ok ((current.diaryMedia.select going).map fun m => (m.storedName, m.diaryEntryId))
    change := without current after
    awaits := listed.map fun m => (Place.media m.id).exclusive
    takes := (taken current after).map Place.exclusive
    drawn := 0 }

def perform (serial : Int) : (query : Query) → Effect (Except PortError (Reply query)) Db Lock
  | .lockFiles job ids => lockFiles snapshot current scope job ids
  | .lockMedia job ids => lockMedia snapshot current scope job ids
  | .deleteFiles job ids => deleteFiles snapshot current scope job ids
  | .deleteMedia job ids => deleteMedia snapshot current scope job ids
  | .cascading query => DeletionPrograms.perform snapshot current scope serial query

end Statements

/-- Any statement may meet a fault of the driver. -/
def execute (fault : Option PortError) (serial : Int) (statement : Statement) (snapshot current : Db) :
    Effect (Answer statement) Db Lock :=
  match fault with
  | some e => failing e
  | none => perform snapshot current statement.scope serial statement.query

/- The transactions. -/

inductive Outcome where
  | plan (plan : BulkDeletePlan)
  | affected (deleted : Bool)
  | detached (names : List Text)
  | cascaded (outcome : DeletionPrograms.Outcome)

abbrev Result : Type := Except PortError Outcome

abbrev Steps : Type := Program Statement Answer (Ending Result)

def finished (outcome : Outcome) : Steps := .done (.commit (.ok outcome))

section Repository
variable (scope : CompanyId)

/-- The error of a statement ends the transaction. -/
def ask (query : Query) (next : Reply query → Steps) : Steps :=
  .stmt ⟨scope, query⟩ fun answer =>
    match answer with
    | .error e => .done (.rollback (.error e))
    | .ok reply => next reply

def enqueueDeletions (keys : List Text) (outcome : Outcome) : Steps :=
  if keys.isEmpty then finished outcome
  else ask scope (.cascading (.enqueue keys)) fun _ => finished outcome

def fileIds (selections : List MediaSelection) : List MediaId := (selections.filter (·.jobMedia)).map (·.id)

def mediaIds (selections : List MediaSelection) : List MediaId := (selections.filter (!·.jobMedia)).map (·.id)

/-- What the locked rows say of the selection, before anything is deleted. -/
def judged (files : List JobMediaRow) (media : List DiaryMediaRow) (selections : List MediaSelection)
    (uploadedBy : Option UserId) : BulkDeletePlan :=
  let found := files.map (fun m => (MediaSelection.mk true m.id, m.uploadedBy)) ++
    media.map fun m => (MediaSelection.mk false m.id, m.uploadedBy)
  let owner (sel : MediaSelection) : Option (Option UserId) := (found.find? (·.1 = sel)).map (·.2)
  { missing := selections.filter fun sel => (owner sel).isNone
    forbidden := selections.filter fun sel =>
      (owner sel).any fun uploader => uploadedBy.any fun user => uploader ≠ some user
    deleted := [] }

/-- All or nothing. -/
def clearing (job : JobId) (selections : List MediaSelection) (files : List JobMediaRow) (media : List DiaryMediaRow) :
    Steps :=
  let queueing : Steps := enqueueDeletions scope (files.map (jobKey scope) ++ media.map (diaryKey scope))
    (.plan ⟨[], [], selections⟩)
  let deletingMedia : Steps :=
    if (mediaIds selections).isEmpty then queueing
    else ask scope (.deleteMedia (some job) (mediaIds selections)) fun _ => queueing
  if (fileIds selections).isEmpty then deletingMedia
  else ask scope (.deleteFiles (some job) (fileIds selections)) fun _ => deletingMedia

def deleteMany (job : JobId) (selections : List MediaSelection) (uploadedBy : Option UserId) : Steps :=
  if selections.isEmpty then finished (.plan ⟨[], [], []⟩)
  else
    ask scope (.lockFiles job (fileIds selections)) fun files =>
      ask scope (.lockMedia job (mediaIds selections)) fun media =>
        let plan := judged files media selections uploadedBy
        if plan.missing ≠ [] || plan.forbidden ≠ [] then .done (.rollback (.ok (.plan plan)))
        else clearing scope job selections files media

def delete (id : MediaId) (jobMedia : Bool) : Steps :=
  if jobMedia then
    ask scope (.deleteFiles none [id]) fun
    | [] => finished (.affected false)
    | (storedName, job) :: _ => enqueueDeletions scope [objectKey scope (text "job") job storedName] (.affected true)
  else
    ask scope (.deleteMedia none [id]) fun
    | [] => finished (.affected false)
    | (storedName, entry) :: _ =>
      enqueueDeletions scope [objectKey scope (text "diary") entry storedName] (.affected true)

/-- The photos that the save of a draft lets go. -/
def detachMedia (ids : List MediaId) : Steps :=
  if ids.isEmpty then finished (.detached [])
  else ask scope (.deleteMedia none ids) fun rows =>
    enqueueDeletions scope (rows.map fun (storedName, entry) => objectKey scope (text "diary") entry storedName)
      (.detached (rows.map (·.1)))

end Repository

def ending : Ending (Except PortError DeletionPrograms.Outcome) → Ending Result
  | .commit result => .commit (result.map .cascaded)
  | .rollback result => .rollback (result.map .cascaded)

/-- A transaction of a cascade, statement by statement. -/
def cascading : DeletionPrograms.Steps → Steps
  | .done result => .done (ending result)
  | .stmt statement next => .stmt ⟨statement.scope, .cascading statement.query⟩ fun answer => cascading (next answer)

inductive Call where
  | deleteSelected (role : Role) (viewer : UserId) (job : JobId) (selections : List MediaSelection)
  | delete (id : MediaId) (jobMedia : Bool)
  | detachMedia (ids : List MediaId)
  | cascade (root : Root)

structure Request where
  scope : CompanyId
  call : Call

/-- Office staff are held to their own uploads, by their id. -/
def restrictTo (role : Role) (viewer : UserId) : Option UserId := if role = .office then some viewer else none

def program (request : Request) : Steps :=
  match request.call with
  | .deleteSelected role viewer job selections => deleteMany request.scope job selections (restrictTo role viewer)
  | .delete id jobMedia => delete request.scope id jobMedia
  | .detachMedia ids => detachMedia request.scope ids
  | .cascade (.job job) => cascading (DeletionPrograms.purge request.scope job)
  | .cascade (.entry entry) => cascading (DeletionPrograms.deleteEntry request.scope entry)
  | .cascade (.note note) => cascading (DeletionPrograms.deleteNote request.scope note)

abbrev Clearing : Type := Transaction Statement Answer Result Request Db Lock

abbrev Clearings : Type := Config Statement Answer Result Request Db Lock

/-- Any calls that delete media, of any companies, on any store and in any order of their statements. -/
def clearings : Database Statement Answer Result Request (Option PortError) Db Lock where
  program := program
  execute := execute
  conflicts := DeletionPrograms.conflicts
  initial _ _ := True
  permits _ _ := true

end SelectionPrograms
