import PmKonstruct.Store.RowSecurity
import PmKonstruct.Store.Requests

/- A single task or a single link of a job. Tasks are addressed by their own id alone; a link is addressed under
   the job in its path. -/
namespace TasksLinks
open PlainText DomainErrors Accounts Schema KeyedTable RowSecurity Requests
open AuthService (SessionUser)

structure JobTaskInput where
  title : Text
  status : Option Text
  notes : Option Text
  sortOrder : Option Int
  deriving DecidableEq, Repr

structure JobLinkInput where
  label : Text
  url : Text
  sortOrder : Option Int
  deriving DecidableEq, Repr

structure JobLink where
  id : JobLinkId
  jobId : JobId
  label : Text
  url : Text
  sortOrder : Int
  createdAt : Instant
  deriving DecidableEq, Repr

/-- `job_tasks_status_check`. -/
def taskStatuses : List Text := [text "pending", text "in_progress", text "completed"]

def validateTask (input : JobTaskInput) : Except AppError Unit :=
  if trim input.title = [] then .error (.domain (.invalid "title" "is required"))
  else if input.status.any fun status => status ∉ taskStatuses then
    .error (.domain (.invalid "status" "must be one of pending, in_progress, completed"))
  else .ok ()

def JobLinkInput.normalised (input : JobLinkInput) : JobLinkInput :=
  { input with
    label := trim input.label
    url := trim input.url }

def JobLinkInput.validate (input : JobLinkInput) : Except DomainError Unit :=
  let url := trim input.url
  let host := url.drop (text "https://").length
  if trim input.label = [] then .error (.invalid "label" "is required")
  else if byteLength input.label > 200 then .error (.invalid "label" "must be 200 characters or fewer")
  else if url = [] then .error (.invalid "url" "is required")
  else if byteLength url > 2000 then .error (.invalid "url" "must be 2000 characters or fewer")
  else if (text "https://").isPrefixOf url = false then .error (.invalid "url" "must start with https://")
  else if url.any fun c => isWhitespace c || isControl c then
    .error (.invalid "url" "must not contain spaces or line breaks")
  else if host = [] ∨ host.head? = some '/' then .error (.invalid "url" "is not a valid address")
  else .ok ()

def linkOfRow (row : JobLinkRow) : JobLink := ⟨row.id, row.jobId, row.label, row.path, row.sortOrder, row.createdAt⟩

section Repository
variable (db : Db) (scope : CompanyId)

def taskVisible (task : JobTaskRow) : Bool := jobInScope db scope task.jobId

def linkVisible (link : JobLinkRow) : Bool := link.companyId = scope

def findTask (id : JobTaskId) : Option JobTaskRow := db.jobTasks.reach (taskVisible db scope) id

def updateTaskRow (now : Instant) (id : JobTaskId) (input : JobTaskInput) : Except PortError (Option JobTaskRow × Db) :=
  checkedChange db.jobTasks (fun tasks => { db with jobTasks := tasks }) (fun t => t) (taskVisible db scope) id
    (fun t => { t with
      title := input.title
      status := input.status.getD t.status
      notes := input.notes
      sortOrder := input.sortOrder.getD t.sortOrder
      updatedAt := now })
    (fun _ => rfl)
    (firstViolation [
      (input.status.any fun status => status ∉ taskStatuses, .checkViolation (some "job_tasks_status_check"))])

def updateTaskRowNotes (now : Instant) (id : JobTaskId) (notes : Option Text) : Option JobTaskRow × Db :=
  changeRow db.jobTasks (fun tasks => { db with jobTasks := tasks }) (fun t => t) (taskVisible db scope) id
    (fun t => { t with
      notes := notes
      updatedAt := now })
    (fun _ => rfl)

def deleteTaskRow (id : JobTaskId) : Bool × Db :=
  removeRow db.jobTasks (fun tasks => { db with jobTasks := tasks }) (taskVisible db scope) id

/-- The job in the path takes no part in the statement. -/
def updateLinkRow (id : JobLinkId) (input : JobLinkInput) : Option JobLink × Db :=
  changeRow db.jobLinks (fun links => { db with jobLinks := links }) linkOfRow (linkVisible scope) id
    (fun l => { l with
      label := input.label
      path := input.url
      sortOrder := input.sortOrder.getD l.sortOrder })
    (fun _ => rfl)

def deleteLinkRow (id : JobLinkId) : Bool × Db :=
  removeRow db.jobLinks (fun links => { db with jobLinks := links }) (linkVisible scope) id

end Repository

section Service
variable (db : Db) (s : SessionUser)

def getTask (id : JobTaskId) : Outcome JobTaskRow :=
  orNotFound "Task" (.ok (findTask db s.principal.companyId id), db)

def updateTask (now : Instant) (id : JobTaskId) (input : JobTaskInput) : Outcome JobTaskRow :=
  attempt db (validateTask input) fun _ =>
    orNotFound "Task" (committed db (updateTaskRow db s.principal.companyId now id input))

def updateTaskNotes (now : Instant) (id : JobTaskId) (notes : Option Text) : Outcome JobTaskRow :=
  orNotFound "Task" (committed db (.ok (updateTaskRowNotes db s.principal.companyId now id notes)))

def deleteTask (id : JobTaskId) : Outcome Unit :=
  deletedOrNotFound "Task" (deleteTaskRow db s.principal.companyId id)

def updateLink (job : JobId) (id : JobLinkId) (input : JobLinkInput) : Outcome JobLink :=
  attempt db (getJob db s job) fun _ =>
    attempt db (inDomain input.normalised.validate) fun _ =>
      orNotFound "Link" (committed db (.ok (updateLinkRow db s.principal.companyId id input.normalised)))

def deleteLink (job : JobId) (id : JobLinkId) : Outcome Unit :=
  attempt db (getJob db s job) fun _ => deletedOrNotFound "Link" (deleteLinkRow db s.principal.companyId id)

end Service

inductive RowRequest where
  | getTask (id : JobTaskId)
  | updateTask (id : JobTaskId) (input : JobTaskInput)
  | updateTaskNotes (id : JobTaskId) (notes : Option Text)
  | deleteTask (id : JobTaskId)
  | updateLink (job : JobId) (id : JobLinkId) (input : JobLinkInput)
  | deleteLink (job : JobId) (id : JobLinkId)
  deriving DecidableEq, Repr

inductive RowReply where
  | task (task : JobTaskRow)
  | link (link : JobLink)
  | deleted
  deriving DecidableEq, Repr

def reply {α : Type} (wrap : α → RowReply) (outcome : Outcome α) : Outcome RowReply := (outcome.1.map wrap, outcome.2)

def perform (now : Instant) (db : Db) (s : SessionUser) : RowRequest → Outcome RowReply
  | .getTask id => reply .task (getTask db s id)
  | .updateTask id input => reply .task (updateTask db s now id input)
  | .updateTaskNotes id notes => reply .task (updateTaskNotes db s now id notes)
  | .deleteTask id => reply (fun _ => .deleted) (deleteTask db s id)
  | .updateLink job id input => reply .link (updateLink db s job id input)
  | .deleteLink job id => reply (fun _ => .deleted) (deleteLink db s job id)

end TasksLinks
