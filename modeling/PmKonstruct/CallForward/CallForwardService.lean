import PmKonstruct.CallForward.ProgrammeStore

/- The use cases on a programme. Each checks the link of the row it writes; none looks at the rows that point to
   that row. -/
namespace CallForwardService
open PlainText DomainErrors Accounts CalendarDate Schema RowSecurity Requests CallForwardItem Templates
open ProgrammeStore (ReorderEntry)
open AuthService (SessionUser)

section Service
variable (db : Db) (s : SessionUser) (today : Date) (now : Instant)

def get (id : CallForwardItemId) : Except AppError CallForwardRow :=
  match ProgrammeStore.findItem db s.principal.companyId (visibleJobs db s) id with
  | none => .error (.domain (.notFound "Call forward item"))
  | some row => .ok row

def assertJob (job : JobId) : Except AppError Unit := (getJob db s job).map fun _ => ()

def checkParent (childType : ItemType) (childId parentId : Option CallForwardItemId) (job : JobId) :
    Except AppError Unit :=
  match parentId with
  | none => .ok ()
  | some p =>
    match ProgrammeStore.typeAndJob db s.principal.companyId p with
    | none => .error (.domain (.invalid "parentId" "no such item"))
    | some (parentType, parentJob) =>
      inDomain (validateParent childType childId (some (p, parentType, parentJob)) job)

def create (job : JobId) (input : CallForwardInput) : Outcome CallForwardItemWithDelay :=
  attempt db (inDomain input.validate) fun _ =>
    attempt db (assertJob db s job) fun _ =>
      attempt db (checkParent db s (input.itemType.getD .task) none input.parentId job) fun _ =>
        committed db ((ProgrammeStore.create db s.principal.companyId now job input).map
          fun (row, after) => (withDelay today row, after))

/-- A local parent is checked by the type it is about to have, under the id 0. -/
def checkLink (job : JobId) (items : List (CallForwardInput × Option Nat)) (index : Nat) (input : CallForwardInput)
    (localParent : Option Nat) : Except AppError Unit :=
  let childType := input.itemType.getD .task
  match localParent with
  | none => checkParent db s childType none input.parentId job
  | some p =>
    if p ≥ index then .error (.domain (.invalid "localParent" "must refer to an earlier item in the list"))
    else
      let parentType := (items[p]?.bind fun item => item.1.itemType).getD .task
      inDomain (validateParent childType none (some (0, parentType, job)) job)

def checkEach (job : JobId) (items : List (CallForwardInput × Option Nat)) :
    Nat → List (CallForwardInput × Option Nat) → Except AppError Unit
  | _, [] => .ok ()
  | index, (input, localParent) :: rest => do
    inDomain input.validate
    checkLink db s job items index input localParent
    checkEach job items (index + 1) rest

def bulkSize (items : List (CallForwardInput × Option Nat)) : Except DomainError Unit :=
  if items = [] then .error (.invalid "items" "is required")
  else if items.length > 500 then .error (.invalid "items" "cannot exceed 500 per request")
  else .ok ()

def createBulk (job : JobId) (items : List (CallForwardInput × Option Nat)) :
    Outcome (List CallForwardItemWithDelay) :=
  attempt db (inDomain (bulkSize items)) fun _ =>
    attempt db (assertJob db s job) fun _ =>
      attempt db (checkEach db s job items 0 items) fun _ =>
        committed db ((ProgrammeStore.createBulk db s.principal.companyId now job items).map
          fun (rows, after) => (rows.map (withDelay today), after))

def update (id : CallForwardItemId) (input : CallForwardInput) : Outcome CallForwardItemWithDelay :=
  attempt db (get db s id) fun existing =>
    attempt db (inDomain input.validate) fun _ =>
      attempt db (checkParent db s (input.itemType.getD existing.itemType) (some id) input.parentId existing.jobId)
        fun _ =>
          orNotFound "Call forward item" (committed db
            ((ProgrammeStore.update db s.principal.companyId now id input).map
              fun (row, after) => (row.map (withDelay today), after)))

def delete (id : CallForwardItemId) : Outcome Unit :=
  attempt db (get db s id) fun _ =>
    deletedOrNotFound "Call forward item" (ProgrammeStore.delete db s.principal.companyId id)

/-- Every item is visible and they are all of one job. -/
def sameJob (job : Option JobId) : List ReorderEntry → Except AppError Unit
  | [] => .ok ()
  | e :: rest =>
    match get db s e.id with
    | .error error => .error error
    | .ok item =>
      if job.any (· ≠ item.jobId) then .error (.domain (.invalid "items" "must all belong to the same job"))
      else sameJob (some item.jobId) rest

def reorder (pick : CallForwardItemId → Nat) (entries : List ReorderEntry) : Outcome Nat :=
  if entries = [] then (.error (.domain (.invalid "items" "is required")), db)
  else
    attempt db (sameJob db s none entries) fun _ =>
      committed db (ProgrammeStore.reorder pick db s.principal.companyId now entries)

def createTemplate (name : Text) (description : Option Text) (job : JobId) : Outcome CallForwardTemplateRow :=
  if trim name = [] then (.error (.domain (.invalid "name" "a template needs a name")), db)
  else
    attempt db (assertJob db s job) fun _ =>
      let items := capture (ProgrammeStore.jobProgramme db s.principal.companyId job)
      attempt db (inDomain (validateItems items)) fun _ =>
        committed db (ProgrammeStore.createTemplate db s.principal.companyId now name description items)

def findTemplate (id : CallForwardTemplateId) : Except AppError CallForwardTemplateRow :=
  match ProgrammeStore.findTemplate db s.principal.companyId id with
  | none => .error (.domain (.notFound "Template"))
  | some template => .ok template

def applyTemplate (id : CallForwardTemplateId) (job : JobId) (replace : Bool) : Outcome Nat :=
  attempt db (assertJob db s job) fun _ =>
    attempt db (findTemplate db s id) fun template =>
      attempt db (inDomain (validateItems template.items)) fun _ =>
        committed db (ProgrammeStore.apply db s.principal.companyId now id job replace)

end Service

end CallForwardService
