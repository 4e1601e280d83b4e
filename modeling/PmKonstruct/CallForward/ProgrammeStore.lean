import PmKonstruct.CallForward.Templates
import PmKonstruct.Library.ParentForest
import PmKonstruct.Store.Requests
import PmKonstruct.Store.RowSecurity

/- The repositories of the programme and of its templates, one transaction a function. The tables ask only that a
   parent exists and is another row; deleting a row takes everything under it along. -/
namespace ProgrammeStore
open PlainText DomainErrors Accounts Schema KeyedTable RowSecurity Requests ParentForest
open CallForwardItem Templates

/-- Addition on signed 32-bit numbers in a release build. -/
def wrapI32 (n : Int) : Int := n.bmod (2 ^ 32)

/- The table of items. -/

section Items
variable (t : Table CallForwardRow)

def parentOf (id : CallForwardItemId) : Option CallForwardItemId := (t.find id).bind (·.parentId)

/-- The rows that match and all rows under them. A way up that repeats no row is no longer than the table. -/
def goneWith (p : CallForwardRow → Bool) (row : CallForwardRow) : Bool :=
  meets (parentOf t) (fun id => (t.find id).any p) t.rows.length row.id

def cascadeDelete (p : CallForwardRow → Bool) : Table CallForwardRow := t.delete (goneWith t p)

def parentMissing (parent : Option CallForwardItemId) : Bool := parent.any fun p => (t.find p).isNone

end Items

section Repository
variable (db : Db) (scope : CompanyId)

def itemVisible (row : CallForwardRow) : Bool := jobInScope db scope row.jobId

def findItem (visible : Option (List JobId)) (id : CallForwardItemId) : Option CallForwardRow :=
  db.callForward.reach (fun i => itemVisible db scope i && visible.all fun ids => decide (i.jobId ∈ ids)) id

def typeAndJob (id : CallForwardItemId) : Option (ItemType × JobId) :=
  (db.callForward.reach (itemVisible db scope) id).map fun i => (i.itemType, i.jobId)

def ordersOf (job : JobId) : List Int :=
  (db.callForward.select fun i => i.jobId = job && itemVisible db scope i).map (·.sortOrder)

/-- A trade is a `varchar(150)`. -/
def tradeTooLong (trade : Option Text) : Bool × PortError := tooLong 150 (trade.getD [])

def selfParent (id : CallForwardItemId) (parent : Option CallForwardItemId) : Bool × PortError :=
  (decide (parent = some id), .checkViolation (some "call_forward_no_self_parent"))

def foreignParent (parent : Option CallForwardItemId) : Bool × PortError :=
  (parentMissing db.callForward parent, .conflict (some "call_forward_parent_fk"))

def itemConstraint (row : CallForwardRow) : Option PortError :=
  firstViolation [
    tradeTooLong row.supplierTrade,
    (!jobInScope db scope row.jobId, rowDenied "call_forward"),
    selfParent row.id row.parentId,
    ((db.jobs.find row.jobId).isNone, .conflict (some "call_forward_job_id_jobs_id_fk")),
    foreignParent db row.parentId]

def insertItem (make : CallForwardItemId → CallForwardRow) (keyed : ∀ id, (make id).id = id) :
    Except PortError (CallForwardRow × Db) :=
  insertRow db.callForward (fun items => { db with callForward := items }) (fun i => i) make keyed
    (itemConstraint db scope (make db.callForward.serial))

def newItem (now : Instant) (job : JobId) (input : CallForwardInput) (order : Int)
    (parent : Option CallForwardItemId) (id : CallForwardItemId) : CallForwardRow :=
  ⟨id, job, input.title, input.itemType.getD .task, input.supplierTrade, input.estStart, input.estFinish,
    input.actualStart, input.actualFinish, input.status.getD .notStarted, input.notes, order, parent, now, now⟩

/-- `COALESCE` with the place after the job's last item, which is looked up only when none is given. -/
def orderFor (job : JobId) (given : Option Int) : Except PortError Int :=
  match given with
  | some order => .ok order
  | none => nextOrder (ordersOf db scope job)

def insertIn (now : Instant) (job : JobId) (input : CallForwardInput) (parent : Option CallForwardItemId) :
    Except PortError (CallForwardRow × Db) := do
  let order ← orderFor db scope job input.sortOrder
  insertItem db scope (newItem now job input order parent) (fun _ => rfl)

def create (now : Instant) (job : JobId) (input : CallForwardInput) : Except PortError (CallForwardRow × Db) :=
  insertIn db scope now job input input.parentId

/-- A local parent is a row of the same list that is already there. -/
def bulkParent (created : List CallForwardRow) (input : CallForwardInput) (localParent : Option Nat) :
    Except PortError (Option CallForwardItemId) :=
  match localParent with
  | none => .ok input.parentId
  | some index =>
    match created[index]? with
    | none => .error (.storage s!"local parent index {index} is out of range")
    | some row => .ok (some row.id)

def createEach (now : Instant) (job : JobId) (db : Db) (created : List CallForwardRow) :
    List (CallForwardInput × Option Nat) → Except PortError (List CallForwardRow × Db)
  | [] => .ok (created, db)
  | (input, localParent) :: rest => do
    let parent ← bulkParent created input localParent
    let (row, after) ← insertIn db scope now job input parent
    createEach now job after (created ++ [row]) rest

def createBulk (now : Instant) (job : JobId) (items : List (CallForwardInput × Option Nat)) :
    Except PortError (List CallForwardRow × Db) :=
  createEach scope now job db [] items

def changedItem (now : Instant) (input : CallForwardInput) (row : CallForwardRow) : CallForwardRow :=
  { row with
    title := input.title
    itemType := input.itemType.getD row.itemType
    supplierTrade := input.supplierTrade
    estStart := input.estStart
    estFinish := input.estFinish
    actualStart := input.actualStart
    actualFinish := input.actualFinish
    status := input.status.getD row.status
    notes := input.notes
    sortOrder := input.sortOrder.getD row.sortOrder
    parentId := input.parentId
    updatedAt := now }

def update (now : Instant) (id : CallForwardItemId) (input : CallForwardInput) :
    Except PortError (Option CallForwardRow × Db) :=
  checkedChange db.callForward (fun items => { db with callForward := items }) (fun i => i) (itemVisible db scope) id
    (changedItem now input) (fun _ => rfl)
    (firstViolation [
      tradeTooLong input.supplierTrade, selfParent id input.parentId, foreignParent db input.parentId])

def delete (id : CallForwardItemId) : Bool × Db :=
  match db.callForward.reach (itemVisible db scope) id with
  | none => (false, db)
  | some _ => (true, { db with callForward := cascadeDelete db.callForward fun i => i.id = id })

end Repository

/- Reordering: one statement joins the rows with the entries. -/

structure ReorderEntry where
  id : CallForwardItemId
  sortOrder : Int
  parentId : Option (Option CallForwardItemId)
  deriving DecidableEq, Repr

section Reorder
variable (pick : CallForwardItemId → Nat) (db : Db) (scope : CompanyId)

/-- Of several entries for one row the database uses one and does not say which, so `pick` is left open. -/
def chosen (entries : List ReorderEntry) (id : CallForwardItemId) : Option ReorderEntry :=
  let named := entries.filter (·.id = id)
  named[pick id % named.length]?

def placed (now : Instant) (entries : List ReorderEntry) (row : CallForwardRow) : CallForwardRow :=
  match chosen pick entries row.id with
  | none => row
  | some e => { row with
      sortOrder := e.sortOrder
      parentId := e.parentId.getD row.parentId
      updatedAt := now }

theorem placed_id {now : Instant} {entries : List ReorderEntry} (row : CallForwardRow) :
    (placed pick now entries row).id = row.id := by
  unfold placed
  split <;> rfl

/-- The rows the join finds an entry for, among those the session may touch. -/
def joined (entries : List ReorderEntry) (row : CallForwardRow) : Bool :=
  itemVisible db scope row && (chosen pick entries row.id).isSome

def reordered (now : Instant) (entries : List ReorderEntry) : Table CallForwardRow :=
  db.callForward.update (joined pick db scope entries) (placed pick now entries) (placed_id pick)

def reorder (now : Instant) (entries : List ReorderEntry) : Except PortError (Nat × Db) :=
  if entries = [] then .ok (0, db)
  else
    let rows := db.callForward.select (joined pick db scope entries)
    let parents := rows.map fun row => (row.id, (placed pick now entries row).parentId)
    let violation := firstViolation [
      (parents.any fun (id, parent) => decide (parent = some id),
        .checkViolation (some "call_forward_no_self_parent")),
      (parents.any fun (_, parent) => parentMissing db.callForward parent,
        .conflict (some "call_forward_parent_fk"))]
    match violation with
    | some e => .error e
    | none => .ok (rows.length, { db with callForward := reordered pick db scope now entries })

end Reorder

/- Templates. -/

section TemplateRepository
variable (db : Db) (scope : CompanyId)

def jobProgramme (job : JobId) : List ProgrammeRow :=
  let rows := (db.callForward.select fun i => i.jobId = job && itemVisible db scope i).insertionSort
    fun a b => a.sortOrder < b.sortOrder ∨ a.sortOrder = b.sortOrder ∧ a.id ≤ b.id
  rows.map fun i => ⟨i.id, i.parentId, i.title, ItemType.asStr i.itemType, i.supplierTrade, i.sortOrder⟩

def findTemplate (id : CallForwardTemplateId) : Option CallForwardTemplateRow :=
  db.callForwardTemplates.reach (·.companyId = scope) id

def createTemplate (now : Instant) (name : Text) (description : Option Text) (items : List TemplateItem) :
    Except PortError (CallForwardTemplateRow × Db) :=
  insertRow db.callForwardTemplates (fun templates => { db with callForwardTemplates := templates }) (fun t => t)
    (fun id => ⟨id, scope, trim name, description, items, now, now⟩) (fun _ => rfl) none

def newLine (now : Instant) (job : JobId) (base : Int) (item : TemplateItem) (itemType : ItemType)
    (parent : Option CallForwardItemId) (id : CallForwardItemId) : CallForwardRow :=
  ⟨id, job, item.title, itemType, item.supplierTrade, none, none, none, none, .notStarted, none,
    wrapI32 (base + item.sortOrder), parent, now, now⟩

/-- Each child needs the id its parent was given, so the lines are written one at a time. -/
def applyEach (now : Instant) (job : JobId) (base : Int) (db : Db) (localToDb : List (Int × CallForwardItemId)) :
    List TemplateItem → Except PortError Db
  | [] => .ok db
  | item :: rest =>
    match ItemType.parse item.itemType with
    | none => .error (.checkViolation (some "call_forward_item_type_check"))
    | some itemType => do
      let parent := item.localParentId.bind fun p => List.lookup p localToDb
      let (row, after) ← insertItem db scope (newLine now job base item itemType parent) (fun _ => rfl)
      applyEach now job base after ((item.localId, row.id) :: localToDb) rest

def clearJob (job : JobId) : Db :=
  { db with callForward := cascadeDelete db.callForward fun i => i.jobId = job && itemVisible db scope i }

def apply (now : Instant) (id : CallForwardTemplateId) (job : JobId) (replace : Bool) : Except PortError (Nat × Db) :=
  match findTemplate db scope id with
  | none => .error .notFound
  | some template =>
    if template.items = [] then .ok (0, db)
    else do
      let cleared := if replace then clearJob db scope job else db
      let base ← nextOrder (ordersOf cleared scope job)
      let after ← applyEach scope now job base cleared [] template.items
      return (template.items.length, after)

end TemplateRepository

end ProgrammeStore
