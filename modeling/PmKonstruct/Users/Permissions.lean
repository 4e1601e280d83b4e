import PmKonstruct.Identity.AuthService
import PmKonstruct.Library.ReadCommitted

/- Saving the permissions of a user, as transactions under READ COMMITTED: the grants are deleted by one statement and
   inserted by the next. The rows of a `DELETE` are those it saw when it started and that are still there when it has
   their locks; an `INSERT` waits for whoever is writing one of its keys, and passes over the keys it finds taken. -/
namespace Permissions
open PlainText DomainErrors Accounts KeyedTable ReadCommitted
open StatementProgram (Program)
open AuthStore (AuthDb Permission UserPermissionRow)
open AuthService (SessionUser)

def assertPermissionsEditable (role : Role) : Except DomainError Unit :=
  if role = .manager then .error (.invalid "role" "Manager access cannot be restricted") else .ok ()

/-- The sentinel that makes a stored permission list take effect. -/
def managedMarker : Permission := ⟨text "access-rules", text "managed"⟩

def markManaged (permissions : List Permission) : List Permission :=
  if permissions.contains managedMarker then permissions else permissions ++ [managedMarker]

inductive Statement where
  | find (scope : CompanyId) (id : UserId)
  | deletePermissions (scope : CompanyId) (id : UserId)
  | insertPermissions (scope : CompanyId) (id : UserId) (permissions : List Permission)

abbrev Reply : Statement → Type
  | .find _ _ => Option User
  | .deletePermissions _ _ => Unit
  | .insertPermissions _ _ _ => Unit

abbrev Answer (statement : Statement) : Type := Except PortError (Reply statement)

/-- A row of `user_permissions`, or its place in the unique index. -/
inductive Lock where
  | row (id : Int)
  | key (user : UserId) (permission : Permission)
  deriving DecidableEq

section Statements
variable (snapshot current : AuthDb) (scope : CompanyId) (id : UserId)

def find : Except PortError (Option User) :=
  match snapshot.users.reach (·.companyId = scope) id with
  | none => .ok none
  | some row => row.intoDomain.map some

/-- The policy of `user_permissions`: a row is reached through its user. -/
def reaches : Bool := snapshot.users.rows.any fun u => u.id = id && u.companyId = scope

def grantRows : List UserPermissionRow := snapshot.userPermissions.select (·.userId = id)

def clear (removed : List Int) (db : AuthDb) : AuthDb :=
  { db with userPermissions := db.userPermissions.delete fun row => row.userId = id && removed.contains row.id }

def deletePermissions : Effect (Except PortError Unit) AuthDb Lock :=
  let listed := if reaches snapshot scope id then grantRows snapshot id else []
  let present := listed.filter fun row => (current.userPermissions.find row.id).isSome
  { answer := .ok ()
    change := clear id (present.map (·.id))
    awaits := listed.map fun row => .row row.id
    takes := present.flatMap fun row => [.row row.id, .key id row.permission]
    drawn := 0 }

/-- `varchar(100)` cuts spaces off the end of a longer text, and refuses it when anything else is there. -/
def column (t : Text) : Except PortError Text :=
  if (t.drop 100).all (· = ' ') then .ok (t.take 100)
  else .error (.storage "error returned from database: value too long for type character varying(100)")

/-- No text of the database holds a zero byte. -/
def sendable (permission : Permission) : Bool :=
  !permission.resource.contains (Char.ofNat 0) && !permission.action.contains (Char.ofNat 0)

def asStored (permission : Permission) : Except PortError Permission := do
  let resource ← column permission.resource
  let action ← column permission.action
  return ⟨resource, action⟩

/-- `ON CONFLICT DO NOTHING`, row by row. Each row draws its id, whether or not its key turns out to be taken. -/
def granted : List Permission → Int → List Permission → List UserPermissionRow
  | _, _, [] => []
  | taken, serial, permission :: rest =>
    if taken.contains permission then granted taken (serial + 1) rest
    else ⟨serial, id, permission⟩ :: granted (permission :: taken) (serial + 1) rest

def grant (rows : List UserPermissionRow) (db : AuthDb) : AuthDb :=
  { db with userPermissions := db.userPermissions.putAll rows }

def refuse {α : Type} (e : PortError) : Effect (Except PortError α) AuthDb Lock := ⟨.error e, fun db => db, [], [], 0⟩

def insertPermissions (serial : Int) (permissions : List Permission) : Effect (Except PortError Unit) AuthDb Lock :=
  if permissions.any (!sendable ·) then
    refuse (.storage "error returned from database: invalid byte sequence for encoding \"UTF8\": 0x00")
  else
    match permissions.mapM asStored with
    | .error e => refuse e
    | .ok stored =>
      if reaches snapshot scope id then
        let rows := granted id ((grantRows current id).map (·.permission)) serial stored
        { answer := .ok ()
          change := grant rows
          awaits := stored.map fun permission => .key id permission
          takes := rows.map fun row => .key id row.permission
          drawn := stored.length }
      else
        refuse (.storage
          "error returned from database: new row violates row-level security policy for table \"user_permissions\"")

end Statements

/-- Any statement may meet a fault of the driver. -/
def execute : Option PortError → Int → (statement : Statement) → AuthDb → AuthDb → Effect (Answer statement) AuthDb Lock
  | some fault, _, _, _, _ => refuse fault
  | none, _, .find scope user, snapshot, _ => ⟨find snapshot scope user, id, [], [], 0⟩
  | none, _, .deletePermissions scope id, snapshot, current => deletePermissions snapshot current scope id
  | none, serial, .insertPermissions scope id permissions, snapshot, current =>
    insertPermissions snapshot current scope id serial permissions

structure Save where
  session : SessionUser
  id : UserId
  permissions : List Permission

abbrev Steps : Type := Program Statement Answer (Ending (Except AppError Unit))

def fail (error : AppError) : Steps := .done (.rollback (.error error))

/-- The error of a statement ends the transaction. -/
def orFail {α : Type} (next : α → Steps) : Except PortError α → Steps
  | .error e => fail (.port e)
  | .ok reply => next reply

def finished : Steps := .done (.commit (.ok ()))

section Repository
variable (scope : CompanyId) (id : UserId) (permissions : List Permission)

def inserting : Steps :=
  if permissions.isEmpty then finished
  else .stmt (.insertPermissions scope id permissions) (orFail fun _ => finished)

def replacing : Steps := .stmt (.deletePermissions scope id) (orFail fun _ => inserting scope id permissions)

end Repository

def editing (save : Save) : Option User → Steps
  | none => fail (.domain (.notFound "User"))
  | some user =>
    match assertPermissionsEditable user.role with
    | .error e => fail (.domain e)
    | .ok () => replacing save.session.principal.companyId save.id (markManaged save.permissions)

/-- The user is read in a transaction of its own, which writes nothing and holds nothing. -/
def setPermissions (save : Save) : Steps :=
  .stmt (.find save.session.principal.companyId save.id) (orFail (editing save))

abbrev Saving : Type := Transaction Statement Answer (Except AppError Unit) Save AuthDb Lock

abbrev Saves : Type := Config Statement Answer (Except AppError Unit) Save AuthDb Lock

/-- Calls that save permissions, from a database as it was found. -/
def saves (start : AuthDb) (permits : Saves → Label Save (Option PortError) → Bool) :
    Database Statement Answer (Except AppError Unit) Save (Option PortError) AuthDb Lock where
  program := setPermissions
  execute := execute
  conflicts a b := a = b
  initial store serial := store = start ∧ ∀ row ∈ store.userPermissions.rows, row.id < serial
  permits := permits

/-- The permissions stored for a user. -/
def grants (db : AuthDb) (id : UserId) : List Permission := (grantRows db id).map (·.permission)

end Permissions
