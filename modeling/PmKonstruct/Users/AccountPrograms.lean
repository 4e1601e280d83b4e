import PmKonstruct.Identity.AuthService
import PmKonstruct.Users.UsersService

/- The calls of managers on the accounts of their company, next to the calls of authentication. Each statement is a
   transaction of its own: the session is resolved, the account is read and the seats are counted before the write, and
   nothing holds what was read until then. -/
namespace AccountPrograms
open PlainText DecimalText DomainErrors Accounts AuthStore KeyedTable StatementProgram
open AuthService (SessionUser)

/-- A new or edited account. -/
structure UserInput where
  name : Text
  email : Text
  role : Role
  phone : Option Text
  active : Bool
  password : Option Text
  deriving DecidableEq, Repr

/-- An empty password leaves the old one alone, and is not looked at. -/
def UserInput.validate (input : UserInput) (creating : Bool) : Except DomainError Unit :=
  if trim input.name = [] then .error (.invalid "name" "a name is required")
  else if input.name.length > 120 then .error (.invalid "name" "must be 120 characters or fewer")
  else if !looksLikeEmail input.email then .error (.invalid "email" "must be a valid address")
  else
    match input.password with
    | none =>
      if creating then .error (.invalid "password" "A password is required when creating a user") else .ok ()
    | some password => if password = [] then .ok () else validatePassword password

/-- `none` when the subscription does not cap seats. -/
structure Seats where
  limit : Option Int
  inUse : Int
  deriving DecidableEq, Repr

def Seats.hasRoom (seats : Seats) : Bool := seats.limit.all fun limit => seats.inUse < limit

def Seats.fullMessage (seats : Seats) (activating : Bool) : String :=
  let limit := seats.limit.getD 0
  let verb := if activating then "activating another user" else "adding another user"
  s!"All {limit} paid seats are in use. Increase your seats in Billing before {verb}."

inductive Statement where
  | auth (statement : AuthStore.Statement)
  | find (scope : CompanyId) (id : UserId)
  | activeCount (scope : CompanyId)
  | create (scope : CompanyId) (input : UserInput) (passwordHash : Text)
  | update (scope : CompanyId) (id : UserId) (input : UserInput) (passwordHash : Option Text)
  | delete (scope : CompanyId) (id : UserId)

abbrev Reply : Statement → Type
  | .auth statement => AuthStore.Reply statement
  | .find _ _ => Option User
  | .activeCount _ => Int
  | .create _ _ _ => User
  | .update _ _ _ _ => Option User
  | .delete _ _ => Bool

abbrev Answer (statement : Statement) : Type := Except PortError (Reply statement)

/- The statements. The policy of `users` shows a session the accounts of its company. -/

section Queries
variable (platform : Platform) (env : Env) (db : AuthDb) (scope : CompanyId) (id : UserId) (input : UserInput)

def findUser : Except PortError (Option User) :=
  match db.users.reach (·.companyId = scope) id with
  | none => .ok none
  | some row => row.intoDomain.map some

def activeUsers : List UserRow := db.users.select fun u => u.companyId = scope && u.active

/-- The address is unique across all companies. -/
def emailTaken (apart : Option UserId) : Bool :=
  db.users.rows.any fun u => u.email = normaliseEmail platform input.email && some u.id ≠ apart

def newUser (hash : Text) (inRange : InI32 id) : UserRow :=
  ⟨id, scope, trim input.name, normaliseEmail platform input.email, input.role.asStr, input.phone, input.active,
    some hash, none, inRange⟩

def createUser (hash : Text) : Except PortError User × AuthDb :=
  if inRange : InI32 db.users.serial then
    let row := newUser platform scope db.users.serial input hash inRange
    if emailTaken platform db input none then (.error (.conflict (some "users_email_unique")), db)
    else if (db.companies.find scope).isNone then
      (.error (.conflict (some "users_company_id_companies_id_fk")), db)
    else (row.intoDomain, { db with users := db.users.put row })
  else (.error (.storage "error returned from database: nextval: reached maximum value of sequence \"users_id_seq\""), db)

/-- The time of the last change moves only with the hash. -/
def changedUser (hash : Option Text) (row : UserRow) : UserRow :=
  { row with
    name := trim input.name
    email := normaliseEmail platform input.email
    role := input.role.asStr
    phone := input.phone
    active := input.active
    passwordHash := hash <|> row.passwordHash
    passwordChangedAt := if hash.isNone then row.passwordChangedAt else some env.now }

def updateUser (hash : Option Text) : Except PortError (Option User) × AuthDb :=
  match db.users.reach (·.companyId = scope) id with
  | none => (.ok none, db)
  | some row =>
    if emailTaken platform db input (some id) then (.error (.conflict (some "users_email_unique")), db)
    else ((changedUser platform env input hash row).intoDomain.map some, { db with
      users := db.users.update (fun u => u.id = id && u.companyId = scope) (changedUser platform env input hash)
        (fun _ => rfl) })

/-- What refers to the account of these tables goes along. -/
def deleteUser : Bool × AuthDb :=
  match db.users.reach (·.companyId = scope) id with
  | none => (false, db)
  | some _ => (true, { db with
      users := db.users.delete fun u => u.id = id && u.companyId = scope
      userPermissions := db.userPermissions.delete (·.userId = id)
      passwordResetTokens := db.passwordResetTokens.delete (·.userId = id)
      refreshTokens := db.refreshTokens.delete (·.userId = id) })

end Queries

def perform (platform : Platform) (env : Env) : (statement : Statement) → AuthDb → Answer statement × AuthDb
  | .auth statement, db => AuthStore.execute platform env statement db
  | .find scope id, db => (findUser db scope id, db)
  | .activeCount scope, db => (.ok (activeUsers db scope).length, db)
  | .create scope input hash, db => createUser platform db scope input hash
  | .update scope id input hash, db => updateUser platform env db scope id input hash
  | .delete scope id, db =>
    let (deleted, after) := deleteUser db scope id
    (.ok deleted, after)

def Statement.queries : Statement → Bool
  | .auth statement => statement.queries
  | _ => true

def execute (platform : Platform) : Executes Statement Answer Env AuthDb :=
  faulting (·.fault) Statement.queries (perform platform)

/- The use cases. -/

abbrev Action (α : Type) : Type := Program Statement Answer (Except AppError α)

def fail {α : Type} (error : AppError) : Action α := .done (.error error)

/-- Awaits a statement and passes a driver error on. -/
def call {α : Type} (statement : Statement) (next : Reply statement → Action α) : Action α :=
  await .port statement next

/-- A call of authentication among these statements. -/
def authenticating {α β : Type} (next : α → Action β) : AuthService.Action α → Action β
  | .done (.error e) => fail e
  | .done (.ok value) => next value
  | .stmt statement rest => .stmt (.auth statement) fun answer => authenticating next (rest answer)

section Service
variable (platform : Platform)

/-- The guard of the routes. -/
def managerOnly {α : Type} (bearer : Text) (next : SessionUser → Action α) : Action α :=
  authenticating (fun s =>
    if s.entitlement.canAccessApplication = false then
      fail (.domain (.billingRequired
        "Complete billing setup or reactivate your subscription to access the application."))
    else if s.user.role ≠ .manager then fail (.domain (.forbidden "Insufficient permissions"))
    else next s) (AuthService.resolveSession platform bearer)

variable (s : SessionUser)

def get {α : Type} (id : UserId) (next : User → Action α) : Action α :=
  call (.find s.principal.companyId id) fun
  | none => fail (.domain (.notFound "User"))
  | some user => next user

def withSeat (activating : Bool) (next : Action User) : Action User :=
  call (.auth (.entitlement s.principal.companyId)) fun entitlement =>
    call (.activeCount s.principal.companyId) fun inUse =>
      let seats : Seats := ⟨entitlement.seatLimit, inUse⟩
      if seats.hasRoom = false then fail (.domain (.conflict (seats.fullMessage activating))) else next

def hashing (password : Text) (next : Text → Action User) : Action User :=
  call (.auth .randomSalt) fun salt =>
    match platform.argon2Hash salt password with
    | .error detail => fail (.internal detail)
    | .ok hash => next hash

/-- Only an active account takes a seat. -/
def create (input : UserInput) : Action User :=
  match input.validate true with
  | .error e => fail (.domain e)
  | .ok _ =>
    let write : Action User :=
      match input.password with
      | none => fail (.domain (.invalid "password" "is required"))
      | some password => hashing platform password fun hash =>
        call (.create s.principal.companyId input hash) fun user => .done (.ok user)
    if input.active then withSeat s false write else write

/-- Changes that would lock the manager who makes them out. -/
def ownChange (id : UserId) (input : UserInput) (existing : User) : Except DomainError Unit :=
  if id = s.user.id then
    if input.active = false then .error (.invalid "active" "You cannot deactivate your own account")
    else if input.role ≠ existing.role then .error (.invalid "role" "You cannot change your own role")
    else .ok ()
  else .ok ()

def write (id : UserId) (input : UserInput) (hash : Option Text) : Action User :=
  call (.update s.principal.companyId id input hash) fun
  | none => fail (.domain (.notFound "User"))
  | some user => .done (.ok user)

/-- Only a change into active needs a seat, and an empty password never reaches the hasher. -/
def update (id : UserId) (input : UserInput) : Action User :=
  match input.validate false with
  | .error e => fail (.domain e)
  | .ok _ =>
    get s id fun existing =>
      match ownChange s id input existing with
      | .error e => fail (.domain e)
      | .ok _ =>
        let change : Action User :=
          match input.password with
          | none => write s id input none
          | some password =>
            if password = [] then write s id input none
            else hashing platform password fun hash => write s id input (some hash)
        if input.active && !existing.active then withSeat s true change else change

def delete (id : UserId) : Action Unit :=
  match UsersService.assertNotSelf s.user.id id "You cannot delete your own account" with
  | .error e => fail (.domain e)
  | .ok _ =>
    get s id fun _ =>
      call (.delete s.principal.companyId id) fun
      | true => .done (.ok ())
      | false => fail (.domain (.notFound "User"))

end Service

/- The calls that may be in flight together. -/

inductive Change where
  | create (input : UserInput)
  | update (id : UserId) (input : UserInput)
  | delete (id : UserId)

inductive Request where
  | auth (request : AuthService.Request)
  | change (bearer : Text) (change : Change)

inductive Returned where
  | session (outcome : Option AuthService.LoginOutcome)
  | account (user : User)
  | deleted

abbrev Outcome : Type := Except AppError Returned

def changeOf (platform : Platform) (s : SessionUser) : Change → Action Returned
  | .create input => (create platform s input).mapResult (·.map .account)
  | .update id input => (update platform s id input).mapResult (·.map .account)
  | .delete id => (delete s id).mapResult (·.map fun _ => .deleted)

def programOf (platform : Platform) : Request → Program Statement Answer Outcome
  | .auth request => authenticating (fun session => .done (.ok (.session session))) (AuthService.programOf platform request)
  | .change bearer change => managerOnly platform bearer fun s => changeOf platform s change

def accounts (platform : Platform) (initial : AuthDb → Prop) :
    Service Statement Answer Outcome Request Env AuthDb where
  program := programOf platform
  execute := execute platform
  initial := initial
  admits := fun _ _ _ => true

abbrev Underway : Type := Call Statement Answer Outcome Request

abbrev Running : Type := Config Statement Answer Outcome Request AuthDb

/- The same deletion over the two stores, which share the accounts. -/

section Alone
variable {platform : Platform} {db : Schema.Db} {auth : AuthDb} {s : SessionUser} {id : UserId} {scope : CompanyId}

theorem findUser_eq (same : auth.users = db.users) : findUser auth scope id = UserStore.find db scope id := by
  rw [findUser, same]
  rfl

theorem deleteUser_eq (same : auth.users = db.users) : (deleteUser auth scope id).1 = (UserStore.delete db scope id).1 ∧
    (deleteUser auth scope id).2.users = (UserStore.delete db scope id).2.users := by
  rw [deleteUser, UserStore.delete, UserStore.visibleUser, same]
  cases reached : db.users.reach (·.companyId = scope) id with
  | none => exact ⟨rfl, same⟩
  | some row =>
    obtain ⟨found, visible⟩ := Table.reach_eq_some_iff.mp reached
    obtain ⟨there, here⟩ := Table.find_eq_some_iff.mp found
    refine ⟨rfl, Table.ext (List.filter_congr fun u member => ?_) rfl⟩
    show (!(decide (u.id = id) && decide (u.companyId = scope))) = !decide (u.id = id)
    by_cases named : u.id = id
    · obtain rfl : u = row := Table.key_inj member there (named.trans here.symm)
      rw [visible, Bool.and_true]
    · rw [decide_eq_false named, Bool.false_and]

/-- A deletion that nobody interrupts and no fault meets is the one over the whole store. -/
theorem delete_alone {envs : Nat → Env} (calm : ∀ n, (envs n).fault = none) (same : auth.users = db.users) :
    ((delete s id).runFrom (execute platform) envs 0 auth).1 = (UsersService.delete db s id).1 ∧
    ((delete s id).runFrom (execute platform) envs 0 auth).2.users = (UsersService.delete db s id).2.users := by
  have performed : ∀ n statement (store : AuthDb), execute platform (envs n) statement store =
      perform platform (envs n) statement store := fun n statement store => by simp only [execute, faulting, calm]
  unfold delete UsersService.delete UsersService.get
  cases UsersService.assertNotSelf s.user.id id "You cannot delete your own account" with
  | error e => exact ⟨rfl, same⟩
  | ok _ =>
    simp only [get, call, await, Program.runFrom, performed, perform, findUser_eq same, Requests.inDomain, Requests.attempt]
    cases UserStore.find db s.principal.companyId id with
    | error e => exact ⟨rfl, same⟩
    | ok found =>
      cases found with
      | none => exact ⟨rfl, same⟩
      | some user =>
        obtain ⟨deleted, users⟩ := @deleteUser_eq db auth id s.principal.companyId same
        simp only [Program.runFrom, performed, perform, Requests.deletedOrNotFound, deleted]
        cases (UserStore.delete db s.principal.companyId id).1 with
        | true => exact ⟨rfl, users⟩
        | false => exact ⟨rfl, users⟩

end Alone

end AccountPrograms
