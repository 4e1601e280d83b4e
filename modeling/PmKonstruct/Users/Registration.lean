import PmKonstruct.Users.AccountPrograms

/- Signing a company up, from the public form or as the first thing an installation does. The company and its first manager
   are written by one function of the database; the session that follows is begun like any other. -/
namespace Registration
open PlainText DecimalText DomainErrors Accounts AuthStore KeyedTable StatementProgram
open AuthService (LoginOutcome)
open AccountPrograms (UserInput)

structure CompanyRegistration where
  companyName : Text
  manager : UserInput
  deriving DecidableEq, Repr

structure RegisteredCompany where
  companyId : CompanyId
  manager : User
  deriving DecidableEq, Repr

/-- The name of a company, which only signing up looks at. -/
structure CompanyNameRow where
  id : CompanyId
  name : Text
  deriving DecidableEq, Repr

instance : Keyed CompanyNameRow := ⟨CompanyNameRow.id⟩

structure RegistrationDb where
  auth : AuthDb
  companyNames : Table CompanyNameRow

inductive Statement where
  | auth (statement : AuthStore.Statement)
  | registerCompany (input : CompanyRegistration) (passwordHash : Text) (bootstrap : Bool)

abbrev Reply : Statement → Type
  | .auth statement => AuthStore.Reply statement
  | .registerCompany _ _ _ => RegisteredCompany

abbrev Answer (statement : Statement) : Type := Except PortError (Reply statement)

def trialMicros : Int := 30 * 86400 * 1000000

section Queries
variable (platform : Platform) (env : Env) (db : RegistrationDb) (input : CompanyRegistration) (hash : Text)

def nullIfBlank (phone : Option Text) : Option Text :=
  let shown := btrim (phone.getD [])
  if shown = [] then none else some shown

def firstManager (company : CompanyId) (id : UserId) (inRange : InI32 id) : UserRow :=
  ⟨id, company, btrim (trim input.manager.name), normaliseEmail platform input.manager.email, text "MANAGER",
    nullIfBlank input.manager.phone, true, some hash, none, inRange⟩

def registeredOf (row : UserRow) : RegisteredCompany :=
  ⟨row.companyId, ⟨row.id, row.companyId, row.name, row.email, (Role.parse row.role).getD .manager, row.phone, row.active,
    none⟩⟩

/-- `auth_register_company`, with its errors as the repository reports them. -/
def authRegisterCompany (bootstrap : Bool) : Except PortError RegisteredCompany × RegistrationDb :=
  let users := db.auth.users
  let companies := db.auth.companies
  let name := btrim (trim input.companyName)
  if bootstrap && !users.rows.isEmpty then (.error (.rejected "setup" "Setup has already been completed"), db)
  else if users.rows.any fun u => u.email = normaliseEmail platform input.manager.email then
    (.error (.conflict (some "registration_email_taken")), db)
  else if db.companyNames.rows.any fun c => platform.sqlLower (btrim c.name) = platform.sqlLower name then
    (.error (.conflict (some "registration_company_taken")), db)
  else if ¬ InI32 companies.serial then
    (.error (.storage "error returned from database: nextval: reached maximum value of sequence \"companies_id_seq\""), db)
  else if inRange : InI32 users.serial then
    let row := firstManager platform input hash companies.serial users.serial inRange
    (.ok (registeredOf row),
      { auth := { db.auth with
          companies := companies.put ⟨companies.serial, false, some (env.now + trialMicros), none, none⟩
          users := users.put row }
        companyNames := db.companyNames.put ⟨companies.serial, name⟩ })
  else (.error (.storage "error returned from database: nextval: reached maximum value of sequence \"users_id_seq\""), db)

end Queries

def execute (platform : Platform) : Executes Statement Answer Env RegistrationDb := fun env statement db =>
  match statement with
  | .auth statement =>
    let (answer, after) := AuthStore.execute platform env statement db.auth
    (answer, { db with auth := after })
  | .registerCompany input hash bootstrap =>
    match env.fault with
    | none => authRegisterCompany platform env db input hash bootstrap
    | some fault => (.error fault, db)

abbrev Action (α : Type) : Type := Program Statement Answer (Except AppError α)

def fail {α : Type} (error : AppError) : Action α := .done (.error error)

/-- A call of authentication among these statements. -/
def authenticating {α : Type} : AuthService.Action α → Action α
  | .done result => .done result
  | .stmt statement rest => .stmt (.auth statement) fun answer => authenticating (rest answer)

/-- Every byte is compared, whatever the ones before it were. -/
def constantTimeEq (a b : List UInt8) : Bool :=
  if a.length ≠ b.length then false else (a.zip b).foldl (fun acc (x, y) => acc ||| (x ^^^ y)) 0 = 0

def asBytes (t : Text) : List UInt8 := t.flatMap String.utf8EncodeChar

section Service
variable (platform : Platform)

def registered : Except PortError RegisteredCompany → Action LoginOutcome
  | .ok company => authenticating (AuthService.issueSession platform company.manager)
  | .error (.rejected _ _) => fail (.domain (.forbidden "Setup has already been completed"))
  | .error e => fail (.port e)

def register (input : CompanyRegistration) (bootstrap : Bool) : Action LoginOutcome :=
  if trim input.companyName = [] then fail (.domain (.invalid "companyName" "a company name is required"))
  else
    match input.manager.validate true with
    | .error e => fail (.domain e)
    | .ok _ =>
      match input.manager.password with
      | none => fail (.domain (.invalid "password" "is required"))
      | some password =>
        .stmt (.auth .randomSalt) fun
        | .error e => fail (.port e)
        | .ok salt =>
          match platform.argon2Hash salt password with
          | .error detail => fail (.internal detail)
          | .ok hash => .stmt (.registerCompany input hash bootstrap) (registered platform)

def registerCompany (input : CompanyRegistration) : Action LoginOutcome := register platform input false

/-- The secret of the installation guards the setup; without one there is no setup. -/
def completeSetup (setupSecret setupKey : Text) (input : CompanyRegistration) : Action LoginOutcome :=
  if setupSecret = [] then
    fail (.featureUnavailable "Setup is disabled. SETUP_SECRET is not configured on the server.")
  else if !constantTimeEq (asBytes setupKey) (asBytes setupSecret) then fail (.domain (.forbidden "Invalid setup key"))
  else register platform input true

end Service

end Registration
