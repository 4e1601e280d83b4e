import PmKonstruct.Identity.Accounts
import PmKonstruct.Library.StatementProgram
import PmKonstruct.Library.Table

/- The tables behind authentication and the statements that read and write them. Each statement commits on
   its own; the clock, the random draws and a driver fault come with the moment it runs. -/
namespace AuthStore
open PlainText DecimalText DomainErrors Accounts KeyedTable StatementProgram

structure UserRow where
  id : UserId
  companyId : CompanyId
  name : Text
  email : Text
  role : Text
  phone : Option Text
  active : Bool
  passwordHash : Option Text
  passwordChangedAt : Option Instant
  inRange : InI32 id
  deriving DecidableEq

/-- An active account with no phone and no password, its key checked by evaluation. -/
def UserRow.plain (id : UserId) (company : CompanyId) (name email role : Text) (checked : decide (InI32 id) = true) :
    UserRow :=
  ⟨id, company, name, email, role, none, true, none, none, of_decide_eq_true checked⟩

structure CompanyRow where
  id : CompanyId
  billingOnboardingCompleted : Bool
  billingTrialEndsAt : Option Instant
  stripeSubscriptionId : Option Text
  billingSeatQuantity : Option Int
  deriving DecidableEq, Repr

structure Permission where
  resource : Text
  action : Text
  deriving DecidableEq, Repr

structure UserPermissionRow where
  id : Int
  userId : UserId
  permission : Permission
  deriving DecidableEq, Repr

structure PasswordResetTokenRow where
  id : Int
  userId : UserId
  token : Text
  expiresAt : Instant
  usedAt : Option Instant
  deriving DecidableEq, Repr

structure RefreshTokenRow where
  id : Int
  userId : UserId
  tokenHash : Text
  familyId : Uuid
  issuedAt : Instant
  expiresAt : Instant
  usedAt : Option Instant
  revokedAt : Option Instant
  deriving DecidableEq, Repr

instance : Keyed UserRow := ⟨UserRow.id⟩
instance : Keyed CompanyRow := ⟨CompanyRow.id⟩
instance : Keyed UserPermissionRow := ⟨UserPermissionRow.id⟩
instance : Keyed PasswordResetTokenRow := ⟨PasswordResetTokenRow.id⟩
instance : Keyed RefreshTokenRow := ⟨RefreshTokenRow.id⟩

/-- Next to the tables, how many identifiers have been drawn. -/
structure AuthDb where
  users : Table UserRow
  companies : Table CompanyRow
  userPermissions : Table UserPermissionRow
  passwordResetTokens : Table PasswordResetTokenRow
  refreshTokens : Table RefreshTokenRow
  familiesDrawn : Nat

structure StoredCredential where
  user : User
  passwordHash : Option Text
  deriving DecidableEq, Repr

structure RefreshTokenRecord where
  id : Int
  userId : UserId
  familyId : Uuid
  expiresAt : Instant
  revokedAt : Option Instant
  usedAt : Option Instant
  deriving DecidableEq, Repr

structure ResetToken where
  id : Int
  userId : UserId
  deriving DecidableEq, Repr

structure Entitlement where
  canAccessApplication : Bool
  canConfigureAccount : Bool
  onboardingComplete : Bool
  seatLimit : Option Int
  deriving DecidableEq, Repr

inductive Statement where
  | findCredentialByEmail (email : Text)
  | findByIdUnscoped (id : UserId)
  | replacePasswordHash (id : UserId) (hash : Text)
  | permissionsFor (scope : CompanyId) (id : UserId)
  | entitlement (company : CompanyId)
  | findResetToken (raw hashed : Text)
  | claimResetAndSetPassword (tokenId : Int) (user : UserId) (passwordHash : Text)
  | findByHash (tokenHash : Text)
  | markUsed (id : Int)
  | insert (userId : UserId) (tokenHash : Text) (familyId : Uuid) (expiresAt : Instant)
  | revokeFamily (familyId : Uuid)
  | revokeAllForUser (userId : UserId)
  | utcNow
  | randomSalt
  | randomUuid
  | randomToken
  deriving DecidableEq

abbrev Reply : Statement → Type
  | .findCredentialByEmail _ => Option StoredCredential
  | .findByIdUnscoped _ => Option User
  | .replacePasswordHash _ _ => Unit
  | .permissionsFor _ _ => List Permission
  | .entitlement _ => Entitlement
  | .findResetToken _ _ => Option ResetToken
  | .claimResetAndSetPassword _ _ _ => Bool
  | .findByHash _ => Option RefreshTokenRecord
  | .markUsed _ => Unit
  | .insert _ _ _ _ => Unit
  | .revokeFamily _ => Nat
  | .revokeAllForUser _ => Nat
  | .utcNow => Instant
  | .randomSalt => Text
  | .randomUuid => Uuid
  | .randomToken => Text

abbrev Answer (statement : Statement) : Type := Except PortError (Reply statement)

/-- Reading the clock and drawing random bytes do not touch the database, so they cannot fail. -/
def Statement.queries : Statement → Bool
  | .utcNow | .randomSalt | .randomUuid | .randomToken => false
  | _ => true

structure Env where
  now : Instant
  salt : Text
  token : Text
  fault : Option PortError
  deriving DecidableEq, Repr

def UserRow.intoDomain (row : UserRow) : Except PortError User :=
  match Role.parse row.role with
  | none => .error (.storage (String.ofList
      (text "user " ++ decimal row.id ++ text " has unrecognised role '" ++ row.role ++ text "'")))
  | some role => .ok ⟨row.id, row.companyId, row.name, row.email, role, row.phone, row.active, row.passwordChangedAt⟩

theorem UserRow.intoDomain_iff {row : UserRow} {user : User} : row.intoDomain = .ok user ↔
    ∃ role, Role.parse row.role = some role ∧
      user = ⟨row.id, row.companyId, row.name, row.email, role, row.phone, row.active, row.passwordChangedAt⟩ := by
  rw [UserRow.intoDomain]
  cases Role.parse row.role with
  | none => simp
  | some role => simp [eq_comm]

def RefreshTokenRow.toRecord (row : RefreshTokenRow) : RefreshTokenRecord :=
  ⟨row.id, row.userId, row.familyId, row.expiresAt, row.revokedAt, row.usedAt⟩

/-- `btrim` takes spaces only. -/
def btrim (t : Text) : Text := (t.dropWhile (· = ' ')).rdropWhile (· = ' ')

def latest (tokens : List PasswordResetTokenRow) : Option PasswordResetTokenRow :=
  tokens.foldl (fun best row => match best with
    | none => some row
    | some b => if b.id < row.id then some row else some b) none

section Queries
variable (platform : Platform) (env : Env) (db : AuthDb)

def findCredentialByEmail (email : Text) : Except PortError (Option StoredCredential) :=
  let bound := normaliseEmail platform email
  match db.users.rows.find? fun u => platform.sqlLower u.email = platform.sqlLower (btrim bound) with
  | none => .ok none
  | some row =>
    match row.intoDomain with
    | .error e => .error e
    | .ok user => .ok (some ⟨user, row.passwordHash⟩)

def findByIdUnscoped (id : UserId) : Except PortError (Option User) :=
  match db.users.find id with
  | none => .ok none
  | some row =>
    match row.intoDomain with
    | .error e => .error e
    | .ok user => .ok (some user)

def permissionsFor (scope : CompanyId) (id : UserId) : List Permission :=
  (db.userPermissions.select fun row => row.userId = id &&
    db.users.rows.any fun u => u.id = row.userId && u.companyId = scope).map (·.permission)

def entitlement (company : CompanyId) : Entitlement :=
  match db.companies.find company with
  | none => ⟨false, false, false, some 0⟩
  | some row =>
    let trialActive := row.billingTrialEndsAt.any fun t => t > env.now
    let allowed := row.billingOnboardingCompleted || trialActive || row.stripeSubscriptionId.isSome
    ⟨allowed, allowed, row.billingOnboardingCompleted, row.billingSeatQuantity⟩

/-- The two shapes of a stored secret that a submission can match. -/
def matchesSecret (raw hashed : Text) (t : PasswordResetTokenRow) : Bool :=
  t.token = raw || (hashed ≠ [] && t.token = hashed)

def unspent (t : PasswordResetTokenRow) : Bool := t.usedAt.isNone && t.expiresAt > env.now

def findResetToken (raw hashed : Text) : Option ResetToken :=
  (latest (db.passwordResetTokens.select fun t => matchesSecret raw hashed t && unspent env t)).map
    fun t => ⟨t.id, t.userId⟩

def setPassword (id : UserId) (hash : Text) : Table UserRow :=
  db.users.update (fun u => u.id = id)
    (fun u => { u with passwordHash := some hash, passwordChangedAt := some env.now }) (fun _ => rfl)

def spendResetTokens (tokens : Table PasswordResetTokenRow) (p : PasswordResetTokenRow → Bool) :
    Table PasswordResetTokenRow :=
  tokens.update p (fun t => { t with usedAt := some env.now }) (fun _ => rfl)

def claimReset (tokenId : Int) (user : UserId) (passwordHash : Text) : Bool × AuthDb :=
  let claimable (t : PasswordResetTokenRow) : Bool := t.id = tokenId && unspent env t
  if db.passwordResetTokens.rows.any claimable then
    let claimed := spendResetTokens env db.passwordResetTokens claimable
    (true, { db with
      users := setPassword env db user passwordHash
      passwordResetTokens := spendResetTokens env claimed fun t => t.userId = user && t.usedAt.isNone })
  else (false, db)

def findByHash (tokenHash : Text) : Option RefreshTokenRecord :=
  (db.refreshTokens.rows.find? fun t => t.tokenHash = tokenHash).map (·.toRecord)

def markUsed (id : Int) : AuthDb :=
  { db with
    refreshTokens := db.refreshTokens.update (fun t => t.id = id && t.usedAt.isNone)
      (fun t => { t with usedAt := some env.now }) (fun _ => rfl) }

def insertRefreshToken (userId : UserId) (tokenHash : Text) (familyId : Uuid) (expiresAt : Instant) :
    Except PortError Unit × AuthDb :=
  if expiresAt ≤ env.now then
    (.error (.checkViolation (some "refresh_tokens_expiry_after_issue")), db)
  else if db.refreshTokens.rows.any fun t => t.tokenHash = tokenHash then
    (.error (.conflict (some "refresh_tokens_token_hash_key")), db)
  else if (db.users.find userId).isNone then
    (.error (.conflict (some "refresh_tokens_user_id_fkey")), db)
  else
    (.ok (), { db with
      refreshTokens := db.refreshTokens.insert
        (fun id => ⟨id, userId, tokenHash, familyId, env.now, expiresAt, none, none⟩) (fun _ => rfl) })

/-- The two revocations share one `UPDATE`, differing in whose rows they name. -/
def revoke (named : RefreshTokenRow → Bool) : Nat × AuthDb :=
  let live (t : RefreshTokenRow) : Bool := named t && t.revokedAt.isNone
  ((db.refreshTokens.select live).length, { db with
    refreshTokens := db.refreshTokens.update live
      (fun t => { t with revokedAt := some env.now }) (fun _ => rfl) })

end Queries

theorem findByIdUnscoped_row {db : AuthDb} {id : UserId} {user : User}
    (found : findByIdUnscoped db id = .ok (some user)) :
    ∃ row, db.users.find id = some row ∧ row.intoDomain = .ok user := by
  unfold findByIdUnscoped at found
  cases there : db.users.find id with
  | none => simp [there] at found
  | some row =>
    cases parsed : row.intoDomain with
    | error e => simp [there, parsed] at found
    | ok loaded =>
      simp only [there, parsed, Except.ok.injEq, Option.some.injEq] at found
      exact ⟨row, rfl, found ▸ parsed⟩

def perform (platform : Platform) (env : Env) : (statement : Statement) → AuthDb → Answer statement × AuthDb
  | .findCredentialByEmail email, db => (findCredentialByEmail platform db email, db)
  | .findByIdUnscoped id, db => (findByIdUnscoped db id, db)
  | .replacePasswordHash id hash, db => (.ok (), { db with users := setPassword env db id hash })
  | .permissionsFor scope id, db => (.ok (permissionsFor db scope id), db)
  | .entitlement company, db => (.ok (entitlement env db company), db)
  | .findResetToken raw hashed, db => (.ok (findResetToken env db raw hashed), db)
  | .claimResetAndSetPassword tokenId user passwordHash, db =>
    let (claimed, after) := claimReset env db tokenId user passwordHash
    (.ok claimed, after)
  | .findByHash tokenHash, db => (.ok (findByHash db tokenHash), db)
  | .markUsed id, db => (.ok (), markUsed env db id)
  | .insert userId tokenHash familyId expiresAt, db => insertRefreshToken env db userId tokenHash familyId expiresAt
  | .revokeFamily familyId, db =>
    let (count, after) := revoke env db fun t => t.familyId = familyId
    (.ok count, after)
  | .revokeAllForUser userId, db =>
    let (count, after) := revoke env db fun t => t.userId = userId
    (.ok count, after)
  | .utcNow, db => (.ok env.now, db)
  | .randomSalt, db => (.ok env.salt, db)
  | .randomUuid, db => (.ok (platform.uuid db.familiesDrawn), { db with familiesDrawn := db.familiesDrawn + 1 })
  | .randomToken, db => (.ok env.token, db)

def execute (platform : Platform) : Executes Statement Answer Env AuthDb :=
  faulting (·.fault) Statement.queries (perform platform)

section Faults
variable {platform : Platform} {env : Env} {statement : Statement} {db : AuthDb}

/-- A fault leaves the database as it is. -/
theorem execute_or_fault (platform : Platform) (env : Env) (statement : Statement) (db : AuthDb) :
    execute platform env statement db = perform platform env statement db ∨
      ∃ e, execute platform env statement db = (.error e, db) := faulting_cases env statement db

/-- A reply is what the database says. -/
theorem execute_of_ok {reply : Reply statement} (answered : (execute platform env statement db).1 = .ok reply) :
    execute platform env statement db = perform platform env statement db := faulting_of_ok answered

end Faults

end AuthStore
