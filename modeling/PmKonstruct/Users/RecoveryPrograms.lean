import PmKonstruct.Identity.RecoveryCodes
import PmKonstruct.Library.ReadCommitted
import PmKonstruct.Users.AccountPrograms

/- The calls that issue or redeem a secret for recovery, as transactions under READ COMMITTED. The lookup that goes before
   a transaction takes no lock and writes nothing, so it stands at its head. The sessions that a reset revokes after its
   commit are not part of it. -/
namespace RecoveryPrograms
open PlainText DomainErrors Accounts AuthStore KeyedTable Requests ReadCommitted
open StatementProgram (Program)

def minutes (n : Int) : Int := n * 60000000

def resetLinkTtlMinutes : Int := 60

def mayResetByEmail (activeUsersInCompany : Int) : Bool := activeUsersInCompany = 1

inductive Statement where
  | findUser (scope : CompanyId) (user : UserId)
  | spendOutstanding (scope : CompanyId) (user : UserId)
  | insertCode (scope : CompanyId) (user : UserId) (token : Text) (expiresAt : Instant)
  | recoveryContext (email : Text)
  | storeResetToken (user : UserId) (token : Text) (expiresAt : Instant)
  | findResetToken (raw hashed : Text)
  | claimToken (tokenId : Int)
  | setPassword (user : UserId) (passwordHash : Text)
  | spendOthers (user : UserId)

abbrev Reply : Statement → Type
  | .findUser _ _ => Option User
  | .spendOutstanding _ _ => Unit
  | .insertCode _ _ _ _ => Unit
  | .recoveryContext _ => Option (UserId × Int)
  | .storeResetToken _ _ _ => Unit
  | .findResetToken _ _ => Option ResetToken
  | .claimToken _ => Bool
  | .setPassword _ _ => Unit
  | .spendOthers _ => Unit

abbrev Answer (statement : Statement) : Type := Except PortError (Reply statement)

/-- A row of either table, or a place in the unique index of the tokens. -/
inductive Lock where
  | token (id : Int)
  | user (id : UserId)
  | secret (token : Text)
  deriving DecidableEq

abbrev Outcome (α : Type) : Type := Effect (Except PortError α) AuthDb Lock

section Statements
variable (platform : Platform) (env : Env) (serial : Int) (snapshot current : AuthDb)

/-- The policy of `password_reset_tokens`: a row is reached through its user. -/
def sees (db : AuthDb) (scope : CompanyId) (user : UserId) : Bool := (db.users.find user).any (·.companyId = scope)

def recoveryContext (email : Text) : Option (UserId × Int) :=
  (snapshot.users.rows.find? fun u => u.email = normaliseEmail platform email && u.active).map fun u =>
    (u.id, (snapshot.users.select fun p => p.companyId = u.companyId && p.active).length)

/-- The unspent rows that a statement saw. -/
def listed (p : PasswordResetTokenRow → Bool) : List PasswordResetTokenRow :=
  snapshot.passwordResetTokens.select fun t => p t && t.usedAt.isNone

/-- Those among them that are still unspent once it has their locks. -/
def present (p : PasswordResetTokenRow → Bool) : List PasswordResetTokenRow :=
  ((listed snapshot p).filterMap fun t => current.passwordResetTokens.find t.id).filter fun t => p t && t.usedAt.isNone

def spend (ids : List Int) (db : AuthDb) : AuthDb :=
  { db with passwordResetTokens := spendResetTokens env db.passwordResetTokens fun t => t.id ∈ ids }

def spending {α : Type} (p : PasswordResetTokenRow → Bool) (answer : List Int → α) : Outcome α :=
  let ids := (present snapshot current p).map (·.id)
  { answer := .ok (answer ids)
    change := spend env ids
    awaits := (listed snapshot p).map fun t => .token t.id
    takes := ids.map .token
    drawn := 0 }

def store (row : PasswordResetTokenRow) (db : AuthDb) : AuthDb :=
  { db with passwordResetTokens := db.passwordResetTokens.put row }

def violation (user : UserId) (token : Text) : Option PortError :=
  firstViolation [
    (current.passwordResetTokens.rows.any fun t => t.token = token,
      .conflict (some "password_reset_tokens_token_unique")),
    ((current.users.find user).isNone, .conflict (some "password_reset_tokens_user_id_users_id_fk"))]

def insertCode (scope : CompanyId) (user : UserId) (token : Text) (expiresAt : Instant) : Outcome Unit :=
  if sees snapshot scope user then
    match violation current user token with
    | some e => ⟨.error e, fun db => db, [.secret token], [], 0⟩
    | none => ⟨.ok (), store ⟨serial, user, token, expiresAt, none⟩, [], [.secret token], 1⟩
  else .answers (.error (rowDenied "password_reset_tokens"))

/-- One statement spends and inserts, from one snapshot. -/
def storeResetToken (user : UserId) (token : Text) (expiresAt : Instant) : Outcome Unit :=
  let spends := spending env snapshot current (·.userId = user) fun _ => ()
  match violation current user token with
  | some e => ⟨.error e, fun db => db, .secret token :: spends.awaits, [], 0⟩
  | none =>
    { answer := .ok ()
      change := store ⟨serial, user, token, expiresAt, none⟩ ∘ spends.change
      awaits := spends.awaits
      takes := .secret token :: spends.takes
      drawn := 1 }

def setPassword (user : UserId) (passwordHash : Text) : Outcome Unit :=
  ⟨.ok (), fun db => { db with users := AuthStore.setPassword env db user passwordHash }, [], [.user user], 0⟩

def perform : (statement : Statement) → Outcome (Reply statement)
  | .findUser scope user => .answers (AccountPrograms.findUser snapshot scope user)
  | .spendOutstanding scope user =>
    spending env snapshot current (fun t => t.userId = user && sees snapshot scope t.userId) fun _ => ()
  | .insertCode scope user token expiresAt => insertCode serial snapshot current scope user token expiresAt
  | .recoveryContext email => .answers (.ok (recoveryContext platform snapshot email))
  | .storeResetToken user token expiresAt => storeResetToken env serial snapshot current user token expiresAt
  | .findResetToken raw hashed => .answers (.ok (AuthStore.findResetToken env snapshot raw hashed))
  | .claimToken tokenId =>
    spending env snapshot current (fun t => t.id = tokenId && t.expiresAt > env.now) fun ids => !ids.isEmpty
  | .setPassword user passwordHash => setPassword env user passwordHash
  | .spendOthers user => spending env snapshot current (·.userId = user) fun _ => ()

end Statements

/-- Any statement may meet a fault of the driver. -/
def execute (platform : Platform) (env : Env) (serial : Int) (statement : Statement) (snapshot current : AuthDb) :
    Effect (Answer statement) AuthDb Lock :=
  match env.fault with
  | some e => .answers (.error e)
  | none => perform platform env serial snapshot current statement

/- The use cases. -/

inductive Returned where
  | code (code : Text) (expiresAt : Instant) (user : UserId) (name : Text)
  | link (sent : Option (UserId × Text))
  | reset

abbrev Steps : Type := Program Statement Answer (Ending (Except AppError Returned))

def fail (e : AppError) : Steps := .done (.rollback (.error e))

/-- The error of a statement ends the transaction. -/
def orFail {α : Type} (next : α → Steps) : Except PortError α → Steps
  | .error e => fail (.port e)
  | .ok reply => next reply

section UseCases
variable (platform : Platform)

def issuing (scope : CompanyId) (user : UserId) (token : Text) (expiresAt : Instant) (returned : Returned) : Steps :=
  .stmt (.spendOutstanding scope user) (orFail fun _ =>
    .stmt (.insertCode scope user token expiresAt) (orFail fun _ => .done (.commit (.ok returned))))

def issueRecoveryCode (scope : CompanyId) (id : UserId) (bytes : List UInt8) (now : Instant) : Steps :=
  .stmt (.findUser scope id) (orFail fun
    | none => fail (.domain (.notFound "User"))
    | some user =>
      if user.active = false then
        fail (.domain (.invalid "id" "Activate this user before issuing a recovery code"))
      else
        let code := RecoveryCodes.recoveryCodeFrom bytes
        let expiresAt := now + minutes RecoveryCodes.recoveryCodeTtlMinutes
        issuing scope id (hashRecoveryCode platform code) expiresAt (.code code expiresAt user.id user.name))

def storing (user : UserId) (token : Text) (expiresAt : Instant) (returned : Returned) : Steps :=
  .stmt (.storeResetToken user token expiresAt) (orFail fun _ => .done (.commit (.ok returned)))

def beginPasswordReset (email token : Text) (now : Instant) : Steps :=
  if trim email = [] then fail (.domain (.invalid "email" "Email is required"))
  else
    .stmt (.recoveryContext email) (orFail fun
      | none => .done (.commit (.ok (.link none)))
      | some (user, activeUsers) =>
        if mayResetByEmail activeUsers then
          storing user token (now + minutes resetLinkTtlMinutes) (.link (some (user, token)))
        else .done (.commit (.ok (.link none))))

def claiming (tokenId : Int) (user : UserId) (hash : Text) (invalid : AppError) : Steps :=
  .stmt (.claimToken tokenId) (orFail fun
    | false => .done (.commit (.error invalid))
    | true =>
      .stmt (.setPassword user hash) (orFail fun _ =>
        .stmt (.spendOthers user) (orFail fun _ => .done (.commit (.ok .reset)))))

def resetPassword (submitted password salt : Text) : Steps :=
  match validateReset submitted password with
  | .error e => fail (.domain e)
  | .ok _ =>
    let candidates := ResetCandidates.of platform submitted
    let invalid : AppError := .domain (.invalid "token" invalidTokenMessage)
    .stmt (.findResetToken candidates.raw (candidates.hashed platform)) (orFail fun
      | none => fail invalid
      | some found =>
        match platform.argon2Hash salt password with
        | .error detail => fail (.internal detail)
        | .ok hash => claiming found.id found.userId hash invalid)

end UseCases

/-- The call, with what it draws and what its clock shows. -/
inductive Request where
  | issueRecoveryCode (scope : CompanyId) (id : UserId) (bytes : List UInt8) (now : Instant)
  | beginPasswordReset (email token : Text) (now : Instant)
  | resetPassword (submitted password salt : Text)

def program (platform : Platform) : Request → Steps
  | .issueRecoveryCode scope id bytes now => issueRecoveryCode platform scope id bytes now
  | .beginPasswordReset email token now => beginPasswordReset email token now
  | .resetPassword submitted password salt => resetPassword platform submitted password salt

abbrev Running : Type := Transaction Statement Answer (Except AppError Returned) Request AuthDb Lock

abbrev Runs : Type := Config Statement Answer (Except AppError Returned) Request AuthDb Lock

/-- Calls for any accounts, under a condition on the store they start from and on their steps. -/
def recoveries (platform : Platform) (starts : AuthDb → Prop) (permits : Runs → Label Request Env → Bool) :
    Database Statement Answer (Except AppError Returned) Request Env AuthDb Lock where
  program := program platform
  execute := execute platform
  conflicts a b := a = b
  initial db serial := starts db ∧ ∀ t ∈ db.passwordResetTokens.rows, t.id < serial
  permits := permits

end RecoveryPrograms
