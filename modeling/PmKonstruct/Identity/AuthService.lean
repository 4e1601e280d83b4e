import PmKonstruct.Identity.AuthStore

/- The authentication use cases as programs over the statements of the store: login, token rotation, logout,
   password reset and session resolution, each in the order in which it awaits its statements. -/
namespace AuthService
open PlainText DomainErrors Accounts AuthStore StatementProgram

abbrev Action (α : Type) : Type := Program Statement Answer (Except AppError α)

def fail {α : Type} (error : AppError) : Action α := .done (.error error)

/-- Awaits a statement and passes a driver error on. -/
def call {α : Type} (statement : Statement) (next : Reply statement → Action α) : Action α :=
  await .port statement next

structure LoginOutcome where
  accessToken : Text
  accessClaims : AccessClaims
  refreshToken : Text
  user : User
  deriving DecidableEq, Repr

structure SessionUser where
  user : User
  principal : AuthenticatedPrincipal
  permissions : List Permission
  entitlement : Entitlement
  deriving DecidableEq, Repr

section Service
variable (platform : Platform)

def issueInFamily (user : User) (familyId : Uuid) : Action LoginOutcome :=
  call .utcNow fun now =>
    match issueAccess platform user now with
    | .error e => fail e
    | .ok (accessToken, accessClaims) =>
      call .randomToken fun value =>
        call (.insert user.id (hashRefresh platform value) familyId (now + platform.refreshTtl)) fun _ =>
          .done (.ok ⟨accessToken, accessClaims, value, user⟩)

def issueSession (user : User) : Action LoginOutcome :=
  call .randomUuid fun familyId => issueInFamily platform user familyId

def login (email passwordInput : Text) : Action LoginOutcome :=
  call (.findCredentialByEmail email) fun
  | none => call .randomSalt fun _ => fail .invalidCredentials
  | some cred =>
    if cred.user.active = false then fail .invalidCredentials
    else
      match cred.passwordHash with
      | none => fail .invalidCredentials
      | some stored =>
        let verdict := verify platform passwordInput stored
        if verdict.matched = false then fail .invalidCredentials
        else if verdict.needsRehash then
          call .randomSalt fun salt =>
            match platform.argon2Hash salt passwordInput with
            | .error _ => issueSession platform cred.user
            -- A failed rehash is logged and the login goes on.
            | .ok newHash => .stmt (.replacePasswordHash cred.user.id newHash) fun _ => issueSession platform cred.user
        else issueSession platform cred.user

def refresh (presented : Text) : Action LoginOutcome :=
  call (.findByHash (hashRefresh platform presented)) fun
  | none => fail .invalidToken
  | some record =>
    if record.revokedAt.isSome then fail .invalidToken
    else if record.usedAt.isSome then
      call (.revokeFamily record.familyId) fun _ => fail .invalidToken
    else
      call .utcNow fun now =>
        if record.expiresAt ≤ now then fail .invalidToken
        else
          call (.findByIdUnscoped record.userId) fun
          | none => fail .invalidToken
          | some user =>
            if user.active = false then
              call (.revokeAllForUser user.id) fun _ => fail .invalidToken
            else
              -- Nothing is read back from the conditional update.
              call (.markUsed record.id) fun _ => issueInFamily platform user record.familyId

def logout (presented : Text) : Action Unit :=
  call (.findByHash (hashRefresh platform presented)) fun
  | none => .done (.ok ())
  | some record => call (.revokeFamily record.familyId) fun _ => .done (.ok ())

def resetPassword (submitted password : Text) : Action Unit :=
  match validateReset submitted password with
  | .error e => fail (.domain e)
  | .ok _ =>
    let candidates := ResetCandidates.of platform submitted
    let invalid : AppError := .domain (.invalid "token" invalidTokenMessage)
    call (.findResetToken candidates.raw (candidates.hashed platform)) fun
    | none => fail invalid
    | some found =>
      call .randomSalt fun salt =>
        match platform.argon2Hash salt password with
        | .error detail => fail (.internal detail)
        | .ok hash =>
          call (.claimResetAndSetPassword found.id found.userId hash) fun
          | true => call (.revokeAllForUser found.userId) fun _ => .done (.ok ())
          | false => fail invalid

def resolveSession (bearer : Text) : Action SessionUser :=
  call .utcNow fun now =>
    match platform.decodeAccess now bearer with
    | none => fail .invalidToken
    | some claims =>
      match claims.userId with
      | .error e => fail e
      | .ok userId =>
        call (.findByIdUnscoped userId) fun
        | none => fail .invalidToken
        | some user =>
          if user.active = false then fail .invalidToken
          else if user.passwordChangedAt.map timestampMillis ≠ claims.passwordChangedAtMs then fail .invalidToken
          else
            call (.permissionsFor user.principal.companyId user.id) fun permissions =>
              call (.entitlement user.companyId) fun entitlement =>
                .done (.ok ⟨user, user.principal, permissions, entitlement⟩)

end Service

/- The calls that clients may have in flight together. -/

inductive Request where
  | login (email passwordInput : Text)
  | refresh (presented : Text)
  | logout (presented : Text)
  | resetPassword (submitted password : Text)
  deriving DecidableEq

/-- What a call hands back: a session, or nothing. -/
abbrev Outcome := Except AppError (Option LoginOutcome)

def programOf (platform : Platform) : Request → Program Statement Answer Outcome
  | .login email passwordInput => (login platform email passwordInput).mapResult (·.map some)
  | .refresh presented => (refresh platform presented).mapResult (·.map some)
  | .logout presented => (logout platform presented).mapResult (·.map fun _ => none)
  | .resetPassword submitted password => (resetPassword platform submitted password).mapResult (·.map fun _ => none)

/-- The service under a condition on the statements that run. -/
def authService (platform : Platform) (initial : AuthDb → Prop) (admits : Env → Statement → AuthDb → Bool) :
    Service Statement Answer Outcome Request Env AuthDb where
  program := programOf platform
  execute := execute platform
  initial := initial
  admits := admits

abbrev AuthConfig := Config Statement Answer Outcome Request AuthDb

def Returned (config : AuthConfig) (i : Nat) (request : Request) (outcome : Outcome) : Prop :=
  ∃ call, config.calls[i]? = some call ∧ call.request = request ∧ call.running = .done outcome

section Obeying
variable {atStatement : List (Event Statement Answer) → Statement → Prop}
    {past : List (Event Statement Answer)} {α : Type} {atEnd : List (Event Statement Answer) → Except AppError α → Prop}

theorem obeys_call {statement : Statement} {next : Reply statement → Action α} :
    (call statement next).Obeys atStatement atEnd past ↔ atStatement past statement ∧
      (∀ e, atEnd (past ++ [⟨statement, .error e⟩]) (.error (.port e))) ∧
      ∀ reply, (next reply).Obeys atStatement atEnd (past ++ [⟨statement, .ok reply⟩]) := by
  constructor
  · rintro ⟨here, later⟩
    exact ⟨here, fun e => later (.error e), fun reply => later (.ok reply)⟩
  · rintro ⟨here, failed, later⟩
    refine ⟨here, ?_⟩
    rintro (e | reply)
    · exact failed e
    · exact later reply

end Obeying

/- A small deployment to run the service on: hashes are the hashed text itself. -/

def samplePlatform : Platform where
  lowercase t := t
  uppercase c := [c]
  sqlLower t := t
  sha256Hex t := t
  argon2Hash salt password := .ok (text "$argon2id$" ++ salt ++ password)
  argon2Verify password stored := decide (stored = text "$argon2id$" ++ password)
  bcryptVerify password stored := decide (stored = text "$2b$" ++ password)
  encodeAccess claims := .ok claims.sub
  decodeAccess _ _ := none
  uuid n := n
  accessTtl := 900000000
  refreshTtl := 2592000000000

def sampleUser : UserRow :=
  ⟨1, 1, text "Sarah", text "sarah@example.com", text "MANAGER", none, true, some (text "$argon2id$secret"), none, by decide⟩

/-- One account with one outstanding refresh token, in family 0. -/
def sampleDb : AuthDb where
  users := ⟨[sampleUser], 2, by decide, by decide⟩
  companies := .empty
  userPermissions := .empty
  passwordResetTokens := .empty
  refreshTokens := ⟨[⟨1, 1, text "first", 0, 0, 2592000000000, none, none⟩], 2, by decide, by decide⟩
  familiesDrawn := 1

def sampleEnv (now : Instant) (token : Text) : Env := ⟨now, [], token, none⟩

end AuthService
