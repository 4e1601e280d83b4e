import PmKonstruct.Domain.Errors
import PmKonstruct.Library.DecimalText

/- Accounts and credentials: roles, the authenticated user, password hashes and access tokens. What lives in
   third-party crates and in the collation of the database is a parameter, the platform. -/
namespace Accounts
open PlainText DecimalText DomainErrors

/-- Microseconds since the epoch. -/
abbrev Instant := Int

abbrev Uuid := Nat

def timestampMillis (t : Instant) : Int := t / 1000

def timestamp (t : Instant) : Int := t / 1000000

inductive Role where
  | manager
  | supervisor
  | office
  deriving DecidableEq, Repr

def Role.parse (s : Text) : Option Role :=
  if s = text "MANAGER" then some .manager
  else if s = text "SUPERVISOR" then some .supervisor
  else if s = text "OFFICE" then some .office
  else none

def Role.asStr : Role → Text
  | .manager => text "MANAGER"
  | .supervisor => text "SUPERVISOR"
  | .office => text "OFFICE"

def Role.seesAllCompanyJobs : Role → Bool
  | .manager => true
  | .supervisor => false
  | .office => true

/-- Managers hold every permission by construction. -/
def Role.bypassesPermissionChecks : Role → Bool
  | .manager => true
  | .supervisor => false
  | .office => false

theorem role_parse_asStr (role : Role) : Role.parse role.asStr = some role := by
  cases role <;> decide

structure User where
  id : UserId
  companyId : CompanyId
  name : Text
  email : Text
  role : Role
  phone : Option Text
  active : Bool
  passwordChangedAt : Option Instant
  deriving DecidableEq, Repr

structure AuthenticatedPrincipal where
  userId : UserId
  companyId : CompanyId
  role : Role
  deriving DecidableEq, Repr

def User.principal (user : User) : AuthenticatedPrincipal := ⟨user.id, user.companyId, user.role⟩

structure AccessClaims where
  sub : Text
  companyId : CompanyId
  role : Text
  email : Text
  name : Text
  passwordChangedAtMs : Option Int
  iat : Int
  exp : Int
  deriving DecidableEq, Repr

def AccessClaims.userId (claims : AccessClaims) : Except AppError UserId :=
  match parseI32 claims.sub with
  | none => .error .invalidToken
  | some id => .ok id

/-- The hashing and token crates, the identifiers that the UUID crate draws one after another, and the case mappings of
    the two runtimes. -/
structure Platform where
  lowercase : Text → Text
  uppercase : Char → Text
  sqlLower : Text → Text
  sha256Hex : Text → Text
  argon2Hash : (salt password : Text) → Except String Text
  argon2Verify : (password stored : Text) → Bool
  bcryptVerify : (password stored : Text) → Bool
  encodeAccess : AccessClaims → Except String Text
  decodeAccess : Instant → Text → Option AccessClaims
  uuid : Nat → Uuid
  accessTtl : Int
  refreshTtl : Int

inductive HashKind where
  | argon2id
  | bcrypt
  | unknown
  deriving DecidableEq, Repr

def HashKind.detect (hash : Text) : HashKind :=
  if (text "$argon2id$").isPrefixOf hash || (text "$argon2i$").isPrefixOf hash then .argon2id
  else if (text "$2a$").isPrefixOf hash || (text "$2b$").isPrefixOf hash || (text "$2y$").isPrefixOf hash then .bcrypt
  else .unknown

def looksLikeEmail (raw : Text) : Bool :=
  let s := trim raw
  if s.any isWhitespace then false
  else
    match splitOnce '@' s with
    | none => false
    | some (name, domain) =>
      name ≠ [] && domain.contains '.' && domain.head? ≠ some '.' && domain.getLast? ≠ some '.' &&
        !domain.contains '@'

structure Verification where
  matched : Bool
  needsRehash : Bool
  deriving DecidableEq, Repr

def minPasswordLen : Nat := 8

def maxPasswordLen : Nat := 200

def validatePassword (password : Text) : Except DomainError Unit :=
  if password.length < minPasswordLen then .error (.invalid "password" "must be at least 8 characters")
  else if password.length > maxPasswordLen then .error (.invalid "password" "must be 200 characters or fewer")
  else .ok ()

def recoveryCodeAlphabet : Text := text "23456789ABCDEFGHJKMNPQRSTUVWXYZ"

def invalidTokenMessage : String :=
  "This reset link or recovery code is invalid, expired, or has already been used. Ask your Manager for a new code."

def validateReset (token password : Text) : Except DomainError Unit :=
  if trim token = [] then .error (.invalid "token" "Reset token is required")
  else validatePassword password

structure ResetCandidates where
  raw : Text
  normalisedCode : Text
  deriving DecidableEq, Repr

section Crates
variable (platform : Platform)

def normaliseEmail (raw : Text) : Text := platform.lowercase (trim raw)

/-- The alphabet is compared with the low byte of each character. -/
def normaliseRecoveryCode (raw : Text) : Text :=
  (raw.flatMap platform.uppercase).filter fun c => recoveryCodeAlphabet.any fun a => a.toNat = c.toNat % 256

def ResetCandidates.of (submitted : Text) : ResetCandidates :=
  ⟨trim submitted, normaliseRecoveryCode platform submitted⟩

def hashRecoveryCode (code : Text) : Text := text "manager:" ++ platform.sha256Hex code

/-- What is looked up for a submission besides the submission itself; nothing when no usable character is left. -/
def ResetCandidates.hashed (candidates : ResetCandidates) : Text :=
  if candidates.normalisedCode = [] then [] else hashRecoveryCode platform candidates.normalisedCode

def hashRefresh (value : Text) : Text := platform.sha256Hex value

def verify (password stored : Text) : Verification :=
  match HashKind.detect stored with
  | .argon2id => ⟨platform.argon2Verify password stored, false⟩
  | .bcrypt =>
    let matched := platform.bcryptVerify password stored
    ⟨matched, matched⟩
  | .unknown => ⟨false, false⟩

def issueAccess (user : User) (now : Instant) : Except AppError (Text × AccessClaims) :=
  let claims : AccessClaims :=
    { sub := decimal user.id
      companyId := user.companyId
      role := user.role.asStr
      email := user.email
      name := user.name
      passwordChangedAtMs := user.passwordChangedAt.map timestampMillis
      iat := timestamp now
      exp := timestamp (now + platform.accessTtl) }
  match platform.encodeAccess claims with
  | .error detail => .error (.internal detail)
  | .ok token => .ok (token, claims)

end Crates
end Accounts
