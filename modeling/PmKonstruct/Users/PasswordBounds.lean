import PmKonstruct.Users.Registration
import PmKonstruct.Users.SessionEndings

/- How long the password is whose hash a call stores. One validator serves the calls that create an account and the one
   that changes it, and what it says of an empty password is meant for the latter. -/
namespace PasswordBounds
open PlainText DomainErrors Accounts KeyedTable StatementProgram AccountPrograms
open AuthStore (AuthDb Env UserRow)
open AuthService (SessionUser LoginOutcome)
open Registration (CompanyRegistration RegistrationDb)

def InBounds (password : Text) : Prop := minPasswordLen ≤ password.length ∧ password.length ≤ maxPasswordLen

/-- What is stored is a hash of the password that was given. -/
def HashOf (platform : Platform) (input : UserInput) (password : Text) (stored : Option Text) : Prop :=
  input.password = some password ∧ ∃ salt hash, platform.argon2Hash salt password = .ok hash ∧ stored = some hash

theorem validatePassword_ok {password : Text} (valid : validatePassword password = .ok ()) : InBounds password := by
  rw [validatePassword] at valid
  split at valid
  · cases valid
  · split at valid
    · cases valid
    · constructor <;> omega

theorem validate_bounds {input : UserInput} {creating : Bool} {password : Text} (valid : input.validate creating = .ok ())
    (given : input.password = some password) : InBounds password ↔ password ≠ [] := by
  constructor
  · rintro ⟨long, -⟩ rfl
    exact absurd long (by decide)
  · intro nonempty
    rw [UserInput.validate, given] at valid
    split at valid
    · cases valid
    · split at valid
      · cases valid
      · split at valid
        · cases valid
        · dsimp only at valid
          rw [if_neg nonempty] at valid
          exact validatePassword_ok valid

section Accounts
variable {platform : Platform} {db : AuthDb} {α : Type} {s : SessionUser} {id : UserId} {input : UserInput}
    {Holds : α → AuthDb → Prop}

theorem get_ensures {next : User → Action α}
    (later : ∀ user, (next user).Ensures (execute platform) (OnSuccess Holds) db) :
    (get s id next).Ensures (execute platform) (OnSuccess Holds) db := by
  refine await_ensures fun env found _ => ?_
  cases found with
  | none => exact failed_ensures
  | some user => exact later user

theorem auth_read {env : Env} {statement : AuthStore.Statement}
    (still : (AuthStore.perform platform env statement db).2 = db) :
    (perform platform env (.auth statement) db).2 = db := faulting_keeps (· = db) rfl still

theorem withSeat_ensures {activating : Bool} {next : Action User} {Holds : User → AuthDb → Prop}
    (later : next.Ensures (execute platform) (OnSuccess Holds) db) :
    (withSeat s activating next).Ensures (execute platform) (OnSuccess Holds) db := by
  refine await_ensures fun env entitlement _ => ?_
  rw [auth_read rfl]
  refine await_ensures fun env inUse _ => ?_
  dsimp only
  split
  · exact failed_ensures
  · exact later

theorem seated_ensures {activating needed : Bool} {next : Action User} {Holds : User → AuthDb → Prop}
    (later : next.Ensures (execute platform) (OnSuccess Holds) db) :
    (if needed then withSeat s activating next else next).Ensures (execute platform) (OnSuccess Holds) db := by
  split
  · exact withSeat_ensures later
  · exact later

theorem hashing_ensures {password : Text} {next : Text → Action User} {Holds : User → AuthDb → Prop}
    (later : ∀ salt hash, platform.argon2Hash salt password = .ok hash →
      (next hash).Ensures (execute platform) (OnSuccess Holds) db) :
    (hashing platform password next).Ensures (execute platform) (OnSuccess Holds) db := by
  refine await_ensures fun env salt _ => ?_
  rw [auth_read rfl]
  split
  · exact failed_ensures
  · next hash hashed => exact later salt hash hashed

/- What the two writes leave. -/

theorem createUser_hash {scope : CompanyId} {hash : Text} {user : User}
    (created : (createUser platform db scope input hash).1 = .ok user) :
    ∃ row, (createUser platform db scope input hash).2.users.find user.id = some row ∧ row.passwordHash = some hash := by
  rw [createUser] at created ⊢
  split at created
  · next inRange =>
    rw [dif_pos inRange]
    dsimp only at created ⊢
    split at created
    · cases created
    · next free =>
      rw [if_neg free]
      split at created
      · cases created
      · next present =>
        rw [if_neg present]
        obtain ⟨role, -, rfl⟩ := UserRow.intoDomain_iff.mp created
        exact ⟨_, Table.find_put_self rfl, rfl⟩
  · cases created

theorem updateUser_hash {env : Env} {scope : CompanyId} {hash : Option Text} {user : User}
    (updated : (updateUser platform env db scope id input hash).1 = .ok (some user)) :
    ∃ old row, db.users.find id = some old ∧
      (updateUser platform env db scope id input hash).2.users.find id = some row ∧
      row.passwordHash = (hash <|> old.passwordHash) := by
  rw [updateUser] at updated ⊢
  split at updated
  · cases updated
  · next old reached =>
    obtain ⟨found, visible⟩ := Table.reach_eq_some_iff.mp reached
    split at updated
    · cases updated
    · next free =>
      rw [if_neg free]
      have same : old.id = id := (Table.find_eq_some_iff.mp found).2
      have stays (row : UserRow) : Keyed.key (changedUser platform env input hash row) = Keyed.key row := rfl
      have written : (db.users.update (fun u => u.id = id && u.companyId = scope) (changedUser platform env input hash)
          stays).find id = some (changedUser platform env input hash old) := by
        rw [Table.find_update, found, Option.map_some, if_pos]
        simp only [same, decide_true, Bool.true_and]
        exact visible
      exact ⟨old, _, found, written, rfl⟩

end Accounts

/-- The hash of the account that a call has created is one of a password of which this holds. -/
def Stores (platform : Platform) (input : UserInput) (id : UserId) (after : AuthDb) (Holds : Text → Prop) : Prop :=
  ∃ password row, after.users.find id = some row ∧ HashOf platform input password row.passwordHash ∧ Holds password

section Calls
variable {platform : Platform} {db : AuthDb} {s : SessionUser} {id : UserId} {input : UserInput}

theorem create_ensures : (create platform s input).Ensures (execute platform)
    (OnSuccess fun (user : User) after => Stores platform input user.id after fun password =>
      InBounds password ↔ password ≠ []) db := by
  unfold create
  split
  · exact failed_ensures
  · next valid =>
    refine seated_ensures ?_
    split
    · exact failed_ensures
    · next password given =>
      refine hashing_ensures fun salt hash hashed => await_ensures fun env user created => ?_
      rintro value done
      cases done
      obtain ⟨row, found, stored⟩ := createUser_hash created
      exact ⟨password, row, found, ⟨given, salt, hash, hashed, stored⟩, validate_bounds valid given⟩

/-- The hash is the old one, or that of a password within the bounds. -/
def KeepsOrStores (platform : Platform) (input : UserInput) (id : UserId) (before after : AuthDb) : Prop :=
  ∃ old row, before.users.find id = some old ∧ after.users.find id = some row ∧
    (row.passwordHash = old.passwordHash ∨ ∃ password, HashOf platform input password row.passwordHash ∧ InBounds password)

theorem write_ensures {hash : Option Text} (bounded : ∀ h, hash = some h → ∃ password, InBounds password ∧
      input.password = some password ∧ ∃ salt, platform.argon2Hash salt password = .ok h) :
    (write s id input hash).Ensures (execute platform)
      (OnSuccess fun _ after => KeepsOrStores platform input id db after) db := by
  refine await_ensures fun env found updated => ?_
  cases found with
  | none => exact failed_ensures
  | some user =>
    rintro value done
    obtain ⟨old, row, before, after, stored⟩ := updateUser_hash updated
    refine ⟨old, row, before, after, ?_⟩
    cases hash with
    | none => exact .inl stored
    | some h =>
      obtain ⟨password, within, given, salt, hashed⟩ := bounded h rfl
      exact .inr ⟨password, ⟨given, salt, h, hashed, stored⟩, within⟩

theorem update_ensures : (update platform s id input).Ensures (execute platform)
    (OnSuccess fun _ after => KeepsOrStores platform input id db after) db := by
  unfold update
  split
  · exact failed_ensures
  · next valid =>
    refine get_ensures fun existing => ?_
    split
    · exact failed_ensures
    · refine seated_ensures ?_
      split
      · exact write_ensures fun h none => by cases none
      · next password given =>
        split
        · exact write_ensures fun h none => by cases none
        · next nonempty =>
          refine hashing_ensures fun salt hash hashed => write_ensures fun h same => ?_
          cases same
          exact ⟨password, (validate_bounds valid given).mpr nonempty, given, salt, hashed⟩

end Calls

/- Signing up. -/

section SigningUp
variable {platform : Platform} {auth : AuthDb} {db : RegistrationDb} {input : CompanyRegistration}

theorem insertRefreshToken_users {env : Env} {user : UserId} {hash : Text} {family : Uuid} {expires : Instant} :
    (AuthStore.insertRefreshToken env auth user hash family expires).2.users = auth.users := by
  rw [AuthStore.insertRefreshToken]
  split
  · rfl
  · split
    · rfl
    · split <;> rfl

/-- A session is begun for the account it is begun for, and no account changes. -/
theorem issueSession_ensures {user : User} {users : Table UserRow} (before : auth.users = users) :
    (AuthService.issueSession platform user).Ensures (AuthStore.execute platform)
      (OnSuccess fun (outcome : LoginOutcome) after => outcome.user = user ∧ after.users = users) auth := by
  refine await_ensures fun env family _ => await_ensures fun clock now _ => ?_
  split
  · exact failed_ensures
  · refine await_ensures fun tokens token _ => await_ensures fun last _ _ => ?_
    rintro value done
    cases done
    exact ⟨rfl, insertRefreshToken_users.trans before⟩

theorem authenticating_ensures {α : Type} {action : AuthService.Action α} {Ends : Except AppError α → RegistrationDb → Prop}
    (ensures : action.Ensures (AuthStore.execute platform) (fun result after => Ends result { db with auth := after })
      db.auth) : (Registration.authenticating action).Ensures (Registration.execute platform) Ends db := by
  induction action generalizing db with
  | done result => exact ensures
  | stmt statement rest ih => exact fun env => ih _ (ensures env)

theorem authRegisterCompany_hash {env : Env} {hash : Text} {bootstrap : Bool} {company : Registration.RegisteredCompany}
    (registered : (Registration.authRegisterCompany platform env db input hash bootstrap).1 = .ok company) : ∃ row,
    (Registration.authRegisterCompany platform env db input hash bootstrap).2.auth.users.find company.manager.id = some row ∧
      row.passwordHash = some hash := by
  rw [Registration.authRegisterCompany] at registered ⊢
  dsimp only at registered ⊢
  split at registered
  · cases registered
  · next open_ =>
    rw [if_neg open_]
    split at registered
    · cases registered
    · next unknown =>
      rw [if_neg unknown]
      split at registered
      · cases registered
      · next unnamed =>
        rw [if_neg unnamed]
        split at registered
        · cases registered
        · next room =>
          rw [if_neg room]
          split at registered
          · next inRange =>
            rw [dif_pos inRange]
            cases registered
            exact ⟨_, Table.find_put_self rfl, rfl⟩
          · cases registered

theorem execute_salt (env : Env) : Registration.execute platform env (.auth .randomSalt) db = (.ok env.salt, db) := by
  have drawn : AuthStore.execute platform env .randomSalt db.auth = (.ok env.salt, db.auth) := by
    rw [AuthStore.execute, faulting]
    split <;> rfl
  rw [Registration.execute, drawn]

/-- A refusal of the database ends the call. -/
theorem refused_ensures {e : PortError} {Holds : LoginOutcome → RegistrationDb → Prop} :
    (Registration.registered platform (.error e)).Ensures (Registration.execute platform) (OnSuccess Holds) db := by
  cases e <;> (intro value done; cases done)

theorem registered_ensures {hash password : Text} {bootstrap : Bool} (valid : input.manager.validate true = .ok ())
    (given : input.manager.password = some password) {salt : Text} (hashed : platform.argon2Hash salt password = .ok hash) :
    (Program.stmt (Registration.Statement.registerCompany input hash bootstrap)
      (Registration.registered platform)).Ensures (Registration.execute platform)
      (OnSuccess fun (outcome : LoginOutcome) after => Stores platform input.manager outcome.user.id after.auth
        fun password => InBounds password ↔ password ≠ []) db := by
  intro env
  rw [Registration.execute]
  split
  · cases answer : (Registration.authRegisterCompany platform env db input hash bootstrap).1 with
    | error e => exact refused_ensures
    | ok company =>
      obtain ⟨row, found, stored⟩ := authRegisterCompany_hash answer
      refine authenticating_ensures ((issueSession_ensures rfl).imp fun result after ends => ?_)
      intro outcome done
      obtain ⟨manager, users⟩ := ends outcome done
      refine ⟨password, row, ?_, ⟨given, salt, hash, hashed, stored⟩, validate_bounds valid given⟩
      rw [manager, users]
      exact found
  · exact refused_ensures

theorem register_ensures {bootstrap : Bool} : (Registration.register platform input bootstrap).Ensures
    (Registration.execute platform) (OnSuccess fun (outcome : LoginOutcome) after =>
      Stores platform input.manager outcome.user.id after.auth fun password => InBounds password ↔ password ≠ []) db := by
  have fails {error : AppError} : (Registration.fail error : Registration.Action LoginOutcome).Ensures
      (Registration.execute platform) (OnSuccess fun (outcome : LoginOutcome) after =>
        Stores platform input.manager outcome.user.id after.auth fun password => InBounds password ↔ password ≠ []) db :=
    fun value done => by cases done
  unfold Registration.register
  split
  · exact fails
  · split
    · exact fails
    · next valid =>
      split
      · exact fails
      · next password given =>
        intro env
        rw [execute_salt]
        dsimp only
        split
        · exact fails
        · next hash hashed => exact registered_ensures valid given hashed

end SigningUp

/-- Which password is hashed is known from the input, so a stored hash is of one within the bounds when that one is. -/
theorem stores_iff {platform : Platform} {input : UserInput} {id : UserId} {after : AuthDb}
    (stores : Stores platform input id after fun password => InBounds password ↔ password ≠ []) :
    Stores platform input id after InBounds ↔ input.password ≠ some [] := by
  obtain ⟨password, row, found, hashed, bounds⟩ := stores
  constructor
  · rintro ⟨other, -, -, ⟨given, -⟩, within⟩ empty
    rw [given] at empty
    cases empty
    exact absurd within.1 (by decide)
  · intro nonempty
    exact ⟨password, row, found, hashed, bounds.mpr fun empty => nonempty (by rw [hashed.1, empty])⟩

theorem completeSetup_ensures {platform : Platform} {secret key : Text} {input : CompanyRegistration} {db : RegistrationDb} :
    (Registration.completeSetup platform secret key input).Ensures (Registration.execute platform)
      (OnSuccess fun (outcome : LoginOutcome) after => Stores platform input.manager outcome.user.id after.auth
        fun password => InBounds password ↔ password ≠ []) db := by
  unfold Registration.completeSetup
  split
  · intro value done
    cases done
  · split
    · intro value done
      cases done
    · exact register_ensures

section Runs
variable (platform : Platform) (envs : Nat → Env)

/-- A call that creates an account stores the hash of a password within the bounds, unless the password was empty; a call
    that changes one does so always, or leaves the hash alone. -/
theorem password_bounds :
    (∀ db s input user after, (create platform s input).runFrom (execute platform) envs 0 db = (.ok user, after) →
      (Stores platform input user.id after InBounds ↔ input.password ≠ some [])) ∧
    (∀ db input outcome after, (Registration.registerCompany platform input).runFrom (Registration.execute platform) envs 0
        db = (.ok outcome, after) →
      (Stores platform input.manager outcome.user.id after.auth InBounds ↔ input.manager.password ≠ some [])) ∧
    (∀ db secret key input outcome after, (Registration.completeSetup platform secret key input).runFrom
        (Registration.execute platform) envs 0 db = (.ok outcome, after) →
      (Stores platform input.manager outcome.user.id after.auth InBounds ↔ input.manager.password ≠ some [])) ∧
    ∀ db s id input user after, (update platform s id input).runFrom (execute platform) envs 0 db = (.ok user, after) →
      KeepsOrStores platform input id db after := by
  refine ⟨?_, ?_, ?_, ?_⟩
  · intro db s input user after run
    have stores := create_ensures.succeeded run
    exact stores_iff stores
  · intro db input outcome after run
    have stores := register_ensures.succeeded run
    exact stores_iff stores
  · intro db secret key input outcome after run
    have stores := completeSetup_ensures.succeeded run
    exact stores_iff stores
  · intro db s id input user after run
    have kept := update_ensures.succeeded run
    exact kept

end Runs

/- A manager takes somebody on with an empty password, and a company signs up with one. -/

def owner : SessionUser where
  user := ⟨1, 1, text "Sarah", text "sarah@example.com", .manager, none, true, none⟩
  principal := ⟨1, 1, .manager⟩
  permissions := []
  entitlement := ⟨true, true, true, none⟩

def oneCompany : AuthDb :=
  { AuthService.sampleDb with companies := ⟨[⟨1, true, none, none, none⟩], 2, by decide, by decide⟩ }

def blankPassword : UserInput := ⟨text "Tom", text "tom@example.com", .office, none, true, some []⟩

def longPassword : UserInput := { blankPassword with password := some (text "correct horse") }

def moments : Nat → Env := fun _ => ⟨0, text "salt", text "token", none⟩

def noCompany : RegistrationDb := ⟨oneCompany, .empty⟩

theorem empty_password_stored :
    (∃ user after, (create AuthService.samplePlatform owner blankPassword).runFrom (execute AuthService.samplePlatform)
        moments 0 oneCompany = (.ok user, after) ∧ ¬ Stores AuthService.samplePlatform blankPassword user.id after InBounds) ∧
    ∃ outcome after, (Registration.registerCompany AuthService.samplePlatform ⟨text "Acme", blankPassword⟩).runFrom
        (Registration.execute AuthService.samplePlatform) moments 0 noCompany = (.ok outcome, after) ∧
      ¬ Stores AuthService.samplePlatform blankPassword outcome.user.id after.auth InBounds := by
  have short {id : UserId} {after : AuthDb} : ¬ Stores AuthService.samplePlatform blankPassword id after InBounds := by
    rintro ⟨password, -, -, ⟨given, -⟩, within⟩
    cases given
    exact absurd within.1 (by decide)
  exact ⟨⟨_, _, rfl, short⟩, _, _, rfl, short⟩

theorem long_password_stored : ∃ user after, (create AuthService.samplePlatform owner longPassword).runFrom
      (execute AuthService.samplePlatform) moments 0 oneCompany = (.ok user, after) ∧
    Stores AuthService.samplePlatform longPassword user.id after InBounds := by
  have run : ∃ user after, (create AuthService.samplePlatform owner longPassword).runFrom
      (execute AuthService.samplePlatform) moments 0 oneCompany = (.ok user, after) := ⟨_, _, rfl⟩
  obtain ⟨user, after, ran⟩ := run
  exact ⟨user, after, ran, ((password_bounds AuthService.samplePlatform moments).1 _ _ _ _ _ ran).mpr (by decide)⟩

end PasswordBounds
