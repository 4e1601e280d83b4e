import PmKonstruct.Users.AccountTraces
import PmKonstruct.Users.PasswordBounds

/- Companies sign up while every other call on the accounts goes on. What tells companies and accounts apart, where every
   account comes from, and who may set the installation up. -/
namespace Founding
open PlainText DecimalText DomainErrors Accounts AuthStore KeyedTable StatementProgram TransitionRuns
open Registration (CompanyRegistration RegisteredCompany RegistrationDb CompanyNameRow authRegisterCompany firstManager
  registeredOf constantTimeEq asBytes)
open AccountPrograms (UserInput newUser changedUser)
open AccountTraces (Manages Counted)

/- The statements and the calls. -/

inductive Statement where
  | accounts (statement : AccountPrograms.Statement)
  | registerCompany (input : CompanyRegistration) (passwordHash : Text) (bootstrap : Bool)

abbrev Reply : Statement → Type
  | .accounts statement => AccountPrograms.Reply statement
  | .registerCompany _ _ _ => RegisteredCompany

abbrev Answer (statement : Statement) : Type := Except PortError (Reply statement)

def execute (platform : Platform) : Executes Statement Answer Env RegistrationDb := fun env statement db =>
  match statement with
  | .accounts statement =>
    let (answer, after) := AccountPrograms.execute platform env statement db.auth
    (answer, { db with auth := after })
  | .registerCompany input hash bootstrap => Registration.execute platform env (.registerCompany input hash bootstrap) db

def ofAccounts : Embedding AccountPrograms.Statement AccountPrograms.Answer Statement Answer where
  into := .accounts
  answers _ := Equiv.refl _

def ofRegistration : Embedding Registration.Statement Registration.Answer Statement Answer where
  into
    | .auth statement => .accounts (.auth statement)
    | .registerCompany input hash bootstrap => .registerCompany input hash bootstrap
  answers
    | .auth _ => Equiv.refl _
    | .registerCompany _ _ _ => Equiv.refl _

inductive Request where
  | accounts (request : AccountPrograms.Request)
  | register (input : CompanyRegistration)
  | completeSetup (setupKey : Text) (input : CompanyRegistration)

abbrev Outcome : Type := AccountPrograms.Outcome

def signedUp (result : Except AppError AuthService.LoginOutcome) : Outcome :=
  result.map fun outcome => .session (some outcome)

variable (platform : Platform) (setupSecret : Text)

def programOf : Request → Program Statement Answer Outcome
  | .accounts request => (AccountPrograms.programOf platform request).among ofAccounts
  | .register input => ((Registration.registerCompany platform input).mapResult signedUp).among ofRegistration
  | .completeSetup setupKey input =>
    ((Registration.completeSetup platform setupSecret setupKey input).mapResult signedUp).among ofRegistration

/-- The service, in the runs whose statements all are admitted. -/
def signups (initial : RegistrationDb → Prop) (admits : Env → Statement → RegistrationDb → Bool) :
    Service Statement Answer Outcome Request Env RegistrationDb where
  program := programOf platform setupSecret
  execute := execute platform
  initial := initial
  admits := admits

/- What a registration does. -/

section Registered
variable {platform} {env : Env} {db : RegistrationDb} {input : CompanyRegistration} {hash : Text} {bootstrap : Bool}

/-- What the function of the database checks before it writes. -/
structure Admitted (platform : Platform) (db : RegistrationDb) (input : CompanyRegistration) (bootstrap : Bool) : Prop where
  first : bootstrap = true → db.auth.users.rows = []
  address : ∀ u ∈ db.auth.users.rows, u.email ≠ normaliseEmail platform input.manager.email
  name : ∀ c ∈ db.companyNames.rows, platform.sqlLower (btrim c.name) ≠ platform.sqlLower (btrim (trim input.companyName))

def founder (platform : Platform) (db : RegistrationDb) (input : CompanyRegistration) (hash : Text)
    (inRange : InI32 db.auth.users.serial) : UserRow :=
  firstManager platform input hash db.auth.companies.serial db.auth.users.serial inRange

def trialCompany (env : Env) (db : RegistrationDb) : CompanyRow :=
  ⟨db.auth.companies.serial, false, some (env.now + Registration.trialMicros), none, none⟩

/-- The installation with the new company and its manager. -/
def founded (platform : Platform) (env : Env) (db : RegistrationDb) (input : CompanyRegistration) (hash : Text)
    (inRange : InI32 db.auth.users.serial) : RegistrationDb where
  auth := { db.auth with
    companies := db.auth.companies.put (trialCompany env db)
    users := db.auth.users.put (founder platform db input hash inRange) }
  companyNames := db.companyNames.put ⟨db.auth.companies.serial, btrim (trim input.companyName)⟩

theorem registered_cases (platform : Platform) (env : Env) (db : RegistrationDb) (input : CompanyRegistration) (hash : Text)
    (bootstrap : Bool) :
    (∃ e, Registration.execute platform env (.registerCompany input hash bootstrap) db = (.error e, db)) ∨
    ∃ inRange, Admitted platform db input bootstrap ∧
      Registration.execute platform env (.registerCompany input hash bootstrap) db =
        (.ok (registeredOf (founder platform db input hash inRange)), founded platform env db input hash inRange) := by
  rw [Registration.execute]
  split
  · simp only [authRegisterCompany]
    split
    · exact .inl ⟨_, rfl⟩
    · next first =>
      split
      · exact .inl ⟨_, rfl⟩
      · next address =>
        split
        · exact .inl ⟨_, rfl⟩
        · next name =>
          split
          · exact .inl ⟨_, rfl⟩
          · split
            · next inRange =>
              refine .inr ⟨inRange, ⟨?_, ?_, ?_⟩, rfl⟩
              · simpa using first
              · simpa using address
              · simpa using name
            · exact .inl ⟨_, rfl⟩
  · exact .inl ⟨_, rfl⟩

end Registered

/- What tells companies and accounts apart. -/

theorem btrim_btrim (t : Text) : btrim (btrim t) = btrim t := by
  have front : (btrim t).dropWhile (· = ' ') = btrim t := by
    rw [List.dropWhile_eq_self_iff]
    intro nonempty
    obtain ⟨back, split⟩ := List.rdropWhile_prefix (fun c => decide (c = ' ')) (t.dropWhile fun c => decide (c = ' '))
    rw [← btrim] at split
    have longer : 0 < (t.dropWhile fun c => decide (c = ' ')).length := by
      rw [← split, List.length_append]
      omega
    have visible := List.dropWhile_get_zero_not (fun c => decide (c = ' ')) t longer
    simp only [← split, List.get_eq_getElem] at visible
    rwa [List.getElem_append_left nonempty] at visible
  rw [btrim, front, btrim, List.rdropWhile_idempotent]

structure Told (platform : Platform) (db : RegistrationDb) : Prop where
  names : db.companyNames.Unique fun c => platform.sqlLower (btrim c.name)
  addresses : db.auth.users.Unique (·.email)
  named : ∀ id, (db.companyNames.find id).isSome = (db.auth.companies.find id).isSome
  members : ∀ u ∈ db.auth.users.rows, (db.auth.companies.find u.companyId).isSome = true

section Told
variable {platform} {env : Env} {db : RegistrationDb}

theorem founded_told {input : CompanyRegistration} {hash : Text} {bootstrap : Bool}
    (inRange : InI32 db.auth.users.serial) (told : Told platform db) (admitted : Admitted platform db input bootstrap) :
    Told platform (founded platform env db input hash inRange) where
  names := by
    apply told.names.put
    intro c there
    rw [btrim_btrim]
    exact admitted.name c there
  addresses := told.addresses.put admitted.address
  named id := by
    simp only [founded, Table.isSome_find_put, told.named id]
    rfl
  members := by
    intro u member
    simp only [founded, Table.isSome_find_put]
    rcases Table.mem_put.mp member with ⟨old, -⟩ | rfl
    · rw [told.members u old, Bool.or_true]
    · rw [Bool.or_eq_true]
      exact .inl (decide_eq_true rfl)

variable {auth : AuthDb}

/-- Addresses and memberships, which the other calls on the accounts change too. -/
structure Members (auth : AuthDb) : Prop where
  addresses : auth.users.Unique (·.email)
  members : ∀ u ∈ auth.users.rows, (auth.companies.find u.companyId).isSome = true

theorem Members.create {scope : CompanyId} {input : UserInput} {hash : Text} (members : Members auth) :
    Members (AccountPrograms.createUser platform auth scope input hash).2 := by
  simp only [AccountPrograms.createUser]
  split
  · next inRange =>
    split
    · exact members
    · next free =>
      split
      · exact members
      · next known =>
        constructor
        · apply members.addresses.put
          intro u there same
          simp only [AccountPrograms.emailTaken, List.any_eq_true, not_exists, not_and] at free
          exact free u there (by simpa [newUser] using same)
        · intro u member
          rcases Table.mem_put.mp member with ⟨old, -⟩ | rfl
          · exact members.members u old
          · simpa [newUser, Option.isSome_iff_ne_none] using known
  · exact members

theorem Members.update {scope : CompanyId} {id : UserId} {input : UserInput} {hash : Option Text} (members : Members auth) :
    Members (AccountPrograms.updateUser platform env auth scope id input hash).2 := by
  simp only [AccountPrograms.updateUser]
  split
  · exact members
  · next row reached =>
    split
    · exact members
    · next free =>
      simp only [AccountPrograms.emailTaken, Bool.not_eq_true, List.any_eq_false, Bool.and_eq_true, decide_eq_true_eq,
        not_and, ne_eq, not_not] at free
      constructor
      · apply @Table.Unique.updateOne _ _ auth.users _ _ _ id (changedUser platform env input hash) (fun _ => rfl)
          members.addresses
        · intro u named
          simp only [Bool.and_eq_true, decide_eq_true_eq] at named
          exact named.1
        · intro a there other b _ _ same
          exact other (Option.some.inj (free a there same))
      · have kept : ∀ u ∈ (auth.users.update (fun u => u.id = id && u.companyId = scope)
            (changedUser platform env input hash) fun _ => rfl).rows,
            (auth.companies.find u.companyId).isSome = true := by
          intro u member
          obtain ⟨old, there, rfl⟩ := Table.mem_update.mp member
          split <;> exact members.members old there
        exact kept

theorem Members.delete {scope : CompanyId} {id : UserId} (members : Members auth) :
    Members (AccountPrograms.deleteUser auth scope id).2 := by
  simp only [AccountPrograms.deleteUser]
  split
  · exact members
  · exact ⟨members.addresses.delete, fun u member => members.members u (Table.mem_delete.mp member).1⟩

theorem Members.authenticate {statement : AuthStore.Statement} (members : Members auth) :
    Members (AuthStore.execute platform env statement auth).2 := by
  cases @AccountTraces.auth_changes platform env auth statement with
  | same users companies =>
    constructor
    · rw [users]
      exact members.addresses
    · rw [users, companies]
      exact members.members
  | password id hash users companies =>
    constructor
    · rw [users]
      exact members.addresses.update fun _ _ _ => rfl
    · rw [users, companies]
      intro u member
      obtain ⟨old, there, rfl⟩ := Table.mem_update.mp member
      split <;> exact members.members old there

theorem Members.execute {statement : AccountPrograms.Statement} (members : Members auth) :
    Members (AccountPrograms.execute platform env statement auth).2 := by
  have performed : Members (AccountPrograms.perform platform env statement auth).2 := by
    cases statement with
    | auth statement => exact members.authenticate
    | find scope id => exact members
    | activeCount scope => exact members
    | create scope input hash => exact members.create
    | update scope id input hash => exact members.update
    | delete scope id => exact members.delete
  exact faulting_keeps Members members performed

theorem execute_told {statement : Statement} (told : Told platform db) :
    Told platform (execute platform env statement db).2 := by
  cases statement with
  | accounts statement =>
    have members : Members db.auth := ⟨told.addresses, told.members⟩
    have after := @Members.execute platform env db.auth statement members
    have companies := (AccountTraces.execute_changes platform env statement db.auth).companies
    constructor
    · exact told.names
    · exact after.addresses
    · intro id
      rw [execute]
      simp only [companies]
      exact told.named id
    · exact after.members
  | registerCompany input hash bootstrap =>
    rw [execute]
    rcases registered_cases platform env db input hash bootstrap with ⟨e, refused⟩ | ⟨inRange, admitted, registered⟩
    · rw [refused]
      exact told
    · rw [registered]
      exact founded_told inRange told admitted

end Told

/-- No two companies share a name up to case and surrounding spaces, no two accounts an address, and every account is of a
    company that is there: whatever is signed up, set up, signed in and changed meanwhile, in whatever order. -/
theorem companies_told_apart {platform : Platform} {setupSecret : Text} {start : RegistrationDb} {admits}
    {config : Config Statement Answer Outcome Request RegistrationDb} (told : Told platform start)
    (reached : (signups platform setupSecret (· = start) admits).machine.Reachable config) : Told platform config.store := by
  obtain ⟨first, ⟨initial, -⟩, leads⟩ := reached
  apply store_kept (Told platform) leads
  · rw [show first.store = start from initial]
    exact told
  · intro env statement store told _
    exact execute_told told

/- The calls ask the database for no more than they were asked. -/

section Programs
variable {platform} {setupSecret}

abbrev Trace : Type := List (Event Statement Answer)

/-- What a call was asked and answered before each of its statements. -/
def Warranted (setupSecret : Text) (request : Request) (past : Trace) : Statement → Prop
  | .accounts statement => (∃ auth, statement = .auth auth) ∨ ∃ asked earlier, request = .accounts asked ∧
      past = earlier.map ofAccounts.event ∧ AccountTraces.Justified asked earlier statement
  | .registerCompany input _ bootstrap =>
    if bootstrap then request = .completeSetup setupSecret input ∧ setupSecret ≠ [] else request = .register input

theorem asBytes_inj {a b : Text} (same : asBytes a = asBytes b) : a = b := by
  have encoded : List.utf8Encode a = List.utf8Encode b := congrArg List.toByteArray same
  have decoded := congrArg ByteArray.utf8Decode? encoded
  simpa only [List.utf8Decode?_utf8Encode, Option.some.injEq, Array.mk.injEq] using decoded

theorem foldl_differences (pairs : List (UInt8 × UInt8)) (acc : UInt8) :
    pairs.foldl (fun acc (x, y) => acc ||| (x ^^^ y)) acc = 0 ↔ acc = 0 ∧ ∀ pair ∈ pairs, pair.1 = pair.2 := by
  induction pairs generalizing acc with
  | nil => simp
  | cons pair rest ih => simp [ih, and_assoc]

/-- The comparison that looks at every byte finds what equality finds. -/
theorem constantTimeEq_iff {a b : List UInt8} : constantTimeEq a b = true ↔ a = b := by
  rw [constantTimeEq]
  split
  · next longer =>
    simp only [Bool.false_eq_true, false_iff]
    intro same
    exact longer (congrArg List.length same)
  · next long =>
    have paired := @List.forall₂_iff_zip _ _ (· = ·) a b
    rw [List.forall₂_eq_eq_eq] at paired
    rw [decide_eq_true_iff, foldl_differences, paired]
    constructor
    · rintro ⟨-, agree⟩
      exact ⟨not_not.mp long, fun {x y} pair => agree (x, y) pair⟩
    · rintro ⟨-, agree⟩
      exact ⟨rfl, fun pair member => agree member⟩

/-- What a registration asks of the database, whichever page it comes from. -/
abbrev Asks (input : CompanyRegistration) (bootstrap : Bool) (_ : List (Event Registration.Statement Registration.Answer)) :
    Registration.Statement → Prop
  | .auth _ => True
  | .registerCompany asked _ mode => asked = input ∧ mode = bootstrap

theorem authenticating_asks {α : Type} {input : CompanyRegistration} {bootstrap : Bool} {action : AuthService.Action α}
    {past : List (Event Registration.Statement Registration.Answer)} :
    (Registration.authenticating action).Obeys (Asks input bootstrap) (fun _ _ => True) past := by
  induction action generalizing past with
  | done result => trivial
  | stmt statement rest ih => exact ⟨trivial, fun answer => ih answer⟩

theorem register_asks {input : CompanyRegistration} {bootstrap : Bool} :
    (Registration.register platform input bootstrap).Obeys (Asks input bootstrap) (fun _ _ => True) [] := by
  rw [Registration.register]
  split
  · trivial
  · split
    · trivial
    · split
      · trivial
      · refine ⟨trivial, fun salt => ?_⟩
        cases salt with
        | error e => trivial
        | ok salt =>
          dsimp only
          split
          · trivial
          · refine ⟨⟨rfl, rfl⟩, fun answer => ?_⟩
            cases answer with
            | ok company => exact authenticating_asks
            | error e => cases e <;> trivial

theorem warranted_registration {request : Request} {input : CompanyRegistration} {bootstrap : Bool}
    (asked : if bootstrap then request = .completeSetup setupSecret input ∧ setupSecret ≠ [] else request = .register input) :
    (((Registration.register platform input bootstrap).mapResult signedUp).among ofRegistration).Obeys
      (Warranted setupSecret request) (fun _ _ => True) [] := by
  refine @obeys_among _ _ _ _ _ ofRegistration _ (Asks input bootstrap) (fun _ _ => True) [] _ _
    (obeys_mapResult.mpr register_asks) ?_ ?_
  · intro past statement asks
    cases statement with
    | auth statement => exact .inl ⟨statement, rfl⟩
    | registerCompany other hash mode =>
      obtain ⟨rfl, rfl⟩ := asks
      exact asked
  · exact fun _ _ _ => trivial

theorem programs_warranted (platform : Platform) (setupSecret : Text) (request : Request) :
    (programOf platform setupSecret request).Obeys (Warranted setupSecret request) (fun _ _ => True) [] := by
  cases request with
  | accounts request =>
    refine @obeys_among _ _ _ _ _ ofAccounts _ (AccountTraces.Justified request) (fun _ _ => True) [] _ _
      (AccountTraces.programs_sound platform request) ?_ ?_
    · exact fun past statement justified => .inr ⟨request, past, rfl, rfl, justified⟩
    · exact fun _ _ _ => trivial
  | register input => exact warranted_registration rfl
  | completeSetup setupKey input =>
    rw [programOf, Registration.completeSetup]
    split
    · trivial
    · next configured =>
      split
      · trivial
      · next keyed =>
        have same : setupKey = setupSecret := by
          rw [Bool.not_eq_true, Bool.not_eq_false', constantTimeEq_iff] at keyed
          exact asBytes_inj keyed
        subst same
        exact warranted_registration ⟨rfl, configured⟩

end Programs

/- Where the accounts come from. -/

abbrev Running : Type := Config Statement Answer Outcome Request RegistrationDb

section Origins
variable {platform : Platform} {setupSecret : Text} {start : RegistrationDb} {config : Running}
    {admits : Env → Statement → RegistrationDb → Bool}

/-- Which account of which company a statement brought about. -/
def opens : Event Statement Answer → Option (CompanyId × UserId)
  | ⟨.registerCompany _ _ _, .ok company⟩ => some (company.companyId, company.manager.id)
  | ⟨.accounts (.create scope _ _), .ok user⟩ => some (scope, user.id)
  | _ => none

def registers : Event Statement Answer → Option CompanyId
  | ⟨.registerCompany _ _ _, .ok company⟩ => some company.companyId
  | _ => none

theorem create_cases (platform : Platform) (env : Env) (auth : AuthDb) (scope : CompanyId) (input : UserInput) (hash : Text) :
    (∃ e, AccountPrograms.execute platform env (.create scope input hash) auth = (.error e, auth)) ∨
    ∃ inRange user, user.id = auth.users.serial ∧ AccountPrograms.execute platform env (.create scope input hash) auth =
      (.ok user, { auth with users := auth.users.put (newUser platform scope auth.users.serial input hash inRange) }) := by
  rw [AccountPrograms.execute, faulting]
  split
  · simp only [AccountPrograms.perform, AccountPrograms.createUser]
    split
    · next inRange =>
      split
      · exact .inl ⟨_, rfl⟩
      · split
        · exact .inl ⟨_, rfl⟩
        · have parsed := (@UserRow.intoDomain_iff (newUser platform scope auth.users.serial input hash inRange) _).mpr
            ⟨input.role, role_parse_asStr input.role, rfl⟩
          exact .inr ⟨inRange, _, rfl, Prod.ext parsed rfl⟩
    · exact .inl ⟨_, rfl⟩
  · exact .inl ⟨_, rfl⟩

/-- Only the creation of an account adds one. -/
theorem account_created (env : Env) (statement : AccountPrograms.Statement) (auth : AuthDb) (row : UserRow)
    (member : row ∈ (AccountPrograms.execute platform env statement auth).2.users.rows) :
    (∃ old ∈ auth.users.rows, old.id = row.id ∧ old.companyId = row.companyId) ∨ ∃ input hash user,
      (⟨statement, (AccountPrograms.execute platform env statement auth).1⟩ :
        Event AccountPrograms.Statement AccountPrograms.Answer) = ⟨.create row.companyId input hash, .ok user⟩ ∧
      user.id = row.id := by
  cases AccountTraces.execute_changes platform env statement auth with
  | same users _ =>
    rw [users] at member
    exact .inl ⟨row, member, rfl, rfl⟩
  | password id hash users _ =>
    rw [users] at member
    obtain ⟨old, there, rfl⟩ := Table.mem_update.mp member
    exact .inl ⟨old, there, by split <;> rfl, by split <;> rfl⟩
  | @created scope input hash _ _ _ _ =>
    rcases create_cases platform env auth scope input hash with ⟨e, refused⟩ | ⟨inRange, user, numbered, created⟩
    · rw [refused] at member
      exact .inl ⟨row, member, rfl, rfl⟩
    · rw [created] at member
      rcases Table.mem_put.mp member with ⟨old, -⟩ | rfl
      · exact .inl ⟨row, old, rfl, rfl⟩
      · rw [created]
        exact .inr ⟨input, hash, user, rfl, numbered⟩
  | updated _ _ users _ =>
    rw [users] at member
    obtain ⟨old, there, rfl⟩ := Table.mem_update.mp member
    exact .inl ⟨old, there, by split <;> rfl, by split <;> rfl⟩
  | deleted users _ =>
    rw [users] at member
    exact .inl ⟨row, (Table.mem_delete.mp member).1, rfl, rfl⟩

theorem account_opened (env : Env) (statement : Statement) (db : RegistrationDb) (account : CompanyId × UserId)
    (there : ∃ row ∈ (execute platform env statement db).2.auth.users.rows, (row.companyId, row.id) = account) :
    (∃ row ∈ db.auth.users.rows, (row.companyId, row.id) = account) ∨
      opens ⟨statement, (execute platform env statement db).1⟩ = some account := by
  obtain ⟨row, member, rfl⟩ := there
  cases statement with
  | accounts statement =>
    rcases account_created env statement db.auth row member with
      ⟨old, there, numbered, of⟩ | ⟨input, hash, user, same, numbered⟩
    · exact .inl ⟨old, there, by rw [numbered, of]⟩
    · obtain ⟨rfl, answer⟩ := Event.mk.inj same
      rw [execute]
      simp only [eq_of_heq answer]
      exact .inr (congrArg some (Prod.ext rfl numbered))
  | registerCompany input hash bootstrap =>
    rw [execute] at member ⊢
    rcases registered_cases platform env db input hash bootstrap with ⟨e, refused⟩ | ⟨inRange, -, registered⟩
    · rw [refused] at member
      exact .inl ⟨row, member, rfl⟩
    · rw [registered] at member ⊢
      rcases Table.mem_put.mp member with ⟨old, -⟩ | rfl
      · exact .inl ⟨row, old, rfl⟩
      · exact .inr rfl

theorem company_registered (env : Env) (statement : Statement) (db : RegistrationDb) (company : CompanyId)
    (there : ∃ row ∈ (execute platform env statement db).2.auth.companies.rows, row.id = company) :
    (∃ row ∈ db.auth.companies.rows, row.id = company) ∨
      registers ⟨statement, (execute platform env statement db).1⟩ = some company := by
  obtain ⟨row, member, rfl⟩ := there
  cases statement with
  | accounts statement =>
    rw [execute] at member
    simp only [(AccountTraces.execute_changes platform env statement db.auth).companies] at member
    exact .inl ⟨row, member, rfl⟩
  | registerCompany input hash bootstrap =>
    rw [execute] at member ⊢
    rcases registered_cases platform env db input hash bootstrap with ⟨e, refused⟩ | ⟨inRange, -, registered⟩
    · rw [refused] at member
      exact .inl ⟨row, member, rfl⟩
    · rw [registered] at member ⊢
      rcases Table.mem_put.mp member with ⟨old, -⟩ | rfl
      · exact .inl ⟨row, old, rfl⟩
      · exact .inr rfl

/-- The page an account was signed up from, whose password its manager chose. -/
structure SignedUp (setupSecret : Text) (call : Call Statement Answer Outcome Request) (row : UserRow) : Prop where
  event : ∃ input hash bootstrap company, (⟨.registerCompany input hash bootstrap, .ok company⟩ : Event Statement Answer) ∈
    call.trace ∧ company.companyId = row.companyId ∧ company.manager.id = row.id ∧
    if bootstrap then call.request = .completeSetup setupSecret input ∧ setupSecret ≠ [] else call.request = .register input

/-- The account was created by somebody who was resolved to an active manager of the same company, within its seats. -/
structure Hired (call : Call Statement Answer Outcome Request) (row : UserRow) : Prop where
  event : ∃ earlier input hash user later manager, call.trace = earlier.map ofAccounts.event ++
      ⟨.accounts (.create row.companyId input hash), .ok user⟩ :: later ∧ user.id = row.id ∧
    Manages earlier row.companyId manager ∧ (input.active = true → Counted earlier row.companyId)

/-- Every account that was not there at first was either signed up with its company, or created by a manager of that same
    company; and every company that was not there was signed up. -/
theorem accounts_have_origins
    (reached : (signups platform setupSecret (· = start) admits).machine.Reachable config) :
    (∀ row ∈ config.store.auth.users.rows,
      (∃ first ∈ start.auth.users.rows, first.id = row.id ∧ first.companyId = row.companyId) ∨
      ∃ call ∈ config.calls, SignedUp setupSecret call row ∨ Hired call row) ∧
    ∀ company ∈ config.store.auth.companies.rows, (∃ first ∈ start.auth.companies.rows, first.id = company.id) ∨
      ∃ call ∈ config.calls, ∃ event ∈ call.trace, registers event = some company.id := by
  have asked := events_asked (Warranted setupSecret) (programs_warranted platform setupSecret) reached
  constructor
  · intro row member
    have put := things_put (fun db account => ∃ row ∈ db.auth.users.rows, (row.companyId, row.id) = account)
      (fun event account => opens event = some account) account_opened (fun store same => same) reached
      (row.companyId, row.id) ⟨row, member, rfl⟩
    rcases put with ⟨first, there, same⟩ | ⟨call, underway, event, past, opened⟩
    · obtain ⟨of, numbered⟩ := Prod.mk.inj same
      exact .inl ⟨first, there, numbered, of⟩
    · refine .inr ⟨call, underway, ?_⟩
      obtain ⟨before, after, split⟩ := List.append_of_mem past
      have warranted := asked call underway before event after split
      unfold opens at opened
      split at opened
      · next input hash bootstrap company =>
        obtain ⟨of, numbered⟩ := Prod.mk.inj (Option.some.inj opened)
        exact .inl ⟨input, hash, bootstrap, company, past, of, numbered, warranted⟩
      · next scope input hash user =>
        obtain ⟨rfl, numbered⟩ := Prod.mk.inj (Option.some.inj opened)
        rcases warranted with ⟨auth, other⟩ | ⟨asked, earlier, -, rfl, ⟨manager, manages⟩, counted⟩
        · cases other
        · exact .inr ⟨earlier, input, hash, user, after, manager, split, numbered, manages, counted⟩
      · cases opened
  · intro company member
    exact things_put (fun db company => ∃ row ∈ db.auth.companies.rows, row.id = company)
      (fun event company => registers event = some company) company_registered (fun store same => same) reached
      company.id ⟨company, member, rfl⟩

end Origins

/- Setting the installation up. -/

section Setup
variable {platform : Platform} {setupSecret : Text} {start : RegistrationDb} {config : Running}

/-- A setup that the database let through. -/
def setUp : Event Statement Answer → Option Unit
  | ⟨.registerCompany _ _ true, .ok _⟩ => some ()
  | _ => none

/-- A statement that leaves somebody with an account. -/
def peopled (platform : Platform) (env : Env) (statement : Statement) (db : RegistrationDb) : Bool :=
  db.auth.users.rows.isEmpty || !(execute platform env statement db).2.auth.users.rows.isEmpty

theorem setUp_eq_some {env : Env} {statement : Statement} {db : RegistrationDb}
    (done : setUp ⟨statement, (execute platform env statement db).1⟩ = some ()) :
    db.auth.users.rows = [] ∧ (execute platform env statement db).2.auth.users.rows ≠ [] ∧
      ∃ input hash, statement = .registerCompany input hash true := by
  cases statement with
  | accounts statement => cases done
  | registerCompany input hash bootstrap =>
    rw [execute] at done ⊢
    rcases registered_cases platform env db input hash bootstrap with ⟨e, refused⟩ | ⟨inRange, admitted, registered⟩
    · rw [refused] at done
      cases bootstrap <;> cases done
    · cases bootstrap with
      | false =>
        rw [registered] at done
        cases done
      | true =>
        rw [registered]
        refine ⟨admitted.first rfl, ?_, input, hash, rfl⟩
        exact List.ne_nil_of_mem (Table.mem_put.mpr (.inr rfl))

theorem peopled_kept {env : Env} {statement : Statement} {db : RegistrationDb}
    (admits : peopled platform env statement db = true) (there : db.auth.users.rows ≠ []) :
    (execute platform env statement db).2.auth.users.rows ≠ [] := by
  simpa [peopled, there] using admits

/-- As long as the accounts never all disappear, one setup at most goes through, none once there is an account, be it from
    the start or since; and it was asked for with the secret that the installation is configured with. -/
theorem setup_once (reached : (signups platform setupSecret (· = start) (peopled platform)).machine.Reachable config) :
    (∀ i, Granted setUp config.calls i () → start.auth.users.rows = [] ∧ setupSecret ≠ [] ∧
      ∃ call input, config.calls[i]? = some call ∧ call.request = .completeSetup setupSecret input) ∧
    (∀ i j, Granted setUp config.calls i () → Granted setUp config.calls j () → i = j) ∧
    ∀ later, (signups platform setupSecret (· = start) (peopled platform)).machine.Leads config later →
      config.store.auth.users.rows ≠ [] → ∀ i, Granted setUp later.calls i () → Granted setUp config.calls i () := by
  have settled {config later : Running}
      (leads : (signups platform setupSecret (· = start) (peopled platform)).machine.Leads config later)
      (inhabited : config.store.auth.users.rows ≠ []) :
      ∀ i, Granted setUp later.calls i () → Granted setUp config.calls i () :=
    claims_settled setUp (fun db _ => db.auth.users.rows ≠ [])
      (fun env statement store key _ done => not_not.mpr (setUp_eq_some done).1)
      (fun env statement store key admits there => peopled_kept admits there) leads inhabited
  refine ⟨?_, ?_, fun later => settled⟩
  · rintro i granted
    constructor
    · by_contra inhabited
      obtain ⟨first, ⟨same, idle⟩, leads⟩ := reached
      have peopled : first.store.auth.users.rows ≠ [] := by rwa [show first.store = start from same]
      obtain ⟨call, found, -⟩ := settled leads peopled i granted
      simp [idle] at found
    · obtain ⟨call, found, event, past, done⟩ := granted
      have asked := events_asked (Warranted setupSecret) (programs_warranted platform setupSecret) reached call
        (List.mem_of_getElem? found)
      obtain ⟨before, after, split⟩ := List.append_of_mem past
      have warranted := asked before event after split
      unfold setUp at done
      split at done
      · obtain ⟨request, configured⟩ := warranted
        exact ⟨configured, call, _, found, request⟩
      · cases done
  · intro i j first second
    exact (claims_exclusive setUp (fun db _ => db.auth.users.rows ≠ [])
      (fun env statement store key _ done => not_not.mpr (setUp_eq_some done).1)
      (fun env statement store key _ done => (setUp_eq_some done).2.1)
      (fun env statement store key admits there => peopled_kept admits there) reached).2 i j () first second

end Setup

/- A registration alone, whatever fails on the way. -/

section Alone
variable {platform : Platform} {input : CompanyRegistration} {bootstrap : Bool} {db : RegistrationDb}

/-- Nothing changed but the sessions of one account. -/
structure SessionsOf (user : UserId) (before after : AuthDb) : Prop where
  users : after.users = before.users
  companies : after.companies = before.companies
  permissions : after.userPermissions = before.userPermissions
  resets : after.passwordResetTokens = before.passwordResetTokens
  kept : ∀ t ∈ before.refreshTokens.rows, t ∈ after.refreshTokens.rows
  own : ∀ t ∈ after.refreshTokens.rows, t ∈ before.refreshTokens.rows ∨ t.userId = user

theorem SessionsOf.refl {user : UserId} {auth : AuthDb} : SessionsOf user auth auth :=
  ⟨rfl, rfl, rfl, rfl, fun _ there => there, fun _ there => .inl there⟩

/-- What a session that begins asks of the database. -/
def Begins (user : UserId) : AuthStore.Statement → Prop
  | .insert id _ _ _ => id = user
  | .utcNow | .randomUuid | .randomToken => True
  | _ => False

theorem begins_kept {user : UserId} {before store : AuthDb} {env : Env} {statement : AuthStore.Statement}
    (begins : Begins user statement) (sessions : SessionsOf user before store) :
    SessionsOf user before (AuthStore.execute platform env statement store).2 := by
  rcases AuthStore.execute_or_fault platform env statement store with performed | ⟨e, failed⟩
  · rw [performed]
    cases statement with
    | insert id tokenHash familyId expiresAt =>
      cases begins
      simp only [AuthStore.perform, AuthStore.insertRefreshToken]
      split
      · exact sessions
      · split
        · exact sessions
        · split
          · exact sessions
          · refine ⟨sessions.users, sessions.companies, sessions.permissions, sessions.resets, ?_, ?_⟩
            · intro t there
              exact Table.mem_insert.mpr (.inl (sessions.kept t there))
            · intro t there
              rcases Table.mem_insert.mp there with old | rfl
              · exact sessions.own t old
              · exact .inr rfl
    | utcNow => exact sessions
    | randomUuid =>
      exact ⟨sessions.users, sessions.companies, sessions.permissions, sessions.resets, sessions.kept, sessions.own⟩
    | randomToken => exact sessions
    | _ => exact begins.elim
  · rw [failed]
    exact sessions

theorem issueSession_begins {user : User} : (AuthService.issueSession platform user).Obeys (fun _ => Begins user.id)
    (fun _ _ => True) [] := by
  refine AuthService.obeys_call.mpr ⟨trivial, fun _ => trivial, fun family => ?_⟩
  refine AuthService.obeys_call.mpr ⟨trivial, fun _ => trivial, fun now => ?_⟩
  split
  · trivial
  · refine AuthService.obeys_call.mpr ⟨trivial, fun _ => trivial, fun token => ?_⟩
    exact AuthService.obeys_call.mpr ⟨rfl, fun _ => trivial, fun _ => trivial⟩

theorem issueSession_sessions {user : User} {auth : AuthDb} : (AuthService.issueSession platform user).Ensures
    (AuthStore.execute platform) (fun _ => SessionsOf user.id auth) auth :=
  ensures_of_obeys (fun _ _ _ begins sessions => begins_kept begins sessions) issueSession_begins SessionsOf.refl

/-- The account that a registration asks for: an active manager of the new company, with the password that was given. -/
structure FirstManager (platform : Platform) (input : CompanyRegistration) (hash : Text) (company : CompanyId)
    (row : UserRow) : Prop where
  companyId : row.companyId = company
  name : row.name = btrim (trim input.manager.name)
  email : row.email = normaliseEmail platform input.manager.email
  role : row.role = text "MANAGER"
  phone : row.phone = Registration.nullIfBlank input.manager.phone
  active : row.active = true
  password : row.passwordHash = some hash

/-- A registration that failed left everything as it was, or it opened one company, with a name, a trial of thirty days and
    a manager; nothing else is touched, and the session it begins is of that manager. -/
inductive Ended (platform : Platform) (db : RegistrationDb) (input : CompanyRegistration) (bootstrap : Bool) :
    Except AppError AuthService.LoginOutcome → RegistrationDb → Prop where
  | refused (e : AppError) : Ended platform db input bootstrap (.error e) db
  | opened (now : Instant) (hash : Text) (manager : UserRow)
      (result : Except AppError AuthService.LoginOutcome) (after : RegistrationDb)
      (admitted : Admitted platform db input bootstrap)
      (hashed : ∃ salt password, input.manager.password = some password ∧ platform.argon2Hash salt password = .ok hash)
      (companies : after.auth.companies.rows = db.auth.companies.rows ++
        [⟨db.auth.companies.serial, false, some (now + 30 * 86400 * 1000000), none, none⟩])
      (names : after.companyNames = db.companyNames.put ⟨db.auth.companies.serial, btrim (trim input.companyName)⟩)
      (users : after.auth.users.rows = db.auth.users.rows ++ [manager])
      (first : FirstManager platform input hash db.auth.companies.serial manager)
      (permissions : after.auth.userPermissions = db.auth.userPermissions)
      (resets : after.auth.passwordResetTokens = db.auth.passwordResetTokens)
      (sessions : ∀ t ∈ db.auth.refreshTokens.rows, t ∈ after.auth.refreshTokens.rows)
      (own : ∀ t ∈ after.auth.refreshTokens.rows, t ∈ db.auth.refreshTokens.rows ∨ t.userId = manager.id)
      (session : ∀ outcome, result = .ok outcome → outcome.user =
        ⟨manager.id, manager.companyId, manager.name, manager.email, .manager, manager.phone, true, none⟩) :
      Ended platform db input bootstrap result after

theorem founder_first {hash : Text} {inRange : InI32 db.auth.users.serial} :
    FirstManager platform input hash db.auth.companies.serial (founder platform db input hash inRange) :=
  ⟨rfl, rfl, rfl, rfl, rfl, rfl, rfl⟩

theorem registered_ended {salt password hash : Text} (given : input.manager.password = some password)
    (hashed : platform.argon2Hash salt password = .ok hash) :
    (Program.stmt (Registration.Statement.registerCompany input hash bootstrap)
      (Registration.registered platform)).Ensures (Registration.execute platform) (Ended platform db input bootstrap) db := by
  intro env
  rcases registered_cases platform env db input hash bootstrap with ⟨e, refused⟩ | ⟨inRange, admitted, registered⟩
  · rw [refused]
    cases e <;> exact .refused _
  · rw [registered]
    apply PasswordBounds.authenticating_ensures
    refine (issueSession_sessions.and (PasswordBounds.issueSession_ensures rfl)).imp ?_
    rintro result after ⟨sessions, session⟩
    refine .opened env.now hash (founder platform db input hash inRange) result _ admitted ⟨salt, password, given, hashed⟩
      ?_ rfl ?_ founder_first sessions.permissions sessions.resets sessions.kept sessions.own
      fun outcome done => (session outcome done).1
    · rw [sessions.companies]
      exact Table.rows_put_fresh rfl
    · rw [sessions.users]
      exact Table.rows_put_fresh rfl

theorem register_ended : (Registration.register platform input bootstrap).Ensures (Registration.execute platform)
    (Ended platform db input bootstrap) db := by
  unfold Registration.register
  split
  · exact .refused _
  · split
    · exact .refused _
    · split
      · exact .refused _
      · next password given =>
        intro env
        rw [PasswordBounds.execute_salt]
        dsimp only
        split
        · exact .refused _
        · next hash hashed => exact registered_ended given hashed

theorem completeSetup_ended {setupSecret setupKey : Text} :
    (Registration.completeSetup platform setupSecret setupKey input).Ensures (Registration.execute platform)
      (Ended platform db input true) db := by
  unfold Registration.completeSetup
  split
  · exact .refused _
  · split
    · exact .refused _
    · exact register_ended

/-- Whatever was there is there still, for every company but a new one. -/
structure Keeps (before after : RegistrationDb) : Prop where
  users : ∀ row ∈ before.auth.users.rows, row ∈ after.auth.users.rows
  companies : ∀ row ∈ before.auth.companies.rows, row ∈ after.auth.companies.rows
  permissions : after.auth.userPermissions = before.auth.userPermissions
  resets : after.auth.passwordResetTokens = before.auth.passwordResetTokens
  sessions : ∀ t ∈ before.auth.refreshTokens.rows, t ∈ after.auth.refreshTokens.rows

theorem Ended.keeps {result : Except AppError AuthService.LoginOutcome} {after : RegistrationDb}
    (ended : Ended platform db input bootstrap result after) : Keeps db after := by
  cases ended with
  | refused e => exact ⟨fun _ there => there, fun _ there => there, rfl, rfl, fun _ there => there⟩
  | opened now hash manager _ _ admitted hashed companies names users first permissions resets sessions own session =>
    refine ⟨fun row there => ?_, fun row there => ?_, permissions, resets, sessions⟩
    · rw [users]
      exact List.mem_append_left _ there
    · rw [companies]
      exact List.mem_append_left _ there

/-- A call alone, under these environments. -/
def alone (platform : Platform) (envs : Nat → Env) (db : RegistrationDb)
    (call : Registration.Action AuthService.LoginOutcome) : Except AppError AuthService.LoginOutcome × RegistrationDb :=
  call.runFrom (Registration.execute platform) envs 0 db

def EndsWell (platform : Platform) (db : RegistrationDb) (input : CompanyRegistration) (bootstrap : Bool)
    (ended : Except AppError AuthService.LoginOutcome × RegistrationDb) : Prop :=
  Ended platform db input bootstrap ended.1 ended.2 ∧ Keeps db ended.2

end Alone

/- An installation that is set up, where a second company signs up and the first manager takes somebody on meanwhile. -/

def emptyInstallation : RegistrationDb :=
  ⟨⟨.empty, .empty, .empty, .empty, .empty, 0⟩, .empty⟩

def person (name email : String) (role : Role) : UserInput :=
  ⟨text name, text email, role, none, true, some (text "correct horse")⟩

def moment (token : String) (fault : Option PortError) : Env := ⟨0, text "salt", text token, fault⟩

def go (i count : Nat) (token : String) : List (Label Request Env) := List.replicate count (.advance i (moment token none))

def signingUp : List (Label Request Env) :=
  [.invoke (.completeSetup (text "key") ⟨text "Acme", person "Ann" "ann@example.com" .manager⟩),
    .invoke (.completeSetup (text "key") ⟨text "Other", person "Eve" "eve@example.com" .manager⟩),
    .invoke (.register ⟨text "Bob & Co", person "Bob" "bob@example.com" .manager⟩),
    .invoke (.accounts (.change (text "1") (.create (person "Tom" "tom@example.com" .office))))] ++
  go 0 1 "a" ++ go 1 1 "b" ++ go 0 5 "a" ++ go 2 3 "c" ++ go 3 8 "d" ++ go 2 3 "c" ++ go 1 1 "b"

def founding : Service Statement Answer Outcome Request Env RegistrationDb :=
  signups AccountTraces.bearerPlatform (text "key") (· = emptyInstallation) (peopled AccountTraces.bearerPlatform)

def begun : Running := ⟨emptyInstallation, []⟩

def signedUpAll : Running := (founding.machine.execute begun signingUp).getD begun

theorem begun_initial : founding.machine.initial begun := ⟨rfl, rfl⟩

theorem signedUpAll_reachable : founding.machine.Reachable signedUpAll :=
  ⟨begun, begun_initial, leads_getD (by decide)⟩

example : signedUpAll.store.auth.users.rows.map (fun u => (u.id, u.companyId)) = [(1, 1), (2, 2), (3, 1)] := by decide

theorem nobody_told : Told AccountTraces.bearerPlatform emptyInstallation where
  names := fun _ member => absurd member List.not_mem_nil
  addresses := fun _ member => absurd member List.not_mem_nil
  named _ := rfl
  members := fun _ member => absurd member List.not_mem_nil

theorem acme_told_apart : Told AccountTraces.bearerPlatform signedUpAll.store :=
  companies_told_apart nobody_told signedUpAll_reachable

theorem everybody_came : signedUpAll.store.auth.users.rows.length = 3 ∧
    ∀ row ∈ signedUpAll.store.auth.users.rows,
      ∃ call ∈ signedUpAll.calls, SignedUp (text "key") call row ∨ Hired call row := by
  refine ⟨by decide, fun row member => ?_⟩
  rcases (accounts_have_origins signedUpAll_reachable).1 row member with ⟨first, there, -⟩ | came
  · cases there
  · exact came

theorem one_setup : Granted setUp signedUpAll.calls 0 () ∧
    ∀ i j, Granted setUp signedUpAll.calls i () → Granted setUp signedUpAll.calls j () → i = j := by
  have first : (signedUpAll.calls[0]?.any fun call => call.trace.any fun event => setUp event = some ()) = true := by decide
  obtain ⟨call, there, event⟩ := (Option.any_eq_true _ _).mp first
  constructor
  · exact ⟨call, there, by simpa using event⟩
  · exact (setup_once signedUpAll_reachable).2.1

end Founding
