import PmKonstruct.Identity.AuthService

/- From login to session: what the access token that a login hands out is worth to the session resolver that
   runs right after it, for every kind of stored hash. -/
namespace LoginSession
open PlainText DecimalText DomainErrors Accounts AuthStore AuthService KeyedTable StatementProgram

variable {platform : Platform} {envs : Nat → Env} {db after : AuthDb} {email passwordInput : Text}
    {outcome : LoginOutcome} {n : Nat}

abbrev runAlone {α : Type} (platform : Platform) (envs : Nat → Env) (n : Nat) (action : Action α) (db : AuthDb) :
    Except AppError α × AuthDb := action.runFrom (execute platform) envs n db

theorem run_call {α : Type} (statement : Statement) (next : Reply statement → Action α) (n : Nat) (db : AuthDb) :
    runAlone platform envs n (call statement next) db =
      match execute platform (envs n) statement db with
      | (.error e, after) => (.error (.port e), after)
      | (.ok reply, after) => runAlone platform envs (n + 1) (next reply) after := by
  simp only [runAlone, call, await, Program.runFrom]
  rcases execute platform (envs n) statement db with ⟨e | reply, after⟩
  · rfl
  · rfl

/-- A call that succeeds had its statement answered. -/
theorem run_call_ok {α : Type} {statement : Statement} {next : Reply statement → Action α} {value : α}
    (run : runAlone platform envs n (call statement next) db = (.ok value, after)) :
    ∃ reply middle, execute platform (envs n) statement db = (.ok reply, middle) ∧
      runAlone platform envs (n + 1) (next reply) middle = (.ok value, after) := by
  rw [run_call] at run
  rcases executed : execute platform (envs n) statement db with ⟨e | reply, middle⟩
  · simp [executed] at run
  · rw [executed] at run
    exact ⟨reply, middle, rfl, run⟩

theorem run_fail {α : Type} {e : AppError} {value : α}
    (run : runAlone platform envs n (fail e : Action α) db = (.ok value, after)) : False := by
  simp [runAlone, fail, Program.runFrom] at run

def writesUsers : Statement → Bool
  | .replacePasswordHash _ _ => true
  | .claimResetAndSetPassword _ _ _ => true
  | _ => false

theorem execute_users {env : Env} {statement : Statement} (reads : writesUsers statement = false) :
    (execute platform env statement db).2.users = db.users := by
  rcases execute_or_fault platform env statement db with performed | ⟨e, failed⟩
  · rw [performed]
    cases statement with
    | replacePasswordHash id hash => cases reads
    | claimResetAndSetPassword tokenId user hash => cases reads
    | insert userId tokenHash familyId expiresAt =>
      simp only [perform, insertRefreshToken]
      split
      · rfl
      · split
        · rfl
        · split <;> rfl
    | _ => simp [perform, markUsed, revoke]
  · rw [failed]

theorem run_reads {α : Type} {statement : Statement} {next : Reply statement → Action α} {value : α}
    (run : runAlone platform envs n (call statement next) db = (.ok value, after))
    (reads : writesUsers statement = false) :
    ∃ reply middle, (execute platform (envs n) statement db).1 = .ok reply ∧ middle.users = db.users ∧
      runAlone platform envs (n + 1) (next reply) middle = (.ok value, after) := by
  obtain ⟨reply, middle, executed, rest⟩ := run_call_ok run
  have users : (execute platform (envs n) statement db).2.users = db.users := execute_users reads
  rw [executed] at users
  exact ⟨reply, middle, by rw [executed], users, rest⟩

theorem issueInFamily_ok {user : User} {familyId : Uuid}
    (run : runAlone platform envs n (issueInFamily platform user familyId) db = (.ok outcome, after)) :
    (∃ now, issueAccess platform user now = .ok (outcome.accessToken, outcome.accessClaims)) ∧
      outcome.user = user ∧ after.users = db.users := by
  obtain ⟨now, first, -, firstUsers, run⟩ := run_reads run rfl
  cases issued : issueAccess platform user now with
  | error e =>
    rw [issued] at run
    exact (run_fail run).elim
  | ok pair =>
    rw [issued] at run
    obtain ⟨value, second, -, secondUsers, run⟩ := run_reads run rfl
    obtain ⟨_, third, -, thirdUsers, run⟩ := run_reads run rfl
    simp only [runAlone, Program.runFrom, Prod.mk.injEq, Except.ok.injEq] at run
    obtain ⟨rfl, rfl⟩ := run
    exact ⟨⟨now, issued⟩, rfl, thirdUsers.trans (secondUsers.trans firstUsers)⟩

theorem issueSession_ok {user : User}
    (run : runAlone platform envs n (issueSession platform user) db = (.ok outcome, after)) :
    (∃ now, issueAccess platform user now = .ok (outcome.accessToken, outcome.accessClaims)) ∧
      outcome.user = user ∧ after.users = db.users := by
  obtain ⟨familyId, first, -, users, run⟩ := run_reads run rfl
  obtain ⟨issued, owner, later⟩ := issueInFamily_ok run
  exact ⟨issued, owner, later.trans users⟩

/-- A legacy hash that the login replaces; the statement after the lookup draws the salt. -/
def Rehashes (platform : Platform) (envs : Nat → Env) (passwordInput stored newHash : Text) : Prop :=
  HashKind.detect stored = .bcrypt ∧ platform.argon2Hash (envs 1).salt passwordInput = .ok newHash

/-- What a successful login has seen and what it leaves in the accounts. -/
structure LoggedIn (platform : Platform) (envs : Nat → Env) (db after : AuthDb) (email passwordInput : Text)
    (outcome : LoginOutcome) (cred : StoredCredential) (stored : Text) : Prop where
  found : findCredentialByEmail platform db email = .ok (some cred)
  active : cred.user.active = true
  hash : cred.passwordHash = some stored
  issued : ∃ now, issueAccess platform cred.user now = .ok (outcome.accessToken, outcome.accessClaims)
  user : outcome.user = cred.user
  users : (∀ newHash, ¬ Rehashes platform envs passwordInput stored newHash) ∧ after.users = db.users ∨
    ∃ newHash, Rehashes platform envs passwordInput stored newHash ∧
      after.users = setPassword (envs 2) db cred.user.id newHash

theorem needsRehash_iff (matched : (verify platform passwordInput stored).matched = true) :
    (verify platform passwordInput stored).needsRehash = true ↔ HashKind.detect stored = .bcrypt := by
  unfold verify at matched ⊢
  cases kind : HashKind.detect stored with
  | argon2id => simp
  | bcrypt => simpa [kind] using matched
  | unknown => simp

theorem execute_randomSalt (platform : Platform) (env : Env) (db : AuthDb) :
    execute platform env .randomSalt db = (.ok env.salt, db) := by
  cases fault : env.fault <;> simp [execute, faulting, fault, Statement.queries, perform]

/-- The part of a login behind the password check. -/
theorem upgrade_ok {cred : StoredCredential} {stored : Text}
    (matched : (verify platform passwordInput stored).matched = true) (rehashed : (envs 2).fault = none)
    (run : runAlone platform envs 1
      (if (verify platform passwordInput stored).needsRehash then
        call .randomSalt fun salt =>
          match platform.argon2Hash salt passwordInput with
          | .error _ => issueSession platform cred.user
          | .ok newHash => .stmt (.replacePasswordHash cred.user.id newHash) fun _ => issueSession platform cred.user
      else issueSession platform cred.user) db = (.ok outcome, after)) :
    (∃ now, issueAccess platform cred.user now = .ok (outcome.accessToken, outcome.accessClaims)) ∧
      outcome.user = cred.user ∧
      ((∀ newHash, ¬ Rehashes platform envs passwordInput stored newHash) ∧ after.users = db.users ∨
        ∃ newHash, Rehashes platform envs passwordInput stored newHash ∧
          after.users = setPassword (envs 2) db cred.user.id newHash) := by
  split at run
  · next upgrade =>
    have legacy := (needsRehash_iff matched).mp upgrade
    obtain ⟨salt, middle, executed, run⟩ := run_call_ok run
    rw [execute_randomSalt, Prod.mk.injEq, Except.ok.injEq] at executed
    obtain ⟨rfl, rfl⟩ := executed
    cases hashed : platform.argon2Hash (envs 1).salt passwordInput with
    | error detail =>
      rw [hashed] at run
      obtain ⟨issued, owner, users⟩ := issueSession_ok run
      refine ⟨issued, owner, .inl ⟨?_, users⟩⟩
      intro newHash rehash
      rw [rehash.2] at hashed
      cases hashed
    | ok newHash =>
      rw [hashed] at run
      simp only [runAlone, Program.runFrom, execute, faulting, rehashed, perform] at run
      obtain ⟨issued, owner, users⟩ := issueSession_ok run
      exact ⟨issued, owner, .inr ⟨newHash, ⟨legacy, hashed⟩, users⟩⟩
  · next current =>
    obtain ⟨issued, owner, users⟩ := issueSession_ok run
    refine ⟨issued, owner, .inl ⟨?_, users⟩⟩
    intro newHash rehash
    exact current ((needsRehash_iff matched).mpr rehash.1)

theorem login_ok (run : runAlone platform envs 0 (login platform email passwordInput) db = (.ok outcome, after))
    (rehashed : (envs 2).fault = none) :
    ∃ cred stored, LoggedIn platform envs db after email passwordInput outcome cred stored := by
  obtain ⟨reply, first, executed, run⟩ := run_call_ok run
  have answer : findCredentialByEmail platform db email = .ok reply ∧ first = db := by
    rw [execute_of_ok (congrArg Prod.fst executed)] at executed
    simpa [perform, eq_comm] using executed
  obtain ⟨found, rfl⟩ := answer
  cases reply with
  | none =>
    obtain ⟨salt, second, -, run⟩ := run_call_ok run
    exact (run_fail run).elim
  | some cred =>
    simp only at run
    split at run
    · exact (run_fail run).elim
    · next active =>
      cases hash : cred.passwordHash with
      | none =>
        rw [hash] at run
        exact (run_fail run).elim
      | some stored =>
        rw [hash] at run
        simp only at run
        split at run
        · exact (run_fail run).elim
        · next unmatched =>
          obtain ⟨issued, owner, users⟩ := upgrade_ok (by simpa using unmatched) rehashed run
          exact ⟨cred, stored, found, by simpa using active, hash, issued, owner, users⟩

/- The session resolver on what the login left. -/

theorem findByIdUnscoped_of_row {id : UserId} {row : UserRow} {user : User} (there : db.users.find id = some row)
    (parsed : row.intoDomain = .ok user) : findByIdUnscoped db id = .ok (some user) := by
  simp [findByIdUnscoped, there, parsed]

theorem resolveSession_iff {token : Text} {claims : AccessClaims} {user : User} {id : UserId}
    (calm : ∀ n, (envs n).fault = none) (decoded : platform.decodeAccess (envs 0).now token = some claims)
    (subject : claims.userId = .ok id) (loaded : findByIdUnscoped db id = .ok (some user))
    (active : user.active = true) :
    (∃ session, runAlone platform envs 0 (resolveSession platform token) db = (.ok session, db) ∧
        session.user.id = user.id) ↔
      user.passwordChangedAt.map timestampMillis = claims.passwordChangedAtMs := by
  have answers : ∀ n statement, execute platform (envs n) statement db = perform platform (envs n) statement db :=
    fun n statement => by simp only [execute, faulting, calm]
  simp only [resolveSession, run_call, answers, perform, decoded, subject, loaded, active, ne_eq]
  by_cases same : user.passwordChangedAt.map timestampMillis = claims.passwordChangedAtMs
  · simp [same, run_call, answers, perform, runAlone, Program.runFrom]
  · simp [same, runAlone, fail, Program.runFrom]

theorem findCredentialByEmail_row {cred : StoredCredential}
    (found : findCredentialByEmail platform db email = .ok (some cred)) :
    ∃ row ∈ db.users.rows, row.intoDomain = .ok cred.user := by
  unfold findCredentialByEmail at found
  simp only at found
  split at found
  · cases found
  · next row here =>
    split at found
    · cases found
    · next user parsed =>
      simp only [Except.ok.injEq, Option.some.injEq] at found
      exact ⟨row, List.mem_of_find?_eq_some here, by rw [parsed, ← found]⟩

theorem intoDomain_ok {row : UserRow} {user : User} (parsed : row.intoDomain = .ok user) :
    user.id = row.id ∧ ∀ hash changed,
      UserRow.intoDomain { row with passwordHash := hash, passwordChangedAt := changed } =
        .ok { user with passwordChangedAt := changed } := by
  obtain ⟨role, known, rfl⟩ := UserRow.intoDomain_iff.mp parsed
  exact ⟨rfl, fun hash changed => UserRow.intoDomain_iff.mpr ⟨role, known, rfl⟩⟩

theorem issueAccess_ok {user : User} {now : Instant} {token : Text} {claims : AccessClaims}
    (issued : issueAccess platform user now = .ok (token, claims)) : platform.encodeAccess claims = .ok token ∧
      claims.sub = decimal user.id ∧ claims.passwordChangedAtMs = user.passwordChangedAt.map timestampMillis := by
  unfold issueAccess at issued
  simp only at issued
  split at issued
  · cases issued
  · next made encoded =>
    simp only [Except.ok.injEq, Prod.mk.injEq] at issued
    obtain ⟨rfl, rfl⟩ := issued
    exact ⟨encoded, rfl, rfl⟩

/-- Either the login replaces no hash, or the account already carries the millisecond of the replacement. -/
def RehashUnseen (platform : Platform) (envs : Nat → Env) (db : AuthDb) (email passwordInput : Text) : Prop :=
  ∀ cred stored newHash, findCredentialByEmail platform db email = .ok (some cred) →
    cred.passwordHash = some stored → Rehashes platform envs passwordInput stored newHash →
    cred.user.passwordChangedAt.map timestampMillis = some (timestampMillis (envs 2).now)

theorem login_resolves_iff {later : Nat → Env}
    (roundTrip : ∀ now claims token, platform.encodeAccess claims = .ok token → timestamp now ≤ claims.exp →
      platform.decodeAccess now token = some claims)
    (run : runAlone platform envs 0 (login platform email passwordInput) db = (.ok outcome, after))
    (rehashed : (envs 2).fault = none) (calm : ∀ n, (later n).fault = none)
    (unexpired : timestamp (later 0).now ≤ outcome.accessClaims.exp) :
    (∃ session, runAlone platform later 0 (resolveSession platform outcome.accessToken) after = (.ok session, after) ∧
        session.user.id = outcome.user.id) ↔
      RehashUnseen platform envs db email passwordInput := by
  obtain ⟨cred, stored, logged⟩ := login_ok run rehashed
  obtain ⟨row, member, parsed⟩ := findCredentialByEmail_row logged.found
  obtain ⟨sameId, changed⟩ := intoDomain_ok parsed
  obtain ⟨now, issued⟩ := logged.issued
  obtain ⟨encoded, subject, stamped⟩ := issueAccess_ok issued
  have decoded := roundTrip (later 0).now _ _ encoded unexpired
  have userId : outcome.accessClaims.userId = .ok row.id := by
    simp only [AccessClaims.userId, subject, sameId, parseI32_decimal row.inRange]
  have there : db.users.find row.id = some row := Table.find_eq_some_iff.mpr ⟨member, rfl⟩
  have seen : RehashUnseen platform envs db email passwordInput ↔
      ∀ newHash, Rehashes platform envs passwordInput stored newHash →
        cred.user.passwordChangedAt.map timestampMillis = some (timestampMillis (envs 2).now) := by
    constructor
    · intro unseen newHash rehash
      exact unseen cred stored newHash logged.found logged.hash rehash
    · intro holds other otherStored newHash found hash rehash
      rw [logged.found, Except.ok.injEq, Option.some.injEq] at found
      subst found
      rw [logged.hash, Option.some.injEq] at hash
      subst hash
      exact holds newHash rehash
  rw [logged.user, seen]
  rcases logged.users with ⟨kept, users⟩ | ⟨newHash, rehash, users⟩
  · have loaded : findByIdUnscoped after row.id = .ok (some cred.user) :=
      findByIdUnscoped_of_row (by rw [users, there]) parsed
    rw [resolveSession_iff calm decoded userId loaded logged.active, stamped]
    exact ⟨fun _ newHash rehash => absurd rehash (kept newHash), fun _ => rfl⟩
  · have updated : after.users.find row.id =
        some { row with passwordHash := some newHash, passwordChangedAt := some (envs 2).now } := by
      rw [users, setPassword, Table.find_update, there]
      simp [sameId]
    have loaded : findByIdUnscoped after row.id =
        .ok (some { cred.user with passwordChangedAt := some (envs 2).now }) :=
      findByIdUnscoped_of_row updated (changed _ _)
    rw [resolveSession_iff calm decoded userId loaded logged.active, stamped]
    constructor
    · intro same newHash _
      exact same.symm
    · intro holds
      exact (holds newHash rehash).symm

def sampleClaims : AccessClaims :=
  ⟨text "1", 1, text "MANAGER", text "sarah@example.com", text "Sarah", none, 0, 900⟩

/-- Signs the claims of the sample account at time 0, and reads them back. -/
def signingPlatform : Platform :=
  { samplePlatform with
    encodeAccess := fun claims => if claims = sampleClaims then .ok (text "jwt") else .error "unsigned"
    decodeAccess := fun _ token => if token = text "jwt" then some sampleClaims else none }

theorem signing_roundTrip (now : Instant) (claims : AccessClaims) (token : Text)
    (encoded : signingPlatform.encodeAccess claims = .ok token) :
    signingPlatform.decodeAccess now token = some claims := by
  simp only [signingPlatform] at encoded ⊢
  split at encoded
  · next same =>
    cases encoded
    simp [same]
  · cases encoded

theorem login_resolves_iff_argon2 : ∃ outcome after,
    runAlone signingPlatform (fun _ => sampleEnv 0 (text "second")) 0
      (login signingPlatform (text "sarah@example.com") (text "secret")) sampleDb = (.ok outcome, after) ∧
    ((∃ session, runAlone signingPlatform (fun _ => sampleEnv 1 []) 0
        (resolveSession signingPlatform outcome.accessToken) after = (.ok session, after) ∧
        session.user.id = outcome.user.id) ↔
      RehashUnseen signingPlatform (fun _ => sampleEnv 0 (text "second")) sampleDb
        (text "sarah@example.com") (text "secret")) := by
  obtain ⟨outcome, after, run, unexpired⟩ : ∃ outcome after,
      runAlone signingPlatform (fun _ => sampleEnv 0 (text "second")) 0
        (login signingPlatform (text "sarah@example.com") (text "secret")) sampleDb = (.ok outcome, after) ∧
      outcome.accessClaims.exp = 900 := ⟨_, _, rfl, rfl⟩
  refine ⟨outcome, after, run, login_resolves_iff ?_ run rfl (fun _ => rfl) ?_⟩
  · exact fun now claims token encoded _ => signing_roundTrip now claims token encoded
  · rw [unexpired]
    decide

/-- The sample account as it came from the legacy system. -/
def legacyDb : AuthDb :=
  { sampleDb with
    users := ⟨[{ sampleUser with passwordHash := some (text "$2b$secret") }], 2, by decide, by decide⟩ }

theorem legacy_login_unresolved : ¬ ∀ (platform : Platform) (envs later : Nat → Env) (db after : AuthDb)
    (email passwordInput : Text) (outcome : LoginOutcome),
    (∀ now claims token, platform.encodeAccess claims = .ok token → timestamp now ≤ claims.exp →
      platform.decodeAccess now token = some claims) →
    runAlone platform envs 0 (login platform email passwordInput) db = (.ok outcome, after) →
    (envs 2).fault = none → (∀ n, (later n).fault = none) →
    timestamp (later 0).now ≤ outcome.accessClaims.exp →
    ∃ session, runAlone platform later 0 (resolveSession platform outcome.accessToken) after = (.ok session, after) ∧
      session.user.id = outcome.user.id := by
  intro resolves
  obtain ⟨outcome, after, run, unexpired, refused⟩ : ∃ outcome after,
      runAlone signingPlatform (fun _ => sampleEnv 0 (text "second")) 0
        (login signingPlatform (text "sarah@example.com") (text "secret")) legacyDb = (.ok outcome, after) ∧
      outcome.accessClaims.exp = 900 ∧
      (runAlone signingPlatform (fun _ => sampleEnv 1 []) 0
        (resolveSession signingPlatform outcome.accessToken) after).1 = .error .invalidToken := ⟨_, _, rfl, rfl, rfl⟩
  obtain ⟨session, resolved, -⟩ := resolves signingPlatform _ (fun _ => sampleEnv 1 []) _ after _ _ outcome
    (fun now claims token encoded _ => signing_roundTrip now claims token encoded) run rfl (fun _ => rfl)
    (by rw [unexpired]; decide)
  rw [resolved] at refused
  cases refused

end LoginSession
