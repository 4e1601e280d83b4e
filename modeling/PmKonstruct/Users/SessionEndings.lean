import PmKonstruct.Identity.RefreshTokens
import PmKonstruct.Users.SessionPrograms

/- Whether the tokens from before a change of password still open a session. An access token is bound to the time of
   the last change; a refresh token is not, and lives until somebody revokes it. -/
namespace SessionEndings
open PlainText DecimalText DomainErrors Accounts KeyedTable TransitionRuns StatementProgram SessionPrograms
open AccountPrograms (Statement Answer execute perform)
open AuthStore (AuthDb Env UserRow RefreshTokenRow)
open AuthService (LoginOutcome SessionUser)
open RefreshTokens (Evolves)

/- What a statement does to the tokens and to the times of the last change. -/

/-- The millisecond that an access token carries; no change yet comes before every change. -/
def stamp (changed : Option Instant) : Option Int := changed.map timestampMillis

instance decidableLt (x y : Option Int) : Decidable (x < y) := inferInstanceAs (Decidable (Option.lt (· < ·) x y))

instance decidableLe : (x y : Option Int) → Decidable (x ≤ y)
  | none, y => .isTrue (@Option.none_le _ _ y)
  | some _, none => .isFalse Option.not_some_le_none
  | some a, some b => decidable_of_iff (a ≤ b) Option.some_le_some.symm

section Stamps
variable {x y z : Option Int}

theorem stamp_le_refl (x : Option Int) : x ≤ x := by
  cases x with
  | none => exact Option.none_le
  | some a => exact Option.some_le_some.mpr (Int.le_refl a)

theorem stamp_le_trans (early : x ≤ y) (late : y ≤ z) : x ≤ z := by
  cases x with
  | none => exact Option.none_le
  | some a =>
    cases y with
    | none => exact absurd early Option.not_some_le_none
    | some b =>
      cases z with
      | none => exact absurd late Option.not_some_le_none
      | some c => exact Option.some_le_some.mpr (Int.le_trans (Option.some_le_some.mp early) (Option.some_le_some.mp late))

theorem stamp_lt_iff : x < y ↔ x ≤ y ∧ ¬ y ≤ x := by
  cases x with
  | none =>
    cases y with
    | none => simp
    | some b => exact iff_of_true Option.none_lt_some ⟨Option.none_le, Option.not_some_le_none⟩
  | some a =>
    cases y with
    | none => simp
    | some b =>
      rw [Option.some_lt_some, Option.some_le_some, Option.some_le_some]
      omega

theorem stamp_lt_of_le (early : x ≤ y) (late : y < z) : x < z := by
  rw [stamp_lt_iff] at late ⊢
  exact ⟨stamp_le_trans early late.1, fun back => late.2 (stamp_le_trans back early)⟩

theorem stamp_lt_of_lt (early : x < y) (late : y ≤ z) : x < z := by
  rw [stamp_lt_iff] at early ⊢
  exact ⟨stamp_le_trans early.1 late, fun back => early.2 (stamp_le_trans late back)⟩

end Stamps

/-- The account whose password the statement sets. -/
def sets : Statement → Option UserId
  | .update _ id _ (some _) => some id
  | .auth (.replacePasswordHash id _) => some id
  | .auth (.claimResetAndSetPassword _ user _) => some user
  | _ => none

section Effects
variable {platform : Platform} {env : Env} {statement : Statement} {db : AuthDb}

theorem execute_auth (platform : Platform) (env : Env) (statement : AuthStore.Statement) (db : AuthDb) :
    execute platform env (.auth statement) db = AuthStore.execute platform env statement db := by
  cases fault : env.fault with
  | none => simp [execute, AuthStore.execute, faulting, fault, perform]
  | some e =>
    cases queries : statement.queries with
    | true => simp [execute, AuthStore.execute, faulting, fault, AccountPrograms.Statement.queries, queries]
    | false => simp [execute, AuthStore.execute, faulting, fault, AccountPrograms.Statement.queries, queries, perform]

theorem execute_cases (platform : Platform) (env : Env) (statement : Statement) (db : AuthDb) :
    execute platform env statement db = perform platform env statement db ∨
      ∃ e, execute platform env statement db = (.error e, db) := faulting_cases env statement db

/-- Statements on accounts store no refresh token; deleting one takes its tokens along. -/
theorem perform_tokens (unauth : ∀ auth, statement ≠ .auth auth) :
    ∀ row ∈ (perform platform env statement db).2.refreshTokens.rows, row ∈ db.refreshTokens.rows := by
  cases statement with
  | auth statement => exact absurd rfl (unauth statement)
  | find scope id => exact fun row member => member
  | activeCount scope => exact fun row member => member
  | create scope input hash =>
    simp only [perform, AccountPrograms.createUser]
    split
    · split
      · exact fun row member => member
      · split <;> exact fun row member => member
    · exact fun row member => member
  | update scope id input hash =>
    simp only [perform, AccountPrograms.updateUser]
    split
    · exact fun row member => member
    · split <;> exact fun row member => member
  | delete scope id =>
    simp only [perform, AccountPrograms.deleteUser]
    split
    · exact fun row member => member
    · exact fun row member => (Table.mem_delete.mp member).1

/-- A refresh token found later is an old one, or the one that was just stored. -/
theorem execute_tokens (platform : Platform) (env : Env) (statement : Statement) (db : AuthDb) :
    ∀ new ∈ (execute platform env statement db).2.refreshTokens.rows,
      (∃ row ∈ db.refreshTokens.rows, Evolves row new) ∨
      ∃ userId hash familyId expiresAt, statement = .auth (.insert userId hash familyId expiresAt) ∧
        new.userId = userId ∧ new.tokenHash = hash := by
  intro new member
  by_cases auth : ∃ auth, statement = .auth auth
  · obtain ⟨auth, rfl⟩ := auth
    rw [execute_auth] at member
    rcases (RefreshTokens.execute_evolves platform env auth db).2 new member with
      old | ⟨-, userId, hash, familyId, expiresAt, rfl, -, rfl⟩
    · exact .inl old
    · exact .inr ⟨userId, hash, familyId, expiresAt, rfl, rfl, rfl⟩
  · rcases execute_cases platform env statement db with performed | ⟨e, failed⟩
    · rw [performed] at member
      exact .inl ⟨new, perform_tokens (fun other same => auth ⟨other, same⟩) new member, .refl new⟩
    · rw [failed] at member
      exact .inl ⟨new, member, .refl new⟩

/-- A token is stored under a hash that no token had. -/
theorem insert_unused {userId : UserId} {hash : Text} {familyId : Uuid} {expiresAt : Instant}
    (stored : (execute platform env (.auth (.insert userId hash familyId expiresAt)) db).1 = .ok ()) :
    ∀ row ∈ db.refreshTokens.rows, row.tokenHash ≠ hash := by
  rw [execute_auth] at stored
  rw [AuthStore.execute_of_ok stored] at stored
  simp only [AuthStore.perform, AuthStore.insertRefreshToken] at stored
  split at stored
  · cases stored
  · split at stored
    · cases stored
    · next unused => simpa using unused

/-- Every token of the account is revoked by a revocation that was answered. -/
theorem revokeAll_revokes {user : UserId} {count : Nat}
    (revoked : (execute platform env (.auth (.revokeAllForUser user)) db).1 = .ok count) :
    ∀ new ∈ (execute platform env (.auth (.revokeAllForUser user)) db).2.refreshTokens.rows, new.userId = user →
      new.revokedAt.isSome := by
  rw [execute_auth] at revoked ⊢
  rw [AuthStore.execute_of_ok revoked]
  intro new member owner
  obtain ⟨row, -, rfl⟩ := List.mem_map.mp member
  split
  · rfl
  · next unmatched =>
    have same : row.userId = user := by simpa [unmatched] using owner
    simpa [same, Option.isSome_iff_ne_none] using unmatched

/-- The accounts after a statement of authentication. -/
theorem auth_users (platform : Platform) (env : Env) (statement : AuthStore.Statement) (db : AuthDb) :
    (execute platform env (.auth statement) db).2.users = db.users ∨
    ∃ id hash, sets (.auth statement) = some id ∧
      (execute platform env (.auth statement) db).2.users = AuthStore.setPassword env db id hash := by
  rw [execute_auth]
  rcases AuthStore.execute_or_fault platform env statement db with performed | ⟨e, failed⟩
  · cases statement with
    | replacePasswordHash id hash =>
      rw [performed]
      exact .inr ⟨id, hash, rfl, rfl⟩
    | claimResetAndSetPassword tokenId user hash =>
      rw [performed]
      simp only [AuthStore.perform, AuthStore.claimReset]
      split
      · exact .inr ⟨user, hash, rfl, rfl⟩
      · exact .inl rfl
    | _ => exact .inl (LoginSession.execute_users rfl)
  · rw [failed]
    exact .inl rfl

/-- An account that was there has the time it had, or this moment. -/
structure KeepsTime (env : Env) (statement : Statement) (db after : AuthDb) : Prop where
  serial : db.users.serial ≤ after.users.serial
  rows : ∀ row ∈ after.users.rows, row.id < db.users.serial → ∃ old ∈ db.users.rows, old.id = row.id ∧
    (row.passwordChangedAt = old.passwordChangedAt ∨
      (row.passwordChangedAt = some env.now ∧ sets statement = some row.id))

theorem keepsTime_same {after : AuthDb} (users : after.users = db.users) : KeepsTime env statement db after where
  serial := by rw [users]
  rows row member _ := ⟨row, users ▸ member, rfl, .inl rfl⟩

theorem keepsTime_update {after : AuthDb} {p : UserRow → Bool} {change : UserRow → UserRow}
    {keeps : ∀ row, Keyed.key (change row) = Keyed.key row} (users : after.users = db.users.update p change keeps)
    (times : ∀ row, p row = true → (change row).passwordChangedAt = row.passwordChangedAt ∨
      ((change row).passwordChangedAt = some env.now ∧ sets statement = some row.id)) :
    KeepsTime env statement db after where
  serial := by
    rw [users]
    exact Int.le_refl _
  rows row member _ := by
    rw [users] at member
    obtain ⟨old, there, rfl⟩ := Table.mem_update.mp member
    refine ⟨old, there, ?_⟩
    split
    · next matched =>
      have same : (change old).id = old.id := keeps old
      refine ⟨same.symm, ?_⟩
      rw [same]
      exact times old matched
    · exact ⟨rfl, .inl rfl⟩

theorem perform_keepsTime (unauth : ∀ auth, statement ≠ .auth auth) :
    KeepsTime env statement db (perform platform env statement db).2 := by
  cases statement with
  | auth statement => exact absurd rfl (unauth statement)
  | find scope id => exact keepsTime_same rfl
  | activeCount scope => exact keepsTime_same rfl
  | create scope input hash =>
    simp only [perform, AccountPrograms.createUser]
    split
    · next inRange =>
      split
      · exact keepsTime_same rfl
      · split
        · exact keepsTime_same rfl
        · refine ⟨Int.le_max_left _ _, fun row member old => ?_⟩
          rcases Table.mem_put.mp member with ⟨there, -⟩ | rfl
          · exact ⟨row, there, rfl, .inl rfl⟩
          · exact absurd old (Int.lt_irrefl _)
    · exact keepsTime_same rfl
  | update scope id input hash =>
    simp only [perform, AccountPrograms.updateUser]
    split
    · exact keepsTime_same rfl
    · split
      · exact keepsTime_same rfl
      · refine @keepsTime_update env _ db _ _ (AccountPrograms.changedUser platform env input hash) (fun _ => rfl) rfl
          fun row matched => ?_
        have same : row.id = id := by simpa using (Bool.and_eq_true_iff.mp matched).1
        cases hash with
        | none => exact .inl rfl
        | some value =>
          refine .inr ⟨rfl, ?_⟩
          rw [sets, same]
  | delete scope id =>
    simp only [perform, AccountPrograms.deleteUser]
    split
    · exact keepsTime_same rfl
    · exact ⟨Int.le_refl _, fun row member _ => ⟨row, (Table.mem_delete.mp member).1, rfl, .inl rfl⟩⟩

theorem execute_keepsTime (platform : Platform) (env : Env) (statement : Statement) (db : AuthDb) :
    KeepsTime env statement db (execute platform env statement db).2 := by
  by_cases auth : ∃ auth, statement = .auth auth
  · obtain ⟨auth, rfl⟩ := auth
    rcases auth_users platform env auth db with same | ⟨id, hash, written, users⟩
    · exact keepsTime_same same
    · refine keepsTime_update users fun row matched => .inr ⟨rfl, ?_⟩
      rw [written, of_decide_eq_true matched]
  · rcases execute_cases platform env statement db with performed | ⟨e, failed⟩
    · rw [performed]
      exact perform_keepsTime fun other same => auth ⟨other, same⟩
    · rw [failed]
      exact keepsTime_same rfl

/-- The password of the account was set just now. -/
def setEvent : Event Statement Answer → Option UserId
  | ⟨.update _ id _ (some _), .ok (some _)⟩ => some id
  | ⟨.auth (.claimResetAndSetPassword _ user _), .ok true⟩ => some user
  | _ => none

theorem setEvent_eq {event : Event Statement Answer} {user : UserId} (answered : setEvent event = some user) :
    (∃ scope input hash row, event = ⟨.update scope user input (some hash), .ok (some row)⟩) ∨
      ∃ tokenId hash, event = ⟨.auth (.claimResetAndSetPassword tokenId user hash), .ok true⟩ := by
  unfold setEvent at answered
  split at answered
  · cases answered
    exact .inl ⟨_, _, _, _, rfl⟩
  · cases answered
    exact .inr ⟨_, _, rfl⟩
  · cases answered

theorem claim_users {tokenId : Int} {user : UserId} {hash : Text}
    (claimed : (execute platform env (.auth (.claimResetAndSetPassword tokenId user hash)) db).1 = .ok true) :
    (execute platform env (.auth (.claimResetAndSetPassword tokenId user hash)) db).2.users =
      AuthStore.setPassword env db user hash := by
  rw [execute_auth] at claimed ⊢
  have performed := AuthStore.execute_of_ok claimed
  rw [performed] at claimed ⊢
  simp only [AuthStore.perform, AuthStore.claimReset] at claimed ⊢
  split at claimed
  · next live => rw [if_pos live]
  · cases claimed

theorem update_users {scope : CompanyId} {id : UserId} {input : AccountPrograms.UserInput} {hash : Option Text} {user : User}
    (updated : (execute platform env (.update scope id input hash) db).1 = .ok (some user)) :
    ∃ found, db.users.reach (·.companyId = scope) id = some found ∧
      (execute platform env (.update scope id input hash) db).2.users =
        db.users.update (fun u => u.id = id && u.companyId = scope) (AccountPrograms.changedUser platform env input hash)
          fun _ => rfl := by
  rcases execute_cases platform env (.update scope id input hash) db with performed | ⟨e, failed⟩
  · rw [performed] at updated ⊢
    simp only [perform, AccountPrograms.updateUser] at updated ⊢
    cases reached : db.users.reach (·.companyId = scope) id with
    | none => simp [reached] at updated
    | some found =>
      cases taken : AccountPrograms.emailTaken platform db input (some id) with
      | true => simp [reached, taken] at updated
      | false => exact ⟨found, rfl, rfl⟩
  · rw [failed] at updated
    cases updated

/-- After the answer that a password is set, the account carries this moment. -/
theorem setEvent_now {user : UserId} (answered : setEvent ⟨statement, (execute platform env statement db).1⟩ = some user) :
    sets statement = some user ∧ ∀ row ∈ (execute platform env statement db).2.users.rows, row.id = user →
      row.passwordChangedAt = some env.now := by
  rcases setEvent_eq answered with ⟨scope, input, hash, row, same⟩ | ⟨tokenId, hash, same⟩
  · obtain ⟨rfl, answer⟩ := Event.mk.inj same
    refine ⟨rfl, fun row member keyed => ?_⟩
    obtain ⟨found, reached, users⟩ := update_users (eq_of_heq answer)
    obtain ⟨there, own⟩ := Table.reach_eq_some_iff.mp reached
    obtain ⟨present, foundId⟩ := Table.find_eq_some_iff.mp there
    rw [users] at member
    obtain ⟨old, before, rfl⟩ := Table.mem_update.mp member
    have oldId : old.id = user := by
      split at keyed <;> exact keyed
    have one : old = found := Table.key_inj before present (oldId.trans foundId.symm)
    subst one
    have matched : (decide (old.id = user) && decide (old.companyId = scope)) = true := by simpa [oldId] using own
    rw [if_pos matched]
    rfl
  · obtain ⟨rfl, answer⟩ := Event.mk.inj same
    refine ⟨rfl, fun row member keyed => ?_⟩
    rw [claim_users (eq_of_heq answer)] at member
    obtain ⟨old, before, rfl⟩ := List.mem_map.mp member
    have oldId : old.id = user := by
      split at keyed <;> exact keyed
    rw [if_pos (decide_eq_true oldId)]

end Effects

/- The condition under test. -/

def storedHash : Event Statement Answer → Option Text
  | ⟨.auth (.insert _ hash _ _), .ok ()⟩ => some hash
  | _ => none

def claimedFor : Event Statement Answer → Option UserId
  | ⟨.auth (.claimResetAndSetPassword _ user _), .ok true⟩ => some user
  | _ => none

def revokedFor : Event Statement Answer → Option UserId
  | ⟨.auth (.revokeAllForUser user), .ok _⟩ => some user
  | _ => none

/-- A reset has set the password of the account, and has not revoked its sessions, or not yet. -/
def halfway (config : Running) (user : UserId) : Bool :=
  config.calls.any fun call => call.trace.any (fun event => claimedFor event = some user) &&
    !call.trace.any fun event => revokedFor event = some user

def unfit (t : RefreshTokenRow) : Bool := t.revokedAt.isSome || t.usedAt.isSome

/-- A password is set in a later millisecond than the last one, and by an update only where the account has no refresh
    token left that is fit for use; no such token is looked up while a reset of its account is halfway; and no refresh
    token is drawn twice. -/
def lets (config : Running) (env : Env) : Statement → Bool
  | .update _ id _ (some _) =>
    (config.store.users.find id).all (fun row => stamp row.passwordChangedAt < stamp (some env.now)) &&
      config.store.refreshTokens.rows.all fun t => t.userId ≠ id || unfit t
  | .auth (.claimResetAndSetPassword _ user _) =>
    (config.store.users.find user).all fun row => stamp row.passwordChangedAt < stamp (some env.now)
  | .auth (.replacePasswordHash id _) =>
    (config.store.users.find id).all fun row => stamp row.passwordChangedAt ≤ stamp (some env.now)
  | .auth (.findByHash hash) =>
    config.store.refreshTokens.rows.all fun t => t.tokenHash ≠ hash || unfit t || !halfway config t.userId
  | .auth (.insert _ hash _ _) => config.calls.all fun other => other.trace.all fun event => storedHash event ≠ some hash
  | _ => true

def endsSessions (config : Running) : Label Request Env → Bool
  | .invoke _ => true
  | .advance i env =>
    match config.calls[i]? with
    | none => true
    | some call =>
      match call.running with
      | .done _ => true
      | .stmt statement _ => lets config env statement

/- What the condition keeps, one statement at a time. -/

def readIn : Event Statement Answer → Option User
  | ⟨.auth statement, answer⟩ => userRead ⟨statement, answer⟩
  | _ => none

/-- The account carries no earlier time than this one, if it is still there. -/
structure NotBehind (id : UserId) (changed : Option Instant) (db : AuthDb) : Prop where
  known : id < db.users.serial
  rows : ∀ row ∈ db.users.rows, row.id = id → stamp changed ≤ stamp row.passwordChangedAt

structure Outdated (id : UserId) (changed : Option Instant) (db : AuthDb) : Prop where
  known : id < db.users.serial
  rows : ∀ row ∈ db.users.rows, row.id = id → stamp changed < stamp row.passwordChangedAt

/-- No token with this hash is fit for use. -/
def Dead (hash : Text) (db : AuthDb) : Prop := ∀ row ∈ db.refreshTokens.rows, row.tokenHash = hash → unfit row = true

def OwnedBy (userId : UserId) (hash : Text) (db : AuthDb) : Prop :=
  ∀ row ∈ db.refreshTokens.rows, row.tokenHash = hash → row.userId = userId

section Steps
variable {platform : Platform} {initial : AuthDb → Prop} {config : Running} {i : Nat} {env : Env} {call : Underway}
    {statement : Statement} {next : Answer statement → Program Statement Answer Outcome}

theorem lets_of_permits (permitted : endsSessions config (.advance i env) = true) (found : config.calls[i]? = some call)
    (shape : call.running = .stmt statement next) : lets config env statement = true := by
  simpa only [endsSessions, found, shape] using permitted

/-- Whoever sets the time of an account does not set it back. -/
theorem sets_forward {id : UserId} {old : UserRow} (permitted : lets config env statement = true)
    (sets : sets statement = some id) (there : old ∈ config.store.users.rows) (keyed : old.id = id) :
    stamp old.passwordChangedAt ≤ stamp (some env.now) := by
  have found : config.store.users.find id = some old := Table.find_eq_some_iff.mpr ⟨there, keyed⟩
  unfold SessionEndings.sets at sets
  split at sets
  · cases sets
    simp only [lets, found, Option.all_some, Bool.and_eq_true, decide_eq_true_eq] at permitted
    exact (stamp_lt_iff.mp permitted.1).1
  · cases sets
    simpa only [lets, found, Option.all_some, decide_eq_true_eq] using permitted
  · cases sets
    simp only [lets, found, Option.all_some, decide_eq_true_eq] at permitted
    exact (stamp_lt_iff.mp permitted).1
  · cases sets

theorem set_later {user : UserId} {old : UserRow} (permitted : lets config env statement = true)
    (answered : setEvent ⟨statement, (execute platform env statement config.store).1⟩ = some user)
    (there : old ∈ config.store.users.rows) (keyed : old.id = user) :
    stamp old.passwordChangedAt < stamp (some env.now) := by
  have found : config.store.users.find user = some old := Table.find_eq_some_iff.mpr ⟨there, keyed⟩
  rcases setEvent_eq answered with ⟨scope, input, hash, row, same⟩ | ⟨tokenId, hash, same⟩
  · obtain ⟨rfl, -⟩ := Event.mk.inj same
    simp only [lets, found, Option.all_some, Bool.and_eq_true, decide_eq_true_eq] at permitted
    exact permitted.1
  · obtain ⟨rfl, -⟩ := Event.mk.inj same
    simpa only [lets, found, Option.all_some, decide_eq_true_eq] using permitted

variable {id : UserId} {changed : Option Instant} {hash : Text}

/-- The time of an account goes forward only. -/
theorem execute_forward {row : UserRow} (permitted : lets config env statement = true)
    (member : row ∈ (AccountPrograms.execute platform env statement config.store).2.users.rows)
    (known : row.id < config.store.users.serial) :
    ∃ old ∈ config.store.users.rows, old.id = row.id ∧ stamp old.passwordChangedAt ≤ stamp row.passwordChangedAt := by
  obtain ⟨old, there, same, time⟩ := (execute_keepsTime platform env statement config.store).2 row member known
  refine ⟨old, there, same, ?_⟩
  rcases time with kept | ⟨now, set⟩
  · rw [kept]
    exact stamp_le_refl _
  · rw [now]
    exact sets_forward permitted set there same

theorem NotBehind.execute (behind : NotBehind id changed config.store) (permitted : lets config env statement = true) :
    NotBehind id changed (AccountPrograms.execute platform env statement config.store).2 := by
  obtain ⟨serial, -⟩ := execute_keepsTime platform env statement config.store
  refine ⟨Int.lt_of_lt_of_le behind.known serial, fun row member keyed => ?_⟩
  obtain ⟨old, there, same, time⟩ := execute_forward permitted member (keyed ▸ behind.known)
  exact stamp_le_trans (behind.rows old there (same.trans keyed)) time

theorem Outdated.execute (outdated : Outdated id changed config.store) (permitted : lets config env statement = true) :
    Outdated id changed (AccountPrograms.execute platform env statement config.store).2 := by
  obtain ⟨serial, -⟩ := execute_keepsTime platform env statement config.store
  refine ⟨Int.lt_of_lt_of_le outdated.known serial, fun row member keyed => ?_⟩
  obtain ⟨old, there, same, time⟩ := execute_forward permitted member (keyed ▸ outdated.known)
  exact stamp_lt_of_lt (outdated.rows old there (same.trans keyed)) time

/-- A password that is set outdates every time from before. -/
theorem set_outdates (behind : NotBehind id changed config.store) (permitted : lets config env statement = true)
    (answered : setEvent ⟨statement, (AccountPrograms.execute platform env statement config.store).1⟩ = some id) :
    Outdated id changed (AccountPrograms.execute platform env statement config.store).2 := by
  obtain ⟨serial, rows⟩ := execute_keepsTime platform env statement config.store
  refine ⟨Int.lt_of_lt_of_le behind.known serial, fun row member keyed => ?_⟩
  obtain ⟨old, there, same, -⟩ := rows row member (keyed ▸ behind.known)
  rw [(setEvent_now answered).2 row member keyed]
  exact stamp_lt_of_le (behind.rows old there (same.trans keyed)) (set_later permitted answered there (same.trans keyed))

/-- The hash of a token that was stored in this run is not stored again. -/
theorem stored_once {event : Event Statement Answer} {other : Underway} {userId : UserId} {inserted : Text}
    {familyId : Uuid} {expiresAt : Instant}
    (permitted : lets config env (.auth (.insert userId inserted familyId expiresAt)) = true)
    (member : other ∈ config.calls) (past : event ∈ other.trace) (stored : storedHash event = some hash) :
    inserted ≠ hash := by
  rintro rfl
  simp only [lets] at permitted
  have fresh := List.all_eq_true.mp (List.all_eq_true.mp permitted other member) event past
  simp [stored] at fresh

theorem Dead.execute {event : Event Statement Answer} {other : Underway} (dead : Dead hash config.store)
    (permitted : lets config env statement = true) (member : other ∈ config.calls) (past : event ∈ other.trace)
    (stored : storedHash event = some hash) : Dead hash (AccountPrograms.execute platform env statement config.store).2 := by
  intro new there keyed
  rcases execute_tokens platform env statement config.store new there with
    ⟨row, before, evolves⟩ | ⟨userId, inserted, familyId, expiresAt, rfl, -, same⟩
  · have spent := dead row before (evolves.tokenHash.symm.trans keyed)
    simp only [unfit, Bool.or_eq_true] at spent ⊢
    exact spent.imp evolves.revoked evolves.used
  · exact absurd (same.symm.trans keyed) (stored_once permitted member past stored)

theorem OwnedBy.execute {event : Event Statement Answer} {other : Underway} (owned : OwnedBy id hash config.store)
    (permitted : lets config env statement = true) (member : other ∈ config.calls) (past : event ∈ other.trace)
    (stored : storedHash event = some hash) :
    OwnedBy id hash (AccountPrograms.execute platform env statement config.store).2 := by
  intro new there keyed
  rcases execute_tokens platform env statement config.store new there with
    ⟨row, before, evolves⟩ | ⟨userId, inserted, familyId, expiresAt, rfl, -, same⟩
  · exact evolves.userId.trans (owned row before (evolves.tokenHash.symm.trans keyed))
  · exact absurd (same.symm.trans keyed) (stored_once permitted member past stored)

end Steps

/- What holds along every run under the condition. -/

abbrev machine (platform : Platform) (initial : AuthDb → Prop) : Machine Running (Label Request Env) :=
  (sessions platform initial).machine.restrict endsSessions

section Runs
variable {platform : Platform} {initial : AuthDb → Prop} {config start ended later : Running}

/-- A token belongs to the account it was stored for. -/
theorem tokens_owned (reached : (machine platform initial).Reachable config) :
    ∀ (i : Nat) call, config.calls[i]? = some call → ∀ userId hash familyId expiresAt,
      (⟨.auth (.insert userId hash familyId expiresAt), .ok ()⟩ : Event Statement Answer) ∈ call.trace →
      OwnedBy userId hash config.store := by
  refine (store_and_calls_keep (fun _ => True) (fun store (call : Underway) => ∀ userId hash familyId expiresAt,
    (⟨.auth (.insert userId hash familyId expiresAt), .ok ()⟩ : Event Statement Answer) ∈ call.trace →
      OwnedBy userId hash store) ?_ ?_ ?_ ?_ reached).2
  · intro store started
    trivial
  · intro store request inv userId hash familyId expiresAt past
    cases past
  · intro config i env call statement next visited permits found shape inv owned
    have permitted := lets_of_permits permits found shape
    refine ⟨trivial, fun userId hash familyId expiresAt past => ?_⟩
    rcases List.mem_append.mp past with before | now
    · exact (owned userId hash familyId expiresAt before).execute permitted (List.mem_of_getElem? found) before rfl
    · obtain ⟨rfl, answer⟩ := Event.mk.inj (List.mem_singleton.mp now)
      have unused := insert_unused (eq_of_heq answer).symm
      intro new there keyed
      rcases execute_tokens platform env _ config.store new there with
        ⟨row, before, evolves⟩ | ⟨owner, inserted, family, expiry, same, owns, -⟩
      · exact absurd (evolves.tokenHash.symm.trans keyed) (unused row before)
      · cases same
        exact owns
  · intro config i j env call other statement next visited permits found shape there elsewhere inv owned userId hash
      familyId expiresAt past
    exact (owned userId hash familyId expiresAt past).execute (lets_of_permits permits found shape)
      (List.mem_of_getElem? there) past rfl

theorem intoDomain_time {row : UserRow} {user : User} (parsed : row.intoDomain = .ok user) :
    row.id = user.id ∧ row.passwordChangedAt = user.passwordChangedAt := by
  obtain ⟨role, -, rfl⟩ := UserRow.intoDomain_iff.mp parsed
  exact ⟨rfl, rfl⟩

/-- What was read is an account of the database, which stays as it was. -/
theorem read_there {env : Env} {statement : Statement} {db : AuthDb} {user : User}
    (read : readIn ⟨statement, (execute platform env statement db).1⟩ = some user) :
    (execute platform env statement db).2 = db ∧ ∃ row ∈ db.users.rows, row.id = user.id ∧
      row.passwordChangedAt = user.passwordChangedAt := by
  cases statement with
  | auth statement =>
    rw [execute_auth] at read ⊢
    rcases AuthStore.execute_or_fault platform env statement db with performed | ⟨e, failed⟩
    · rw [performed] at read ⊢
      cases statement with
      | findCredentialByEmail email =>
        refine ⟨rfl, ?_⟩
        rcases found : AuthStore.findCredentialByEmail platform db email with e | (_ | cred)
        · simp [AuthStore.perform, found, readIn, userRead] at read
        · simp [AuthStore.perform, found, readIn, userRead] at read
        · simp only [AuthStore.perform, found, readIn, userRead, Option.some.injEq] at read
          obtain ⟨row, member, parsed⟩ := LoginSession.findCredentialByEmail_row found
          exact ⟨row, member, read ▸ intoDomain_time parsed⟩
      | findByIdUnscoped id =>
        refine ⟨rfl, ?_⟩
        rcases found : AuthStore.findByIdUnscoped db id with e | (_ | loaded)
        · simp [AuthStore.perform, found, readIn, userRead] at read
        · simp [AuthStore.perform, found, readIn, userRead] at read
        · simp only [AuthStore.perform, found, readIn, userRead, Option.some.injEq] at read
          obtain ⟨row, there, parsed⟩ := AuthStore.findByIdUnscoped_row found
          exact ⟨row, (Table.find_eq_some_iff.mp there).1, read ▸ intoDomain_time parsed⟩
      | _ => simp [readIn, userRead] at read
    · rw [failed] at read
      cases statement <;> cases read
  | _ => cases read

/-- An account that was read never carries an earlier time again. -/
theorem times_known (reached : (machine platform initial).Reachable config) :
    ∀ (i : Nat) call, config.calls[i]? = some call → ∀ event ∈ call.trace, ∀ user, readIn event = some user →
      NotBehind user.id user.passwordChangedAt config.store := by
  refine (store_and_calls_keep (fun _ => True) (fun store (call : Underway) => ∀ event ∈ call.trace, ∀ user,
    readIn event = some user → NotBehind user.id user.passwordChangedAt store) ?_ ?_ ?_ ?_ reached).2
  · intro store started
    trivial
  · intro store request inv event past
    cases past
  · intro config i env call statement next visited permits found shape inv known
    have permitted := lets_of_permits permits found shape
    refine ⟨trivial, fun event past user read => ?_⟩
    rcases List.mem_append.mp past with before | now
    · exact (known event before user read).execute permitted
    · cases List.mem_singleton.mp now
      obtain ⟨same, row, there, keyed, time⟩ := read_there read
      have unchanged : (AccountPrograms.execute platform env statement config.store).2 = config.store := same
      rw [show ((sessions platform initial).execute env statement config.store).2 = config.store from unchanged]
      refine ⟨keyed ▸ config.store.users.below row there, fun other member alike => ?_⟩
      rw [Table.key_inj member there (alike.trans keyed.symm), time]
      exact stamp_le_refl _
  · intro config i j env call other statement next visited permits found shape there elsewhere inv known event past user read
    exact (known event past user read).execute (lets_of_permits permits found shape)

end Runs

end SessionEndings
