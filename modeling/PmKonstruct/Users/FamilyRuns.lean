import PmKonstruct.Identity.RefreshFamilies
import PmKonstruct.Users.SessionEndings

/- The refresh tokens under every call on the accounts, when calls run one after another. -/
namespace FamilyRuns
open PlainText DomainErrors Accounts KeyedTable TransitionRuns StatementProgram RefreshFamilies
open AuthStore (AuthDb Env)
open RefreshTokens (HashUnique)
open Revocation (Live)

/- The calls on the accounts only resolve a session and read and write accounts. -/

def spares : AccountPrograms.Statement → Prop
  | .auth statement => changesTokens statement = false
  | _ => True

abbrev Spares {α : Type} (past : AccountTraces.Trace) (action : AccountPrograms.Action α) : Prop :=
  action.Obeys (fun _ => spares) (fun _ _ => True) past

section Accounts
variable {platform : Platform} {db : AuthDb} {α β : Type} {past : AccountTraces.Trace} {s : AuthService.SessionUser}
    {id : UserId} {input : AccountPrograms.UserInput}

theorem authenticating_ensures {next : α → AccountPrograms.Action β} {action : AuthService.Action α}
    {Ends : Except AppError α → AuthDb → Prop} {After : Except AppError β → AuthDb → Prop}
    (ensures : Ensures platform Ends action db) (fails : ∀ e db, Ends (.error e) db → After (.error e) db)
    (goes : ∀ value db, Ends (.ok value) db → (next value).Ensures (AccountPrograms.execute platform) After db) :
    (AccountPrograms.authenticating next action).Ensures (AccountPrograms.execute platform) After db := by
  induction action generalizing db with
  | done result =>
    cases result with
    | error e => exact fails e db ensures
    | ok value => exact goes value db ensures
  | stmt statement rest ih =>
    intro env
    rw [SessionEndings.execute_auth]
    exact ih _ (ensures env)

theorem perform_familiesDrawn {env : Env} {statement : AccountPrograms.Statement}
    (unauth : ∀ auth, statement ≠ .auth auth) :
    (AccountPrograms.perform platform env statement db).2.familiesDrawn = db.familiesDrawn := by
  cases statement with
  | auth statement => exact absurd rfl (unauth statement)
  | find scope id => rfl
  | activeCount scope => rfl
  | create scope input hash =>
    simp only [AccountPrograms.perform, AccountPrograms.createUser]
    split
    · split
      · rfl
      · split <;> rfl
    · rfl
  | update scope id input hash =>
    simp only [AccountPrograms.perform, AccountPrograms.updateUser]
    split
    · rfl
    · split <;> rfl
  | delete scope id =>
    simp only [AccountPrograms.perform, AccountPrograms.deleteUser]
    split <;> rfl

theorem spares_sound (env : Env) (statement : AccountPrograms.Statement) (db : AuthDb) (spared : spares statement)
    (sound : Sound platform db) : Sound platform (AccountPrograms.execute platform env statement db).2 := by
  by_cases auth : ∃ auth, statement = .auth auth
  · obtain ⟨auth, rfl⟩ := auth
    rw [SessionEndings.execute_auth]
    exact (execute_kept spared).sound sound
  · have unauth : ∀ auth, statement ≠ .auth auth := fun other same => auth ⟨other, same⟩
    rcases SessionEndings.execute_cases platform env statement db with performed | ⟨e, failed⟩
    · rw [performed]
      exact sound_fewer sound (Nat.le_of_eq (perform_familiesDrawn unauth).symm) (SessionEndings.perform_tokens unauth)
    · rw [failed]
      exact sound

theorem spares_call {statement : AccountPrograms.Statement}
    {next : AccountPrograms.Reply statement → AccountPrograms.Action α}
    (here : spares statement) (later : ∀ reply past, Spares past (next reply)) :
    Spares past (AccountPrograms.call statement next) := by
  refine ⟨here, ?_⟩
  rintro (e | reply)
  · trivial
  · exact later reply _

theorem spares_managerOnly {bearer : Text} {next : AuthService.SessionUser → AccountPrograms.Action α}
    (later : ∀ s past, Spares past (next s)) : Spares past (AccountPrograms.managerOnly platform bearer next) := by
  rw [AccountPrograms.managerOnly, AuthService.resolveSession, AccountTraces.authenticating_call]
  refine spares_call rfl fun now past => ?_
  cases platform.decodeAccess now bearer with
  | none => trivial
  | some claims =>
    simp only
    cases claims.userId with
    | error e => trivial
    | ok userId =>
      simp only
      rw [AccountTraces.authenticating_call]
      refine spares_call rfl fun found past => ?_
      cases found with
      | none => trivial
      | some user =>
        simp only
        split
        · trivial
        · split
          · trivial
          · rw [AccountTraces.authenticating_call]
            refine spares_call rfl fun permissions past => ?_
            rw [AccountTraces.authenticating_call]
            refine spares_call rfl fun entitlement past => ?_
            rw [AccountPrograms.authenticating]
            split
            · trivial
            · split
              · trivial
              · exact later _ _

theorem spares_withSeat {activating : Bool} {next : AccountPrograms.Action User} (later : ∀ past, Spares past next) :
    Spares past (AccountPrograms.withSeat s activating next) := by
  refine spares_call rfl fun entitlement past => spares_call trivial fun inUse past => ?_
  simp only
  split
  · trivial
  · exact later _

theorem spares_hashing {password : Text} {next : Text → AccountPrograms.Action User}
    (later : ∀ hash past, Spares past (next hash)) : Spares past (AccountPrograms.hashing platform password next) := by
  refine spares_call rfl fun salt past => ?_
  split
  · trivial
  · exact later _ _

theorem spares_seated {activating needed : Bool} {next : AccountPrograms.Action User}
    (later : ∀ past, Spares past next) :
    Spares past (if needed then AccountPrograms.withSeat s activating next else next) := by
  split
  · exact spares_withSeat later
  · exact later past

theorem spares_create : Spares past (AccountPrograms.create platform s input) := by
  unfold AccountPrograms.create
  split
  · trivial
  · refine spares_seated fun past => ?_
    split
    · trivial
    · exact spares_hashing fun hash past => spares_call trivial fun user past => trivial

theorem spares_write {hash : Option Text} : Spares past (AccountPrograms.write s id input hash) := by
  refine spares_call trivial fun user past => ?_
  cases user <;> trivial

theorem spares_get {next : User → AccountPrograms.Action α} (later : ∀ user past, Spares past (next user)) :
    Spares past (AccountPrograms.get s id next) := by
  refine spares_call trivial fun found past => ?_
  cases found with
  | none => trivial
  | some user => exact later user past

theorem spares_update : Spares past (AccountPrograms.update platform s id input) := by
  unfold AccountPrograms.update
  split
  · trivial
  · refine spares_get fun existing past => ?_
    split
    · trivial
    · refine spares_seated fun past => ?_
      split
      · exact spares_write
      · split
        · exact spares_write
        · exact spares_hashing fun hash past => spares_write

theorem spares_delete : Spares past (AccountPrograms.delete s id) := by
  unfold AccountPrograms.delete
  split
  · trivial
  · refine spares_get fun existing past => spares_call trivial fun deleted past => ?_
    cases deleted <;> trivial

theorem programs_sound (request : AccountPrograms.Request) (fresh : Function.Injective platform.uuid)
    (sound : Sound platform db) : (AccountPrograms.programOf platform request).Ensures
      (AccountPrograms.execute platform) (fun _ => Sound platform) db := by
  cases request with
  | auth request =>
    have ensures : Ensures platform (fun _ => Sound platform) (AuthService.programOf platform request) db := by
      cases request with
      | login email passwordInput => exact ensures_mapResult.mpr (login_sound fresh sound)
      | refresh presented => exact ensures_mapResult.mpr (refresh_sound sound)
      | logout presented => exact ensures_mapResult.mpr (logout_sound sound)
      | resetPassword submitted password => exact ensures_mapResult.mpr (resetPassword_sound sound)
    exact authenticating_ensures ensures (fun _ _ sound => sound) fun _ _ sound => sound
  | change bearer change =>
    have spared : Spares [] (AccountPrograms.programOf platform (.change bearer change)) := by
      refine spares_managerOnly fun s past => ?_
      cases change with
      | create input => exact obeys_mapResult.mpr spares_create
      | update id input => exact obeys_mapResult.mpr spares_update
      | delete id => exact obeys_mapResult.mpr spares_delete
    exact ensures_of_obeys spares_sound spared sound

end Accounts

/- Calls that run one after another. -/

/-- Each call runs to its end, under any clock, draws and faults, before the next begins. -/
def oneByOne (platform : Platform) : Machine AuthDb (AccountPrograms.Request × (Nat → Env)) where
  initial db := db.refreshTokens.rows = []
  step db label :=
    some ((AccountPrograms.programOf platform label.1).runFrom (AccountPrograms.execute platform) label.2 0 db).2
  allowed _ _ := true

section Runs
variable {platform : Platform} {db : AuthDb}

theorem reachable_sound (fresh : Function.Injective platform.uuid) (reached : (oneByOne platform).Reachable db) :
    Sound platform db := by
  apply Reachable.invariant (Sound platform) reached
  · intro start empty
    have nothing : start.refreshTokens.rows = [] := empty
    constructor <;> simp [nothing, HashUnique]
  · rintro before after ⟨request, envs⟩ sound - step
    cases step
    exact (programs_sound request fresh sound).runFrom envs 0

/-- Presenting a used token ends its family, unless a statement of that call failed: the error is then returned before or
    instead of the revocation, and the family lives on. -/
theorem one_live_each (fresh : Function.Injective platform.uuid) (reached : (oneByOne platform).Reachable db) :
    (∀ a ∈ db.refreshTokens.rows, ∀ b ∈ db.refreshTokens.rows, a.familyId = b.familyId → Live a → Live b → a = b) ∧
    ∀ presented envs, ∀ row ∈ db.refreshTokens.rows, row.tokenHash = hashRefresh platform presented → row.usedAt.isSome →
      let ran := (AccountPrograms.programOf platform (.auth (.refresh presented))).runFrom (AccountPrograms.execute platform)
        envs 0 db
      (∃ e, ran.1 = .error (.port e)) ∨
        ∀ other ∈ ran.2.refreshTokens.rows, other.familyId = row.familyId → ¬ Live other := by
  have sound := reachable_sound fresh reached
  refine ⟨sound.single, fun presented envs row member hash used => ?_⟩
  have revokes : Ensures platform (fun result after => (∃ e, result = .error (.port e)) ∨
      ∀ other ∈ after.refreshTokens.rows, other.familyId = row.familyId → ¬ Live other)
      (AuthService.programOf platform (.refresh presented)) db := by
    refine ensures_mapResult.mpr ((reuse_revokes sound member hash used).imp ?_)
    rintro result after (⟨e, rfl⟩ | dead)
    · exact .inl ⟨e, rfl⟩
    · exact .inr dead
  have ends : (AccountPrograms.programOf platform (.auth (.refresh presented))).Ensures (AccountPrograms.execute platform)
      (fun result after => (∃ e, result = .error (.port e)) ∨
        ∀ other ∈ after.refreshTokens.rows, other.familyId = row.familyId → ¬ Live other) db := by
    refine authenticating_ensures revokes ?_ ?_
    · rintro e after (⟨port, same⟩ | dead)
      · cases same
        exact .inl ⟨port, rfl⟩
      · exact .inr dead
    · rintro value after (⟨port, same⟩ | dead)
      · cases same
      · exact .inr dead
  exact ends.runFrom envs 0

end Runs

/- A login that is refreshed once, and the first token presented again. -/

def noTokens : AuthDb := { AuthService.sampleDb with refreshTokens := .empty }

def under (token : String) : Nat → Env := fun n => AuthService.sampleEnv n (text token)

def loginThenRefresh : List (AccountPrograms.Request × (Nat → Env)) :=
  [(.auth (.login (text "sarah@example.com") (text "secret")), under "first"),
    (.auth (.refresh (text "first")), under "second")]

/-- The database loses the second statement, which is the revocation. -/
def losingSecond (token : String) : Nat → Env := fun n =>
  { under token n with fault := if n = 1 then some (.unavailable "postgres" "connection reset") else none }

def againFirst (envs : Nat → Env) (db : AuthDb) : AccountPrograms.Outcome × AuthDb :=
  (AccountPrograms.programOf AuthService.samplePlatform (.auth (.refresh (text "first")))).runFrom
    (AccountPrograms.execute AuthService.samplePlatform) envs 0 db

theorem loginThenRefresh_run : ∃ db, (oneByOne AuthService.samplePlatform).Reachable db ∧
    db.refreshTokens.rows.map (fun row => (row.tokenHash, row.familyId, row.usedAt.isSome)) =
      [(text "first", 1, true), (text "second", 1, false)] ∧
    (∃ row ∈ db.refreshTokens.rows, row.tokenHash = hashRefresh AuthService.samplePlatform (text "first") ∧
      row.usedAt.isSome ∧ row.familyId = 1) ∧
    (againFirst (under "third") db).1 = .error .invalidToken ∧
    ∃ other ∈ (againFirst (losingSecond "third") db).2.refreshTokens.rows, other.familyId = 1 ∧ Live other := by
  have start : (oneByOne AuthService.samplePlatform).initial noTokens := rfl
  have run : ∃ db, (oneByOne AuthService.samplePlatform).execute noTokens loginThenRefresh = some db ∧
      db.refreshTokens.rows.map (fun row => (row.tokenHash, row.familyId, row.usedAt.isSome)) =
        [(text "first", 1, true), (text "second", 1, false)] ∧
      (∃ row ∈ db.refreshTokens.rows, row.tokenHash = hashRefresh AuthService.samplePlatform (text "first") ∧
        row.usedAt.isSome ∧ row.familyId = 1) ∧
      (againFirst (under "third") db).1 = .error .invalidToken ∧
      ∃ other ∈ (againFirst (losingSecond "third") db).2.refreshTokens.rows, other.familyId = 1 ∧ Live other :=
    ⟨_, rfl, by decide +kernel, ⟨_, .head _, by decide +kernel, rfl, rfl⟩, rfl, _, .tail _ (.head _), rfl, rfl, rfl⟩
  obtain ⟨db, ran, facts⟩ := run
  exact ⟨db, execute_reachable start ran, facts⟩

theorem reuse_ends_family : ∃ db, (oneByOne AuthService.samplePlatform).Reachable db ∧
    db.refreshTokens.rows.map (fun row => (row.tokenHash, row.familyId, row.usedAt.isSome)) =
      [(text "first", 1, true), (text "second", 1, false)] ∧
    ∀ other ∈ (againFirst (under "third") db).2.refreshTokens.rows, other.familyId = 1 → ¬ Live other := by
  obtain ⟨db, reached, tokens, ⟨row, member, hash, used, family⟩, refused, -⟩ := loginThenRefresh_run
  refine ⟨db, reached, tokens, ?_⟩
  rcases (one_live_each Function.injective_id reached).2 (text "first") (under "third") row member hash used with
    ⟨e, failed⟩ | dead
  · have ended : (againFirst (under "third") db).1 = .error (.port e) := failed
    rw [refused] at ended
    cases ended
  · rw [← family]
    exact dead

/-- The failed revocation leaves the newest token of the family live. -/
theorem reuse_survives_fault : ¬ ∀ (platform : Platform) (db : AuthDb), Function.Injective platform.uuid →
    (oneByOne platform).Reachable db → ∀ presented envs, ∀ row ∈ db.refreshTokens.rows,
    row.tokenHash = hashRefresh platform presented → row.usedAt.isSome →
      ∀ other ∈ ((AccountPrograms.programOf platform (.auth (.refresh presented))).runFrom
          (AccountPrograms.execute platform) envs 0 db).2.refreshTokens.rows,
        other.familyId = row.familyId → ¬ Live other := by
  intro ends
  obtain ⟨db, reached, -, ⟨row, member, hash, used, family⟩, -, other, there, same, live⟩ := loginThenRefresh_run
  exact ends AuthService.samplePlatform db Function.injective_id reached (text "first") (losingSecond "third") row member
    hash used other there (same.trans family.symm) live

end FamilyRuns
