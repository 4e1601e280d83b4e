import PmKonstruct.Users.SessionEndings

/- What becomes of a session when the password of its account is set: its access token is of an earlier time, and its
   refresh token has to be found revoked. -/
namespace PasswordChanges
open PlainText DecimalText DomainErrors Accounts KeyedTable TransitionRuns StatementProgram SessionPrograms SessionEndings
open AccountPrograms (Statement Answer)
open AuthStore (AuthDb Env RefreshTokenRecord)
open AuthService (LoginOutcome)

/-- The tokens are out: a login or a refresh returned them. -/
def Issued (config : Running) (outcome : LoginOutcome) : Prop :=
  ∃ call ∈ config.calls, call.running = .done (.ok (.account (.session (some outcome))))

/-- The call has set the password of the account. -/
inductive SetsPassword (call : Underway) (user : UserId) : Prop where
  | reset {submitted password hash : Text} {tokenId : Int}
      (asked : call.request = .accounts (.auth (.resetPassword submitted password)))
      (claimed : (⟨.auth (.claimResetAndSetPassword tokenId user hash), .ok true⟩ : Event Statement Answer) ∈ call.trace)
  | update {bearer hash : Text} {input : AccountPrograms.UserInput} {scope : CompanyId} {row : User}
      (asked : call.request = .accounts (.change bearer (.update user input)))
      (written : (⟨.update scope user input (some hash), .ok (some row)⟩ : Event Statement Answer) ∈ call.trace)

/-- The password was set by a call that arrived in between. -/
def PasswordSet (before after : Running) (user : UserId) : Prop :=
  ∃ (k : Nat) (call : Underway), before.calls.length ≤ k ∧ after.calls[k]? = some call ∧ SetsPassword call user

def presents (outcome : LoginOutcome) : Request → Prop
  | .accounts (.auth (.refresh presented)) => presented = outcome.refreshToken
  | request => bearerOf request = some outcome.accessToken

/-- A call that arrived in between got in with one of the tokens. -/
def Accepted (before after : Running) (outcome : LoginOutcome) : Prop :=
  ∃ (m : Nat) (call : Underway), before.calls.length ≤ m ∧ after.calls[m]? = some call ∧
    presents outcome call.request ∧ ∃ value, call.running = .done (.ok value)

section Runs
variable {platform : Platform} {initial : AuthDb → Prop} {start ended later : Running} {outcome : LoginOutcome}

/-- What the call that issued the tokens was answered. -/
structure Origin (platform : Platform) (outcome : LoginOutcome) (trace : AccountTraces.Trace) : Prop where
  read : ∃ event ∈ trace, readIn event = some outcome.user
  signed : platform.encodeAccess outcome.accessClaims = .ok outcome.accessToken
  subject : outcome.accessClaims.sub = decimal outcome.user.id
  stamped : outcome.accessClaims.passwordChangedAtMs = outcome.user.passwordChangedAt.map timestampMillis
  stored : ∃ familyId expiresAt, (⟨.auth (.insert outcome.user.id (hashRefresh platform outcome.refreshToken) familyId
    expiresAt), .ok ()⟩ : Event Statement Answer) ∈ trace

theorem ended_well (reached : (machine platform initial).Reachable later) {call : Underway} {result : Outcome}
    (member : call ∈ later.calls) (done : call.running = .done result) : Ends platform call.request call.trace result := by
  have obeys := calls_obey (fun _ _ _ => True) (Ends platform) (programs_end platform) (restrict_reachable reached) call
    member
  rwa [done] at obeys

theorem issued_origin (reached : (machine platform initial).Reachable start) (issued : Issued start outcome) :
    ∃ (k : Nat) (call : Underway), start.calls[k]? = some call ∧ Origin platform outcome call.trace := by
  obtain ⟨call, member, done⟩ := issued
  obtain ⟨k, found⟩ := List.mem_iff_getElem?.mp member
  obtain ⟨auth, ⟨read, signed, subject, stamped, stored⟩, among⟩ := (ended_well reached member done).issued outcome rfl
  refine ⟨k, call, found, ?_, signed, subject, stamped, ?_⟩
  · obtain ⟨event, past, reads⟩ := read
    exact ⟨lift event, among event past, reads⟩
  · obtain ⟨familyId, expiresAt, past⟩ := stored
    exact ⟨familyId, expiresAt, among _ past⟩

/-- The answers of that call are there at every later moment. -/
theorem origin_stays (reached : (machine platform initial).Reachable start) (issued : Issued start outcome)
    (leads : (machine platform initial).Leads start later) :
    (∃ (k : Nat) (call : Underway), later.calls[k]? = some call ∧ ∃ event ∈ call.trace, readIn event = some outcome.user) ∧
    ∃ (k : Nat) (call : Underway), later.calls[k]? = some call ∧ ∃ familyId expiresAt,
      (⟨.auth (.insert outcome.user.id (hashRefresh platform outcome.refreshToken) familyId expiresAt), .ok ()⟩ :
        Event Statement Answer) ∈ call.trace := by
  obtain ⟨k, call, found, origin⟩ := issued_origin reached issued
  constructor
  · obtain ⟨event, past, reads⟩ := origin.read
    obtain ⟨same, there, kept⟩ := events_stay leads k call found event past
    exact ⟨k, same, there, event, kept, reads⟩
  · obtain ⟨familyId, expiresAt, past⟩ := origin.stored
    obtain ⟨same, there, kept⟩ := events_stay leads k call found _ past
    exact ⟨k, same, there, familyId, expiresAt, kept⟩

/- The access token. -/

theorem set_marks {call : Underway} {user : UserId} (sets : SetsPassword call user) :
    ∃ event ∈ call.trace, setEvent event = some user := by
  cases sets with
  | reset asked claimed => exact ⟨_, claimed, rfl⟩
  | update asked written => exact ⟨_, written, rfl⟩

/-- From the change on, the account carries a later time than the one in the access token. -/
theorem change_outdates (reached : (machine platform initial).Reachable start) (issued : Issued start outcome)
    (leads : (machine platform initial).Leads start ended) (changed : PasswordSet start ended outcome.user.id) :
    Outdated outcome.user.id outcome.user.passwordChangedAt ended.store := by
  obtain ⟨k, call, new, there, sets⟩ := changed
  refine marked_later (fun event => setEvent event = some outcome.user.id)
    (Outdated outcome.user.id outcome.user.passwordChangedAt) reached leads ?_ ?_ k call new there (set_marks sets)
  · intro now i env other statement next visited since permits found shape answered
    obtain ⟨⟨j, source, index, event, past, reads⟩, -⟩ := origin_stays reached issued since
    exact set_outdates (times_known visited j source index event past _ reads) (lets_of_permits permits found shape) answered
  · intro now i env other statement next visited since permits found shape outdated
    exact outdated.execute (lets_of_permits permits found shape)

/-- A statement of authentication that was answered with a reply is answered by the database. -/
theorem auth_answered {env : Env} {statement : Statement} {db : AuthDb} {asked : AuthStore.Statement}
    {reply : AuthStore.Reply asked}
    (same : (⟨statement, (AccountPrograms.execute platform env statement db).1⟩ : Event Statement Answer) =
      ⟨.auth asked, .ok reply⟩) :
    statement = .auth asked ∧ (AuthStore.perform platform env asked db).1 = .ok reply := by
  obtain ⟨rfl, answer⟩ := Event.mk.inj same
  have answered := eq_of_heq answer
  rw [execute_auth] at answered
  rw [AuthStore.execute_of_ok answered] at answered
  exact ⟨rfl, answered⟩

/-- An account that is found carries a later time than the one in the access token. -/
def ShowsLater (outcome : LoginOutcome) (event : Event Statement Answer) : Prop :=
  ∀ user, event = ⟨.auth (.findByIdUnscoped outcome.user.id), .ok (some user)⟩ →
    stamp outcome.user.passwordChangedAt < stamp user.passwordChangedAt

theorem outdated_shows {env : Env} {statement : Statement} {db : AuthDb}
    (outdated : Outdated outcome.user.id outcome.user.passwordChangedAt db) :
    ShowsLater outcome ⟨statement, (AccountPrograms.execute platform env statement db).1⟩ := by
  intro user same
  obtain ⟨rfl, answered⟩ := auth_answered same
  obtain ⟨row, there, parsed⟩ := AuthStore.findByIdUnscoped_row answered
  obtain ⟨member, keyed⟩ := Table.find_eq_some_iff.mp there
  have later := outdated.rows row member keyed
  rwa [(intoDomain_time parsed).2] at later

theorem access_refused (signed : ∀ now claims token read, platform.encodeAccess claims = .ok token →
      platform.decodeAccess now token = some read → read = claims)
    {trace past : AccountTraces.Trace} {auth : AuthTrace} (origin : Origin platform outcome trace)
    (shows : ∀ event ∈ past, ShowsLater outcome event) (among : ∀ event ∈ auth, lift event ∈ past) :
    ¬ ResolvedBy platform auth outcome.accessToken := by
  rintro ⟨now, claims, userId, user, decoded, subject, found, stamped⟩
  have same := signed now _ _ _ origin.signed decoded
  subst same
  have id : userId = outcome.user.id := by
    simp only [AccessClaims.userId, origin.subject] at subject
    split at subject
    · cases subject
    · next parsed =>
      cases subject
      exact parseI32_decimal_eq parsed
  subst id
  have later := shows _ (among _ found) user rfl
  rw [stamp, stamp, stamped, origin.stamped] at later
  exact (stamp_lt_iff.mp later).2 (stamp_lt_iff.mp later).1

/- The refresh token. -/

/-- The sessions of the account are over: all were revoked, or an update found none. -/
def endsFor : Event Statement Answer → Option UserId
  | ⟨.update _ id _ (some _), .ok (some _)⟩ => some id
  | event => revokedFor event

theorem endsFor_eq {event : Event Statement Answer} {user : UserId} (ends : endsFor event = some user) :
    (∃ scope input hash row, event = ⟨.update scope user input (some hash), .ok (some row)⟩) ∨
      ∃ count, event = ⟨.auth (.revokeAllForUser user), .ok count⟩ := by
  unfold endsFor at ends
  split at ends
  · cases ends
    exact .inl ⟨_, _, _, _, rfl⟩
  · unfold revokedFor at ends
    split at ends
    · cases ends
      exact .inr ⟨_, rfl⟩
    · cases ends

theorem set_ends {call : Underway} {user : UserId} (sets : SetsPassword call user) :
    ∃ event ∈ call.trace, claimedFor event = some user ∨ endsFor event = some user := by
  cases sets with
  | reset asked claimed => exact ⟨_, claimed, .inl rfl⟩
  | update asked written => exact ⟨_, written, .inr rfl⟩

theorem ends_dead {now : Running} {env : Env} {statement : Statement} {user : UserId} {hash : Text}
    (owned : OwnedBy user hash now.store) (permitted : lets now env statement = true)
    (ends : endsFor ⟨statement, (AccountPrograms.execute platform env statement now.store).1⟩ = some user) :
    Dead hash (AccountPrograms.execute platform env statement now.store).2 := by
  intro new member keyed
  rcases execute_tokens platform env statement now.store new member with
    ⟨row, there, evolves⟩ | ⟨owner, inserted, familyId, expiresAt, same, -, -⟩
  · have owner := owned row there (evolves.tokenHash.symm.trans keyed)
    rcases endsFor_eq ends with ⟨scope, input, password, user, same⟩ | ⟨count, same⟩
    · obtain ⟨rfl, -⟩ := Event.mk.inj same
      simp only [lets, Bool.and_eq_true, List.all_eq_true] at permitted
      have spent : unfit row = true := by simpa [owner] using permitted.2 row there
      simp only [unfit, Bool.or_eq_true] at spent ⊢
      exact spent.imp evolves.revoked evolves.used
    · obtain ⟨rfl, answer⟩ := Event.mk.inj same
      have revoked := revokeAll_revokes (eq_of_heq answer) new member (evolves.userId.trans owner)
      rw [unfit, revoked, Bool.true_or]
  · subst same
    rcases endsFor_eq ends with ⟨_, _, _, _, same⟩ | ⟨_, same⟩ <;> cases (Event.mk.inj same).1

/-- Once a call that came later is answered that the sessions are over, no token with this hash is fit for use. -/
theorem change_kills (reached : (machine platform initial).Reachable start) (issued : Issued start outcome)
    (leads : (machine platform initial).Leads start later) {k : Nat} {call : Underway} (new : start.calls.length ≤ k)
    (there : later.calls[k]? = some call) (ends : ∃ event ∈ call.trace, endsFor event = some outcome.user.id) :
    Dead (hashRefresh platform outcome.refreshToken) later.store := by
  refine marked_later (fun event => endsFor event = some outcome.user.id)
    (Dead (hashRefresh platform outcome.refreshToken)) reached leads ?_ ?_ k call new there ends
  · intro now i env other statement next visited since permits found shape ended
    obtain ⟨-, j, source, index, familyId, expiresAt, past⟩ := origin_stays reached issued since
    exact ends_dead (tokens_owned visited j source index _ _ _ _ past) (lets_of_permits permits found shape) ended
  · intro now i env other statement next visited since permits found shape dead
    obtain ⟨-, j, source, index, familyId, expiresAt, past⟩ := origin_stays reached issued since
    exact dead.execute (lets_of_permits permits found shape) (List.mem_of_getElem? index) past rfl

/-- When a token is looked up after the change, its account is not halfway through a reset: the sessions are over. -/
theorem lookup_dead (reached : (machine platform initial).Reachable start) (issued : Issued start outcome)
    (leads : (machine platform initial).Leads start later) {k : Nat} {call : Underway} (new : start.calls.length ≤ k)
    (there : later.calls[k]? = some call) {event : Event Statement Answer} (past : event ∈ call.trace)
    (set : claimedFor event = some outcome.user.id ∨ endsFor event = some outcome.user.id) {env : Env}
    (permitted : lets later env (.auth (.findByHash (hashRefresh platform outcome.refreshToken))) = true) :
    Dead (hashRefresh platform outcome.refreshToken) later.store := by
  by_cases gone : ∃ event ∈ call.trace, endsFor event = some outcome.user.id
  · exact change_kills reached issued leads new there gone
  · intro row member keyed
    rcases set with claimed | ended
    · have unrevoked : ∀ event ∈ call.trace, revokedFor event ≠ some outcome.user.id := by
        intro other among revoked
        refine gone ⟨other, among, ?_⟩
        unfold revokedFor at revoked
        split at revoked
        · exact revoked
        · cases revoked
      have half : halfway later outcome.user.id = true := by
        simp only [halfway, List.any_eq_true, Bool.and_eq_true, Bool.not_eq_true', List.any_eq_false, decide_eq_true_eq]
        exact ⟨call, List.mem_of_getElem? there, ⟨event, past, claimed⟩, unrevoked⟩
      obtain ⟨-, j, source, index, familyId, expiresAt, stored⟩ := origin_stays reached issued leads
      have owner : row.userId = outcome.user.id :=
        tokens_owned (Reachable.leads reached leads) j source index _ _ _ _ stored row member keyed
      simp only [lets, List.all_eq_true] at permitted
      simpa [keyed, owner, half] using permitted row member
    · exact absurd ⟨event, past, ended⟩ gone

/-- The token is not found fit for use. -/
def ShowsUnfit (platform : Platform) (outcome : LoginOutcome) (event : Event Statement Answer) : Prop :=
  ∀ record : RefreshTokenRecord, event = ⟨.auth (.findByHash (hashRefresh platform outcome.refreshToken)),
    .ok (some record)⟩ → record.revokedAt.isSome ∨ record.usedAt.isSome

theorem dead_shows {env : Env} {statement : Statement} {db : AuthDb}
    (dead : statement = .auth (.findByHash (hashRefresh platform outcome.refreshToken)) →
      Dead (hashRefresh platform outcome.refreshToken) db) :
    ShowsUnfit platform outcome ⟨statement, (AccountPrograms.execute platform env statement db).1⟩ := by
  intro record same
  obtain ⟨rfl, answered⟩ := auth_answered same
  obtain ⟨row, member, keyed, rfl⟩ := RefreshTokens.findByHash_found (Except.ok.inj answered)
  have spent := dead rfl row member keyed
  rwa [unfit, Bool.or_eq_true] at spent

theorem refresh_refused {past : AccountTraces.Trace} {auth : AuthTrace}
    (shows : ∀ event ∈ past, ShowsUnfit platform outcome event) (among : ∀ event ∈ auth, lift event ∈ past) :
    ¬ FoundFit platform auth outcome.refreshToken := by
  rintro ⟨record, found, unrevoked, unused⟩
  rcases shows _ (among _ found) record rfl with revoked | used
  · simp [unrevoked] at revoked
  · simp [unused] at used

/-- After a change of password, no token from before it gets anybody in. -/
theorem change_ends_sessions (signed : ∀ now claims token read, platform.encodeAccess claims = .ok token →
      platform.decodeAccess now token = some read → read = claims)
    (reached : (machine platform initial).Reachable start) (issued : Issued start outcome)
    (leads : (machine platform initial).Leads start ended) (changed : PasswordSet start ended outcome.user.id)
    (on : (machine platform initial).Leads ended later) : ¬ Accepted ended later outcome := by
  rintro ⟨m, call, new, there, presented, value, done⟩
  have reachedEnded := Reachable.leads reached leads
  have ends := ended_well (Reachable.leads reachedEnded on) (List.mem_of_getElem? there) done
  have access : bearerOf call.request ≠ some outcome.accessToken := by
    intro bearer
    obtain ⟨auth, resolved, among⟩ := ends.resolved _ value bearer rfl
    obtain ⟨k, source, index, origin⟩ := issued_origin reached issued
    refine access_refused signed origin ?_ among resolved
    refine answers_later (ShowsLater outcome) reachedEnded on ?_ m call new there
    intro now i env other statement next visited since permits found shape
    refine outdated_shows (holds_later (Outdated outcome.user.id outcome.user.passwordChangedAt) reachedEnded since
      (change_outdates reached issued leads changed) ?_)
    intro now i env other statement next visited since permits found shape outdated
    exact outdated.execute (lets_of_permits permits found shape)
  have refresh : call.request ≠ .accounts (.auth (.refresh outcome.refreshToken)) := by
    intro asked
    obtain ⟨auth, fit, among⟩ := ends.rotated _ value asked rfl
    refine refresh_refused ?_ among fit
    refine answers_later (ShowsUnfit platform outcome) reachedEnded on ?_ m call new there
    intro now i env other statement next visited since permits found shape
    refine dead_shows ?_
    rintro rfl
    obtain ⟨k, changing, later, index, sets⟩ := changed
    obtain ⟨event, past, set⟩ := set_ends sets
    obtain ⟨same, stayed, kept⟩ := events_stay since k changing index event past
    exact lookup_dead reached issued (leads.trans since) later stayed kept set (lets_of_permits permits found shape)
  unfold presents at presented
  split at presented
  · next asked => exact refresh (presented ▸ asked)
  · exact access presented

end Runs

/- The sample account signs in, sets its password, and comes back with the refresh token from before. -/

/-- Tells the first token of the sample account from every other. -/
def tellingPlatform : Platform :=
  { LoginSession.signingPlatform with
    encodeAccess := fun claims => .ok (if claims = LoginSession.sampleClaims then text "jwt" else text "later") }

theorem telling_signed (now : Instant) (claims : AccessClaims) (token : Text) (read : AccessClaims)
    (encoded : tellingPlatform.encodeAccess claims = .ok token)
    (decoded : tellingPlatform.decodeAccess now token = some read) : read = claims := by
  simp only [tellingPlatform, LoginSession.signingPlatform, Except.ok.injEq] at encoded decoded
  split at encoded
  · next same =>
    subst encoded
    simpa [same, eq_comm] using decoded
  · subst encoded
    simp [text] at decoded

/-- One account with a link to reset its password. -/
def linkedDb : AuthDb :=
  { AuthService.sampleDb with
    companies := .of [⟨1, true, none, none, some 3⟩] 2 (Eq.refl true)
    passwordResetTokens := .of [⟨1, 1, text "link", 3600000000, none⟩] 2 (Eq.refl true) }

abbrev onLinked (db : AuthDb) : Prop := db = linkedDb

/-- So many statements of one call, at this moment and with this draw. -/
def turnsAt (i count : Nat) (now : Instant) (token : Text) : List (Label Request Env) :=
  List.replicate count (.advance i (AuthService.sampleEnv now token))

def signIn : List (Label Request Env) :=
  .invoke (.accounts (.auth (.login (text "sarah@example.com") (text "secret")))) :: turnsAt 0 5 0 (text "second")

def update : List (Label Request Env) :=
  .invoke (.accounts (.change (text "jwt") (.update 1 ⟨text "Sarah", text "sarah@example.com", .manager, none, true,
    some (text "new secret")⟩))) :: turnsAt 1 7 1000 []

def reset : List (Label Request Env) :=
  .invoke (.accounts (.auth (.resetPassword (text "link") (text "new secret")))) :: turnsAt 1 4 1000 []

def comeBack (count : Nat) : List (Label Request Env) :=
  .invoke (.accounts (.auth (.refresh (text "second")))) :: turnsAt 2 count 2000 (text "third")

def sampleOutcome : LoginOutcome :=
  ⟨text "jwt", LoginSession.sampleClaims, text "second",
    ⟨1, 1, text "Sarah", text "sarah@example.com", .manager, none, true, none⟩⟩

theorem update_leaves_session : ∃ start ended later : Running,
    (sessions tellingPlatform onLinked).machine.Reachable start ∧ Issued start sampleOutcome ∧
    (sessions tellingPlatform onLinked).machine.Leads start ended ∧ PasswordSet start ended sampleOutcome.user.id ∧
    (sessions tellingPlatform onLinked).machine.Leads ended later ∧ Accepted ended later sampleOutcome := by
  have first : ∃ start, (sessions tellingPlatform onLinked).machine.execute ⟨linkedDb, []⟩ signIn = some start ∧
      Issued start sampleOutcome ∧ ∃ ended, (sessions tellingPlatform onLinked).machine.execute start update = some ended ∧
      PasswordSet start ended 1 ∧
      ∃ later, (sessions tellingPlatform onLinked).machine.execute ended (comeBack 7) = some later ∧
      Accepted ended later sampleOutcome := by
    refine ⟨_, rfl, ⟨_, List.mem_singleton_self _, rfl⟩, _, rfl, ⟨1, _, by decide, rfl, ?_⟩, _, rfl,
      ⟨2, _, by decide, rfl, rfl, _, rfl⟩⟩
    exact @SetsPassword.update _ _ _ (text "$argon2id$new secret") _ 1
      { sampleOutcome.user with passwordChangedAt := some 1000 } rfl
      (@List.mem_of_getElem? _ _ 6 _ rfl)
  obtain ⟨start, ran, issued, ended, changed, set, later, cameBack, accepted⟩ := first
  have initial : (sessions tellingPlatform onLinked).machine.initial ⟨linkedDb, []⟩ := ⟨rfl, rfl⟩
  exact ⟨start, ended, later, execute_reachable initial ran, issued, execute_leads changed, set, execute_leads cameBack,
    accepted⟩

theorem reset_ends_session : ∃ start ended later : Running, (machine tellingPlatform onLinked).Reachable start ∧
    Issued start sampleOutcome ∧ (machine tellingPlatform onLinked).Leads start ended ∧
    PasswordSet start ended sampleOutcome.user.id ∧ (machine tellingPlatform onLinked).Leads ended later ∧
    (∃ call, later.calls[2]? = some call ∧ presents sampleOutcome call.request ∧ call.live = false) ∧
    ¬ Accepted ended later sampleOutcome := by
  have run : ∃ start, (machine tellingPlatform onLinked).execute ⟨linkedDb, []⟩ signIn = some start ∧
      Issued start sampleOutcome ∧ ∃ ended, (machine tellingPlatform onLinked).execute start reset = some ended ∧
      PasswordSet start ended 1 ∧ ∃ later, (machine tellingPlatform onLinked).execute ended (comeBack 1) = some later ∧
      ∃ call, later.calls[2]? = some call ∧ presents sampleOutcome call.request ∧ call.live = false := by
    refine ⟨_, rfl, ⟨_, List.mem_singleton_self _, rfl⟩, _, rfl, ⟨1, _, by decide, rfl, ?_⟩, _, rfl, _, rfl, rfl, rfl⟩
    exact @SetsPassword.reset _ _ (text "link") (text "new secret") (text "$argon2id$new secret") 1 rfl
      (@List.mem_of_getElem? _ _ 2 _ rfl)
  obtain ⟨start, ran, issued, ended, changed, set, later, cameBack, presented⟩ := run
  have initial : (machine tellingPlatform onLinked).initial ⟨linkedDb, []⟩ := ⟨rfl, rfl⟩
  have reached := execute_reachable initial ran
  have leads := execute_leads changed
  have on := execute_leads cameBack
  exact ⟨start, ended, later, reached, issued, leads, set, on, presented,
    change_ends_sessions telling_signed reached issued leads set on⟩

end PasswordChanges
