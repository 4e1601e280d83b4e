import PmKonstruct.Identity.LoginSession
import PmKonstruct.Users.AccountTraces

/- The accounts together with the resolution of sessions, and what a call was answered before it issued a token, accepted
   one or set a password. -/
namespace SessionPrograms
open PlainText DecimalText DomainErrors Accounts StatementProgram
open AuthService (LoginOutcome SessionUser)
open AuthStore (AuthDb Env RefreshTokenRecord)

inductive Request where
  | accounts (request : AccountPrograms.Request)
  | resolve (bearer : Text)

inductive Returned where
  | account (returned : AccountPrograms.Returned)
  | session (s : SessionUser)

abbrev Outcome : Type := Except AppError Returned

def programOf (platform : Platform) : Request → Program AccountPrograms.Statement AccountPrograms.Answer Outcome
  | .accounts request => (AccountPrograms.programOf platform request).mapResult (·.map .account)
  | .resolve bearer =>
    AccountPrograms.authenticating (fun s => .done (.ok (.session s))) (AuthService.resolveSession platform bearer)

def sessions (platform : Platform) (initial : AuthDb → Prop) :
    Service AccountPrograms.Statement AccountPrograms.Answer Outcome Request Env AuthDb where
  program := programOf platform
  execute := AccountPrograms.execute platform
  initial := initial
  admits := fun _ _ _ => true

abbrev Underway : Type := Call AccountPrograms.Statement AccountPrograms.Answer Outcome Request

abbrev Running : Type := Config AccountPrograms.Statement AccountPrograms.Answer Outcome Request AuthDb

/- What the calls of authentication were answered by the time they end. -/

abbrev AuthTrace : Type := List (Event AuthStore.Statement AuthStore.Answer)

def userRead : Event AuthStore.Statement AuthStore.Answer → Option User
  | ⟨.findCredentialByEmail _, .ok (some cred)⟩ => some cred.user
  | ⟨.findByIdUnscoped _, .ok (some user)⟩ => some user
  | _ => none

/-- The tokens are of an account that was read, as it was then. -/
structure IssuedBy (platform : Platform) (past : AuthTrace) (outcome : LoginOutcome) : Prop where
  read : ∃ event ∈ past, userRead event = some outcome.user
  signed : platform.encodeAccess outcome.accessClaims = .ok outcome.accessToken
  subject : outcome.accessClaims.sub = decimal outcome.user.id
  stamped : outcome.accessClaims.passwordChangedAtMs = outcome.user.passwordChangedAt.map timestampMillis
  stored : ∃ familyId expiresAt, ⟨.insert outcome.user.id (hashRefresh platform outcome.refreshToken) familyId expiresAt,
    .ok ()⟩ ∈ past

/-- The refresh token was found fit for use. -/
def FoundFit (platform : Platform) (past : AuthTrace) (presented : Text) : Prop :=
  ∃ record : RefreshTokenRecord, ⟨.findByHash (hashRefresh platform presented), .ok (some record)⟩ ∈ past ∧
    record.revokedAt = none ∧ record.usedAt = none

/-- The account of the access token was found, with the password of that time. -/
def ResolvedBy (platform : Platform) (past : AuthTrace) (bearer : Text) : Prop :=
  ∃ now claims userId, ∃ user : User, platform.decodeAccess now bearer = some claims ∧ claims.userId = .ok userId ∧
    ⟨.findByIdUnscoped userId, .ok (some user)⟩ ∈ past ∧
    user.passwordChangedAt.map timestampMillis = claims.passwordChangedAtMs

section Authentication
variable {platform : Platform} {past : AuthTrace}

theorem obeys_auth {α : Type} {AtEnd : AuthTrace → Except AppError α → Prop} {statement : AuthStore.Statement}
    {next : AuthStore.Reply statement → AuthService.Action α} (fails : ∀ past e, AtEnd past (.error e))
    (later : ∀ reply, (next reply).Obeys (fun _ _ => True) AtEnd (past ++ [⟨statement, .ok reply⟩])) :
    (AuthService.call statement next).Obeys (fun _ _ => True) AtEnd past :=
  AuthService.obeys_call.mpr ⟨trivial, fun _ => fails _ _, later⟩

def Issues (platform : Platform) (past : AuthTrace) (result : Except AppError LoginOutcome) : Prop :=
  ∀ outcome, result = .ok outcome → IssuedBy platform past outcome

theorem issues_error (past : AuthTrace) (e : AppError) : Issues platform past (.error e) := by
  intro outcome same
  cases same

theorem issueInFamily_obeys {AtEnd : AuthTrace → Except AppError LoginOutcome → Prop} {user : User} {familyId : Uuid}
    (read : ∃ event ∈ past, userRead event = some user) (fails : ∀ past e, AtEnd past (.error e))
    (goes : ∀ more outcome, IssuedBy platform (past ++ more) outcome → AtEnd (past ++ more) (.ok outcome)) :
    (AuthService.issueInFamily platform user familyId).Obeys (fun _ _ => True) AtEnd past := by
  refine obeys_auth fails fun now => ?_
  split
  · exact fails _ _
  · next token claims issued =>
    obtain ⟨encoded, subject, stamped⟩ := LoginSession.issueAccess_ok issued
    refine obeys_auth fails fun value => obeys_auth fails fun inserted => ?_
    rw [List.append_assoc, List.append_assoc]
    refine goes _ ⟨token, claims, value, user⟩ ?_
    obtain ⟨event, member, reads⟩ := read
    exact ⟨⟨event, List.mem_append_left _ member, reads⟩, encoded, subject, stamped, familyId,
      now + platform.refreshTtl, by simp⟩

theorem issueSession_issues {user : User} (read : ∃ event ∈ past, userRead event = some user) :
    (AuthService.issueSession platform user).Obeys (fun _ _ => True) (Issues platform) past := by
  refine obeys_auth issues_error fun familyId => issueInFamily_obeys ?_ issues_error ?_
  · obtain ⟨event, member, reads⟩ := read
    exact ⟨event, List.mem_append_left _ member, reads⟩
  · intro more outcome issued other same
    cases same
    exact issued

theorem login_issues (email passwordInput : Text) :
    (AuthService.login platform email passwordInput).Obeys (fun _ _ => True) (Issues platform) [] := by
  refine obeys_auth issues_error fun found => ?_
  cases found with
  | none => exact obeys_auth issues_error fun _ => issues_error _ _
  | some cred =>
    have read : ∀ more : AuthTrace, ∃ event ∈ [⟨.findCredentialByEmail email, .ok (some cred)⟩] ++ more,
        userRead event = some cred.user :=
      fun more => ⟨_, List.mem_append_left _ (List.mem_singleton_self _), rfl⟩
    simp only [List.nil_append]
    split
    · exact issues_error _ _
    · split
      · exact issues_error _ _
      · split
        · exact issues_error _ _
        · split
          · refine obeys_auth issues_error fun salt => ?_
            split
            · exact issueSession_issues (read _)
            · refine ⟨trivial, fun answer => issueSession_issues ?_⟩
              rw [List.append_assoc]
              exact read _
          · exact issueSession_issues (read [])

/-- A refresh that returns a session issued it, against a token that was fit for use. -/
def Rotates (platform : Platform) (presented : Text) (past : AuthTrace) (result : Except AppError LoginOutcome) : Prop :=
  ∀ outcome, result = .ok outcome → IssuedBy platform past outcome ∧ FoundFit platform past presented

theorem rotates_error {presented : Text} (past : AuthTrace) (e : AppError) :
    Rotates platform presented past (.error e) := by
  intro outcome same
  cases same

theorem refresh_rotates (presented : Text) :
    (AuthService.refresh platform presented).Obeys (fun _ _ => True) (Rotates platform presented) [] := by
  refine obeys_auth rotates_error fun found => ?_
  cases found with
  | none => exact rotates_error _ _
  | some record =>
    simp only
    split
    · exact rotates_error _ _
    · next unrevoked =>
      split
      · exact obeys_auth rotates_error fun _ => rotates_error _ _
      · next unused =>
        refine obeys_auth rotates_error fun now => ?_
        split
        · exact rotates_error _ _
        · refine obeys_auth rotates_error fun loaded => ?_
          cases loaded with
          | none => exact rotates_error _ _
          | some user =>
            simp only
            split
            · exact obeys_auth rotates_error fun _ => rotates_error _ _
            · refine obeys_auth rotates_error fun marked =>
                issueInFamily_obeys ⟨⟨.findByIdUnscoped record.userId, .ok (some user)⟩,
                by simp, rfl⟩ rotates_error ?_
              rintro more outcome issued other same
              cases same
              refine ⟨issued, record, by simp, ?_, ?_⟩
              · simpa using unrevoked
              · simpa using unused

/-- A session is only resolved for an account that was found. -/
def Resolves (platform : Platform) (bearer : Text) (past : AuthTrace) (result : Except AppError SessionUser) : Prop :=
  ∀ s, result = .ok s → ResolvedBy platform past bearer

theorem resolves_error {bearer : Text} (past : AuthTrace) (e : AppError) : Resolves platform bearer past (.error e) := by
  intro s same
  cases same

theorem resolveSession_resolves (bearer : Text) :
    (AuthService.resolveSession platform bearer).Obeys (fun _ _ => True) (Resolves platform bearer) [] := by
  refine obeys_auth resolves_error fun now => ?_
  cases decoded : platform.decodeAccess now bearer with
  | none => exact resolves_error _ _
  | some claims =>
    cases subject : claims.userId with
    | error e =>
      simp only [subject]
      exact resolves_error _ _
    | ok userId =>
      simp only [subject]
      refine obeys_auth resolves_error fun found => ?_
      cases found with
      | none => exact resolves_error _ _
      | some user =>
        simp only
        split
        · exact resolves_error _ _
        · split
          · exact resolves_error _ _
          · next stamped =>
            refine obeys_auth resolves_error fun permissions => obeys_auth resolves_error fun entitlement => ?_
            intro s same
            exact ⟨now, claims, userId, user, decoded, subject, by simp, by simpa using stamped⟩

end Authentication

/- The same of the calls on the accounts. -/

def lift : Event AuthStore.Statement AuthStore.Answer → Event AccountPrograms.Statement AccountPrograms.Answer
  | ⟨statement, answer⟩ => ⟨.auth statement, answer⟩

theorem authenticating_obeys {α β : Type} {next : α → AccountPrograms.Action β} {action : AuthService.Action α}
    {AtEnd : AuthTrace → Except AppError α → Prop} {Ends : AccountTraces.Trace → Except AppError β → Prop}
    {past : AuthTrace} (obeys : action.Obeys (fun _ _ => True) AtEnd past)
    (fails : ∀ past e, AtEnd past (.error e) → Ends (past.map lift) (.error e))
    (goes : ∀ past value, AtEnd past (.ok value) → (next value).Obeys (fun _ _ => True) Ends (past.map lift)) :
    (AccountPrograms.authenticating next action).Obeys (fun _ _ => True) Ends (past.map lift) := by
  induction action generalizing past with
  | done result =>
    cases result with
    | error e => exact fails past e obeys
    | ok value => exact goes past value obeys
  | stmt statement rest ih =>
    refine ⟨trivial, fun answer => ?_⟩
    have later := ih answer (obeys.2 answer)
    rwa [List.map_append] at later

/-- A request that presents this access token. -/
def bearerOf : Request → Option Text
  | .resolve bearer => some bearer
  | .accounts (.change bearer _) => some bearer
  | .accounts (.auth _) => none

/-- What a call was answered by the time it ends; `auth` are its answers from authentication. -/
structure Ends (platform : Platform) (request : Request) (past : AccountTraces.Trace) (result : Outcome) : Prop where
  issued : ∀ outcome, result = .ok (.account (.session (some outcome))) →
    ∃ auth, IssuedBy platform auth outcome ∧ ∀ event ∈ auth, lift event ∈ past
  rotated : ∀ presented value, request = .accounts (.auth (.refresh presented)) → result = .ok value →
    ∃ auth, FoundFit platform auth presented ∧ ∀ event ∈ auth, lift event ∈ past
  resolved : ∀ bearer value, bearerOf request = some bearer → result = .ok value →
    ∃ auth, ResolvedBy platform auth bearer ∧ ∀ event ∈ auth, lift event ∈ past

section Requests
variable {platform : Platform} {past : AuthTrace}

theorem lifted_mem : ∀ event ∈ past, lift event ∈ past.map lift := fun _ member => List.mem_map_of_mem member

/-- A request of authentication ends as its program of authentication does. -/
theorem auth_obeys {request : AuthService.Request} {AtEnd : AuthTrace → AuthService.Outcome → Prop}
    (obeys : (AuthService.programOf platform request).Obeys (fun _ _ => True) AtEnd [])
    (ends : ∀ past result, AtEnd past result → Ends platform (.accounts (.auth request)) (past.map lift)
      ((result.map AccountPrograms.Returned.session).map .account)) :
    (programOf platform (.accounts (.auth request))).Obeys (fun _ _ => True)
      (Ends platform (.accounts (.auth request))) [] := by
  refine obeys_mapResult.mpr (@authenticating_obeys _ _ _ _ AtEnd _ [] obeys ?_ ?_)
  · exact fun past e ended => ends past (.error e) ended
  · exact fun past value ended => ends past (.ok value) ended

theorem ends_error {request : Request} {past : AccountTraces.Trace} {e : AppError} :
    Ends platform request past (.error e) where
  issued outcome same := by cases same
  rotated presented value _ same := by cases same
  resolved bearer value _ same := by cases same

/-- A request of authentication that returns no session and refreshes none says nothing. -/
theorem silent_ends {request : AuthService.Request} (unrefreshed : ∀ presented, request ≠ .refresh presented)
    (past : AuthTrace) (result : AuthService.Outcome) (silent : ∀ outcome, result ≠ .ok (some outcome)) :
    Ends platform (.accounts (.auth request)) (past.map lift)
      ((result.map AccountPrograms.Returned.session).map .account) where
  issued outcome same := by
    cases result with
    | error e => cases same
    | ok value =>
      cases same
      exact absurd rfl (silent outcome)
  rotated presented value same _ := by
    cases same
    exact absurd rfl (unrefreshed presented)
  resolved bearer value same := by cases same

theorem silent_map (_ : AuthTrace) (result : Except AppError Unit) (outcome : LoginOutcome) :
    result.map (fun _ => (none : Option LoginOutcome)) ≠ .ok (some outcome) := by
  intro same
  cases result <;> cases same

theorem resolve_ends (bearer : Text) :
    (programOf platform (.resolve bearer)).Obeys (fun _ _ => True) (Ends platform (.resolve bearer)) [] := by
  refine @authenticating_obeys _ _ _ _ (Resolves platform bearer) _ [] (resolveSession_resolves bearer) ?_ ?_
  · intro past e ended
    exact ends_error
  · intro past s ended
    exact {
      issued := fun outcome same => by cases same
      rotated := fun presented value same => by cases same
      resolved := by
        intro presented value same _
        cases same
        exact ⟨past, ended s rfl, lifted_mem⟩ }

theorem auth_ends (request : AuthService.Request) :
    (programOf platform (.accounts (.auth request))).Obeys (fun _ _ => True)
      (Ends platform (.accounts (.auth request))) [] := by
  cases request with
  | login email passwordInput =>
    refine @auth_obeys platform _ (fun past result => ∀ outcome, result = .ok (some outcome) → IssuedBy platform past outcome)
      (obeys_mapResult.mpr ((login_issues email passwordInput).imp (fun _ _ _ => trivial) ?_)) ?_
    · intro past result issues outcome same
      cases result with
      | error e => cases same
      | ok value =>
        cases same
        exact issues _ rfl
    · intro past result issued
      cases result with
      | error e => exact ends_error
      | ok value => exact {
          issued := by
            intro outcome same
            cases same
            exact ⟨past, issued outcome rfl, lifted_mem⟩
          rotated := fun presented value same => by cases same
          resolved := fun bearer value same => by cases same }
  | refresh presented =>
    refine @auth_obeys platform _ (fun past result => ∀ value, result = .ok value →
        (∀ outcome, value = some outcome → IssuedBy platform past outcome) ∧ FoundFit platform past presented)
      (obeys_mapResult.mpr ((refresh_rotates presented).imp (fun _ _ _ => trivial) ?_)) ?_
    · intro past result rotates value same
      cases result with
      | error e => cases same
      | ok outcome =>
        cases same
        obtain ⟨issued, fit⟩ := rotates outcome rfl
        refine ⟨fun other same => ?_, fit⟩
        cases same
        exact issued
    · intro past result rotated
      cases result with
      | error e => exact ends_error
      | ok value =>
        obtain ⟨issued, fit⟩ := rotated value rfl
        exact {
          issued := by
            intro outcome same
            cases same
            exact ⟨past, issued outcome rfl, lifted_mem⟩
          rotated := by
            intro other returned same _
            cases same
            exact ⟨past, fit, lifted_mem⟩
          resolved := fun bearer value same => by cases same }
  | logout presented =>
    refine @auth_obeys platform _ (fun _ result => ∀ outcome, result ≠ .ok (some outcome))
      (obeys_mapResult.mpr (obeys_of_forall (fun _ _ => trivial) silent_map)) (silent_ends ?_)
    exact fun presented same => by cases same
  | resetPassword submitted password =>
    refine @auth_obeys platform _ (fun _ result => ∀ outcome, result ≠ .ok (some outcome))
      (obeys_mapResult.mpr (obeys_of_forall (fun _ _ => trivial) silent_map)) (silent_ends ?_)
    exact fun presented same => by cases same

/-- A change of an account returns no session; it was let in by its access token. -/
theorem change_served {past : AuthTrace} {more : AccountTraces.Trace} {bearer : Text} {change : AccountPrograms.Change}
    {result : Except AppError AccountPrograms.Returned} (resolved : ResolvedBy platform past bearer)
    (silent : ∀ session, result ≠ .ok (.session session)) :
    Ends platform (.accounts (.change bearer change)) (past.map lift ++ more) (result.map .account) where
  issued outcome same := by
    cases result with
    | error e => cases same
    | ok value =>
      cases same
      exact absurd rfl (silent _)
  rotated presented value same := by cases same
  resolved presented value same _ := by
    cases same
    exact ⟨past, resolved, fun event member => List.mem_append_left _ (lifted_mem event member)⟩

theorem change_ends (bearer : Text) (change : AccountPrograms.Change) :
    (programOf platform (.accounts (.change bearer change))).Obeys (fun _ _ => True)
      (Ends platform (.accounts (.change bearer change))) [] := by
  have refused : ∀ past e, Ends platform (.accounts (.change bearer change)) past (.error e) :=
    fun past e => ends_error
  refine obeys_mapResult.mpr (@authenticating_obeys _ _ _ _ (Resolves platform bearer) _ [] (resolveSession_resolves bearer)
    (fun _ _ _ => refused _ _) ?_)
  intro past s resolves
  have resolved := resolves s rfl
  simp only
  split
  · exact refused _ _
  · split
    · exact refused _ _
    · cases change with
      | create input =>
        refine obeys_mapResult.mpr (obeys_of_forall (fun _ _ => trivial) fun more result => change_served resolved ?_)
        intro session same
        cases result <;> cases same
      | update id input =>
        refine obeys_mapResult.mpr (obeys_of_forall (fun _ _ => trivial) fun more result => change_served resolved ?_)
        intro session same
        cases result <;> cases same
      | delete id =>
        refine obeys_mapResult.mpr (obeys_of_forall (fun _ _ => trivial) fun more result => change_served resolved ?_)
        intro session same
        cases result <;> cases same

theorem programs_end (platform : Platform) (request : Request) :
    (programOf platform request).Obeys (fun _ _ => True) (Ends platform request) [] := by
  cases request with
  | resolve bearer => exact resolve_ends bearer
  | accounts request =>
    cases request with
    | auth request => exact auth_ends request
    | change bearer change => exact change_ends bearer change

end Requests

end SessionPrograms
