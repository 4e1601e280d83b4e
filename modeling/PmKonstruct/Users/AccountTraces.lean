import PmKonstruct.Users.AccountPrograms

/- What a call on the accounts has been answered before each of its writes, and what a write does to the accounts. -/
namespace AccountTraces
open PlainText DecimalText DomainErrors Accounts KeyedTable StatementProgram AccountPrograms
open AuthStore (AuthDb UserRow UserRow.intoDomain Env)
open AuthService (SessionUser)

abbrev Trace : Type := List (Event Statement Answer)

/- What the answers say of the writer. -/

def sessionRead : Event Statement Answer → Option User
  | ⟨.auth (.findByIdUnscoped _), .ok (some user)⟩ => some user
  | _ => none

/-- The account the session was resolved to, as it was then. -/
def actor (past : Trace) : Option User := past.findSome? sessionRead

def writes : Statement → Bool
  | .create _ _ _ => true
  | .update _ _ _ _ => true
  | .delete _ _ => true
  | _ => false

/-- Nothing is written yet. -/
def Quiet (past : Trace) : Prop := ∀ event ∈ past, writes event.statement = false

structure Manages (past : Trace) (scope : CompanyId) (user : User) : Prop where
  resolved : actor past = some user
  active : user.active = true
  manager : user.role = .manager
  company : user.companyId = scope
  quiet : Quiet past

def ReadAs (past : Trace) (scope : CompanyId) (id : UserId) (existing : User) : Prop :=
  (⟨.find scope id, .ok (some existing)⟩ : Event Statement Answer) ∈ past

/-- The seats were counted, and there was room. -/
def Counted (past : Trace) (scope : CompanyId) : Prop :=
  ∃ entitlement inUse, (⟨.auth (.entitlement scope), .ok entitlement⟩ : Event Statement Answer) ∈ past ∧
    (⟨.activeCount scope, .ok inUse⟩ : Event Statement Answer) ∈ past ∧
    (Seats.mk entitlement.seatLimit inUse).hasRoom = true

/-- An update writes what was asked for. -/
def Justified (request : Request) (past : Trace) : Statement → Prop
  | .auth _ => True
  | .find scope _ => ∃ user, Manages past scope user
  | .activeCount scope => ∃ user, Manages past scope user
  | .create scope input _ => (∃ user, Manages past scope user) ∧ (input.active = true → Counted past scope)
  | .update scope id input _ => (∃ bearer, request = .change bearer (.update id input)) ∧
      ∃ user existing, Manages past scope user ∧ ReadAs past scope id existing ∧
      (id = user.id → input.active = true ∧ input.role = existing.role) ∧
      (input.active = true → existing.active = true ∨ Counted past scope)
  | .delete scope id => ∃ user, Manages past scope user ∧ id ≠ user.id

section Append
variable {past more : Trace} {scope : CompanyId} {id : UserId} {user existing : User}

theorem actor_append (known : actor past = some user) : actor (past ++ more) = some user := by
  rw [actor, List.findSome?_append, ← actor, known]
  rfl

theorem Quiet.append (quiet : Quiet past) (also : Quiet more) : Quiet (past ++ more) := by
  intro event member
  rcases List.mem_append.mp member with before | later
  · exact quiet event before
  · exact also event later

theorem quiet_event {event : Event Statement Answer} (reads : writes event.statement = false) : Quiet [event] := by
  intro other member
  rw [List.mem_singleton.mp member]
  exact reads

theorem Manages.append (manages : Manages past scope user) (quiet : Quiet more) : Manages (past ++ more) scope user :=
  ⟨actor_append manages.resolved, manages.active, manages.manager, manages.company, manages.quiet.append quiet⟩

theorem ReadAs.append (read : ReadAs past scope id existing) : ReadAs (past ++ more) scope id existing :=
  List.mem_append_left _ read

theorem Counted.append (counted : Counted past scope) : Counted (past ++ more) scope := by
  obtain ⟨entitlement, inUse, first, second, room⟩ := counted
  exact ⟨entitlement, inUse, List.mem_append_left _ first, List.mem_append_left _ second, room⟩

end Append

/- The programs ask before they write. -/

abbrev Sound {α : Type} (request : Request) (past : Trace) (action : Action α) : Prop :=
  action.Obeys (Justified request) (fun _ _ => True) past

section Programs
variable {α β : Type} {request : Request} {past : Trace} {platform : Platform} {s : SessionUser} {user : User} {id : UserId}
    {input : UserInput}

theorem sound_call {statement : Statement} {next : Reply statement → Action α} (here : Justified request past statement)
    (later : ∀ reply, Sound request (past ++ [⟨statement, .ok reply⟩]) (next reply)) :
    Sound request past (call statement next) := by
  refine ⟨here, ?_⟩
  rintro (e | reply)
  · trivial
  · exact later reply

theorem sound_authenticating {next : α → Action β} {action : AuthService.Action α}
    (later : ∀ more value, Sound request (past ++ more) (next value)) : Sound request past (authenticating next action) := by
  induction action generalizing past with
  | done result =>
    cases result with
    | error e => trivial
    | ok value =>
      have := later [] value
      rwa [List.append_nil] at this
  | stmt statement rest ih =>
    refine ⟨trivial, fun answer => ih answer fun more value => ?_⟩
    rw [List.append_assoc]
    exact later _ value

theorem authenticating_call {statement : AuthStore.Statement} {rest : AuthStore.Reply statement → AuthService.Action α}
    {next : α → Action β} : authenticating next (AuthService.call statement rest) =
      call (.auth statement) fun reply => authenticating next (rest reply) := by
  rw [AuthService.call, await, authenticating, call, await]
  congr 1
  funext answer
  cases answer with
  | error e => rfl
  | ok reply => rfl

/-- Whoever passes the guard was resolved to an active manager. -/
theorem sound_managerOnly {bearer : Text} {next : SessionUser → Action α}
    (later : ∀ past s, Manages past s.principal.companyId s.user → Sound request past (next s)) :
    Sound request [] (managerOnly platform bearer next) := by
  rw [managerOnly, AuthService.resolveSession, authenticating_call]
  refine sound_call trivial fun now => ?_
  cases platform.decodeAccess now bearer with
  | none => trivial
  | some claims =>
    simp only
    cases claims.userId with
    | error e => trivial
    | ok userId =>
      simp only
      rw [authenticating_call]
      refine sound_call trivial fun found => ?_
      cases found with
      | none => trivial
      | some user =>
        simp only
        split
        · trivial
        · next active =>
          split
          · trivial
          · rw [authenticating_call]
            refine sound_call trivial fun permissions => ?_
            rw [authenticating_call]
            refine sound_call trivial fun entitlement => ?_
            rw [authenticating]
            split
            · trivial
            · split
              · trivial
              · next manager =>
                refine later _ _ ⟨rfl, by simpa using active, by simpa using manager, rfl, ?_⟩
                simp [Quiet, writes]

theorem sound_withSeat {activating : Bool} {next : Action User} (manages : Manages past s.principal.companyId user)
    (later : ∀ more, Quiet more → Counted (past ++ more) s.principal.companyId →
      Sound request (past ++ more) next) :
    Sound request past (withSeat s activating next) := by
  refine sound_call trivial fun entitlement => sound_call ⟨user, manages.append (quiet_event rfl)⟩ fun inUse => ?_
  simp only
  split
  · trivial
  · next room =>
    rw [List.append_assoc]
    refine later _ ?_ ⟨entitlement, inUse, ?_, ?_, by simpa using room⟩
    · exact (quiet_event rfl).append (quiet_event rfl)
    · simp
    · simp

theorem sound_hashing {password : Text} {next : Text → Action User}
    (later : ∀ more hash, Quiet more → Sound request (past ++ more) (next hash)) :
    Sound request past (hashing platform password next) := by
  refine sound_call trivial fun salt => ?_
  split
  · trivial
  · exact later _ _ (quiet_event rfl)

/-- Where a seat is needed, what follows comes after the count. -/
theorem sound_seated {activating needed : Bool} {next : Action User} (manages : Manages past s.principal.companyId user)
    (later : ∀ more, Quiet more → (needed = true → Counted (past ++ more) s.principal.companyId) →
      Sound request (past ++ more) next) :
    Sound request past (if needed then withSeat s activating next else next) := by
  split
  · exact sound_withSeat manages fun more quiet counted => later more quiet fun _ => counted
  · next spare =>
    have := later [] (fun _ member => absurd member List.not_mem_nil) fun seated => absurd seated spare
    rwa [List.append_nil] at this

theorem sound_create (manages : Manages past s.principal.companyId user) : Sound request past (create platform s input) := by
  rw [create]
  split
  · trivial
  · refine sound_seated manages fun more quiet counted => ?_
    split
    · trivial
    · refine sound_hashing fun also hash still => sound_call ⟨⟨user, (manages.append quiet).append still⟩, ?_⟩
        fun _ => trivial
      exact fun active => (counted active).append

theorem sound_get {next : User → Action α} (manages : Manages past s.principal.companyId user)
    (later : ∀ existing, Sound request (past ++ [⟨.find s.principal.companyId id, .ok (some existing)⟩]) (next existing)) :
    Sound request past (get s id next) := by
  refine sound_call ⟨user, manages⟩ fun found => ?_
  cases found with
  | none => trivial
  | some existing => exact later existing

theorem ownChange_ok {existing : User} (passed : ownChange s id input existing = .ok ()) (own : id = s.user.id) :
    input.active = true ∧ input.role = existing.role := by
  rw [ownChange, if_pos own] at passed
  split at passed
  · cases passed
  · next active =>
    split at passed
    · cases passed
    · next role => exact ⟨by simpa using active, by simpa using role⟩

theorem sound_write {existing : User} {hash : Option Text} {bearer : Text}
    (asked : request = .change bearer (.update id input)) (manages : Manages past s.principal.companyId s.user)
    (read : ReadAs past s.principal.companyId id existing) (own : ownChange s id input existing = .ok ())
    (seat : input.active = true → existing.active = true ∨ Counted past s.principal.companyId) :
    Sound request past (write s id input hash) := by
  refine sound_call ⟨⟨bearer, asked⟩, s.user, existing, manages, read, ownChange_ok own, seat⟩ fun changed => ?_
  cases changed <;> trivial

theorem sound_update {bearer : Text} (asked : request = .change bearer (.update id input))
    (manages : Manages past s.principal.companyId s.user) :
    Sound request past (update platform s id input) := by
  rw [update]
  split
  · trivial
  · refine sound_get manages fun existing => ?_
    split
    · trivial
    · next own =>
      have start : Manages (past ++ [⟨.find s.principal.companyId id, .ok (some existing)⟩]) s.principal.companyId s.user :=
        manages.append (quiet_event rfl)
      have read : ReadAs (past ++ [⟨.find s.principal.companyId id, .ok (some existing)⟩]) s.principal.companyId id
          existing := by simp [ReadAs]
      generalize past ++ [⟨.find s.principal.companyId id, .ok (some existing)⟩] = read_past at start read
      refine sound_seated start fun more quiet counted => ?_
      have begun := start.append quiet
      have seat : input.active = true → existing.active = true ∨ Counted (read_past ++ more) s.principal.companyId := by
        intro active
        cases already : existing.active with
        | true => exact .inl rfl
        | false => exact .inr (counted (by rw [active, already]; rfl))
      split
      · exact sound_write asked begun read.append own seat
      · split
        · exact sound_write asked begun read.append own seat
        · refine sound_hashing fun also hash still => sound_write asked (begun.append still) read.append.append own ?_
          exact fun active => (seat active).imp_right Counted.append

theorem sound_delete (manages : Manages past s.principal.companyId s.user) : Sound request past (delete s id) := by
  rw [delete]
  split
  · trivial
  · next apart =>
    have other : id ≠ s.user.id := by
      intro own
      rw [UsersService.assertNotSelf, if_pos own.symm] at apart
      cases apart
    refine sound_get manages fun existing => sound_call ⟨s.user, manages.append (quiet_event rfl), other⟩ fun deleted => ?_
    cases deleted <;> trivial

theorem programs_sound (platform : Platform) (request : Request) : Sound request [] (programOf platform request) := by
  cases request with
  | auth request => exact sound_authenticating fun _ _ => trivial
  | change bearer change =>
    refine sound_managerOnly fun past s manages => ?_
    cases change with
    | create input => exact obeys_mapResult.mpr (sound_create manages)
    | update id input => exact obeys_mapResult.mpr (sound_update rfl manages)
    | delete id => exact obeys_mapResult.mpr (sound_delete manages)

/-- A statement that is about to run is justified by what the call was answered. -/
theorem statement_justified {initial : AuthDb → Prop} {permits : Running → Label Request Env → Bool} {config : Running}
    {i : Nat} {call : Underway} {statement : Statement} {next : Answer statement → Program Statement Answer Outcome}
    (reached : ((accounts platform initial).machine.restrict permits).Reachable config)
    (found : config.calls[i]? = some call) (shape : call.running = .stmt statement next) :
    Justified call.request call.trace statement := by
  have obeys := calls_obey (fun request past => Justified request past) (fun _ _ _ => True) (programs_sound platform)
    (TransitionRuns.restrict_reachable reached) call (List.mem_of_getElem? found)
  rw [shape] at obeys
  exact obeys.1

end Programs

/- What the statements do to the accounts. -/

/-- Company, role and whether the account is active. -/
def standing (row : UserRow) : CompanyId × Text × Bool := (row.companyId, row.role, row.active)

theorem asStr_of_parse {s : Text} {role : Role} (parsed : Role.parse s = some role) : s = role.asStr := by
  unfold Role.parse at parsed
  split at parsed
  · next same =>
    cases parsed
    exact same
  · split at parsed
    · next same =>
      cases parsed
      exact same
    · split at parsed
      · next same =>
        cases parsed
        exact same
      · cases parsed

theorem intoDomain_standing {row : UserRow} {user : User} (parsed : row.intoDomain = .ok user) :
    row.id = user.id ∧ row.companyId = user.companyId ∧ row.role = user.role.asStr ∧ row.active = user.active := by
  obtain ⟨role, known, rfl⟩ := UserRow.intoDomain_iff.mp parsed
  exact ⟨rfl, rfl, asStr_of_parse known, rfl⟩

section Effects
variable {platform : Platform} {env : Env} {db after : AuthDb} {scope : CompanyId} {id : UserId} {statement : Statement}

/-- The transitions of the accounts, one for each kind of statement. -/
inductive Changes (platform : Platform) (env : Env) (db : AuthDb) : Statement → AuthDb → Prop where
  | same {statement : Statement} {after : AuthDb} (users : after.users = db.users)
      (companies : after.companies = db.companies) :
      Changes platform env db statement after
  | password {statement : AuthStore.Statement} {after : AuthDb} (id : UserId) (hash : Text)
      (users : after.users = AuthStore.setPassword env db id hash) (companies : after.companies = db.companies) :
      Changes platform env db (.auth statement) after
  | created {scope : CompanyId} {input : UserInput} {hash : Text} {after : AuthDb} (inRange : InI32 db.users.serial)
      (users : after.users = db.users.put (newUser platform scope db.users.serial input hash inRange))
      (companies : after.companies = db.companies) : Changes platform env db (.create scope input hash) after
  | updated {scope : CompanyId} {id : UserId} {input : UserInput} {hash : Option Text} {after : AuthDb} (row : UserRow)
      (reached : db.users.reach (·.companyId = scope) id = some row)
      (users : after.users = db.users.update (fun u => u.id = id && u.companyId = scope)
        (changedUser platform env input hash) fun _ => rfl)
      (companies : after.companies = db.companies) : Changes platform env db (.update scope id input hash) after
  | deleted {scope : CompanyId} {id : UserId} {after : AuthDb}
      (users : after.users = db.users.delete fun u => u.id = id && u.companyId = scope)
      (companies : after.companies = db.companies) : Changes platform env db (.delete scope id) after

theorem auth_performed {statement : AuthStore.Statement} :
    Changes platform env db (.auth statement) (AuthStore.perform platform env statement db).2 := by
  cases statement with
  | replacePasswordHash id hash => exact .password id hash rfl rfl
  | claimResetAndSetPassword tokenId user hash =>
    simp only [AuthStore.perform, AuthStore.claimReset]
    split
    · exact .password user hash rfl rfl
    · exact .same rfl rfl
  | insert userId tokenHash familyId expiresAt =>
    simp only [AuthStore.perform, AuthStore.insertRefreshToken]
    split
    · exact .same rfl rfl
    · split
      · exact .same rfl rfl
      · split
        · exact .same rfl rfl
        · exact .same rfl rfl
  | _ => exact .same rfl rfl

theorem auth_changes {statement : AuthStore.Statement} :
    Changes platform env db (.auth statement) (AuthStore.execute platform env statement db).2 :=
  faulting_keeps (Changes platform env db (.auth statement)) (.same rfl rfl) auth_performed

theorem perform_changes : Changes platform env db statement (perform platform env statement db).2 := by
  cases statement with
  | auth statement => exact auth_changes
  | find scope id => exact .same rfl rfl
  | activeCount scope => exact .same rfl rfl
  | create scope input hash =>
    simp only [perform, createUser]
    split
    · next inRange =>
      split
      · exact .same rfl rfl
      · split
        · exact .same rfl rfl
        · exact .created inRange rfl rfl
    · exact .same rfl rfl
  | update scope id input hash =>
    simp only [perform, updateUser]
    split
    · exact .same rfl rfl
    · next row reached =>
      split
      · exact .same rfl rfl
      · exact .updated row reached rfl rfl
  | delete scope id =>
    simp only [perform, deleteUser]
    split
    · exact .same rfl rfl
    · exact .deleted rfl rfl

theorem execute_changes (platform : Platform) (env : Env) (statement : Statement) (db : AuthDb) :
    Changes platform env db statement (execute platform env statement db).2 :=
  faulting_keeps (Changes platform env db statement) (.same rfl rfl) perform_changes

/-- An answer is what the database says at that moment. -/
theorem execute_ok {reply : Reply statement} (answered : (execute platform env statement db).1 = .ok reply) :
    (perform platform env statement db).1 = .ok reply := by
  rw [← answered]
  exact congrArg Prod.fst (faulting_of_ok answered).symm

theorem auth_ok {statement : AuthStore.Statement} {reply : AuthStore.Reply statement}
    (answered : (perform platform env (.auth statement) db).1 = .ok reply) :
    (AuthStore.perform platform env statement db).1 = .ok reply := by
  have read : (AuthStore.execute platform env statement db).1 = .ok reply := answered
  rwa [AuthStore.execute_of_ok read] at read

/-- The account was there, in the company of the session. -/
theorem findUser_ok {existing : User} (read : findUser db scope id = .ok (some existing)) :
    ∃ row, db.users.find id = some row ∧ row.companyId = scope ∧ row.intoDomain = .ok existing := by
  rw [findUser] at read
  split at read
  · cases read
  · next row reached =>
    obtain ⟨found, own⟩ := Table.reach_eq_some_iff.mp reached
    obtain ⟨user, parsed, same⟩ := Requests.map_ok read
    cases same
    exact ⟨row, found, of_decide_eq_true own, parsed⟩

theorem event_ok {asked : Statement} {reply : Reply asked}
    (same : (⟨asked, .ok reply⟩ : Event Statement Answer) = ⟨statement, (execute platform env statement db).1⟩) :
    asked = statement ∧ (perform platform env asked db).1 = .ok reply := by
  obtain ⟨equal, answer⟩ := Event.mk.inj same
  subst equal
  exact ⟨rfl, execute_ok (eq_of_heq answer).symm⟩

theorem Changes.companies (changes : Changes platform env db statement after) : after.companies = db.companies := by
  cases changes <;> assumption

end Effects

/- A small company for runs: a token names its account, and two managers have two of three seats. -/

def bearerPlatform : Platform :=
  { AuthService.samplePlatform with
    decodeAccess := fun _ bearer => some ⟨bearer, 1, [], [], [], none, 0, 0⟩ }

def twoManagers : AuthDb where
  users := .of [.plain 1 1 (text "Ann") (text "ann@example.com") (text "MANAGER") (Eq.refl true),
    .plain 2 1 (text "Bob") (text "bob@example.com") (text "MANAGER") (Eq.refl true)] 3 (Eq.refl true)
  companies := .of [⟨1, true, none, none, some 3⟩] 2 (Eq.refl true)
  userPermissions := .empty
  passwordResetTokens := .empty
  refreshTokens := .empty
  familiesDrawn := 0

/-- So many statements of one call. -/
def turns (i count : Nat) : List (Label Request Env) := List.replicate count (.advance i ⟨0, [], [], none⟩)

end AccountTraces
