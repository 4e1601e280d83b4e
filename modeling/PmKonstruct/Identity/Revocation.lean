import PmKonstruct.Identity.RefreshTokens

/- Permanence of revocation: what a committed `revoke_family` or `revoke_all_for_user` says about every later
   state, whatever else is in flight. -/
namespace Revocation
open PlainText DomainErrors Accounts AuthStore AuthService RefreshTokens KeyedTable StatementProgram TransitionRuns

variable {platform : Platform} {config later : AuthConfig} {family : Uuid} {user : UserId}
    {env : Env} {statement : Statement} {db : AuthDb}

/-- The condition under test: a token is inserted only into a family none of whose tokens is revoked. -/
def insertsUnrevoked (env : Env) (statement : Statement) (db : AuthDb) : Bool :=
  match statement with
  | .insert _ _ familyId _ =>
    env.fault.isSome || db.refreshTokens.rows.all fun t => t.familyId ≠ familyId || t.revokedAt.isNone
  | _ => true

/-- A family has one owner, and its identifier was drawn. -/
structure FamiliesValid (platform : Platform) (db : AuthDb) : Prop where
  drawn : ∀ row ∈ db.refreshTokens.rows, Drawn platform db row.familyId
  oneOwner : ∀ a ∈ db.refreshTokens.rows, ∀ b ∈ db.refreshTokens.rows, a.familyId = b.familyId → a.userId = b.userId

instance (platform : Platform) (db : AuthDb) : Decidable (FamiliesValid platform db) :=
  decidable_of_iff ((∀ row ∈ db.refreshTokens.rows, Drawn platform db row.familyId) ∧
    ∀ a ∈ db.refreshTokens.rows, ∀ b ∈ db.refreshTokens.rows, a.familyId = b.familyId → a.userId = b.userId)
    ⟨fun both => ⟨both.1, both.2⟩, fun valid => ⟨valid.drawn, valid.oneOwner⟩⟩

def issuing (platform : Platform) : Service Statement Answer Outcome Request Env AuthDb :=
  authService platform (FamiliesValid platform) insertsUnrevoked

/- Once a family is dead it stays dead. -/

/-- Some token of the family is there, and every one is revoked. -/
structure FamilyDead (family : Uuid) (db : AuthDb) : Prop where
  exists_row : ∃ row ∈ db.refreshTokens.rows, row.familyId = family
  revoked : ∀ row ∈ db.refreshTokens.rows, row.familyId = family → row.revokedAt.isSome

theorem execute_familyDead (dead : FamilyDead family db) (admits : insertsUnrevoked env statement db = true) :
    FamilyDead family (execute platform env statement db).2 := by
  obtain ⟨row, member, same⟩ := dead.exists_row
  obtain ⟨forward, backward⟩ := execute_evolves platform env statement db
  constructor
  · obtain ⟨new, there, evolves⟩ := forward row member
    exact ⟨new, there, evolves.familyId.trans same⟩
  · intro new there familyId
    rcases backward new there with ⟨old, before, evolves⟩ | ⟨calm, userId, hash, inserted, expiresAt, rfl, -, rfl⟩
    · exact evolves.revoked (dead.revoked old before (evolves.familyId.symm.trans familyId))
    · have revoked := dead.revoked row member same
      simp only [insertsUnrevoked, calm, Option.isSome_none, Bool.false_or, List.all_eq_true] at admits
      have unrevoked := admits row member
      simp only at familyId
      subst familyId
      simp [same, Option.isSome_iff_ne_none] at unrevoked revoked
      exact absurd unrevoked revoked

theorem revoke_familyDead {named : RefreshTokenRow → Bool}
    (covers : ∀ row ∈ db.refreshTokens.rows, row.familyId = family → named row = true)
    (present : ∃ row ∈ db.refreshTokens.rows, row.familyId = family) :
    FamilyDead family (revoke env db named).2 := by
  constructor
  · obtain ⟨row, member, same⟩ := present
    refine ⟨_, List.mem_map.mpr ⟨row, member, rfl⟩, ?_⟩
    split
    · exact same
    · exact same
  · intro new there familyId
    obtain ⟨row, member, rfl⟩ := List.mem_map.mp there
    split
    · rfl
    · next unmatched =>
      have same : row.familyId = family := by simpa [unmatched] using familyId
      simpa [covers row member same, Option.isSome_iff_ne_none] using unmatched

/- Where an inserted token's family and owner come from. -/

def credentialUser : Event Statement Answer → Option UserId
  | ⟨.findCredentialByEmail _, .ok (some cred)⟩ => some cred.user.id
  | _ => none

/-- The account a login call has looked up. -/
def sessionUser (past : List (Event Statement Answer)) : Option UserId := past.findSome? credentialUser

theorem sessionUser_append {past more : List (Event Statement Answer)} (known : sessionUser past = some user) :
    sessionUser (past ++ more) = some user := by
  simp only [sessionUser, List.findSome?_append] at known ⊢
  simp [known]

def LookedUp (past : List (Event Statement Answer)) (record : RefreshTokenRecord) : Prop :=
  ∃ tokenHash, ⟨.findByHash tokenHash, .ok (some record)⟩ ∈ past

inductive Origin (past : List (Event Statement Answer)) (userId : UserId) (familyId : Uuid) : Prop where
  | rotated (record : RefreshTokenRecord) (owner : User) (looked : LookedUp past record)
      (loaded : ⟨.findByIdUnscoped record.userId, .ok (some owner)⟩ ∈ past)
      (same : owner.id = userId) (family : record.familyId = familyId)
  | drawn (draw : ⟨.randomUuid, .ok familyId⟩ ∈ past) (known : sessionUser past = some userId)

theorem Origin.append {past more : List (Event Statement Answer)} {userId : UserId} {familyId : Uuid}
    (origin : Origin past userId familyId) : Origin (past ++ more) userId familyId := by
  cases origin with
  | rotated record owner looked loaded same family =>
    obtain ⟨hash, found⟩ := looked
    exact .rotated record owner ⟨hash, List.mem_append_left _ found⟩ (List.mem_append_left _ loaded) same family
  | drawn draw known => exact .drawn (List.mem_append_left _ draw) (sessionUser_append known)

def Justified (past : List (Event Statement Answer)) : Statement → Prop
  | .insert userId _ familyId _ => Origin past userId familyId
  | .revokeFamily familyId => ∃ record, LookedUp past record ∧ record.familyId = familyId
  | _ => True

section Programs
variable {past : List (Event Statement Answer)} {α : Type}

theorem issueInFamily_justified {owner : User} {familyId : Uuid} (origin : Origin past owner.id familyId) :
    (issueInFamily platform owner familyId).Obeys Justified (fun _ _ => True) past := by
  refine obeys_call.mpr ⟨trivial, fun _ => trivial, fun now => ?_⟩
  split
  · trivial
  · refine obeys_call.mpr ⟨trivial, fun _ => trivial, fun value => ?_⟩
    exact obeys_call.mpr ⟨origin.append.append, fun _ => trivial, fun _ => trivial⟩

theorem issueSession_justified {owner : User} (known : sessionUser past = some owner.id) :
    (issueSession platform owner).Obeys Justified (fun _ _ => True) past := by
  refine obeys_call.mpr ⟨trivial, fun _ => trivial, fun familyId => ?_⟩
  exact issueInFamily_justified (.drawn (by simp) (sessionUser_append known))

theorem login_justified (email passwordInput : Text) :
    (login platform email passwordInput).Obeys Justified (fun _ _ => True) [] := by
  refine obeys_call.mpr ⟨trivial, fun _ => trivial, ?_⟩
  rintro (_ | cred)
  · exact obeys_call.mpr ⟨trivial, fun _ => trivial, fun _ => trivial⟩
  · have known : sessionUser [⟨.findCredentialByEmail email, .ok (some cred)⟩] = some cred.user.id := rfl
    simp only [List.nil_append]
    split
    · trivial
    · split
      · trivial
      · split
        · trivial
        · split
          · refine obeys_call.mpr ⟨trivial, fun _ => trivial, fun salt => ?_⟩
            split
            · exact issueSession_justified (sessionUser_append known)
            · exact ⟨trivial, fun _ => issueSession_justified (sessionUser_append (sessionUser_append known))⟩
          · exact issueSession_justified known

theorem refresh_justified (presented : Text) :
    (refresh platform presented).Obeys Justified (fun _ _ => True) [] := by
  refine obeys_call.mpr ⟨trivial, fun _ => trivial, ?_⟩
  rintro (_ | record)
  · trivial
  · simp only [List.nil_append]
    split
    · trivial
    · split
      · exact obeys_call.mpr ⟨⟨record, ⟨_, List.mem_singleton_self _⟩, rfl⟩, fun _ => trivial, fun _ => trivial⟩
      · refine obeys_call.mpr ⟨trivial, fun _ => trivial, fun now => ?_⟩
        split
        · trivial
        · refine obeys_call.mpr ⟨trivial, fun _ => trivial, ?_⟩
          rintro (_ | owner)
          · trivial
          · simp only
            split
            · exact obeys_call.mpr ⟨trivial, fun _ => trivial, fun _ => trivial⟩
            · refine obeys_call.mpr ⟨trivial, fun _ => trivial, fun _ => ?_⟩
              exact issueInFamily_justified (.rotated record owner ⟨_, by simp; rfl⟩ (by simp) rfl rfl)

theorem logout_justified (presented : Text) :
    (logout platform presented).Obeys Justified (fun _ _ => True) [] := by
  refine obeys_call.mpr ⟨trivial, fun _ => trivial, ?_⟩
  rintro (_ | record)
  · trivial
  · exact obeys_call.mpr ⟨⟨record, ⟨_, List.mem_singleton_self _⟩, rfl⟩, fun _ => trivial, fun _ => trivial⟩

theorem resetPassword_justified (submitted password : Text) :
    (resetPassword platform submitted password).Obeys Justified (fun _ _ => True) [] := by
  unfold resetPassword
  split
  · trivial
  · refine obeys_call.mpr ⟨trivial, fun _ => trivial, ?_⟩
    rintro (_ | found)
    · trivial
    · refine obeys_call.mpr ⟨trivial, fun _ => trivial, fun salt => ?_⟩
      split
      · trivial
      · refine obeys_call.mpr ⟨trivial, fun _ => trivial, ?_⟩
        rintro (_ | _)
        · trivial
        · exact obeys_call.mpr ⟨trivial, fun _ => trivial, fun _ => trivial⟩

theorem programs_justified (platform : Platform) (request : Request) :
    (programOf platform request).Obeys Justified (fun _ _ => True) [] := by
  cases request with
  | login email passwordInput => exact obeys_mapResult.mpr (login_justified email passwordInput)
  | refresh presented => exact obeys_mapResult.mpr (refresh_justified presented)
  | logout presented => exact obeys_mapResult.mpr (logout_justified presented)
  | resetPassword submitted password => exact obeys_mapResult.mpr (resetPassword_justified submitted password)

end Programs

/- One owner for each family, in every reachable state. -/

/-- A draw grants its family to the drawing call. -/
def drawClaim : Event Statement Answer → Option Uuid
  | ⟨.randomUuid, .ok familyId⟩ => some familyId
  | _ => none

theorem drawClaim_execute {familyId : Uuid}
    (claimed : drawClaim ⟨statement, (execute platform env statement db).1⟩ = some familyId) :
    familyId = platform.uuid db.familiesDrawn ∧ Drawn platform (execute platform env statement db).2 familyId := by
  cases statement with
  | randomUuid =>
    obtain ⟨now, salt, token, fault⟩ := env
    cases fault with
    | some e =>
      cases claimed
      exact ⟨rfl, db.familiesDrawn, Nat.lt_succ_self _, rfl⟩
    | none =>
      cases claimed
      exact ⟨rfl, db.familiesDrawn, Nat.lt_succ_self _, rfl⟩
  | _ => simp [drawClaim] at claimed

theorem draws_exclusive (fresh : Function.Injective platform.uuid)
    (reached : (issuing platform).machine.Reachable config) :
    ∀ i j familyId, Granted drawClaim config.calls i familyId → Granted drawClaim config.calls j familyId → i = j := by
  refine (claims_exclusive drawClaim (Drawn platform) ?_ ?_ ?_ reached).2
  · intro env statement db familyId _ claimed
    rw [(drawClaim_execute claimed).1]
    exact next_undrawn fresh
  · intro env statement db familyId _ claimed
    exact (drawClaim_execute claimed).2
  · intro env statement db familyId _ taken
    exact taken.later (execute_familiesDrawn platform env statement db)

/-- The tokens of a family that a call drew belong to the account it had looked up. -/
def DrawsOwned (config : AuthConfig) : Prop :=
  ∀ (i : Nat) call familyId, config.calls[i]? = some call → ⟨.randomUuid, .ok familyId⟩ ∈ call.trace →
    ∀ row ∈ config.store.refreshTokens.rows, row.familyId = familyId → sessionUser call.trace = some row.userId

/-- What the rest of the configuration says about a token of this family and owner. -/
structure Agrees (platform : Platform) (config : AuthConfig) (userId : UserId) (familyId : Uuid) : Prop where
  drawn : Drawn platform config.store familyId
  rows : ∀ row ∈ config.store.refreshTokens.rows, row.familyId = familyId → row.userId = userId
  draws : ∀ (j : Nat) other, config.calls[j]? = some other → ⟨.randomUuid, .ok familyId⟩ ∈ other.trace →
    sessionUser other.trace = some userId

theorem row_agrees {row : RefreshTokenRow} (valid : FamiliesValid platform config.store) (owned : DrawsOwned config)
    (member : row ∈ config.store.refreshTokens.rows) : Agrees platform config row.userId row.familyId where
  drawn := valid.drawn row member
  rows other there same := valid.oneOwner other there row member same
  draws j other there draw := owned j other row.familyId there draw row member rfl

/-- A justified insert agrees with every token and every draw of its family. -/
theorem insert_agrees {i : Nat} {call : Call Statement Answer Outcome Request} {userId : UserId} {familyId : Uuid}
    (fresh : Function.Injective platform.uuid) (reached : (issuing platform).machine.Reachable config)
    (valid : FamiliesValid platform config.store) (owned : DrawsOwned config) (found : config.calls[i]? = some call)
    (origin : Origin call.trace userId familyId) : Agrees platform config userId familyId := by
  have answers := answers_hold reached call (List.mem_of_getElem? found)
  cases origin with
  | rotated record owner looked loaded same family =>
    obtain ⟨hash, lookup⟩ := looked
    obtain ⟨row, member, -, -, rowUser, rowFamily⟩ := answers _ lookup
    have ownerId : owner.id = record.userId := answers _ loaded
    have agrees := row_agrees valid owned member
    rwa [rowUser, ← ownerId, same, rowFamily, family] at agrees
  | drawn draw known =>
    refine ⟨answers _ draw, ?_, ?_⟩
    · intro row member inFamily
      have := owned i call familyId found draw row member inFamily
      rw [known, Option.some.injEq] at this
      exact this.symm
    · intro j other there otherDraw
      have same : j = i := draws_exclusive fresh reached j i familyId ⟨other, there, _, otherDraw, rfl⟩
        ⟨call, found, _, draw, rfl⟩
      subst same
      rw [found, Option.some.injEq] at there
      rw [← there, known]

/-- Every token after a statement continues one from before, or is the one its call was justified to insert. -/
theorem advance_agrees {i : Nat} {call : Call Statement Answer Outcome Request}
    {next : Answer statement → Program Statement Answer Outcome} (env : Env) (fresh : Function.Injective platform.uuid)
    (reached : (issuing platform).machine.Reachable config) (valid : FamiliesValid platform config.store)
    (owned : DrawsOwned config) (found : config.calls[i]? = some call) (shape : call.running = .stmt statement next) :
    ∀ new ∈ (execute platform env statement config.store).2.refreshTokens.rows,
      Agrees platform config new.userId new.familyId := by
  have obeys := calls_obey (fun _ => Justified) (fun _ _ _ => True) (programs_justified platform) reached call
    (List.mem_of_getElem? found)
  rw [shape] at obeys
  intro new member
  rcases (execute_evolves platform env statement config.store).2 new member with
    ⟨row, before, evolves⟩ | ⟨-, userId, hash, familyId, expiresAt, rfl, -, rfl⟩
  · rw [evolves.userId, evolves.familyId]
    exact row_agrees valid owned before
  · exact insert_agrees fresh reached valid owned found obeys.1

theorem families_owned (fresh : Function.Injective platform.uuid)
    (reached : (issuing platform).machine.Reachable config) : FamiliesValid platform config.store ∧ DrawsOwned config := by
  refine Reachable.induction (fun config : AuthConfig => FamiliesValid platform config.store ∧ DrawsOwned config) reached
    ?_ ?_
  · intro s initial
    refine ⟨initial.1, ?_⟩
    intro i call familyId found
    simp [initial.2] at found
  · intro s t label before holds permitted step
    obtain ⟨valid, owned⟩ := holds
    rcases step_cases permitted step with ⟨request, rfl⟩ |
      ⟨i, env, old, statement, next, -, found, shape, admits, rfl⟩
    · refine ⟨valid, ?_⟩
      intro i call familyId there draw
      rcases getElem?_append_cases there with earlier | rfl
      · exact owned i call familyId earlier draw
      · cases draw
    · have agrees := advance_agrees env fresh before valid owned found shape
      have backward := (execute_evolves platform env statement s.store).2
      refine ⟨⟨?_, ?_⟩, ?_⟩
      · intro new member
        exact (agrees new member).drawn.later (execute_familiesDrawn platform env statement s.store)
      · intro a first b second same
        rcases backward a first with ⟨x, xMember, xa⟩ | ⟨-, u, h, f, e, shapeA, -, rfl⟩
        · rw [xa.userId]
          exact (agrees b second).rows x xMember (xa.familyId.symm.trans same)
        · rcases backward b second with ⟨y, yMember, yb⟩ | ⟨-, u', h', f', e', shapeB, -, rfl⟩
          · rw [yb.userId]
            exact ((agrees _ first).rows y yMember (yb.familyId.symm.trans same.symm)).symm
          · rw [shapeA] at shapeB
            cases shapeB
            rfl
      · intro j call familyId there draw new member inFamily
        rw [← inFamily] at draw
        rcases getElem?_set_cases found there with ⟨rfl, rfl⟩ | ⟨-, earlier⟩
        · rcases List.mem_append.mp draw with drawn | now
          · exact sessionUser_append ((agrees new member).draws j old found drawn)
          · have claimed : drawClaim ⟨statement, (execute platform env statement s.store).1⟩ = some new.familyId :=
              (congrArg drawClaim (List.mem_singleton.mp now)).symm
            have drawn := (agrees new member).drawn
            rw [(drawClaim_execute claimed).1] at drawn
            exact absurd drawn (next_undrawn fresh)
        · exact (agrees new member).draws j call earlier draw

/- Revocation is permanent. -/

/-- A token that a refresh would still accept, its expiry aside. -/
def Live (row : RefreshTokenRow) : Prop := row.revokedAt = none ∧ row.usedAt = none

/-- One call runs this statement to its commit. -/
def Commits (platform : Platform) (config after : AuthConfig) (statement : Statement) : Prop :=
  ∃ i : Nat, ∃ env call next, config.calls[i]? = some call ∧ call.running = .stmt statement next ∧ env.fault = none ∧
    (issuing platform).step config (.advance i env) = some after

theorem commits_execute {after : AuthConfig} (commits : Commits platform config after statement) :
    ∃ i : Nat, ∃ env call next, config.calls[i]? = some call ∧ call.running = .stmt statement next ∧
      after.store = (perform platform env statement config.store).2 := by
  obtain ⟨i, env, call, next, found, shape, calm, step⟩ := commits
  refine ⟨i, env, call, next, found, shape, ?_⟩
  simp only [Service.step, found, shape, Option.some.injEq] at step
  rw [← step]
  simp [issuing, authService, execute, faulting, calm]

theorem familyDead_later (dead : FamilyDead family config.store) (leads : (issuing platform).machine.Leads config later) :
    ∀ row ∈ later.store.refreshTokens.rows, row.familyId = family → ¬ Live row := by
  have still := store_kept (FamilyDead family) leads dead
    (fun env statement db dead admits => execute_familyDead dead admits)
  intro row member same live
  have revoked := still.revoked row member same
  simp [live.1] at revoked

theorem revoked_stays_revoked {after : AuthConfig} (fresh : Function.Injective platform.uuid)
    (reached : (issuing platform).machine.Reachable config)
    (commits : Commits platform config after statement) (leads : (issuing platform).machine.Leads after later) :
    (∀ family, statement = .revokeFamily family →
      ∀ row ∈ later.store.refreshTokens.rows, row.familyId = family → ¬ Live row) ∧
    ∀ user, statement = .revokeAllForUser user →
      ∀ family, (∃ row ∈ config.store.refreshTokens.rows, row.familyId = family ∧ row.userId = user) →
        ∀ row ∈ later.store.refreshTokens.rows, row.familyId = family → ¬ Live row := by
  obtain ⟨i, env, call, next, found, shape, effect⟩ := commits_execute commits
  constructor
  · intro family same
    subst same
    refine familyDead_later ?_ leads
    have obeys := calls_obey (fun _ => Justified) (fun _ _ _ => True) (programs_justified platform) reached call
      (List.mem_of_getElem? found)
    rw [shape] at obeys
    obtain ⟨record, ⟨hash, lookup⟩, recordFamily⟩ := obeys.1
    obtain ⟨row, member, -, -, -, rowFamily⟩ := answers_hold reached call (List.mem_of_getElem? found) _ lookup
    rw [effect]
    refine revoke_familyDead ?_ ⟨row, member, rowFamily.trans recordFamily⟩
    intro other _ otherFamily
    simp [otherFamily]
  · intro user same family present
    subst same
    refine familyDead_later ?_ leads
    obtain ⟨row, member, rowFamily, rowUser⟩ := present
    have valid := (families_owned fresh reached).1
    rw [effect]
    refine revoke_familyDead ?_ ⟨row, member, rowFamily⟩
    intro other there otherFamily
    have owner := valid.oneOwner other there row member (otherFamily.trans rowFamily.symm)
    simp [owner, rowUser]

theorem sample_familiesValid : FamiliesValid samplePlatform sampleDb := by decide

/-- A logout of the sample token, up to its revocation. -/
def logoutToRevocation : List (Label Request Env) :=
  [.invoke (.logout (text "first")), .advance 0 (sampleEnv 5 [])]

theorem revoked_stays_revoked_logout : ∃ config after, (issuing samplePlatform).machine.Reachable config ∧
    Commits samplePlatform config after (.revokeFamily 0) ∧
    ∀ row ∈ after.store.refreshTokens.rows, row.familyId = 0 → ¬ Live row := by
  obtain ⟨config, run, after, commits⟩ : ∃ config,
      (issuing samplePlatform).machine.execute ⟨sampleDb, []⟩ logoutToRevocation = some config ∧
      ∃ after, Commits samplePlatform config after (.revokeFamily 0) :=
    ⟨_, rfl, _, 0, sampleEnv 6 [], _, _, rfl, rfl, rfl, rfl⟩
  have reached : (issuing samplePlatform).machine.Reachable config :=
    ⟨⟨sampleDb, []⟩, ⟨sample_familiesValid, rfl⟩, execute_leads run⟩
  exact ⟨config, after, reached, commits, (revoked_stays_revoked Function.injective_id reached commits .refl).1 0 rfl⟩

/-- A refresh has passed its checks and marked its token when a logout of the same token begins. -/
def refreshThenLogout : List (Label Request Env) :=
  .invoke (.refresh (text "first")) :: List.replicate 4 (.advance 0 (sampleEnv 5 (text "second"))) ++
    [.invoke (.logout (text "first")), .advance 1 (sampleEnv 6 [])]

theorem revoked_family_revived : ¬ ∀ (platform : Platform) (config after later : AuthConfig) (family : Uuid),
    Function.Injective platform.uuid →
    (authService platform (FamiliesValid platform) fun _ _ _ => true).machine.Reachable config →
    Commits platform config after (.revokeFamily family) →
    (authService platform (FamiliesValid platform) fun _ _ _ => true).machine.Leads after later →
    ∀ row ∈ later.store.refreshTokens.rows, row.familyId = family → ¬ Live row := by
  intro permanent
  obtain ⟨config, run, after, commits, later, rest, row, member, same, live⟩ : ∃ config,
      (authService samplePlatform (FamiliesValid samplePlatform) fun _ _ _ => true).machine.execute ⟨sampleDb, []⟩
        refreshThenLogout = some config ∧
      ∃ after, Commits samplePlatform config after (.revokeFamily 0) ∧ ∃ later,
        (authService samplePlatform (FamiliesValid samplePlatform) fun _ _ _ => true).machine.execute after
          (List.replicate 3 (.advance 0 (sampleEnv 7 (text "second")))) = some later ∧
        ∃ row ∈ later.store.refreshTokens.rows, row.familyId = 0 ∧ Live row :=
    ⟨_, rfl, _, ⟨1, sampleEnv 6 [], _, _, rfl, rfl, rfl, rfl⟩, _, rfl, _, .tail _ (.head _), rfl, rfl, rfl⟩
  have reached : (authService samplePlatform (FamiliesValid samplePlatform) fun _ _ _ => true).machine.Reachable config :=
    ⟨⟨sampleDb, []⟩, ⟨sample_familiesValid, rfl⟩, execute_leads run⟩
  exact permanent samplePlatform config after later 0 Function.injective_id reached commits (execute_leads rest) row member
    same live

end Revocation
