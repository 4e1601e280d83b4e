import PmKonstruct.Identity.AuthService

/- What one statement can do to the refresh tokens, and what an answer about them goes on meaning: rows are
   never deleted, keep their owner, hash and family, and never become unused or unrevoked again. -/
namespace RefreshTokens
open PlainText DomainErrors Accounts AuthStore AuthService KeyedTable StatementProgram TransitionRuns

variable {platform : Platform} {env : Env} {statement : Statement} {db : AuthDb} {row : RefreshTokenRow}

/-- Every effect of a statement on the refresh tokens. -/
theorem execute_tokens_cases (platform : Platform) (env : Env) (statement : Statement) (db : AuthDb) :
    (execute platform env statement db).2.refreshTokens = db.refreshTokens ∨
    (env.fault = none ∧ ∃ id, statement = .markUsed id ∧
      (execute platform env statement db).2.refreshTokens = (markUsed env db id).refreshTokens) ∨
    (env.fault = none ∧ ∃ userId tokenHash familyId expiresAt,
      statement = .insert userId tokenHash familyId expiresAt ∧
      (∀ row ∈ db.refreshTokens.rows, row.tokenHash ≠ tokenHash) ∧
      (execute platform env statement db).2.refreshTokens = db.refreshTokens.insert
        (fun id => ⟨id, userId, tokenHash, familyId, env.now, expiresAt, none, none⟩) (fun _ => rfl)) ∨
    (∃ named, (execute platform env statement db).2.refreshTokens = (revoke env db named).2.refreshTokens) := by
  cases fault : env.fault with
  | some e =>
    left
    cases statement <;> simp [execute, faulting, fault, Statement.queries, perform]
  | none =>
    cases statement with
    | markUsed id => exact .inr (.inl ⟨rfl, id, rfl, by simp [execute, faulting, fault, perform]⟩)
    | insert userId tokenHash familyId expiresAt =>
      simp only [execute, faulting, fault, perform, insertRefreshToken]
      split
      · exact .inl rfl
      · split
        · exact .inl rfl
        · next unused =>
          split
          · exact .inl rfl
          · refine .inr (.inr (.inl ⟨trivial, userId, tokenHash, familyId, expiresAt, rfl, ?_, rfl⟩))
            simpa using unused
    | revokeFamily familyId => exact .inr (.inr (.inr ⟨_, by simp only [execute, faulting, fault, perform]; rfl⟩))
    | revokeAllForUser userId => exact .inr (.inr (.inr ⟨_, by simp only [execute, faulting, fault, perform]; rfl⟩))
    | claimResetAndSetPassword tokenId user passwordHash =>
      left
      simp only [execute, faulting, fault, perform, claimReset]
      split <;> rfl
    | _ =>
      left
      simp [execute, faulting, fault, perform]

/-- How a row may look later. -/
structure Evolves (old new : RefreshTokenRow) : Prop where
  id : new.id = old.id
  userId : new.userId = old.userId
  tokenHash : new.tokenHash = old.tokenHash
  familyId : new.familyId = old.familyId
  used : old.usedAt.isSome → new.usedAt.isSome
  revoked : old.revokedAt.isSome → new.revokedAt.isSome

theorem Evolves.refl (row : RefreshTokenRow) : Evolves row row :=
  ⟨rfl, rfl, rfl, rfl, fun used => used, fun revoked => revoked⟩

/-- An old row stays, and a row found later is an old one or the one just inserted. -/
theorem execute_evolves (platform : Platform) (env : Env) (statement : Statement) (db : AuthDb) :
    (∀ row ∈ db.refreshTokens.rows,
      ∃ new ∈ (execute platform env statement db).2.refreshTokens.rows, Evolves row new) ∧
    ∀ new ∈ (execute platform env statement db).2.refreshTokens.rows,
      (∃ row ∈ db.refreshTokens.rows, Evolves row new) ∨
      (env.fault = none ∧ ∃ userId tokenHash familyId expiresAt,
        statement = .insert userId tokenHash familyId expiresAt ∧
        (∀ row ∈ db.refreshTokens.rows, row.tokenHash ≠ tokenHash) ∧
        new = ⟨db.refreshTokens.serial, userId, tokenHash, familyId, env.now, expiresAt, none, none⟩) := by
  have updated : ∀ (p : RefreshTokenRow → Bool) (change : RefreshTokenRow → RefreshTokenRow)
      (keeps : ∀ row, Keyed.key (change row) = Keyed.key row), (∀ row, p row = true → Evolves row (change row)) →
      (∀ row ∈ db.refreshTokens.rows, ∃ new ∈ (db.refreshTokens.update p change keeps).rows, Evolves row new) ∧
      ∀ new ∈ (db.refreshTokens.update p change keeps).rows, ∃ row ∈ db.refreshTokens.rows, Evolves row new := by
    intro p change keeps evolves
    have each : ∀ row, Evolves row (if p row then change row else row) := by
      intro row
      split
      · next matched => exact evolves row matched
      · exact .refl row
    constructor
    · intro row member
      exact ⟨_, Table.mem_update.mpr ⟨row, member, rfl⟩, each row⟩
    · intro new member
      obtain ⟨row, old, rfl⟩ := Table.mem_update.mp member
      exact ⟨row, old, each row⟩
  rcases execute_tokens_cases platform env statement db with same | ⟨-, id, -, effect⟩ |
    ⟨calm, userId, tokenHash, familyId, expiresAt, shape, fresh, effect⟩ | ⟨named, effect⟩
  · rw [same]
    exact ⟨fun row member => ⟨row, member, .refl row⟩, fun new member => .inl ⟨new, member, .refl new⟩⟩
  · rw [effect]
    obtain ⟨forward, backward⟩ := updated (fun t => t.id = id && t.usedAt.isNone)
      (fun t => { t with usedAt := some env.now }) (fun _ => rfl)
      (fun row _ => ⟨rfl, rfl, rfl, rfl, fun _ => rfl, fun revoked => revoked⟩)
    exact ⟨forward, fun new member => .inl (backward new member)⟩
  · rw [effect]
    refine ⟨fun row member => ⟨row, Table.mem_insert.mpr (.inl member), .refl row⟩, fun new member => ?_⟩
    rcases Table.mem_insert.mp member with old | made
    · exact .inl ⟨new, old, .refl new⟩
    · exact .inr ⟨calm, userId, tokenHash, familyId, expiresAt, shape, fresh, made⟩
  · rw [effect]
    obtain ⟨forward, backward⟩ := updated (fun t => named t && t.revokedAt.isNone)
      (fun t => { t with revokedAt := some env.now }) (fun _ => rfl)
      (fun row _ => ⟨rfl, rfl, rfl, rfl, fun used => used, fun _ => rfl⟩)
    exact ⟨forward, fun new member => .inl (backward new member)⟩

theorem execute_keeps_row (platform : Platform) (env : Env) (statement : Statement)
    (member : row ∈ db.refreshTokens.rows) :
    ∃ new ∈ (execute platform env statement db).2.refreshTokens.rows, Evolves row new :=
  (execute_evolves platform env statement db).1 row member

/-- The unique index on the token hash. -/
def HashUnique (db : AuthDb) : Prop :=
  ∀ a ∈ db.refreshTokens.rows, ∀ b ∈ db.refreshTokens.rows, a.tokenHash = b.tokenHash → a.id = b.id

instance (db : AuthDb) : Decidable (HashUnique db) :=
  inferInstanceAs (Decidable (∀ a ∈ db.refreshTokens.rows, ∀ b ∈ db.refreshTokens.rows,
    a.tokenHash = b.tokenHash → a.id = b.id))

theorem markUsed_marks (member : row ∈ db.refreshTokens.rows) (unused : row.usedAt = none) :
    { row with usedAt := some env.now } ∈ (markUsed env db row.id).refreshTokens.rows :=
  List.mem_map.mpr ⟨row, member, by simp [unused]⟩

theorem execute_hashUnique (unique : HashUnique db) : HashUnique (execute platform env statement db).2 := by
  intro a first b second same
  have source := (execute_evolves platform env statement db).2
  rcases source a first with ⟨x, xMember, xa⟩ | ⟨-, u, h, f, e, shape, fresh, rfl⟩
  · rcases source b second with ⟨y, yMember, yb⟩ | ⟨-, u, h, f, e, shape, fresh, rfl⟩
    · rw [xa.id, yb.id]
      exact unique x xMember y yMember (by rw [← xa.tokenHash, ← yb.tokenHash, same])
    · exact absurd (xa.tokenHash.symm.trans same) (fresh x xMember)
  · rcases source b second with ⟨y, yMember, yb⟩ | ⟨-, u', h', f', e', shape', -, rfl⟩
    · exact absurd (yb.tokenHash.symm.trans same.symm) (fresh y yMember)
    · rfl

theorem execute_familiesDrawn (platform : Platform) (env : Env) (statement : Statement) (db : AuthDb) :
    db.familiesDrawn ≤ (execute platform env statement db).2.familiesDrawn := by
  rcases execute_or_fault platform env statement db with performed | ⟨e, failed⟩
  · rw [performed]
    cases statement with
    | claimResetAndSetPassword tokenId user passwordHash =>
      simp only [perform, claimReset]
      split <;> exact Nat.le_refl _
    | insert userId tokenHash familyId expiresAt =>
      simp only [perform, insertRefreshToken]
      split
      · exact Nat.le_refl _
      · split
        · exact Nat.le_refl _
        · split <;> exact Nat.le_refl _
    | _ => simp [perform, markUsed, revoke]
  · rw [failed]

/-- The identifier is one of those drawn so far. -/
def Drawn (platform : Platform) (db : AuthDb) (familyId : Uuid) : Prop := ∃ n < db.familiesDrawn, platform.uuid n = familyId

instance (platform : Platform) (db : AuthDb) (familyId : Uuid) : Decidable (Drawn platform db familyId) :=
  inferInstanceAs (Decidable (∃ n < db.familiesDrawn, platform.uuid n = familyId))

theorem Drawn.later {after : AuthDb} {familyId : Uuid} (drawn : Drawn platform db familyId)
    (more : db.familiesDrawn ≤ after.familiesDrawn) : Drawn platform after familyId := by
  obtain ⟨n, before, same⟩ := drawn
  exact ⟨n, Nat.lt_of_lt_of_le before more, same⟩

/-- Where no identifier is drawn twice, the next one is new. -/
theorem next_undrawn (fresh : Function.Injective platform.uuid) : ¬ Drawn platform db (platform.uuid db.familiesDrawn) := by
  rintro ⟨n, before, same⟩
  exact absurd (fresh same) (Nat.ne_of_lt before)

/-- What an answer says of the store from then on. -/
def AnswerHolds (platform : Platform) (db : AuthDb) : Event Statement Answer → Prop
  | ⟨.findByHash tokenHash, .ok (some record)⟩ => ∃ row ∈ db.refreshTokens.rows, row.tokenHash = tokenHash ∧
      row.id = record.id ∧ row.userId = record.userId ∧ row.familyId = record.familyId
  | ⟨.findByIdUnscoped id, .ok (some user)⟩ => user.id = id
  | ⟨.randomUuid, .ok familyId⟩ => Drawn platform db familyId
  | _ => True

theorem findByHash_found {tokenHash : Text} {record : RefreshTokenRecord} (found : findByHash db tokenHash = some record) :
    ∃ row ∈ db.refreshTokens.rows, row.tokenHash = tokenHash ∧ row.toRecord = record := by
  obtain ⟨row, here, same⟩ := Option.map_eq_some_iff.mp found
  exact ⟨row, List.mem_of_find?_eq_some here, by simpa using List.find?_some here, same⟩

theorem findByHash_recorded {tokenHash : Text} {record : RefreshTokenRecord}
    (found : findByHash db tokenHash = some record) : ∃ row ∈ db.refreshTokens.rows, row.tokenHash = tokenHash ∧
      row.id = record.id ∧ row.userId = record.userId ∧ row.familyId = record.familyId := by
  obtain ⟨row, member, hash, rfl⟩ := findByHash_found found
  exact ⟨row, member, hash, rfl, rfl, rfl⟩

theorem findByIdUnscoped_id {id : UserId} {user : User} (found : findByIdUnscoped db id = .ok (some user)) :
    user.id = id := by
  obtain ⟨row, there, parsed⟩ := findByIdUnscoped_row found
  obtain ⟨role, -, rfl⟩ := UserRow.intoDomain_iff.mp parsed
  exact (Table.find_eq_some_iff.mp there).2

theorem answer_recorded (platform : Platform) (env : Env) (statement : Statement) (db : AuthDb) :
    AnswerHolds platform (execute platform env statement db).2 ⟨statement, (execute platform env statement db).1⟩ := by
  rcases execute_or_fault platform env statement db with performed | ⟨e, failed⟩
  · rw [performed]
    cases statement with
    | findByHash tokenHash =>
      simp only [perform]
      cases found : findByHash db tokenHash with
      | none => trivial
      | some record => exact findByHash_recorded found
    | findByIdUnscoped id =>
      simp only [perform]
      rcases found : findByIdUnscoped db id with e | (_ | user)
      · trivial
      · trivial
      · exact findByIdUnscoped_id found
    | randomUuid => exact ⟨db.familiesDrawn, Nat.lt_succ_self _, rfl⟩
    | _ => trivial
  · rw [failed]
    cases statement <;> trivial

theorem answer_kept {event : Event Statement Answer} (platform : Platform) (env : Env) (statement : Statement)
    (holds : AnswerHolds platform db event) : AnswerHolds platform (execute platform env statement db).2 event := by
  unfold AnswerHolds at holds ⊢
  split
  · obtain ⟨row, member, hash, id, user, family⟩ := holds
    obtain ⟨new, there, evolves⟩ := execute_keeps_row platform env statement member
    exact ⟨new, there, evolves.tokenHash.trans hash, evolves.id.trans id, evolves.userId.trans user,
      evolves.familyId.trans family⟩
  · exact holds
  · exact holds.later (execute_familiesDrawn platform env statement db)
  · trivial

/-- Every answer in the trace of a call still holds of the store. -/
theorem answers_hold {initial : AuthDb → Prop} {admits : Env → Statement → AuthDb → Bool} {config : AuthConfig}
    (reached : (authService platform initial admits).machine.Reachable config) :
    ∀ call ∈ config.calls, ∀ event ∈ call.trace, AnswerHolds platform config.store event :=
  events_recorded (AnswerHolds platform) (fun env statement db _ => answer_recorded platform env statement db)
    (fun env statement _ _ _ holds => answer_kept platform env statement holds) reached

end RefreshTokens
