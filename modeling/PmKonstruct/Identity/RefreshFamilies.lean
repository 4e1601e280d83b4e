import PmKonstruct.Identity.Revocation

/- The refresh tokens that descend from one login: a call that runs alone rotates a family or revokes it as a whole, so
   that one of its tokens at most can still be presented. -/
namespace RefreshFamilies
open PlainText DomainErrors Accounts KeyedTable StatementProgram
open AuthStore (AuthDb Env RefreshTokenRow RefreshTokenRecord markUsed revoke)
open AuthService (call fail)
open RefreshTokens (Drawn Evolves HashUnique)
open Revocation (Live)

/-- One owner, revoked together, and one token at most that is neither used nor revoked. -/
structure Sound (platform : Platform) (db : AuthDb) : Prop where
  drawn : ∀ row ∈ db.refreshTokens.rows, Drawn platform db row.familyId
  oneOwner : ∀ a ∈ db.refreshTokens.rows, ∀ b ∈ db.refreshTokens.rows, a.familyId = b.familyId → a.userId = b.userId
  together : ∀ a ∈ db.refreshTokens.rows, ∀ b ∈ db.refreshTokens.rows, a.familyId = b.familyId →
    a.revokedAt.isSome → b.revokedAt.isSome
  single : ∀ a ∈ db.refreshTokens.rows, ∀ b ∈ db.refreshTokens.rows, a.familyId = b.familyId → Live a → Live b → a = b
  hashes : HashUnique db

/-- The family can take a new token of this user: every token it has is used, and none revoked. -/
structure Vacant (platform : Platform) (family : Uuid) (user : UserId) (db : AuthDb) : Prop where
  drawn : Drawn platform db family
  rows : ∀ row ∈ db.refreshTokens.rows, row.familyId = family → row.userId = user ∧ row.revokedAt = none ∧ row.usedAt.isSome

section Statements
variable {platform : Platform} {env : Env} {db after : AuthDb} {statement : AuthStore.Statement}

theorem same_row {a b : RefreshTokenRow} (left : a ∈ db.refreshTokens.rows) (right : b ∈ db.refreshTokens.rows)
    (same : a.id = b.id) : a = b := Table.key_inj left right same

/-- Rows that go on, with whole families revoked at once. -/
theorem sound_evolves (sound : Sound platform db) (drawn : db.familiesDrawn ≤ after.familiesDrawn)
    (named : RefreshTokenRow → Bool)
    (whole : ∀ a ∈ db.refreshTokens.rows, ∀ b ∈ db.refreshTokens.rows, a.familyId = b.familyId → named a = true →
      named b = true)
    (backward : ∀ new ∈ after.refreshTokens.rows, ∃ row ∈ db.refreshTokens.rows, Evolves row new ∧
      (new.revokedAt.isSome = true ↔ row.revokedAt.isSome = true ∨ named row = true)) : Sound platform after := by
  have family {a b : RefreshTokenRow} {x y : RefreshTokenRow} (ax : Evolves x a) (yb : Evolves y b)
      (same : a.familyId = b.familyId) : x.familyId = y.familyId := by
    rw [← ax.familyId, ← yb.familyId, same]
  have live {a x : RefreshTokenRow} (ax : Evolves x a) (there : Live a) : Live x := by
    constructor
    · refine Option.not_isSome_iff_eq_none.mp fun revoked => ?_
      have still := ax.revoked revoked
      rw [there.1] at still
      cases still
    · refine Option.not_isSome_iff_eq_none.mp fun used => ?_
      have still := ax.used used
      rw [there.2] at still
      cases still
  constructor
  · intro a first
    obtain ⟨x, xMember, ax, -⟩ := backward a first
    rw [ax.familyId]
    exact (sound.drawn x xMember).later drawn
  · intro a first b second same
    obtain ⟨x, xMember, ax, -⟩ := backward a first
    obtain ⟨y, yMember, yb, -⟩ := backward b second
    rw [ax.userId, yb.userId]
    exact sound.oneOwner x xMember y yMember (family ax yb same)
  · intro a first b second same revoked
    obtain ⟨x, xMember, ax, xRevoked⟩ := backward a first
    obtain ⟨y, yMember, yb, yRevoked⟩ := backward b second
    apply yRevoked.mpr
    rcases xRevoked.mp revoked with before | now
    · exact .inl (sound.together x xMember y yMember (family ax yb same) before)
    · exact .inr (whole x xMember y yMember (family ax yb same) now)
  · intro a first b second same aLive bLive
    obtain ⟨x, xMember, ax, -⟩ := backward a first
    obtain ⟨y, yMember, yb, -⟩ := backward b second
    have equal := sound.single x xMember y yMember (family ax yb same) (live ax aLive) (live yb bLive)
    exact same_row first second (by rw [ax.id, yb.id, equal])
  · intro a first b second same
    obtain ⟨x, xMember, ax, -⟩ := backward a first
    obtain ⟨y, yMember, yb, -⟩ := backward b second
    rw [ax.id, yb.id]
    exact sound.hashes x xMember y yMember (by rw [← ax.tokenHash, ← yb.tokenHash, same])

theorem sound_fewer (sound : Sound platform db) (drawn : db.familiesDrawn ≤ after.familiesDrawn)
    (fewer : ∀ new ∈ after.refreshTokens.rows, new ∈ db.refreshTokens.rows) : Sound platform after :=
  sound_evolves sound drawn (fun _ => false) (fun _ _ _ _ _ never => by cases never)
    fun new member => ⟨new, fewer new member, .refl new, by simp⟩

theorem sound_markUsed (sound : Sound platform db) (id : Int) : Sound platform (markUsed env db id) := by
  refine sound_evolves sound (Nat.le_refl _) (fun _ => false) (fun _ _ _ _ _ never => by cases never) fun new member => ?_
  obtain ⟨row, before, rfl⟩ := List.mem_map.mp member
  refine ⟨row, before, ?_, ?_⟩
  · split
    · exact ⟨rfl, rfl, rfl, rfl, fun _ => rfl, fun revoked => revoked⟩
    · exact .refl row
  · split <;> simp

theorem sound_revoke (sound : Sound platform db) {named : RefreshTokenRow → Bool}
    (whole : ∀ a ∈ db.refreshTokens.rows, ∀ b ∈ db.refreshTokens.rows, a.familyId = b.familyId → named a = true →
      named b = true) : Sound platform (revoke env db named).2 := by
  refine sound_evolves sound (Nat.le_refl _) named whole fun new member => ?_
  obtain ⟨row, before, rfl⟩ := List.mem_map.mp member
  refine ⟨row, before, ?_, ?_⟩
  · split
    · exact ⟨rfl, rfl, rfl, rfl, fun used => used, fun _ => rfl⟩
    · exact .refl row
  · cases here : named row <;> cases revoked : row.revokedAt <;> simp [here, revoked]

theorem sound_insert (sound : Sound platform db) {userId : UserId} {hash : Text} {family : Uuid} {expiresAt : Instant}
    (vacant : Vacant platform family userId db) (unused : ∀ row ∈ db.refreshTokens.rows, row.tokenHash ≠ hash)
    (tokens : after.refreshTokens = db.refreshTokens.insert
      (fun id => ⟨id, userId, hash, family, env.now, expiresAt, none, none⟩) fun _ => rfl)
    (drawn : db.familiesDrawn ≤ after.familiesDrawn) : Sound platform after := by
  have among : ∀ row ∈ after.refreshTokens.rows, row ∈ db.refreshTokens.rows ∨
      row = ⟨db.refreshTokens.serial, userId, hash, family, env.now, expiresAt, none, none⟩ := by
    intro row member
    rw [tokens] at member
    exact Table.mem_insert.mp member
  constructor
  · intro row member
    rcases among row member with old | rfl
    · exact (sound.drawn row old).later drawn
    · exact vacant.drawn.later drawn
  · intro a first b second same
    rcases among a first with left | rfl
    · rcases among b second with right | rfl
      · exact sound.oneOwner a left b right same
      · exact (vacant.rows a left same).1
    · rcases among b second with right | rfl
      · exact (vacant.rows b right same.symm).1.symm
      · rfl
  · intro a first b second same revoked
    rcases among a first with left | rfl
    · rcases among b second with right | rfl
      · exact sound.together a left b right same revoked
      · rw [(vacant.rows a left same).2.1] at revoked
        cases revoked
    · cases revoked
  · intro a first b second same aLive bLive
    rcases among a first with left | rfl
    · rcases among b second with right | rfl
      · exact sound.single a left b right same aLive bLive
      · have used := (vacant.rows a left same).2.2
        rw [aLive.2] at used
        cases used
    · rcases among b second with right | rfl
      · have used := (vacant.rows b right same.symm).2.2
        rw [bLive.2] at used
        cases used
      · rfl
  · intro a first b second same
    rcases among a first with left | rfl
    · rcases among b second with right | rfl
      · exact sound.hashes a left b right same
      · exact absurd same (unused a left)
    · rcases among b second with right | rfl
      · exact absurd same.symm (unused b right)
      · rfl

end Statements

/- The calls of authentication, each run alone. -/

def changesTokens : AuthStore.Statement → Bool
  | .markUsed _ | .insert _ _ _ _ | .revokeFamily _ | .revokeAllForUser _ => true
  | _ => false

structure Kept (db after : AuthDb) : Prop where
  tokens : after.refreshTokens = db.refreshTokens
  drawn : db.familiesDrawn ≤ after.familiesDrawn

theorem Kept.sound {platform : Platform} {db after : AuthDb} (kept : Kept db after) (sound : Sound platform db) :
    Sound platform after := by
  refine sound_fewer sound kept.drawn fun new member => ?_
  rw [kept.tokens] at member
  exact member

theorem Kept.vacant {platform : Platform} {db after : AuthDb} {family : Uuid} {user : UserId} (kept : Kept db after)
    (vacant : Vacant platform family user db) : Vacant platform family user after := by
  refine ⟨vacant.drawn.later kept.drawn, fun row member => ?_⟩
  rw [kept.tokens] at member
  exact vacant.rows row member

section Programs
variable {platform : Platform} {env : Env} {db : AuthDb} {statement : AuthStore.Statement} {α : Type}

abbrev Ensures (platform : Platform) (Ends : Except AppError α → AuthDb → Prop) (action : AuthService.Action α)
    (db : AuthDb) : Prop := action.Ensures (AuthStore.execute platform) Ends db

theorem execute_kept (quiet : changesTokens statement = false) :
    Kept db (AuthStore.execute platform env statement db).2 := by
  refine ⟨?_, RefreshTokens.execute_familiesDrawn platform env statement db⟩
  rcases AuthStore.execute_or_fault platform env statement db with performed | ⟨e, failed⟩
  · rw [performed]
    cases statement with
    | claimResetAndSetPassword tokenId user hash =>
      simp only [AuthStore.perform, AuthStore.claimReset]
      split <;> rfl
    | markUsed id => cases quiet
    | insert user hash family expiresAt => cases quiet
    | revokeFamily family => cases quiet
    | revokeAllForUser user => cases quiet
    | _ => simp [AuthStore.perform]
  · rw [failed]

theorem ensures_call {Ends : Except AppError α → AuthDb → Prop} {next : AuthStore.Reply statement → AuthService.Action α}
    (failed : ∀ env e, (AuthStore.execute platform env statement db).1 = .error e →
      Ends (.error (.port e)) (AuthStore.execute platform env statement db).2)
    (goes : ∀ env reply, (AuthStore.execute platform env statement db).1 = .ok reply →
      Ensures platform Ends (next reply) (AuthStore.execute platform env statement db).2) :
    Ensures platform Ends (call statement next) db := by
  intro env
  cases answer : (AuthStore.execute platform env statement db).1 with
  | error e => exact failed env e answer
  | ok reply => exact goes env reply answer

/-- A statement that leaves the tokens alone. -/
theorem sound_quiet {next : AuthStore.Reply statement → AuthService.Action α} (quiet : changesTokens statement = false)
    (sound : Sound platform db) (goes : ∀ env reply, (AuthStore.execute platform env statement db).1 = .ok reply →
      ∀ after, Kept db after → Ensures platform (fun _ => Sound platform) (next reply) after) :
    Ensures platform (fun _ => Sound platform) (call statement next) db :=
  ensures_call (fun _ _ _ => (execute_kept quiet).sound sound)
    fun env reply answer => goes env reply answer _ (execute_kept quiet)

/-- A statement that failed has done nothing. -/
theorem execute_sound (sound : Sound platform db)
    (performed : Sound platform (AuthStore.perform platform env statement db).2) :
    Sound platform (AuthStore.execute platform env statement db).2 :=
  faulting_keeps (Sound platform) sound performed

theorem insert_sound {user : UserId} {hash : Text} {family : Uuid} {expiresAt : Instant} (sound : Sound platform db)
    (vacant : Vacant platform family user db) :
    Sound platform (AuthStore.execute platform env (.insert user hash family expiresAt) db).2 := by
  refine execute_sound sound ?_
  simp only [AuthStore.perform, AuthStore.insertRefreshToken]
  split
  · exact sound
  · split
    · exact sound
    · next unused =>
      split
      · exact sound
      · exact sound_insert sound vacant (by simpa using unused) rfl (Nat.le_refl _)

theorem revokeFamily_sound {family : Uuid} (sound : Sound platform db) :
    Sound platform (AuthStore.execute platform env (.revokeFamily family) db).2 := by
  refine execute_sound sound (sound_revoke sound fun a _ b _ same named => ?_)
  simpa [same] using named

theorem revokeAllForUser_sound {user : UserId} (sound : Sound platform db) :
    Sound platform (AuthStore.execute platform env (.revokeAllForUser user) db).2 := by
  refine execute_sound sound (sound_revoke sound fun a first b second same named => ?_)
  simpa [sound.oneOwner a first b second same] using named

theorem issueInFamily_sound {user : User} {family : Uuid} (sound : Sound platform db)
    (vacant : Vacant platform family user.id db) :
    Ensures platform (fun _ => Sound platform) (AuthService.issueInFamily platform user family) db := by
  refine sound_quiet rfl sound fun env now _ later kept => ?_
  split
  · exact kept.sound sound
  · refine sound_quiet rfl (kept.sound sound) fun env value _ after still => ?_
    refine ensures_call (fun env e _ => ?_) fun env reply _ => ?_
    · exact insert_sound (still.sound (kept.sound sound)) (still.vacant (kept.vacant vacant))
    · exact insert_sound (still.sound (kept.sound sound)) (still.vacant (kept.vacant vacant))

/-- A family that has just been drawn has no token. -/
theorem issueSession_sound {user : User} (fresh : Function.Injective platform.uuid) (sound : Sound platform db) :
    Ensures platform (fun _ => Sound platform) (AuthService.issueSession platform user) db := by
  refine ensures_call (fun env e _ => (execute_kept rfl).sound sound) fun env family drawn => ?_
  have kept : Kept db (AuthStore.execute platform env .randomUuid db).2 := execute_kept rfl
  obtain ⟨same, now⟩ : family = platform.uuid db.familiesDrawn ∧
      Drawn platform (AuthStore.execute platform env .randomUuid db).2 family := by
    have performed := AuthStore.execute_of_ok drawn
    rw [performed] at drawn ⊢
    cases drawn
    exact ⟨rfl, db.familiesDrawn, Nat.lt_succ_self _, rfl⟩
  refine issueInFamily_sound (kept.sound sound) ⟨now, fun row member inFamily => ?_⟩
  rw [kept.tokens] at member
  have older := sound.drawn row member
  rw [inFamily, same] at older
  exact absurd older (RefreshTokens.next_undrawn fresh)

theorem login_sound {email passwordInput : Text} (fresh : Function.Injective platform.uuid) (sound : Sound platform db) :
    Ensures platform (fun _ => Sound platform) (AuthService.login platform email passwordInput) db := by
  refine sound_quiet rfl sound fun env found _ read kept => ?_
  cases found with
  | none => exact sound_quiet rfl (kept.sound sound) fun _ _ _ after still => still.sound (kept.sound sound)
  | some cred =>
    simp only
    split
    · exact kept.sound sound
    · split
      · exact kept.sound sound
      · split
        · exact kept.sound sound
        · split
          · refine sound_quiet rfl (kept.sound sound) fun env salt _ after still => ?_
            split
            · exact issueSession_sound fresh (still.sound (kept.sound sound))
            · exact fun env => issueSession_sound fresh ((execute_kept rfl).sound (still.sound (kept.sound sound)))
          · exact issueSession_sound fresh (kept.sound sound)

theorem logout_sound {presented : Text} (sound : Sound platform db) :
    Ensures platform (fun _ => Sound platform) (AuthService.logout platform presented) db := by
  refine sound_quiet rfl sound fun env found _ read kept => ?_
  cases found with
  | none => exact kept.sound sound
  | some record =>
    exact ensures_call (fun _ _ _ => revokeFamily_sound (kept.sound sound))
      fun _ _ _ => revokeFamily_sound (kept.sound sound)

theorem resetPassword_sound {submitted password : Text} (sound : Sound platform db) :
    Ensures platform (fun _ => Sound platform) (AuthService.resetPassword platform submitted password) db := by
  unfold AuthService.resetPassword
  split
  · exact sound
  · refine sound_quiet rfl sound fun env found _ read kept => ?_
    have soundRead := kept.sound sound
    cases found with
    | none => exact soundRead
    | some token =>
      refine sound_quiet rfl soundRead fun env salt _ salted still => ?_
      split
      · exact still.sound soundRead
      · refine sound_quiet rfl (still.sound soundRead) fun env claimed _ set same => ?_
        have soundSet := same.sound (still.sound soundRead)
        cases claimed with
        | false => exact soundSet
        | true =>
          exact ensures_call (fun _ _ _ => revokeAllForUser_sound soundSet) fun _ _ _ => revokeAllForUser_sound soundSet

theorem findByHash_row {hash : Text} {record : RefreshTokenRecord}
    (read : (AuthStore.execute platform env (.findByHash hash) db).1 = .ok (some record)) :
    ∃ row ∈ db.refreshTokens.rows, row.tokenHash = hash ∧ row.toRecord = record := by
  rw [AuthStore.execute_of_ok read] at read
  exact RefreshTokens.findByHash_found (Except.ok.inj read)

theorem findByHash_none {hash : Text} (read : (AuthStore.execute platform env (.findByHash hash) db).1 = .ok none) :
    ∀ row ∈ db.refreshTokens.rows, row.tokenHash ≠ hash := by
  rw [AuthStore.execute_of_ok read] at read
  have missing := List.find?_eq_none.mp (Option.map_eq_none_iff.mp (Except.ok.inj read))
  exact fun row member same => missing row member (decide_eq_true same)

theorem revokeFamily_kills {family : Uuid} {count : Nat}
    (answered : (AuthStore.execute platform env (.revokeFamily family) db).1 = .ok count) :
    ∀ new ∈ (AuthStore.execute platform env (.revokeFamily family) db).2.refreshTokens.rows, new.familyId = family →
      ¬ Live new := by
  rw [AuthStore.execute_of_ok answered]
  intro new member inFamily live
  obtain ⟨row, -, rfl⟩ := List.mem_map.mp member
  split at live
  · exact Option.some_ne_none _ live.1
  · next unmatched =>
    rw [if_neg unmatched] at inFamily
    simp [inFamily, live.1] at unmatched

theorem findByIdUnscoped_named {id : UserId} {user : User}
    (read : (AuthStore.execute platform env (.findByIdUnscoped id) db).1 = .ok (some user)) : user.id = id := by
  rw [AuthStore.execute_of_ok read] at read
  exact RefreshTokens.findByIdUnscoped_id read

/-- Using the token of the family that was still live leaves the family without one. -/
theorem markUsed_vacant {row : RefreshTokenRow} (sound : Sound platform db) (member : row ∈ db.refreshTokens.rows)
    (live : Live row) (answered : (AuthStore.execute platform env (.markUsed row.id) db).1 = .ok ()) :
    Vacant platform row.familyId row.userId (AuthStore.execute platform env (.markUsed row.id) db).2 := by
  rw [AuthStore.execute_of_ok answered]
  refine ⟨sound.drawn row member, fun new there inFamily => ?_⟩
  obtain ⟨old, before, rfl⟩ := List.mem_map.mp there
  have family : old.familyId = row.familyId := by
    split at inFamily <;> exact inFamily
  have unrevoked : old.revokedAt = none := by
    refine Option.not_isSome_iff_eq_none.mp fun revoked => ?_
    have also := sound.together old before row member family revoked
    rw [live.1] at also
    cases also
  have owner := sound.oneOwner old before row member family
  split
  · exact ⟨owner, unrevoked, rfl⟩
  · next unmatched =>
    refine ⟨owner, unrevoked, ?_⟩
    by_cases used : old.usedAt = none
    · have same := sound.single old before row member family ⟨unrevoked, used⟩ live
      simp [same, live.2] at unmatched
    · exact Option.isSome_iff_ne_none.mpr used

theorem refresh_sound {presented : Text} (sound : Sound platform db) :
    Ensures platform (fun _ => Sound platform) (AuthService.refresh platform presented) db := by
  refine sound_quiet rfl sound fun env found read afterRead kept => ?_
  have soundRead := kept.sound sound
  cases found with
  | none => exact soundRead
  | some record =>
    obtain ⟨row, member, -, rfl⟩ := findByHash_row read
    rw [← kept.tokens] at member
    simp only
    split
    · exact soundRead
    · next unrevoked =>
      split
      · exact ensures_call (fun _ _ _ => revokeFamily_sound soundRead) fun _ _ _ => revokeFamily_sound soundRead
      · next unused =>
        refine sound_quiet rfl soundRead fun env now _ afterNow still => ?_
        have soundNow := still.sound soundRead
        rw [← still.tokens] at member
        split
        · exact soundNow
        · refine sound_quiet rfl soundNow fun env loaded owner afterOwner same => ?_
          have soundOwner := same.sound soundNow
          rw [← same.tokens] at member
          cases loaded with
          | none => exact soundOwner
          | some user =>
            have named : user.id = row.userId := findByIdUnscoped_named owner
            simp only
            split
            · exact ensures_call (fun _ _ _ => revokeAllForUser_sound soundOwner)
                fun _ _ _ => revokeAllForUser_sound soundOwner
            · have live : Live row := ⟨by simpa [RefreshTokenRow.toRecord] using unrevoked,
                by simpa [RefreshTokenRow.toRecord] using unused⟩
              refine ensures_call (fun env e _ => ?_) fun env reply marked => ?_
              · exact execute_sound soundOwner (sound_markUsed soundOwner row.id)
              · refine issueInFamily_sound (execute_sound soundOwner (sound_markUsed soundOwner row.id)) ?_
                rw [named]
                exact markUsed_vacant soundOwner member live marked

/-- A used token that is presented again: unless the database failed, its family is dead afterwards. -/
theorem reuse_revokes {presented : Text} {row : RefreshTokenRow} (sound : Sound platform db)
    (member : row ∈ db.refreshTokens.rows) (hash : row.tokenHash = hashRefresh platform presented)
    (used : row.usedAt.isSome) :
    Ensures platform (fun result after => (∃ e, result = .error (.port e)) ∨
      ∀ other ∈ after.refreshTokens.rows, other.familyId = row.familyId → ¬ Live other)
      (AuthService.refresh platform presented) db := by
  refine ensures_call (fun env e _ => .inl ⟨e, rfl⟩) fun env found read => ?_
  have kept : Kept db (AuthStore.execute platform env (.findByHash (hashRefresh platform presented)) db).2 := execute_kept rfl
  have dead : row.revokedAt.isSome → ∀ other ∈ (AuthStore.execute platform env (.findByHash (hashRefresh platform presented))
      db).2.refreshTokens.rows, other.familyId = row.familyId → ¬ Live other := by
    intro revoked other there family live
    rw [kept.tokens] at there
    have also := sound.together row member other there family.symm revoked
    rw [live.1] at also
    cases also
  cases found with
  | none => exact absurd hash (findByHash_none read row member)
  | some record =>
    obtain ⟨found, there, same, rfl⟩ := findByHash_row read
    obtain rfl : found = row := same_row there member (sound.hashes found there row member (same.trans hash.symm))
    simp only
    split
    · next revoked => exact .inr (dead revoked)
    · split
      · refine ensures_call (fun env e _ => .inl ⟨e, rfl⟩) fun env count answered => .inr ?_
        exact revokeFamily_kills answered
      · next unused => exact absurd used unused

end Programs

end RefreshFamilies
