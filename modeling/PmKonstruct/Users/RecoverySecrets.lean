import PmKonstruct.Users.RecoveryPrograms

/- How many secrets for recovery are live at a time. Whoever issues one spends those it sees, and does not see what
   another call has not committed: one is live as long as no two calls issue for one account at the same time. -/
namespace RecoverySecrets
open PlainText DomainErrors Accounts KeyedTable TransitionRuns ReadCommitted RecoveryPrograms
open AuthStore (AuthDb Env PasswordResetTokenRow)

def live (now : Instant) (user : UserId) (t : PasswordResetTokenRow) : Bool :=
  t.userId = user && t.usedAt.isNone && t.expiresAt > now

def liveRows (now : Instant) (user : UserId) (db : AuthDb) : List PasswordResetTokenRow :=
  db.passwordResetTokens.select (live now user)

/- The condition on a run. -/

/-- The account for which a statement makes room for a new secret. -/
def spendsFor : Statement → Option UserId
  | .spendOutstanding _ user => some user
  | .storeResetToken user _ _ => some user
  | _ => none

/-- The other call has begun to issue for an account that this one issues for. -/
def clashes (_ : AuthDb) (tx other : Running) : Bool :=
  tx.trace.any fun event => (spendsFor event.statement).any fun user =>
    other.begun fun statement => spendsFor statement = some user

/- What the statements do to the live rows. -/

def adds : Statement → Bool
  | .insertCode _ _ _ _ => true
  | .storeResetToken _ _ _ => true
  | _ => false

/-- The live rows of the account are all old ones, as they were. -/
def Shrinks (now : Instant) (user : UserId) (before after : AuthDb) : Prop :=
  ∀ row ∈ liveRows now user after, row ∈ liveRows now user before

/-- No row becomes live and nobody changes company. -/
structure Spends (now : Instant) (change : AuthDb → AuthDb) : Prop where
  shrinks : ∀ db user, Shrinks now user db (change db)
  sees : ∀ db scope user, sees (change db) scope user = sees db scope user

section Effects
variable {platform : Platform} {env : Env} {serial : Int} {snapshot current db : AuthDb} {now : Instant} {user : UserId}
    {row : PasswordResetTokenRow} {ids : List Int}

theorem mem_liveRows : row ∈ liveRows now user db ↔ row ∈ db.passwordResetTokens.rows ∧ row.userId = user ∧
    row.usedAt = none ∧ row.expiresAt > now := by
  simp [liveRows, live, and_assoc]

/-- What stays live was not among the rows to spend. -/
theorem mem_live_spend : row ∈ liveRows now user (spend env ids db) ↔ row ∈ liveRows now user db ∧ row.id ∉ ids := by
  have rows : row ∈ (spend env ids db).passwordResetTokens.rows ↔ ∃ old ∈ db.passwordResetTokens.rows,
      row = if decide (old.id ∈ ids) = true then { old with usedAt := some env.now } else old := by
    rw [spend, AuthStore.spendResetTokens, Table.mem_update]
  rw [mem_liveRows, mem_liveRows, rows]
  constructor
  · rintro ⟨⟨old, member, rfl⟩, own, unused, unexpired⟩
    by_cases among : old.id ∈ ids
    · simp [among] at unused
    · rw [if_neg (by simpa using among)] at own unused unexpired ⊢
      exact ⟨⟨member, own, unused, unexpired⟩, among⟩
  · rintro ⟨⟨member, rest⟩, apart⟩
    exact ⟨⟨row, member, by simp [apart]⟩, rest⟩

theorem mem_live_store {new : PasswordResetTokenRow} (live : row ∈ liveRows now user (store new db)) :
    row ∈ liveRows now user db ∨ row = new := by
  obtain ⟨member, rest⟩ := mem_liveRows.mp live
  rcases Table.mem_put.mp member with ⟨old, -⟩ | same
  · exact .inl (mem_liveRows.mpr ⟨old, rest⟩)
  · exact .inr same

theorem spends_nothing : Spends now id where
  shrinks := fun _ _ _ member => member
  sees := fun _ _ _ => rfl

theorem Spends.comp {first second : AuthDb → AuthDb} (earlier : Spends now first) (later : Spends now second) :
    Spends now (second ∘ first) where
  shrinks := fun db user row member => earlier.shrinks db user row (later.shrinks _ user row member)
  sees := fun db scope user => (later.sees _ scope user).trans (earlier.sees db scope user)

theorem spends_spend : Spends now (spend env ids) where
  shrinks := fun _ _ _ member => (mem_live_spend.mp member).1
  sees := fun _ _ _ => rfl

theorem spends_setPassword {hash : Text} :
    Spends now fun db => { db with users := AuthStore.setPassword env db user hash } where
  shrinks := fun _ _ _ member => member
  sees := by
    intro db scope other
    simp only [sees, AuthStore.setPassword, Table.find_update]
    cases db.users.find other with
    | none => rfl
    | some u =>
      simp only [Option.map_some, Option.any_some]
      split <;> rfl

theorem execute_spends {statement : Statement} (only : adds statement = false) :
    Spends now (execute platform env serial statement snapshot current).change := by
  cases fault : env.fault with
  | some e =>
    simp only [execute, fault]
    exact spends_nothing
  | none =>
    simp only [execute, fault]
    cases statement with
    | insertCode scope user token expiresAt => cases only
    | storeResetToken user token expiresAt => cases only
    | spendOutstanding scope user => exact spends_spend
    | claimToken tokenId => exact spends_spend
    | spendOthers user => exact spends_spend
    | setPassword user hash => exact spends_setPassword
    | _ => exact spends_nothing

end Effects

/- What the programs look like from where they have come to. -/

def Quiet : Steps → Prop
  | .done _ => True
  | .stmt statement next => adds statement = false ∧ ∀ answer, Quiet (next answer)

def isRead : Statement → Bool
  | .findUser _ _ => true
  | .recoveryContext _ => true
  | .findResetToken _ _ => true
  | _ => false

def inserting (scope : CompanyId) (user : UserId) (token : Text) (expiresAt : Instant) (returned : Returned) : Steps :=
  .stmt (.insertCode scope user token expiresAt) (orFail fun _ => .done (.commit (.ok returned)))

/-- A program that has written nothing yet. -/
inductive Shape : Steps → Prop where
  | quiet {p : Steps} (rest : Quiet p) : Shape p
  | issuing {scope : CompanyId} {user : UserId} {token : Text} {expiresAt : Instant} {returned : Returned} :
      Shape (issuing scope user token expiresAt returned)
  | storing {user : UserId} {token : Text} {expiresAt : Instant} {returned : Returned} :
      Shape (storing user token expiresAt returned)
  | reads {statement : Statement} {next : Answer statement → Steps} (read : isRead statement = true)
      (rest : ∀ answer, Shape (next answer)) : Shape (.stmt statement next)

theorem quiet_orFail {α : Type} {next : α → Steps} (rest : ∀ reply, Quiet (next reply)) :
    ∀ answer, Quiet (orFail next answer) := by
  intro answer
  cases answer with
  | error e => trivial
  | ok reply => exact rest reply

theorem shape_orFail {α : Type} {next : α → Steps} (rest : ∀ reply, Shape (next reply)) :
    ∀ answer, Shape (orFail next answer) := by
  intro answer
  cases answer with
  | error e => exact .quiet trivial
  | ok reply => exact rest reply

theorem quiet_claiming {tokenId : Int} {user : UserId} {hash : Text} {invalid : AppError} :
    Quiet (claiming tokenId user hash invalid) := by
  refine ⟨rfl, quiet_orFail fun claimed => ?_⟩
  cases claimed with
  | false => trivial
  | true => exact ⟨rfl, quiet_orFail fun _ => ⟨rfl, quiet_orFail fun _ => trivial⟩⟩

theorem program_shape (platform : Platform) (request : Request) : Shape (program platform request) := by
  cases request with
  | issueRecoveryCode scope id bytes now =>
    refine .reads rfl (shape_orFail fun found => ?_)
    cases found with
    | none => exact .quiet trivial
    | some user =>
      simp only
      split
      · exact .quiet trivial
      · exact .issuing
  | beginPasswordReset email token now =>
    simp only [program, beginPasswordReset]
    split
    · exact .quiet trivial
    · refine .reads rfl (shape_orFail fun context => ?_)
      cases context with
      | none => exact .quiet trivial
      | some owner =>
        simp only
        split
        · exact .storing
        · exact .quiet trivial
  | resetPassword submitted password salt =>
    simp only [program, resetPassword]
    split
    · exact .quiet trivial
    · refine .reads rfl (shape_orFail fun found => ?_)
      cases found with
      | none => exact .quiet trivial
      | some found =>
        simp only
        split
        · exact .quiet trivial
        · exact .quiet quiet_claiming

abbrev Trace : Type := List (StatementProgram.Event Statement Answer)

abbrev Point : Type := Phase Statement Answer (Except AppError Returned) AuthDb

/-- Every live row of the account was there in the snapshot. -/
def Covers (now : Instant) (user : UserId) (snapshot stored : AuthDb) : Prop :=
  ∀ row ∈ liveRows now user stored, ∃ seen ∈ snapshot.passwordResetTokens.rows, seen.id = row.id ∧ seen.userId = user ∧
    seen.usedAt = none

def Clear (now : Instant) (user : UserId) (ids : List Int) (stored : AuthDb) : Prop :=
  ∀ row ∈ liveRows now user stored, row.id ∈ ids

def Issues (user : UserId) (trace : Trace) : Prop := ∃ event ∈ trace, spendsFor event.statement = some user

/-- Where a call has come to, against what is stored: what it has seen of the account it issues for still covers what is
    live there. -/
inductive Stands (now : Instant) (stored : AuthDb) (trace : Trace) : (AuthDb → AuthDb) → Point → Prop where
  | gate {p : Steps} (shape : Shape p) : Stands now stored trace id (.ready p)
  | reading {snapshot : AuthDb} {statement : Statement} {next : Answer statement → Steps} (read : isRead statement = true)
      (rest : ∀ answer, Shape (next answer)) : Stands now stored trace id (.started snapshot statement next)
  | quiet {change : AuthDb → AuthDb} {p : Steps} (made : Spends now change) (rest : Quiet p) :
      Stands now stored trace change (.ready p)
  | quieter {change : AuthDb → AuthDb} {snapshot : AuthDb} {statement : Statement} {next : Answer statement → Steps}
      (made : Spends now change) (rest : Quiet (.stmt statement next)) :
      Stands now stored trace change (.started snapshot statement next)
  | spending {snapshot : AuthDb} {scope : CompanyId} {user : UserId} {token : Text} {expiresAt : Instant}
      {returned : Returned} (covers : Covers now user snapshot stored)
      (same : sees snapshot scope user = sees stored scope user) :
      Stands now stored trace id (.started snapshot (.spendOutstanding scope user)
        (orFail fun _ => inserting scope user token expiresAt returned))
  | spent {env : Env} {ids : List Int} {scope : CompanyId} {user : UserId} {token : Text} {expiresAt : Instant}
      {returned : Returned} (past : Issues user trace) (clear : sees stored scope user = true → Clear now user ids stored) :
      Stands now stored trace (spend env ids) (.ready (inserting scope user token expiresAt returned))
  | inserts {env : Env} {ids : List Int} {snapshot : AuthDb} {scope : CompanyId} {user : UserId} {token : Text}
      {expiresAt : Instant} {returned : Returned} (past : Issues user trace)
      (clear : sees stored scope user = true → Clear now user ids stored)
      (same : sees snapshot scope user = sees stored scope user) :
      Stands now stored trace (spend env ids) (.started snapshot (.insertCode scope user token expiresAt)
        (orFail fun _ => .done (.commit (.ok returned))))
  | storing {snapshot : AuthDb} {user : UserId} {token : Text} {expiresAt : Instant} {returned : Returned}
      (covers : Covers now user snapshot stored) :
      Stands now stored trace id (.started snapshot (.storeResetToken user token expiresAt)
        (orFail fun _ => .done (.commit (.ok returned))))
  | inserted {env : Env} {ids : List Int} {new : PasswordResetTokenRow} {returned : Returned}
      (past : Issues new.userId trace) (clear : Clear now new.userId ids stored) :
      Stands now stored trace (store new ∘ spend env ids) (.ready (.done (.commit (.ok returned))))
  | failed {change : AuthDb → AuthDb} {result : Except AppError Returned} :
      Stands now stored trace change (.ready (.done (.rollback result)))
  | committed {result : Except AppError Returned} : Stands now stored trace id (.committed result)
  | undone {result : Option (Except AppError Returned)} : Stands now stored trace id (.undone result)

section Steps
variable {platform : Platform} {starts : AuthDb → Prop} {permits : Runs → Label Request Env → Bool} {config : Runs}
    {now : Instant} {stored snapshot : AuthDb} {trace : Trace} {user : UserId}

theorem mem_present {p : PasswordResetTokenRow → Bool} {row seen : PasswordResetTokenRow} {current : AuthDb}
    (there : seen ∈ snapshot.passwordResetTokens.rows) (same : seen.id = row.id) (fits : p seen = true)
    (unused : seen.usedAt = none) (member : row ∈ current.passwordResetTokens.rows) (still : p row = true)
    (outstanding : row.usedAt = none) : row.id ∈ (present snapshot current p).map (·.id) := by
  have found : current.passwordResetTokens.find seen.id = some row := Table.find_eq_some_iff.mpr ⟨member, same.symm⟩
  refine List.mem_map.mpr ⟨row, ?_, rfl⟩
  simp only [present, listed, List.mem_filter, List.mem_filterMap, Table.mem_select, Bool.and_eq_true,
    Option.isNone_iff_eq_none]
  exact ⟨⟨seen, ⟨there, fits, unused⟩, found⟩, still, outstanding⟩

/-- What covers the live rows is spent, when the statement can reach the rows of the account. -/
theorem covers_clear {p : PasswordResetTokenRow → Bool} (covers : Covers now user snapshot stored)
    (fits : ∀ t : PasswordResetTokenRow, t.userId = user → p t = true) :
    Clear now user ((present snapshot stored p).map (·.id)) stored := by
  intro row alive
  obtain ⟨seen, there, same, owner, unused⟩ := covers row alive
  obtain ⟨member, own, outstanding, -⟩ := mem_liveRows.mp alive
  exact mem_present there same (fits seen owner) unused member (fits row own) outstanding

theorem covers_self : Covers now user stored stored := by
  intro row alive
  obtain ⟨member, own, unused, -⟩ := mem_liveRows.mp alive
  exact ⟨row, member, rfl, own, unused⟩

theorem started_stands {statement : Statement} {next : Answer statement → Steps} {change : AuthDb → AuthDb}
    (stands : Stands now stored trace change (.ready (.stmt statement next))) :
    Stands now stored trace change (.started (change stored) statement next) := by
  cases stands with
  | gate shape =>
    cases shape with
    | quiet rest => exact .quieter spends_nothing rest
    | issuing => exact .spending covers_self rfl
    | storing => exact .storing covers_self
    | reads read rest => exact .reading read rest
  | quiet made rest => exact .quieter made rest
  | spent past clear => exact .inserts past clear rfl

theorem Issues.more {event : StatementProgram.Event Statement Answer} (past : Issues user trace) :
    Issues user (trace ++ [event]) := by
  obtain ⟨earlier, member, own⟩ := past
  exact ⟨earlier, List.mem_append_left _ member, own⟩

theorem read_nothing {statement : Statement} {env : Env} {serial : Int} {current : AuthDb} (read : isRead statement = true) :
    (execute platform env serial statement snapshot current).change = id := by
  cases fault : env.fault with
  | some e => simp only [execute, fault]; rfl
  | none =>
    simp only [execute, fault]
    cases statement <;> first | rfl | cases read

theorem ran_stands {statement : Statement} {next : Answer statement → Steps} {change : AuthDb → AuthDb} {env : Env}
    {serial : Int} (stands : Stands now stored trace change (.started snapshot statement next)) :
    Stands now stored (trace ++ [⟨statement, (execute platform env serial statement snapshot (change stored)).answer⟩])
      ((execute platform env serial statement snapshot (change stored)).change ∘ change)
      (.ready (next (execute platform env serial statement snapshot (change stored)).answer)) := by
  cases stands with
  | reading read rest =>
    rw [read_nothing read]
    exact .gate (rest _)
  | quieter made rest => exact .quiet (made.comp (execute_spends rest.1)) (rest.2 _)
  | spending covers same =>
    cases fault : env.fault with
    | some e =>
      simp only [execute, fault]
      exact .failed
    | none =>
      simp only [execute, fault]
      refine .spent ⟨_, List.mem_append_right _ (List.mem_singleton_self _), rfl⟩ fun visible => covers_clear covers ?_
      intro t own
      rw [own, same, visible]
      simp
  | @inserts env' ids snapshot scope user token expiresAt returned past clear same =>
    cases fault : env.fault with
    | some e =>
      simp only [execute, fault]
      exact .failed
    | none =>
      simp only [execute, fault, perform, insertCode]
      cases visible : sees snapshot scope user with
      | false => exact .failed
      | true =>
        simp only [if_true]
        cases violation (spend env' ids stored) user token with
        | some e => exact .failed
        | none => exact .inserted past.more (clear (same ▸ visible))
  | @storing snapshot user token expiresAt returned covers =>
    cases fault : env.fault with
    | some e =>
      simp only [execute, fault]
      exact .failed
    | none =>
      have clear := @covers_clear now stored snapshot user (fun t => t.userId = user) covers fun t own => decide_eq_true own
      simp only [execute, fault, perform, storeResetToken, id_eq]
      cases violation stored user token with
      | some e => exact .failed
      | none =>
        exact @Stands.inserted now stored _ env _ ⟨serial, user, token, expiresAt, none⟩ returned
          ⟨_, List.mem_append_right _ (List.mem_singleton_self _), rfl⟩ clear

theorem stands_kept {i : Nat} {tx later : Running} {label : Label Request Env} {committed : AuthDb} {serial : Int}
    (acts : Acts (recoveries platform starts permits) config i tx label committed serial later)
    (stands : Stands now config.committed tx.trace tx.pending tx.phase) :
    Stands now config.committed later.trace later.pending later.phase := by
  obtain ⟨request, trace, held, draws, pending, phase⟩ := tx
  dsimp only at stands
  cases acts with
  | start shape =>
    dsimp only at shape
    subst shape
    exact started_stands stands
  | run effect shape runs free =>
    dsimp only at shape runs
    subst shape runs
    exact ran_stands stands
  | commit shape => exact .committed
  | rollback shape => exact .undone
  | abort live => exact .undone

/-- What a call that commits makes of the live rows. -/
inductive Lands (now : Instant) (stored after : AuthDb) (trace : Trace) : Prop where
  | spends (shrinks : ∀ user, Shrinks now user stored after)
  | issues {user : UserId} (past : Issues user trace)
      (one : ∀ row ∈ liveRows now user after, ∀ other ∈ liveRows now user after, row = other)
      (others : ∀ other, other ≠ user → Shrinks now other stored after)

theorem commit_lands {change : AuthDb → AuthDb} {result : Except AppError Returned}
    (stands : Stands now stored trace change (.ready (.done (.commit result)))) :
    Lands now stored (change stored) trace ∧ ∀ scope user, sees (change stored) scope user = sees stored scope user := by
  cases stands with
  | gate shape => exact ⟨.spends fun user => spends_nothing.shrinks stored user, fun _ _ => rfl⟩
  | quiet made rest => exact ⟨.spends (made.shrinks stored), made.sees stored⟩
  | @inserted env ids new returned past clear =>
    refine ⟨.issues past ?_ ?_, fun _ _ => rfl⟩
    · have only : ∀ row ∈ liveRows now new.userId ((store new ∘ spend env ids) stored), row = new := by
        intro row alive
        rcases mem_live_store alive with old | same
        · obtain ⟨before, unspent⟩ := mem_live_spend.mp old
          exact absurd (clear row before) unspent
        · exact same
      intro row alive other also
      rw [only row alive, only other also]
    · intro other apart row alive
      rcases mem_live_store alive with old | rfl
      · exact (mem_live_spend.mp old).1
      · exact absurd (mem_liveRows.mp alive).2.1.symm apart

/-- A call stands where it stood when another commits, as long as that one adds nothing for the account it issues for. -/
theorem stands_after {tx : Running} {after : AuthDb} (stands : Stands now stored tx.trace tx.pending tx.phase)
    (same : ∀ scope user, sees after scope user = sees stored scope user)
    (shrinks : ∀ user, tx.begun (fun statement => spendsFor statement = some user) = true → Shrinks now user stored after) :
    Stands now after tx.trace tx.pending tx.phase := by
  obtain ⟨request, trace, held, draws, pending, phase⟩ := tx
  dsimp only at stands shrinks ⊢
  have begun : ∀ user, Issues user trace → (⟨request, trace, held, draws, pending, phase⟩ : Running).live = true →
      Shrinks now user stored after := by
    rintro user ⟨event, member, own⟩ alive
    exact shrinks user (begun_past alive ⟨event, member, decide_eq_true own⟩)
  cases stands with
  | gate shape => exact .gate shape
  | reading read rest => exact .reading read rest
  | quiet made rest => exact .quiet made rest
  | quieter made rest => exact .quieter made rest
  | @spending snapshot scope user token expiresAt returned covers seen =>
    have fewer := shrinks user (begun_started rfl (decide_eq_true rfl))
    exact .spending (fun row alive => covers row (fewer row alive)) (seen.trans (same scope user).symm)
  | spent past clear =>
    have fewer := begun _ past rfl
    exact .spent past fun visible row alive => clear (same _ _ ▸ visible) row (fewer row alive)
  | inserts past clear seen =>
    have fewer := begun _ past rfl
    exact .inserts past (fun visible row alive => clear (same _ _ ▸ visible) row (fewer row alive))
      (seen.trans (same _ _).symm)
  | @storing snapshot user token expiresAt returned covers =>
    have fewer := shrinks user (begun_started rfl (decide_eq_true rfl))
    exact .storing fun row alive => covers row (fewer row alive)
  | inserted past clear =>
    have fewer := begun _ past rfl
    exact .inserted past fun row alive => clear row (fewer row alive)
  | failed => exact .failed
  | committed => exact .committed
  | undone => exact .undone

end Steps

section Runs
variable {platform : Platform} {starts : AuthDb → Prop} {config : Runs} {now : Instant} {user : UserId}

abbrev system (platform : Platform) (starts : AuthDb → Prop) :
    Database Statement Answer (Except AppError Returned) Request Env AuthDb Lock :=
  recoveries platform starts (separately clashes)

theorem calls_stand (reached : (system platform starts).machine.Reachable config) :
    ∀ (i : Nat) tx, config.transactions[i]? = some tx → Stands now config.committed tx.trace tx.pending tx.phase := by
  apply transactions_keep (fun stored (tx : Running) => Stands now stored tx.trace tx.pending tx.phase) ?_ ?_ ?_ reached
  · intro config request _ _
    exact .gate (program_shape platform request)
  · intro config i tx label committed serial later visited _ found acts stands
    have kept := stands_kept acts stands
    cases acts with
    | commit shape => exact .committed
    | _ => exact kept
  · intro config i j tx mover result visited permitted elsewhere found moves shape stands moverStands
    rw [shape] at moverStands
    obtain ⟨lands, same⟩ := commit_lands moverStands
    refine stands_after stands same fun user begun => ?_
    cases lands with
    | spends shrinks => exact shrinks user
    | @issues owner past one others =>
      refine others user ?_
      rintro rfl
      have allowed : separately clashes config (.finish j : Label Request Env) = true := permitted
      have apart := separately_commit allowed elsewhere found moves shape
      obtain ⟨event, member, own⟩ := past
      simp only [clashes, List.any_eq_false] at apart
      simpa [own, begun] using apart event member

theorem shrinks_length {before after : AuthDb} (shrinks : Shrinks now user before after) :
    (liveRows now user after).length ≤ (liveRows now user before).length :=
  (List.subperm_of_subset Table.nodup_select shrinks).length_le

theorem one_length {db : AuthDb} (one : ∀ row ∈ liveRows now user db, ∀ other ∈ liveRows now user db, row = other) :
    (liveRows now user db).length ≤ 1 := by
  have distinct : (liveRows now user db).Nodup := Table.nodup_select
  cases rows : liveRows now user db with
  | nil => exact Nat.zero_le 1
  | cons row rest =>
    cases rest with
    | nil => exact Nat.le_refl 1
    | cons other rest =>
      rw [rows] at one distinct
      have same := one row List.mem_cons_self other (List.mem_cons_of_mem _ List.mem_cons_self)
      simp [same] at distinct

/-- At most one secret is live for the account in every committed state. -/
theorem one_secret_live
    (reached : (system platform fun db => (liveRows now user db).length ≤ 1).machine.Reachable config) :
    (liveRows now user config.committed).length ≤ 1 := by
  apply Reachable.induction (fun config => (liveRows now user config.committed).length ≤ 1) reached
  · exact fun start initial => initial.1.1
  · intro before after label visited one permitted step
    rcases step_cases step with ⟨request, -, rfl⟩ | ⟨i, tx, committed, serial, later, found, acts, rfl⟩
    · exact one
    · cases acts with
      | commit shape =>
        have stands := @calls_stand _ _ _ now visited i tx found
        rw [shape] at stands
        cases (commit_lands stands).1 with
        | spends shrinks => exact (shrinks_length (shrinks user)).trans one
        | @issues owner past single others =>
          by_cases own : user = owner
          · subst own
            exact one_length single
          · exact (shrinks_length (others user own)).trans one
      | _ => exact one

end Runs

/- Two codes are issued for one account. -/

open AuthService (samplePlatform sampleDb sampleEnv)

def idle : Runs := ⟨sampleDb, 1, []⟩

theorem idle_initial (permits : Runs → Label Request Env → Bool) :
    (recoveries samplePlatform (fun db => (liveRows 0 1 db).length ≤ 1) permits).machine.initial idle :=
  ⟨⟨by decide, fun t member => by cases member⟩, rfl⟩

def twoCodes : List (Label Request Env) :=
  [.begin (.issueRecoveryCode 1 1 RecoveryCodes.sampleBytes 0),
    .begin (.issueRecoveryCode 1 1 RecoveryCodes.sampleBytes.reverse 0)]

def inTurn : List (Label Request Env) :=
  twoCodes ++ turns (sampleEnv 0 []) 0 3 ++ [.finish 0] ++ turns (sampleEnv 0 []) 1 3 ++ [.finish 1]

/-- Each call spends what is outstanding before the other commits. -/
def overlapping : List (Label Request Env) :=
  twoCodes ++ turns (sampleEnv 0 []) 0 2 ++ turns (sampleEnv 0 []) 1 2 ++ turns (sampleEnv 0 []) 0 1 ++ [.finish 0] ++
    turns (sampleEnv 0 []) 1 1 ++ [.finish 1]

theorem in_turn_one_live : ∃ config,
    (system samplePlatform fun db => (liveRows 0 1 db).length ≤ 1).machine.Reachable config ∧
    config.committed.passwordResetTokens.rows.length = 2 ∧ (liveRows 0 1 config.committed).length ≤ 1 := by
  have run : ∃ config, (system samplePlatform fun db => (liveRows 0 1 db).length ≤ 1).machine.execute idle inTurn =
      some config ∧ config.committed.passwordResetTokens.rows.length = 2 := ⟨_, rfl, by decide +kernel⟩
  obtain ⟨config, ran, stored⟩ := run
  have reached := execute_reachable (idle_initial _) ran
  exact ⟨config, reached, stored, one_secret_live reached⟩

theorem overlapping_two_live : ∃ config,
    (recoveries samplePlatform (fun db => (liveRows 0 1 db).length ≤ 1) fun _ _ => true).machine.Reachable config ∧
    (∀ tx ∈ config.transactions, tx.live = false) ∧ (liveRows 0 1 config.committed).length = 2 := by
  have run : ∃ config, (recoveries samplePlatform (fun db => (liveRows 0 1 db).length ≤ 1) fun _ _ => true).machine.execute
      idle overlapping = some config ∧ (∀ tx ∈ config.transactions, tx.live = false) ∧
      (liveRows 0 1 config.committed).length = 2 := ⟨_, rfl, by decide +kernel, by decide +kernel⟩
  obtain ⟨config, ran, ended, live⟩ := run
  exact ⟨config, execute_reachable (idle_initial _) ran, ended, live⟩

end RecoverySecrets
