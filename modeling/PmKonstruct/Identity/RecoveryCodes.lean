import PmKonstruct.Identity.LoginSession

/- What a reset accepts for a recovery code. The code is stored as a prefixed hash in the column that holds the tokens of
   emailed links verbatim, and the lookup compares that column with the submission as well as with its hash. -/
namespace RecoveryCodes
open PlainText DomainErrors Accounts AuthStore AuthService KeyedTable StatementProgram
open LoginSession (runAlone run_call run_call_ok run_fail execute_randomSalt)

def recoveryCodeTtlMinutes : Int := 15

def recoveryCodeLen : Nat := 10

def recoveryCodeFrom (bytes : List UInt8) : Text :=
  bytes.map fun b => recoveryCodeAlphabet.getD (b.toNat % recoveryCodeAlphabet.length) default

/-- A row as `issue_recovery_code` stores it, for the code that it made of the random bytes. -/
def HoldsCode (platform : Platform) (row : PasswordResetTokenRow) : Prop :=
  ∃ bytes : List UInt8, bytes.length = recoveryCodeLen ∧ row.token = hashRecoveryCode platform (recoveryCodeFrom bytes)

def matchesSubmission (platform : Platform) (submitted : Text) : PasswordResetTokenRow → Bool :=
  let candidates := ResetCandidates.of platform submitted
  matchesSecret candidates.raw (candidates.hashed platform)

/-- The row that a reset would spend. -/
def lookup (platform : Platform) (env : Env) (db : AuthDb) (submitted : Text) : Option PasswordResetTokenRow :=
  latest (db.passwordResetTokens.select fun t => matchesSubmission platform submitted t && unspent env t)

/-- The reset succeeds, by way of this row. -/
def ResetsBy (platform : Platform) (envs : Nat → Env) (db : AuthDb) (submitted password : Text)
    (row : PasswordResetTokenRow) : Prop :=
  lookup platform (envs 0) db submitted = some row ∧
    (runAlone platform envs 0 (resetPassword platform submitted password) db).1 = .ok ()

/-- What a reset by way of this row needs: an acceptable password, the newest live row that matches, still live when it is
    claimed, and a database that answers. -/
structure Redeemable (platform : Platform) (envs : Nat → Env) (db : AuthDb) (submitted password : Text)
    (row : PasswordResetTokenRow) : Prop where
  valid : validateReset submitted password = .ok ()
  stored : row ∈ db.passwordResetTokens.rows
  matched : matchesSubmission platform submitted row = true
  live : unspent (envs 0) row = true
  newest : ∀ other ∈ db.passwordResetTokens.rows, matchesSubmission platform submitted other = true →
    unspent (envs 0) other = true → other.id ≤ row.id
  hashes : ∃ hash, platform.argon2Hash (envs 1).salt password = .ok hash
  claimable : unspent (envs 2) row = true
  answered : (envs 0).fault = none ∧ (envs 2).fault = none ∧ (envs 3).fault = none

/- The newest of some rows. -/

theorem latest_from {tokens : List PasswordResetTokenRow} {best row : PasswordResetTokenRow}
    (found : tokens.foldl (fun best row => match best with
      | none => some row
      | some b => if b.id < row.id then some row else some b) (some best) = some row) :
    (row = best ∨ row ∈ tokens) ∧ best.id ≤ row.id ∧ ∀ other ∈ tokens, other.id ≤ row.id := by
  induction tokens generalizing best with
  | nil =>
    cases found
    exact ⟨.inl rfl, Int.le_refl _, fun other member => absurd member List.not_mem_nil⟩
  | cons first rest ih =>
    rw [List.foldl_cons] at found
    dsimp only at found
    split at found
    · next newer =>
      obtain ⟨among, above, others⟩ := ih found
      refine ⟨.inr ?_, by omega, List.forall_mem_cons.mpr ⟨above, others⟩⟩
      rcases among with rfl | later
      · exact List.mem_cons_self
      · exact List.mem_cons_of_mem _ later
    · next older =>
      obtain ⟨among, above, others⟩ := ih found
      exact ⟨among.imp_right (List.mem_cons_of_mem _), above, List.forall_mem_cons.mpr ⟨by omega, others⟩⟩

theorem latest_sound {tokens : List PasswordResetTokenRow} {row : PasswordResetTokenRow} (found : latest tokens = some row) :
    row ∈ tokens ∧ ∀ other ∈ tokens, other.id ≤ row.id := by
  cases tokens with
  | nil => cases found
  | cons first rest =>
    rw [latest, List.foldl_cons] at found
    obtain ⟨among, above, others⟩ := latest_from found
    exact ⟨List.mem_cons.mpr among, List.forall_mem_cons.mpr ⟨above, others⟩⟩

theorem latest_isSome {tokens : List PasswordResetTokenRow} (nonempty : tokens ≠ []) : (latest tokens).isSome = true := by
  have kept : ∀ (rest : List PasswordResetTokenRow) best, (rest.foldl (fun best row => match best with
      | none => some row
      | some b => if b.id < row.id then some row else some b) (some best)).isSome = true := by
    intro rest
    induction rest with
    | nil => exact fun best => rfl
    | cons first rest ih =>
      intro best
      rw [List.foldl_cons]
      dsimp only
      split
      · exact ih first
      · exact ih best
  cases tokens with
  | nil => exact absurd rfl nonempty
  | cons first rest => exact kept rest first

section Lookup
variable {platform : Platform} {envs : Nat → Env} {env : Env} {db : AuthDb} {submitted password : Text}
    {row : PasswordResetTokenRow}

theorem lookup_eq_some_iff : lookup platform env db submitted = some row ↔ row ∈ db.passwordResetTokens.rows ∧
    matchesSubmission platform submitted row = true ∧ unspent env row = true ∧
    ∀ other ∈ db.passwordResetTokens.rows, matchesSubmission platform submitted other = true →
      unspent env other = true → other.id ≤ row.id := by
  constructor
  · intro found
    obtain ⟨member, newest⟩ := latest_sound found
    obtain ⟨stored, fits⟩ := Table.mem_select.mp member
    obtain ⟨matched, live⟩ := Bool.and_eq_true_iff.mp fits
    refine ⟨stored, matched, live, fun other there also lives => newest other ?_⟩
    exact Table.mem_select.mpr ⟨there, Bool.and_eq_true_iff.mpr ⟨also, lives⟩⟩
  · rintro ⟨stored, matched, live, newest⟩
    have member : row ∈ db.passwordResetTokens.select fun t => matchesSubmission platform submitted t && unspent env t :=
      Table.mem_select.mpr ⟨stored, Bool.and_eq_true_iff.mpr ⟨matched, live⟩⟩
    obtain ⟨best, found⟩ := Option.isSome_iff_exists.mp (latest_isSome (List.ne_nil_of_mem member))
    obtain ⟨among, above⟩ := latest_sound found
    obtain ⟨there, fits⟩ := Table.mem_select.mp among
    obtain ⟨also, lives⟩ := Bool.and_eq_true_iff.mp fits
    have same : best.id = row.id := Int.le_antisymm (newest best there also lives) (above row member)
    rw [lookup, found, Table.key_inj there stored same]

/-- The claim takes when the row that was found is still there to be claimed. -/
theorem claimReset_iff {hash : Text} (stored : row ∈ db.passwordResetTokens.rows) :
    (claimReset env db row.id row.userId hash).1 = true ↔ unspent env row = true := by
  have claimable : (db.passwordResetTokens.rows.any fun t => t.id = row.id && unspent env t) = true ↔
      unspent env row = true := by
    constructor
    · intro some
      obtain ⟨t, member, fits⟩ := List.any_eq_true.mp some
      obtain ⟨named, live⟩ := Bool.and_eq_true_iff.mp fits
      rwa [Table.key_inj member stored (of_decide_eq_true named)] at live
    · intro live
      exact List.any_eq_true.mpr ⟨row, stored, Bool.and_eq_true_iff.mpr ⟨decide_eq_true rfl, live⟩⟩
  rw [← claimable, claimReset]
  split
  · next some => simpa using some
  · next none => simpa using none

/-- The result, once the row is found. -/
theorem reset_ok_iff (valid : validateReset submitted password = .ok ())
    (found : lookup platform (envs 0) db submitted = some row) :
    (runAlone platform envs 0 (resetPassword platform submitted password) db).1 = .ok () ↔
      (∃ hash, platform.argon2Hash (envs 1).salt password = .ok hash) ∧ unspent (envs 2) row = true ∧
        (envs 0).fault = none ∧ (envs 2).fault = none ∧ (envs 3).fault = none := by
  have stored := (lookup_eq_some_iff.mp found).1
  have looked : findResetToken (envs 0) db (ResetCandidates.of platform submitted).raw
      ((ResetCandidates.of platform submitted).hashed platform) = some ⟨row.id, row.userId⟩ := by
    rw [lookup] at found
    rw [findResetToken]
    exact congrArg (Option.map fun t => (⟨t.id, t.userId⟩ : ResetToken)) found
  simp only [resetPassword, valid]
  cases first : (envs 0).fault with
  | some e => simp [run_call, execute, faulting, first, Statement.queries]
  | none =>
    rw [run_call]
    simp only [execute, faulting, first, perform, looked]
    rw [run_call, execute_randomSalt]
    simp only
    cases made : platform.argon2Hash (envs 1).salt password with
    | error detail => simp [runAlone, fail, Program.runFrom]
    | ok hash =>
      rw [run_call]
      have claimed : (claimReset (envs 2) db row.id row.userId hash).1 = true ↔ unspent (envs 2) row = true :=
        claimReset_iff stored
      cases second : (envs 2).fault with
      | some e => simp [execute, faulting, second, Statement.queries]
      | none =>
        simp only [execute, faulting, second, perform]
        rcases claims : claimReset (envs 2) db row.id row.userId hash with ⟨_ | _, after⟩
        · rw [claims] at claimed
          simp [runAlone, fail, Program.runFrom, ← claimed]
        · rw [claims] at claimed
          simp only [run_call, execute, faulting]
          cases third : (envs 3).fault with
          | some e => simp [Statement.queries]
          | none => simp [perform, runAlone, Program.runFrom, ← claimed]

theorem resetsBy_iff : ResetsBy platform envs db submitted password row ↔
    Redeemable platform envs db submitted password row := by
  constructor
  · rintro ⟨found, ran⟩
    cases valid : validateReset submitted password with
    | error e => simp [resetPassword, valid, runAlone, fail, Program.runFrom] at ran
    | ok u =>
      obtain ⟨hashes, claimable, answered⟩ := (reset_ok_iff valid found).mp ran
      obtain ⟨stored, matched, live, newest⟩ := lookup_eq_some_iff.mp found
      exact ⟨valid, stored, matched, live, newest, hashes, claimable, answered⟩
  · rintro ⟨valid, stored, matched, live, newest, hashes, claimable, answered⟩
    have found := lookup_eq_some_iff.mpr ⟨stored, matched, live, newest⟩
    exact ⟨found, (reset_ok_iff valid found).mpr ⟨hashes, claimable, answered⟩⟩

end Lookup

/-- A reset takes the code itself, and nothing else, for a recovery code: unless what was submitted is the stored hash, and
    could be redeemed. -/
theorem code_needed_iff (platform : Platform) (envs : Nat → Env) (db : AuthDb) (submitted password : Text) :
    (∀ row ∈ db.passwordResetTokens.rows, HoldsCode platform row → ResetsBy platform envs db submitted password row →
      hashRecoveryCode platform (normaliseRecoveryCode platform submitted) = row.token) ↔
    ∀ row ∈ db.passwordResetTokens.rows, HoldsCode platform row → row.token = trim submitted →
      hashRecoveryCode platform (normaliseRecoveryCode platform submitted) ≠ row.token →
      ¬ Redeemable platform envs db submitted password row := by
  constructor
  · intro needed row member holds verbatim different redeemable
    exact different (needed row member holds (resetsBy_iff.mpr redeemable))
  · intro unredeemable row member holds resets
    have redeemable := resetsBy_iff.mp resets
    by_contra different
    have matched := redeemable.matched
    simp only [matchesSubmission, matchesSecret, Bool.or_eq_true, Bool.and_eq_true, decide_eq_true_eq, ne_eq] at matched
    rcases matched with verbatim | ⟨usable, code⟩
    · exact unredeemable row member holds verbatim different redeemable
    · by_cases blank : normaliseRecoveryCode platform submitted = []
      · exact absurd (if_pos blank) usable
      · have whole : (ResetCandidates.of platform submitted).hashed platform =
            hashRecoveryCode platform (normaliseRecoveryCode platform submitted) := if_neg blank
        exact different (whole.symm.trans code.symm)

/- The code of the bytes 0 to 9 is stored, and somebody who reads the row submits what is in it. -/

def sampleBytes : List UInt8 := [0, 1, 2, 3, 4, 5, 6, 7, 8, 9]

def sampleDigest : Text := text "37fbd59f151aaa788cb5848c7060dd052577142099f660bd163486c7da18a0db"

/-- The digests that the sample comes to. -/
def digestPlatform : Platform :=
  { samplePlatform with
    uppercase := fun c => [c.toUpper]
    sha256Hex := fun t =>
      if t = text "23456789AB" then sampleDigest
      else if t = text "MANAGER37FBD59F5AAA788CB5848C76DD525774299F66BD63486C7DA8ADB" then
        text "9ef39781c309d909356392efbf757ad10e342e39dc9846ff64f99a292dc9f656"
      else [] }

def codeRow : PasswordResetTokenRow := ⟨1, 1, text "manager:" ++ sampleDigest, 900000000, none⟩

def codeDb : AuthDb := { sampleDb with passwordResetTokens := ⟨[codeRow], 2, by decide, by decide⟩ }

theorem codeRow_holds : HoldsCode digestPlatform codeRow := ⟨sampleBytes, rfl, by decide +kernel⟩

theorem stored_hash_redeemed : ∃ row ∈ codeDb.passwordResetTokens.rows, HoldsCode digestPlatform row ∧
    ResetsBy digestPlatform (fun _ => sampleEnv 0 []) codeDb row.token (text "new secret") row ∧
    hashRecoveryCode digestPlatform (normaliseRecoveryCode digestPlatform row.token) ≠ row.token := by
  refine ⟨codeRow, List.mem_singleton_self _, codeRow_holds, ⟨?_, ?_⟩, by decide +kernel⟩
  · decide +kernel
  · decide +kernel

/-- The code itself, as it is typed, is taken. -/
example : ResetsBy digestPlatform (fun _ => sampleEnv 0 []) codeDb (text " 2345-6789-ab ") (text "new secret") codeRow :=
  ⟨by decide +kernel, by decide +kernel⟩

end RecoveryCodes
