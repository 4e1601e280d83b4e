import PmKonstruct.Identity.RefreshTokens

/- Rotation under concurrency: which of several refresh calls presenting one token may come back with a
   session, over every interleaving of their statements with each other and with all other calls. -/
namespace SingleUse
open PlainText DomainErrors Accounts AuthStore AuthService RefreshTokens KeyedTable StatementProgram TransitionRuns

variable {platform : Platform} {config : AuthConfig} {presented : Text} {i j : Nat} {a b : LoginOutcome}

/-- The condition under test: a `mark_used` that runs finds its row still unused. -/
def markFindsUnused (env : Env) (statement : Statement) (db : AuthDb) : Bool :=
  match statement with
  | .markUsed id => env.fault.isSome || db.refreshTokens.rows.any fun t => t.id = id && t.usedAt.isNone
  | _ => true

def rotation (platform : Platform) : Service Statement Answer Outcome Request Env AuthDb :=
  authService platform HashUnique markFindsUnused

/-- A refresh that returned a session had found its token and marked that row used. -/
def SessionSpent (platform : Platform) (request : Request) (past : List (Event Statement Answer))
    (result : Outcome) : Prop :=
  ∀ presented outcome, request = .refresh presented → result = .ok (some outcome) →
    ∃ record, ⟨.findByHash (hashRefresh platform presented), .ok (some record)⟩ ∈ past ∧
      ⟨.markUsed record.id, .ok ()⟩ ∈ past

theorem refresh_obeys (platform : Platform) (presented : Text) :
    (refresh platform presented).Obeys (fun _ _ => True)
      (fun past result => SessionSpent platform (.refresh presented) past (result.map some)) [] := by
  have failed : ∀ past e, SessionSpent platform (.refresh presented) past (.error e) := by
    intro past e other outcome _ same
    cases same
  have refused : ∀ past e, (fail e : Action LoginOutcome).Obeys (fun _ _ => True)
      (fun past result => SessionSpent platform (.refresh presented) past (result.map some)) past :=
    fun past e => failed past e
  refine obeys_call.mpr ⟨trivial, fun e => failed _ _, ?_⟩
  rintro (_ | record)
  · exact refused _ _
  · simp only
    split
    · exact refused _ _
    · split
      · exact obeys_call.mpr ⟨trivial, fun e => failed _ _, fun _ => refused _ _⟩
      · refine obeys_call.mpr ⟨trivial, fun e => failed _ _, fun now => ?_⟩
        split
        · exact refused _ _
        · refine obeys_call.mpr ⟨trivial, fun e => failed _ _, ?_⟩
          rintro (_ | user)
          · exact refused _ _
          · simp only
            split
            · exact obeys_call.mpr ⟨trivial, fun e => failed _ _, fun _ => refused _ _⟩
            · refine obeys_call.mpr ⟨trivial, fun e => failed _ _, fun marked => ?_⟩
              refine obeys_of_forall (fun _ _ => trivial) ?_
              intro more result other outcome same _
              cases same
              exact ⟨record, by simp, by simp⟩

theorem programs_spend (platform : Platform) (request : Request) :
    (programOf platform request).Obeys (fun _ _ => True) (SessionSpent platform request) [] := by
  cases request with
  | refresh presented => exact obeys_mapResult.mpr (refresh_obeys platform presented)
  | _ =>
    refine obeys_of_forall (fun _ _ => trivial) ?_
    intro more result presented outcome same
    cases same

/-- The row that a successful `mark_used` names. -/
def markClaim : Event Statement Answer → Option Int
  | ⟨.markUsed id, .ok _⟩ => some id
  | _ => none

def RowUsed (db : AuthDb) (id : Int) : Prop := ∃ row ∈ db.refreshTokens.rows, row.id = id ∧ row.usedAt.isSome

theorem markClaim_execute {env : Env} {statement : Statement} {db : AuthDb} {id : Int}
    (claimed : markClaim ⟨statement, (execute platform env statement db).1⟩ = some id) :
    statement = .markUsed id ∧ env.fault = none := by
  cases statement with
  | markUsed other =>
    cases fault : env.fault with
    | some e => simp [execute, faulting, fault, Statement.queries, markClaim] at claimed
    | none =>
      simp only [execute, faulting, fault, perform, markClaim, Option.some.injEq] at claimed
      exact ⟨by rw [claimed], rfl⟩
  | _ => simp [markClaim] at claimed

theorem mark_exclusive (reached : (rotation platform).machine.Reachable config) :
    ∀ i j id, Granted markClaim config.calls i id → Granted markClaim config.calls j id → i = j := by
  have unused : ∀ env statement db id, markFindsUnused env statement db = true →
      markClaim ⟨statement, (execute platform env statement db).1⟩ = some id →
      env.fault = none ∧ statement = .markUsed id ∧ ∃ row ∈ db.refreshTokens.rows, row.id = id ∧ row.usedAt = none := by
    intro env statement db id admits claimed
    obtain ⟨rfl, calm⟩ := markClaim_execute claimed
    simpa [markFindsUnused, calm] using admits
  refine (claims_exclusive markClaim RowUsed ?_ ?_ ?_ reached).2
  · rintro env statement db id admits claimed ⟨used, member, same, spent⟩
    obtain ⟨-, -, row, free, keyed, fresh⟩ := unused env statement db id admits claimed
    cases Table.key_inj member free (same.trans keyed.symm)
    simp [fresh] at spent
  · intro env statement db id admits claimed
    obtain ⟨calm, rfl, row, free, keyed, fresh⟩ := unused env statement db id admits claimed
    refine ⟨{ row with usedAt := some env.now }, ?_, keyed, rfl⟩
    simp only [rotation, authService, execute, faulting, calm, perform]
    rw [← keyed]
    exact markUsed_marks free fresh
  · rintro env statement db id - ⟨row, member, same, spent⟩
    obtain ⟨new, there, evolves⟩ := execute_keeps_row platform env statement member
    exact ⟨new, there, evolves.id.trans same, evolves.used spent⟩

theorem returned_granted (reached : (rotation platform).machine.Reachable config)
    (returned : Returned config i (.refresh presented) (.ok (some a))) :
    ∃ row ∈ config.store.refreshTokens.rows, row.tokenHash = hashRefresh platform presented ∧
      Granted markClaim config.calls i row.id := by
  obtain ⟨call, found, request, finished⟩ := returned
  have member := List.mem_of_getElem? found
  have spent := calls_obey (fun _ _ _ => True) (SessionSpent platform) (programs_spend platform) reached call member
  rw [finished] at spent
  obtain ⟨record, lookup, mark⟩ := spent presented a request rfl
  obtain ⟨row, there, hash, id, -, -⟩ := answers_hold reached call member _ lookup
  exact ⟨row, there, hash, call, found, _, mark, by rw [id]; rfl⟩

theorem refresh_single_use (reached : (rotation platform).machine.Reachable config)
    (first : Returned config i (.refresh presented) (.ok (some a)))
    (second : Returned config j (.refresh presented) (.ok (some b))) : i = j := by
  have unique : HashUnique config.store := by
    obtain ⟨start, initial, leads⟩ := reached
    exact store_kept HashUnique leads initial.1 (fun env statement db unique _ => execute_hashUnique unique)
  obtain ⟨row, member, hash, left⟩ := returned_granted reached first
  obtain ⟨other, there, same, right⟩ := returned_granted reached second
  have one := unique row member other there (hash.trans same.symm)
  rw [one] at left
  exact mark_exclusive reached i j other.id left right

theorem sample_hashUnique : HashUnique sampleDb := by decide

/-- One refresh of the sample token, run to its end. -/
def oneRefresh : List (Label Request Env) :=
  .invoke (.refresh (text "first")) :: List.replicate 7 (.advance 0 (sampleEnv 5 (text "second")))

theorem refresh_single_use_once : ∃ config, (rotation samplePlatform).machine.Reachable config ∧
    (∃ a, Returned config 0 (.refresh (text "first")) (.ok (some a))) ∧ (0 : Nat) = 0 := by
  obtain ⟨config, run, a, returned⟩ : ∃ config,
      (rotation samplePlatform).machine.execute ⟨sampleDb, []⟩ oneRefresh = some config ∧
      ∃ a, Returned config 0 (.refresh (text "first")) (.ok (some a)) :=
    ⟨_, rfl, _, _, rfl, rfl, rfl⟩
  have reached : (rotation samplePlatform).machine.Reachable config :=
    ⟨⟨sampleDb, []⟩, ⟨sample_hashUnique, rfl⟩, execute_leads run⟩
  exact ⟨config, reached, ⟨a, returned⟩, refresh_single_use reached returned returned⟩

/-- Two refresh calls of the sample token, each statement of the first followed by the same of the second. -/
def twoRefreshes : List (Label Request Env) :=
  [.invoke (.refresh (text "first")), .invoke (.refresh (text "first"))] ++ (List.replicate 7
    [.advance 0 (sampleEnv 5 (text "second")), .advance 1 (sampleEnv 5 (text "third"))]).flatten

theorem refresh_used_twice : ¬ ∀ (platform : Platform) (config : AuthConfig) (presented : Text) (i j : Nat)
    (a b : LoginOutcome), (authService platform HashUnique fun _ _ _ => true).machine.Reachable config →
    Returned config i (.refresh presented) (.ok (some a)) →
    Returned config j (.refresh presented) (.ok (some b)) → i = j := by
  intro unique
  obtain ⟨config, run, a, b, first, second⟩ : ∃ config,
      (authService samplePlatform HashUnique fun _ _ _ => true).machine.execute ⟨sampleDb, []⟩ twoRefreshes =
        some config ∧
      ∃ a b, Returned config 0 (.refresh (text "first")) (.ok (some a)) ∧
        Returned config 1 (.refresh (text "first")) (.ok (some b)) :=
    ⟨_, rfl, _, _, ⟨_, rfl, rfl, rfl⟩, _, rfl, rfl, rfl⟩
  have reached : (authService samplePlatform HashUnique fun _ _ _ => true).machine.Reachable config :=
    ⟨⟨sampleDb, []⟩, ⟨sample_hashUnique, rfl⟩, execute_leads run⟩
  have same := unique samplePlatform config (text "first") 0 1 a b reached first second
  exact absurd same (by decide)

end SingleUse
