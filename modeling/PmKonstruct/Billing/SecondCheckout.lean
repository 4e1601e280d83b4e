import PmKonstruct.Billing.BillingPrograms

/- Whether a company whose subscription is active can be sold a second one. The guard looks at the status, and a status
   that could not be read is that of a company without a subscription. -/
namespace SecondCheckout
open PlainText DomainErrors Accounts KeyedTable Plans StatementProgram BillingPrograms
open AuthService (SessionUser)
open StripeAccount (Account Failure HeldSubscription)

abbrev runAlone {α : Type} (envs : Nat → Env) (n : Nat) (action : Action α) (db : Db) : Except AppError α × Db :=
  action.runFrom execute envs n db

section Runs
variable {α : Type} {envs : Nat → Env} {n : Nat} {db : Db} {s : SessionUser} {row : CompanyRow}

theorem run_call (statement : Statement) (next : Reply statement → Action α) (n : Nat) (db : Db) :
    runAlone envs n (call statement next) db =
      match execute (envs n) statement db with
      | (.error e, after) => (.error (.port e), after)
      | (.ok reply, after) => runAlone envs (n + 1) (next reply) after := by
  simp only [runAlone, call, await, Program.runFrom]
  rcases execute (envs n) statement db with ⟨e | reply, after⟩
  · rfl
  · rfl

theorem run_fail (e : AppError) : runAlone envs n (fail e : Action α) db = (.error e, db) := rfl

/-- The row is read, or the call ends there. -/
theorem run_record {company : CompanyId} {next : BillingRecord → Action α} (there : db.companies.find company = some row) :
    (∃ e, runAlone envs n (BillingPrograms.record company next) db = (.error e, db)) ∨
      runAlone envs n (BillingPrograms.record company next) db = runAlone envs (n + 1) (next row.toRecord) db := by
  rw [BillingPrograms.record, run_call]
  cases fault : (envs n).fault with
  | some e => exact .inl ⟨.port e, by simp [execute, queried, fault]⟩
  | none => exact .inr (by simp [execute, queried, fault, there])

/-- How many users the company has. -/
def activeUsers (db : Db) (company : CompanyId) : Int := (db.users.select fun u => u.companyId = company && u.active).length

theorem run_count {company : CompanyId} {next : Int → Action α} :
    (∃ e, runAlone envs n (call (.activeUserCount company) next) db = (.error e, db)) ∨
      runAlone envs n (call (.activeUserCount company) next) db =
        runAlone envs (n + 1) (next (activeUsers db company)) db := by
  rw [run_call]
  cases fault : (envs n).fault with
  | some e => exact .inl ⟨.port e, by simp [execute, queried, fault]⟩
  | none => exact .inr (by simp [execute, queried, fault, activeUsers])

end Runs

/- Which failures leave the guard in force. -/

/-- The newest subscription of the customer is active. -/
def NewestActive (account : Account) (row : CompanyRow) : Prop :=
  ∃ customer newest, row.stripeCustomerId = some customer ∧
    account.subscriptions.find? (·.customer = customer) = some newest ∧ SubscriptionStatus.parse newest.status = .active

/-- The recorded subscription could be read; or Stripe rejected that read, and the customer's newest, which could be
    listed, is active as well. -/
def Guarded (account : Account) (row : CompanyRow) (first second : Option Failure) : Prop :=
  first = none ∨ (∃ status message, first = some (.refused status message)) ∧ second = none ∧ NewestActive account row

section Guard
variable {α : Type} {envs : Nat → Env} {n : Nat} {db : Db} {s : SessionUser} {row : CompanyRow} {id : Text}
    {held : HeldSubscription} {next : Option StripeAccount.Subscription → Action α}

theorem run_retrieve (record : row.stripeSubscriptionId = some id) :
    runAlone envs n (fetchSubscription true row.toRecord next) db =
      match StripeAccount.retrieveSubscription db.stripe (envs n).failure id with
      | .error _ => runAlone envs (n + 1) (next none) db
      | .ok (some sub) => runAlone envs (n + 1) (next (some sub)) db
      | .ok none => runAlone envs (n + 1) (latest row.toRecord next) db := by
  have recorded : row.toRecord.stripeSubscriptionId = some id := record
  simp only [fetchSubscription, if_true, recorded, runAlone, Program.runFrom, execute]
  rcases StripeAccount.retrieveSubscription db.stripe (envs n).failure id with e | _ | sub <;> rfl

theorem retrieve_found (there : StripeAccount.subscription db.stripe id = some held) :
    StripeAccount.retrieveSubscription db.stripe none id = .ok (some held.toSubscription) := by
  simp [StripeAccount.retrieveSubscription, StripeAccount.found, there, StripeAccount.read, StripeAccount.orNone, Except.map]

theorem retrieve_refused {status : StripeAccount.HttpStatus} {message : Option String} :
    StripeAccount.retrieveSubscription db.stripe (some (.refused status message)) id = .ok none := by
  simp only [StripeAccount.retrieveSubscription, StripeAccount.found, Except.map, StripeAccount.read, Failure.error]
  split <;> rfl

theorem run_latest {customer : Text} (known : row.stripeCustomerId = some customer) :
    runAlone envs n (latest row.toRecord next) db =
      match StripeAccount.latestSubscriptionForCustomer db.stripe (envs n).failure customer with
      | .error _ => runAlone envs (n + 1) (next none) db
      | .ok sub => runAlone envs (n + 1) (next sub) db := by
  have recorded : row.toRecord.stripeCustomerId = some customer := known
  simp only [latest, recorded, runAlone, Program.runFrom, execute]
  rcases StripeAccount.latestSubscriptionForCustomer db.stripe (envs n).failure customer with e | sub <;> rfl

/-- Under the guard, the status that is found is that of an active subscription. -/
theorem fetch_active (record : row.stripeSubscriptionId = some id)
    (there : StripeAccount.subscription db.stripe id = some held) (active : SubscriptionStatus.parse held.status = .active)
    (guarded : Guarded db.stripe row (envs n).failure (envs (n + 1)).failure) :
    ∃ m sub, SubscriptionStatus.parse sub.status = .active ∧
      runAlone envs n (fetchSubscription true row.toRecord next) db = runAlone envs m (next (some sub)) db := by
  rw [run_retrieve record]
  rcases guarded with calm | ⟨⟨status, message, refused⟩, calm, customer, newest, known, listed, also⟩
  · rw [calm, retrieve_found there]
    exact ⟨n + 1, held.toSubscription, active, rfl⟩
  · rw [refused, retrieve_refused]
    simp only
    rw [run_latest known, calm, StripeAccount.latestSubscriptionForCustomer, listed]
    exact ⟨n + 2, newest.toSubscription, also, rfl⟩

/-- An active company is turned away, and nothing has changed. -/
theorem guarded_refused {configured : Bool} {planKey : Text} {seats : Int} 
    (found : db.companies.find s.principal.companyId = some row) (record : row.stripeSubscriptionId = some id)
    (there : StripeAccount.subscription db.stripe id = some held) (active : SubscriptionStatus.parse held.status = .active)
    (guarded : configured = false ∨ Guarded db.stripe row (envs 2).failure (envs 3).failure) :
    ∃ e, runAlone envs 0 (startCheckout configured s planKey seats) db = (.error e, db) := by
  cases configured with
  | false => exact ⟨_, rfl⟩
  | true =>
    have guard := guarded.resolve_left Bool.noConfusion
    simp only [startCheckout, gateway, if_true, status]
    rcases run_record found with ⟨e, failed⟩ | read
    · exact ⟨e, failed⟩
    · rw [read]
      rcases run_count with ⟨e, failed⟩ | counted
      · exact ⟨e, failed⟩
      · rw [counted]
        obtain ⟨m, sub, current, fetched⟩ := fetch_active record there active guard
        rw [fetched]
        simp only [billingStatus, current]
        exact ⟨_, rfl⟩

end Guard

/- Without the guard the sale goes through, when nothing else fails. -/

/-- The two reads of the subscription fail so, and everything else answers. -/
def failing (first second : Option Failure) (n : Nat) : Env :=
  ⟨none, if n = 2 then first else if n = 3 then second else none, text "cs_new"⟩

section Sale
variable {α : Type} {first second : Option Failure} {n : Nat} {db : Db} {s : SessionUser} {row : CompanyRow} {id : Text}
    {held : HeldSubscription}

theorem failing_later (later : 4 ≤ n) : (failing first second n).failure = none := by
  simp [failing, show n ≠ 2 by omega, show n ≠ 3 by omega]

theorem fetch_unguarded {next : Option StripeAccount.Subscription → Action α} (record : row.stripeSubscriptionId = some id)
    (unguarded : ¬ Guarded db.stripe row first second) :
    ∃ m sub, 3 ≤ m ∧ (sub.map fun sub : StripeAccount.Subscription => SubscriptionStatus.parse sub.status) ≠ some .active ∧
      runAlone (failing first second) 2 (fetchSubscription true row.toRecord next) db =
        runAlone (failing first second) m (next sub) db := by
  rw [run_retrieve record]
  rw [show (failing first second 2).failure = first from rfl]
  cases first with
  | none => exact absurd (.inl rfl) unguarded
  | some failure =>
    cases failure with
    | transport detail carriedOut => exact ⟨3, none, Nat.le_refl 3, by simp, rfl⟩
    | refused status message =>
      rw [retrieve_refused]
      simp only
      cases known : row.stripeCustomerId with
      | none =>
        have unknown : row.toRecord.stripeCustomerId = none := known
        refine ⟨3, none, Nat.le_refl 3, by simp, ?_⟩
        rw [latest, unknown]
      | some customer =>
        rw [run_latest known]
        rw [show (failing (some (.refused status message)) second 3).failure = second from rfl]
        cases second with
        | some failure => exact ⟨4, none, by omega, by simp, rfl⟩
        | none =>
          rw [StripeAccount.latestSubscriptionForCustomer]
          refine ⟨4, _, by omega, ?_, rfl⟩
          intro active
          rw [Option.map_map] at active
          obtain ⟨newest, listed, parsed⟩ := Option.map_eq_some_iff.mp active
          exact unguarded (.inr ⟨⟨status, message, rfl⟩, rfl, customer, newest, known, listed, parsed⟩)

theorem run_record_calm {company : CompanyId} {next : BillingRecord → Action α}
    (there : db.companies.find company = some row) :
    runAlone (failing first second) n (BillingPrograms.record company next) db =
      runAlone (failing first second) (n + 1) (next row.toRecord) db := by
  rw [BillingPrograms.record, run_call]
  simp [execute, queried, failing, there]

theorem run_price {plan : Plan} {next : Text → Action α} (later : 4 ≤ n) :
    ∃ price after, after.stripe.sessions = db.stripe.sessions ∧
      runAlone (failing first second) n (call (.priceForPlan plan) next) db =
        runAlone (failing first second) (n + 1) (next price) after := by
  rw [run_call]
  simp only [execute, withStripe, StripeAccount.priceForPlan, StripeAccount.creating, failing_later later]
  cases db.stripe.prices.find? (·.1 = StripeAccount.lookupKey plan) with
  | some price => exact ⟨price.2, db, rfl, rfl⟩
  | none =>
    refine ⟨_, _, ?_, rfl⟩
    rfl

theorem run_customer {found : BillingRecord} {next : Text → Action α} (later : 4 ≤ n) :
    ∃ m customer after, n ≤ m ∧ after.stripe.sessions = db.stripe.sessions ∧
      runAlone (failing first second) n (customerOf s found next) db =
        runAlone (failing first second) m (next customer) after := by
  rw [customerOf]
  cases found.stripeCustomerId with
  | some customer => exact ⟨n, customer, db, Nat.le_refl n, rfl, rfl⟩
  | none =>
    simp only
    rw [run_call]
    simp only [execute, withStripe, StripeAccount.createCustomer, StripeAccount.creating, failing_later later]
    rw [run_call]
    simp only [execute, queried, failing]
    refine ⟨n + 2, _, _, by omega, ?_, rfl⟩
    rfl

theorem run_session {req : StripeAccount.CheckoutRequest} {next : StripeAccount.HostedSession → Action α} (later : 4 ≤ n) :
    ∃ hosted after created, runAlone (failing first second) n (call (.createCheckoutSession req) next) db =
        runAlone (failing first second) (n + 1) (next hosted) after ∧
      after.stripe.sessions = created :: db.stripe.sessions := by
  rw [run_call]
  simp only [execute, withStripe, StripeAccount.createCheckoutSession, StripeAccount.creating, failing_later later]
  exact ⟨_, _, _, rfl, rfl⟩

theorem selling_sold {plan : Plan} {seats : Int} (found : db.companies.find s.principal.companyId = some row)
    (later : 3 ≤ n) :
    (runAlone (failing first second) n (selling s plan seats) db).2.stripe.sessions ≠ db.stripe.sessions := by
  rw [selling, run_record_calm found]
  obtain ⟨price, priced, same, run⟩ := @run_price CheckoutOutcome first second (n + 1) db plan
    (fun price => customerOf s row.toRecord (hosting s row.toRecord seats price)) (by omega)
  rw [run]
  obtain ⟨m, customer, known, after, still, run⟩ := @run_customer CheckoutOutcome first second (n + 2) priced s row.toRecord
    (hosting s row.toRecord seats price) (by omega)
  rw [run, hosting]
  obtain ⟨hosted, sold, created, run, sessions⟩ := @run_session CheckoutOutcome first second m known
    ⟨customer, price, seats, trialOffer row.toRecord, s.principal.companyId⟩
    (fun hosted => .done (.ok ⟨hosted.id, hosted.url⟩)) (by omega)
  rw [run]
  simp [runAlone, Program.runFrom, sessions, still, same]

theorem unguarded_sold (found : db.companies.find s.principal.companyId = some row)
    (record : row.stripeSubscriptionId = some id) (unguarded : ¬ Guarded db.stripe row first second) :
    ∃ planKey seats, (runAlone (failing first second) 0 (startCheckout true s planKey seats) db).2.stripe.sessions ≠
      db.stripe.sessions := by
  let users := activeUsers db s.principal.companyId
  let seats := max 1 users
  refine ⟨(planForSeats seats).key, seats, ?_⟩
  have valid : validateCheckout (planForSeats seats).key seats users = .ok (planForSeats seats) :=
    validateCheckout_band (Int.le_max_left _ _) (Int.le_max_right _ _)
  simp only [startCheckout, gateway, if_true, status]
  rw [run_record_calm found, run_call]
  obtain ⟨m, sub, later, inactive, fetched⟩ := @fetch_unguarded _ first second db row id
    (fun sub => offering s (planForSeats seats).key seats (billingStatus row.toRecord users sub)) record unguarded
  have counted : execute (failing first second 1) (.activeUserCount s.principal.companyId) db = (.ok users, db) := rfl
  rw [counted]
  simp only
  rw [fetched, offering]
  have status : (billingStatus row.toRecord users sub).status ≠ .active := by
    cases sub with
    | none => simp [billingStatus]
    | some sub => simpa [billingStatus] using inactive
  have same : (billingStatus row.toRecord users sub).activeUsers = users := by
    cases sub <;> rfl
  rw [if_neg (by simpa [SubscriptionStatus.mayStartCheckout] using status), same, valid]
  exact selling_sold found later

end Sale

/-- A company with an active subscription is sold no second one, whatever it asks for, exactly when the failures of the two
    reads leave the guard in force. -/
theorem no_second_checkout_iff {configured : Bool} {s : SessionUser} {db : Db} {row : CompanyRow} {id : Text}
    {held : HeldSubscription} {first second : Option Failure} (found : db.companies.find s.principal.companyId = some row)
    (record : row.stripeSubscriptionId = some id) (there : StripeAccount.subscription db.stripe id = some held)
    (active : SubscriptionStatus.parse held.status = .active) :
    (∀ planKey seats envs, (envs 2).failure = first → (envs 3).failure = second →
      (runAlone envs 0 (startCheckout configured s planKey seats) db).2.stripe.sessions = db.stripe.sessions) ↔
      configured = false ∨ Guarded db.stripe row first second := by
  constructor
  · intro barred
    cases configured with
    | false => exact .inl rfl
    | true =>
      refine .inr (Classical.byContradiction fun unguarded => ?_)
      obtain ⟨planKey, seats, sold⟩ := unguarded_sold found record unguarded
      exact sold (barred planKey seats (failing first second) rfl rfl)
  · rintro guarded planKey seats envs rfl rfl
    obtain ⟨e, refused⟩ := @guarded_refused envs db s row id held configured planKey seats found record there active guarded
    rw [refused]

/- A company with ten seats, paid for. -/

def paying : CompanyRow :=
  ⟨1, text "Acme", some (text "cus_1"), some (text "sub_1"), some (text "team"), none, some 10, none, true⟩

def payingDb : Db where
  companies := ⟨[paying], 2, by decide, by decide⟩
  users := .empty
  stripe := ⟨[⟨text "cus_1", 1, text "ann@example.com", text "Acme"⟩], [], [],
    [⟨text "sub_1", text "cus_1", 1, none, text "active", [some 10], none, false⟩]⟩

def rateLimited : Failure := .refused ⟨429, "Too Many Requests"⟩ none

theorem answered_no_second_checkout :
    (∀ planKey seats envs, (envs 2).failure = none → (envs 3).failure = none →
      (runAlone envs 0 (startCheckout true manager planKey seats) payingDb).2.stripe.sessions = payingDb.stripe.sessions) ↔
      true = false ∨ Guarded payingDb.stripe paying none none :=
  @no_second_checkout_iff true manager payingDb paying (text "sub_1") _ none none rfl rfl rfl (by decide)

theorem rate_limited_second_checkout : ∃ row id held, payingDb.companies.find manager.principal.companyId = some row ∧
    row.stripeSubscriptionId = some id ∧ StripeAccount.subscription payingDb.stripe id = some held ∧
    SubscriptionStatus.parse held.status = .active ∧
    (runAlone (failing (some rateLimited) (some rateLimited)) 0 (startCheckout true manager (text "starter") 5)
      payingDb).2.stripe.sessions.map (·.customer) = [text "cus_1"] :=
  ⟨paying, text "sub_1", _, rfl, rfl, rfl, by decide, by decide +kernel⟩

end SecondCheckout
