import PmKonstruct.Billing.SecondCheckout
import PmKonstruct.Billing.StripeEvolution

/- The customer in the record of a company: which calls write it, which go by it, and what confirming a session takes. -/
namespace CustomerRecord
open PlainText DomainErrors Accounts KeyedTable StatementProgram Plans BillingPrograms StripeEvolution
open AuthService (SessionUser)
open StripeAccount (CheckoutSession CheckoutRequest)

def recorded (db : Db) (company : CompanyId) : Option Text := (db.companies.find company).bind (·.stripeCustomerId)

def createdBy : Event Statement Answer → Option (CompanyId × Text)
  | ⟨.createCustomer company _ _, .ok customer⟩ => some (company, customer)
  | _ => none

/-- The customer that the last answer gave. -/
def created (trace : List (Event Statement Answer)) : Option (CompanyId × Text) := trace.getLast?.bind createdBy

/- What the programs go by. -/

theorem created_append (past : List (Event Statement Answer)) (event : Event Statement Answer) :
    created (past ++ [event]) = createdBy event := by
  simp [created, List.getLast?_append]

/-- The call has read the customer in the record, or has written it there. -/
def Knows (past : List (Event Statement Answer)) (company : CompanyId) (customer : Text) : Prop :=
  (∃ found : BillingRecord, ⟨.record company, .ok (some found)⟩ ∈ past ∧ found.stripeCustomerId = some customer) ∨
    ⟨.setCustomer company customer, .ok ()⟩ ∈ past

/-- A customer just created is recorded next; a session is for a customer that the call knows. -/
def At (past : List (Event Statement Answer)) : Statement → Prop
  | .setCustomer company customer => created past = some (company, customer)
  | .createCheckoutSession req => created past = none ∧ Knows past req.companyId req.customerId
  | _ => created past = none

def Hosted (configured : Bool) (company : CompanyId) (past : List (Event Statement Answer)) :
    Except AppError CheckoutOutcome → Prop
  | .ok outcome => configured = true ∧ ∃ (req : CheckoutRequest) (hosted : StripeAccount.HostedSession),
      ⟨.createCheckoutSession req, .ok hosted⟩ ∈ past ∧ req.companyId = company ∧ hosted.id = outcome.sessionId
  | .error _ => True

section Programs
variable {α : Type} {Ends : List (Event Statement Answer) → Except AppError α → Prop}
    {past : List (Event Statement Answer)} {configured : Bool} {s : SessionUser}

theorem at_readable : Readable At (created · = none) := by
  intro past statement reads idle
  refine ⟨?_, fun answer => ?_⟩
  · cases statement <;> first | exact idle | cases reads
  · refine (created_append _ _).trans ?_
    cases statement <;> first | rfl | cases reads

theorem customerOf_obeys {found : BillingRecord} {next : Text → Action α} (idle : created past = none)
    (read : ⟨.record s.principal.companyId, .ok (some found)⟩ ∈ past)
    (failed : ∀ past e, Ends past (.error e))
    (later : ∀ past customer, created past = none → Knows past s.principal.companyId customer →
      (next customer).Obeys At Ends past) : (customerOf s found next).Obeys At Ends past := by
  unfold customerOf
  split
  · next known => exact later past _ idle (.inl ⟨found, read, known⟩)
  · refine call_obeys idle failed fun customer => call_obeys (created_append _ _) failed fun _ => ?_
    exact later _ _ (created_append _ _) (.inr (by simp))

theorem startCheckout_obeys {planKey : Text} {seats : Int} :
    (startCheckout configured s planKey seats).Obeys At (Hosted configured s.principal.companyId) [] := by
  have failed : ∀ past e, Hosted configured s.principal.companyId past (.error e) := fun _ _ => trivial
  unfold startCheckout gateway
  split
  · next keyed =>
    refine status_obeys at_readable rfl failed fun past current idle => ?_
    unfold offering
    split
    · exact failed _ _
    · split
      · exact failed _ _
      · refine record_obeys idle failed fun found => call_obeys (created_append _ _) failed fun price => ?_
        refine customerOf_obeys (created_append _ _) (by simp) failed fun past customer idle known => ?_
        exact call_obeys ⟨idle, known⟩ failed fun hosted => ⟨keyed, _, hosted, List.mem_append_right _ (.head _), rfl, rfl⟩
  · exact failed _ _

theorem confirmCheckout_obeys {sessionId : Text} :
    (confirmCheckout configured s sessionId).Obeys At (fun _ _ => True) [] := by
  have failed : ∀ (past : List (Event Statement Answer)) (e : AppError), True := fun _ _ => trivial
  unfold confirmCheckout
  split
  · trivial
  · unfold gateway
    split
    · refine call_obeys rfl failed fun result => ?_
      split
      · trivial
      · split
        · trivial
        · refine call_obeys (created_append _ _) failed ?_
          rintro (_ | sub)
          · trivial
          · refine record_obeys (created_append _ _) failed fun found => ?_
            split
            · trivial
            · refine call_obeys (created_append _ _) failed fun _ => ?_
              exact status_obeys at_readable (created_append _ _) failed fun _ _ _ => trivial
    · trivial

end Programs

/-- Every call, whatever it was asked. -/
def Ends (configured : Bool) : Request → List (Event Statement Answer) → Outcome → Prop
  | .startCheckout s _ _, past, .ok (.checkout outcome) => Hosted configured s.principal.companyId past (.ok outcome)
  | _, _, _ => True

theorem programs_obey (configured : Bool) (request : Request) :
    (programOf configured request).Obeys At (Ends configured request) [] := by
  cases request with
  | startCheckout s planKey seats =>
    refine obeys_mapResult.mpr (startCheckout_obeys.imp (fun _ _ here => here) ?_)
    rintro past (e | outcome) hosted
    · trivial
    · exact hosted
  | confirmCheckout s sessionId =>
    exact obeys_mapResult.mpr (confirmCheckout_obeys.imp (fun _ _ here => here) fun _ _ _ => trivial)
  | act action => exact ⟨rfl, fun _ => trivial⟩

/- What the record says of it. -/

section Records
variable {env : Env} {db : Db} {company : CompanyId} {statement : Statement}

theorem there_later : ((execute env statement db).2.companies.find company).isSome = (db.companies.find company).isSome := by
  rw [execute_company, Option.isSome_map]

/-- Only a customer that is set for the company changes its record. -/
theorem recorded_kept (apart : ∀ customer, statement ≠ .setCustomer company customer) :
    recorded (execute env statement db).2 company = recorded db company := by
  rw [recorded, recorded, execute_company]
  cases found : db.companies.find company with
  | none => rfl
  | some row =>
    have named : row.id = company := (Table.find_eq_some_iff.mp found).2
    simp only [Option.map_some, Option.bind_some, rewritten]
    split
    · next c customer _ =>
      have other : row.id ≠ c := fun same => apart customer (by rw [← same, named])
      rw [if_neg other]
    · split <;> rfl
    · rfl

theorem recorded_set {customer : Text} (there : (db.companies.find company).isSome = true) (calm : env.fault = none) :
    recorded (execute env (.setCustomer company customer) db).2 company = some customer := by
  obtain ⟨row, found⟩ := Option.isSome_iff_exists.mp there
  have named : row.id = company := (Table.find_eq_some_iff.mp found).2
  simp [recorded, execute_company, found, rewritten, calm, named]

end Records

/- Confirming a session that is complete. -/

section Confirming
open SecondCheckout (runAlone run_call)

def Calm (envs : Nat → Env) : Prop := ∀ n, (envs n).fault = none ∧ (envs n).failure = none

variable {α : Type} {envs : Nat → Env} {n : Nat} {db : Db} {configured : Bool} {s : SessionUser} {row : CompanyRow}
    {company : CompanyId}

theorem latest_passes {found : BillingRecord} {next : Option StripeAccount.Subscription → Action α} :
    ∃ m sub, runAlone envs n (latest found next) db = runAlone envs m (next sub) db := by
  unfold latest
  split
  · exact ⟨n, none, rfl⟩
  · next customer _ =>
    simp only [runAlone, Program.runFrom, execute]
    rcases StripeAccount.latestSubscriptionForCustomer db.stripe (envs n).failure customer with e | sub
    · exact ⟨n + 1, none, rfl⟩
    · exact ⟨n + 1, sub, rfl⟩

/-- Whatever Stripe answers, there is a status. -/
theorem fetch_passes {found : BillingRecord} {next : Option StripeAccount.Subscription → Action α} :
    ∃ m sub, runAlone envs n (fetchSubscription configured found next) db = runAlone envs m (next sub) db := by
  unfold fetchSubscription
  split
  · split
    · exact latest_passes
    · next id _ =>
      simp only [runAlone, Program.runFrom, execute]
      rcases StripeAccount.retrieveSubscription db.stripe (envs n).failure id with e | _ | sub
      · exact ⟨n + 1, none, rfl⟩
      · exact latest_passes
      · exact ⟨n + 1, some sub, rfl⟩
  · exact ⟨n, none, rfl⟩

theorem record_reads {next : BillingRecord → Action α} (calm : Calm envs) (found : db.companies.find company = some row) :
    runAlone envs n (record company next) db = runAlone envs (n + 1) (next row.toRecord) db := by
  rw [record, run_call]
  simp [execute, queried, (calm n).1, found]

theorem status_answers (calm : Calm envs) (found : db.companies.find s.principal.companyId = some row) :
    ∃ current, (runAlone envs n (status configured s fun current => .done (.ok current)) db).1 = .ok current := by
  rw [status, record_reads calm found, run_call]
  simp only [execute, queried, (calm (n + 1)).1]
  obtain ⟨m, sub, passed⟩ := @fetch_passes BillingStatus envs (n + 1 + 1) db configured row.toRecord fun sub =>
    .done (.ok (billingStatus row.toRecord (SecondCheckout.activeUsers db s.principal.companyId) sub))
  exact ⟨_, congrArg Prod.fst passed⟩

/-- The session of a complete checkout is confirmed when its customer is the recorded one. -/
theorem confirm_answers {session : CheckoutSession} (calm : Calm envs) (standing : Standing db.stripe session)
    (complete : session.status = text "complete") (there : (db.companies.find s.principal.companyId).isSome = true)
    (owned : recorded db s.principal.companyId = some session.customer) :
    ∃ current, (runAlone envs 0 (confirmCheckout true s session.id) db).1 = .ok current := by
  obtain ⟨sub, held, sold, found, owner⟩ := standing.sold complete
  obtain ⟨row, recordedRow⟩ := Option.isSome_iff_exists.mp there
  have customer : row.stripeCustomerId = some session.customer := by
    simpa only [recorded, recordedRow, Option.bind_some] using owned
  have retrieved : StripeAccount.retrieveCheckoutSession db.stripe none session.id =
      .ok ⟨some session.customer, some sub, text "complete"⟩ := by
    simp [StripeAccount.retrieveCheckoutSession, StripeAccount.found, standing.found, StripeAccount.read, Except.map, sold,
      complete]
  rw [confirmCheckout, if_neg standing.visible, gateway, if_pos rfl, run_call]
  simp only [execute, (calm 0).2, retrieved, ne_eq, not_true_eq_false, if_false]
  rw [run_call]
  simp only [execute, (calm 1).2, SecondCheckout.retrieve_found found]
  rw [record_reads calm recordedRow]
  have same : row.toRecord.stripeCustomerId = some held.toSubscription.customerId := customer.trans (congrArg some owner.symm)
  rw [if_neg (not_not.mpr same), run_call]
  simp only [execute, queried, (calm 3).1]
  obtain ⟨after, written⟩ : ∃ after, (setSubscription db s.principal.companyId held.toSubscription.id
      (planForSeats held.toSubscription.quantity).key (row.toRecord.priceId.getD [])
      held.toSubscription.quantity).companies.find
        s.principal.companyId = some after := by
    simp only [setSubscription, writeCompany, Table.find_update, recordedRow, Option.map_some]
    exact ⟨_, rfl⟩
  exact status_answers calm written

end Confirming

end CustomerRecord
