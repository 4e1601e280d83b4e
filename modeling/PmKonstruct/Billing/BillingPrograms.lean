import PmKonstruct.Billing.StripeAccount
import PmKonstruct.Identity.AuthService

/- The billing use cases, statement by statement: each reads or writes the row of the company on its own, or sends one
   request to Stripe. What the customers do at Stripe comes in between. -/
namespace BillingPrograms
open PlainText DecimalText DomainErrors Accounts KeyedTable Plans StatementProgram
open AuthService (SessionUser)
open StripeAccount (Account Failure Subscription HostedSession CheckoutResult CheckoutRequest)

structure CompanyRow where
  id : CompanyId
  name : Text
  stripeCustomerId : Option Text
  stripeSubscriptionId : Option Text
  billingPlanKey : Option Text
  billingPriceId : Option Text
  billingSeatQuantity : Option Int
  billingTrialEndsAt : Option Instant
  billingOnboardingCompleted : Bool
  deriving DecidableEq, Repr

instance : Keyed CompanyRow := ⟨CompanyRow.id⟩

structure Db where
  companies : Table CompanyRow
  users : Table AuthStore.UserRow
  stripe : Account

structure BillingRecord where
  companyName : Text
  stripeCustomerId : Option Text
  stripeSubscriptionId : Option Text
  planKey : Option Text
  priceId : Option Text
  seatQuantity : Option Int
  trialEndsAt : Option Instant
  onboardingComplete : Bool
  deriving DecidableEq, Repr

inductive Statement where
  | record (company : CompanyId)
  | activeUserCount (company : CompanyId)
  | setCustomer (company : CompanyId) (customer : Text)
  | setSubscription (company : CompanyId) (subscription planKey priceId : Text) (seats : Int)
  | priceForPlan (plan : Plan)
  | createCustomer (company : CompanyId) (email name : Text)
  | createCheckoutSession (req : CheckoutRequest)
  | retrieveCheckoutSession (id : Text)
  | retrieveSubscription (id : Text)
  | latestSubscriptionForCustomer (customer : Text)
  | act (action : StripeAccount.Action)

abbrev Reply : Statement → Type
  | .record _ => Option BillingRecord
  | .activeUserCount _ => Int
  | .setCustomer _ _ => Unit
  | .setSubscription _ _ _ _ _ => Unit
  | .priceForPlan _ => Text
  | .createCustomer _ _ _ => Text
  | .createCheckoutSession _ => HostedSession
  | .retrieveCheckoutSession _ => CheckoutResult
  | .retrieveSubscription _ => Option Subscription
  | .latestSubscriptionForCustomer _ => Option Subscription
  | .act _ => Unit

abbrev Answer (statement : Statement) : Type := Except PortError (Reply statement)

/-- A fault of the database, a failure of the request to Stripe, and the id that Stripe draws. -/
structure Env where
  fault : Option PortError
  failure : Option Failure
  id : Text
  deriving DecidableEq, Repr

def CompanyRow.toRecord (row : CompanyRow) : BillingRecord :=
  ⟨row.name, row.stripeCustomerId, row.stripeSubscriptionId, row.billingPlanKey, row.billingPriceId,
    row.billingSeatQuantity, row.billingTrialEndsAt, row.billingOnboardingCompleted⟩

/-- `i32::try_from(seats).unwrap_or(i32::MAX)`. -/
def seatsColumn (seats : Int) : Int := if InI32 seats then seats else 2147483647

section Statements
variable (env : Env) (db : Db)

def writeCompany (company : CompanyId) (change : CompanyRow → CompanyRow)
    (keeps : ∀ row, Keyed.key (change row) = Keyed.key row) : Db :=
  { db with companies := db.companies.update (fun c => c.id = company) change keeps }

def setCustomer (company : CompanyId) (customer : Text) : Db :=
  writeCompany db company (fun c => { c with stripeCustomerId := some customer }) fun _ => rfl

def setSubscription (company : CompanyId) (subscription planKey priceId : Text) (seats : Int) : Db :=
  writeCompany db company
    (fun c => { c with
      stripeSubscriptionId := some subscription
      billingPlanKey := some planKey
      billingPriceId := some priceId
      billingSeatQuantity := some (seatsColumn seats)
      billingOnboardingCompleted := true })
    fun _ => rfl

def withStripe {α : Type} (done : α × Account) : α × Db := (done.1, { db with stripe := done.2 })

def queried {α : Type} (answer : α) (after : Db) : Except PortError α × Db :=
  match env.fault with
  | some e => (.error e, db)
  | none => (.ok answer, after)

end Statements

def execute : Executes Statement Answer Env Db := fun env statement db =>
  match statement with
  | .record company => queried env db ((db.companies.find company).map (·.toRecord)) db
  | .activeUserCount company => queried env db (db.users.select fun u => u.companyId = company && u.active).length db
  | .setCustomer company customer => queried env db () (setCustomer db company customer)
  | .setSubscription company subscription planKey priceId seats =>
    queried env db () (setSubscription db company subscription planKey priceId seats)
  | .priceForPlan plan => withStripe db (StripeAccount.priceForPlan db.stripe env.failure env.id plan)
  | .createCustomer company email name =>
    withStripe db (StripeAccount.createCustomer db.stripe env.failure env.id company email name)
  | .createCheckoutSession req => withStripe db (StripeAccount.createCheckoutSession db.stripe env.failure env.id req)
  | .retrieveCheckoutSession id => (StripeAccount.retrieveCheckoutSession db.stripe env.failure id, db)
  | .retrieveSubscription id => (StripeAccount.retrieveSubscription db.stripe env.failure id, db)
  | .latestSubscriptionForCustomer customer =>
    (StripeAccount.latestSubscriptionForCustomer db.stripe env.failure customer, db)
  | .act action => (.ok (), { db with stripe := StripeAccount.act db.stripe env.id action })

/- The use cases. -/

abbrev Action (α : Type) : Type := Program Statement Answer (Except AppError α)

def fail {α : Type} (error : AppError) : Action α := .done (.error error)

/-- Awaits a statement and passes a driver error on. -/
def call {α : Type} (statement : Statement) (next : Reply statement → Action α) : Action α :=
  await .port statement next

structure BillingStatus where
  status : SubscriptionStatus
  hasAccess : Bool
  onboardingComplete : Bool
  activeUsers : Int
  seatLimit : Int
  currentPeriodEnd : Option Instant
  cancelAtPeriodEnd : Bool
  trialEndsAt : Option Instant
  planKey : Option Text
  deriving DecidableEq, Repr

structure CheckoutOutcome where
  sessionId : Text
  url : Text
  deriving DecidableEq, Repr

/-- Seconds outside the range of the calendar have no instant. -/
def fromTimestamp (seconds : Int) : Option Instant :=
  if -8334601228800 ≤ seconds && seconds ≤ 8210266876799 then some (seconds * 1000000) else none

/-- `configured` when the server has a key for Stripe. -/
def gateway {α : Type} (configured : Bool) (next : Action α) : Action α :=
  if configured then next else fail (.featureUnavailable "Billing is not configured on this server.")

section Service
variable (configured : Bool) (s : SessionUser)

def record {α : Type} (company : CompanyId) (next : BillingRecord → Action α) : Action α :=
  call (.record company) fun
  | none => fail (.domain (.notFound "Company"))
  | some found => next found

/-- The recovery path when the stored subscription is missing or gone. -/
def latest {α : Type} (found : BillingRecord) (next : Option Subscription → Action α) : Action α :=
  match found.stripeCustomerId with
  | none => next none
  | some customer =>
    .stmt (.latestSubscriptionForCustomer customer) fun answer =>
      match answer with
      | .error _ => next none
      | .ok sub => next sub

/-- Every error becomes no subscription. -/
def fetchSubscription {α : Type} (found : BillingRecord) (next : Option Subscription → Action α) : Action α :=
  if configured then
    match found.stripeSubscriptionId with
    | none => latest found next
    | some id =>
      .stmt (.retrieveSubscription id) fun answer =>
        match answer with
        | .error _ => next none
        | .ok (some sub) => next (some sub)
        | .ok none => latest found next
  else next none

/-- No subscription at all is a company that predates billing. -/
def billingStatus (found : BillingRecord) (activeUsers : Int) : Option Subscription → BillingStatus
  | some sub =>
    let status := SubscriptionStatus.parse sub.status
    ⟨status, status.grantsAccess, found.onboardingComplete, activeUsers, sub.quantity,
      sub.currentPeriodEnd.bind fromTimestamp, sub.cancelAtPeriodEnd, found.trialEndsAt, found.planKey⟩
  | none =>
    ⟨.legacy, SubscriptionStatus.legacy.grantsAccess, found.onboardingComplete, activeUsers, 0, none, false,
      found.trialEndsAt, found.planKey⟩

def status {α : Type} (next : BillingStatus → Action α) : Action α :=
  record s.principal.companyId fun found =>
    call (.activeUserCount s.principal.companyId) fun activeUsers =>
      fetchSubscription configured found fun sub => next (billingStatus found activeUsers sub)

/-- Created once and remembered. -/
def customerOf {α : Type} (found : BillingRecord) (next : Text → Action α) : Action α :=
  match found.stripeCustomerId with
  | some id => next id
  | none =>
    call (.createCustomer s.principal.companyId s.user.email found.companyName) fun customer =>
      call (.setCustomer s.principal.companyId customer) fun _ => next customer

/-- The trial is for a company that has never subscribed. -/
def trialOffer (found : BillingRecord) : Option Int := if found.stripeSubscriptionId.isNone then some trialDays else none

def hosting (found : BillingRecord) (seats : Int) (price customer : Text) : Action CheckoutOutcome :=
  call (.createCheckoutSession ⟨customer, price, seats, trialOffer found, s.principal.companyId⟩) fun hosted =>
    .done (.ok ⟨hosted.id, hosted.url⟩)

/-- The sale behind the validation. -/
def selling (plan : Plan) (seats : Int) : Action CheckoutOutcome :=
  record s.principal.companyId fun found =>
    call (.priceForPlan plan) fun price => customerOf s found (hosting s found seats price)

def offering (planKey : Text) (seats : Int) (current : BillingStatus) : Action CheckoutOutcome :=
  if current.status.mayStartCheckout = false then
    fail (.domain (.conflict "Manage your existing subscription through the billing portal."))
  else
    match validateCheckout planKey seats current.activeUsers with
    | .error e => fail (.domain e)
    | .ok plan => selling s plan seats

def startCheckout (planKey : Text) (seats : Int) : Action CheckoutOutcome :=
  gateway configured (status configured s (offering s planKey seats))

def confirmCheckout (sessionId : Text) : Action BillingStatus :=
  if trim sessionId = [] then fail (.domain (.invalid "sessionId" "Checkout session ID is required."))
  else gateway configured (call (.retrieveCheckoutSession sessionId) fun result =>
    if result.status ≠ text "complete" then fail (.domain (.conflict "That checkout has not been completed."))
    else
      match result.subscriptionId with
      | none => fail (.domain (.conflict "That checkout did not create a subscription."))
      | some subscriptionId =>
        call (.retrieveSubscription subscriptionId) fun
        | none => fail (.domain (.notFound "Subscription"))
        | some sub =>
          record s.principal.companyId fun found =>
            if found.stripeCustomerId ≠ some sub.customerId then
              fail (.domain (.forbidden "That checkout belongs to another account"))
            else
              call (.setSubscription s.principal.companyId sub.id (planForSeats sub.quantity).key
                (found.priceId.getD []) sub.quantity) fun _ =>
                status configured s fun current => .done (.ok current))

end Service

/- The calls that managers may have in flight together, and what happens at Stripe meanwhile. -/

inductive Request where
  | startCheckout (s : SessionUser) (planKey : Text) (seats : Int)
  | confirmCheckout (s : SessionUser) (sessionId : Text)
  | act (action : StripeAccount.Action)

inductive Returned where
  | checkout (outcome : CheckoutOutcome)
  | status (current : BillingStatus)
  | acted

abbrev Outcome : Type := Except AppError Returned

def programOf (configured : Bool) : Request → Program Statement Answer Outcome
  | .startCheckout s planKey seats => (startCheckout configured s planKey seats).mapResult (·.map .checkout)
  | .confirmCheckout s sessionId => (confirmCheckout configured s sessionId).mapResult (·.map .status)
  | .act action => .stmt (.act action) fun _ => .done (.ok .acted)

/-- What Stripe creates has an id of its own. -/
def admits (env : Env) (_ : Statement) (db : Db) : Bool := StripeAccount.unused db.stripe env.id

def billing (configured : Bool) (initial : Db → Prop) : Service Statement Answer Outcome Request Env Db where
  program := programOf configured
  execute := execute
  initial := initial
  admits := admits

/-- All that a statement can do to the account at Stripe, under the id that Stripe draws. -/
inductive Effect (account : Account) (id : Text) : Statement → Account → Prop where
  | untouched (statement : Statement) : Effect account id statement account
  | priced (plan : Plan) (prices : List (Text × Text)) :
    Effect account id (.priceForPlan plan) { account with prices := prices }
  | customer (company : CompanyId) (email name : Text) :
    Effect account id (.createCustomer company email name)
      { account with customers := ⟨id, company, email, name⟩ :: account.customers }
  | session (req : CheckoutRequest) :
    Effect account id (.createCheckoutSession req) { account with
      sessions := ⟨id, req.customerId, req.priceId, req.seats, req.trialDays, req.companyId, text "open", none⟩ ::
        account.sessions }
  | acted (action : StripeAccount.Action) : Effect account id (.act action) (StripeAccount.act account id action)

theorem creating_effect {α : Type} {account created : Account} {failure : Option Failure} {answer : α} {id : Text}
    {statement : Statement} (effect : Effect account id statement created) :
    Effect account id statement (StripeAccount.creating account failure answer created).2 := by
  cases failure with
  | none => exact effect
  | some f =>
    simp only [StripeAccount.creating]
    split
    · exact effect
    · exact .untouched statement

theorem execute_effect (env : Env) (statement : Statement) (db : Db) :
    Effect db.stripe env.id statement (execute env statement db).2.stripe := by
  have query {α : Type} (answer : α) (after : Db) (same : after.stripe = db.stripe) :
      Effect db.stripe env.id statement (queried env db answer after).2.stripe := by
    unfold queried
    split
    · exact .untouched statement
    · exact same ▸ .untouched statement
  cases statement with
  | record c => exact query _ _ rfl
  | activeUserCount c => exact query _ _ rfl
  | setCustomer c customer => exact query _ _ rfl
  | setSubscription c subscription planKey priceId seats => exact query _ _ rfl
  | retrieveCheckoutSession sid => exact .untouched _
  | retrieveSubscription sub => exact .untouched _
  | latestSubscriptionForCustomer customer => exact .untouched _
  | act action => exact .acted action
  | createCheckoutSession req => exact creating_effect (.session req)
  | createCustomer c email name => exact creating_effect (.customer c email name)
  | priceForPlan plan =>
    simp only [execute, withStripe, StripeAccount.priceForPlan]
    split
    · split <;> exact .untouched _
    · exact creating_effect (.priced plan _)

/-- The row of a company after a statement. -/
def rewritten (env : Env) (statement : Statement) (row : CompanyRow) : CompanyRow :=
  match env.fault, statement with
  | none, .setCustomer company customer => if row.id = company then { row with stripeCustomerId := some customer } else row
  | none, .setSubscription company subscription planKey priceId seats =>
    if row.id = company then { row with
      stripeSubscriptionId := some subscription
      billingPlanKey := some planKey
      billingPriceId := some priceId
      billingSeatQuantity := some (seatsColumn seats)
      billingOnboardingCompleted := true }
    else row
  | _, _ => row

theorem execute_company (env : Env) (statement : Statement) (db : Db) (company : CompanyId) :
    (execute env statement db).2.companies.find company = (db.companies.find company).map (rewritten env statement) := by
  have unwritten (same : ∀ row, rewritten env statement row = row) :
      (db.companies.find company).map (rewritten env statement) = db.companies.find company := by
    rw [funext same]
    exact Option.map_id'
  cases fault : env.fault with
  | some e =>
    rw [unwritten fun row => by simp only [rewritten, fault]]
    cases statement <;> first | rfl | simp only [execute, queried, fault]
  | none =>
    cases statement with
    | setCustomer c customer =>
      simp only [execute, queried, fault, setCustomer, writeCompany, Table.find_update, decide_eq_true_eq]
      exact congrArg (Option.map · _) (funext fun row => by simp only [rewritten, fault])
    | setSubscription c subscription planKey priceId seats =>
      simp only [execute, queried, fault, setSubscription, writeCompany, Table.find_update, decide_eq_true_eq]
      exact congrArg (Option.map · _) (funext fun row => by simp only [rewritten, fault])
    | record c =>
      rw [unwritten fun row => by simp only [rewritten, fault]]
      simp only [execute, queried, fault]
    | activeUserCount c =>
      rw [unwritten fun row => by simp only [rewritten, fault]]
      simp only [execute, queried, fault]
    | _ =>
      rw [unwritten fun row => by simp only [rewritten, fault]]
      rfl

abbrev Underway : Type := Call Statement Answer Outcome Request

abbrev Running : Type := Config Statement Answer Outcome Request Db

/- Samples to run the service on. -/

def manager : SessionUser :=
  let user : User := ⟨1, 1, text "Ann", text "ann@example.com", .manager, none, true, none⟩
  ⟨user, user.principal, [], ⟨true, true, true, none⟩⟩

/-- Nothing fails, and Stripe draws these ids. -/
def advance (call : Nat) (ids : List String) : List (Label Request Env) :=
  ids.map fun id => .advance call ⟨none, none, text id⟩

/- What the programs go by, for any account of it. -/

def Statement.reads : Statement → Bool
  | .record _ | .activeUserCount _ | .retrieveCheckoutSession _ | .retrieveSubscription _
  | .latestSubscriptionForCustomer _ =>
    true
  | _ => false

/-- Reading is in order whenever the trace is ready, and leaves it ready. -/
def Readable (atStatement : List (Event Statement Answer) → Statement → Prop)
    (Ready : List (Event Statement Answer) → Prop) : Prop :=
  ∀ past statement, statement.reads = true → Ready past →
    atStatement past statement ∧ ∀ answer, Ready (past ++ [⟨statement, answer⟩])

section Obeying
variable {α : Type} {atStatement : List (Event Statement Answer) → Statement → Prop}
    {atEnd : List (Event Statement Answer) → Except AppError α → Prop} {Ready : List (Event Statement Answer) → Prop}
    {past : List (Event Statement Answer)} {configured : Bool} {s : SessionUser}

theorem call_obeys {statement : Statement} {next : Reply statement → Action α} (here : atStatement past statement)
    (failed : ∀ past e, atEnd past (.error e))
    (later : ∀ reply, (next reply).Obeys atStatement atEnd (past ++ [⟨statement, .ok reply⟩])) :
    (call statement next).Obeys atStatement atEnd past := by
  refine ⟨here, ?_⟩
  rintro (e | reply)
  · exact failed _ _
  · exact later reply

theorem record_obeys {company : CompanyId} {next : BillingRecord → Action α} (here : atStatement past (.record company))
    (failed : ∀ past e, atEnd past (.error e))
    (later : ∀ found, (next found).Obeys atStatement atEnd (past ++ [⟨.record company, .ok (some found)⟩])) :
    (record company next).Obeys atStatement atEnd past := by
  refine call_obeys here failed ?_
  rintro (_ | found)
  · exact failed _ _
  · exact later found

section Reading
variable (readable : Readable atStatement Ready)
include readable

theorem latest_obeys {found : BillingRecord} {next : Option Subscription → Action α} (ready : Ready past)
    (later : ∀ past sub, Ready past → (next sub).Obeys atStatement atEnd past) :
    (latest found next).Obeys atStatement atEnd past := by
  unfold latest
  split
  · exact later past none ready
  · next customer _ =>
    obtain ⟨here, stays⟩ := readable past (.latestSubscriptionForCustomer customer) rfl ready
    refine ⟨here, ?_⟩
    rintro (e | sub) <;> exact later _ _ (stays _)

theorem fetch_obeys {found : BillingRecord} {next : Option Subscription → Action α} (ready : Ready past)
    (later : ∀ past sub, Ready past → (next sub).Obeys atStatement atEnd past) :
    (fetchSubscription configured found next).Obeys atStatement atEnd past := by
  unfold fetchSubscription
  split
  · split
    · exact latest_obeys readable ready later
    · next id _ =>
      obtain ⟨here, stays⟩ := readable past (.retrieveSubscription id) rfl ready
      refine ⟨here, ?_⟩
      rintro (e | _ | sub)
      · exact later _ _ (stays _)
      · exact latest_obeys readable (stays _) later
      · exact later _ _ (stays _)
  · exact later past none ready

theorem status_obeys {next : BillingStatus → Action α} (ready : Ready past) (failed : ∀ past e, atEnd past (.error e))
    (later : ∀ past current, Ready past → (next current).Obeys atStatement atEnd past) :
    (status configured s next).Obeys atStatement atEnd past := by
  obtain ⟨here, recorded⟩ := readable past (.record s.principal.companyId) rfl ready
  refine record_obeys here failed fun found => ?_
  obtain ⟨counts, counted⟩ := readable _ (.activeUserCount s.principal.companyId) rfl (recorded (.ok (some found)))
  refine call_obeys counts failed fun activeUsers => ?_
  exact fetch_obeys readable (counted _) fun past sub ready => later past _ ready

end Reading

end Obeying

end BillingPrograms
