import PmKonstruct.Billing.Plans
import PmKonstruct.Identity.Accounts

/- The account at Stripe behind the gateway: what its requests create and read there, what becomes of a session and of a
   subscription without the program, and how the client reads a response. -/
namespace StripeAccount
open PlainText DomainErrors Plans

structure Customer where
  id : Text
  company : CompanyId
  email : Text
  name : Text
  deriving DecidableEq, Repr

structure CheckoutSession where
  id : Text
  customer : Text
  price : Text
  seats : Int
  trialDays : Option Int
  company : CompanyId
  status : Text
  subscription : Option Text
  deriving DecidableEq, Repr

structure HeldSubscription where
  id : Text
  customer : Text
  company : CompanyId
  trialDays : Option Int
  status : Text
  items : List (Option Int)
  currentPeriodEnd : Option Int
  cancelAtPeriodEnd : Bool
  deriving DecidableEq, Repr

/-- The newest subscription stands first. A price goes by its lookup key. -/
structure Account where
  customers : List Customer
  prices : List (Text × Text)
  sessions : List CheckoutSession
  subscriptions : List HeldSubscription
  deriving DecidableEq, Repr

/- What the gateway makes of it. -/

structure Subscription where
  id : Text
  customerId : Text
  status : Text
  quantity : Int
  currentPeriodEnd : Option Int
  cancelAtPeriodEnd : Bool
  deriving DecidableEq, Repr

structure HostedSession where
  id : Text
  url : Text
  deriving DecidableEq, Repr

structure CheckoutResult where
  customerId : Option Text
  subscriptionId : Option Text
  status : Text
  deriving DecidableEq, Repr

structure CheckoutRequest where
  customerId : Text
  priceId : Text
  seats : Int
  trialDays : Option Int
  companyId : CompanyId
  deriving DecidableEq, Repr

structure HttpStatus where
  code : Nat
  reason : String
  deriving DecidableEq, Repr

/-- A request that gets no response may have been carried out all the same. -/
inductive Failure where
  | transport (detail : String) (carriedOut : Bool)
  | refused (status : HttpStatus) (message : Option String)
  deriving DecidableEq, Repr

def notFound : Failure := .refused ⟨404, "Not Found"⟩ none

/-- What the client makes of a response that is not a success. -/
def Failure.error : Failure → PortError
  | .transport detail _ => .unavailable "stripe" detail
  | .refused status message =>
    if status.code = 401 || status.code = 403 then .rejected "stripe" "the configured Stripe key was rejected"
    else .rejected "stripe" (message.getD s!"Stripe returned {status.code} {status.reason}")

def Failure.carriedOut : Failure → Bool
  | .transport _ carriedOut => carriedOut
  | .refused _ _ => false

def read {α : Type} : Except Failure α → Except PortError α
  | .error failure => .error failure.error
  | .ok body => .ok body

def HeldSubscription.toSubscription (s : HeldSubscription) : Subscription :=
  ⟨s.id, s.customer, s.status, (s.items.filterMap fun quantity => quantity).sum, s.currentPeriodEnd, s.cancelAtPeriodEnd⟩

/-- Without a failure of its own, a request finds what is there. -/
def found {α : Type} (failure : Option Failure) (there : Option α) : Except Failure α :=
  match failure with
  | some f => .error f
  | none =>
    match there with
    | none => .error notFound
    | some value => .ok value

/-- Any rejection reads as a subscription that does not exist. -/
def orNone {α : Type} : Except PortError α → Except PortError (Option α)
  | .ok value => .ok (some value)
  | .error (.rejected _ _) => .ok none
  | .error e => .error e

section Requests
variable (account : Account) (failure : Option Failure)

def session (id : Text) : Option CheckoutSession := account.sessions.find? (·.id = id)

def subscription (id : Text) : Option HeldSubscription := account.subscriptions.find? (·.id = id)

def retrieveCheckoutSession (id : Text) : Except PortError CheckoutResult :=
  read ((found failure (session account id)).map fun s => ⟨some s.customer, s.subscription, s.status⟩)

def retrieveSubscription (id : Text) : Except PortError (Option Subscription) :=
  orNone (read ((found failure (subscription account id)).map (·.toSubscription)))

def latestSubscriptionForCustomer (customer : Text) : Except PortError (Option Subscription) :=
  read (match failure with
    | some f => .error f
    | none => .ok ((account.subscriptions.find? (·.customer = customer)).map (·.toSubscription)))

/-- A request that creates something under an id that Stripe draws. -/
def creating {α : Type} (answer : α) (created : Account) : Except PortError α × Account :=
  match failure with
  | none => (.ok answer, created)
  | some f => (.error f.error, if f.carriedOut then created else account)

variable (id : Text)

def lookupKey (plan : Plan) : Text := text "pmk_" ++ plan.key

def priceForPlan (plan : Plan) : Except PortError Text × Account :=
  match account.prices.find? (·.1 = lookupKey plan) with
  | some price =>
    match failure with
    | none => (.ok price.2, account)
    | some f => (.error f.error, account)
  | none => creating account failure id { account with prices := (lookupKey plan, id) :: account.prices }

def createCustomer (company : CompanyId) (email name : Text) : Except PortError Text × Account :=
  creating account failure id { account with customers := ⟨id, company, email, name⟩ :: account.customers }

def createCheckoutSession (req : CheckoutRequest) : Except PortError HostedSession × Account :=
  creating account failure ⟨id, text "https://checkout.stripe.com/" ++ id⟩ { account with
    sessions := ⟨id, req.customerId, req.priceId, req.seats, req.trialDays, req.companyId, text "open", none⟩ ::
      account.sessions }

end Requests

/- What happens there without the program. -/

/-- A customer pays for an open session, or lets it lapse; a subscription is cancelled, renewed or falls due; its seats
    are changed through the portal. -/
inductive Action where
  | complete (session : Text)
  | expire (session : Text)
  | changeStatus (subscription status : Text)
  | changeSeats (subscription : Text) (seats : Int)
  deriving DecidableEq, Repr

/-- A subscription that starts with a trial is not charged for yet. -/
def bought (id : Text) (s : CheckoutSession) : HeldSubscription :=
  ⟨id, s.customer, s.company, s.trialDays, if s.trialDays.isSome then text "trialing" else text "active", [some s.seats],
    none, false⟩

def act (account : Account) (id : Text) : Action → Account
  | .complete sid =>
    match session account sid with
    | none => account
    | some s =>
      if s.status = text "open" then
        { account with
          sessions := account.sessions.map fun t =>
            if t.id = sid && t.status = text "open" then { t with status := text "complete", subscription := some id } else t
          subscriptions := bought id s :: account.subscriptions }
      else account
  | .expire sid =>
    { account with
      sessions := account.sessions.map fun t =>
        if t.id = sid && t.status = text "open" then { t with status := text "expired" } else t }
  | .changeStatus sub status =>
    { account with
      subscriptions := account.subscriptions.map fun t => if t.id = sub then { t with status := status } else t }
  | .changeSeats sub seats =>
    { account with
      subscriptions := account.subscriptions.map fun t => if t.id = sub then { t with items := [some seats] } else t }

/-- Stripe never draws an id twice, and no blank one. -/
def unused (account : Account) (id : Text) : Bool :=
  trim id ≠ [] && account.customers.all (·.id ≠ id) && account.sessions.all (·.id ≠ id) &&
    account.subscriptions.all (·.id ≠ id)

section Lookups
variable {account : Account} {id : Text}

theorem session_named {s : CheckoutSession} (found : session account id = some s) : s ∈ account.sessions ∧ s.id = id :=
  ⟨List.mem_of_find?_eq_some found, by simpa using List.find?_some found⟩

theorem subscription_named {s : HeldSubscription} (found : subscription account id = some s) :
    s ∈ account.subscriptions ∧ s.id = id :=
  ⟨List.mem_of_find?_eq_some found, by simpa using List.find?_some found⟩

structure Unused (account : Account) (id : Text) : Prop where
  visible : trim id ≠ []
  session : ∀ s ∈ account.sessions, s.id ≠ id
  subscription : ∀ s ∈ account.subscriptions, s.id ≠ id

theorem unused_spec (drawn : unused account id = true) : Unused account id := by
  simp only [unused, Bool.and_eq_true, decide_eq_true_eq, List.all_eq_true] at drawn
  exact ⟨drawn.1.1.1, drawn.1.2, drawn.2⟩

end Lookups

end StripeAccount
