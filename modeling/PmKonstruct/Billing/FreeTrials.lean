import PmKonstruct.Billing.BillingPrograms

/- How many free trials a company gets. A checkout session that offers one can turn into a subscription as long as it has
   not lapsed, and what the billing record says does not change that. -/
namespace FreeTrials
open PlainText DomainErrors Accounts KeyedTable TransitionRuns StatementProgram Plans BillingPrograms
open AuthService (SessionUser)
open StripeAccount (Account CheckoutSession HeldSubscription CheckoutRequest)

def offered (company : CompanyId) (s : CheckoutSession) : Bool := s.company = company && s.trialDays.isSome

/-- A session with a trial that was or can still be paid for. -/
def standing (company : CompanyId) (s : CheckoutSession) : Bool := offered company s && s.status ≠ text "expired"

def spent (company : CompanyId) (s : CheckoutSession) : Bool := offered company s && s.status = text "complete"

def carried (company : CompanyId) (s : HeldSubscription) : Bool := s.company = company && s.trialDays.isSome

/-- How many subscriptions of the company came with a trial. -/
def trials (company : CompanyId) (account : Account) : Nat := account.subscriptions.countP (carried company)

def offers (company : CompanyId) (req : CheckoutRequest) : Bool := req.companyId = company && req.trialDays.isSome

/-- A trial is offered only when every earlier session with one has lapsed. -/
def lapsed (company : CompanyId) (config : Running) : Label Request Env → Bool
  | .invoke _ => true
  | .advance i _ =>
    match config.calls[i]? with
    | none => true
    | some call =>
      match call.running with
      | .stmt (.createCheckoutSession req) _ =>
        !offers company req || config.store.stripe.sessions.all fun s => !standing company s
      | _ => true

/- What a step at Stripe does to the counts. -/

structure Once (company : CompanyId) (account : Account) : Prop where
  sessions : account.sessions.countP (standing company) ≤ 1
  paid : trials company account ≤ account.sessions.countP (spent company)

section Counts
variable {α : Type} {p : α → Bool} {f : α → α}

theorem countP_map_same (same : ∀ x, p (f x) = p x) (items : List α) : (items.map f).countP p = items.countP p := by
  induction items with
  | nil => rfl
  | cons x rest ih => simp only [List.map_cons, List.countP_cons, same, ih]

theorem countP_map_le (fewer : ∀ x, p (f x) = true → p x = true) (items : List α) :
    (items.map f).countP p ≤ items.countP p := by
  rw [List.countP_map]
  exact List.countP_mono_left fun x _ => fewer x

theorem countP_map_ge (more : ∀ x, p x = true → p (f x) = true) (items : List α) :
    items.countP p ≤ (items.map f).countP p := by
  rw [List.countP_map]
  exact List.countP_mono_left fun x _ => more x

/-- One item that counts only afterwards makes the count grow. -/
theorem countP_map_lt {x : α} {items : List α} (more : ∀ x, p x = true → p (f x) = true) (member : x ∈ items)
    (before : p x = false) (after : p (f x) = true) : items.countP p < (items.map f).countP p := by
  induction items with
  | nil => cases member
  | cons y rest ih =>
    simp only [List.map_cons, List.countP_cons]
    rcases List.mem_cons.mp member with rfl | later
    · have rest_grows := countP_map_ge more rest
      rw [before, after]
      simp only [Bool.false_eq_true, if_false, if_true]
      omega
    · have rest_grows := ih later
      by_cases here : p y = true
      · rw [here, more y here]
        omega
      · rw [if_neg here]
        omega

end Counts

section Steps
variable {company : CompanyId} {account : Account} {id : Text}

theorem standing_of_spent {s : CheckoutSession} (paid : spent company s = true) : standing company s = true := by
  simp only [spent, standing, Bool.and_eq_true, decide_eq_true_eq, ne_eq, decide_not, Bool.not_eq_true',
    decide_eq_false_iff_not] at paid ⊢
  refine ⟨paid.1, fun expired => ?_⟩
  rw [paid.2] at expired
  exact absurd expired (by decide)

theorem trials_le_one (once : Once company account) : trials company account ≤ 1 := by
  have paid := once.paid
  have sessions := once.sessions
  have fewer := List.countP_mono_left fun s (_ : s ∈ account.sessions) => @standing_of_spent company s
  omega

theorem complete_once (once : Once company account) (sid : Text) :
    Once company (StripeAccount.act account id (.complete sid)) := by
  simp only [StripeAccount.act]
  cases found : StripeAccount.session account sid with
  | none => exact once
  | some s =>
    by_cases pending : s.status = text "open"
    · simp only [if_pos pending]
      have member : s ∈ account.sessions := List.mem_of_find?_eq_some found
      have named : s.id = sid := by simpa using List.find?_some found
      constructor
      · refine le_trans (le_of_eq (countP_map_same (fun t => ?_) _)) once.sessions
        split
        · next this =>
          obtain ⟨-, stood⟩ := Bool.and_eq_true_iff.mp this
          simp only [standing, offered, of_decide_eq_true stood]
          congr 1
        · rfl
      · have kept : ∀ t, spent company t = true → spent company
            (if t.id = sid && t.status = text "open" then { t with status := text "complete", subscription := some id }
              else t) = true := by
          intro t paid
          split
          · simp only [spent, offered, Bool.and_eq_true] at paid ⊢
            exact ⟨paid.1, by decide⟩
          · exact paid
        have paid := once.paid
        simp only [trials, List.countP_cons] at paid ⊢
        by_cases trial : carried company (StripeAccount.bought id s) = true
        · rw [if_pos trial]
          have grows := countP_map_lt kept member
            (by simp only [spent, pending, Bool.and_eq_false_iff]; exact .inr (by decide))
            (by
              rw [if_pos (by simp [named, pending])]
              simp only [spent, Bool.and_eq_true]
              exact ⟨trial, by decide⟩)
          omega
        · rw [if_neg trial]
          have grows := countP_map_ge kept account.sessions
          omega
    · simp only [if_neg pending]
      exact once

theorem act_once (once : Once company account) (action : StripeAccount.Action) :
    Once company (StripeAccount.act account id action) := by
  cases action with
  | complete sid => exact complete_once once sid
  | expire sid =>
    constructor
    · refine le_trans (countP_map_le (fun s => ?_) _) once.sessions
      split
      · simp [standing]
      · exact fun stands => stands
    · refine le_trans once.paid (countP_map_ge (fun s paid => ?_) _)
      split
      · next this =>
        obtain ⟨-, pending⟩ := Bool.and_eq_true_iff.mp this
        simp only [spent, of_decide_eq_true pending, Bool.and_eq_true] at paid
        exact absurd paid.2 (by decide)
      · exact paid
  | changeStatus sub status =>
    refine ⟨once.sessions, le_trans (le_of_eq (countP_map_same (fun s => ?_) _)) once.paid⟩
    split <;> rfl
  | changeSeats sub seats =>
    refine ⟨once.sessions, le_trans (le_of_eq (countP_map_same (fun s => ?_) _)) once.paid⟩
    split <;> rfl

theorem session_once (once : Once company account) (req : CheckoutRequest)
    (lapsed : offers company req = true → ∀ s ∈ account.sessions, standing company s = false) :
    Once company { account with
      sessions := ⟨id, req.customerId, req.priceId, req.seats, req.trialDays, req.companyId, text "open", none⟩ ::
        account.sessions } := by
  constructor
  · rw [List.countP_cons]
    by_cases trial : offers company req = true
    · have none_stands := List.countP_eq_zero.mpr fun s member => Bool.eq_false_iff.mp (lapsed trial s member)
      rw [none_stands]
      split <;> omega
    · have untried (sub : Option Text) : ¬ standing company ⟨id, req.customerId, req.priceId, req.seats, req.trialDays,
          req.companyId, text "open", sub⟩ = true := fun stands => trial (Bool.and_eq_true_iff.mp stands).1
      rw [if_neg (untried none)]
      exact once.sessions
  · refine le_trans once.paid ?_
    rw [List.countP_cons]
    omega

theorem effect_once {statement : Statement} {after : Account} (effect : BillingPrograms.Effect account id statement after)
    (once : Once company account) (lapsed : ∀ req, statement = .createCheckoutSession req → offers company req = true →
      ∀ s ∈ account.sessions, standing company s = false) : Once company after := by
  cases effect with
  | untouched => exact once
  | priced plan prices => exact ⟨once.sessions, once.paid⟩
  | customer c email name => exact ⟨once.sessions, once.paid⟩
  | session req => exact session_once once req (lapsed req rfl)
  | acted action => exact act_once once action

end Steps

/- Over every run. -/

section Runs
variable {configured : Bool} {initial : Db → Prop} {company : CompanyId} {config : Running}

/-- Nothing with a trial has been sold to the company. -/
def Untried (company : CompanyId) (account : Account) : Prop :=
  (∀ s ∈ account.sessions, offered company s = false) ∧ ∀ s ∈ account.subscriptions, carried company s = false

theorem untried_once {account : Account} (untried : Untried company account) : Once company account := by
  have unsold : account.sessions.countP (standing company) = 0 := by
    refine List.countP_eq_zero.mpr fun s member stands => ?_
    rw [standing, untried.1 s member] at stands
    cases stands
  have uncarried : trials company account = 0 :=
    List.countP_eq_zero.mpr fun s member => Bool.eq_false_iff.mp (untried.2 s member)
  constructor <;> omega

theorem one_trial (untried : ∀ db, initial db → Untried company db.stripe)
    (reached : ((billing configured initial).machine.restrict (lapsed company)).Reachable config) :
    trials company config.store.stripe ≤ 1 := by
  apply trials_le_one
  obtain ⟨start, ⟨begins, idle⟩, leads⟩ := reached
  have reached : ((billing configured initial).machine.restrict (lapsed company)).Reachable start :=
    ⟨start, ⟨begins, idle⟩, .refl⟩
  apply holds_later (fun db => Once company db.stripe) reached leads (untried_once (untried _ begins))
  intro now i env call statement next visited since permitted found shape once
  apply effect_once (execute_effect env statement now.store) once
  rintro req rfl trial
  simpa [lapsed, found, shape, trial] using permitted

end Runs

/- A company with a customer at Stripe that has never subscribed. -/

def unsubscribed : CompanyRow := ⟨1, text "Acme", some (text "cus_1"), none, none, none, none, none, false⟩

def unsubscribedDb : Db where
  companies := ⟨[unsubscribed], 2, by decide, by decide⟩
  users := .empty
  stripe := ⟨[⟨text "cus_1", 1, text "ann@example.com", text "Acme"⟩],
    [(text "pmk_starter", text "price_1"), (text "pmk_team", text "price_2"), (text "pmk_scale", text "price_3")], [], []⟩

/-- The record, the count, the newest subscription, the record again, the price, and then the session. -/
def start (call : Nat) (session : String) : List (Label Request Env) :=
  .invoke (.startCheckout manager (text "starter") 5) :: advance call ["-", "-", "-", "-", "-", session]

def pay (call : Nat) (session subscription : String) : List (Label Request Env) :=
  .invoke (.act (.complete (text session))) :: advance call [subscription]

/-- Two sessions are started before either is paid for. -/
def bothPaid : List (Label Request Env) :=
  start 0 "cs_1" ++ start 1 "cs_2" ++ pay 2 "cs_1" "sub_1" ++ pay 3 "cs_2" "sub_2"

/-- The first is confirmed before the second is started. -/
def confirmedFirst : List (Label Request Env) :=
  start 0 "cs_1" ++ pay 1 "cs_1" "sub_1" ++
    .invoke (.confirmCheckout manager (text "cs_1")) :: advance 2 ["-", "-", "-", "-", "-", "-", "-"] ++
    start 3 "cs_2" ++ pay 4 "cs_2" "sub_2"

theorem unsubscribed_untried : Untried 1 unsubscribedDb.stripe := by
  constructor <;> intro s member <;> cases member

theorem confirmed_one_trial : ∃ config : Running,
    ((billing true (· = unsubscribedDb)).machine.restrict (lapsed 1)).Reachable config ∧
    config.store.stripe.subscriptions.map (·.id) = [text "sub_2", text "sub_1"] ∧
    trials 1 config.store.stripe ≤ 1 := by
  have run : ∃ config, ((billing true (· = unsubscribedDb)).machine.restrict (lapsed 1)).execute ⟨unsubscribedDb, []⟩
      confirmedFirst = some config ∧
      config.store.stripe.subscriptions.map (·.id) = [text "sub_2", text "sub_1"] := ⟨_, rfl, by decide +kernel⟩
  obtain ⟨config, ran, sold⟩ := run
  have start : ((billing true (· = unsubscribedDb)).machine.restrict (lapsed 1)).initial ⟨unsubscribedDb, []⟩ := ⟨rfl, rfl⟩
  have untried : ∀ db, db = unsubscribedDb → Untried 1 db.stripe := by
    rintro db rfl
    exact unsubscribed_untried
  have reached := execute_reachable start ran
  exact ⟨config, reached, sold, one_trial untried reached⟩

theorem unconfirmed_two_trials : Untried 1 unsubscribedDb.stripe ∧ ∃ config : Running,
    (billing true (· = unsubscribedDb)).machine.Reachable config ∧ trials 1 config.store.stripe = 2 := by
  have run : ∃ config, (billing true (· = unsubscribedDb)).machine.execute ⟨unsubscribedDb, []⟩ bothPaid = some config ∧
      trials 1 config.store.stripe = 2 := ⟨_, rfl, by decide +kernel⟩
  obtain ⟨config, ran, sold⟩ := run
  have start : (billing true (· = unsubscribedDb)).machine.initial ⟨unsubscribedDb, []⟩ := ⟨rfl, rfl⟩
  exact ⟨unsubscribed_untried, config, execute_reachable start ran, sold⟩

end FreeTrials
