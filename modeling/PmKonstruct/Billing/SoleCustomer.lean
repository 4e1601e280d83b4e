import PmKonstruct.Billing.CustomerRecord

/- How many customers a company has at Stripe. A call that found none creates one and then records it; what the other calls
   do in between decides whether it stays the only one. -/
namespace SoleCustomer
open PlainText DomainErrors Accounts KeyedTable TransitionRuns StatementProgram Plans BillingPrograms StripeEvolution
open CustomerRecord
open AuthService (SessionUser)
open StripeAccount (Account CheckoutRequest)

def customersOf (account : Account) (company : CompanyId) : List Text :=
  (account.customers.filter (·.company = company)).map (·.id)

def pending (company : CompanyId) (call : Underway) : Option Text :=
  (created call.trace).bind fun made => if made.1 = company then some made.2 else none

/-- The customers of the company that were created and are about to be recorded. -/
def unrecorded (company : CompanyId) (calls : List Underway) : List Text := calls.filterMap (pending company)

/-- A customer is created only while none is recorded or about to be, and both steps come through. -/
def unrivalled (company : CompanyId) (config : Running) : Label Request Env → Bool
  | .invoke _ => true
  | .advance i env =>
    match config.calls[i]? with
    | none => true
    | some call =>
      match call.running with
      | .stmt (.createCustomer c _ _) _ =>
        c ≠ company || (recorded config.store company).isNone && (unrecorded company config.calls).isEmpty &&
          !(env.failure.any (·.carriedOut))
      | .stmt (.setCustomer c _) _ => c ≠ company || env.fault.isNone
      | _ => true

/- The invariant. -/

/-- What an answer said is still so. -/
def Shown (company : CompanyId) (db : Db) : Event Statement Answer → Prop
  | ⟨.record c, .ok (some found)⟩ =>
    c = company → ∀ customer, found.stripeCustomerId = some customer → recorded db company = some customer
  | ⟨.setCustomer c customer, .ok ()⟩ => c = company → recorded db company = some customer
  | ⟨.createCheckoutSession req, .ok hosted⟩ =>
    req.companyId = company → ∃ s ∈ db.stripe.sessions, s.id = hosted.id ∧ s.company = company
  | _ => True

/-- At most one customer, recorded or about to be; every session of the company is for the recorded one. -/
structure Sole (company : CompanyId) (config : Running) : Prop where
  one : (customersOf config.store.stripe company).length ≤ 1
  accounted : customersOf config.store.stripe company =
    (recorded config.store company).toList ++ unrecorded company config.calls
  there : (config.store.companies.find company).isSome = true
  owned : ∀ s ∈ config.store.stripe.sessions, s.company = company → recorded config.store company = some s.customer
  standing : ∀ s ∈ config.store.stripe.sessions, s.company = company → Standing config.store.stripe s
  shown : ∀ call ∈ config.calls, ∀ event ∈ call.trace, Shown company config.store event

section Steps
variable {configured : Bool} {initial : Db → Prop} {company : CompanyId} {config : Running} {env : Env} {i : Nat}
    {call : Underway} {statement : Statement} {next : Answer statement → Program Statement Answer Outcome}

/-- The call after it ran the statement. -/
def ran (env : Env) (call : Underway) (statement : Statement) (next : Answer statement → Program Statement Answer Outcome)
    (db : Db) : Underway :=
  ⟨call.request, call.trace ++ [⟨statement, (execute env statement db).1⟩], next (execute env statement db).1⟩

theorem pending_ran {db : Db} : pending company (ran env call statement next db) =
    (createdBy ⟨statement, (execute env statement db).1⟩).bind fun made =>
      if made.1 = company then some made.2 else none := by
  rw [pending, ran, created_append]

/-- Any other statement leaves the customers, the record and what is about to be recorded as they are. -/
theorem accounted_still (sole : Sole company config) (found : config.calls[i]? = some call)
    (idle : pending company call = none)
    (quiet : pending company (ran env call statement next config.store) = none)
    (apart : ∀ customer, statement ≠ .setCustomer company customer)
    (same : customersOf (execute env statement config.store).2.stripe company = customersOf config.store.stripe company) :
    (customersOf (execute env statement config.store).2.stripe company).length ≤ 1 ∧
    customersOf (execute env statement config.store).2.stripe company =
      (recorded (execute env statement config.store).2 company).toList ++
        unrecorded company (config.calls.set i (ran env call statement next config.store)) := by
  obtain ⟨before, after, old, new⟩ := filterMap_set (pending company) (ran env call statement next config.store) found
  rw [idle, Option.toList_none, List.append_nil] at old
  rw [quiet, Option.toList_none, List.append_nil] at new
  rw [same, recorded_kept apart, unrecorded, new, ← old]
  exact ⟨sole.one, sole.accounted⟩

theorem createdBy_eq {event : Event Statement Answer} {c : CompanyId} {customer : Text}
    (made : createdBy event = some (c, customer)) : ∃ email name, event.statement = .createCustomer c email name := by
  unfold createdBy at made
  split at made
  · next company email name created =>
    cases made
    exact ⟨email, name, rfl⟩
  · cases made

theorem quiet_of_apart {db : Db} (apart : ∀ email name, statement ≠ .createCustomer company email name) :
    pending company (ran env call statement next db) = none := by
  rw [pending_ran]
  cases made : createdBy ⟨statement, (execute env statement db).1⟩ with
  | none => rfl
  | some created =>
    obtain ⟨email, name, same⟩ := createdBy_eq made
    have other : created.1 ≠ company := fun equal => apart email name (by rw [← equal]; exact same)
    exact if_neg other

theorem customers_kept {db : Db} (apart : ∀ email name, statement ≠ .createCustomer company email name) :
    customersOf (execute env statement db).2.stripe company = customersOf db.stripe company := by
  have effect := execute_effect env statement db
  generalize (execute env statement db).2.stripe = after at effect ⊢
  cases effect with
  | untouched => rfl
  | priced plan prices => rfl
  | session req => rfl
  | customer c email name =>
    have other : c ≠ company := fun same => apart email name (by rw [same])
    simp [customersOf, other]
  | acted action =>
    cases action with
    | complete sid =>
      simp only [StripeAccount.act]
      split
      · rfl
      · split <;> rfl
    | expire sid => rfl
    | changeStatus other status => rfl
    | changeSeats other seats => rfl

/-- The first customer is about to be recorded, or was refused. -/
theorem accounted_created (sole : Sole company config) (found : config.calls[i]? = some call) {email name : Text}
    {next : Answer (.createCustomer company email name) → Program Statement Answer Outcome}
    (idle : pending company call = none) (unset : recorded config.store company = none)
    (none_waits : unrecorded company config.calls = []) (answered : env.failure.any (·.carriedOut) = false) :
    (customersOf (execute env (.createCustomer company email name) config.store).2.stripe company).length ≤ 1 ∧
    customersOf (execute env (.createCustomer company email name) config.store).2.stripe company =
      (recorded (execute env (.createCustomer company email name) config.store).2 company).toList ++
        unrecorded company (config.calls.set i (ran env call (.createCustomer company email name) next config.store)) := by
  have without : customersOf config.store.stripe company = [] := by
    rw [sole.accounted, unset, none_waits]
    rfl
  cases failure : env.failure with
  | some f =>
    have unsent : f.carriedOut = false := by simpa [failure] using answered
    refine accounted_still sole found idle ?_ (fun _ same => by cases same) ?_
    · simp [pending_ran, execute, withStripe, StripeAccount.createCustomer, StripeAccount.creating, failure, createdBy]
    · simp [execute, withStripe, StripeAccount.createCustomer, StripeAccount.creating, failure, unsent]
  | none =>
    have after : customersOf (execute env (.createCustomer company email name) config.store).2.stripe company = [env.id] := by
      have joined : customersOf (execute env (.createCustomer company email name) config.store).2.stripe company =
          env.id :: customersOf config.store.stripe company := by
        simp [execute, withStripe, StripeAccount.createCustomer, StripeAccount.creating, failure, customersOf]
      rw [joined, without]
    have waits : pending company (ran env call (.createCustomer company email name) next config.store) = some env.id := by
      simp [pending_ran, execute, withStripe, StripeAccount.createCustomer, StripeAccount.creating, failure, createdBy]
    obtain ⟨before, later, old, new⟩ := filterMap_set (pending company)
      (ran env call (.createCustomer company email name) next config.store) found
    rw [← unrecorded, none_waits, idle, Option.toList_none, List.append_nil] at old
    obtain ⟨rfl, rfl⟩ := List.append_eq_nil_iff.mp old.symm
    rw [after, recorded_kept (fun _ same => by cases same), unset, unrecorded, new, waits]
    exact ⟨Nat.le_refl 1, rfl⟩

/-- While a customer waits to be recorded it is the only one. -/
theorem only_waiting (sole : Sole company config) (found : config.calls[i]? = some call) {customer : Text}
    (waits : pending company call = some customer) (after : Underway) :
    recorded config.store company = none ∧ customersOf config.store.stripe company = [customer] ∧
    unrecorded company (config.calls.set i after) = (pending company after).toList := by
  obtain ⟨before, later, old, new⟩ := filterMap_set (pending company) after found
  have one := sole.one
  have accounted := sole.accounted
  rw [unrecorded, old, waits] at accounted
  rw [accounted] at one
  simp only [Option.toList_some, List.length_append, List.length_singleton] at one
  have unset : recorded config.store company = none := by
    cases held : recorded config.store company with
    | none => rfl
    | some other =>
      rw [held, Option.toList_some, List.length_singleton] at one
      omega
  obtain ⟨rfl, rfl⟩ : before = [] ∧ later = [] :=
    ⟨List.length_eq_zero_iff.mp (by omega), List.length_eq_zero_iff.mp (by omega)⟩
  rw [unset] at accounted
  rw [unrecorded, new]
  exact ⟨unset, accounted, by simp⟩

/-- Then it is recorded. -/
theorem accounted_set (sole : Sole company config) (found : config.calls[i]? = some call) {customer : Text}
    {next : Answer (.setCustomer company customer) → Program Statement Answer Outcome}
    (waits : pending company call = some customer) (calm : env.fault = none) :
    (customersOf (execute env (.setCustomer company customer) config.store).2.stripe company).length ≤ 1 ∧
    customersOf (execute env (.setCustomer company customer) config.store).2.stripe company =
      (recorded (execute env (.setCustomer company customer) config.store).2 company).toList ++
        unrecorded company (config.calls.set i (ran env call (.setCustomer company customer) next config.store)) := by
  obtain ⟨-, only, waiting⟩ := only_waiting sole found waits (ran env call (.setCustomer company customer) next config.store)
  have quiet : pending company (ran env call (.setCustomer company customer) next config.store) = none :=
    quiet_of_apart fun email name same => by cases same
  rw [customers_kept (fun email name same => by cases same), only, recorded_set sole.there calm, waiting, quiet]
  exact ⟨Nat.le_refl 1, rfl⟩

theorem pending_set {customer : Text} (here : At call.trace (.setCustomer company customer)) :
    pending company call = some customer := by
  have made : created call.trace = some (company, customer) := here
  simp [pending, made]

theorem pending_none (here : At call.trace statement) (apart : ∀ customer, statement ≠ .setCustomer company customer) :
    pending company call = none := by
  have idle (nothing : created call.trace = none) : pending company call = none := by rw [pending, nothing, Option.bind_none]
  cases statement with
  | setCustomer c customer =>
    have made : created call.trace = some (c, customer) := here
    have other : c ≠ company := fun same => apart customer (by rw [same])
    simp [pending, made, other]
  | createCheckoutSession req => exact idle here.1
  | _ => exact idle here

theorem accounted_later (sole : Sole company config) (found : config.calls[i]? = some call)
    (shape : call.running = .stmt statement next) (here : At call.trace statement)
    (permitted : unrivalled company config (.advance i env) = true) :
    (customersOf (execute env statement config.store).2.stripe company).length ≤ 1 ∧
    customersOf (execute env statement config.store).2.stripe company =
      (recorded (execute env statement config.store).2 company).toList ++
        unrecorded company (config.calls.set i (ran env call statement next config.store)) := by
  by_cases sets : ∃ customer, statement = .setCustomer company customer
  · obtain ⟨customer, rfl⟩ := sets
    have calm : env.fault = none := by simpa [unrivalled, found, shape] using permitted
    exact accounted_set sole found (pending_set here) calm
  · have unset : ∀ customer, statement ≠ .setCustomer company customer := fun customer same => sets ⟨customer, same⟩
    by_cases creates : ∃ email name, statement = .createCustomer company email name
    · obtain ⟨email, name, rfl⟩ := creates
      simp only [unrivalled, found, shape, ne_eq, not_true_eq_false, decide_false, Bool.false_or, Bool.and_eq_true,
        Option.isNone_iff_eq_none, List.isEmpty_iff, Bool.not_eq_true'] at permitted
      exact accounted_created sole found (pending_none here unset) permitted.1.1 permitted.1.2 permitted.2
    · have apart : ∀ email name, statement ≠ .createCustomer company email name :=
        fun email name same => creates ⟨email, name, same⟩
      exact accounted_still sole found (pending_none here unset) (quiet_of_apart apart) unset (customers_kept apart)

/-- The recorded customer stays. -/
theorem recorded_stays (sole : Sole company config) (found : config.calls[i]? = some call)
    (here : At call.trace statement) {customer : Text} (held : recorded config.store company = some customer) :
    recorded (execute env statement config.store).2 company = some customer := by
  refine (recorded_kept ?_).trans held
  rintro other rfl
  have unset := (only_waiting sole found (pending_set here) call).1
  rw [unset] at held
  cases held

theorem knows_recorded (sole : Sole company config) (member : call ∈ config.calls) {customer : Text}
    (knows : Knows call.trace company customer) : recorded config.store company = some customer := by
  rcases knows with ⟨held, past, known⟩ | past
  · exact sole.shown call member _ past rfl customer known
  · exact sole.shown call member _ past rfl

theorem shown_stays (sole : Sole company config) (found : config.calls[i]? = some call) (here : At call.trace statement)
    {event : Event Statement Answer} (shown : Shown company config.store event) :
    Shown company (execute env statement config.store).2 event := by
  unfold Shown at shown ⊢
  split
  · exact fun same customer known => recorded_stays sole found here (shown same customer known)
  · exact fun same => recorded_stays sole found here (shown same)
  · intro same
    obtain ⟨s, member, named, owner⟩ := shown same
    obtain ⟨opened, sold, f, g, evolves⟩ := effect_evolves (execute_effect env statement config.store)
    refine ⟨f s, ?_, (evolves.kept s).1.trans named, (evolves.kept s).2.1.trans owner⟩
    rw [evolves.sessions]
    exact List.mem_append_right _ (List.mem_map_of_mem member)
  · trivial

theorem shown_now {db : Db} (there : (db.companies.find company).isSome = true) :
    Shown company (execute env statement db).2 ⟨statement, (execute env statement db).1⟩ := by
  cases statement with
  | record c =>
    cases fault : env.fault with
    | some e => simp [execute, queried, fault, Shown]
    | none =>
      simp only [execute, queried, fault]
      cases found : db.companies.find c with
      | none => trivial
      | some row =>
        rintro rfl customer known
        simp only [recorded, found, Option.bind_some]
        exact known
  | setCustomer c customer =>
    cases fault : env.fault with
    | some e => simp [execute, queried, fault, Shown]
    | none =>
      have answer : (execute env (.setCustomer c customer) db).1 = .ok () := by simp [execute, queried, fault]
      rw [answer]
      rintro rfl
      exact recorded_set there fault
  | createCheckoutSession req =>
    cases failure : env.failure with
    | some f => simp [execute, withStripe, StripeAccount.createCheckoutSession, StripeAccount.creating, failure, Shown]
    | none =>
      simp only [execute, withStripe, StripeAccount.createCheckoutSession, StripeAccount.creating, failure]
      exact fun owner => ⟨_, .head _, rfl, owner⟩
  | _ => trivial

theorem sole_advance (sole : Sole company config) (found : config.calls[i]? = some call)
    (shape : call.running = .stmt statement next) (here : At call.trace statement)
    (drawn : StripeAccount.unused config.store.stripe env.id = true)
    (permitted : unrivalled company config (.advance i env) = true) :
    Sole company ⟨(execute env statement config.store).2, config.calls.set i (ran env call statement next config.store)⟩ := by
  obtain ⟨one, accounted⟩ := accounted_later sole found shape here permitted
  obtain ⟨opened, sold, f, g, evolves⟩ := effect_evolves (execute_effect env statement config.store)
  have among : ∀ s ∈ (execute env statement config.store).2.stripe.sessions,
      s ∈ opened ∨ ∃ old ∈ config.store.stripe.sessions, s = f old := by
    intro s member
    rw [evolves.sessions] at member
    rcases List.mem_append.mp member with new | old
    · exact .inl new
    · obtain ⟨t, before, rfl⟩ := List.mem_map.mp old
      exact .inr ⟨t, before, rfl⟩
  constructor
  · exact one
  · exact accounted
  · exact there_later.trans sole.there
  · intro s member owner
    rcases among s member with new | ⟨old, before, rfl⟩
    · obtain ⟨req, rfl, rfl⟩ := evolves.asked s new
      have knows : Knows call.trace req.companyId req.customerId := here.2
      rw [show req.companyId = company from owner] at knows
      exact recorded_stays sole found here (knows_recorded sole (List.mem_of_getElem? found) knows)
    · rw [(evolves.kept old).2.2]
      exact recorded_stays sole found here (sole.owned old before ((evolves.kept old).2.1.symm.trans owner))
  · intro s member owner
    rcases among s member with new | ⟨old, before, rfl⟩
    · exact standing_opened evolves drawn new
    · exact standing_later evolves drawn (sole.standing old before ((evolves.kept old).2.1.symm.trans owner))
  · intro other member event past
    rcases List.mem_or_eq_of_mem_set member with before | rfl
    · exact shown_stays sole found here (sole.shown other before event past)
    · rcases List.mem_append.mp past with before | now
      · exact shown_stays sole found here (sole.shown call (List.mem_of_getElem? found) event before)
      · rw [List.mem_singleton.mp now]
        exact shown_now sole.there

theorem sole_invoke (sole : Sole company config) (request : Request) :
    Sole company ⟨config.store, config.calls ++ [⟨request, [], programOf configured request⟩]⟩ := by
  have waiting : unrecorded company (config.calls ++ [⟨request, [], programOf configured request⟩]) =
      unrecorded company config.calls := by
    rw [unrecorded, List.filterMap_append]
    exact List.append_nil _
  refine ⟨sole.one, ?_, sole.there, sole.owned, sole.standing, ?_⟩
  · rw [waiting]
    exact sole.accounted
  · intro call member event past
    rcases List.mem_append.mp member with before | new
    · exact sole.shown call before event past
    · cases List.mem_singleton.mp new
      cases past

end Steps

/- Over every run of a company that has no customer yet. -/

structure Unknown (company : CompanyId) (db : Db) : Prop where
  there : (db.companies.find company).isSome = true
  unset : recorded db company = none
  customers : ∀ c ∈ db.stripe.customers, c.company ≠ company
  sessions : ∀ s ∈ db.stripe.sessions, s.company ≠ company

section Runs
variable {configured : Bool} {initial : Db → Prop} {company : CompanyId} {config : Running}

theorem unknown_sole {db : Db} (unknown : Unknown company db) : Sole company ⟨db, []⟩ := by
  have without : customersOf db.stripe company = [] := by
    simp only [customersOf, List.map_eq_nil_iff, List.filter_eq_nil_iff, decide_eq_true_eq]
    exact unknown.customers
  constructor
  · simp only [without, List.length_nil]
    omega
  · simp only [without, unknown.unset]
    rfl
  · exact unknown.there
  · exact fun s member owner => absurd owner (unknown.sessions s member)
  · exact fun s member owner => absurd owner (unknown.sessions s member)
  · exact fun call member => by cases member

theorem reachable_sole (unknown : ∀ db, initial db → Unknown company db)
    (reached : ((billing configured initial).machine.restrict (unrivalled company)).Reachable config) :
    Sole company config := by
  apply Reachable.induction (Sole company) reached
  · rintro ⟨db, calls⟩ ⟨begins, rfl⟩
    exact unknown_sole (unknown db begins)
  · intro before after label visited sole permitted step
    obtain ⟨allowed, permits⟩ := restrict_allowed.mp permitted
    rcases step_cases allowed step with ⟨request, rfl⟩ | ⟨i, env, call, statement, next, rfl, found, shape, drawn, rfl⟩
    · exact sole_invoke sole request
    · have obeys := calls_obey (fun _ => At) (Ends configured) (programs_obey configured) (restrict_reachable visited)
        call (List.mem_of_getElem? found)
      rw [shape] at obeys
      exact sole_advance sole found shape obeys.1 drawn permits

/-- The session is for the recorded customer, so that it can be confirmed once it is complete. -/
def Confirmable (configured : Bool) (company : CompanyId) (db : Db) (sessionId : Text) : Prop :=
  ∃ session, StripeAccount.session db.stripe sessionId = some session ∧ recorded db company = some session.customer ∧
    (session.status = text "complete" → ∀ (manager : SessionUser) envs, manager.principal.companyId = company → Calm envs →
      ∃ current, (SecondCheckout.runAlone envs 0 (confirmCheckout configured manager sessionId) db).1 = .ok current)

theorem one_customer (unknown : ∀ db, initial db → Unknown company db)
    (reached : ((billing configured initial).machine.restrict (unrivalled company)).Reachable config) :
    (customersOf config.store.stripe company).length ≤ 1 ∧
    ∀ call ∈ config.calls, ∀ (s : SessionUser) planKey seats outcome, call.request = .startCheckout s planKey seats →
      s.principal.companyId = company → call.running = .done (.ok (.checkout outcome)) →
      Confirmable configured company config.store outcome.sessionId := by
  have sole := reachable_sole unknown reached
  refine ⟨sole.one, ?_⟩
  intro call member s planKey seats outcome asked owner done
  have obeys := calls_obey (fun _ => At) (Ends configured) (programs_obey configured) (restrict_reachable reached) call member
  rw [asked, done] at obeys
  obtain ⟨keyed, req, hosted, past, named, answered⟩ : Hosted configured s.principal.companyId call.trace (.ok outcome) :=
    obeys
  obtain ⟨session, there, id, company⟩ := sole.shown call member _ past (named.trans owner)
  have standing := sole.standing session there company
  have owned := sole.owned session there company
  rw [← answered, ← id, keyed]
  refine ⟨session, standing.found, owned, ?_⟩
  rintro complete manager envs rfl calm
  exact confirm_answers calm standing complete sole.there owned

end Runs

/- A company without a customer, and two managers who start a checkout. -/

def unbilled : CompanyRow := ⟨1, text "Acme", none, none, none, none, none, none, false⟩

def unbilledDb : Db where
  companies := ⟨[unbilled], 2, by decide, by decide⟩
  users := .empty
  stripe := ⟨[], [(text "pmk_starter", text "price_1")], [], []⟩

def begin : Label Request Env := .invoke (.startCheckout manager (text "starter") 5)

def complete (call : Nat) (session subscription : String) : List (Label Request Env) :=
  .invoke (.act (.complete (text session))) :: advance call [subscription]

def confirm (call : Nat) (session : String) : List (Label Request Env) :=
  .invoke (.confirmCheckout manager (text session)) :: advance call ["-", "-", "-"]

/-- Both read a record without a customer; the first records its own last. -/
def overlapping : List (Label Request Env) :=
  [begin, begin] ++ advance 0 ["-", "-", "-", "-", "cus_1"] ++ advance 1 ["-", "-", "-", "-", "cus_2", "-", "cs_2"] ++
    advance 0 ["-", "cs_1"] ++ complete 2 "cs_2" "sub_2" ++ confirm 3 "cs_2"

def inTurn : List (Label Request Env) :=
  [begin] ++ advance 0 ["-", "-", "-", "-", "cus_1", "-", "cs_1"] ++ [begin] ++
    advance 1 ["-", "-", "-", "-", "-", "cs_2"] ++ complete 2 "cs_2" "sub_2"

def hostedSession (call : Underway) : Option Text :=
  match call.running with
  | .done (.ok (.checkout outcome)) => some outcome.sessionId
  | _ => none

def refusal (call : Underway) : Option AppError :=
  match call.running with
  | .done (.error e) => some e
  | _ => none

theorem unbilled_unknown : ∀ db, db = unbilledDb → Unknown 1 db := by
  rintro db rfl
  refine ⟨rfl, rfl, ?_, ?_⟩
  · intro c member
    cases member
  · intro s member
    cases member

theorem inTurn_one_customer : ∃ config : Running,
    ((billing true (· = unbilledDb)).machine.restrict (unrivalled 1)).Reachable config ∧
    config.calls.map hostedSession = [some (text "cs_1"), some (text "cs_2"), none] ∧
    (customersOf config.store.stripe 1).length ≤ 1 ∧
    ∀ call ∈ config.calls, ∀ (s : SessionUser) planKey seats outcome, call.request = .startCheckout s planKey seats →
      s.principal.companyId = 1 → call.running = .done (.ok (.checkout outcome)) →
      Confirmable true 1 config.store outcome.sessionId := by
  have run : ∃ config, ((billing true (· = unbilledDb)).machine.restrict (unrivalled 1)).execute ⟨unbilledDb, []⟩ inTurn =
      some config ∧ config.calls.map hostedSession = [some (text "cs_1"), some (text "cs_2"), none] :=
    ⟨_, rfl, by decide +kernel⟩
  obtain ⟨config, ran, sessions⟩ := run
  have start : ((billing true (· = unbilledDb)).machine.restrict (unrivalled 1)).initial ⟨unbilledDb, []⟩ := ⟨rfl, rfl⟩
  have reached := execute_reachable start ran
  exact ⟨config, reached, sessions, one_customer unbilled_unknown reached⟩

theorem overlapping_two_customers : (∀ db, db = unbilledDb → Unknown 1 db) ∧ ∃ config : Running,
    (billing true (· = unbilledDb)).machine.Reachable config ∧
    customersOf config.store.stripe 1 = [text "cus_2", text "cus_1"] ∧
    config.calls.map hostedSession = [some (text "cs_1"), some (text "cs_2"), none, none] ∧
    config.calls.map refusal =
      [none, none, none, some (.domain (.forbidden "That checkout belongs to another account"))] := by
  have run : ∃ config, (billing true (· = unbilledDb)).machine.execute ⟨unbilledDb, []⟩ overlapping = some config ∧
      customersOf config.store.stripe 1 = [text "cus_2", text "cus_1"] ∧
      config.calls.map hostedSession = [some (text "cs_1"), some (text "cs_2"), none, none] ∧
      config.calls.map refusal =
        [none, none, none, some (.domain (.forbidden "That checkout belongs to another account"))] :=
    ⟨_, rfl, by decide +kernel, by decide +kernel, by decide +kernel⟩
  obtain ⟨config, ran, outcome⟩ := run
  have start : (billing true (· = unbilledDb)).machine.initial ⟨unbilledDb, []⟩ := ⟨rfl, rfl⟩
  exact ⟨unbilled_unknown, config, execute_reachable start ran, outcome⟩

end SoleCustomer
