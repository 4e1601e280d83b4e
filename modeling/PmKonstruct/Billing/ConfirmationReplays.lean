import PmKonstruct.Billing.BillingPrograms

/- What confirming a checkout again does to what is recorded. A confirmation writes what Stripe shows for the subscription of
   its own session, and nothing compares that with what was confirmed since. -/
namespace ConfirmationReplays
open PlainText DomainErrors Accounts KeyedTable TransitionRuns StatementProgram Plans BillingPrograms
open AuthService (SessionUser)
open StripeAccount (Subscription CheckoutResult)

structure Billed where
  subscription : Option Text
  planKey : Option Text
  seats : Option Int
  deriving DecidableEq, Repr

def billed (db : Db) (company : CompanyId) : Option Billed :=
  (db.companies.find company).map fun row => ⟨row.stripeSubscriptionId, row.billingPlanKey, row.billingSeatQuantity⟩

def shownBy (sub : Subscription) : Billed :=
  ⟨some sub.id, some (planForSeats sub.quantity).key, some (seatsColumn sub.quantity)⟩

def written (company : CompanyId) : Event Statement Answer → Option Billed
  | ⟨.setSubscription c subscription planKey _ seats, .ok ()⟩ =>
    if c = company then some ⟨some subscription, some planKey, some (seatsColumn seats)⟩ else none
  | _ => none

def writes (company : CompanyId) (trace : List (Event Statement Answer)) : List Billed := trace.filterMap (written company)

/-- Stripe showed the call this subscription for the session, complete and of the recorded customer. -/
structure Checked (company : CompanyId) (sessionId : Text) (sub : Subscription) (trace : List (Event Statement Answer)) :
    Prop where
  session : ∃ (result : CheckoutResult) (id : Text), ⟨.retrieveCheckoutSession sessionId, .ok result⟩ ∈ trace ∧
    result.status = text "complete" ∧ result.subscriptionId = some id ∧ ⟨.retrieveSubscription id, .ok (some sub)⟩ ∈ trace
  owned : ∃ found : BillingRecord, ⟨.record company, .ok (some found)⟩ ∈ trace ∧ found.stripeCustomerId = some sub.customerId

/-- The checks have passed and the write has been answered. -/
structure Accepted (company : CompanyId) (sessionId : Text) (sub : Subscription) (trace : List (Event Statement Answer)) :
    Prop where
  checked : Checked company sessionId sub trace
  written : shownBy sub ∈ writes company trace

/-- No other call sets a subscription of the company meanwhile. -/
def undisturbed (company : CompanyId) (i : Nat) (config : Running) : Label Request Env → Bool
  | .invoke _ => true
  | .advance j _ =>
    match config.calls[j]? with
    | none => true
    | some call =>
      match call.running with
      | .stmt (.setSubscription c _ _ _ _) _ => c ≠ company || j = i
      | _ => true

/- What the programs go by. -/

/-- A confirmation writes once, and what it was shown; no other call writes. -/
def At : Request → List (Event Statement Answer) → Statement → Prop
  | .confirmCheckout s sessionId, past, .setSubscription company subscription planKey _ seats =>
    company = s.principal.companyId ∧ writes company past = [] ∧ ∃ sub : Subscription, Checked company sessionId sub past ∧
      subscription = sub.id ∧ planKey = (planForSeats sub.quantity).key ∧ seats = sub.quantity
  | _, _, .setSubscription _ _ _ _ _ => False
  | _, _, _ => True

section Programs
variable {configured : Bool} {s : SessionUser}

theorem at_readable (request : Request) : Readable (At request) fun _ => True := by
  intro past statement reads ready
  refine ⟨?_, fun answer => trivial⟩
  cases request <;> cases statement <;> trivial

theorem customerOf_obeys {planKey : Text} {seats : Int} {found : BillingRecord} {next : Text → Action CheckoutOutcome}
    {past : List (Event Statement Answer)}
    (later : ∀ past customer, (next customer).Obeys (At (.startCheckout s planKey seats)) (fun _ _ => True) past) :
    (customerOf s found next).Obeys (At (.startCheckout s planKey seats)) (fun _ _ => True) past := by
  unfold customerOf
  split
  · exact later past _
  · refine call_obeys trivial (fun _ _ => trivial) fun customer => call_obeys trivial (fun _ _ => trivial) fun _ => ?_
    exact later _ _

theorem startCheckout_obeys {planKey : Text} {seats : Int} :
    (startCheckout configured s planKey seats).Obeys (At (.startCheckout s planKey seats)) (fun _ _ => True) [] := by
  have failed : ∀ (past : List (Event Statement Answer)) (e : AppError), True := fun _ _ => trivial
  unfold startCheckout gateway
  split
  · refine status_obeys (at_readable _) trivial failed fun past current _ => ?_
    unfold offering
    split
    · trivial
    · split
      · trivial
      · refine record_obeys trivial failed fun found => call_obeys trivial failed fun price => ?_
        exact customerOf_obeys fun past customer => call_obeys trivial failed fun hosted => trivial
  · trivial

theorem confirmCheckout_obeys {sessionId : Text} :
    (confirmCheckout configured s sessionId).Obeys (At (.confirmCheckout s sessionId)) (fun _ _ => True) [] := by
  have failed : ∀ (past : List (Event Statement Answer)) (e : AppError), True := fun _ _ => trivial
  unfold confirmCheckout
  split
  · trivial
  · unfold gateway
    split
    · refine call_obeys trivial failed fun result => ?_
      split
      · trivial
      · next complete =>
        split
        · trivial
        · next id sold =>
          refine call_obeys trivial failed ?_
          rintro (_ | sub)
          · trivial
          · refine record_obeys trivial failed fun found => ?_
            split
            · trivial
            · next owner =>
              refine call_obeys ⟨rfl, rfl, sub, ⟨?_, ?_⟩, rfl, rfl, rfl⟩ failed fun _ => ?_
              · exact ⟨result, id, by simp, not_not.mp complete, sold, by simp⟩
              · exact ⟨found, by simp, not_not.mp owner⟩
              · exact status_obeys (at_readable _) trivial failed fun _ _ _ => trivial
    · trivial

theorem programs_obey (request : Request) :
    (programOf configured request).Obeys (At request) (fun _ _ => True) [] := by
  cases request with
  | startCheckout s planKey seats => exact obeys_mapResult.mpr startCheckout_obeys
  | confirmCheckout s sessionId => exact obeys_mapResult.mpr confirmCheckout_obeys
  | act action => exact ⟨trivial, fun _ => trivial⟩

end Programs

/- What is recorded. -/

section Records
variable {env : Env} {db : Db} {company : CompanyId} {statement : Statement}

/-- Only a subscription that is set for the company changes what is billed. -/
theorem billed_kept (apart : ∀ sub key price seats, statement ≠ .setSubscription company sub key price seats) :
    billed (execute env statement db).2 company = billed db company := by
  rw [billed, billed, execute_company]
  cases found : db.companies.find company with
  | none => rfl
  | some row =>
    have named : row.id = company := (Table.find_eq_some_iff.mp found).2
    simp only [Option.map_some, rewritten]
    split
    · split <;> rfl
    · next c sub key price seats _ =>
      have other : row.id ≠ c := fun same => apart sub key price seats (by rw [← same, named])
      rw [if_neg other]
    · rfl

theorem billed_set {sub key price : Text} {seats : Int} (there : (db.companies.find company).isSome = true) :
    billed (execute env (.setSubscription company sub key price seats) db).2 company =
      ((written company ⟨.setSubscription company sub key price seats,
        (execute env (.setSubscription company sub key price seats) db).1⟩).or (billed db company)) := by
  obtain ⟨row, found⟩ := Option.isSome_iff_exists.mp there
  have named : row.id = company := (Table.find_eq_some_iff.mp found).2
  rw [billed, execute_company, found]
  cases fault : env.fault with
  | some e => simp [billed, found, rewritten, fault, execute, queried, written]
  | none => simp [rewritten, fault, execute, queried, written, named]

/-- What has been read of the company is there. -/
theorem record_there {answer : BillingRecord} (read : (execute env (.record company) db).1 = .ok (some answer)) :
    (db.companies.find company).isSome = true := by
  cases fault : env.fault with
  | some e => simp [execute, queried, fault] at read
  | none =>
    cases found : db.companies.find company with
    | none => simp [execute, queried, fault, found] at read
    | some row => rfl

/-- The company was there when it was read. -/
def There (db : Db) : Event Statement Answer → Prop
  | ⟨.record company, .ok (some _)⟩ => (db.companies.find company).isSome = true
  | _ => True

theorem there_stays {event : Event Statement Answer} (there : There db event) :
    There (execute env statement db).2 event := by
  unfold There at there ⊢
  split
  · rw [execute_company, Option.isSome_map]
    exact there
  · trivial

theorem there_read : There (execute env statement db).2 ⟨statement, (execute env statement db).1⟩ := by
  cases statement with
  | record company =>
    apply there_stays
    cases read : (execute env (.record company) db).1 with
    | error e => trivial
    | ok answer =>
      cases answer with
      | none => trivial
      | some found => exact record_there read
  | _ => trivial

end Records

/- Over every run. -/

section Runs
variable {configured : Bool} {initial : Db → Prop} {config later : Running} {i : Nat} {s : SessionUser} {sessionId : Text}
    {company : CompanyId}

theorem writes_append (past : List (Event Statement Answer)) (event : Event Statement Answer) :
    writes company (past ++ [event]) = writes company past ++ (written company event).toList := by
  rw [writes, List.filterMap_append]
  cases wrote : written company event <;> simp [wrote, writes]

theorem written_none {event : Event Statement Answer}
    (apart : ∀ sub key price seats, event.statement ≠ .setSubscription company sub key price seats) :
    written company event = none := by
  unfold written
  split
  · next c sub key price seats =>
    exact if_neg fun same => apart sub key price seats (by rw [same])
  · rfl

theorem written_shown {sub : Subscription} {price : Text} {answer : Except PortError Unit} {wrote : Billed}
    (written : written company ⟨.setSubscription company sub.id (planForSeats sub.quantity).key price sub.quantity, answer⟩ =
      some wrote) : wrote = shownBy sub := by
  cases answer with
  | error e => cases written
  | ok answer =>
    simp only [ConfirmationReplays.written, if_true, Option.some.injEq] at written
    exact written.symm

theorem checked_append {sub : Subscription} {past : List (Event Statement Answer)} (event : Event Statement Answer)
    (checked : Checked company sessionId sub past) : Checked company sessionId sub (past ++ [event]) := by
  obtain ⟨⟨result, id, read, complete, sold, retrieved⟩, found, recorded, owner⟩ := checked
  exact ⟨⟨result, id, List.mem_append_left _ read, complete, sold, List.mem_append_left _ retrieved⟩, found,
    List.mem_append_left _ recorded, owner⟩

/-- A confirmation under way: what is billed is what it wrote, or what was billed when it came. -/
structure Confirming (before : Option Billed) (s : SessionUser) (sessionId : Text) (db : Db) (call : Underway) : Prop where
  request : call.request = .confirmCheckout s sessionId
  once : (writes s.principal.companyId call.trace).length ≤ 1
  billed : billed db s.principal.companyId = (writes s.principal.companyId call.trace).head?.or before
  checked : ∀ wrote ∈ writes s.principal.companyId call.trace, ∃ sub, Checked s.principal.companyId sessionId sub call.trace ∧
    wrote = shownBy sub

theorem confirming_advance {before : Option Billed} {db : Db} {call : Underway} {env : Env} {statement : Statement}
    {program : Program Statement Answer Outcome} (confirming : Confirming before s sessionId db call)
    (here : At call.request call.trace statement) (there : ∀ event ∈ call.trace, There db event) :
    Confirming before s sessionId (execute env statement db).2
      ⟨call.request, call.trace ++ [⟨statement, (execute env statement db).1⟩], program⟩ := by
  have still (apart : ∀ sub key price seats, statement ≠ .setSubscription s.principal.companyId sub key price seats) :
      Confirming before s sessionId (execute env statement db).2
        ⟨call.request, call.trace ++ [⟨statement, (execute env statement db).1⟩], program⟩ := by
    have same : writes s.principal.companyId (call.trace ++ [⟨statement, (execute env statement db).1⟩]) =
        writes s.principal.companyId call.trace := by
      rw [writes_append, written_none apart, Option.toList_none, List.append_nil]
    refine ⟨confirming.request, ?_, ?_, ?_⟩
    · simpa only [same] using confirming.once
    · simpa only [same, billed_kept apart] using confirming.billed
    · simp only [same]
      intro wrote member
      obtain ⟨sub, checked, shown⟩ := confirming.checked wrote member
      exact ⟨sub, checked_append _ checked, shown⟩
  cases statement with
  | setSubscription company subscription planKey priceId seats =>
    rw [confirming.request] at here
    obtain ⟨rfl, unwritten, sub, checked, rfl, rfl, rfl⟩ := here
    obtain ⟨found, read, -⟩ := checked.owned
    have wrote (event : Event Statement Answer) : writes s.principal.companyId (call.trace ++ [event]) =
        (written s.principal.companyId event).toList := by
      rw [writes_append, unwritten, List.nil_append]
    have before_it := confirming.billed
    rw [unwritten, List.head?_nil, Option.none_or] at before_it
    refine ⟨confirming.request, ?_, ?_, ?_⟩
    · simp only [wrote]
      exact Option.length_toList_le
    · simp only [wrote]
      rw [billed_set (there _ read), before_it]
      cases written s.principal.companyId _ <;> rfl
    · simp only [wrote]
      intro value member
      exact ⟨sub, checked_append _ checked, written_shown (Option.mem_toList.mp member)⟩
  | _ => exact still fun _ _ _ _ same => by cases same

theorem reached_there (reached : (billing configured initial).machine.Reachable config) :
    ∀ call ∈ config.calls, ∀ event ∈ call.trace, There config.store event :=
  events_recorded There (fun _ _ _ _ => there_read) (fun _ _ _ _ _ there => there_stays there) reached

theorem confirming_later (reached : (billing configured initial).machine.Reachable config) {program}
    (replayed : config.calls[i]? = some ⟨.confirmCheckout s sessionId, [], program⟩)
    (leads : ((billing configured initial).machine.restrict (undisturbed s.principal.companyId i)).Leads config later) :
    ∃ call, later.calls[i]? = some call ∧
      Confirming (billed config.store s.principal.companyId) s sessionId later.store call := by
  have both : (billing configured initial).machine.Reachable later ∧ ∃ call, later.calls[i]? = some call ∧
      Confirming (billed config.store s.principal.companyId) s sessionId later.store call := by
    apply Leads.invariant (fun later => (billing configured initial).machine.Reachable later ∧ ∃ call,
      later.calls[i]? = some call ∧ Confirming (billed config.store s.principal.companyId) s sessionId later.store call) leads
    · exact ⟨reached, _, replayed, rfl, Nat.zero_le 1, by simp [writes], by simp [writes]⟩
    · rintro now after label ⟨visited, call, found, confirming⟩ permitted step
      obtain ⟨allowed, permits⟩ := restrict_allowed.mp permitted
      refine ⟨Reachable.step visited allowed step, ?_⟩
      rcases step_cases allowed step with ⟨request, rfl⟩ | ⟨j, env, other, statement, next, rfl, index, shape, -, rfl⟩
      · exact ⟨call, (List.getElem?_append_left (List.getElem?_eq_some_iff.mp found).1).trans found, confirming⟩
      · have obeys := calls_obey At (fun _ _ _ => True) programs_obey visited other (List.mem_of_getElem? index)
        rw [shape] at obeys
        by_cases same : j = i
        · subst same
          rw [found, Option.some.injEq] at index
          subst index
          have within : j < now.calls.length := (List.getElem?_eq_some_iff.mp found).1
          exact ⟨_, List.getElem?_set_self within,
            confirming_advance confirming obeys.1 (reached_there visited call (List.mem_of_getElem? found))⟩
        · refine ⟨call, (List.getElem?_set_ne same).trans found, confirming.request, confirming.once, ?_, confirming.checked⟩
          rw [← confirming.billed]
          apply billed_kept
          rintro sub key price seats rfl
          simp [undisturbed, index, shape, same] at permits
  exact both.2

/-- A replay that goes through sets what Stripe shows for its own session; any other leaves what was billed before. -/
theorem replay_sets (reached : (billing configured initial).machine.Reachable config) {program}
    (replayed : config.calls[i]? = some ⟨.confirmCheckout s sessionId, [], program⟩)
    (leads : ((billing configured initial).machine.restrict (undisturbed s.principal.companyId i)).Leads config later) :
    ∃ call, later.calls[i]? = some call ∧
      (∀ sub, Accepted s.principal.companyId sessionId sub call.trace →
        billed later.store s.principal.companyId = some (shownBy sub)) ∧
      ((∀ sub, ¬ Accepted s.principal.companyId sessionId sub call.trace) →
        billed later.store s.principal.companyId = billed config.store s.principal.companyId) ∧
      (billed later.store s.principal.companyId = billed config.store s.principal.companyId ↔
        ∀ sub, Accepted s.principal.companyId sessionId sub call.trace →
          billed config.store s.principal.companyId = some (shownBy sub)) := by
  obtain ⟨call, found, confirming⟩ := confirming_later reached replayed leads
  have sets : ∀ sub, Accepted s.principal.companyId sessionId sub call.trace →
      billed later.store s.principal.companyId = some (shownBy sub) := by
    intro sub accepted
    obtain ⟨wrote, only⟩ : ∃ wrote, writes s.principal.companyId call.trace = [wrote] := by
      apply List.length_eq_one_iff.mp
      have some_wrote := List.length_pos_of_mem accepted.written
      have once := confirming.once
      omega
    have member := accepted.written
    rw [only, List.mem_singleton] at member
    rw [confirming.billed, only, member]
    rfl
  have leaves : (∀ sub, ¬ Accepted s.principal.companyId sessionId sub call.trace) →
      billed later.store s.principal.companyId = billed config.store s.principal.companyId := by
    intro refused
    rw [confirming.billed]
    cases wrote : writes s.principal.companyId call.trace with
    | nil => rfl
    | cons value rest =>
      have member : value ∈ writes s.principal.companyId call.trace := by
        rw [wrote]
        exact List.mem_cons_self
      obtain ⟨sub, checked, rfl⟩ := confirming.checked value member
      exact absurd ⟨checked, member⟩ (refused sub)
  refine ⟨call, found, sets, leaves, ?_⟩
  constructor
  · intro same sub accepted
    rw [← same]
    exact sets sub accepted
  · intro shown
    by_cases accepted : ∃ sub, Accepted s.principal.companyId sessionId sub call.trace
    · obtain ⟨sub, accepted⟩ := accepted
      rw [sets sub accepted, shown sub accepted]
    · exact leaves fun sub here => accepted ⟨sub, here⟩

end Runs

/- A company that paid for one checkout, cancelled, and paid for another. -/

def customer : CompanyRow := ⟨1, text "Acme", some (text "cus_1"), none, none, none, none, none, false⟩

def opened (id : String) (seats : Int) : StripeAccount.CheckoutSession :=
  ⟨text id, text "cus_1", text "price_1", seats, none, 1, text "open", none⟩

def openedDb : Db where
  companies := ⟨[customer], 2, by decide, by decide⟩
  users := .empty
  stripe := ⟨[⟨text "cus_1", 1, text "ann@example.com", text "Acme"⟩], [], [opened "cs_1" 5, opened "cs_2" 8], []⟩

def act (call : Nat) (action : StripeAccount.Action) (id : String) : List (Label Request Env) :=
  .invoke (.act action) :: advance call [id]

def confirming (call : Nat) : List (Label Request Env) := advance call ["-", "-", "-", "-", "-", "-", "-"]

def confirm (session : String) : Label Request Env := .invoke (.confirmCheckout manager (text session))

/-- Both are confirmed, and the page of the first is opened again. -/
def bothConfirmed : List (Label Request Env) :=
  act 0 (.complete (text "cs_1")) "sub_1" ++ [confirm "cs_1"] ++ confirming 1 ++
    act 2 (.changeStatus (text "sub_1") (text "canceled")) "-" ++ act 3 (.complete (text "cs_2")) "sub_2" ++
    [confirm "cs_2"] ++ confirming 4 ++ [confirm "cs_1"]

def finished (call : Underway) : Bool :=
  match call.running with
  | .done (.ok _) => true
  | _ => false

theorem replay_reverts : ∃ before after : Running, (billing true (· = openedDb)).machine.Reachable before ∧
    before.calls.map finished = [true, true, true, true, true, false] ∧
    billed before.store 1 = some ⟨some (text "sub_2"), some (text "team"), some 8⟩ ∧
    (billing true (· = openedDb)).machine.Leads before after ∧ after.calls.all finished = true ∧
    billed after.store 1 = some ⟨some (text "sub_1"), some (text "starter"), some 5⟩ := by
  have run : ∃ before, (billing true (· = openedDb)).machine.execute ⟨openedDb, []⟩ bothConfirmed = some before ∧
      before.calls.map finished = [true, true, true, true, true, false] ∧
      billed before.store 1 = some ⟨some (text "sub_2"), some (text "team"), some 8⟩ ∧
      ∃ after, (billing true (· = openedDb)).machine.execute before (confirming 5) = some after ∧
        after.calls.all finished = true ∧ billed after.store 1 = some ⟨some (text "sub_1"), some (text "starter"), some 5⟩ :=
    ⟨_, rfl, by decide +kernel, by decide +kernel, _, rfl, by decide +kernel, by decide +kernel⟩
  obtain ⟨before, ran, confirmed, shown, after, replayed, finished, reverted⟩ := run
  have start : (billing true (· = openedDb)).machine.initial ⟨openedDb, []⟩ := ⟨rfl, rfl⟩
  exact ⟨before, after, execute_reachable start ran, confirmed, shown, execute_leads replayed, finished, reverted⟩

theorem replayed_sets : ∃ config later : Running, ∃ call, (billing true (· = openedDb)).machine.Reachable config ∧
    later.calls[5]? = some call ∧ finished call = true ∧
    (billed later.store 1 = billed config.store 1 ↔
      ∀ sub, Accepted 1 (text "cs_1") sub call.trace → billed config.store 1 = some (shownBy sub)) := by
  have run : ∃ config, (billing true (· = openedDb)).machine.execute ⟨openedDb, []⟩ bothConfirmed = some config ∧
      (∃ program, config.calls[5]? = some ⟨.confirmCheckout manager (text "cs_1"), [], program⟩) ∧
      ∃ later, ((billing true (· = openedDb)).machine.restrict (undisturbed 1 5)).execute config (confirming 5) =
        some later ∧ later.calls.all finished = true :=
    ⟨_, rfl, ⟨_, rfl⟩, _, rfl, by decide +kernel⟩
  obtain ⟨config, ran, ⟨program, replayed⟩, later, went, done⟩ := run
  have start : (billing true (· = openedDb)).machine.initial ⟨openedDb, []⟩ := ⟨rfl, rfl⟩
  have reached := execute_reachable start ran
  obtain ⟨call, found, -, -, harmless⟩ := replay_sets reached replayed (execute_leads went)
  exact ⟨config, later, call, reached, found, List.all_eq_true.mp done call (List.mem_of_getElem? found), harmless⟩

end ConfirmationReplays
