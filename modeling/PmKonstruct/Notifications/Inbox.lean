import Mathlib.Data.List.Sort
import PmKonstruct.Identity.AuthService
import PmKonstruct.Library.Selections
import PmKonstruct.Library.TransitionRuns
import PmKonstruct.Notifications.PushEndpoints
import PmKonstruct.Store.Requests

/- Notifications, what each user wants to be told of, and the browsers that are subscribed; all of it goes with the account.
   Telling several people reads the preferences of one after the other before it writes anything, so requests of others come
   in between. -/
namespace Inbox
open PlainText DomainErrors Accounts AuthStore KeyedTable Requests PushEndpoints TransitionRuns
open AuthService (SessionUser)

structure NotificationPrefs where
  notifyActionNotes : Bool
  notifyCallForward : Bool
  deriving DecidableEq, Repr

/-- Of a user who never opened the settings. -/
def NotificationPrefs.default : NotificationPrefs := ⟨true, false⟩

structure NotificationInput where
  userId : UserId
  kind : Text
  title : Text
  body : Option Text
  link : Option Text
  deriving DecidableEq, Repr

structure Notification where
  id : Int
  input : NotificationInput
  readAt : Option Instant
  createdAt : Instant
  resolvedAt : Option Instant
  deriving DecidableEq, Repr

structure UserNotificationPrefsRow where
  userId : UserId
  prefs : NotificationPrefs
  deriving DecidableEq, Repr

structure PushSubscription where
  endpoint : Text
  p256dh : Text
  auth : Text
  deriving DecidableEq, Repr

structure PushSubscriptionRow where
  id : Int
  userId : UserId
  subscription : PushSubscription
  deriving DecidableEq, Repr

instance : Keyed Notification := ⟨Notification.id⟩
instance : Keyed UserNotificationPrefsRow := ⟨UserNotificationPrefsRow.userId⟩
instance : Keyed PushSubscriptionRow := ⟨PushSubscriptionRow.id⟩

/-- What is to be told, to whom it still has to be decided, and who of the others is to be told. -/
structure Draft where
  session : SessionUser
  input : NotificationInput
  pending : List UserId
  inputs : List NotificationInput
  deriving DecidableEq, Repr

structure State where
  users : Table UserRow
  notifications : Table Notification
  prefs : Table UserNotificationPrefsRow
  subscriptions : Table PushSubscriptionRow
  drafts : List Draft

def PushSubscription.validate (subscription : PushSubscription) : Except DomainError Unit :=
  match validatePushEndpoint subscription.endpoint with
  | .error e => .error e
  | .ok _ =>
    if trim subscription.p256dh = [] || trim subscription.auth = [] then
      .error (.invalid "keys" "Invalid subscription payload")
    else .ok ()

section Repository
variable (s : State) (scope : CompanyId)

/-- The tables reach their company through the user. -/
def inScope (user : UserId) : Bool := (s.users.find user).any (·.companyId = scope)

def newestFirst (a b : Notification) : Prop := b.createdAt < a.createdAt ∨ a.createdAt = b.createdAt ∧ b.id ≤ a.id

instance : DecidableRel newestFirst := fun a b =>
  inferInstanceAs (Decidable (b.createdAt < a.createdAt ∨ a.createdAt = b.createdAt ∧ b.id ≤ a.id))

def visibleTo (user : UserId) (n : Notification) : Bool := n.input.userId = user && inScope s scope n.input.userId

def forUser (user : UserId) (limit : Nat) : List Notification :=
  ((s.notifications.select (visibleTo s scope user)).insertionSort newestFirst).take limit

def unreadCount (user : UserId) : Nat := (s.notifications.select fun n => visibleTo s scope user n && n.readAt.isNone).length

/-- `COALESCE(read_at, NOW())`. -/
def read (now : Instant) (n : Notification) : Notification := { n with readAt := some (n.readAt.getD now) }

theorem read_id (now : Instant) (n : Notification) : Keyed.key (read now n) = Keyed.key n := rfl

def markRead (user : UserId) (id : Int) (now : Instant) : Bool × State :=
  let mine (n : Notification) : Bool := n.id = id && visibleTo s scope user n
  (s.notifications.rows.any mine, { s with notifications := s.notifications.update mine (read now) (read_id now) })

def markAllRead (user : UserId) (now : Instant) : Nat × State :=
  let mine (n : Notification) : Bool := visibleTo s scope user n && n.readAt.isNone
  ((s.notifications.select mine).length,
    { s with notifications := s.notifications.update mine (read now) (read_id now) })

def NotificationInput.row (now : Instant) (input : NotificationInput) (id : Int) : Notification :=
  ⟨id, input, none, now, none⟩

theorem row_id (now : Instant) (input : NotificationInput) (id : Int) : Keyed.key (input.row now id) = id := rfl

def inserted (now : Instant) (inputs : List NotificationInput) (t : Table Notification) : Table Notification :=
  inputs.foldl (fun t input => t.insert (input.row now) (row_id now input)) t

def createMany (inputs : List NotificationInput) (now : Instant) : Except PortError State :=
  match firstViolation (inputs.flatMap fun input =>
    [tooLong 60 input.kind, (!inScope s scope input.userId, rowDenied "notifications")]) with
  | some e => .error e
  | none => .ok { s with notifications := inserted now inputs s.notifications }

/-- Without a row, or without sight of it, the defaults. -/
def prefsFor (user : UserId) : NotificationPrefs :=
  if inScope s scope user then ((s.prefs.find user).map (·.prefs)).getD .default else .default

def setPrefs (user : UserId) (prefs : NotificationPrefs) : Except PortError State :=
  if inScope s scope user then .ok { s with prefs := s.prefs.put ⟨user, prefs⟩ }
  else .error (rowDenied "user_notification_prefs")

def subscriptionRow (user : UserId) (subscription : PushSubscription) (id : Int) : PushSubscriptionRow :=
  ⟨id, user, subscription⟩

theorem subscriptionRow_id (user : UserId) (subscription : PushSubscription) (id : Int) :
    Keyed.key (subscriptionRow user subscription id) = id := rfl

def repointed (user : UserId) (subscription : PushSubscription) (row : PushSubscriptionRow) : PushSubscriptionRow :=
  { row with userId := user, subscription }

theorem repointed_id (user : UserId) (subscription : PushSubscription) (row : PushSubscriptionRow) :
    Keyed.key (repointed user subscription row) = Keyed.key row := rfl

/-- A row that is in the way and out of sight is not handed over. -/
def saveSubscription (user : UserId) (subscription : PushSubscription) : Except PortError State :=
  if !inScope s scope user then .error (rowDenied "push_subscriptions")
  else
    match s.subscriptions.rows.find? (·.subscription.endpoint = subscription.endpoint) with
    | none => .ok { s with
        subscriptions := s.subscriptions.insert (subscriptionRow user subscription) (subscriptionRow_id user subscription) }
    | some row =>
      if inScope s scope row.userId then
        .ok { s with
          subscriptions := s.subscriptions.update (·.subscription.endpoint = subscription.endpoint)
            (repointed user subscription) (repointed_id user subscription) }
      else .error (.storage ("error returned from database: new row violates row-level security policy " ++
        "(USING expression) for table \"push_subscriptions\""))

def removeSubscription (user : UserId) (endpoint : Text) : State :=
  { s with
    subscriptions := s.subscriptions.delete fun row =>
      row.userId = user && row.subscription.endpoint = endpoint && inScope s scope row.userId }

/-- The three tables cascade from the account. -/
def deleteUser (user : UserId) : State :=
  if inScope s scope user then
    { s with
      users := s.users.delete (·.id = user)
      notifications := s.notifications.delete (·.input.userId = user)
      prefs := s.prefs.delete (·.userId = user)
      subscriptions := s.subscriptions.delete (·.userId = user) }
  else s

end Repository

/-- The two kinds of events that the settings offer. -/
def wants (kind : Text) (prefs : NotificationPrefs) : Bool :=
  if (text "action_note").isPrefixOf kind then prefs.notifyActionNotes
  else if (text "call_forward").isPrefixOf kind then prefs.notifyCallForward
  else true

def feedLimit : Nat := 100

structure NotificationFeed where
  notifications : List Notification
  unread : Nat
  deriving DecidableEq, Repr

def feed (s : State) (session : SessionUser) : NotificationFeed :=
  ⟨forUser s session.principal.companyId session.user.id feedLimit, unreadCount s session.principal.companyId session.user.id⟩

inductive Request where
  | markRead (session : SessionUser) (id : Int) (now : Instant)
  | markAllRead (session : SessionUser) (now : Instant)
  | setPrefs (session : SessionUser) (prefs : NotificationPrefs)
  | subscribe (session : SessionUser) (subscription : PushSubscription)
  | unsubscribe (session : SessionUser) (endpoint : Text)
  | deleteUser (session : SessionUser) (id : UserId)
  | notify (session : SessionUser) (recipients : List UserId) (input : NotificationInput)
  | consider (draft : Draft)
  | deliver (draft : Draft) (now : Instant)
  deriving DecidableEq, Repr

def Request.session : Request → SessionUser
  | .markRead session _ _ => session
  | .markAllRead session _ => session
  | .setPrefs session _ => session
  | .subscribe session _ => session
  | .unsubscribe session _ => session
  | .deleteUser session _ => session
  | .notify session _ _ => session
  | .consider draft => draft.session
  | .deliver draft _ => draft.session

/-- Nobody is told of what they did themselves, nor of what they do not want to hear of. -/
def considered (s : State) (draft : Draft) (user : UserId) : List NotificationInput :=
  if user = draft.session.user.id then draft.inputs
  else if wants draft.input.kind (prefsFor s draft.session.principal.companyId user) then
    draft.inputs ++ [{ draft.input with userId := user }]
  else draft.inputs

/-- A refused request leaves everything as it was. -/
def serve (s : State) : Request → State
  | .markRead session id now => (markRead s session.principal.companyId session.user.id id now).2
  | .markAllRead session now => (markAllRead s session.principal.companyId session.user.id now).2
  | .setPrefs session prefs =>
    match setPrefs s session.principal.companyId session.user.id prefs with
    | .ok after => after
    | .error _ => s
  | .subscribe session subscription =>
    match subscription.validate with
    | .error _ => s
    | .ok _ =>
      match saveSubscription s session.principal.companyId session.user.id subscription with
      | .ok after => after
      | .error _ => s
  | .unsubscribe session endpoint =>
    if trim endpoint = [] then s
    else removeSubscription s session.principal.companyId session.user.id endpoint
  | .deleteUser session id =>
    -- The account is loaded first, which fails on a role that is none of the known ones.
    if session.principal.role = .manager && id ≠ session.user.id &&
        (s.users.find id).all (fun row => (Role.parse row.role).isSome) then
      deleteUser s session.principal.companyId id
    else s
  | .notify session recipients input => { s with drafts := ⟨session, input, recipients, []⟩ :: s.drafts }
  | .consider draft =>
    match draft.pending with
    | [] => s
    | user :: rest =>
      { s with drafts := { draft with pending := rest, inputs := considered s draft user } :: s.drafts.erase draft }
  | .deliver draft now =>
    match createMany s draft.session.principal.companyId draft.inputs now with
    | .ok after => { after with drafts := s.drafts.erase draft }
    | .error _ => { s with drafts := s.drafts.erase draft }

/-- What goes on with a draft goes on with one that is under way. -/
def enabled (s : State) : Request → Bool
  | .consider draft => draft ∈ s.drafts
  | .deliver draft _ => draft ∈ s.drafts && draft.pending = []
  | _ => true

def inbox : Machine State Request where
  initial s := s.notifications.rows = [] ∧ s.prefs.rows = [] ∧ s.subscriptions.rows = [] ∧ s.drafts = []
  step s request := some (serve s request)
  allowed := enabled

/- What a request does to the rows of a user. -/

section Rows
variable {s t : State} {request : Request} {user other : UserId} {scope : CompanyId}

def inboxOf (s : State) (user : UserId) : List Notification := s.notifications.select (·.input.userId = user)

theorem select_inserted {now : Instant} {inputs : List NotificationInput} {t : Table Notification} :
    ∃ new, (inserted now inputs t).select (·.input.userId = user) = t.select (·.input.userId = user) ++ new ∧
      ∀ n ∈ new, n.input ∈ inputs ∧ n.input.userId = user ∧ n.readAt = none := by
  induction inputs generalizing t with
  | nil => exact ⟨[], (List.append_nil _).symm, fun n member => absurd member List.not_mem_nil⟩
  | cons input inputs ih =>
    obtain ⟨new, rows, made⟩ := @ih (t.insert (input.row now) (row_id now input))
    have later : ∀ n ∈ new, n.input ∈ input :: inputs ∧ n.input.userId = user ∧ n.readAt = none := by
      intro n member
      obtain ⟨listed, rest⟩ := made n member
      exact ⟨List.mem_cons_of_mem _ listed, rest⟩
    by_cases mine : input.userId = user
    · refine ⟨input.row now t.serial :: new, ?_, ?_⟩
      · rw [inserted, List.foldl_cons, ← inserted, rows]
        simp [Table.select, Table.insert, NotificationInput.row, mine]
      · intro n member
        rcases List.mem_cons.mp member with rfl | earlier
        · exact ⟨List.mem_cons_self .., mine, rfl⟩
        · exact later n earlier
    · refine ⟨new, ?_, later⟩
      rw [inserted, List.foldl_cons, ← inserted, rows]
      simp [Table.select, Table.insert, NotificationInput.row, mine]

theorem visibleTo_user {n : Notification} (visible : visibleTo s scope user n = true) : n.input.userId = user := by
  simp only [visibleTo, Bool.and_eq_true, decide_eq_true_eq] at visible
  exact visible.1

/-- Marking notifications of one user leaves those of another alone. -/
theorem select_marked {p : Notification → Bool} {now : Instant} (apart : user ≠ other)
    (own : ∀ n, p n = true → n.input.userId = user) :
    (s.notifications.update p (read now) (read_id now)).select (·.input.userId = other) = inboxOf s other := by
  apply Table.select_update
  intro n _ matched
  have mine := own n matched
  have different : n.input.userId ≠ other := fun same => apart (mine.symm.trans same)
  exact ⟨decide_eq_false different, decide_eq_false different⟩

theorem createMany_ok {inputs : List NotificationInput} {now : Instant} (made : createMany s scope inputs now = .ok t) :
    t = { s with notifications := inserted now inputs s.notifications } ∧ ∀ i ∈ inputs, inScope s scope i.userId = true := by
  unfold createMany at made
  split at made
  · cases made
  · next passed =>
    cases made
    refine ⟨rfl, ?_⟩
    intro i member
    have each : ∀ {checks : List (Bool × PortError)}, firstViolation checks = none → ∀ c ∈ checks, c.1 = false := by
      intro checks
      induction checks with
      | nil => simp
      | cons c rest ih =>
        intro none c' listed
        obtain ⟨first, later⟩ := firstViolation_cons.mp none
        rcases List.mem_cons.mp listed with rfl | there
        · exact first
        · exact ih later c' there
    have checked := each passed (!inScope s scope i.userId, rowDenied "notifications")
      (List.mem_flatMap.mpr ⟨i, member, by simp⟩)
    simpa using checked

theorem setPrefs_ok {prefs : NotificationPrefs} (made : setPrefs s scope user prefs = .ok t) :
    inScope s scope user = true ∧ t = { s with prefs := s.prefs.put ⟨user, prefs⟩ } := by
  unfold setPrefs at made
  split at made
  · next owned =>
    cases made
    exact ⟨owned, rfl⟩
  · cases made

theorem saveSubscription_ok {subscription : PushSubscription}
    (made : saveSubscription s scope user subscription = .ok t) : inScope s scope user = true ∧
      ((∀ row ∈ s.subscriptions.rows, row.subscription.endpoint ≠ subscription.endpoint) ∧
        t = { s with
          subscriptions := s.subscriptions.insert (subscriptionRow user subscription)
            (subscriptionRow_id user subscription) } ∨
      ∃ row ∈ s.subscriptions.rows, row.subscription.endpoint = subscription.endpoint ∧
        inScope s scope row.userId = true ∧
        t = { s with
          subscriptions := s.subscriptions.update (·.subscription.endpoint = subscription.endpoint)
            (repointed user subscription) (repointed_id user subscription) }) := by
  unfold saveSubscription at made
  split at made
  · cases made
  · next owned =>
    refine ⟨by simpa using owned, ?_⟩
    split at made
    · next absent =>
      cases made
      refine .inl ⟨?_, rfl⟩
      intro row member
      simpa using List.find?_eq_none.mp absent row member
    · next row found =>
      split at made
      · next visible =>
        cases made
        exact .inr ⟨row, List.mem_of_find?_eq_some found, by simpa using List.find?_some found, visible, rfl⟩
      · cases made

/-- All that a request may do. -/
inductive Effect (s : State) (request : Request) : State → Prop
  | nothing : Effect s request s
  | marks (p : Notification → Bool) (now : Instant)
      (own : ∀ n, p n = true → visibleTo s request.session.principal.companyId request.session.user.id n = true) :
      Effect s request { s with notifications := s.notifications.update p (read now) (read_id now) }
  | prefers (prefs : NotificationPrefs)
      (owned : inScope s request.session.principal.companyId request.session.user.id = true) :
      Effect s request { s with prefs := s.prefs.put ⟨request.session.user.id, prefs⟩ }
  | subscribes (subscription : PushSubscription) (valid : subscription.validate = .ok ())
      (owned : inScope s request.session.principal.companyId request.session.user.id = true)
      (absent : ∀ row ∈ s.subscriptions.rows, row.subscription.endpoint ≠ subscription.endpoint) :
      Effect s request { s with
        subscriptions := s.subscriptions.insert (subscriptionRow request.session.user.id subscription)
          (subscriptionRow_id request.session.user.id subscription) }
  | repoints (subscription : PushSubscription) (valid : subscription.validate = .ok ())
      (owned : inScope s request.session.principal.companyId request.session.user.id = true) (row : PushSubscriptionRow)
      (there : row ∈ s.subscriptions.rows) (same : row.subscription.endpoint = subscription.endpoint)
      (visible : inScope s request.session.principal.companyId row.userId = true) :
      Effect s request { s with
        subscriptions := s.subscriptions.update (·.subscription.endpoint = subscription.endpoint)
          (repointed request.session.user.id subscription) (repointed_id request.session.user.id subscription) }
  | unsubscribes (endpoint : Text) :
      Effect s request (removeSubscription s request.session.principal.companyId request.session.user.id endpoint)
  | deletes (id : UserId) (asked : request = .deleteUser request.session id)
      (owned : inScope s request.session.principal.companyId id = true) :
      Effect s request { s with
        users := s.users.delete (·.id = id)
        notifications := s.notifications.delete (·.input.userId = id)
        prefs := s.prefs.delete (·.userId = id)
        subscriptions := s.subscriptions.delete (·.userId = id) }
  | drafts (later : List Draft) (each : ∀ d ∈ later, d ∈ s.drafts ∨ d.inputs = [] ∨ ∃ draft ∈ s.drafts, ∃ recipient,
      d.session = draft.session ∧ d.inputs = considered s draft recipient) : Effect s request { s with drafts := later }
  | delivers (draft : Draft) (there : draft ∈ s.drafts) (now : Instant) (session : draft.session = request.session)
      (owned : ∀ i ∈ draft.inputs, inScope s request.session.principal.companyId i.userId = true) :
      Effect s request { s with
        notifications := inserted now draft.inputs s.notifications
        drafts := s.drafts.erase draft }

theorem effect_of (allowed : enabled s request = true) : Effect s request (serve s request) := by
  cases request with
  | markRead session id now =>
    apply Effect.marks _ now
    intro n matched
    exact (Bool.and_eq_true_iff.mp matched).2
  | markAllRead session now =>
    apply Effect.marks _ now
    intro n matched
    exact (Bool.and_eq_true_iff.mp matched).1
  | setPrefs session prefs =>
    simp only [serve]
    split
    · next made =>
      obtain ⟨owned, rfl⟩ := setPrefs_ok made
      exact .prefers prefs owned
    · exact .nothing
  | subscribe session subscription =>
    simp only [serve]
    split
    · exact .nothing
    · next valid =>
      split
      · next made =>
        obtain ⟨owned, ⟨absent, rfl⟩ | ⟨row, there, same, visible, rfl⟩⟩ := saveSubscription_ok made
        · exact .subscribes subscription valid owned absent
        · exact .repoints subscription valid owned row there same visible
      · exact .nothing
  | unsubscribe session endpoint =>
    simp only [serve]
    split
    · exact .nothing
    · exact .unsubscribes endpoint
  | deleteUser session id =>
    simp only [serve, deleteUser]
    split
    · split
      · next owned => exact .deletes id rfl owned
      · exact .nothing
    · exact .nothing
  | notify session recipients input =>
    apply Effect.drafts
    intro d member
    rcases List.mem_cons.mp member with rfl | earlier
    · exact .inr (.inl rfl)
    · exact .inl earlier
  | consider draft =>
    simp only [serve]
    split
    · exact .nothing
    · next recipient rest _ =>
      apply Effect.drafts
      intro d member
      rcases List.mem_cons.mp member with rfl | earlier
      · exact .inr (.inr ⟨draft, of_decide_eq_true allowed, recipient, rfl, rfl⟩)
      · exact .inl (List.mem_of_mem_erase earlier)
  | deliver draft now =>
    have there : draft ∈ s.drafts := of_decide_eq_true (Bool.and_eq_true_iff.mp allowed).1
    simp only [serve]
    split
    · next made =>
      obtain ⟨rfl, owned⟩ := createMany_ok made
      exact .delivers draft there now rfl owned
    · apply Effect.drafts
      intro d member
      exact .inl (List.mem_of_mem_erase member)

theorem find_users (effect : Effect s request t) (user : UserId) :
    t.users.find user = s.users.find user ∨ request = .deleteUser request.session user ∧ t.users.find user = none := by
  cases effect with
  | deletes id asked owned =>
    by_cases same : user = id
    · subst same
      exact .inr ⟨asked, Table.find_delete_gone fun row keyed => decide_eq_true keyed⟩
    · refine .inl (Table.find_delete_kept fun row found => decide_eq_false fun mine => same ?_)
      exact (Table.find_eq_some_iff.mp found).2.symm.trans mine
  | _ => exact .inl rfl

/- What others do to the inbox of a user. -/

def prefsOf (s : State) (user : UserId) : NotificationPrefs := ((s.prefs.find user).map (·.prefs)).getD .default

/-- What is drafted for a user, and can be delivered, is what they want to hear of. -/
def DraftsWanted (s : State) (user : UserId) : Prop := ∀ d ∈ s.drafts, ∀ i ∈ d.inputs, i.userId = user →
  inScope s d.session.principal.companyId user = true → wants i.kind (prefsOf s user) = true

/-- From one state to a later one new notifications came in, all of them wanted. -/
structure Grown (user : UserId) (s t : State) : Prop where
  account : t.users.find user = s.users.find user
  prefs : prefsOf t user = prefsOf s user
  wanted : DraftsWanted t user
  rows : ∃ new, inboxOf t user = inboxOf s user ++ new ∧
    ∀ n ∈ new, n.readAt = none ∧ wants n.input.kind (prefsOf s user) = true

theorem inScope_find (same : t.users.find user = s.users.find user) : inScope t scope user = inScope s scope user := by
  rw [inScope, inScope, same]

theorem considered_wanted {draft : Draft} {recipient : UserId} {i : NotificationInput}
    (member : i ∈ considered s draft recipient) (mine : i.userId = user)
    (visible : inScope s draft.session.principal.companyId user = true)
    (before : ∀ i ∈ draft.inputs, i.userId = user → wants i.kind (prefsOf s user) = true) :
    wants i.kind (prefsOf s user) = true := by
  unfold considered at member
  split at member
  · exact before i member mine
  · split at member
    · next wanted =>
      rcases List.mem_append.mp member with earlier | new
      · exact before i earlier mine
      · obtain rfl := List.mem_singleton.mp new
        have same : recipient = user := mine
        subst same
        rw [prefsFor, if_pos visible] at wanted
        exact wanted
    · exact before i member mine

theorem grown_step (grown : Grown user s t) {u : State} (effect : Effect t request u)
    (apart : request.session.user.id ≠ user) (spared : request ≠ .deleteUser request.session user) : Grown user s u := by
  obtain ⟨account, prefs, wanted, new, rows, fresh⟩ := grown
  have still : u.users.find user = t.users.find user :=
    (find_users effect user).resolve_right fun removed => spared removed.1
  cases effect with
  | nothing => exact ⟨account, prefs, wanted, new, rows, fresh⟩
  | marks p now own =>
    refine ⟨account, prefs, wanted, new, ?_, fresh⟩
    rw [← rows]
    exact select_marked apart fun n matched => visibleTo_user (own n matched)
  | prefers chosen owned =>
    have same : prefsOf { t with prefs := t.prefs.put ⟨request.session.user.id, chosen⟩ } user = prefsOf t user := by
      have found : (t.prefs.put ⟨request.session.user.id, chosen⟩).find user = t.prefs.find user := Table.find_put_apart apart
      simp only [prefsOf, found]
    refine ⟨account, same.trans prefs, ?_, new, rows, fresh⟩
    intro d member i listed mine visible
    rw [same]
    exact wanted d member i listed mine visible
  | subscribes => exact ⟨account, prefs, wanted, new, rows, fresh⟩
  | repoints => exact ⟨account, prefs, wanted, new, rows, fresh⟩
  | unsubscribes => exact ⟨account, prefs, wanted, new, rows, fresh⟩
  | deletes id asked owned =>
    have other : id ≠ user := fun same => spared (same ▸ asked)
    have chosen : prefsOf { t with
        users := t.users.delete (·.id = id)
        notifications := t.notifications.delete (·.input.userId = id)
        prefs := t.prefs.delete (·.userId = id)
        subscriptions := t.subscriptions.delete (·.userId = id) } user = prefsOf t user := by
      have found : (t.prefs.delete (·.userId = id)).find user = t.prefs.find user := by
        refine Table.find_delete_kept fun row found => decide_eq_false fun mine => other ?_
        exact mine.symm.trans (Table.find_eq_some_iff.mp found).2
      simp only [prefsOf, found]
    refine ⟨still.trans account, chosen.trans prefs, ?_, new, ?_, fresh⟩
    · intro d member i listed mine visible
      rw [inScope_find still] at visible
      rw [chosen]
      exact wanted d member i listed mine visible
    · rw [← rows]
      apply Table.select_delete_apart
      intro n _ mine
      exact decide_eq_false fun same => other (same.symm.trans (of_decide_eq_true mine))
  | drafts later each =>
    refine ⟨account, prefs, ?_, new, rows, fresh⟩
    intro d member i listed mine visible
    rcases each d member with earlier | none | ⟨draft, there, recipient, session, inputs⟩
    · exact wanted d earlier i listed mine visible
    · rw [none] at listed
      cases listed
    · rw [inputs] at listed
      rw [session] at visible
      exact considered_wanted listed mine visible fun i listed mine => wanted draft there i listed mine visible
  | delivers draft there now session owned =>
    obtain ⟨more, appended, made⟩ := @select_inserted user now draft.inputs t.notifications
    refine ⟨account, prefs, ?_, new ++ more, ?_, ?_⟩
    · intro d member
      exact wanted d (List.mem_of_mem_erase member)
    · rw [← List.append_assoc, ← rows]
      exact appended
    · intro n member
      rcases List.mem_append.mp member with earlier | later
      · exact fresh n earlier
      · obtain ⟨listed, mine, unread⟩ := made n later
        have visible := owned n.input listed
        rw [mine, ← session] at visible
        refine ⟨unread, ?_⟩
        rw [← prefs]
        exact wanted draft there n.input listed mine visible

/-- What others ask for, other than to delete the account of this user. -/
def byOthers (user : UserId) (request : Request) : Bool :=
  request.session.user.id ≠ user && request ≠ .deleteUser request.session user

/-- Whatever others ask for, the inbox of a user keeps what it has as it is and only gets longer, by unread notifications
    of kinds that the user wants to hear of; the badge counts them. -/
theorem inbox_of_others (leads : (inbox.restrict fun _ => byOthers user).Leads s t)
    (start : DraftsWanted s user) (owned : inScope s scope user = true) :
    ∃ new, inboxOf t user = inboxOf s user ++ new ∧
      (∀ n ∈ new, n.readAt = none ∧ wants n.input.kind (prefsFor s scope user) = true) ∧
      prefsFor t scope user = prefsFor s scope user ∧
      unreadCount t scope user = unreadCount s scope user + new.length := by
  have grown : Grown user s t := by
    apply Leads.invariant (Grown user s) leads
    · exact ⟨rfl, rfl, start, [], (List.append_nil _).symm, fun n member => absurd member List.not_mem_nil⟩
    · intro t u request grown allowed step
      obtain ⟨possible, others⟩ := restrict_allowed.mp allowed
      obtain ⟨apart, spared⟩ := Bool.and_eq_true_iff.mp others
      cases step
      exact grown_step grown (effect_of possible) (of_decide_eq_true apart) (of_decide_eq_true spared)
  obtain ⟨account, prefs, -, new, rows, fresh⟩ := grown
  have owned' : inScope t scope user = true := by rw [inScope_find account, owned]
  have seen (v : State) (visible : inScope v scope user = true) :
      unreadCount v scope user = ((inboxOf v user).filter fun n => n.readAt.isNone).length := by
    rw [unreadCount, inboxOf, Table.select, Table.select, List.filter_filter]
    congr 1
    apply List.filter_congr
    intro n _
    by_cases mine : n.input.userId = user
    · simp [visibleTo, mine, visible]
    · simp [visibleTo, mine]
  refine ⟨new, rows, ?_, ?_, ?_⟩
  · rw [prefsFor, if_pos owned]
    exact fresh
  · rw [prefsFor, prefsFor, if_pos owned, if_pos owned']
    exact prefs
  · have unread : new.filter (fun n => n.readAt.isNone) = new := by
      rw [List.filter_eq_self]
      intro n member
      rw [(fresh n member).1]
      rfl
    rw [seen t owned', seen s owned, rows, List.filter_append, unread, List.length_append]

/- What is read stays read. -/

/-- The later notification is the earlier one, read or not. -/
def Kept (n later : Notification) : Prop := later.id = n.id ∧ later.input = n.input ∧ later.createdAt = n.createdAt ∧
  ∀ instant, n.readAt = some instant → later.readAt = some instant

theorem mem_inserted {now : Instant} {inputs : List NotificationInput} {t : Table Notification} {n : Notification}
    (member : n ∈ t.rows) : n ∈ (inserted now inputs t).rows := by
  induction inputs generalizing t with
  | nil => exact member
  | cons input inputs ih => exact ih (Table.mem_insert.mpr (.inl member))

theorem kept_step (effect : Effect s request t) {n : Notification} (member : n ∈ s.notifications.rows)
    (account : (t.users.find n.input.userId).isSome) : ∃ later ∈ t.notifications.rows, Kept n later := by
  have same : Kept n n := ⟨rfl, rfl, rfl, fun _ read => read⟩
  cases effect with
  | marks p now own =>
    refine ⟨if p n then read now n else n, ?_, ?_⟩
    · rw [Table.mem_update]
      exact ⟨n, member, rfl⟩
    · split
      · exact ⟨rfl, rfl, rfl, fun instant given => by simp [Inbox.read, given]⟩
      · exact same
  | delivers draft there now session owned => exact ⟨n, mem_inserted member, same⟩
  | nothing => exact ⟨n, member, same⟩
  | prefers => exact ⟨n, member, same⟩
  | subscribes => exact ⟨n, member, same⟩
  | repoints => exact ⟨n, member, same⟩
  | unsubscribes => exact ⟨n, member, same⟩
  | drafts => exact ⟨n, member, same⟩
  | deletes id asked owned =>
    refine ⟨n, Table.mem_delete.mpr ⟨member, decide_eq_false fun mine => ?_⟩, same⟩
    have gone : (s.users.delete (·.id = id)).find n.input.userId = none :=
      Table.find_delete_gone fun row keyed => decide_eq_true (keyed.trans mine)
    rw [gone] at account
    cases account

/-- As long as the account it is for is there, no notification is lost or rewritten in any run, and the instant it was first
    read at is final. -/
theorem notifications_kept (leads : inbox.Leads s t) {n : Notification} (member : n ∈ s.notifications.rows)
    (account : (t.users.find n.input.userId).isSome) : ∃ later ∈ t.notifications.rows, Kept n later := by
  revert account
  apply Leads.invariant (fun t => (t.users.find n.input.userId).isSome → ∃ later ∈ t.notifications.rows, Kept n later) leads
  · exact fun _ => ⟨n, member, rfl, rfl, rfl, fun _ read => read⟩
  · intro t u request before allowed step account
    cases step
    have effect := effect_of allowed
    have earlier : (t.users.find n.input.userId).isSome := by
      rcases find_users effect n.input.userId with same | ⟨-, gone⟩
      · rwa [same] at account
      · rw [gone] at account
        cases account
    obtain ⟨later, there, id, input, created, read⟩ := before earlier
    rw [← input] at account
    obtain ⟨last, there', id', input', created', read'⟩ := kept_step effect there account
    exact ⟨last, there', id'.trans id, input'.trans input, created'.trans created,
      fun instant given => read' instant (read instant given)⟩

/- Subscriptions. -/

structure Subscribed (s : State) : Prop where
  endpoints : s.subscriptions.Unique (·.subscription.endpoint)
  valid : ∀ row ∈ s.subscriptions.rows, row.subscription.validate = .ok ()

theorem subscribed_step (subscribed : Subscribed s) (effect : Effect s request t) : Subscribed t := by
  obtain ⟨endpoints, valid⟩ := subscribed
  cases effect with
  | subscribes subscription checked owned absent =>
    refine ⟨@Table.Unique.insert _ _ _ _ _ _ (subscriptionRow_id _ _) endpoints absent, ?_⟩
    intro row member
    simp only [Table.mem_insert] at member
    rcases member with earlier | rfl
    · exact valid row earlier
    · exact checked
  | repoints subscription checked owned row there same visible =>
    have kept : ∀ row ∈ s.subscriptions.rows, decide (row.subscription.endpoint = subscription.endpoint) = true →
        subscription.endpoint = row.subscription.endpoint := fun row _ matched => (of_decide_eq_true matched).symm
    refine ⟨@Table.Unique.update _ _ _ _ _ _ _ (repointed_id _ _) endpoints kept, ?_⟩
    intro row member
    simp only [Table.mem_update] at member
    obtain ⟨old, earlier, rfl⟩ := member
    split
    · exact checked
    · exact valid old earlier
  | unsubscribes endpoint =>
    exact ⟨endpoints.delete, fun row member => valid row (Table.mem_delete.mp member).1⟩
  | deletes id asked owned =>
    exact ⟨endpoints.delete, fun row member => valid row (Table.mem_delete.mp member).1⟩
  | nothing => exact ⟨endpoints, valid⟩
  | marks => exact ⟨endpoints, valid⟩
  | prefers => exact ⟨endpoints, valid⟩
  | drafts => exact ⟨endpoints, valid⟩
  | delivers => exact ⟨endpoints, valid⟩

theorem reachable_subscribed (reached : inbox.Reachable s) : Subscribed s := by
  apply Reachable.invariant Subscribed reached
  · intro s start
    obtain ⟨-, -, none, -⟩ := start
    refine ⟨?_, ?_⟩
    · intro row member
      rw [none] at member
      cases member
    · intro row member
      rw [none] at member
      cases member
  · intro s t request subscribed allowed step
    cases step
    exact subscribed_step subscribed (effect_of allowed)

/-- Every endpoint that is stored is one that the check accepts, with both keys. Once a browser is subscribed for a user, it
    is subscribed for nobody else. -/
theorem subscriptions_sound (reached : inbox.Reachable s) : (∀ row ∈ s.subscriptions.rows,
      validatePushEndpoint row.subscription.endpoint = .ok () ∧ trim row.subscription.p256dh ≠ [] ∧
        trim row.subscription.auth ≠ []) ∧
    ∀ (session : SessionUser) (subscription : PushSubscription) (after : State), subscription.validate = .ok () →
      saveSubscription s session.principal.companyId session.user.id subscription = .ok after →
      ∃ row ∈ after.subscriptions.rows, row.userId = session.user.id ∧ row.subscription = subscription ∧
        ∀ other ∈ after.subscriptions.rows, other.subscription.endpoint = subscription.endpoint → other = row := by
  have subscribed := reachable_subscribed reached
  constructor
  · intro row member
    have valid := subscribed.valid row member
    unfold PushSubscription.validate at valid
    split at valid
    · cases valid
    · next checked =>
      split at valid
      · cases valid
      · next filled =>
        simp only [Bool.or_eq_true, decide_eq_true_eq, not_or] at filled
        exact ⟨checked, filled⟩
  · intro session subscription after valid saved
    have effect : Effect s (.subscribe session subscription) after := by
      have served := @effect_of s (.subscribe session subscription) rfl
      simpa only [serve, valid, saved] using served
    have later := subscribed_step subscribed effect
    obtain ⟨-, ⟨-, rfl⟩ | ⟨row, there, same, -, rfl⟩⟩ := saveSubscription_ok saved
    · have new : subscriptionRow session.user.id subscription s.subscriptions.serial ∈
          (s.subscriptions.insert (subscriptionRow session.user.id subscription)
            (subscriptionRow_id session.user.id subscription)).rows := by
        rw [Table.mem_insert]
        exact .inr rfl
      exact ⟨_, new, rfl, rfl, fun other member endpoint => later.endpoints other member _ new endpoint⟩
    · have moved : repointed session.user.id subscription row ∈ (s.subscriptions.update
          (·.subscription.endpoint = subscription.endpoint) (repointed session.user.id subscription)
          (repointed_id session.user.id subscription)).rows := by
        rw [Table.mem_update]
        exact ⟨row, there, by simp [same]⟩
      exact ⟨_, moved, rfl, rfl, fun other member endpoint => later.endpoints other member _ moved endpoint⟩

/- Other companies. -/

/-- What a company has is what it had. -/
structure Same (company : CompanyId) (s t : State) : Prop where
  users : t.users.select (·.companyId = company) = s.users.select (·.companyId = company)
  notifications : t.notifications.select (inScope s company ·.input.userId) =
    s.notifications.select (inScope s company ·.input.userId)
  prefs : t.prefs.select (inScope s company ·.userId) = s.prefs.select (inScope s company ·.userId)
  subscriptions : t.subscriptions.select (inScope s company ·.userId) =
    s.subscriptions.select (inScope s company ·.userId)

theorem one_company {company : CompanyId} (apart : scope ≠ company) (mine : inScope s scope user = true) :
    inScope s company user = false := by
  unfold inScope at mine ⊢
  cases found : s.users.find user with
  | none => rfl
  | some row =>
    rw [found, Option.any_some, decide_eq_true_eq] at mine
    simpa [mine] using apart

theorem select_inserted_apart {now : Instant} {inputs : List NotificationInput} {t : Table Notification}
    {p : Notification → Bool} (apart : ∀ i ∈ inputs, ∀ id, p (i.row now id) = false) :
    (inserted now inputs t).select p = t.select p := by
  induction inputs generalizing t with
  | nil => rfl
  | cons input inputs ih =>
    rw [inserted, List.foldl_cons, ← inserted, ih fun i member => apart i (List.mem_cons_of_mem _ member),
      Table.select_insert (apart input (List.mem_cons_self ..) _)]

theorem inScope_select {company : CompanyId} :
    inScope s company user = (s.users.select (·.companyId = company)).any fun row => row.id = user := Table.any_find

theorem same_step {company : CompanyId} (subscribed : Subscribed s) (effect : Effect s request t)
    (apart : request.session.principal.companyId ≠ company) : Same company s t := by
  cases effect with
  | nothing => exact ⟨rfl, rfl, rfl, rfl⟩
  | drafts => exact ⟨rfl, rfl, rfl, rfl⟩
  | marks p now own =>
    refine ⟨rfl, ?_, rfl, rfl⟩
    dsimp only
    apply Table.select_update
    intro n _ matched
    have mine := (Bool.and_eq_true_iff.mp (own n matched)).2
    exact ⟨one_company apart mine, one_company apart mine⟩
  | prefers chosen owned =>
    refine ⟨rfl, rfl, ?_, rfl⟩
    have out := one_company apart owned
    rw [Table.select_put, List.filter_eq_self.mpr, List.filter_eq_nil_iff.mpr, List.append_nil]
    · intro row member
      rw [List.mem_singleton.mp member, out]
      exact Bool.false_ne_true
    · intro row member
      apply decide_eq_true
      intro same
      have mine := (Table.mem_select.mp member).2
      have named : row.userId = request.session.user.id := same
      rw [named, out] at mine
      cases mine
  | subscribes subscription valid owned absent =>
    refine ⟨rfl, rfl, rfl, ?_⟩
    dsimp only
    apply Table.select_insert
    exact one_company apart owned
  | repoints subscription valid owned row there same visible =>
    refine ⟨rfl, rfl, rfl, ?_⟩
    dsimp only
    apply Table.select_update
    intro other member matched
    have one : other = row := subscribed.endpoints other member row there ((of_decide_eq_true matched).trans same.symm)
    rw [one]
    exact ⟨one_company apart visible, one_company apart owned⟩
  | deletes id asked owned =>
    have out := one_company apart owned
    have elsewhere (user : UserId) (mine : inScope s company user = true) : decide (user = id) = false := by
      refine decide_eq_false fun same => ?_
      rw [same, out] at mine
      cases mine
    refine ⟨Table.select_delete_apart fun row there mine => ?_, Table.select_delete_apart fun n _ => elsewhere _,
      Table.select_delete_apart fun row _ => elsewhere _, Table.select_delete_apart fun row _ => elsewhere _⟩
    have found : s.users.find row.id = some row := Table.find_eq_some_iff.mpr ⟨there, rfl⟩
    apply elsewhere
    rw [inScope, found]
    exact mine
  | unsubscribes endpoint =>
    refine ⟨rfl, rfl, rfl, ?_⟩
    apply Table.select_delete_apart
    intro row _ mine
    cases other : inScope s request.session.principal.companyId row.userId with
    | false => simp
    | true =>
      rw [one_company apart other] at mine
      cases mine
  | delivers draft there now session owned =>
    refine ⟨rfl, ?_, rfl, rfl⟩
    apply select_inserted_apart
    intro i member _
    exact one_company apart (owned i member)

/-- Whatever the sessions of other companies ask for, in any order and at any point of their own requests, the notifications,
    preferences and subscriptions of a company stay as they are. -/
theorem notifications_isolated {company : CompanyId} (reached : inbox.Reachable s)
    (leads : (inbox.restrict fun _ request => request.session.principal.companyId ≠ company).Leads s t) :
    Same company s t := by
  have both : Subscribed t ∧ Same company s t := by
    apply Leads.invariant (fun t => Subscribed t ∧ Same company s t) leads
    · exact ⟨reachable_subscribed reached, rfl, rfl, rfl, rfl⟩
    · intro t u request before allowed step
      obtain ⟨subscribed, same⟩ := before
      obtain ⟨possible, apart⟩ := restrict_allowed.mp allowed
      cases step
      have effect := effect_of possible
      obtain ⟨users, rows, prefs, subscriptions⟩ := same_step subscribed effect (of_decide_eq_true apart)
      have still : inScope t company = inScope s company := by
        funext user
        rw [inScope_select, inScope_select, same.users]
      rw [still] at rows prefs subscriptions
      exact ⟨subscribed_step subscribed effect, users.trans same.users, rows.trans same.notifications,
        prefs.trans same.prefs, subscriptions.trans same.subscriptions⟩
  exact both.2

end Rows

/- Sarah tells Sam and herself of a note; Sam reads it, and subscribes a browser. Rita is of another company. -/

def sessionOf (id : UserId) (company : CompanyId) : SessionUser :=
  ⟨⟨id, company, [], [], .manager, none, true, none⟩, ⟨id, company, .manager⟩, [], ⟨true, true, true, none⟩⟩

def opened : State where
  users := .of [.plain 4 1 (text "Sam") (text "sam@example.com") (text "SUPERVISOR") (Eq.refl true),
    .plain 7 1 (text "Sarah") (text "sarah@example.com") (text "MANAGER") (Eq.refl true),
    .plain 9 2 (text "Rita") (text "rita@example.org") (text "MANAGER") (Eq.refl true)] 10 (Eq.refl true)
  notifications := .empty
  prefs := .empty
  subscriptions := .empty
  drafts := []

def note (user : UserId) : NotificationInput := ⟨user, text "action_note_raised", text "Call the client", none, none⟩

def draft (pending : List UserId) (inputs : List NotificationInput) : Draft := ⟨sessionOf 7 1, note 0, pending, inputs⟩

def telling : List Request :=
  [.notify (sessionOf 7 1) [4, 7] (note 0), .consider (draft [4, 7] []), .consider (draft [7] [note 4]),
    .deliver (draft [] [note 4]) 100]

def browser : PushSubscription := ⟨text "https://fcm.googleapis.com/fcm/send/abc123", text "key", text "auth"⟩

def reading : List Request := [.markRead (sessionOf 4 1) 1 200, .subscribe (sessionOf 4 1) browser]

def told : State := (inbox.execute opened telling).getD opened

def ended : State := (inbox.execute told reading).getD told

theorem opened_initial : inbox.initial opened := ⟨rfl, rfl, rfl, rfl⟩

theorem told_leads : inbox.Leads opened told := leads_getD (by decide)

theorem ended_leads : inbox.Leads told ended := leads_getD (by decide)

theorem told_reachable : inbox.Reachable told := ⟨opened, opened_initial, told_leads⟩

theorem sam_is_told : ∃ new, inboxOf told 4 = inboxOf opened 4 ++ new ∧ unreadCount told 1 4 = 1 ∧
    unreadCount told 1 4 = unreadCount opened 1 4 + new.length := by
  have run : ((inbox.restrict fun _ => byOthers 4).execute opened telling).isSome = true := by decide
  have same : ((inbox.restrict fun _ => byOthers 4).execute opened telling).getD opened = told := rfl
  have leads := leads_getD run
  rw [same] at leads
  have idle : DraftsWanted opened 4 := fun d member => absurd member List.not_mem_nil
  obtain ⟨new, rows, -, -, badge⟩ := @inbox_of_others opened told 4 1 leads idle (by decide)
  exact ⟨new, rows, by decide, badge⟩

theorem sam_has_read : ∃ later ∈ ended.notifications.rows, Kept ⟨1, note 4, none, 100, none⟩ later :=
  notifications_kept ended_leads (by decide) (by decide)

theorem sams_browser : ended.subscriptions.rows.length = 1 ∧
    ∀ row ∈ ended.subscriptions.rows, validatePushEndpoint row.subscription.endpoint = .ok () ∧
      trim row.subscription.p256dh ≠ [] ∧ trim row.subscription.auth ≠ [] := by
  constructor
  · decide
  · exact (subscriptions_sound (Reachable.leads told_reachable ended_leads)).1

theorem rita_is_not_told : Same 2 told ended := by
  have run : ((inbox.restrict fun _ request => request.session.principal.companyId ≠ 2).execute told reading).isSome =
      true := by decide
  have same : ((inbox.restrict fun _ request => request.session.principal.companyId ≠ 2).execute told reading).getD told =
      ended := rfl
  have leads := leads_getD run
  rw [same] at leads
  exact notifications_isolated told_reachable leads

end Inbox
