import PmKonstruct.Domain.Errors
import PmKonstruct.Users.Access

/- The stream of live events. What the session holds and which jobs it sees are fixed when it connects, and every
   event is tested against them. -/
namespace EventStream
open PlainText DomainErrors Accounts Access
open AuthStore (Permission)
open AuthService (SessionUser)

inductive Audience where
  | company
  | user (userId : UserId)
  | permission (required : Permission)
  | job (jobId : JobId) (required : Permission)
  deriving DecidableEq, Repr

def Audience.includes (audience : Audience) (viewer : UserId) (has : Permission → Bool) (seesJob : JobId → Bool) : Bool :=
  match audience with
  | .company => true
  | .user userId => userId = viewer
  | .permission required => has required
  | .job jobId required => has required && seesJob jobId

structure BroadcastEvent (Payload : Type) where
  companyId : CompanyId
  kind : Text
  audience : Audience
  payload : Payload

/-- What a connection fixes: who it is for, what they hold, and the jobs they see, where `none` leaves them open. -/
structure Connection where
  company : CompanyId
  viewer : UserId
  permissions : Finset Permission
  visibleJobs : Option (List JobId)

/-- A failed query leaves a restricted session without jobs. -/
def connect (s : SessionUser) (visibleJobIds : Except AppError (List JobId)) : Connection where
  company := s.principal.companyId
  viewer := s.user.id
  permissions := effective s
  visibleJobs := if s.user.role.seesAllCompanyJobs then none else some (visibleJobIds.toOption.getD [])

section Stream
variable {Payload : Type} (connection : Connection)

def seesJob (job : JobId) : Bool := connection.visibleJobs.all fun ids => job ∈ ids

def passes (event : BroadcastEvent Payload) : Bool :=
  event.companyId = connection.company &&
    event.audience.includes connection.viewer (· ∈ connection.permissions) (seesJob connection)

/-- A message that was missed is passed over. -/
def stream (messages : List (Option (BroadcastEvent Payload))) : List (Text × Payload) :=
  messages.filterMap fun message => message.bind fun event =>
    if passes connection event then some (event.kind, event.payload) else none

/-- What reaches the client of the messages received, in their order, is what passes. -/
theorem stream_filters {messages : List (Option (BroadcastEvent Payload))} : stream connection messages =
    ((messages.filterMap id).filter (passes connection)).map fun event => (event.kind, event.payload) := by
  induction messages with
  | nil => rfl
  | cons message rest ih =>
    rw [stream] at ih ⊢
    cases message with
    | none => exact ih
    | some event =>
      cases passed : passes connection event with
      | true => simp [passed, ih]
      | false => simp [passed, ih]

end Stream

def Delivers {Payload : Type} (s : SessionUser) (visibleJobIds : Except AppError (List JobId))
    (event : BroadcastEvent Payload) : Prop :=
  stream (connect s visibleJobIds) [some event] = [(event.kind, event.payload)]

/-- The job is one of those that the rule gives the session. -/
def JobVisible (s : SessionUser) (visibleJobIds : Except AppError (List JobId)) (job : JobId) : Prop :=
  s.user.role.seesAllCompanyJobs = true ∨ ∃ ids, visibleJobIds = .ok ids ∧ job ∈ ids

/-- Who an event is meant for. -/
def Entitled {Payload : Type} (s : SessionUser) (visibleJobIds : Except AppError (List JobId))
    (event : BroadcastEvent Payload) : Prop :=
  event.companyId = s.principal.companyId ∧
    match event.audience with
    | .company => True
    | .user userId => userId = s.user.id
    | .permission required => hasPermission s.user.role s.permissions required = true
    | .job jobId required => hasPermission s.user.role s.permissions required = true ∧ JobVisible s visibleJobIds jobId

/-- The permission an audience is asked for. -/
def Audience.required : Audience → Option Permission
  | .company => none
  | .user _ => none
  | .permission required => some required
  | .job _ required => some required

/-- The permission is one that is asked of a manager of the same company, who is not on the list of those that hold
    it. -/
def asksManager {Payload : Type} (s : SessionUser) (event : BroadcastEvent Payload) : Bool :=
  s.user.role = .manager && event.companyId = s.principal.companyId &&
    event.audience.required.any fun required => required ∉ effectivePermissions s.user.role s.permissions

section Delivery
variable {Payload : Type} {s : SessionUser} {visibleJobIds : Except AppError (List JobId)}
    {event : BroadcastEvent Payload} {job : JobId} {required : Permission}

theorem seesJob_iff : seesJob (connect s visibleJobIds) job = true ↔ JobVisible s visibleJobIds job := by
  rw [seesJob, connect, JobVisible]
  cases everything : s.user.role.seesAllCompanyJobs with
  | true => simp
  | false =>
    cases visibleJobIds with
    | error e => simp [Except.toOption]
    | ok ids => simp [Except.toOption]

theorem sees_all_of_manager (manager : s.user.role = .manager) : JobVisible s visibleJobIds job := by
  refine .inl ?_
  rw [manager]
  rfl

theorem held_iff (restricted : s.user.role ≠ .manager) : required ∈ effective s ↔
    hasPermission s.user.role s.permissions required = true := by
  refine (hasPermission_iff ?_).symm
  cases role : s.user.role with
  | manager => exact absurd role restricted
  | supervisor => rfl
  | office => rfl

/-- The event passes whenever what it asks is in force, and only then. -/
theorem passes_iff : passes (connect s visibleJobIds) event = true ↔ event.companyId = s.principal.companyId ∧
    match event.audience with
    | .company => True
    | .user userId => userId = s.user.id
    | .permission required => required ∈ effective s
    | .job jobId required => required ∈ effective s ∧ JobVisible s visibleJobIds jobId := by
  rw [passes, Bool.and_eq_true, decide_eq_true_eq]
  refine and_congr Iff.rfl ?_
  cases event.audience with
  | company => exact iff_of_true rfl trivial
  | user userId => exact decide_eq_true_iff
  | permission required => exact decide_eq_true_iff
  | job jobId required => rw [Audience.includes, Bool.and_eq_true, seesJob_iff, decide_eq_true_eq]; rfl

theorem delivers_iff : Delivers s visibleJobIds event ↔ passes (connect s visibleJobIds) event = true := by
  rw [Delivers, stream_filters]
  cases passed : passes (connect s visibleJobIds) event with
  | true => simp [passed]
  | false => simp [passed]

theorem delivery_agrees_iff (s : SessionUser) (visibleJobIds : Except AppError (List JobId))
    (event : BroadcastEvent Payload) :
    (Delivers s visibleJobIds event ↔ Entitled s visibleJobIds event) ↔ asksManager s event = false := by
  rw [delivers_iff, passes_iff, Entitled]
  by_cases manager : s.user.role = .manager
  · have visible : ∀ job, JobVisible s visibleJobIds job := fun job => sees_all_of_manager manager
    by_cases same : event.companyId = s.principal.companyId
    · cases audience : event.audience with
      | company => simp [asksManager, Audience.required, audience]
      | user userId => simp [asksManager, Audience.required, audience]
      | permission required =>
        simp [asksManager, Audience.required, audience, manager, same, hasPermission_manager, effective]
      | job jobId required =>
        simp [asksManager, Audience.required, audience, manager, same, hasPermission_manager, visible, effective]
    · simp [asksManager, same]
  · have agrees : asksManager s event = false := by simp [asksManager, manager]
    rw [agrees]
    cases event.audience with
    | company => simp
    | user userId => simp
    | permission required => simp [held_iff manager]
    | job jobId required => simp [held_iff manager]

end Delivery

/- A manager whose stored list was written when he was a supervisor. -/

def promoted : SessionUser where
  user := ⟨7, 1, text "Sarah", text "sarah@example.com", .manager, none, true, none⟩
  principal := ⟨7, 1, .manager⟩
  permissions := [⟨text "jobs", text "read"⟩, Permissions.managedMarker]
  entitlement := ⟨true, true, true, none⟩

def diaryUpdated : BroadcastEvent Unit := ⟨1, text "diary.updated", .job 4 ⟨text "site-diary", text "read"⟩, ()⟩

theorem manager_not_told : Entitled promoted (.ok []) diaryUpdated ∧ ¬ Delivers promoted (.ok []) diaryUpdated := by
  refine ⟨⟨rfl, rfl, .inl rfl⟩, fun delivered => ?_⟩
  obtain ⟨-, held, -⟩ := passes_iff.mp (delivers_iff.mp delivered)
  revert held
  decide

end EventStream
