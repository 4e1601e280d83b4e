import PmKonstruct.Dashboard.DashboardStore

/- The dashboard use cases over one store, and when their three answers to the same question agree: the counter of
   the statistics, the list behind it and the chart of delays. -/
namespace DashboardService
open PlainText DomainErrors Accounts CalendarDate Schema KeyedTable RowSecurity Dashboard DashboardStore
open AuthService (SessionUser)

def recentDiaryDays : Int := 7

/-- A clock of the company: the instant, and how far its time zone is ahead of the universal time. -/
structure Clock where
  nowUtc : Instant
  offset : Int
  deriving DecidableEq, Repr

def Clock.today (clock : Clock) : Date := localDate clock.offset clock.nowUtc

section Service
variable (db : Db) (s : SessionUser) (clock : Clock)

def jobScope : JobScope :=
  if s.user.role.seesAllCompanyJobs then .all else .only (visibleJobIds db s.principal.companyId s.user.id)

def recentCutoff : Date := clock.today - recentDiaryDays

/-- The date of the database comes in beside the clock of the company. -/
def stats (currentDate : Date) : DashboardStats :=
  DashboardStore.stats db s.principal.companyId (jobScope db s) currentDate (recentCutoff clock)
    s.user.role.bypassesPermissionChecks

def overdueCallForwards : List DashboardCallForward :=
  DashboardStore.overdueCallForwards db s.principal.companyId (jobScope db s) clock.today

def delaySeverity : List DelaySeverity :=
  Dashboard.delaySeverity (overdueDays db s.principal.companyId (jobScope db s) clock.today)

end Service

section Agreement
variable (db : Db) (scope : CompanyId) (jobs : JobScope) (today currentDate : Date)

/-- The three answers name one number, whatever else the statistics are asked for. -/
def Agrees : Prop := ∀ diarySince includeUserCount,
  (DashboardStore.stats db scope jobs currentDate diarySince includeUserCount).overdueCallForwards =
      (DashboardStore.overdueCallForwards db scope jobs today).length ∧
    (DashboardStore.stats db scope jobs currentDate diarySince includeUserCount).overdueCallForwards =
      ((Dashboard.delaySeverity (overdueDays db scope jobs today)).map (·.count)).sum

/-- An item that would be late on one of the two dates falls due between them. -/
def DueBetween (item : CallForwardRow) : Prop :=
  unfinished item = true ∧ ∃ finish, item.estFinish = some finish ∧ min today currentDate ≤ finish ∧
    finish < max today currentDate

end Agreement

variable {db : Db} {scope : CompanyId} {jobs : JobScope} {today currentDate : Date} {item : CallForwardRow}

theorem countP_eq_iff {α : Type} {p q : α → Bool} {items : List α}
    (implied : ∀ item ∈ items, p item = true → q item = true) :
    items.countP p = items.countP q ↔ ∀ item ∈ items, q item = true → p item = true := by
  induction items with
  | nil => simp
  | cons item rest ih =>
    obtain ⟨first, later⟩ := List.forall_mem_cons.mp implied
    have fewer := List.countP_mono_left later
    rw [List.forall_mem_cons, ← ih later, List.countP_cons, List.countP_cons]
    cases held : p item with
    | true => simp [first held]
    | false =>
      cases asked : q item with
      | true =>
        simp only [Bool.false_eq_true, if_false, if_true, forall_const, false_and, iff_false]
        omega
      | false => simp

theorem dueBefore_mono {early late : Date} (ordered : early ≤ late) (due : dueBefore early item = true) :
    dueBefore late item = true := by
  cases there : item.estFinish with
  | none => simp [dueBefore, there] at due
  | some finish =>
    simp only [dueBefore, there, Option.any_some, decide_eq_true_eq] at due ⊢
    exact lt_of_lt_of_le due ordered

/-- Counts on two dates in order agree when nothing falls due from the first to the second. -/
theorem overdueCount_eq_iff {early late : Date} (ordered : early ≤ late) :
    overdueCount db scope jobs early = overdueCount db scope jobs late ↔
      ∀ item ∈ programme db scope jobs, ¬ DueBetween early late item := by
  have implied : ∀ item ∈ programme db scope jobs, (unfinished item && dueBefore early item) = true →
      (unfinished item && dueBefore late item) = true := by
    intro item _ counted
    rw [Bool.and_eq_true] at counted ⊢
    exact ⟨counted.1, dueBefore_mono ordered counted.2⟩
  rw [overdueCount, overdueCount, countP_eq_iff implied]
  refine forall₂_congr fun item _ => ?_
  simp only [DueBetween, Bool.and_eq_true, dueBefore, min_eq_left ordered, max_eq_right ordered]
  cases item.estFinish with
  | none => simp
  | some finish =>
    simp only [Option.any_some, decide_eq_true_eq, Option.some.injEq, exists_eq_left']
    constructor
    · rintro kept ⟨open_, due, before⟩
      exact not_lt_of_ge due (kept ⟨open_, before⟩).2
    · rintro apart ⟨open_, before⟩
      by_contra early
      exact apart ⟨open_, le_of_not_gt fun due => early ⟨open_, due⟩, before⟩

theorem agrees_iff_counts : Agrees db scope jobs today currentDate ↔
    overdueCount db scope jobs currentDate = overdueCount db scope jobs today := by
  simp only [Agrees, stats_overdue, overdueCallForwards_length, severity_counts_sum, overdueDays_length, and_self,
    Int.natCast_inj]
  exact ⟨fun same => same 0 true, fun same _ _ => same⟩

theorem overdueCounts_agree_iff :
    overdueCount db scope jobs currentDate = overdueCount db scope jobs today ↔
      ∀ item ∈ programme db scope jobs, ¬ DueBetween today currentDate item := by
  rcases le_total today currentDate with ordered | ordered
  · rw [eq_comm]
    exact overdueCount_eq_iff ordered
  · rw [overdueCount_eq_iff ordered]
    simp only [DueBetween, min_comm, max_comm]

/-- The dashboard agrees with itself exactly when no item in scope falls due between the two dates. -/
theorem dashboard_agrees_iff (db : Db) (scope : CompanyId) (jobs : JobScope) (today currentDate : Date) :
    Agrees db scope jobs today currentDate ↔
      ∀ item ∈ db.callForward.rows, jobInScope db scope item.jobId = true → jobs.covers item.jobId = true →
        ¬ DueBetween today currentDate item := by
  rw [agrees_iff_counts, overdueCounts_agree_iff]
  simp only [mem_programme, and_imp]

/- Eight in the morning in Melbourne, ten hours ahead of a database on universal time. The frame was due on the day
   before. -/

def manager : SessionUser where
  user := ⟨7, 1, text "Sarah", text "sarah@example.com", .manager, none, true, none⟩
  principal := ⟨7, 1, .manager⟩
  permissions := []
  entitlement := ⟨true, true, true, none⟩

def melbourne : Clock := ⟨20587 * 86400000000 + 22 * 3600000000, 10 * 3600000000⟩

def frameDue : Db :=
  { Db.empty with
    jobs := ⟨[⟨1, 1, [], text "J1", text "Smith", none, none, text "1 St", .active, none, none, none, none, none, none,
      none, none, none, 0, 0⟩], 2, by decide, by decide⟩
    callForward := ⟨[⟨1, 1, text "Frame", .task, none, none, some 20587, none, none, .inProgress, none, 0, none, 0,
      0⟩], 2, by decide, by decide⟩ }

theorem morning_disagrees :
    ¬ Agrees frameDue 1 (jobScope frameDue manager) melbourne.today (localDate 0 melbourne.nowUtc) := by
  intro agrees
  have same := (agrees 0 true).1
  revert same
  decide

end DashboardService
