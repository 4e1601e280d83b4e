import PmKonstruct.Library.Selections
import PmKonstruct.Reports.ReportsStore
import PmKonstruct.Store.Requests

/- The report use cases over the programme, and when the three reports agree with the delay rule on what is late. -/
namespace ReportsService
open PlainText DomainErrors CalendarDate Schema KeyedTable RowSecurity Requests Dashboard ReportsStore
open Delay (DelayInput computeDelayInfo)
open AuthService (SessionUser)

structure ReportQuery where
  jobId : Option JobId
  supervisorId : Option UserId
  dateFrom : Option Date
  dateTo : Option Date
  deriving DecidableEq, Repr

def ReportQuery.filter (q : ReportQuery) : ReportFilter := ⟨q.jobId, q.supervisorId, ⟨q.dateFrom, q.dateTo⟩⟩

structure JobProgress where
  row : JobProgressRow
  completionPct : Int
  health : JobHealth
  deriving DecidableEq, Repr

structure SeverityRow where
  row : DelayRow
  severity : Severity
  deriving DecidableEq, Repr

structure DailyProgressReport where
  date : Date
  data : DailyProgressData
  completedTasks : Int
  inProgressTasks : Int
  notStartedTasks : Int
  delayedTasks : Int
  daysBehindProgram : Int
  completionPct : Int
  health : JobHealth
  plannedToday : List CallForwardItemId
  deriving DecidableEq, Repr

def workTasks (tasks : List DailyTaskRow) : List DailyTaskRow := tasks.filter (·.itemType ≠ .header)

def delayedTasks (today : Date) (tasks : List DailyTaskRow) : List DailyTaskRow :=
  (workTasks tasks).filter fun t => t.status ≠ .completed && t.status ≠ .onHold && t.estFinish.any (· < today)

/-- The window of the task covers the day. A missing end is open, a missing start was always due. -/
def plannedOn (date : Date) (task : DailyTaskRow) : Bool :=
  (task.estStart.isSome || task.estFinish.isSome) && task.estStart.all (· ≤ date) && task.estFinish.all (date ≤ ·)

section Service
variable (db : Db) (s : SessionUser) (today : Date)

def jobScope : JobScope :=
  if s.user.role.seesAllCompanyJobs then .all else .only (visibleJobIds db s.principal.companyId s.user.id)

/-- A job that is named has to be the caller's to ask about. -/
def prepare (q : ReportQuery) : Except AppError (JobScope × ReportFilter) :=
  match q.filter.range.validate with
  | .error e => .error (.domain e)
  | .ok _ =>
    let jobs := jobScope db s
    match q.filter.jobId with
    | some job =>
      if jobs.covers job then .ok (jobs, q.filter)
      else .error (.domain (.forbidden "that job is not yours to report on"))
    | none => .ok (jobs, q.filter)

def jobProgress (collation : Text → Text → Bool) (q : ReportQuery) : Except AppError (List JobProgress) :=
  (prepare db s q).map fun (jobs, filter) =>
    (ReportsStore.jobProgress db s.principal.companyId collation jobs filter today).map fun row =>
      ⟨row, ReportsStore.completionPct row.completed row.totalTasks, jobHealth row.delayedCount⟩

def delays (q : ReportQuery) : Except AppError (List SeverityRow) :=
  (prepare db s q).map fun (jobs, filter) =>
    (ReportsStore.delays db s.principal.companyId jobs filter today).map fun row => ⟨row, Severity.of row.delayDays⟩

def dailyProgressReport (date : Date) (data : DailyProgressData) : DailyProgressReport :=
  let items := workTasks data.tasks
  let count (status : CfStatus) : Int := items.countP (·.status = status)
  let delayed := delayedTasks today data.tasks
  { date := date
    data := data
    completedTasks := count .completed
    inProgressTasks := count .inProgress
    notStartedTasks := count .notStarted
    delayedTasks := delayed.length
    daysBehindProgram := (delayed.filterMap fun t => t.estFinish.map (today - ·)).max?.getD 0
    completionPct := ReportsStore.completionPct (count .completed) items.length
    health := jobHealth delayed.length
    plannedToday := (items.filter (plannedOn date)).map (·.id) }

def dailyProgress (job : JobId) (date : Date) : Except AppError DailyProgressReport :=
  if (jobScope db s).covers job then
    match ReportsStore.dailyProgress db s.principal.companyId job with
    | none => .error (.domain (.notFound "Job"))
    | some data => .ok (dailyProgressReport today date data)
  else .error (.domain (.notFound "Job"))

end Service

def unrestricted : ReportFilter := ⟨none, none, none, none⟩

def delayInput (item : CallForwardRow) : DelayInput :=
  ⟨some item.status, item.estStart, item.estFinish, item.actualStart, item.actualFinish⟩

/-- The store but for one item. -/
def without (db : Db) (item : CallForwardItemId) : Db :=
  { db with callForward := db.callForward.delete fun i => i.id = item }

section Counted
variable (db : Db) (scope : CompanyId) (collation : Text → Text → Bool) (jobs : JobScope) (today : Date)
    (item : CallForwardRow)

/-- The report has a line for the job of the item, and it counts one less when the item is not there. -/
def CountedInProgress : Prop :=
  ∃ line ∈ ReportsStore.jobProgress db scope collation jobs unrestricted today,
    ∃ other ∈ ReportsStore.jobProgress (without db item.id) scope collation jobs unrestricted today,
      line.jobId = item.jobId ∧ other.jobId = item.jobId ∧ line.delayedCount = other.delayedCount + 1

def CountedInDaily (date : Date) : Prop :=
  ∃ data other, ReportsStore.dailyProgress db scope item.jobId = some data ∧
    ReportsStore.dailyProgress (without db item.id) scope item.jobId = some other ∧
    (dailyProgressReport today date data).delayedTasks = (dailyProgressReport today date other).delayedTasks + 1

/-- Each report treats the item as late exactly when the delay rule does, and reports the rule's days. -/
structure OverdueAgrees : Prop where
  progress : CountedInProgress db scope collation jobs today item ↔
    (computeDelayInfo (delayInput item) today).delayStatus = .delayed
  daily : ∀ date, CountedInDaily db scope today item date ↔
    (computeDelayInfo (delayInput item) today).delayStatus = .delayed
  listed : (∃ row ∈ ReportsStore.delays db scope jobs unrestricted today, row.taskId = item.id) ↔
    (computeDelayInfo (delayInput item) today).delayStatus = .delayed
  days : ∀ row ∈ ReportsStore.delays db scope jobs unrestricted today, row.taskId = item.id →
    some row.delayDays = (computeDelayInfo (delayInput item) today).delayDays

end Counted

/-- Late by its status and its estimate. -/
def PastEstimate (today : Date) (item : CallForwardRow) : Prop :=
  item.status ≠ .completed ∧ item.status ≠ .onHold ∧ ∃ finish, item.estFinish = some finish ∧ finish < today

/-- The job runs or was given a start, without which a report over no range leaves it out. -/
def RunsOrStarted (db : Db) (job : JobId) : Prop :=
  ∃ row, db.jobs.find job = some row ∧ (row.status = .active ∨ row.startDate.isSome = true)

section Tasks
variable {db : Db} {scope : CompanyId} {today : Date} {job : JobId}

/-- The tasks the service keeps are the items the database counts. -/
theorem workTasks_perm {data : DailyProgressData} (read : ReportsStore.dailyProgress db scope job = some data) :
    (workTasks data.tasks).Perm ((workOf db scope job).map dailyTask) := by
  obtain ⟨row, -, rfl⟩ := Option.map_eq_some_iff.mp read
  simp only [workTasks, List.filter_map]
  apply List.Perm.map
  have work : workOf db scope job = (db.callForward.select fun i => i.jobId = job && jobInScope db scope i.jobId).filter
      ((fun task : DailyTaskRow => decide (task.itemType ≠ .header)) ∘ dailyTask) := by
    rw [workOf, Table.select, Table.select, List.filter_filter]
    apply List.filter_congr
    intro item _
    rw [Bool.eq_iff_iff]
    simp only [Function.comp, Bool.and_eq_true, decide_eq_true_eq]
    simp only [dailyTask]
    tauto
  rw [work]
  exact (List.perm_insertionSort _ _).filter _

theorem delayedTasks_perm {data : DailyProgressData} (read : ReportsStore.dailyProgress db scope job = some data) :
    (delayedTasks today data.tasks).Perm ((delayedItems db scope today job).map dailyTask) := by
  have late := (workTasks_perm read).filter fun t =>
    t.status ≠ .completed && t.status ≠ .onHold && t.estFinish.any (· < today)
  rw [List.filter_map] at late
  have same : (workOf db scope job).filter ((fun t : DailyTaskRow =>
      (t.status ≠ .completed && t.status ≠ .onHold && t.estFinish.any (· < today) : Bool)) ∘ dailyTask) =
        delayedItems db scope today job := by
    apply List.filter_congr
    intro item _
    rw [Bool.eq_iff_iff]
    simp only [Function.comp, delayedInProgress, Bool.and_eq_true, decide_eq_true_eq, and_assoc]
    simp only [dailyTask]
    cases item.estFinish <;> simp
  rw [same] at late
  exact late

end Tasks

section Agreement
variable {db : Db} {scope : CompanyId} {collation : Text → Text → Bool} {jobs : JobScope} {today date : Date}
    {item : CallForwardRow}

theorem rule_iff : (computeDelayInfo (delayInput item) today).delayStatus = .delayed ↔
    PastEstimate today item ∧ item.actualFinish = none := by
  rw [Delay.delayed_iff]
  simp only [delayInput, PastEstimate, ne_eq, Option.some.injEq]
  tauto

theorem any_before {planned : Option Date} : planned.any (· < today) = true ↔
    ∃ finish, planned = some finish ∧ finish < today := by
  cases planned <;> simp

theorem delayedItems_eq_select {job : JobId} : delayedItems db scope today job = db.callForward.select fun i =>
    delayedInProgress today i && (i.jobId = job && jobInScope db scope i.jobId && i.itemType ≠ .header) := by
  rw [delayedItems, workOf, Table.select, Table.select, List.filter_filter]

theorem mem_delayedItems_iff (member : item ∈ db.callForward.rows) (visible : jobInScope db scope item.jobId = true)
    (task : item.itemType ≠ .header) : item ∈ delayedItems db scope today item.jobId ↔ PastEstimate today item := by
  simp only [delayedItems, workOf, delayedInProgress, List.mem_filter, Table.mem_select, Bool.and_eq_true,
    decide_eq_true_eq, any_before, PastEstimate, member, visible, task, ne_eq, not_false_eq_true, true_and, and_assoc]
  refine and_congr_right fun _ => and_congr_right fun _ => ?_
  constructor
  · rintro ⟨_, past⟩
    exact past
  · rintro ⟨finish, planned, past⟩
    exact ⟨by simp [planned], finish, planned, past⟩

/-- The count of a job goes down by one with the item if it is late by its estimate, and else stays. -/
theorem delayed_without (member : item ∈ db.callForward.rows) (visible : jobInScope db scope item.jobId = true)
    (task : item.itemType ≠ .header) :
    (delayedItems db scope today item.jobId).length =
        (delayedItems (without db item.id) scope today item.jobId).length + 1 ↔ PastEstimate today item := by
  have parts := Table.length_select_without (t := db.callForward) (q := fun i =>
    delayedInProgress today i && (i.jobId = item.jobId && jobInScope db scope i.jobId && i.itemType ≠ .header)) member
  have chosen := @mem_delayedItems_iff db scope today item member visible task
  rw [delayedItems_eq_select, Table.mem_select, and_iff_right member] at chosen
  have without_eq : delayedItems (without db item.id) scope today item.jobId =
      (db.callForward.delete fun other => Keyed.key other = Keyed.key item).select fun i =>
        delayedInProgress today i && (i.jobId = item.jobId && jobInScope db scope i.jobId && i.itemType ≠ .header) :=
    delayedItems_eq_select
  rw [delayedItems_eq_select, without_eq, parts, ← chosen]
  split
  · next there => exact iff_of_true rfl there
  · next left => exact iff_of_false (by omega) left

theorem reported_unrestricted {job : JobRow} : reported db scope jobs unrestricted job = true ↔
    job.companyId = scope ∧ jobs.covers job.id = true ∧ (job.status = .active ∨ job.startDate.isSome = true) := by
  simp [reported, unrestricted, supervisorJobs, and_assoc]

theorem mem_jobProgress {line : JobProgressRow} :
    line ∈ ReportsStore.jobProgress db scope collation jobs unrestricted today ↔
      ∃ job ∈ db.jobs.rows, job.companyId = scope ∧ jobs.covers job.id = true ∧
        (job.status = .active ∨ job.startDate.isSome = true) ∧ progressRow db scope today job = line := by
  unfold ReportsStore.jobProgress
  split
  · next empty => simp [covers_of_isEmpty empty]
  · simp only [List.mem_map, List.mem_insertionSort, Table.mem_select, reported_unrestricted, and_assoc]

theorem counted_in_progress_iff (member : item ∈ db.callForward.rows) (visible : jobInScope db scope item.jobId = true)
    (covered : jobs.covers item.jobId = true) (task : item.itemType ≠ .header) :
    CountedInProgress db scope collation jobs today item ↔ PastEstimate today item ∧ RunsOrStarted db item.jobId := by
  rw [← delayed_without member visible task]
  constructor
  · rintro ⟨line, listed, other, others, here, there, less⟩
    obtain ⟨job, known, -, -, runs, rfl⟩ := mem_jobProgress.mp listed
    obtain ⟨same, known', -, -, -, rfl⟩ := mem_jobProgress.mp others
    cases Table.key_inj known known' (here.trans there.symm)
    have found := Table.find_eq_some_iff.mpr ⟨known, here⟩
    have counts : ((delayedItems db scope today job.id).length : Int) =
        (delayedItems (without db item.id) scope today job.id).length + 1 := less
    rw [show job.id = item.jobId from here] at counts
    exact ⟨by exact_mod_cast counts, job, found, runs⟩
  · rintro ⟨less, job, found, runs⟩
    obtain ⟨known, here⟩ := Table.find_eq_some_iff.mp found
    obtain ⟨row, located, owned⟩ := jobInScope_iff.mp visible
    cases found.symm.trans located
    have job_covered : jobs.covers job.id = true := (show job.id = item.jobId from here) ▸ covered
    refine ⟨_, mem_jobProgress.mpr ⟨job, known, owned, job_covered, runs, rfl⟩, _,
      mem_jobProgress.mpr ⟨job, known, owned, job_covered, runs, rfl⟩, here, here, ?_⟩
    have counts : ((delayedItems db scope today job.id).length : Int) =
        (delayedItems (without db item.id) scope today job.id).length + 1 := by
      rw [show job.id = item.jobId from here]
      exact_mod_cast less
    exact counts

theorem delayedTasks_length {data : DailyProgressData} {job : JobId}
    (read : ReportsStore.dailyProgress db scope job = some data) :
    (dailyProgressReport today date data).delayedTasks = (delayedItems db scope today job).length := by
  have late := (@delayedTasks_perm db scope today job data read).length_eq
  rw [List.length_map] at late
  exact congrArg Nat.cast late

theorem counted_in_daily_iff (member : item ∈ db.callForward.rows) (visible : jobInScope db scope item.jobId = true)
    (task : item.itemType ≠ .header) : CountedInDaily db scope today item date ↔ PastEstimate today item := by
  rw [← delayed_without member visible task]
  constructor
  · rintro ⟨data, other, read, others, less⟩
    rw [delayedTasks_length read, delayedTasks_length others] at less
    exact_mod_cast less
  · intro less
    obtain ⟨job, found, owned⟩ := jobInScope_iff.mp visible
    have reached : db.jobs.reach (·.companyId = scope) item.jobId = some job :=
      Table.reach_eq_some_iff.mpr ⟨found, by simpa using owned⟩
    obtain ⟨data, read⟩ : ∃ data, ReportsStore.dailyProgress db scope item.jobId = some data :=
      ⟨_, congrArg (Option.map _) reached⟩
    obtain ⟨other, others⟩ : ∃ other, ReportsStore.dailyProgress (without db item.id) scope item.jobId = some other :=
      ⟨_, congrArg (Option.map _) reached⟩
    refine ⟨data, other, read, others, ?_⟩
    rw [delayedTasks_length read, delayedTasks_length others]
    exact_mod_cast less

theorem delayedNow_iff : delayedNow today item = true ↔
    item.itemType ≠ .header ∧ PastEstimate today item ∧ item.actualFinish = none := by
  simp only [delayedNow, Bool.and_eq_true, decide_eq_true_eq, any_before, Option.isNone_iff_eq_none, PastEstimate]
  constructor
  · intro ⟨⟨⟨⟨⟨task, _⟩, past⟩, undated⟩, done⟩, held⟩
    exact ⟨task, ⟨done, held, past⟩, undated⟩
  · intro ⟨task, ⟨done, held, finish, planned, past⟩, undated⟩
    exact ⟨⟨⟨⟨⟨task, by simp [planned]⟩, finish, planned, past⟩, undated⟩, done⟩, held⟩

theorem delayListed_iff : delayListed db scope jobs unrestricted today item = true ↔
    jobInScope db scope item.jobId = true ∧ jobs.covers item.jobId = true ∧ delayedNow today item = true := by
  simp only [delayListed, unrestricted, Option.all_none, Bool.and_eq_true, Bool.and_true]
  constructor
  · intro ⟨⟨⟨visible, now⟩, covered⟩, _⟩
    exact ⟨visible, covered, now⟩
  · intro ⟨visible, covered, now⟩
    obtain ⟨job, found, owned⟩ := jobInScope_iff.mp visible
    have reached : db.jobs.reach (·.companyId = scope) item.jobId = some job :=
      Table.reach_eq_some_iff.mpr ⟨found, by simpa using owned⟩
    exact ⟨⟨⟨visible, now⟩, covered⟩, by simp [reached, supervisorJobs]⟩

theorem delayRow_of {row : DelayRow} (made : delayRow db scope today item = some row) :
    row.taskId = item.id ∧ ∃ finish, item.estFinish = some finish ∧ row.delayDays = today - finish := by
  obtain ⟨job, -, made⟩ := Option.bind_eq_some_iff.mp made
  obtain ⟨finish, planned, rfl⟩ := Option.map_eq_some_iff.mp made
  exact ⟨rfl, finish, planned, rfl⟩

theorem delayRow_isSome (visible : jobInScope db scope item.jobId = true) (late : delayedNow today item = true) :
    ∃ row, delayRow db scope today item = some row := by
  obtain ⟨job, found, owned⟩ := jobInScope_iff.mp visible
  have reached : db.jobs.reach (·.companyId = scope) item.jobId = some job :=
    Table.reach_eq_some_iff.mpr ⟨found, by simpa using owned⟩
  obtain ⟨-, ⟨-, -, finish, planned, -⟩, -⟩ := delayedNow_iff.mp late
  rw [delayRow, reached, planned]
  exact ⟨_, rfl⟩

theorem mem_delays {row : DelayRow} : row ∈ ReportsStore.delays db scope jobs unrestricted today ↔
    ∃ item ∈ db.callForward.rows, jobInScope db scope item.jobId = true ∧ jobs.covers item.jobId = true ∧
      delayedNow today item = true ∧ delayRow db scope today item = some row := by
  unfold ReportsStore.delays
  split
  · next empty => simp [covers_of_isEmpty empty]
  · simp only [List.mem_insertionSort, List.mem_filterMap, Table.mem_select, delayListed_iff, and_assoc]

/-- A row of the delays report names the item only if it was made from it. -/
theorem listed_row {row : DelayRow} (member : item ∈ db.callForward.rows)
    (listed : row ∈ ReportsStore.delays db scope jobs unrestricted today) (named : row.taskId = item.id) :
    delayedNow today item = true ∧ delayRow db scope today item = some row := by
  obtain ⟨other, there, -, -, late, made⟩ := mem_delays.mp listed
  have same := Table.key_inj there member ((delayRow_of made).1.symm.trans named)
  subst same
  exact ⟨late, made⟩

theorem listed_iff (member : item ∈ db.callForward.rows) (visible : jobInScope db scope item.jobId = true)
    (covered : jobs.covers item.jobId = true) :
    (∃ row ∈ ReportsStore.delays db scope jobs unrestricted today, row.taskId = item.id) ↔
      delayedNow today item = true := by
  constructor
  · intro ⟨row, listed, named⟩
    exact (listed_row member listed named).1
  · intro late
    obtain ⟨row, made⟩ := delayRow_isSome visible late
    exact ⟨row, mem_delays.mpr ⟨item, member, visible, covered, late, made⟩, (delayRow_of made).1⟩

/-- The reports agree with the rule on an item exactly when, its estimate past and its status open, no finish was recorded
    and its job is one that the progress report has a line for. -/
theorem overdueAgrees_iff (member : item ∈ db.callForward.rows) (visible : jobInScope db scope item.jobId = true)
    (covered : jobs.covers item.jobId = true) (task : item.itemType ≠ .header) :
    OverdueAgrees db scope collation jobs today item ↔
      (PastEstimate today item → item.actualFinish = none ∧ RunsOrStarted db item.jobId) := by
  constructor
  · intro agrees past
    obtain ⟨-, open_⟩ := rule_iff.mp ((agrees.daily today).mp ((counted_in_daily_iff member visible task).mpr past))
    have counted := agrees.progress.mpr (rule_iff.mpr ⟨past, open_⟩)
    exact ⟨open_, ((counted_in_progress_iff member visible covered task).mp counted).2⟩
  · intro fit
    have same : PastEstimate today item ↔ (computeDelayInfo (delayInput item) today).delayStatus = .delayed := by
      rw [rule_iff]
      exact ⟨fun past => ⟨past, (fit past).1⟩, fun late => late.1⟩
    constructor
    · rw [counted_in_progress_iff member visible covered task, ← same]
      exact ⟨fun counted => counted.1, fun past => ⟨past, (fit past).2⟩⟩
    · exact fun date => (counted_in_daily_iff member visible task).trans same
    · rw [listed_iff member visible covered, delayedNow_iff, rule_iff]
      exact and_iff_right task
    · intro row listed named
      obtain ⟨late, made⟩ := listed_row member listed named
      obtain ⟨-, finish, planned, days⟩ := delayRow_of made
      rw [Delay.delayDays_of_delayed planned (rule_iff.mpr (delayedNow_iff.mp late).2), days]

end Agreement

/- A frame planned for day 10: the date of its finish was recorded on day 12 and its status left in progress. -/

def frame (actualFinish : Option Date) : CallForwardRow :=
  ⟨1, 1, text "Frame", .task, none, none, some 10, some 5, actualFinish, .inProgress, none, 0, none, 0, 0⟩

def framed (actualFinish : Option Date) : Db :=
  { Db.empty with
    jobs := .of [⟨1, 1, [], text "J1", text "Smith", none, none, text "1 St", .active, none, none, none, none, none, none,
      none, none, none, 0, 0⟩] 2 (Eq.refl true)
    callForward := .of [frame actualFinish] 2 (Eq.refl true) }

theorem unfinished_frame : OverdueAgrees (framed none) 1 (fun _ _ => true) .all 20 (frame none) ↔
    (PastEstimate 20 (frame none) → (frame none).actualFinish = none ∧ RunsOrStarted (framed none) (frame none).jobId) :=
  overdueAgrees_iff (List.mem_singleton_self _) (by decide) (by decide) (by decide)

theorem finished_frame_disagrees : ¬ OverdueAgrees (framed (some 12)) 1 (fun _ _ => true) .all 20 (frame (some 12)) := by
  intro agrees
  have counted : CountedInProgress (framed (some 12)) 1 (fun _ _ => true) .all 20 (frame (some 12)) :=
    ⟨_, List.mem_singleton_self _, _, List.mem_singleton_self _, rfl, rfl, by decide⟩
  have late := agrees.progress.mp counted
  revert late
  decide

end ReportsService
