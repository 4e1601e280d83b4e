import PmKonstruct.Reports.SupervisorPerformance

/- The report on tasks that are ahead, and where the reports on tasks and on progress meet: every open task is late or ahead,
   and the progress of a job comes out the same whether the database counts it or the service does. -/
namespace OpenTasks
open PlainText DomainErrors CalendarDate Schema KeyedTable RowSecurity Dashboard ReportsStore ReportsService
open AuthService (SessionUser)

structure UpcomingTaskRow where
  taskId : CallForwardItemId
  title : Text
  itemType : ItemType
  supplierTrade : Option Text
  jobId : JobId
  jobNumber : Text
  jobName : Text
  jobAddress : Text
  supervisorId : Option UserId
  supervisorName : Option Text
  estStart : Option Date
  estFinish : Option Date
  daysUntilStart : Option Int
  daysUntilFinish : Option Int
  status : CfStatus
  deriving DecidableEq, Repr

def isOpen (item : CallForwardRow) : Bool :=
  item.itemType ≠ .header && item.status ≠ .completed && item.status ≠ .onHold && item.actualFinish.isNone

def ahead (today : Date) (item : CallForwardRow) : Bool :=
  item.estStart.any (today ≤ ·) || item.estFinish.any (today ≤ ·)

/-- `COALESCE(cf.est_start, cf.est_finish)`. -/
def plannedFrom (item : CallForwardRow) : Option Date := item.estStart.orElse fun _ => item.estFinish

/-- `NULLS LAST`. -/
def sooner : Option Date → Option Date → Bool
  | some a, some b => a < b
  | some _, none => true
  | none, _ => false

section Repository
variable (db : Db) (scope : CompanyId)

def upcomingRow (today : Date) (item : CallForwardRow) : Option UpcomingTaskRow :=
  (db.jobs.reach (·.companyId = scope) item.jobId).map fun job =>
    ⟨item.id, item.title, item.itemType, item.supplierTrade, item.jobId, job.jobNumber, job.name, job.address,
      job.supervisorId, supervisorName db scope job, item.estStart, item.estFinish, item.estStart.map (· - today),
      item.estFinish.map (· - today), item.status⟩

def upcomingListed (jobs : JobScope) (filter : ReportFilter) (today : Date) (item : CallForwardRow) : Bool :=
  jobInScope db scope item.jobId && isOpen item && ahead today item && jobs.covers item.jobId &&
    filter.jobId.all (item.jobId = ·) &&
    ((db.jobs.reach (·.companyId = scope) item.jobId).any (supervisorJobs db filter.supervisorId)) &&
    (filter.range.start.all fun f => (plannedFrom item).any (f ≤ ·)) &&
    (filter.range.finish.all fun t => (plannedFrom item).any (· ≤ t))

def upcomingTasks (jobs : JobScope) (filter : ReportFilter) (today : Date) : List UpcomingTaskRow :=
  if jobs.isEmpty then []
  else ((db.callForward.select (upcomingListed db scope jobs filter today)).filterMap
    (upcomingRow db scope today)).insertionSort fun a b => sooner a.estStart b.estStart = true ∨
      a.estStart = b.estStart ∧ (sooner a.estFinish b.estFinish = true ∨ a.estFinish = b.estFinish ∧ a.taskId ≤ b.taskId)

end Repository

def upcomingTasksReport (db : Db) (s : SessionUser) (today : Date) (q : ReportQuery) :
    Except AppError (List UpcomingTaskRow) :=
  (prepare db s q).map fun (jobs, filter) => upcomingTasks db s.principal.companyId jobs filter today

/- Every open task is late or ahead. -/

section Listed
variable {db : Db} {s : SessionUser} {today : Date} {q : ReportQuery} {item : CallForwardRow}

/-- A task of a job that the session sees, that the report was asked about and that is the supervisor's it was asked
    about. -/
def AskedAbout (db : Db) (s : SessionUser) (q : ReportQuery) (item : CallForwardRow) : Prop :=
  SeesJob db s item.jobId ∧ (∀ job ∈ q.jobId, item.jobId = job) ∧
    ∀ row, db.jobs.find item.jobId = some row → supervisorJobs db q.supervisorId row = true

/-- Without a planned finish a task is on no list once its planned start has passed, and with one in the past and a
    planned start ahead it is on both. -/
def PlannedInOrder (today : Date) (item : CallForwardRow) : Prop :=
  (item.estFinish = none → item.estStart.any (today ≤ ·) = true) ∧
    ¬ (item.estFinish.any (· < today) = true ∧ item.estStart.any (today ≤ ·) = true)

theorem covers_jobScope {job : JobId} :
    (jobScope db s).covers job = (visibleJobs db s).all fun ids => decide (job ∈ ids) := by
  unfold jobScope visibleJobs
  split <;> rfl

theorem askedAbout_iff : AskedAbout db s q item ↔
    (jobInScope db s.principal.companyId item.jobId && (jobScope db s).covers item.jobId &&
      q.jobId.all (item.jobId = ·) &&
      ((db.jobs.reach (·.companyId = s.principal.companyId) item.jobId).any (supervisorJobs db q.supervisorId))) = true := by
  rw [AskedAbout, ← admits_iff_sees, covers_jobScope]
  simp only [Bool.and_eq_true, Option.all_eq_true, decide_eq_true_eq, Option.mem_def, and_assoc]
  apply and_congr_right
  intro visible
  obtain ⟨row, found, owned⟩ := jobInScope_iff.mp visible
  have reached : db.jobs.reach (·.companyId = s.principal.companyId) item.jobId = some row :=
    Table.reach_eq_some_iff.mpr ⟨found, by simpa using owned⟩
  simp [reached, found]

instance : Decidable (AskedAbout db s q item) := decidable_of_iff _ askedAbout_iff.symm

/-- Rows made of distinct rows of the table name each of these once. -/
theorem count_listed {Listed : Type} {make : CallForwardRow → Option Listed} {named : Listed → CallForwardItemId}
    {p : CallForwardRow → Bool} (total : ∀ i ∈ db.callForward.select p, ∃ row, make i = some row ∧ named row = i.id)
    (member : item ∈ db.callForward.rows) :
    (((db.callForward.select p).filterMap make).map named).count item.id = if p item then 1 else 0 := by
  rw [SupervisorPerformance.filterMap_total total]
  have distinct : ((db.callForward.select p).map (·.id)).Nodup := by
    apply List.Nodup.map_on _ Table.nodup_select
    intro a left b right same
    exact Table.key_inj (Table.mem_select.mp left).1 (Table.mem_select.mp right).1 same
  rw [distinct.count]
  have listed : item.id ∈ (db.callForward.select p).map (·.id) ↔ p item = true := by
    rw [List.mem_map]
    constructor
    · intro ⟨other, chosen, same⟩
      obtain ⟨there, kept⟩ := Table.mem_select.mp chosen
      rw [← Table.key_inj there member same]
      exact kept
    · intro kept
      exact ⟨item, Table.mem_select.mpr ⟨member, kept⟩, rfl⟩
  simp only [listed]

theorem prepared {α : Type} {f : JobScope × ReportFilter → α} {served : α} (ok : (prepare db s q).map f = .ok served) :
    served = f (jobScope db s, q.filter) := by
  unfold prepare at ok
  split at ok
  · cases ok
  · simp only at ok
    split at ok
    · split at ok
      · cases ok
        rfl
      · cases ok
    · cases ok
      rfl

def undated (q : ReportQuery) : ReportQuery := ⟨q.jobId, q.supervisorId, none, none⟩

theorem delayListed_iff_asked : delayListed db s.principal.companyId (jobScope db s) (undated q).filter today item = true ↔
    AskedAbout db s q item ∧ isOpen item = true ∧ item.estFinish.any (· < today) = true := by
  rw [askedAbout_iff]
  simp only [delayListed, delayedNow, isOpen, undated, ReportQuery.filter]
  cases item.estFinish with
  | none => simp
  | some finish =>
    simp
    tauto

theorem upcomingListed_iff_asked :
    upcomingListed db s.principal.companyId (jobScope db s) (undated q).filter today item = true ↔
      AskedAbout db s q item ∧ isOpen item = true ∧ ahead today item = true := by
  rw [askedAbout_iff]
  simp only [upcomingListed, undated, ReportQuery.filter]
  simp
  tauto

theorem reached_of_asked (asked : AskedAbout db s q item) :
    ∃ job, db.jobs.reach (·.companyId = s.principal.companyId) item.jobId = some job := by
  obtain ⟨job, found, owned, -⟩ := asked.1
  exact ⟨job, Table.reach_eq_some_iff.mpr ⟨found, by simpa using owned⟩⟩

theorem count_late {late : List SeverityRow} (member : item ∈ db.callForward.rows)
    (served : ReportsService.delays db s today (undated q) = .ok late) :
    (late.map (·.row.taskId)).count item.id =
      if delayListed db s.principal.companyId (jobScope db s) (undated q).filter today item then 1 else 0 := by
  rw [prepared served]
  simp only [List.map_map, Function.comp_def, ReportsStore.delays]
  split
  · next empty => simp [delayListed, covers_of_isEmpty empty]
  · rw [(List.Perm.map _ (List.perm_insertionSort _ _)).count_eq]
    apply count_listed _ member
    intro i chosen
    obtain ⟨asked, -, past⟩ := delayListed_iff_asked.mp (Table.mem_select.mp chosen).2
    obtain ⟨job, reached⟩ := reached_of_asked asked
    cases planned : i.estFinish with
    | none => simp [planned] at past
    | some finish => simp [delayRow, reached, planned]

theorem count_ahead {rows : List UpcomingTaskRow} (member : item ∈ db.callForward.rows)
    (served : upcomingTasksReport db s today (undated q) = .ok rows) :
    (rows.map (·.taskId)).count item.id =
      if upcomingListed db s.principal.companyId (jobScope db s) (undated q).filter today item then 1 else 0 := by
  rw [prepared served]
  simp only [upcomingTasks]
  split
  · next empty => simp [upcomingListed, covers_of_isEmpty empty]
  · rw [(List.Perm.map _ (List.perm_insertionSort _ _)).count_eq]
    apply count_listed _ member
    intro i chosen
    obtain ⟨asked, -, -⟩ := upcomingListed_iff_asked.mp (Table.mem_select.mp chosen).2
    obtain ⟨job, reached⟩ := reached_of_asked asked
    simp [upcomingRow, reached]

/-- What the report on delays lists was made of open tasks that it was asked about. -/
theorem late_made {late : List SeverityRow} (served : ReportsService.delays db s today (undated q) = .ok late) :
    ∀ row ∈ late, ∃ made ∈ db.callForward.rows, delayRow db s.principal.companyId today made = some row.row ∧
      AskedAbout db s q made ∧ isOpen made = true := by
  rw [prepared served]
  intro row listed
  obtain ⟨delay, reported, rfl⟩ := List.mem_map.mp listed
  unfold ReportsStore.delays at reported
  split at reported
  · cases reported
  · rw [List.mem_insertionSort, List.mem_filterMap] at reported
    obtain ⟨made, chosen, same⟩ := reported
    obtain ⟨there, kept⟩ := Table.mem_select.mp chosen
    obtain ⟨asked, opened, -⟩ := delayListed_iff_asked.mp kept
    exact ⟨made, there, same, asked, opened⟩

theorem ahead_made {rows : List UpcomingTaskRow} (served : upcomingTasksReport db s today (undated q) = .ok rows) :
    ∀ row ∈ rows, ∃ made ∈ db.callForward.rows, upcomingRow db s.principal.companyId today made = some row ∧
      AskedAbout db s q made ∧ isOpen made = true := by
  rw [prepared served]
  intro row listed
  simp only [upcomingTasks] at listed
  split at listed
  · cases listed
  · rw [List.mem_insertionSort, List.mem_filterMap] at listed
    obtain ⟨made, chosen, same⟩ := listed
    obtain ⟨there, kept⟩ := Table.mem_select.mp chosen
    obtain ⟨asked, opened, -⟩ := upcomingListed_iff_asked.mp kept
    exact ⟨made, there, same, asked, opened⟩

theorem ahead_iff : ahead today item = true ↔ item.estStart.any (today ≤ ·) = true ∨
    item.estFinish ≠ none ∧ ¬ item.estFinish.any (· < today) = true := by
  unfold ahead
  cases item.estFinish <;> simp

/-- Asked the same, the two reports list between them exactly the open tasks that are asked about, each of them once if it
    is planned in order; nothing else is listed by either. -/
theorem open_tasks_listed_once {late : List SeverityRow} {rows : List UpcomingTaskRow} (member : item ∈ db.callForward.rows)
    (delayed : ReportsService.delays db s today (undated q) = .ok late)
    (upcoming : upcomingTasksReport db s today (undated q) = .ok rows) :
    (AskedAbout db s q item ∧ isOpen item = true →
      ((late.map (·.row.taskId)).count item.id + (rows.map (·.taskId)).count item.id = 1 ↔ PlannedInOrder today item)) ∧
    (¬ (AskedAbout db s q item ∧ isOpen item = true) →
      item.id ∉ late.map (·.row.taskId) ∧ item.id ∉ rows.map (·.taskId)) ∧
    (∀ row ∈ late, ∃ made ∈ db.callForward.rows, delayRow db s.principal.companyId today made = some row.row ∧
      AskedAbout db s q made ∧ isOpen made = true) ∧
    ∀ row ∈ rows, ∃ made ∈ db.callForward.rows, upcomingRow db s.principal.companyId today made = some row ∧
      AskedAbout db s q made ∧ isOpen made = true := by
  have lateCount := count_late member delayed
  have aheadCount := count_ahead member upcoming
  simp only [delayListed_iff_asked] at lateCount
  simp only [upcomingListed_iff_asked] at aheadCount
  refine ⟨?_, ?_, late_made delayed, ahead_made upcoming⟩
  · intro ⟨asked, opened⟩
    simp only [asked, opened, true_and] at lateCount aheadCount
    rw [lateCount, aheadCount]
    rw [PlannedInOrder, if_congr ahead_iff rfl rfl]
    by_cases past : item.estFinish.any (· < today) = true
    · have dated : item.estFinish ≠ none := by
        rintro none
        simp [none] at past
      by_cases later : item.estStart.any (today ≤ ·) = true <;> simp [past, later, dated]
    · by_cases dated : item.estFinish = none <;> by_cases later : item.estStart.any (today ≤ ·) = true <;>
        simp [past, later, dated]
  · intro apart
    rw [← List.count_eq_zero, ← List.count_eq_zero, lateCount, aheadCount, if_neg, if_neg]
    · exact ⟨rfl, rfl⟩
    · rintro ⟨asked, opened, -⟩
      exact apart ⟨asked, opened⟩
    · rintro ⟨asked, opened, -⟩
      exact apart ⟨asked, opened⟩

end Listed

/- The progress of a job, counted by the database and by the service. -/

section Progress
variable {db : Db} {scope : CompanyId} {s : SessionUser} {today date : Date} {job : JobId}
  {collation : Text → Text → Bool}

/-- The line of a job and its daily report say the same. -/
structure ProgressAgrees (line : JobProgress) (report : DailyProgressReport) : Prop where
  job : line.row.jobId = report.data.jobId
  total : line.row.totalTasks = line.row.notStarted + line.row.inProgress + line.row.completed + line.row.onHold
  notStarted : line.row.notStarted = report.notStartedTasks
  inProgress : line.row.inProgress = report.inProgressTasks
  completed : line.row.completed = report.completedTasks
  delayed : line.row.delayedCount = report.delayedTasks
  pct : line.completionPct = report.completionPct
  health : line.health = report.health
  behind : 0 < report.daysBehindProgram ↔ line.health = .delayed

def progressLine (db : Db) (scope : CompanyId) (today : Date) (job : JobRow) : JobProgress :=
  let row := progressRow db scope today job
  ⟨row, ReportsStore.completionPct row.completed row.totalTasks, jobHealth row.delayedCount⟩

theorem count_statuses (items : List CallForwardRow) : (items.length : Int) =
    items.countP (·.status = .notStarted) + items.countP (·.status = .inProgress) +
      items.countP (·.status = .completed) + items.countP (·.status = .onHold) := by
  induction items with
  | nil => rfl
  | cons item items ih =>
    simp only [List.length_cons, List.countP_cons]
    cases item.status <;> simp <;> omega

/-- The worst of the late tasks is late by a day at least. -/
theorem behind_iff {tasks : List DailyTaskRow} (late : ∀ t ∈ tasks, ∃ finish, t.estFinish = some finish ∧ finish < today) :
    0 < (tasks.filterMap fun t => t.estFinish.map (today - ·)).max?.getD 0 ↔ tasks ≠ [] := by
  cases tasks with
  | nil => simp
  | cons task tasks =>
    obtain ⟨finish, planned, past⟩ := late task (List.mem_cons_self ..)
    have first : today - finish ∈ (task :: tasks).filterMap fun t => t.estFinish.map (today - ·) :=
      List.mem_filterMap.mpr ⟨task, List.mem_cons_self .., by rw [planned]; rfl⟩
    cases most : ((task :: tasks).filterMap fun t => t.estFinish.map (today - ·)).max? with
    | none =>
      rw [List.max?_eq_none_iff.mp most] at first
      cases first
    | some worst =>
      have least := (List.max?_eq_some_iff.mp most).2 _ first
      have apart : 0 < worst := lt_of_lt_of_le (Int.sub_pos.mpr past) least
      simpa using apart

theorem progress_agrees {row : JobRow} {data : DailyProgressData}
    (reached : db.jobs.reach (·.companyId = scope) job = some row)
    (read : ReportsStore.dailyProgress db scope job = some data) :
    ProgressAgrees (progressLine db scope today row) (dailyProgressReport today date data) := by
  have same : row.id = job := (Table.find_eq_some_iff.mp (Table.reach_eq_some_iff.mp reached).1).2
  have tasks := workTasks_perm read
  have late := @delayedTasks_perm db scope today job data read
  have count (status : CfStatus) : (workTasks data.tasks).countP (·.status = status) =
      (workOf db scope job).countP (·.status = status) := by
    rw [tasks.countP_eq, List.countP_map]
    rfl
  have lateCount : (delayedTasks today data.tasks).length = (delayedItems db scope today job).length := by
    rw [late.length_eq, List.length_map]
  have length : (workTasks data.tasks).length = (workOf db scope job).length := by
    rw [tasks.length_eq, List.length_map]
  have past : ∀ t ∈ delayedTasks today data.tasks, ∃ finish, t.estFinish = some finish ∧ finish < today := by
    intro t member
    simp only [delayedTasks, List.mem_filter, Bool.and_eq_true, any_before] at member
    exact member.2.2
  constructor
  · obtain ⟨row', reached', rfl⟩ := Option.map_eq_some_iff.mp read
    rw [reached] at reached'
    cases reached'
    rfl
  · exact count_statuses _
  all_goals simp only [progressLine, progressRow, dailyProgressReport, same, count, lateCount, length]
  rw [behind_iff past, jobHealth]
  have empty : delayedTasks today data.tasks = [] ↔ delayedItems db scope today job = [] := by
    rw [← List.length_eq_zero_iff, lateCount, List.length_eq_zero_iff]
  rw [Ne, empty]
  cases delayedItems db scope today job <;> simp

theorem jobProgress_named (everyJob : (jobScope db s).covers job = true) {row : JobRow}
    (reached : db.jobs.reach (·.companyId = s.principal.companyId) job = some row) :
    ReportsService.jobProgress db s today collation ⟨some job, none, none, none⟩ =
      .ok [progressLine db s.principal.companyId today row] := by
  have nonempty : ¬ (jobScope db s).isEmpty = true := by
    intro empty
    rw [covers_of_isEmpty empty] at everyJob
    cases everyJob
  obtain ⟨found, owned⟩ := Table.reach_eq_some_iff.mp reached
  obtain ⟨member, same⟩ := Table.find_eq_some_iff.mp found
  have one : db.jobs.select (reported db s.principal.companyId (jobScope db s) ⟨some job, none, none, none⟩) = [row] := by
    have listed : ∀ other, other ∈ db.jobs.select (reported db s.principal.companyId (jobScope db s)
        ⟨some job, none, none, none⟩) ↔ other = row := by
      intro other
      rw [Table.mem_select]
      constructor
      · intro ⟨there, chosen⟩
        simp only [reported, Bool.and_eq_true, Option.all_some, decide_eq_true_eq] at chosen
        exact Table.key_inj there member (chosen.1.1.2.trans same.symm)
      · rintro rfl
        have id : other.id = job := same
        refine ⟨member, ?_⟩
        simp [reported, supervisorJobs, id, everyJob, of_decide_eq_true owned]
    have once : (db.jobs.select (reported db s.principal.companyId (jobScope db s) ⟨some job, none, none, none⟩)).Nodup :=
      Table.nodup_select
    have permuted := (List.perm_ext_iff_of_nodup once (List.nodup_singleton row)).mpr fun other => by
      rw [listed, List.mem_singleton]
    exact List.perm_singleton.mp permuted
  have asked : prepare db s ⟨some job, none, none, none⟩ = .ok (jobScope db s, ⟨some job, none, none, none⟩) := by
    simp [prepare, ReportQuery.filter, ReportRange.validate, everyJob]
  rw [ReportsService.jobProgress, asked]
  simp only [Except.map, ReportsStore.jobProgress, if_neg nonempty, one]
  rfl

/-- A session that gets the daily report of a job gets one line of progress on it, and the two agree; a session that is
    refused the one gets no line of the other. -/
theorem progress_reports_agree : (∀ report, ReportsService.dailyProgress db s today job date = .ok report →
      ∃ line, ReportsService.jobProgress db s today collation ⟨some job, none, none, none⟩ = .ok [line] ∧
        ProgressAgrees line report) ∧
    ∀ e, ReportsService.dailyProgress db s today job date = .error e → ∀ lines,
      ReportsService.jobProgress db s today collation ⟨some job, none, none, none⟩ = .ok lines → lines = [] := by
  constructor
  · intro report served
    unfold ReportsService.dailyProgress at served
    split at served
    · next covered =>
      split at served
      · cases served
      · next data read =>
        cases served
        obtain ⟨row, reached, -⟩ := Option.map_eq_some_iff.mp read
        exact ⟨_, jobProgress_named covered reached, progress_agrees reached read⟩
    · cases served
  · intro e refused lines served
    have covered : (jobScope db s).covers job = true := by
      by_contra hidden
      simp [ReportsService.jobProgress, prepare, ReportQuery.filter, ReportRange.validate, hidden, Except.map] at served
    have absent : db.jobs.reach (·.companyId = s.principal.companyId) job = none := by
      cases reached : db.jobs.reach (·.companyId = s.principal.companyId) job with
      | none => rfl
      | some row =>
        rw [ReportsService.dailyProgress, if_pos covered, ReportsStore.dailyProgress, reached] at refused
        cases refused
    have unlisted : db.jobs.select (reported db s.principal.companyId (jobScope db s) ⟨some job, none, none, none⟩) = [] := by
      rw [List.eq_nil_iff_forall_not_mem]
      intro row chosen
      obtain ⟨there, named⟩ := Table.mem_select.mp chosen
      simp only [reported, Bool.and_eq_true, Option.all_some, decide_eq_true_eq] at named
      have reached : db.jobs.reach (·.companyId = s.principal.companyId) job = some row :=
        Table.reach_eq_some_iff.mpr ⟨Table.find_eq_some_iff.mpr ⟨there, named.1.1.2⟩, by simpa using named.1.1.1.1⟩
      rw [absent] at reached
      cases reached
    rw [prepared served]
    simp only [ReportsStore.jobProgress]
    split
    · rfl
    · have listed : (ReportQuery.filter ⟨some job, none, none, none⟩) = ⟨some job, none, none, none⟩ := rfl
      rw [listed, unlisted]
      rfl

end Progress

open SupervisorPerformance (samsSite sarah)

def samsFrame : CallForwardRow :=
  ⟨1, 1, text "Frame", .task, none, none, some 3, none, none, .inProgress, none, 0, none, 0, 0⟩

/-- On day 20 the frame that was planned for day 3 is late and not ahead. -/
theorem frame_listed_once : ∃ late rows,
    ReportsService.delays samsSite sarah 20 (undated ⟨none, none, none, none⟩) = .ok late ∧
    upcomingTasksReport samsSite sarah 20 (undated ⟨none, none, none, none⟩) = .ok rows ∧
    (late.map (·.row.taskId)).count 1 + (rows.map (·.taskId)).count 1 = 1 := by
  have delayed : ∃ late, ReportsService.delays samsSite sarah 20 (undated ⟨none, none, none, none⟩) = .ok late := ⟨_, rfl⟩
  have upcoming : ∃ rows, upcomingTasksReport samsSite sarah 20 (undated ⟨none, none, none, none⟩) = .ok rows := ⟨_, rfl⟩
  obtain ⟨late, delayed⟩ := delayed
  obtain ⟨rows, upcoming⟩ := upcoming
  have listed := open_tasks_listed_once (List.mem_singleton_self samsFrame) delayed upcoming
  have asked : AskedAbout samsSite sarah ⟨none, none, none, none⟩ samsFrame := by decide
  have planned : PlannedInOrder 20 samsFrame := by
    constructor <;> decide
  exact ⟨late, rows, delayed, upcoming, (listed.1 ⟨asked, by decide⟩).mpr planned⟩

theorem sams_progress : ∃ report line, ReportsService.dailyProgress samsSite sarah 20 1 3 = .ok report ∧
    ReportsService.jobProgress samsSite sarah 20 (fun _ _ => true) ⟨some 1, none, none, none⟩ = .ok [line] ∧
    line.completionPct = report.completionPct := by
  have read : ∃ report, ReportsService.dailyProgress samsSite sarah 20 1 3 = .ok report := ⟨_, rfl⟩
  obtain ⟨report, read⟩ := read
  obtain ⟨line, served, agrees⟩ := (@progress_reports_agree samsSite sarah 20 3 1 fun _ _ => true).1 report read
  exact ⟨report, line, read, served, agrees.pct⟩

end OpenTasks
