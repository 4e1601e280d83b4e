import PmKonstruct.Reports.Performance
import PmKonstruct.Reports.WorkingDays

/- The performance report: the counts of each supervisor over the jobs that are theirs, and the figures made of them. -/
namespace SupervisorPerformance
open PlainText DomainErrors CalendarDate Schema KeyedTable RowSecurity Dashboard ReportsStore Performance WorkingDays
open AuthStore (UserRow)
open AuthService (SessionUser)
open ReportsService (ReportQuery)

structure SupervisorCounts where
  supervisorId : UserId
  name : Text
  email : Text
  activeJobs : Int
  completedJobs : Int
  totalJobs : Int
  startedTasks : Int
  startedOnTime : Int
  finishedTasks : Int
  finishedOnTime : Int
  totalTasks : Int
  delayedTasks : Int
  totalDelayDays : Int
  diaryEntries : Int
  jobWindows : List (Date × Date)
  deriving DecidableEq, Repr

structure ScoredSupervisor where
  supervisorId : UserId
  name : Text
  email : Text
  activeJobs : Int
  completedJobs : Int
  totalJobs : Int
  onTimeStartRate : Option Int
  onTimeCompletionRate : Option Int
  delayedTaskCount : Int
  avgDelayDays : Option Int
  diaryComplianceRate : Option Int
  performanceScore : Int
  deriving DecidableEq, Repr

section Repository
variable (db : Db) (scope : CompanyId)

def supJobs (supervisor : UserId) : List JobRow :=
  db.jobs.select fun j => j.companyId = scope && supervises db supervisor j

/-- The items on those jobs, joined on the job. -/
def supItems (supervisor : UserId) : List CallForwardRow :=
  db.callForward.select fun i =>
    (db.jobs.reach (·.companyId = scope) i.jobId).any (supervises db supervisor) && i.itemType ≠ .header

def startedPlanned (item : CallForwardRow) : Bool := item.actualStart.isSome && item.estStart.isSome

def startedOnTime (item : CallForwardRow) : Bool :=
  startedPlanned item && item.actualStart.any fun actual => item.estStart.any fun planned => actual ≤ planned

def finishedPlanned (item : CallForwardRow) : Bool := item.actualFinish.isSome && item.estFinish.isSome

def finishedOnTime (item : CallForwardRow) : Bool :=
  finishedPlanned item && item.actualFinish.any fun actual => item.estFinish.any fun planned => actual ≤ planned

def overdueItem (today : Date) (item : CallForwardRow) : Bool :=
  item.actualFinish.isNone && item.status ≠ .completed && item.status ≠ .onHold && item.estFinish.any (· < today)

def daysPast (today : Date) (item : CallForwardRow) : Int := today - item.estFinish.getD today

/-- Two entries of one job on one day count once. -/
def diaryDays (supervisor : UserId) (range : ReportRange) : List (JobId × Date) :=
  ((db.siteDiary.select fun e => (db.jobs.reach (·.companyId = scope) e.jobId).any (supervises db supervisor) &&
    range.start.all (· ≤ e.date) && range.finish.all (e.date ≤ ·)).map fun e => (e.jobId, e.date)).dedup

/-- A window is cut to the range that is asked for. -/
def clipped (range : ReportRange) (window : Date × Date) : Date × Date :=
  (range.start.elim window.1 fun f => max window.1 f, range.finish.elim window.2 fun t => min window.2 t)

/-- A job runs from its start to its end, and never past today. -/
def jobWindow (today : Date) (job : JobRow) : Option (Date × Date) :=
  if job.status = .active || job.status = .completed then
    job.startDate.map fun start => (start, min (job.endDate.getD today) today)
  else none

def supervisorCountsOf (range : ReportRange) (today : Date) (user : UserRow) : SupervisorCounts :=
  let jobs := supJobs db scope user.id
  let items := supItems db scope user.id
  let late := items.filter (overdueItem today)
  { supervisorId := user.id
    name := user.name
    email := user.email
    activeJobs := jobs.countP (·.status = .active)
    completedJobs := jobs.countP (·.status = .completed)
    totalJobs := jobs.length
    startedTasks := items.countP startedPlanned
    startedOnTime := items.countP startedOnTime
    finishedTasks := items.countP finishedPlanned
    finishedOnTime := items.countP finishedOnTime
    totalTasks := items.length
    delayedTasks := late.length
    totalDelayDays := (late.map (daysPast today)).sum
    diaryEntries := (diaryDays db scope user.id range).length
    jobWindows := (jobs.filterMap (jobWindow today)).map (clipped range) }

def isSupervisor (supervisor : Option UserId) (user : UserRow) : Bool :=
  user.companyId = scope && user.role = text "SUPERVISOR" && user.active && supervisor.all (user.id = ·)

/-- `ORDER BY s.name, s.id`, in the order of the database's collation. -/
def supervisorCounts (collation : Text → Text → Bool) (filter : ReportFilter) (today : Date) : List SupervisorCounts :=
  ((db.users.select (isSupervisor scope filter.supervisorId)).insertionSort fun a b =>
    collation a.name b.name = true ∧ (collation b.name a.name = true → a.id ≤ b.id)).map
      (supervisorCountsOf db scope filter.range today)

end Repository

/-- The sum of the working days of the windows; `none` is a panic at the end of the calendar. -/
def expectedDays (windows : List (Date × Date)) : Option Int :=
  (windows.mapM fun window => workingDays window.1 window.2).map List.sum

def scored (c : SupervisorCounts) : Option ScoredSupervisor :=
  let onTimeStart := if c.startedTasks > 0 then some (percentage c.startedOnTime c.startedTasks) else none
  let onTimeCompletion := if c.finishedTasks > 0 then some (percentage c.finishedOnTime c.finishedTasks) else none
  (expectedDays c.jobWindows).map fun expected =>
    let compliance := diaryCompliance c.diaryEntries expected
    { supervisorId := c.supervisorId
      name := c.name
      email := c.email
      activeJobs := c.activeJobs
      completedJobs := c.completedJobs
      totalJobs := c.totalJobs
      onTimeStartRate := onTimeStart
      onTimeCompletionRate := onTimeCompletion
      delayedTaskCount := c.delayedTasks
      avgDelayDays := meanDays c.totalDelayDays c.delayedTasks
      diaryComplianceRate := compliance
      performanceScore := performanceScore onTimeCompletion onTimeStart compliance c.totalTasks c.delayedTasks }

def supervisorPerformance (db : Db) (s : SessionUser) (collation : Text → Text → Bool) (today : Date) (q : ReportQuery) :
    Except AppError (Option (List ScoredSupervisor)) :=
  match q.filter.range.validate with
  | .error e => .error (.domain e)
  | .ok _ => .ok ((supervisorCounts db s.principal.companyId collation q.filter today).mapM scored)


/- What the delays report lists for a supervisor. -/

section Delays
variable {db : Db} {scope : CompanyId} {today : Date} {supervisor : UserId} {item : CallForwardRow}

def ofSupervisor (supervisor : UserId) : ReportFilter := ⟨none, some supervisor, none, none⟩

theorem mem_supItems : item ∈ supItems db scope supervisor ↔ item ∈ db.callForward.rows ∧
    (db.jobs.reach (·.companyId = scope) item.jobId).any (supervises db supervisor) = true ∧ item.itemType ≠ .header := by
  simp [supItems]

theorem jobInScope_eq {job : JobId} : jobInScope db scope job = (db.jobs.reach (·.companyId = scope) job).isSome := by
  rw [jobInScope, Table.reach]
  cases db.jobs.find job with
  | none => rfl
  | some row => by_cases owned : row.companyId = scope <;> simp [owned, Option.filter]

theorem delayListed_eq : delayListed db scope .all (ofSupervisor supervisor) today item =
    ((db.jobs.reach (·.companyId = scope) item.jobId).any (supervises db supervisor) && item.itemType ≠ .header &&
      overdueItem today item) := by
  rw [Bool.eq_iff_iff, delayListed, jobInScope_eq]
  simp only [delayedNow, overdueItem, ofSupervisor]
  cases db.jobs.reach (·.companyId = scope) item.jobId with
  | none => simp
  | some job =>
    cases item.estFinish with
    | none => simp
    | some finish =>
      simp [JobScope.covers, JobScope.ids, supervisorJobs]
      tauto

theorem select_delayListed : db.callForward.select (delayListed db scope .all (ofSupervisor supervisor) today) =
    (supItems db scope supervisor).filter (overdueItem today) := by
  rw [supItems, Table.select, Table.select, List.filter_filter]
  apply List.filter_congr
  intro item _
  rw [delayListed_eq, Bool.and_comm]

/-- Each of them has a row of its own, with the days it is late. -/
theorem delayRow_late (member : item ∈ (supItems db scope supervisor).filter (overdueItem today)) :
    ∃ row, delayRow db scope today item = some row ∧ row.delayDays = daysPast today item := by
  obtain ⟨mine, late⟩ := List.mem_filter.mp member
  obtain ⟨-, visible, -⟩ := mem_supItems.mp mine
  obtain ⟨job, reached, -⟩ := (Option.any_eq_true _ _).mp visible
  have dated : ∃ finish, item.estFinish = some finish := by
    cases planned : item.estFinish with
    | none => simp [overdueItem, planned] at late
    | some finish => exact ⟨finish, rfl⟩
  obtain ⟨finish, planned⟩ := dated
  simp [delayRow, reached, planned, daysPast]

theorem filterMap_total {α β γ : Type} {f : α → Option β} {g : β → γ} {h : α → γ} {list : List α}
    (total : ∀ a ∈ list, ∃ b, f a = some b ∧ g b = h a) : (list.filterMap f).map g = list.map h := by
  induction list with
  | nil => rfl
  | cons a list ih =>
    obtain ⟨b, made, same⟩ := total a (List.mem_cons_self ..)
    have rest := ih fun c member => total c (List.mem_cons_of_mem _ member)
    rw [List.filterMap_cons_some made, List.map_cons, List.map_cons, same, rest]

theorem delays_perm : ((delays db scope .all (ofSupervisor supervisor) today).map (·.delayDays)).Perm
    (((supItems db scope supervisor).filter (overdueItem today)).map (daysPast today)) := by
  have unrestricted : ¬ JobScope.all.isEmpty = true := by decide
  rw [delays, if_neg unrestricted, select_delayListed]
  have days := filterMap_total fun item => @delayRow_late db scope today supervisor item
  rw [← days]
  exact (List.perm_insertionSort _ _).map _

end Delays

/- The figures of one supervisor. -/

section Figures
variable {db : Db} {scope : CompanyId} {today : Date} {range : ReportRange} {user : UserRow}

/-- What is on time or late is among what is counted. -/
structure CountsWithin (db : Db) (c : SupervisorCounts) : Prop where
  started : 0 ≤ c.startedOnTime ∧ c.startedOnTime ≤ c.startedTasks ∧ c.startedTasks ≤ c.totalTasks
  finished : 0 ≤ c.finishedOnTime ∧ c.finishedOnTime ≤ c.finishedTasks ∧ c.finishedTasks ≤ c.totalTasks
  delayed : 0 ≤ c.delayedTasks ∧ c.delayedTasks ≤ c.totalTasks
  total : c.totalTasks ≤ db.callForward.rows.length
  entries : 0 ≤ c.diaryEntries

theorem counts_within : CountsWithin db (supervisorCountsOf db scope range today user) := by
  have part {p q : CallForwardRow → Bool} (narrow : ∀ item, p item = true → q item = true) :
      (supItems db scope user.id).countP p ≤ (supItems db scope user.id).countP q :=
    List.countP_mono_left fun item _ => narrow item
  have all (p : CallForwardRow → Bool) : (supItems db scope user.id).countP p ≤ (supItems db scope user.id).length :=
    List.countP_le_length
  have started := part (p := startedOnTime) (q := startedPlanned) fun item on => (Bool.and_eq_true_iff.mp on).1
  have finished := part (p := finishedOnTime) (q := finishedPlanned) fun item on => (Bool.and_eq_true_iff.mp on).1
  have late := List.length_filter_le (overdueItem today) (supItems db scope user.id)
  have rows : (supItems db scope user.id).length ≤ db.callForward.rows.length := List.length_filter_le _ _
  constructor <;> simp only [supervisorCountsOf] <;> grind

theorem rate_within {part whole rate : Int} (nonneg : 0 ≤ part) (most : part ≤ whole) (few : whole < 2 ^ 43)
    (given : (if whole > 0 then some (percentage part whole) else none) = some rate) : 0 ≤ rate ∧ rate ≤ 100 := by
  split at given
  · cases given
    exact percentage_within nonneg most few
  · cases given

theorem isRate_of {rate : Option Int} (within : ∀ r, rate = some r → 0 ≤ r ∧ r ≤ 100) : IsRate rate := by
  cases rate with
  | none => exact ⟨by decide, by decide⟩
  | some r => exact within r rfl

theorem compliance_within {actual expected rate : Int} (nonneg : 0 ≤ actual)
    (given : diaryCompliance actual expected = some rate) : 0 ≤ rate ∧ rate ≤ 100 := by
  unfold diaryCompliance at given
  split at given
  · cases given
  · cases given
    have least := @percentage_nonneg actual expected nonneg
    omega

/-- The grades of a supervisor. -/
def grades (line : ScoredSupervisor) : List (Option Int) :=
  [line.onTimeStartRate, line.onTimeCompletionRate, line.diaryComplianceRate, some line.performanceScore]

theorem grades_within {c : SupervisorCounts} {line : ScoredSupervisor} (within : CountsWithin db c)
    (few : db.callForward.rows.length < 2 ^ 43) (made : scored c = some line) :
    ∀ grade, some grade ∈ grades line → 0 ≤ grade ∧ grade ≤ 100 := by
  obtain ⟨expected, -, rfl⟩ := Option.map_eq_some_iff.mp made
  obtain ⟨started, finished, delayed, total, entries⟩ := within
  have start (r : Int) := @rate_within _ _ r started.1 started.2.1 (by omega)
  have completion (r : Int) := @rate_within _ _ r finished.1 finished.2.1 (by omega)
  have diary (r : Int) := @compliance_within _ expected r entries
  intro grade member
  simp only [grades, List.mem_cons, List.not_mem_nil, or_false] at member
  obtain same | same | same | same := member
  · exact start grade same.symm
  · exact completion grade same.symm
  · exact diary grade same.symm
  · cases same
    exact score_within (isRate_of completion) (isRate_of start) (isRate_of diary) delayed.1 delayed.2 (by omega)

end Figures

theorem mapM_mem {α β : Type} {f : α → Option β} {list : List α} {made : List β} {b : β}
    (all : list.mapM f = some made) (member : b ∈ made) : ∃ a ∈ list, f a = some b := by
  induction list generalizing made with
  | nil =>
    cases all
    cases member
  | cons a list ih =>
    simp only [List.mapM_cons, Option.pure_def, Option.bind_eq_bind, Option.bind_eq_some_iff, Option.some.injEq] at all
    obtain ⟨first, there, rest, others, rfl⟩ := all
    rcases List.mem_cons.mp member with rfl | later
    · exact ⟨a, List.mem_cons_self .., there⟩
    · obtain ⟨c, mine, same⟩ := ih others later
      exact ⟨c, List.mem_cons_of_mem _ mine, same⟩

section Report
variable {db : Db} {s : SessionUser} {collation : Text → Text → Bool} {today : Date} {q : ReportQuery}
  {lines : List ScoredSupervisor} {line : ScoredSupervisor}

/-- A line is made of the counts of an active supervisor of the company. -/
theorem line_of (reported : supervisorPerformance db s collation today q = .ok (some lines)) (member : line ∈ lines) :
    ∃ user ∈ db.users.rows, isSupervisor s.principal.companyId q.supervisorId user = true ∧
      scored (supervisorCountsOf db s.principal.companyId q.filter.range today user) = some line := by
  unfold supervisorPerformance at reported
  split at reported
  · cases reported
  · injection reported with made
    obtain ⟨counts, counted, same⟩ := mapM_mem made member
    obtain ⟨user, chosen, rfl⟩ := List.mem_map.mp counted
    obtain ⟨there, active⟩ := Table.mem_select.mp ((List.mem_insertionSort _).mp chosen)
    exact ⟨user, there, active, same⟩

theorem delays_service (everything : s.user.role.seesAllCompanyJobs = true) (supervisor : UserId) :
    ReportsService.delays db s today ⟨none, some supervisor, none, none⟩ =
      .ok ((ReportsStore.delays db s.principal.companyId .all (ofSupervisor supervisor) today).map fun row =>
        ⟨row, Severity.of row.delayDays⟩) := by
  have open' : (ReportRange.mk none none).validate = .ok () := rfl
  simp only [ReportsService.delays, ReportsService.prepare, ReportQuery.filter, open', ReportsService.jobScope, everything,
    if_true]
  rfl

/-- A manager finds in the delays report, filtered by a supervisor, the late tasks this report counts and the days it
    takes the mean of; every grade is a percentage. -/
theorem supervisor_performance_agrees (everything : s.user.role.seesAllCompanyJobs = true)
    (few : db.callForward.rows.length < 2 ^ 43)
    (reported : supervisorPerformance db s collation today q = .ok (some lines)) (member : line ∈ lines) :
    (∃ listed, ReportsService.delays db s today ⟨none, some line.supervisorId, none, none⟩ = .ok listed ∧
      line.delayedTaskCount = listed.length ∧
      line.avgDelayDays = meanDays (listed.map (·.row.delayDays)).sum listed.length) ∧
    ∀ grade, some grade ∈ grades line → 0 ≤ grade ∧ grade ≤ 100 := by
  obtain ⟨user, -, -, made⟩ := line_of reported member
  refine ⟨⟨_, delays_service everything _, ?_⟩, grades_within counts_within few made⟩
  obtain ⟨expected, -, rfl⟩ := Option.map_eq_some_iff.mp made
  have days := @delays_perm db s.principal.companyId today user.id
  have count := days.length_eq
  have total := days.sum_eq
  simp only [List.length_map] at count
  simp only [supervisorCountsOf, List.length_map, List.map_map, Function.comp_def, count]
  exact ⟨trivial, by rw [← total]⟩

end Report

/- A range in two parts. -/

section Ranges
variable {db : Db} {scope : CompanyId} {today : Date} {user : UserRow} {first last : Option Date}

/-- The weekdays of a window. -/
def windowDays (window : Date × Date) : Int :=
  weekdaysBefore (max window.1 (window.2 + 1)) - weekdaysBefore window.1

theorem workingDays_window {start finish : Int} (low : dateMin ≤ start) (bounded : finish < dateMax) :
    workingDays start finish = some (windowDays (start, finish)) := by
  by_cases ordered : start ≤ finish + 1
  · have later : max start (finish + 1) = finish + 1 := max_eq_right ordered
    rw [workingDays_eq low bounded ordered, windowDays, later]
  · have inverted : finish < start := by omega
    have reached : max start (finish + 1) = start := max_eq_left (by omega)
    rw [workingDays, if_pos inverted, windowDays, reached, Int.sub_self]

theorem windowDays_add {start finish middle : Int} :
    windowDays (start, min finish middle) + windowDays (max start (middle + 1), finish) = windowDays (start, finish) := by
  simp only [windowDays]
  by_cases before : finish ≤ middle
  · have cut : min finish middle = finish := min_eq_left before
    have late : max (max start (middle + 1)) (finish + 1) = max start (middle + 1) := max_eq_left (by omega)
    rw [cut, late]
    omega
  · have cut : min finish middle = middle := min_eq_right (by omega)
    by_cases after : start ≤ middle + 1
    · have turn : max start (middle + 1) = middle + 1 := max_eq_right after
      have late : max (middle + 1) (finish + 1) = max start (finish + 1) := by omega
      rw [cut, turn, late]
      omega
    · have turn : max start (middle + 1) = start := max_eq_left (by omega)
      rw [cut, turn]
      omega

theorem clipped_add (middle : Int) (before : ∀ f ∈ first, f ≤ middle + 1) (after : ∀ t ∈ last, middle ≤ t)
    (window : Date × Date) :
    windowDays (clipped ⟨first, some middle⟩ window) + windowDays (clipped ⟨some (middle + 1), last⟩ window) =
      windowDays (clipped ⟨first, last⟩ window) := by
  have finish : ∀ t ∈ last, min (min window.2 t) middle = min window.2 middle := by
    intro t given
    rw [min_assoc, min_eq_right (after t given)]
  have start : ∀ f ∈ first, max (max window.1 f) (middle + 1) = max window.1 (middle + 1) := by
    intro f given
    rw [max_assoc, max_eq_right (before f given)]
  have add := @windowDays_add (clipped ⟨first, last⟩ window).1 (clipped ⟨first, last⟩ window).2 middle
  cases first <;> cases last <;> simp_all [clipped]

/-- Every date a job starts on is one of the calendar, and there is a day after today. -/
structure Datable (db : Db) (today : Date) : Prop where
  jobs : ∀ job ∈ db.jobs.rows, ∀ start ∈ job.startDate, dateMin ≤ start
  today : today < dateMax

theorem expectedDays_eq {windows : List (Date × Date)}
    (within : ∀ window ∈ windows, dateMin ≤ window.1 ∧ window.2 < dateMax) :
    expectedDays windows = some (windows.map windowDays).sum := by
  induction windows with
  | nil => rfl
  | cons window windows ih =>
    have rest := ih fun w member => within w (List.mem_cons_of_mem _ member)
    obtain ⟨low, bounded⟩ := within window (List.mem_cons_self ..)
    have days := workingDays_window low bounded
    obtain ⟨others, mapped, sum⟩ := Option.map_eq_some_iff.mp rest
    simp [expectedDays, List.mapM_cons, days, mapped, ← sum]

theorem jobWindow_within (datable : Datable db today) :
    ∀ window ∈ ((supJobs db scope user.id).filterMap (jobWindow today)), dateMin ≤ window.1 ∧ window.2 < dateMax := by
  intro window member
  obtain ⟨job, mine, made⟩ := List.mem_filterMap.mp member
  have there := (Table.mem_select.mp mine).1
  unfold jobWindow at made
  split at made
  · obtain ⟨start, dated, rfl⟩ := Option.map_eq_some_iff.mp made
    exact ⟨datable.jobs job there start dated, lt_of_le_of_lt (min_le_right _ _) datable.today⟩
  · cases made

theorem clipped_within {range : ReportRange} {window : Date × Date} (low : dateMin ≤ window.1)
    (bounded : window.2 < dateMax) : dateMin ≤ (clipped range window).1 ∧ (clipped range window).2 < dateMax := by
  constructor
  · cases given : range.start with
    | none => simpa [clipped, given] using low
    | some f => simpa [clipped, given] using Or.inl low
  · cases given : range.finish with
    | none => simpa [clipped, given] using bounded
    | some t => simpa [clipped, given] using Or.inl bounded

/-- The working days an entry is expected on. -/
def expectedOf (db : Db) (scope : CompanyId) (today : Date) (user : UserRow) (range : ReportRange) : Int :=
  (((supJobs db scope user.id).filterMap (jobWindow today)).map fun window => windowDays (clipped range window)).sum

theorem expectedDays_counts (datable : Datable db today) (range : ReportRange) :
    expectedDays (supervisorCountsOf db scope range today user).jobWindows =
      some (expectedOf db scope today user range) := by
  have within := @jobWindow_within db scope today user datable
  simp only [supervisorCountsOf]
  rw [expectedDays_eq, List.map_map]
  · rfl
  · intro window member
    obtain ⟨uncut, mine, rfl⟩ := List.mem_map.mp member
    exact clipped_within (within uncut mine).1 (within uncut mine).2

theorem expectedOf_add (middle : Int) (before : ∀ f ∈ first, f ≤ middle + 1) (after : ∀ t ∈ last, middle ≤ t) :
    expectedOf db scope today user ⟨first, some middle⟩ + expectedOf db scope today user ⟨some (middle + 1), last⟩ =
      expectedOf db scope today user ⟨first, last⟩ := by
  unfold expectedOf
  induction (supJobs db scope user.id).filterMap (jobWindow today) with
  | nil => rfl
  | cons window windows ih =>
    have add := clipped_add middle before after window
    simp only [List.map_cons, List.sum_cons]
    omega

theorem mem_diaryDays {range : ReportRange} {day : JobId × Date} {supervisor : UserId} :
    day ∈ diaryDays db scope supervisor range ↔ ∃ entry ∈ db.siteDiary.rows,
      (db.jobs.reach (·.companyId = scope) entry.jobId).any (supervises db supervisor) = true ∧
      (∀ f ∈ range.start, f ≤ entry.date) ∧ (∀ t ∈ range.finish, entry.date ≤ t) ∧ (entry.jobId, entry.date) = day := by
  simp only [diaryDays, List.mem_dedup, List.mem_map, Table.mem_select, Bool.and_eq_true, Option.all_eq_true,
    decide_eq_true_eq, Option.mem_def, and_assoc]

theorem diaryDays_add (middle : Int) (before : ∀ f ∈ first, f ≤ middle + 1) (after : ∀ t ∈ last, middle ≤ t)
    (supervisor : UserId) :
    (diaryDays db scope supervisor ⟨first, some middle⟩).length +
      (diaryDays db scope supervisor ⟨some (middle + 1), last⟩).length =
        (diaryDays db scope supervisor ⟨first, last⟩).length := by
  rw [← List.length_append]
  apply List.Perm.length_eq
  have once (range : ReportRange) : (diaryDays db scope supervisor range).Nodup := List.nodup_dedup _
  rw [List.perm_ext_iff_of_nodup _ (once _)]
  · intro day
    simp only [List.mem_append, mem_diaryDays, Option.mem_def, Option.some.injEq, forall_eq']
    constructor
    · rintro (⟨entry, there, mine, least, most, rfl⟩ | ⟨entry, there, mine, least, most, rfl⟩)
      · exact ⟨entry, there, mine, least, fun t given => le_trans most (after t given), rfl⟩
      · exact ⟨entry, there, mine, fun f given => le_trans (before f given) least, most, rfl⟩
    · intro ⟨entry, there, mine, least, most, same⟩
      rcases Int.lt_or_le middle entry.date with late | early
      · exact .inr ⟨entry, there, mine, late, most, same⟩
      · exact .inl ⟨entry, there, mine, least, early, same⟩
  · rw [List.nodup_append]
    refine ⟨once _, once _, ?_⟩
    intro one earlier other later same
    obtain ⟨entry, -, -, -, early, rfl⟩ := mem_diaryDays.mp earlier
    obtain ⟨entry', -, -, late, -, rfl⟩ := mem_diaryDays.mp later
    have date := (Prod.mk.inj same).2
    have most : entry.date ≤ middle := early middle rfl
    have least : middle + 1 ≤ entry'.date := late (middle + 1) rfl
    rw [← date] at least
    exact absurd (lt_of_lt_of_le (Int.lt_succ middle) least) (not_lt.mpr most)

theorem roundDiv_le {a b c d : Int} (nonneg : 0 ≤ a) (nonneg' : 0 ≤ c) (positive : 0 < b) (positive' : 0 < d)
    (le : a * d ≤ c * b) : roundDiv a b ≤ roundDiv c d := by
  have least := (roundDiv_bounds nonneg positive).1
  generalize roundDiv a b = r at least
  have scaled : b * (d * (2 * r - 1)) ≤ b * (2 * c) := by
    have product := Int.mul_le_mul_of_nonneg_left least positive'.le
    calc b * (d * (2 * r - 1)) = d * (b * (2 * r - 1)) := by ring
      _ ≤ d * (2 * a) := product
      _ = 2 * (a * d) := by ring
      _ ≤ 2 * (c * b) := by omega
      _ = b * (2 * c) := by ring
  have share := Int.le_of_mul_le_mul_left scaled positive
  rw [roundDiv, Int.tdiv_eq_ediv_of_nonneg (by omega), Int.le_ediv_iff_mul_le (by omega)]
  linarith

/-- A share of two sums lies between the shares of the summands. -/
theorem compliance_between {a b c d x y : Int} (nonneg : 0 ≤ a) (nonneg' : 0 ≤ c) (small : 300 * (a + c) + (b + d) < 2 ^ 52)
    (left : diaryCompliance a b = some x) (right : diaryCompliance c d = some y) :
    ∃ z, diaryCompliance (a + c) (b + d) = some z ∧ min x y ≤ z ∧ z ≤ max x y := by
  unfold diaryCompliance at left right ⊢
  split at left
  · cases left
  split at right
  · cases right
  next positive positive' =>
  rw [percentage_eq_completionPct nonneg (by omega), CompletionPct.completionPct_eq (by omega)] at left
  rw [percentage_eq_completionPct nonneg' (by omega), CompletionPct.completionPct_eq (by omega)] at right
  rw [if_neg (by omega), percentage_eq_completionPct (by omega) small, CompletionPct.completionPct_eq (by omega)]
  have between {p q r t : Int} (some : 0 ≤ p) (some' : 0 ≤ r) (positive₁ : 0 < q) (positive₂ : 0 < t) (le : p * t ≤ r * q) :
      roundDiv (100 * p) q ≤ roundDiv (100 * r) t :=
    roundDiv_le (by omega) (by omega) positive₁ positive₂ (by linarith)
  refine ⟨_, rfl, ?_⟩
  rcases Int.le_total (a * d) (c * b) with le | ge
  · have low := @between a b (a + c) (b + d) nonneg (by omega) (by omega) (by omega) (by linarith)
    have high := @between (a + c) (b + d) c d (by omega) nonneg' (by omega) (by omega) (by linarith)
    grind
  · have low := @between c d (a + c) (b + d) nonneg' (by omega) (by omega) (by omega) (by linarith)
    have high := @between (a + c) (b + d) a b (by omega) nonneg (by omega) (by omega) (by linarith)
    grind

theorem scored_rate {c : SupervisorCounts} {expected : Int} (days : expectedDays c.jobWindows = some expected) :
    ∃ line, scored c = some line ∧ line.diaryComplianceRate = diaryCompliance c.diaryEntries expected := by
  rw [scored, days]
  exact ⟨_, rfl, rfl⟩

theorem scored_counts (datable : Datable db today) (range : ReportRange) :
    ∃ line, scored (supervisorCountsOf db scope range today user) = some line ∧ line.diaryComplianceRate =
      diaryCompliance (diaryDays db scope user.id range).length (expectedOf db scope today user range) :=
  scored_rate (expectedDays_counts datable range)

/-- A range is split on a day: what is counted of the diary and of the working days is shared out between the parts, and
    the compliance of the whole lies between theirs. -/
theorem diary_compliance_splits (middle : Int) (datable : Datable db today) (before : ∀ f ∈ first, f ≤ middle + 1)
    (after : ∀ t ∈ last, middle ≤ t) (small : 300 * ((diaryDays db scope user.id ⟨first, last⟩).length : Int) +
      expectedOf db scope today user ⟨first, last⟩ < 2 ^ 52) :
    ∃ early late whole,
      scored (supervisorCountsOf db scope ⟨first, some middle⟩ today user) = some early ∧
      scored (supervisorCountsOf db scope ⟨some (middle + 1), last⟩ today user) = some late ∧
      scored (supervisorCountsOf db scope ⟨first, last⟩ today user) = some whole ∧
      (supervisorCountsOf db scope ⟨first, last⟩ today user).diaryEntries =
        (supervisorCountsOf db scope ⟨first, some middle⟩ today user).diaryEntries +
          (supervisorCountsOf db scope ⟨some (middle + 1), last⟩ today user).diaryEntries ∧
      (∃ a b, expectedDays (supervisorCountsOf db scope ⟨first, some middle⟩ today user).jobWindows = some a ∧
        expectedDays (supervisorCountsOf db scope ⟨some (middle + 1), last⟩ today user).jobWindows = some b ∧
        expectedDays (supervisorCountsOf db scope ⟨first, last⟩ today user).jobWindows = some (a + b)) ∧
      ∀ x y, early.diaryComplianceRate = some x → late.diaryComplianceRate = some y →
        ∃ z, whole.diaryComplianceRate = some z ∧ min x y ≤ z ∧ z ≤ max x y := by
  obtain ⟨early, madeEarly, rateEarly⟩ := @scored_counts db scope today user datable ⟨first, some middle⟩
  obtain ⟨late, madeLate, rateLate⟩ := @scored_counts db scope today user datable ⟨some (middle + 1), last⟩
  obtain ⟨whole, madeWhole, rateWhole⟩ := @scored_counts db scope today user datable ⟨first, last⟩
  have entries := @diaryDays_add db scope first last middle before after user.id
  have expected := @expectedOf_add db scope today user first last middle before after
  refine ⟨early, late, whole, madeEarly, madeLate, madeWhole, ?_, ⟨_, _, expectedDays_counts datable _,
    expectedDays_counts datable _, ?_⟩, ?_⟩
  · simp only [supervisorCountsOf]
    omega
  · rw [expectedDays_counts datable, expected]
  · intro x y left right
    rw [rateEarly] at left
    rw [rateLate] at right
    rw [← entries, ← expected, Int.natCast_add] at small
    rw [rateWhole, ← entries, ← expected, Int.natCast_add]
    exact compliance_between (Int.natCast_nonneg _) (Int.natCast_nonneg _) small left right

end Ranges

/- Sam supervises a job from Thursday 1 to Wednesday 7 January 1970, keeps the diary on three of its days and is late with
   its frame. -/

def sam : UserRow := .plain 4 1 (text "Sam") (text "sam@example.com") (text "SUPERVISOR") (Eq.refl true)

def samsJob : JobRow :=
  ⟨1, 1, [], text "J1", text "Smith", none, none, text "1 St", .active, some 0, some 6, none, some 4, none, none, none, none,
    none, 0, 0⟩

def samsSite : Db :=
  { Db.empty with
    users := .of [sam] 5 (Eq.refl true)
    jobs := .of [samsJob] 2 (Eq.refl true)
    siteDiary := .of [⟨1, 1, some 4, 0, [], none, none⟩, ⟨2, 1, some 4, 1, [], none, none⟩, ⟨3, 1, some 4, 1, [], none, none⟩,
      ⟨4, 1, some 4, 4, [], none, none⟩] 5 (Eq.refl true)
    callForward := .of [⟨1, 1, text "Frame", .task, none, none, some 3, none, none, .inProgress, none, 0, none, 0, 0⟩]
      2 (Eq.refl true) }

theorem samsSite_datable : Datable samsSite 20 where
  jobs job member start given := by
    have one : job = samsJob := List.mem_singleton.mp member
    subst one
    cases given
    decide
  today := by decide

/-- Two days of two, one of three, and three of five. -/
theorem sam_keeps_the_diary : ∃ early late whole,
    scored (supervisorCountsOf samsSite 1 ⟨some 0, some 1⟩ 20 sam) = some early ∧
    scored (supervisorCountsOf samsSite 1 ⟨some 2, none⟩ 20 sam) = some late ∧
    scored (supervisorCountsOf samsSite 1 ⟨some 0, none⟩ 20 sam) = some whole ∧
    (supervisorCountsOf samsSite 1 ⟨some 0, none⟩ 20 sam).diaryEntries = 3 ∧
    ∀ x y, early.diaryComplianceRate = some x → late.diaryComplianceRate = some y →
      ∃ z, whole.diaryComplianceRate = some z ∧ min x y ≤ z ∧ z ≤ max x y := by
  obtain ⟨early, late, whole, madeEarly, madeLate, madeWhole, -, -, between⟩ :=
    @diary_compliance_splits samsSite 1 20 sam (some 0) none 1 samsSite_datable (by decide) (by decide) (by decide)
  exact ⟨early, late, whole, madeEarly, madeLate, madeWhole, by decide, between⟩

def sarah : SessionUser :=
  ⟨⟨7, 1, text "Sarah", text "sarah@example.com", .manager, none, true, none⟩, ⟨7, 1, .manager⟩, [], ⟨true, true, true, none⟩⟩

theorem sams_figures : (∃ listed, ReportsService.delays samsSite sarah 20
      ⟨none, some sam.id, none, none⟩ = .ok listed ∧ listed.length = 1) ∧
    ∃ line, supervisorPerformance samsSite sarah (fun _ _ => true) 20
      ⟨none, none, none, none⟩ = .ok (some [line]) ∧ ∀ grade, some grade ∈ grades line → 0 ≤ grade ∧ grade ≤ 100 := by
  obtain ⟨line, made, -⟩ := @scored_counts samsSite 1 20 sam samsSite_datable ⟨none, none⟩
  have reported : supervisorPerformance samsSite sarah (fun _ _ => true) 20
      ⟨none, none, none, none⟩ = .ok (some [line]) := by
    have one : supervisorCounts samsSite 1 (fun _ _ => true) ⟨none, none, none, none⟩ 20 =
        [supervisorCountsOf samsSite 1 ⟨none, none⟩ 20 sam] := by decide
    have lines : ([supervisorCountsOf samsSite 1 ⟨none, none⟩ 20 sam]).mapM scored = some [line] := by simp [made]
    rw [← one] at lines
    exact congrArg Except.ok lines
  obtain ⟨⟨listed, served, count, -⟩, within⟩ :=
    supervisor_performance_agrees rfl (by decide) reported (List.mem_singleton_self line)
  have named : line.supervisorId = sam.id ∧ line.delayedTaskCount = 1 := by
    obtain ⟨expected, -, rfl⟩ := Option.map_eq_some_iff.mp made
    have one : (supervisorCountsOf samsSite 1 ⟨none, none⟩ 20 sam).delayedTasks = 1 := by decide
    exact ⟨rfl, one⟩
  rw [named.1] at served
  exact ⟨⟨listed, served, by omega⟩, line, reported, within⟩

end SupervisorPerformance
