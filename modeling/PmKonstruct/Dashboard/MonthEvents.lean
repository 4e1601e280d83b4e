import PmKonstruct.CallForward.Item
import PmKonstruct.Dashboard.CalendarService

/- What the calendar of a month shows. An item is on it when the month lies between the months of its two ends, and a job
   without a start date is on none. -/
namespace MonthEvents
open PlainText DecimalText DomainErrors Accounts CalendarDate Schema KeyedTable RowSecurity Dashboard Calendar CalendarService
open DashboardService (Clock jobScope)
open AuthService (SessionUser)
open CallForwardItem (CallForwardInput inverted)

/- Jobs. -/

def unfiltered : CalendarFilter := ⟨none, none⟩

def Listed (db : Db) (scope : CompanyId) (jobs : JobScope) (window : MonthWindow) (job : JobRow) : Prop :=
  ∃ row ∈ jobsInWindow db scope jobs window unfiltered, row.id = job.id

/-- Some day of the window lies between the dates of the job, of which a missing one is no bound. -/
def Meets (window : MonthWindow) (job : JobRow) : Prop :=
  ∃ day, (∀ start, job.startDate = some start → start ≤ day) ∧ (∀ finish, job.endDate = some finish → day ≤ finish) ∧
    window.first ≤ day ∧ day ≤ window.last

section Jobs
variable {db : Db} {scope : CompanyId} {jobs : JobScope} {window : MonthWindow} {job : JobRow}

theorem served_of_covers {id : JobId} (covered : jobs.covers id = true) : jobs.isEmpty = false := by
  by_contra empty
  rw [covers_of_isEmpty (by simpa using empty)] at covered
  cases covered

theorem listed_iff (there : job ∈ db.jobs.rows) (owned : job.companyId = scope) (covered : jobs.covers job.id = true) :
    Listed db scope jobs window job ↔ jobMeets window job = true := by
  rw [Listed, jobsInWindow, served_of_covers covered, if_neg Bool.false_ne_true]
  constructor
  · rintro ⟨row, listed, same⟩
    obtain ⟨other, selected, rfl⟩ := List.mem_map.mp listed
    obtain ⟨member, kept⟩ := Table.mem_select.mp selected
    obtain rfl : other = job := Table.key_inj member there same
    simp only [Bool.and_eq_true] at kept
    exact kept.1.1.1.2
  · intro meets
    refine ⟨_, List.mem_map_of_mem (Table.mem_select.mpr ⟨there, ?_⟩), rfl⟩
    simp [owned, meets, covered, unfiltered, supervisedBy]

theorem meets_iff (ordered : window.first ≤ window.last) : Meets window job ↔
    (∀ start, job.startDate = some start → start ≤ window.last) ∧
      (∀ finish, job.endDate = some finish → window.first ≤ finish) ∧
        ∀ start finish, job.startDate = some start → job.endDate = some finish → start ≤ finish := by
  constructor
  · rintro ⟨day, after, before, low, high⟩
    exact ⟨fun start begun => Int.le_trans (after start begun) high,
      fun finish ended => Int.le_trans low (before finish ended),
      fun start finish begun ended => Int.le_trans (after start begun) (before finish ended)⟩
  · rintro ⟨early, late, apart⟩
    cases begun : job.startDate with
    | none =>
      refine ⟨window.first, fun start other => ?_, late, Int.le_refl _, ordered⟩
      rw [begun] at other
      cases other
    | some start =>
      refine ⟨max start window.first, fun other same => ?_, fun finish ended => ?_, Int.le_max_right _ _,
        Int.max_le.mpr ⟨early start begun, ordered⟩⟩
      · rw [begun] at same
        cases same
        exact Int.le_max_left _ _
      · exact Int.max_le.mpr ⟨apart start finish begun ended, late finish ended⟩

theorem forall_both {a b : Date} {P : Date → Date → Prop} : (∀ x y, a = x → b = y → P x y) ↔ P a b :=
  ⟨fun all => all a b rfl rfl, fun here _ _ left right => left ▸ right ▸ here⟩

/-- The start date decides: a job without one is never listed, whatever it ought to meet. -/
theorem jobs_agree_iff (there : job ∈ db.jobs.rows) (owned : job.companyId = scope)
    (covered : jobs.covers job.id = true) (ordered : window.first ≤ window.last) :
    (Listed db scope jobs window job ↔ Meets window job) ↔
      (job.startDate = none → ∃ finish, job.endDate = some finish ∧ finish < window.first) ∧
        ∀ start finish, job.startDate = some start → job.endDate = some finish → finish < start →
          window.last < start ∨ finish < window.first := by
  rw [listed_iff there owned covered, meets_iff ordered, jobMeets]
  cases job.startDate with
  | none =>
    cases job.endDate with
    | none => simp
    | some finish => simp
  | some start =>
    cases job.endDate with
    | none => simp
    | some finish =>
      simp only [Option.any_some, Option.isNone_some, Bool.or_false, Bool.and_eq_true, decide_eq_true_eq,
        Option.some.injEq, forall_eq', forall_both, reduceCtorEq, false_implies, true_and]
      by_cases apart : start ≤ finish
      · have : ¬ finish < start := Int.not_lt.mpr apart
        tauto
      · have : finish < start := Int.not_le.mp apart
        have early : start ≤ window.last ↔ ¬ window.last < start := Int.not_lt.symm
        have late : window.first ≤ finish ↔ ¬ finish < window.first := Int.not_lt.symm
        tauto

end Jobs

/- A company with one job that has been given no dates yet. -/

def undated : JobRow :=
  ⟨1, 1, text "House", text "J1", text "Smith", none, none, text "1 St", .active, none, none, none, none, none, none, none,
    none, none, 0, 0⟩

def oneJob : Db := { Db.empty with jobs := ⟨[undated], 2, by decide, by decide⟩ }

def february : MonthWindow := ⟨20485, 20512⟩

theorem undated_unlisted : ¬ (Listed oneJob 1 .all february undated ↔ Meets february undated) := by
  intro agrees
  have there : undated ∈ oneJob.jobs.rows := List.mem_cons_self
  have ordered : february.first ≤ february.last := by decide
  obtain ⟨finish, ends, -⟩ := ((jobs_agree_iff there rfl rfl ordered).mp agrees).1 rfl
  cases ends

def begun : JobRow := { undated with startDate := some 20500 }

def oneBegun : Db := { Db.empty with jobs := ⟨[begun], 2, by decide, by decide⟩ }

/-- With a start date it is listed in the month it starts in, as it should be. -/
theorem begun_listed : (Listed oneBegun 1 .all february begun ↔ Meets february begun) ∧
    Listed oneBegun 1 .all february begun := by
  have there : begun ∈ oneBegun.jobs.rows := List.mem_cons_self
  have ordered : february.first ≤ february.last := by decide
  have agrees : Listed oneBegun 1 .all february begun ↔ Meets february begun :=
    (jobs_agree_iff there rfl rfl ordered).mpr ⟨fun absent => (nomatch absent), fun _ _ _ absent => (nomatch absent)⟩
  exact ⟨agrees, (listed_iff there rfl rfl).mpr (by decide)⟩

/- Items. -/

def monthQuery (month : Text) : CalendarQuery := ⟨some month, false, none, none, none⟩

/-- The event stands for the item. -/
def Draws (item : CallForwardRow) (event : CalendarEvent) : Prop :=
  kindType event.kind = some item.itemType ∧ event.id = eventId event.kind.asStr item.id

def Shown (db : Db) (clock : Clock) (s : SessionUser) (month : Text) (item : CallForwardRow) : Prop :=
  ∃ events, calendar db clock s (monthQuery month) = .ok events ∧ ∃ event ∈ events, Draws item event

/-- There is a request for the month that contains the day, and it shows the item. -/
def ShownOn (db : Db) (clock : Clock) (s : SessionUser) (day : Date) (item : CallForwardRow) : Prop :=
  ∃ month window, MonthWindow.parse month = .ok window ∧ (window.first ≤ day ∧ day ≤ window.last) ∧
    Shown db clock s month item

/-- The item has the dates of the input. -/
structure Dates (input : CallForwardInput) (item : CallForwardRow) : Prop where
  estStart : item.estStart = input.estStart
  estFinish : item.estFinish = input.estFinish
  actualStart : item.actualStart = input.actualStart
  actualFinish : item.actualFinish = input.actualFinish

/-- The two pairs of dates that the check leaves open: an actual start before an estimated finish, and an estimated start
    before an actual finish. -/
def MonthsInOrder (item : CallForwardRow) : Prop :=
  (∀ start finish, item.actualStart = some start → item.actualFinish = none → item.estFinish = some finish →
    monthIndex start ≤ monthIndex finish) ∧
  ∀ start finish, item.actualStart = none → item.estStart = some start → item.actualFinish = some finish →
    monthIndex start ≤ monthIndex finish

section Items
variable {db : Db} {clock : Clock} {s : SessionUser} {window : MonthWindow} {item : CallForwardRow}

theorem calendar_month {month : Text} (parsed : MonthWindow.parse month = .ok window) :
    calendar db clock s (monthQuery month) = .ok (eventsOf db s none window unfiltered) := by
  rw [calendar, monthQuery, windowOf, if_neg Bool.false_ne_true]
  simp only [parsed, EventKind.parseFilter, Option.map_none]
  rfl

theorem effectiveRange_eq {start finish : Date} :
    effectiveRange item.actualStart item.estStart item.actualFinish item.estFinish = some (start, finish) ↔
      effectiveStart item = some start ∧ effectiveFinish item = some finish := by
  rw [effectiveRange, effectiveStart, effectiveFinish]
  simp [Option.bind_eq_some_iff]

/-- Both ends are there as soon as one date is. -/
theorem itemEvent_isSome {kind : EventKind} {pre : Text} {job : JobRow} {scope : CompanyId}
    (meets : itemMeets window item = true) :
    ∃ event, itemEvent kind pre (calendarItemRow db scope item job) = some event ∧ event.kind = kind ∧
      event.id = eventId pre item.id := by
  rw [itemMeets, Bool.and_eq_true, Option.any_eq_true, Option.any_eq_true] at meets
  obtain ⟨⟨start, begins, -⟩, finish, ends, -⟩ := meets
  have range := effectiveRange_eq.mpr ⟨begins, ends⟩
  refine ⟨_, by rw [itemEvent, calendarItemRow, range]; rfl, rfl, rfl⟩

theorem mem_itemsInWindow {kind : EventKind} {row : CalendarItemRow}
    (listed : row ∈ itemsInWindow db s.principal.companyId (jobScope db s) window unfiltered kind) :
    ∃ other ∈ db.callForward.rows, kindType kind = some other.itemType ∧ itemMeets window other = true ∧
      row.id = other.id := by
  rw [itemsInWindow] at listed
  split at listed
  · cases listed
  · split at listed
    · cases listed
    · next itemType named =>
      obtain ⟨other, selected, joined⟩ := List.mem_filterMap.mp listed
      obtain ⟨member, kept⟩ := Table.mem_select.mp selected
      simp only [Bool.and_eq_true, decide_eq_true_eq] at kept
      obtain ⟨job, -, rfl⟩ := Option.map_eq_some_iff.mp joined
      exact ⟨other, member, by rw [named, kept.1.1.1.2], kept.1.1.2, rfl⟩

theorem covers_of_sees {job : JobId} (sees : SeesJob db s job) : (jobScope db s).covers job = true := by
  obtain ⟨row, found, owned, opened⟩ := sees
  rw [jobScope]
  split
  · rfl
  · next closed =>
    rw [Bool.eq_false_of_not_eq_true closed, Bool.false_or] at opened
    have listed := mem_visibleJobIds.mpr ⟨row, found, owned, opened⟩
    simp [JobScope.covers, JobScope.ids, listed]

/-- The query and the shaping after it show an item exactly when its dates meet the window. -/
theorem drawn_iff (there : item ∈ db.callForward.rows) (sees : SeesJob db s item.jobId)
    (work : item.itemType ≠ .header) :
    (∃ event ∈ eventsOf db s none window unfiltered, Draws item event) ↔ itemMeets window item = true := by
  constructor
  · rintro ⟨event, listed, kind, id⟩
    rcases List.mem_append.mp listed with job | work
    · obtain ⟨row, -, rfl⟩ := List.mem_map.mp job
      cases kind
    · obtain ⟨⟨k, pre⟩, named, drawn⟩ := List.mem_flatMap.mp work
      obtain ⟨row, within, shaped⟩ := List.mem_filterMap.mp drawn
      obtain ⟨other, member, type, meets, same⟩ := mem_itemsInWindow within
      obtain ⟨range, -, rfl⟩ := Option.map_eq_some_iff.mp shaped
      have own : pre = k.asStr := by
        simp only [List.mem_cons, List.not_mem_nil, or_false, Prod.mk.injEq] at named
        rcases named with ⟨rfl, rfl⟩ | ⟨rfl, rfl⟩ <;> rfl
      have ids : row.id = item.id := by
        subst own
        have tail := List.append_cancel_left id
        exact decimal_injective (List.cons.inj tail).2
      rw [← Table.key_inj member there (same.symm.trans ids)]
      exact meets
  · intro meets
    have covered := covers_of_sees sees
    obtain ⟨job, found, owned, -⟩ := sees
    have inScope : jobInScope db s.principal.companyId item.jobId = true := jobInScope_iff.mpr ⟨job, found, owned⟩
    have reached : db.jobs.reach (·.companyId = s.principal.companyId) item.jobId = some job :=
      Table.reach_eq_some_iff.mpr ⟨found, by simpa using owned⟩
    obtain ⟨kind, named, drawn⟩ : ∃ kind, kindType kind = some item.itemType ∧
        (kind, kind.asStr) ∈ [(EventKind.claim, text "claim"), (.task, text "task")] := by
      cases type : item.itemType with
      | header => exact absurd type work
      | stageClaim => exact ⟨.claim, rfl, by decide⟩
      | task => exact ⟨.task, rfl, by decide⟩
    have listed : calendarItemRow db s.principal.companyId item job ∈
        itemsInWindow db s.principal.companyId (jobScope db s) window unfiltered kind := by
      rw [itemsInWindow, served_of_covers covered, if_neg Bool.false_ne_true, named]
      refine List.mem_filterMap.mpr ⟨item, Table.mem_select.mpr ⟨there, ?_⟩, ?_⟩
      · simp [inScope, meets, covered, unfiltered]
      · rw [itemRow, reached]
        rfl
    obtain ⟨event, shaped, own, id⟩ := @itemEvent_isSome db window item kind kind.asStr job s.principal.companyId meets
    refine ⟨event, List.mem_append_right _ (List.mem_flatMap.mpr ⟨_, drawn, ?_⟩), ?_, ?_⟩
    · exact List.mem_filterMap.mpr ⟨_, listed, shaped⟩
    · rw [own, named]
    · rw [own, id]

theorem shown_iff {month : Text} (there : item ∈ db.callForward.rows) (sees : SeesJob db s item.jobId)
    (work : item.itemType ≠ .header) (parsed : MonthWindow.parse month = .ok window) :
    Shown db clock s month item ↔ itemMeets window item = true := by
  rw [Shown, calendar_month parsed, ← drawn_iff there sees work]
  constructor
  · rintro ⟨events, answered, drawn⟩
    cases answered
    exact drawn
  · intro drawn
    exact ⟨_, rfl, drawn⟩

/-- A month shows an item when it lies between the months of its two ends. -/
theorem meets_month_iff {index start finish : Int} (month : window.IsMonth index) (begins : effectiveStart item = some start)
    (ends : effectiveFinish item = some finish) :
    itemMeets window item = true ↔ monthIndex start ≤ index ∧ index ≤ monthIndex finish := by
  rw [itemMeets, begins, ends, Option.any_some, Option.any_some, Bool.and_eq_true, decide_eq_true_eq, decide_eq_true_eq,
    month.first, month.last, monthStart_le_iff, Int.le_sub_one_iff, lt_monthStart_iff, Int.lt_add_one_iff]

/-- The day has a request for its month, and the month lies between those of the ends. -/
theorem shownOn_iff {day start finish : Int} (there : item ∈ db.callForward.rows) (sees : SeesJob db s item.jobId)
    (work : item.itemType ≠ .header) (begins : effectiveStart item = some start)
    (ends : effectiveFinish item = some finish) :
    ShownOn db clock s day item ↔
      HasMonth day ∧ monthIndex start ≤ monthIndex day ∧ monthIndex day ≤ monthIndex finish := by
  constructor
  · rintro ⟨month, window, parsed, within, shown⟩
    obtain ⟨index, low, high, isMonth⟩ := parse_isMonth parsed
    obtain rfl := (IsMonth.contains_iff isMonth).mp within
    exact ⟨⟨low, high⟩, (meets_month_iff isMonth begins ends).mp ((shown_iff there sees work parsed).mp shown)⟩
  · rintro ⟨⟨low, high⟩, between⟩
    obtain ⟨index, counted⟩ := Int.eq_ofNat_of_zero_le low
    obtain ⟨window, parsed, isMonth⟩ := parse_monthText (by rw [← counted]; exact high)
    refine ⟨monthText index, window, parsed, (IsMonth.contains_iff isMonth).mpr counted, ?_⟩
    rw [shown_iff there sees work parsed, meets_month_iff isMonth begins ends, ← counted]
    exact between

theorem validate_dates {input : CallForwardInput} (valid : input.validate = .ok ()) :
    inverted input.estStart input.estFinish = false ∧ inverted input.actualStart input.actualFinish = false := by
  simp only [CallForwardInput.validate] at valid
  split at valid
  · cases valid
  · split at valid
    · cases valid
    · split at valid
      · cases valid
      · split at valid
        · cases valid
        · next estimates =>
          split at valid
          · cases valid
          · next actuals => exact ⟨by simpa using estimates, by simpa using actuals⟩

theorem months_of_not_inverted {start finish : Int} (ordered : inverted (some start) (some finish) = false) :
    monthIndex start ≤ monthIndex finish := by
  refine monthIndex_mono ?_
  have above : ¬ finish < start := by simpa [inverted] using ordered
  omega

/-- Of two ends that the check has compared, the months are in order, and so are those of a single date. -/
theorem monthsInOrder_iff {start finish : Int} (estimates : inverted item.estStart item.estFinish = false)
    (actuals : inverted item.actualStart item.actualFinish = false) (begins : effectiveStart item = some start)
    (ends : effectiveFinish item = some finish) : MonthsInOrder item ↔ monthIndex start ≤ monthIndex finish := by
  rw [effectiveStart] at begins
  rw [effectiveFinish] at ends
  rw [MonthsInOrder]
  cases started : item.actualStart with
  | some actualStart =>
    rw [started] at begins ends actuals
    cases begins
    cases done : item.actualFinish with
    | some actualFinish =>
      rw [done] at ends actuals
      cases ends
      simp [months_of_not_inverted actuals]
    | none =>
      rw [done] at ends
      cases due : item.estFinish with
      | some estFinish =>
        rw [due] at ends
        cases ends
        simp
      | none =>
        rw [due] at ends
        cases ends
        simp
  | none =>
    rw [started] at begins ends
    cases planned : item.estStart with
    | some estStart =>
      rw [planned] at begins ends estimates
      cases begins
      cases done : item.actualFinish with
      | some actualFinish =>
        rw [done] at ends
        cases ends
        simp
      | none =>
        rw [done] at ends
        cases due : item.estFinish with
        | some estFinish =>
          rw [due] at ends estimates
          cases ends
          simp [months_of_not_inverted estimates]
        | none =>
          rw [due] at ends
          cases ends
          simp
    | none =>
      rw [planned] at begins ends
      simp only [Option.or_none, Option.none_or] at begins ends
      rw [begins] at ends
      cases ends
      simp

/-- For every accepted item with a date: both its months show it, and so some month does, exactly when its months are in
    order and can be asked for. -/
theorem item_shown_iff {input : CallForwardInput} (valid : input.validate = .ok ()) (dates : Dates input item)
    (there : item ∈ db.callForward.rows) (sees : SeesJob db s item.jobId) (work : item.itemType ≠ .header)
    {start finish : Int}
    (range : effectiveRange item.actualStart item.estStart item.actualFinish item.estFinish = some (start, finish)) :
    (ShownOn db clock s start item ∧ ShownOn db clock s finish item ∧ ∃ month, Shown db clock s month item) ↔
      MonthsInOrder item ∧ HasMonth start ∧ HasMonth finish := by
  obtain ⟨begins, ends⟩ := effectiveRange_eq.mp range
  obtain ⟨estimates, actuals⟩ := validate_dates valid
  rw [← dates.estStart, ← dates.estFinish] at estimates
  rw [← dates.actualStart, ← dates.actualFinish] at actuals
  rw [monthsInOrder_iff estimates actuals begins ends]
  have first := @shownOn_iff db clock s item start start finish there sees work begins ends
  have last := @shownOn_iff db clock s item finish start finish there sees work begins ends
  constructor
  · rintro ⟨shown, also, -⟩
    exact ⟨(first.mp shown).2.2, (first.mp shown).1, (last.mp also).1⟩
  · rintro ⟨ordered, early, late⟩
    have shown := first.mpr ⟨early, Int.le_refl _, ordered⟩
    obtain ⟨month, window, -, -, drawn⟩ := id shown
    exact ⟨shown, last.mpr ⟨late, ordered, Int.le_refl _⟩, month, drawn⟩

end Items

/- A task estimated for the first week of February. It begins late, and nobody has finished it. -/

def frame (actualStart : Date) : CallForwardInput :=
  ⟨text "Frame", some .task, none, some 20486, some 20490, some actualStart, none, some .inProgress, none, none, none⟩

def frameRow (actualStart : Date) : CallForwardRow :=
  ⟨7, 1, text "Frame", .task, none, some 20486, some 20490, some actualStart, none, .inProgress, none, 0, none, 0, 0⟩

def framing (actualStart : Date) : Db :=
  { oneJob with callForward := ⟨[frameRow actualStart], 8, List.forall_mem_singleton.mpr (show (7 : Int) < 8 by decide),
      List.pairwise_singleton _ _⟩ }

def manager : SessionUser :=
  let user : User := ⟨1, 1, text "Ann", text "ann@example.com", .manager, none, true, none⟩
  ⟨user, user.principal, [], ⟨true, true, true, none⟩⟩

def noon : Clock := ⟨20500 * 86400000000 + 43200000000, 0⟩

theorem manager_sees (actualStart : Date) : SeesJob (framing actualStart) manager 1 := ⟨undated, rfl, rfl, rfl⟩

/-- It begins on the tenth of March, and no month shows it any more. -/
theorem march_start_vanishes : (frame 20522).validate = .ok () ∧
    Dates (frame 20522) (frameRow 20522) ∧ SeesJob (framing 20522) manager (frameRow 20522).jobId ∧
    ∀ clock month, ¬ Shown (framing 20522) clock manager month (frameRow 20522) := by
  refine ⟨by decide, ⟨rfl, rfl, rfl, rfl⟩, manager_sees _, fun clock month shown => ?_⟩
  have there : frameRow 20522 ∈ (framing 20522).callForward.rows := List.mem_cons_self
  have work : (frameRow 20522).itemType ≠ .header := by decide
  have begins : effectiveStart (frameRow 20522) = some 20522 := rfl
  have ends : effectiveFinish (frameRow 20522) = some 20490 := rfl
  cases parsed : MonthWindow.parse month with
  | error e =>
    obtain ⟨events, answered, -⟩ := shown
    simp [calendar, windowOf, monthQuery, EventKind.parseFilter, parsed] at answered
  | ok window =>
    obtain ⟨index, -, -, isMonth⟩ := parse_isMonth parsed
    obtain ⟨after, before⟩ := (meets_month_iff isMonth begins ends).mp
      ((shown_iff there (manager_sees _) work parsed).mp shown)
    have march : monthIndex 20522 = 24314 := by decide
    have february : monthIndex 20490 = 24313 := by decide
    omega

/-- It begins on the tenth of February, after the estimate but in its month. -/
theorem february_start_shown : ShownOn (framing 20494) noon manager 20494 (frameRow 20494) ∧
    ShownOn (framing 20494) noon manager 20490 (frameRow 20494) ∧
    ∃ month, Shown (framing 20494) noon manager month (frameRow 20494) := by
  have valid : (frame 20494).validate = .ok () := by decide
  have there : frameRow 20494 ∈ (framing 20494).callForward.rows := List.mem_cons_self
  have work : (frameRow 20494).itemType ≠ .header := by decide
  refine (item_shown_iff valid ⟨rfl, rfl, rfl, rfl⟩ there (manager_sees _) work rfl).mpr
    ⟨⟨?_, fun _ _ absent => nomatch absent⟩, by decide, by decide⟩
  rintro _ _ ⟨⟩ - ⟨⟩
  decide

end MonthEvents
