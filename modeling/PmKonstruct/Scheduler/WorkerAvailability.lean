import PmKonstruct.Scheduler.AllocationPrograms

/- No worker is booked into an absence that the call could have seen when it looked. What commits between the look and
   the write goes unseen: nothing ties the two tables together. -/
namespace WorkerAvailability
open PlainText DomainErrors Accounts CalendarDate Schema KeyedTable Requests TransitionRuns ReadCommitted AllocationPrograms
open StatementProgram (Program Event getElem?_append_cases getElem?_set_cases)
open AuthService (SessionUser)
open SchedulerStore (AllocationInput Allocation Absence absenceCovering absenceOfRow absences)

/-- An absence of the worker that is stored covers the day, whose company it may be. Both ends belong to it. -/
def Away (stored : Db) (worker : SchedulerWorkerId) (day : Date) : Prop :=
  ∃ a ∈ stored.schedulerAbsences.rows, a.workerId = worker ∧ a.startDate ≤ day ∧ day ≤ a.endDate

/-- The same of the absences a company keeps. -/
def AwayFor (stored : Db) (scope : CompanyId) (worker : SchedulerWorkerId) (day : Date) : Prop :=
  ∃ a ∈ stored.schedulerAbsences.rows, a.companyId = scope ∧ a.workerId = worker ∧ a.startDate ≤ day ∧ day ≤ a.endDate

/-- The row that a statement has written. -/
def booking : Event Statement Answer → Option SchedulerAllocationRow
  | ⟨⟨_, .insert _⟩, .ok row⟩ => some row
  | ⟨⟨_, .update _ _⟩, .ok row⟩ => row
  | _ => none

/-- The call is at the statement that writes the row, and runs it next. -/
def Books (config : Bookings) (i : Nat) (env : Option PortError) (row : SchedulerAllocationRow) : Prop :=
  ∃ tx snapshot statement next, config.transactions[i]? = some tx ∧ tx.phase = .started snapshot statement next ∧
    booking ⟨statement, (execute env config.serial statement snapshot (tx.pending config.committed)).answer⟩ = some row

/-- The call goes on to commit, and the row is stored by then. -/
def Commits (config : Bookings) (i : Nat) (row : SchedulerAllocationRow) : Prop :=
  ∃ later tx result, bookings.machine.Leads config later ∧ later.transactions[i]? = some tx ∧
    tx.phase = .committed result ∧ row ∈ later.committed.schedulerAllocations.rows

/-- Earlier in the run the call has started to look at the absences of some days, with this committed. -/
def LookedAt (config : Bookings) (i : Nat) (scope : CompanyId) (first last : Date) (stored : Db) : Prop :=
  ∃ before opened tx next, bookings.machine.Reachable before ∧ before.transactions[i]? = some tx ∧
    tx.phase = .ready (.stmt ⟨scope, .absences first last⟩ next) ∧ bookings.step before (.start i) = some opened ∧
    bookings.machine.Leads opened config ∧ stored = before.committed

/-- No write commits for a worker and a day that an absence covers which is committed when the row is written. -/
def NeverBookedAway : Prop :=
  ∀ config, bookings.machine.Reachable config → ∀ i env row, Books config i env row → Commits config i row →
    ¬ Away config.committed row.workerId row.assignedDate

/- The look. -/

theorem mem_absences {db : Db} {scope : CompanyId} {first last : Date} {a : SchedulerAbsenceRow}
    (there : a ∈ db.schedulerAbsences.rows) (own : a.companyId = scope) (early : a.startDate ≤ last)
    (late : first ≤ a.endDate) : absenceOfRow a ∈ absences db scope first last := by
  refine List.mem_map_of_mem ((List.perm_insertionSort _ _).mem_iff.mpr (Table.mem_select.mpr ⟨there, ?_⟩))
  simp [own, early, late]

theorem absences_congr {db other : Db} {scope : CompanyId} {first last : Date}
    (same : db.schedulerAbsences = other.schedulerAbsences) :
    absences db scope first last = absences other scope first last := by
  rw [absences, absences, same]

/-- Nobody covers the day among what was read, so nobody does in the store it was read from. -/
theorem not_away_of_look {db : Db} {scope : CompanyId} {worker : SchedulerWorkerId} {day : Date}
    (free : absenceCovering (absences db scope day day) worker day = none) : ¬ AwayFor db scope worker day := by
  rintro ⟨a, there, own, named, early, late⟩
  rw [absenceCovering, Option.map_eq_none_iff, List.find?_eq_none] at free
  refine free (absenceOfRow a) (mem_absences there own early late) ?_
  simp [absenceOfRow, named, early, late]

/- The programs, whatever they are answered. -/

abbrev Trace : Type := List (Event Statement Answer)

def alters : Query → Bool
  | .absence _ => true
  | _ => false

def Free (past : Trace) (scope : CompanyId) (worker : SchedulerWorkerId) (day : Date) : Prop :=
  ∃ seen, (⟨⟨scope, .absences day day⟩, .ok seen⟩ : Event Statement Answer) ∈ past ∧
    absenceCovering seen worker day = none

/-- A write comes after a look that found the worker free, and only an allocation looks. -/
def At (past : Trace) (statement : Statement) : Prop :=
  match statement.query with
  | .absences _ _ => past.any (fun event => alters event.statement.query) = false
  | .insert input => Free past statement.scope input.workerId input.assignedDate
  | .update _ input => Free past statement.scope input.workerId input.assignedDate
  | _ => True

section Programs
variable {s : SessionUser} {past : Trace}

theorem onAbsences_obeys (steps : AbsencePrograms.Steps) : (onAbsences steps).Obeys At (fun _ _ => True) past := by
  induction steps generalizing past with
  | done ending => trivial
  | stmt statement next ih => exact ⟨trivial, fun answer => ih answer⟩

theorem obeys_ask {query : Query} {next : Reply query → Steps} (here : At past ⟨s.principal.companyId, query⟩)
    (later : ∀ reply, (next reply).Obeys At (fun _ _ => True)
      (past ++ [⟨⟨s.principal.companyId, query⟩, .ok reply⟩])) :
    (ask s query next).Obeys At (fun _ _ => True) past := by
  refine ⟨here, fun answer => ?_⟩
  cases answer with
  | error e => trivial
  | ok reply => exact later reply

theorem assertWorkerAvailable_obeys {input : AllocationInput} {next : Steps}
    (unaltered : past.any (fun event => alters event.statement.query) = false)
    (later : ∀ past, Free past s.principal.companyId input.workerId input.assignedDate →
      next.Obeys At (fun _ _ => True) past) :
    (assertWorkerAvailable s input next).Obeys At (fun _ _ => True) past := by
  refine obeys_ask unaltered fun seen => ?_
  split
  · trivial
  · next free => exact later _ ⟨seen, List.mem_append_right _ (List.mem_singleton_self _), free⟩

/-- Whatever the job, the write comes after the look. -/
theorem checked_obeys {input : AllocationInput} {next : Steps}
    (later : ∀ past, Free past s.principal.companyId input.workerId input.assignedDate →
      next.Obeys At (fun _ _ => True) past) : (checked s input next).Obeys At (fun _ _ => True) [] := by
  rw [checked]
  split
  · trivial
  · rw [assertTargetVisible]
    split
    · trivial
    · exact assertWorkerAvailable_obeys rfl later
    · refine obeys_ask trivial fun found => ?_
      cases found with
      | none => trivial
      | some job => exact assertWorkerAvailable_obeys rfl later

theorem program_obeys (request : Request) : request.program.Obeys At (fun _ _ => True) [] := by
  cases request with
  | absence request => exact onAbsences_obeys _
  | create s input => exact checked_obeys fun past free => obeys_ask free fun row => trivial
  | update s id input =>
    refine checked_obeys fun past free => obeys_ask free fun row => ?_
    cases row <;> trivial

end Programs

theorem bookings_obey {config : Bookings} (reached : bookings.machine.Reachable config) :
    ∀ (i : Nat) tx, config.transactions[i]? = some tx → tx.Obeys At fun _ _ => True :=
  transactions_obey (fun _ => At) (fun _ _ _ => True) program_obeys reached

/- What a call has written, and on what grounds. -/

structure Sound (tx : Booking) : Prop where
  unaltered : tx.trace.any (fun event => alters event.statement.query) = false → ∀ db,
    (tx.pending db).schedulerAbsences = db.schedulerAbsences
  writes : ∀ db, ∀ row ∈ (tx.pending db).schedulerAllocations.rows,
    row ∈ db.schedulerAllocations.rows ∨ row ∈ tx.trace.filterMap booking
  free : ∀ row ∈ tx.trace.filterMap booking, Free tx.trace row.companyId row.workerId row.assignedDate

/-- What a statement adds to the allocations, and whether it leaves the absences alone. -/
structure Change (statement : Statement) (answer : Answer statement) (change : Db → Db) : Prop where
  unaltered : alters statement.query = false → ∀ db, (change db).schedulerAbsences = db.schedulerAbsences
  writes : ∀ db, ∀ row ∈ (change db).schedulerAllocations.rows,
    row ∈ db.schedulerAllocations.rows ∨ booking ⟨statement, answer⟩ = some row

theorem change_nothing {statement : Statement} {answer : Answer statement} : Change statement answer fun db => db :=
  ⟨fun _ _ => rfl, fun _ _ there => .inl there⟩

section Effects
variable (snapshot current : Db) (scope : CompanyId)

/-- A statement on the absences leaves the allocations alone. -/
theorem perform_allocations (serial : Int) (query : AbsencePrograms.Query) (db : Db) :
    ((AbsencePrograms.perform snapshot current scope serial query).change db).schedulerAllocations =
      db.schedulerAllocations := by
  cases query with
  | nextId => rfl
  | lockRow id =>
    simp only [AbsencePrograms.perform, AbsencePrograms.lockRow]
    split <;> rfl
  | advisoryLock company worker => rfl
  | selectOverlap new =>
    simp only [AbsencePrograms.perform, AbsencePrograms.selectOverlap]
    split <;> rfl
  | insert new =>
    simp only [AbsencePrograms.perform, AbsencePrograms.insert]
    split <;> rfl
  | update new =>
    simp only [AbsencePrograms.perform, AbsencePrograms.update]
    split <;> rfl
  | delete id =>
    simp only [AbsencePrograms.perform, AbsencePrograms.delete]
    split <;> rfl

theorem insert_changes (serial : Int) (input : AllocationInput) :
    Change ⟨scope, .insert input⟩ (insert current scope serial input).answer
      (insert current scope serial input).change := by
  rw [AllocationPrograms.insert]
  split
  · exact change_nothing
  · refine ⟨fun _ _ => rfl, fun db row there => ?_⟩
    rcases Table.mem_put.mp there with old | rfl
    · exact .inl old.1
    · exact .inr rfl

theorem mem_replace {db : Db} {new row : SchedulerAllocationRow} (there : row ∈ (replace new db).schedulerAllocations.rows) :
    row ∈ db.schedulerAllocations.rows ∨ row = new := by
  obtain ⟨old, before, rfl⟩ := List.mem_map.mp there
  by_cases same : old.id = new.id
  · right
    simp [same]
  · left
    simpa [same] using before

theorem update_changes (id : SchedulerAllocationId) (input : AllocationInput) :
    Change ⟨scope, .update id input⟩ (update snapshot current scope id input).answer
      (update snapshot current scope id input).change := by
  rw [AllocationPrograms.update]
  split
  · exact change_nothing
  · split
    · exact change_nothing
    · refine ⟨fun _ _ => rfl, fun db row there => ?_⟩
      rcases mem_replace there with before | rfl
      · exact .inl before
      · exact .inr rfl

theorem execute_changes (fault : Option PortError) (serial : Int) (statement : Statement) :
    Change statement (execute fault serial statement snapshot current).answer
      (execute fault serial statement snapshot current).change := by
  obtain ⟨scope, query⟩ := statement
  cases fault with
  | some e => exact change_nothing
  | none =>
    cases query with
    | absence query =>
      refine ⟨fun kept => Bool.noConfusion kept, fun db row there => .inl ?_⟩
      simp only [execute, perform, amongAbsences] at there
      rwa [perform_allocations] at there
    | findJob viewer seesAll job => exact change_nothing
    | absences first last => exact change_nothing
    | insert input => exact insert_changes current scope serial input
    | update id input => exact update_changes snapshot current scope id input

/-- Who writes a row has found its worker free on its day. -/
theorem booking_free {past : Trace} {fault : Option PortError} {serial : Int} {statement : Statement}
    {row : SchedulerAllocationRow} (here : At past statement)
    (writes : booking ⟨statement, (execute fault serial statement snapshot current).answer⟩ = some row) :
    Free past row.companyId row.workerId row.assignedDate := by
  obtain ⟨scope, query⟩ := statement
  cases fault with
  | some e => cases query <;> cases writes
  | none =>
    cases query with
    | insert input =>
      simp only [execute, perform, AllocationPrograms.insert] at writes
      split at writes
      · cases writes
      · cases writes
        exact here
    | update id input =>
      simp only [execute, perform, AllocationPrograms.update] at writes
      split at writes
      · cases writes
      · next old located =>
        split at writes
        · cases writes
        · cases writes
          obtain ⟨-, -, reached⟩ := Option.bind_eq_some_iff.mp located
          have own : old.companyId = scope := of_decide_eq_true (Table.reach_eq_some_iff.mp reached).2
          rw [SchedulerStore.changedAllocation, own]
          exact here
    | _ => cases writes

end Effects

theorem Free.append {past more : Trace} {scope : CompanyId} {worker : SchedulerWorkerId} {day : Date}
    (free : Free past scope worker day) : Free (past ++ more) scope worker day := by
  obtain ⟨seen, looked, none⟩ := free
  exact ⟨seen, List.mem_append_left _ looked, none⟩

theorem sound_ran {tx : Booking} {stored snapshot : Db} {statement : Statement} {next : Answer statement → Steps}
    {fault : Option PortError} {serial : Int} (sound : Sound tx) (here : At tx.trace statement) :
    Sound (tx.ran serial next (execute fault serial statement snapshot (tx.pending stored))) := by
  have changes := execute_changes snapshot (tx.pending stored) fault serial statement
  refine ⟨?_, ?_, ?_⟩
  · intro kept db
    rw [Transaction.ran, List.any_append, Bool.or_eq_false_iff] at kept
    have still : alters statement.query = false := by simpa using kept.2
    exact (changes.unaltered still (tx.pending db)).trans (sound.unaltered kept.1 db)
  · intro db row there
    rw [Transaction.filterMap_ran]
    rcases changes.writes (tx.pending db) row there with before | added
    · rcases sound.writes db row before with stored | earlier
      · exact .inl stored
      · exact .inr (List.mem_append_left _ earlier)
    · exact .inr (List.mem_append_right _ (Option.mem_toList.mpr added))
  · intro row booked
    rw [Transaction.filterMap_ran] at booked
    rcases List.mem_append.mp booked with before | added
    · exact (sound.free row before).append
    · exact (booking_free snapshot _ here (Option.mem_toList.mp added)).append

theorem bookings_sound {config : Bookings} (reached : bookings.machine.Reachable config) :
    ∀ (i : Nat) tx, config.transactions[i]? = some tx → Sound tx := by
  apply transactions_keep (fun _ tx => Sound tx) ?_ ?_ ?_ reached
  · intro config request _ _
    exact ⟨fun _ _ => rfl, fun _ _ there => .inl there, fun _ none => absurd none List.not_mem_nil⟩
  · intro config i tx label committed serial later visited _ found acts sound
    have obeys := bookings_obey visited i tx found
    cases acts with
    | start shape => exact ⟨sound.unaltered, sound.writes, sound.free⟩
    | run effect shape runs =>
      rw [Transaction.Obeys, shape] at obeys
      rw [runs]
      exact sound_ran sound obeys.1
    | _ => exact ⟨fun _ _ => rfl, fun _ _ there => .inl there, sound.free⟩
  · intro config i j tx mover result _ _ _ _ _ _ sound _
    exact sound

/- Every look of a run. -/

def Looked (config : Bookings) (i : Nat) (scope : CompanyId) (first last : Date) (seen : List Absence) : Prop :=
  ∃ stored, LookedAt config i scope first last stored ∧ seen = absences stored scope first last

/-- What a call was told about the absences, or is about to be told, it was told of a state the run has been in. -/
structure Remembers (config : Bookings) (i : Nat) (tx : Booking) : Prop where
  told : ∀ scope first last seen,
    (⟨⟨scope, .absences first last⟩, .ok seen⟩ : Event Statement Answer) ∈ tx.trace → Looked config i scope first last seen
  looking : ∀ snapshot scope first last next, tx.phase = .started snapshot ⟨scope, .absences first last⟩ next →
    Looked config i scope first last (absences snapshot scope first last)

section Runs
variable {config after : Bookings} {i : Nat} {tx : Booking} {scope : CompanyId} {first last : Date} {seen : List Absence}

theorem looked_later {label : Label Request (Option PortError)} (looked : Looked config i scope first last seen)
    (step : bookings.step config label = some after) : Looked after i scope first last seen := by
  obtain ⟨stored, ⟨before, opened, tx, next, visited, found, shape, starts, leads, same⟩, told⟩ := looked
  exact ⟨stored, ⟨before, opened, tx, next, visited, found, shape, starts, leads.tail ⟨label, rfl, step⟩, same⟩, told⟩

theorem remembers_later {label : Label Request (Option PortError)} (remembers : Remembers config i tx)
    (step : bookings.step config label = some after) : Remembers after i tx :=
  ⟨fun scope first last seen told => looked_later (remembers.told scope first last seen told) step,
    fun snapshot scope first last next shape =>
      looked_later (remembers.looking snapshot scope first last next shape) step⟩

/-- Before it writes, a call sees the absences as they are committed. -/
theorem looked_start {next : Answer ⟨scope, .absences first last⟩ → Steps}
    (reached : bookings.machine.Reachable config) (found : config.transactions[i]? = some tx)
    (shape : tx.phase = .ready (.stmt ⟨scope, .absences first last⟩ next))
    (step : bookings.step config (.start i) = some after) :
    Looked after i scope first last (absences (tx.pending config.committed) scope first last) := by
  have obeys := bookings_obey reached i tx found
  rw [Transaction.Obeys, shape] at obeys
  have unaltered := (bookings_sound reached i tx found).unaltered obeys.1 config.committed
  exact ⟨config.committed, ⟨config, after, tx, next, reached, found, shape, step, .refl, rfl⟩, absences_congr unaltered⟩

/-- The answer to a look is what its snapshot holds. -/
theorem answer_seen {fault : Option PortError} {serial : Int} {statement : Statement} {snapshot current : Db}
    (told : (⟨⟨scope, .absences first last⟩, .ok seen⟩ : Event Statement Answer) =
      ⟨statement, (execute fault serial statement snapshot current).answer⟩) :
    statement = ⟨scope, .absences first last⟩ ∧ seen = absences snapshot scope first last := by
  obtain ⟨named, answered⟩ := Event.mk.inj told
  subst named
  refine ⟨rfl, ?_⟩
  cases fault with
  | some e => cases eq_of_heq answered
  | none =>
    cases eq_of_heq answered
    rfl

theorem bookings_remember (reached : bookings.machine.Reachable config) :
    ∀ (i : Nat) tx, config.transactions[i]? = some tx → Remembers config i tx := by
  apply Reachable.induction (fun config => ∀ (i : Nat) tx, config.transactions[i]? = some tx → Remembers config i tx) reached
  · intro start ⟨_, idle⟩ i tx found
    simp [idle] at found
  · intro before after label visited holds _ step k tx there
    have lift (m : Nat) (other : Booking) (found : before.transactions[m]? = some other) : Remembers after m other :=
      remembers_later (holds m other found) step
    rcases step_cases step with ⟨request, -, rfl⟩ | ⟨j, old, committed, serial, later, found, acts, rfl⟩
    · rcases getElem?_append_cases there with earlier | rfl
      · exact lift k tx earlier
      · exact ⟨fun _ _ _ _ told => absurd told List.not_mem_nil, fun _ _ _ _ _ shape => nomatch shape⟩
    · rcases getElem?_set_cases found there with ⟨rfl, rfl⟩ | ⟨-, earlier⟩
      · have kept := lift k old found
        cases acts with
        | start shape =>
          refine ⟨kept.told, fun snapshot scope first last next started => ?_⟩
          cases started
          exact looked_start visited found shape step
        | run effect shape runs free =>
          refine ⟨fun scope first last seen told => ?_, fun _ _ _ _ _ started => nomatch started⟩
          rcases List.mem_append.mp told with earlier | now
          · exact kept.told scope first last seen earlier
          · rw [runs] at now
            obtain ⟨rfl, rfl⟩ := answer_seen (List.mem_singleton.mp now)
            exact kept.looking _ scope first last _ shape
        | commit => exact ⟨kept.told, fun _ _ _ _ _ started => nomatch started⟩
        | rollback => exact ⟨kept.told, fun _ _ _ _ _ started => nomatch started⟩
        | abort => exact ⟨kept.told, fun _ _ _ _ _ started => nomatch started⟩
      · exact lift k tx earlier

/-- Every row that a call has written, and so every one that its commit brings, is for a worker and a day that no absence
    kept by the company covered when the call looked. -/
theorem booked_when_free (reached : bookings.machine.Reachable config) (found : config.transactions[i]? = some tx) :
    (∀ row ∈ tx.trace.filterMap booking, ∃ stored,
      LookedAt config i row.companyId row.assignedDate row.assignedDate stored ∧
        ¬ AwayFor stored row.companyId row.workerId row.assignedDate) ∧
    ∀ row ∈ (tx.pending config.committed).schedulerAllocations.rows,
      row ∉ config.committed.schedulerAllocations.rows → row ∈ tx.trace.filterMap booking := by
  have sound := bookings_sound reached i tx found
  constructor
  · intro row booked
    obtain ⟨seen, told, free⟩ := sound.free row booked
    obtain ⟨stored, looked, same⟩ := (bookings_remember reached i tx found).told _ _ _ seen told
    rw [same] at free
    exact ⟨stored, looked, not_away_of_look free⟩
  · intro row there new
    rcases sound.writes config.committed row there with old | booked
    · exact absurd old new
    · exact booked

end Runs

/- A worker is booked for a day, and reported sick for it between the look and the write. -/

def manager : SessionUser :=
  let user : User := ⟨1, 1, text "Ann", text "ann@example.com", .manager, none, true, none⟩
  ⟨user, user.principal, [], ⟨true, true, true, none⟩⟩

def oneWorker : Db :=
  { Db.empty with
    schedulerWorkers := .of [⟨3, 1⟩] 4 (Eq.refl true)
    schedulerMaintenanceJobs := .of [⟨5, 1⟩] 6 (Eq.refl true) }

def repairs : AllocationInput := ⟨3, none, some 5, 11, none⟩

def sickness : SchedulerStore.AbsenceInput := ⟨3, .sick, 10, 12⟩

/-- The look comes first, then the whole absence, and the row is about to be written. -/
def interrupted : List (Label Request (Option PortError)) :=
  [.begin (.create manager repairs), .begin (.absence (.create 1 sickness))] ++ turns none 0 1 ++ turns none 1 4 ++
    [.finish 1, .start 0]

theorem booked_while_sick : ¬ NeverBookedAway := by
  intro never
  have run : ∃ config, bookings.machine.execute ⟨oneWorker, 10, []⟩ interrupted = some config ∧
      (∃ tx snapshot next, config.transactions[0]? = some tx ∧ tx.phase = .started snapshot ⟨1, .insert repairs⟩ next ∧
        (execute none config.serial ⟨1, .insert repairs⟩ snapshot (tx.pending config.committed)).answer =
          .ok ⟨11, 1, 3, none, some 5, 11, none⟩) ∧
      Away config.committed 3 11 ∧
      ∃ later, bookings.machine.execute config [.run 0 none, .finish 0] = some later ∧
        (∃ tx result, later.transactions[0]? = some tx ∧ tx.phase = .committed result) ∧
        later.committed.schedulerAllocations.rows = [⟨11, 1, 3, none, some 5, 11, none⟩] :=
    ⟨_, rfl, ⟨_, _, _, rfl, rfl, by decide +kernel⟩, ⟨⟨10, 1, 3, .sick, 10, 12⟩, by decide +kernel, by decide⟩,
      _, rfl, ⟨_, _, rfl, rfl⟩, by decide +kernel⟩
  obtain ⟨config, ran, ⟨tx, snapshot, next, found, shape, answered⟩, away, later, finished, ended, rows⟩ := run
  obtain ⟨ender, result, there, done⟩ := ended
  have start : bookings.machine.initial ⟨oneWorker, 10, []⟩ := ⟨trivial, rfl⟩
  have books : Books config 0 none ⟨11, 1, 3, none, some 5, 11, none⟩ :=
    ⟨tx, snapshot, _, next, found, shape, by rw [answered]; rfl⟩
  have commits : Commits config 0 ⟨11, 1, 3, none, some 5, 11, none⟩ :=
    ⟨later, ender, result, execute_leads finished, there, done, by rw [rows]; exact List.mem_singleton_self _⟩
  exact never config (execute_reachable start ran) 0 none _ books commits away

/-- In that run too, the worker was free when the call looked. -/
theorem free_when_looked : ∃ config stored, bookings.machine.Reachable config ∧ Away config.committed 3 11 ∧
    LookedAt config 0 1 11 11 stored ∧ ¬ AwayFor stored 1 3 11 := by
  have run : ∃ config, bookings.machine.execute ⟨oneWorker, 10, []⟩ (interrupted ++ [.run 0 none]) = some config ∧
      Away config.committed 3 11 ∧ ∃ tx, config.transactions[0]? = some tx ∧
        tx.trace.filterMap booking = [⟨11, 1, 3, none, some 5, 11, none⟩] :=
    ⟨_, rfl, ⟨⟨10, 1, 3, .sick, 10, 12⟩, by decide +kernel, by decide⟩, _, rfl, by decide +kernel⟩
  obtain ⟨config, ran, away, tx, found, booked⟩ := run
  have start : bookings.machine.initial ⟨oneWorker, 10, []⟩ := ⟨trivial, rfl⟩
  have reached := execute_reachable start ran
  obtain ⟨stored, looked, free⟩ := (booked_when_free reached found).1 ⟨11, 1, 3, none, some 5, 11, none⟩
    (by rw [booked]; exact List.mem_singleton_self _)
  exact ⟨config, stored, reached, away, looked, free⟩

end WorkerAvailability
