import PmKonstruct.Scheduler.AbsencePrograms

/- The absences of a worker under any interleaving. Who has looked at the absences of a worker holds the worker's lock
   from before the look to the end, so what the look said is still so when the row is committed. -/
namespace AbsencePeriods
open DomainErrors CalendarDate Schema KeyedTable Requests TransitionRuns ReadCommitted AbsencePrograms
open StatementProgram (Program Event)
open SchedulerStore (AbsenceInput newAbsence changedAbsence)

/-- Some day lies in both periods, whose ends belong to them. -/
def ShareDay (first last otherFirst otherLast : Int) : Prop :=
  ∃ day, (first ≤ day ∧ day ≤ last) ∧ (otherFirst ≤ day ∧ day ≤ otherLast)

/-- No absence of the worker in the store, except one under the same id, shares a day with this one. -/
def Clear (stored : Db) (new : SchedulerAbsenceRow) : Prop :=
  ∀ a ∈ stored.schedulerAbsences.rows, a.companyId = new.companyId → a.workerId = new.workerId → a.id ≠ new.id →
    ¬ ShareDay a.startDate a.endDate new.startDate new.endDate

/-- The absences of each worker of a company lie apart. -/
def Apart (stored : Db) : Prop := ∀ new ∈ stored.schedulerAbsences.rows, Clear stored new

/- Days and ranges. -/

section Days
variable {first last otherFirst otherLast : Int}

theorem shareDay_comm : ShareDay first last otherFirst otherLast ↔ ShareDay otherFirst otherLast first last := by
  constructor
  · rintro ⟨day, one, other⟩
    exact ⟨day, other, one⟩
  · rintro ⟨day, one, other⟩
    exact ⟨day, other, one⟩

theorem meets_eq : (daterange first last).meets (daterange otherFirst otherLast) = true ↔
    first ≤ otherLast ∧ otherFirst ≤ last := by
  rw [daterange_meets, Bool.and_eq_true, decide_eq_true_eq, decide_eq_true_eq]

theorem shareDay_meets (shared : ShareDay first last otherFirst otherLast) :
    (daterange first last).meets (daterange otherFirst otherLast) = true := by
  obtain ⟨day, ⟨after, before⟩, otherAfter, otherBefore⟩ := shared
  rw [meets_eq]
  omega

theorem meets_iff (ordered : first ≤ last) (otherOrdered : otherFirst ≤ otherLast) :
    (daterange first last).meets (daterange otherFirst otherLast) = true ↔ ShareDay first last otherFirst otherLast := by
  constructor
  · intro meets
    rw [meets_eq] at meets
    by_cases later : first ≤ otherFirst
    · exact ⟨otherFirst, ⟨later, by omega⟩, by omega, otherOrdered⟩
    · exact ⟨first, ⟨by omega, ordered⟩, by omega, by omega⟩
  · exact shareDay_meets

/-- The check in the domain is the one of the trigger. -/
theorem overlaps_eq_meets (input : AbsenceInput) :
    input.overlaps otherFirst otherLast =
      (daterange input.startDate input.endDate).meets (daterange otherFirst otherLast) := daterange_meets.symm

theorem overlaps_iff (input : AbsenceInput) (ordered : input.startDate ≤ input.endDate)
    (otherOrdered : otherFirst ≤ otherLast) :
    input.overlaps otherFirst otherLast = true ↔ ShareDay input.startDate input.endDate otherFirst otherLast := by
  rw [overlaps_eq_meets, meets_iff ordered otherOrdered]

end Days

/- The programs, whatever they are answered. -/

abbrev Trace : Type := List (Event Statement Answer)

def locking : Event Statement Answer → Option (CompanyId × SchedulerWorkerId)
  | ⟨⟨_, .advisoryLock company worker⟩, .ok _⟩ => some (company, worker)
  | _ => none

/-- A look that found nothing, with the company it was made for. -/
def clearing : Event Statement Answer → Option (CompanyId × SchedulerAbsenceRow)
  | ⟨⟨scope, .selectOverlap new⟩, .ok false⟩ => some (scope, new)
  | _ => none

def writing : Event Statement Answer → Option SchedulerAbsenceRow
  | ⟨⟨_, .insert new⟩, .ok _⟩ => some new
  | ⟨⟨_, .update new⟩, .ok _⟩ => some new
  | _ => none

def Query.alters : Query → Bool
  | .insert _ => true
  | .update _ => true
  | .delete _ => true
  | _ => false

/-- The lock is taken before the look, and the look comes before the only write. -/
def At (past : Trace) (statement : Statement) : Prop :=
  match statement.query with
  | .selectOverlap new => (new.companyId, new.workerId) ∈ past.filterMap locking ∧
      past.any (fun event => Query.alters event.statement.query) = false
  | .insert new => (statement.scope, new) ∈ past.filterMap clearing ∧ past.filterMap writing = []
  | .update new => (statement.scope, new) ∈ past.filterMap clearing ∧ past.filterMap writing = []
  | _ => True

section Programs
variable {scope : CompanyId}

theorem obeys_ask {query : Query} {next : Reply query → Steps} {past : Trace} (here : At past ⟨scope, query⟩)
    (later : ∀ reply, (next reply).Obeys At (fun _ _ => True) (past ++ [⟨⟨scope, query⟩, .ok reply⟩])) :
    (ask scope query next).Obeys At (fun _ _ => True) past := by
  refine ⟨here, fun answer => ?_⟩
  cases answer with
  | error e => trivial
  | ok reply => exact later reply

theorem enforceNoOverlap_obeys {new : SchedulerAbsenceRow} {next : Steps} {past : Trace}
    (unaltered : past.any (fun event => Query.alters event.statement.query) = false)
    (later : next.Obeys At (fun _ _ => True) (past ++ [⟨⟨scope, .advisoryLock new.companyId new.workerId⟩, .ok ()⟩] ++
      [⟨⟨scope, .selectOverlap new⟩, .ok false⟩])) :
    (enforceNoOverlap scope new next).Obeys At (fun _ _ => True) past := by
  refine obeys_ask trivial fun _ => obeys_ask ⟨?_, ?_⟩ fun clash => ?_
  · rw [List.filterMap_append]
    exact List.mem_append_right _ (List.mem_singleton_self _)
  · rw [List.any_append, unaltered]
    rfl
  · cases clash with
    | true => trivial
    | false => exact later

theorem program_obeys (request : Request) : request.program.Obeys At (fun _ _ => True) [] := by
  cases request with
  | create scope input =>
    refine obeys_ask trivial fun id => enforceNoOverlap_obeys rfl (obeys_ask ⟨?_, rfl⟩ fun _ => trivial)
    exact List.mem_singleton_self _
  | update scope id input =>
    refine obeys_ask trivial fun row => ?_
    cases row with
    | none => trivial
    | some row =>
      refine enforceNoOverlap_obeys rfl (obeys_ask ⟨?_, rfl⟩ fun _ => trivial)
      exact List.mem_singleton_self _
  | delete scope id => exact obeys_ask trivial fun _ => trivial

end Programs

theorem savings_obey {initial : Db → Int → Prop} {config : Savings} (reached : (saving initial).machine.Reachable config) :
    ∀ (i : Nat) tx, config.transactions[i]? = some tx → tx.Obeys At fun _ _ => True :=
  transactions_obey (fun _ => At) (fun _ _ _ => True) program_obeys reached

/- What a transaction has established so far. -/

/-- Every absence that the worker has in the store is in what the look sees. -/
def Seen (stored snapshot : Db) (new : SchedulerAbsenceRow) : Prop :=
  ∀ a ∈ stored.schedulerAbsences.rows, a.companyId = new.companyId → a.workerId = new.workerId →
    a ∈ snapshot.schedulerAbsences.rows

structure Sound (stored : Db) (tx : Saving) : Prop where
  held : ∀ key ∈ tx.trace.filterMap locking, Lock.worker key.1 key.2 ∈ tx.held
  locked : ∀ look ∈ tx.trace.filterMap clearing, (look.2.companyId, look.2.workerId) ∈ tx.trace.filterMap locking
  clear : ∀ look ∈ tx.trace.filterMap clearing, look.2.companyId = look.1 → Clear stored look.2
  looked : ∀ new ∈ tx.trace.filterMap writing, (new.companyId, new) ∈ tx.trace.filterMap clearing
  once : ∀ new ∈ tx.trace.filterMap writing, ∀ other ∈ tx.trace.filterMap writing, new = other
  writes : ∀ db, ∀ row ∈ (tx.pending db).schedulerAbsences.rows,
    row ∈ db.schedulerAbsences.rows ∨ row ∈ tx.trace.filterMap writing
  unaltered : tx.trace.any (fun event => Query.alters event.statement.query) = false → ∀ db,
    (tx.pending db).schedulerAbsences = db.schedulerAbsences
  seen : ∀ snapshot scope new next, tx.phase = .started snapshot ⟨scope, .selectOverlap new⟩ next → Seen stored snapshot new

/-- What a statement adds to the absences. -/
structure Change (statement : Statement) (answer : Answer statement) (change : Db → Db) : Prop where
  writes : ∀ db, ∀ row ∈ (change db).schedulerAbsences.rows,
    row ∈ db.schedulerAbsences.rows ∨ writing ⟨statement, answer⟩ = some row
  unaltered : Query.alters statement.query = false → ∀ db, (change db).schedulerAbsences = db.schedulerAbsences

theorem change_nothing {statement : Statement} {answer : Answer statement} : Change statement answer fun db => db :=
  ⟨fun _ _ there => .inl there, fun _ _ => rfl⟩

section Effects
variable (snapshot current : Db) (scope : CompanyId)

theorem insert_changes (new : SchedulerAbsenceRow) :
    Change ⟨scope, .insert new⟩ (insert current scope new).answer (insert current scope new).change := by
  rw [AbsencePrograms.insert]
  split
  · exact change_nothing
  · refine ⟨fun db row there => ?_, fun kept => Bool.noConfusion kept⟩
    rcases List.mem_append.mp there with old | added
    · exact .inl (List.mem_filter.mp old).1
    · exact .inr (congrArg some (List.mem_singleton.mp added).symm)

theorem update_changes (new : SchedulerAbsenceRow) :
    Change ⟨scope, .update new⟩ (update current scope new).answer (update current scope new).change := by
  rw [AbsencePrograms.update]
  split
  · exact change_nothing
  · refine ⟨fun db row there => ?_, fun kept => Bool.noConfusion kept⟩
    obtain ⟨old, before, rfl⟩ := List.mem_map.mp there
    by_cases same : old.id = new.id
    · right
      simp [writing, same]
    · left
      simpa [same] using before

theorem delete_changes (id : SchedulerAbsenceId) :
    Change ⟨scope, .delete id⟩ (delete snapshot current scope id).answer (delete snapshot current scope id).change := by
  rw [AbsencePrograms.delete]
  split
  · exact change_nothing
  · exact ⟨fun db row there => .inl (List.mem_filter.mp there).1, fun kept => Bool.noConfusion kept⟩

theorem execute_changes (fault : Option PortError) (serial : Int) (statement : Statement) :
    Change statement (execute fault serial statement snapshot current).answer
      (execute fault serial statement snapshot current).change := by
  obtain ⟨scope, query⟩ := statement
  cases fault with
  | some e => exact change_nothing
  | none =>
    cases query with
    | nextId => exact change_nothing
    | lockRow id =>
      simp only [execute, perform, lockRow]
      split <;> exact change_nothing
    | advisoryLock company worker => exact change_nothing
    | selectOverlap new =>
      simp only [execute, perform, selectOverlap]
      split <;> exact change_nothing
    | insert new => exact insert_changes current scope new
    | update new => exact update_changes current scope new
    | delete id => exact delete_changes snapshot current scope id

end Effects

/- What the events of a trace say. -/

section Events
variable {stored snapshot current : Db} {fault : Option PortError} {serial : Int} {statement : Statement} {past : Trace}

theorem locking_takes {key : CompanyId × SchedulerWorkerId}
    (locks : locking ⟨statement, (execute fault serial statement snapshot current).answer⟩ = some key) :
    Lock.worker key.1 key.2 ∈ (execute fault serial statement snapshot current).takes := by
  obtain ⟨scope, query⟩ := statement
  cases fault with
  | some e => cases query <;> cases locks
  | none =>
    cases query with
    | advisoryLock company worker =>
      cases locks
      exact List.mem_singleton_self _
    | _ => cases locks

theorem clearing_look {answer : Answer statement} {look : CompanyId × SchedulerAbsenceRow}
    (clears : clearing ⟨statement, answer⟩ = some look) : statement = ⟨look.1, .selectOverlap look.2⟩ := by
  obtain ⟨scope, query⟩ := statement
  cases query with
  | selectOverlap new =>
    rcases answer with e | clash
    · cases clears
    · cases clash with
      | true => cases clears
      | false =>
        cases clears
        rfl
  | _ => cases clears

/-- A look made under the lock says so of the store. -/
theorem clearing_clear {look : CompanyId × SchedulerAbsenceRow}
    (clears : clearing ⟨statement, (execute fault serial statement snapshot current).answer⟩ = some look)
    (seen : Seen stored snapshot look.2) (own : look.2.companyId = look.1) : Clear stored look.2 := by
  obtain ⟨scope, new⟩ := look
  obtain rfl := clearing_look clears
  cases fault with
  | some e => cases clears
  | none =>
    simp only [execute, perform, selectOverlap] at clears
    split at clears
    · cases clears
    · intro a there company worker apart shared
      have found : ((snapshot.schedulerAbsences.select fun a => a.companyId = scope).any fun a =>
          a.companyId = new.companyId && a.workerId = new.workerId && a.id ≠ new.id &&
            (daterange a.startDate a.endDate).meets (daterange new.startDate new.endDate)) = true := by
        refine List.any_eq_true.mpr ⟨a, Table.mem_select.mpr ⟨seen a there company worker, ?_⟩, ?_⟩
        · exact decide_eq_true (company.trans own)
        · simp [company, worker, apart, shareDay_meets shared]
      simp only [Effect.answers, found] at clears
      cases clears

theorem writing_at {answer : Answer statement} {new : SchedulerAbsenceRow} (here : At past statement)
    (writes : writing ⟨statement, answer⟩ = some new) :
    (statement.scope, new) ∈ past.filterMap clearing ∧ past.filterMap writing = [] := by
  obtain ⟨scope, query⟩ := statement
  cases query with
  | insert row =>
    cases answer with
    | error e => cases writes
    | ok reply =>
      cases writes
      exact here
  | update row =>
    cases answer with
    | error e => cases writes
    | ok reply =>
      cases writes
      exact here
  | _ => cases writes

theorem violation_scope {scope : CompanyId} {new : SchedulerAbsenceRow} (passed : violation current scope new = none) :
    new.companyId = scope := by
  rw [violation, firstViolation_cons] at passed
  simpa using passed.1

/-- A row of another company is refused by its policy. -/
theorem writing_scope {new : SchedulerAbsenceRow}
    (writes : writing ⟨statement, (execute fault serial statement snapshot current).answer⟩ = some new) :
    new.companyId = statement.scope := by
  obtain ⟨scope, query⟩ := statement
  cases fault with
  | some e => cases query <;> cases writes
  | none =>
    cases query with
    | insert row =>
      simp only [execute, perform, AbsencePrograms.insert] at writes
      split at writes
      · cases writes
      · next passed =>
        cases writes
        exact violation_scope passed
    | update row =>
      simp only [execute, perform, AbsencePrograms.update] at writes
      split at writes
      · cases writes
      · next passed =>
        cases writes
        exact violation_scope passed
    | _ => cases writes

end Events

/- Steps. -/

section Moves
variable {initial : Db → Int → Prop} {config : Savings} {stored snapshot : Db} {tx mover : Saving}
    {statement : Statement} {next : Answer statement → Steps}

theorem sound_opened {request : Request} : Sound stored ((saving initial).opened request) where
  held := fun _ none => absurd none List.not_mem_nil
  locked := fun _ none => absurd none List.not_mem_nil
  clear := fun _ none => absurd none List.not_mem_nil
  looked := fun _ none => absurd none List.not_mem_nil
  once := fun _ none => absurd none List.not_mem_nil
  writes := fun _ _ there => .inl there
  unaltered := fun _ _ => rfl
  seen := fun _ _ _ _ shape => nomatch shape

/-- What has altered nothing sees the absences as they are. -/
theorem sound_start (sound : Sound stored tx) (here : At tx.trace statement) :
    Sound stored (tx.start (tx.pending stored) statement next) where
  held := sound.held
  locked := sound.locked
  clear := sound.clear
  looked := sound.looked
  once := sound.once
  writes := sound.writes
  unaltered := sound.unaltered
  seen := by
    intro snapshot scope new next shape a there _ _
    cases shape
    rw [sound.unaltered here.2 stored]
    exact there

theorem sound_ran {fault : Option PortError} {serial : Int} (sound : Sound stored tx)
    (shape : tx.phase = .started snapshot statement next) (here : At tx.trace statement) :
    Sound stored (tx.ran serial next (execute fault serial statement snapshot (tx.pending stored))) := by
  have changes := execute_changes snapshot (tx.pending stored) fault serial statement
  have written (row : SchedulerAbsenceRow) (before : row ∈ tx.trace.filterMap writing) : row ∈
      (tx.ran serial next (execute fault serial statement snapshot (tx.pending stored))).trace.filterMap writing := by
    rw [Transaction.filterMap_ran]
    exact List.mem_append_left _ before
  refine ⟨?_, ?_, ?_, ?_, ?_, ?_, ?_, ?_⟩
  · intro key locks
    rw [Transaction.filterMap_ran] at locks
    rcases List.mem_append.mp locks with before | added
    · exact List.mem_append_left _ (sound.held key before)
    · exact List.mem_append_right _ (locking_takes (Option.mem_toList.mp added))
  · intro look looks
    rw [Transaction.filterMap_ran] at looks ⊢
    rcases List.mem_append.mp looks with before | added
    · exact List.mem_append_left _ (sound.locked look before)
    · obtain rfl := clearing_look (Option.mem_toList.mp added)
      exact List.mem_append_left _ here.1
  · intro look looks own
    rw [Transaction.filterMap_ran] at looks
    rcases List.mem_append.mp looks with before | added
    · exact sound.clear look before own
    · have clears := Option.mem_toList.mp added
      obtain rfl := clearing_look clears
      exact clearing_clear clears (sound.seen _ _ _ _ shape) own
  · intro new writes
    rw [Transaction.filterMap_ran] at writes ⊢
    rcases List.mem_append.mp writes with before | added
    · exact List.mem_append_left _ (sound.looked new before)
    · have fresh := Option.mem_toList.mp added
      rw [writing_scope fresh]
      exact List.mem_append_left _ (writing_at here fresh).1
  · intro new writes other also
    rw [Transaction.filterMap_ran] at writes also
    rcases List.mem_append.mp writes with before | added
    · rcases List.mem_append.mp also with early | late
      · exact sound.once new before other early
      · rw [(writing_at here (Option.mem_toList.mp late)).2] at before
        cases before
    · have fresh := Option.mem_toList.mp added
      rcases List.mem_append.mp also with early | late
      · rw [(writing_at here fresh).2] at early
        cases early
      · exact Option.some.inj (fresh.symm.trans (Option.mem_toList.mp late))
  · intro db row there
    rcases changes.writes (tx.pending db) row there with before | added
    · rcases sound.writes db row before with stored | earlier
      · exact .inl stored
      · exact .inr (written row earlier)
    · right
      rw [Transaction.filterMap_ran]
      exact List.mem_append_right _ (Option.mem_toList.mpr added)
  · intro kept db
    rw [Transaction.ran, List.any_append, Bool.or_eq_false_iff] at kept
    have still : Query.alters statement.query = false := by simpa using kept.2
    exact (changes.unaltered still (tx.pending db)).trans (sound.unaltered kept.1 db)
  · intro snapshot scope new next started
    cases started

/-- Who holds the lock of a worker meets no absence of that worker but those it has seen, whatever another commits. -/
theorem commit_elsewhere {i j : Nat} {new row : SchedulerAbsenceRow}
    (reached : (saving initial).machine.Reachable config) (elsewhere : i ≠ j)
    (found : config.transactions[i]? = some tx) (moves : config.transactions[j]? = some mover)
    (held : Lock.worker new.companyId new.workerId ∈ tx.held) (sound : Sound config.committed mover)
    (there : row ∈ (mover.pending config.committed).schedulerAbsences.rows) (company : row.companyId = new.companyId)
    (worker : row.workerId = new.workerId) : row ∈ config.committed.schedulerAbsences.rows := by
  rcases sound.writes config.committed row there with before | written
  · exact before
  · have also := sound.held _ (sound.locked _ (sound.looked row written))
    have apart := locks_exclusive (fun a b => decide_eq_decide.mpr eq_comm) reached i j tx mover found moves elsewhere _
      held _ also
    exact absurd (by rw [company, worker]) (of_decide_eq_false apart)

theorem sound_elsewhere {i j : Nat} (reached : (saving initial).machine.Reachable config) (elsewhere : i ≠ j)
    (found : config.transactions[i]? = some tx) (moves : config.transactions[j]? = some mover)
    (obeys : tx.Obeys At fun _ _ => True) (sound : Sound config.committed tx) (other : Sound config.committed mover) :
    Sound (mover.pending config.committed) tx where
  held := sound.held
  locked := sound.locked
  clear := by
    intro look looks own a there company worker
    have held := sound.held _ (sound.locked look looks)
    exact sound.clear look looks own a
      (commit_elsewhere reached elsewhere found moves held other there company worker) company worker
  looked := sound.looked
  once := sound.once
  writes := sound.writes
  unaltered := sound.unaltered
  seen := by
    intro snapshot scope new next shape a there company worker
    rw [Transaction.Obeys, shape] at obeys
    have held := sound.held _ obeys.1.1
    exact sound.seen snapshot scope new next shape a
      (commit_elsewhere reached elsewhere found moves held other there company worker) company worker

/-- What a commit leaves lies apart, since what it writes was found clear of what is there. -/
theorem apart_commit (apart : Apart stored) (sound : Sound stored mover) : Apart (mover.pending stored) := by
  intro new present a there company worker different
  rcases sound.writes stored new present with old | written
  · rcases sound.writes stored a there with before | added
    · exact apart new old a before company worker different
    · rw [shareDay_comm]
      exact sound.clear _ (sound.looked a added) rfl new old company.symm worker.symm different.symm
  · rcases sound.writes stored a there with before | added
    · exact sound.clear _ (sound.looked new written) rfl a before company worker different
    · exact absurd (congrArg SchedulerAbsenceRow.id (sound.once a added new written)) different

theorem savings_sound (starts : ∀ store serial, initial store serial → Apart store)
    (reached : (saving initial).machine.Reachable config) : Apart config.committed ∧
      ∀ (i : Nat) tx, config.transactions[i]? = some tx → tx.live = true → Sound config.committed tx := by
  apply store_and_transactions_keep Apart (fun stored tx => tx.live = true → Sound stored tx) starts ?_ ?_ ?_ ?_ reached
  · intro config request _ _ _ _
    exact sound_opened
  · intro config i tx label committed serial later visited _ found acts _ holds live
    have obeys := savings_obey visited i tx found
    have sound := holds acts.live
    cases acts with
    | start shape =>
      rw [Transaction.Obeys, shape] at obeys
      exact sound_start sound obeys.1
    | run effect shape runs =>
      rw [Transaction.Obeys, shape] at obeys
      rw [runs]
      exact sound_ran sound shape obeys.1
    | commit => cases live
    | rollback => cases live
    | abort => cases live
  · intro config i j tx mover result visited _ elsewhere found moves shape _ holds other live
    exact sound_elsewhere visited elsewhere found moves (savings_obey visited i tx found) (holds live)
      (other (by rw [Transaction.live, shape]))
  · intro config j mover result _ _ _ shape apart holds
    exact apart_commit apart (holds (by rw [Transaction.live, shape]))

end Moves

/-- Any store in which the absences lie apart, with ids below the next one of the sequence. -/
def lawful (db : Db) (serial : Int) : Prop := Apart db ∧ ∀ a ∈ db.schedulerAbsences.rows, a.id < serial

/-- In every run; and the check in the domain, on periods whose ends are in order, says whether they share a day. -/
theorem absences_apart : (∀ config, (saving lawful).machine.Reachable config →
      ∀ a ∈ config.committed.schedulerAbsences.rows, ∀ b ∈ config.committed.schedulerAbsences.rows, a ≠ b →
        a.companyId = b.companyId → a.workerId = b.workerId →
        ¬ ∃ day, (a.startDate ≤ day ∧ day ≤ a.endDate) ∧ (b.startDate ≤ day ∧ day ≤ b.endDate)) ∧
    ∀ (input : AbsenceInput) (otherStart otherEnd : Date), input.startDate ≤ input.endDate → otherStart ≤ otherEnd →
      (input.overlaps otherStart otherEnd = true ↔
        ∃ day, (input.startDate ≤ day ∧ day ≤ input.endDate) ∧ (otherStart ≤ day ∧ day ≤ otherEnd)) := by
  constructor
  · intro config reached a there b present distinct company worker
    have apart := (savings_sound (fun _ _ start => start.1) reached).1
    exact apart b present a there company worker fun same => distinct (Table.key_inj there present same)
  · intro input otherStart otherEnd ordered otherOrdered
    exact overlaps_iff input ordered otherOrdered

/- Two absences of one worker that share their last and first day. The second call waits for the first, and finds the
   day taken. -/

def oneWorker : Db := { Db.empty with schedulerWorkers := ⟨[⟨3, 1⟩], 4, by decide, by decide⟩ }

def sickness : AbsenceInput := ⟨3, .sick, 10, 12⟩

def leave : AbsenceInput := ⟨3, .leave, 12, 14⟩

def adjoining : List (Label Request (Option PortError)) :=
  [.begin (.create 1 sickness), .begin (.create 1 leave)] ++ turns none 0 1 ++ turns none 1 1 ++ turns none 0 1 ++
    [.start 1] ++ turns none 0 2 ++ [.finish 0, .run 1 none] ++ turns none 1 1 ++ [.finish 1]

theorem second_absence_refused : ∃ config, (saving lawful).machine.Reachable config ∧
    config.committed.schedulerAbsences.rows = [newAbsence 1 sickness 1] ∧ leave.overlaps 10 12 = true ∧
    (∃ day : Date, (12 ≤ day ∧ day ≤ 14) ∧ (10 ≤ day ∧ day ≤ 12)) ∧
    ∀ a ∈ config.committed.schedulerAbsences.rows, ∀ b ∈ config.committed.schedulerAbsences.rows, a ≠ b →
      a.companyId = b.companyId → a.workerId = b.workerId →
      ¬ ∃ day, (a.startDate ≤ day ∧ day ≤ a.endDate) ∧ (b.startDate ≤ day ∧ day ≤ b.endDate) := by
  have run : ∃ config, (saving lawful).machine.execute ⟨oneWorker, 1, []⟩ adjoining = some config ∧
      config.committed.schedulerAbsences.rows = [newAbsence 1 sickness 1] := ⟨_, rfl, by decide +kernel⟩
  obtain ⟨config, ran, rows⟩ := run
  have start : (saving lawful).machine.initial ⟨oneWorker, 1, []⟩ :=
    ⟨⟨fun _ none => absurd none List.not_mem_nil, fun _ none => absurd none List.not_mem_nil⟩, rfl⟩
  have reached := execute_reachable start ran
  have overlaps : leave.overlaps 10 12 = true := by decide
  exact ⟨config, reached, rows, overlaps, (absences_apart.2 leave 10 12 (by decide) (by decide)).mp overlaps,
    absences_apart.1 config reached⟩

end AbsencePeriods
