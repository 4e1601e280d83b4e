import PmKonstruct.Library.ReadCommitted
import PmKonstruct.Scheduler.SchedulerService

/- Absences as transactions under READ COMMITTED. Before a row is written the trigger of the table takes the advisory
   lock of its worker and then looks at the worker's other absences. The trigger is a volatile function, so each of its
   queries takes a snapshot of its own. -/
namespace AbsencePrograms
open DomainErrors CalendarDate Schema KeyedTable RowSecurity Requests ReadCommitted
open StatementProgram (Program)
open SchedulerStore (AbsenceInput Absence absenceOfRow newAbsence changedAbsence)
open AuthService (SessionUser)

/-- A write carries the whole new row. -/
inductive Query where
  | nextId
  | lockRow (id : SchedulerAbsenceId)
  | advisoryLock (company : CompanyId) (worker : SchedulerWorkerId)
  | selectOverlap (new : SchedulerAbsenceRow)
  | insert (new : SchedulerAbsenceRow)
  | update (new : SchedulerAbsenceRow)
  | delete (id : SchedulerAbsenceId)

abbrev Reply : Query → Type
  | .nextId => SchedulerAbsenceId
  | .lockRow _ => Option SchedulerAbsenceRow
  | .advisoryLock _ _ => Unit
  | .selectOverlap _ => Bool
  | .insert _ => Unit
  | .update _ => Unit
  | .delete _ => Bool

/-- A statement runs for the company its transaction was opened for. -/
structure Statement where
  scope : CompanyId
  query : Query

abbrev Answer (statement : Statement) : Type := Except PortError (Reply statement.query)

/-- A row, the advisory lock of a worker, and a place in the unique index of the periods. -/
inductive Lock where
  | absence (id : SchedulerAbsenceId)
  | worker (company : CompanyId) (worker : SchedulerWorkerId)
  | period (worker : SchedulerWorkerId) (absenceType : AbsenceType) (first last : Date)
  deriving DecidableEq

/-- A `daterange` in its canonical form, without its upper bound. -/
structure DayRange where
  lower : Int
  upper : Int

/-- Both days given are in the range. -/
def daterange (first last : Date) : DayRange := ⟨first, last + 1⟩

def DayRange.meets (a b : DayRange) : Bool := a.lower < b.upper && b.lower < a.upper

def failing {α : Type} (e : PortError) : Effect (Except PortError α) Db Lock := .answers (.error e)

def periodOf (row : SchedulerAbsenceRow) : Lock := .period row.workerId row.absenceType row.startDate row.endDate

section Statements
variable (snapshot current : Db) (scope : CompanyId)

/-- An update or a deletion waits for the row it saw, and then goes by the row as it is. -/
def present (id : SchedulerAbsenceId) : Option SchedulerAbsenceRow :=
  (snapshot.schedulerAbsences.reach (·.companyId = scope) id).bind fun _ =>
    current.schedulerAbsences.reach (·.companyId = scope) id

def awaited (id : SchedulerAbsenceId) : List Lock :=
  ((snapshot.schedulerAbsences.reach (·.companyId = scope) id).map fun _ => Lock.absence id).toList

def lockRow (id : SchedulerAbsenceId) : Effect (Except PortError (Option SchedulerAbsenceRow)) Db Lock :=
  match present snapshot current scope id with
  | none => ⟨.ok none, fun db => db, awaited snapshot scope id, [], 0⟩
  | some row => ⟨.ok (some row), fun db => db, [], [.absence id], 0⟩

/-- A range whose ends are out of order cannot be built. -/
def selectOverlap (new : SchedulerAbsenceRow) : Effect (Except PortError Bool) Db Lock :=
  if new.endDate < new.startDate then
    failing (.storage "error returned from database: range lower bound must be less than or equal to range upper bound")
  else
    let existing := snapshot.schedulerAbsences.select fun a => a.companyId = scope
    .answers (.ok (existing.any fun a => a.companyId = new.companyId && a.workerId = new.workerId && a.id ≠ new.id &&
      (daterange a.startDate a.endDate).meets (daterange new.startDate new.endDate)))

/-- What a written row is checked against once the trigger has passed it. -/
def violation (new : SchedulerAbsenceRow) : Option PortError :=
  firstViolation [
    (decide (new.companyId ≠ scope), rowDenied "scheduler_worker_absences"),
    (decide (new.startDate > new.endDate), .checkViolation (some "scheduler_worker_absence_dates_check")),
    (current.schedulerAbsences.rows.any fun a => a.id ≠ new.id && a.workerId = new.workerId &&
        a.absenceType = new.absenceType && a.startDate = new.startDate && a.endDate = new.endDate,
      .conflict (some "uq_scheduler_worker_absence_period")),
    ((current.schedulerWorkers.find new.workerId).isNone, .conflict (some "scheduler_worker_absences_worker_id_fkey"))]

def put (new : SchedulerAbsenceRow) (db : Db) : Db := { db with schedulerAbsences := db.schedulerAbsences.put new }

def replace (new : SchedulerAbsenceRow) (db : Db) : Db :=
  { db with
    schedulerAbsences := db.schedulerAbsences.update (fun a => a.id = new.id) (fun a => { new with id := a.id })
      (fun _ => rfl) }

def remove (id : SchedulerAbsenceId) (db : Db) : Db :=
  { db with schedulerAbsences := db.schedulerAbsences.delete fun a => a.id = id }

def insert (new : SchedulerAbsenceRow) : Effect (Except PortError Unit) Db Lock :=
  match violation current scope new with
  | some e => ⟨.error e, fun db => db, [periodOf new], [], 0⟩
  | none => ⟨.ok (), put new, [], [periodOf new], 0⟩

/-- A row that leaves its place in the index keeps it until the transaction ends. -/
def update (new : SchedulerAbsenceRow) : Effect (Except PortError Unit) Db Lock :=
  match violation current scope new with
  | some e => ⟨.error e, fun db => db, [periodOf new], [], 0⟩
  | none => ⟨.ok (), replace new, [], periodOf new :: ((current.schedulerAbsences.find new.id).map periodOf).toList, 0⟩

def delete (id : SchedulerAbsenceId) : Effect (Except PortError Bool) Db Lock :=
  match present snapshot current scope id with
  | none => ⟨.ok false, fun db => db, awaited snapshot scope id, [], 0⟩
  | some row => ⟨.ok true, remove id, [], [.absence id, periodOf row], 0⟩

def perform (serial : Int) : (query : Query) → Effect (Except PortError (Reply query)) Db Lock
  | .nextId => ⟨.ok serial, fun db => db, [], [], 1⟩
  | .lockRow id => lockRow snapshot current scope id
  | .advisoryLock company worker => ⟨.ok (), fun db => db, [], [.worker company worker], 0⟩
  | .selectOverlap new => selectOverlap snapshot scope new
  | .insert new => insert current scope new
  | .update new => update current scope new
  | .delete id => delete snapshot current scope id

end Statements

/-- Any statement may meet a fault of the driver. -/
def execute (fault : Option PortError) (serial : Int) (statement : Statement) (snapshot current : Db) :
    Effect (Answer statement) Db Lock :=
  match fault with
  | some e => failing e
  | none => perform snapshot current statement.scope serial statement.query

/- The transactions. -/

inductive Saved where
  | created (absence : Absence)
  | updated (absence : Option Absence)
  | deleted (found : Bool)
  deriving DecidableEq, Repr

abbrev Result : Type := Except PortError Saved

abbrev Steps : Type := Program Statement Answer (Ending Result)

def fail (e : PortError) : Steps := .done (.rollback (.error e))

def commit (saved : Saved) : Steps := .done (.commit (.ok saved))

section Programs
variable (scope : CompanyId)

/-- The error of a statement ends the transaction. -/
def ask (query : Query) (next : Reply query → Steps) : Steps :=
  .stmt ⟨scope, query⟩ fun answer =>
    match answer with
    | .error e => fail e
    | .ok reply => next reply

/-- The trigger: it raises an exception, or the statement that fired it goes on. -/
def enforceNoOverlap (new : SchedulerAbsenceRow) (next : Steps) : Steps :=
  ask scope (.advisoryLock new.companyId new.workerId) fun _ =>
    ask scope (.selectOverlap new) fun
    | true => fail (.conflict (some "scheduler_worker_absence_overlap"))
    | false => next

def createAbsence (input : AbsenceInput) : Steps :=
  ask scope .nextId fun id =>
    let new := newAbsence scope input id
    enforceNoOverlap scope new (ask scope (.insert new) fun _ => commit (.created (absenceOfRow new)))

def updateAbsence (id : SchedulerAbsenceId) (input : AbsenceInput) : Steps :=
  ask scope (.lockRow id) fun
  | none => commit (.updated none)
  | some row =>
    let new := changedAbsence input row
    enforceNoOverlap scope new (ask scope (.update new) fun _ => commit (.updated (some (absenceOfRow new))))

def deleteAbsence (id : SchedulerAbsenceId) : Steps :=
  ask scope (.delete id) fun found => commit (.deleted found)

end Programs

inductive Request where
  | create (scope : CompanyId) (input : AbsenceInput)
  | update (scope : CompanyId) (id : SchedulerAbsenceId) (input : AbsenceInput)
  | delete (scope : CompanyId) (id : SchedulerAbsenceId)

def Request.program : Request → Steps
  | .create scope input => createAbsence scope input
  | .update scope id input => updateAbsence scope id input
  | .delete scope id => deleteAbsence scope id

abbrev Saving : Type := Transaction Statement Answer Result Request Db Lock

abbrev Savings : Type := Config Statement Answer Result Request Db Lock

/-- Any number of calls, for any companies, in any order of their statements; any of them may abort at any time. -/
def saving (initial : Db → Int → Prop) : Database Statement Answer Result Request (Option PortError) Db Lock where
  program := Request.program
  execute := execute
  conflicts a b := a = b
  initial := initial
  permits _ _ := true

/- A call that nobody interrupts is the call of the repository. -/

section Alone
variable {db : Db} {scope : CompanyId} {serial : Int} {input : AbsenceInput} {initial : Db → Int → Prop}

/-- Two ranges meet when each begins before the other ends. -/
theorem daterange_meets {first last otherFirst otherLast : Date} :
    (daterange first last).meets (daterange otherFirst otherLast) = (first ≤ otherLast && otherFirst ≤ last) :=
  congrArg₂ and (decide_eq_decide.mpr Int.lt_add_one_iff) (decide_eq_decide.mpr Int.lt_add_one_iff)

/-- The other absences of the worker that the trigger looks at, whose ranges meet that of the written row. -/
def overlapping (db : Db) (scope : CompanyId) (new : SchedulerAbsenceRow) : Bool :=
  (db.schedulerAbsences.select fun a => a.companyId = scope).any fun a =>
    a.companyId = new.companyId && a.workerId = new.workerId && a.id ≠ new.id &&
      (daterange a.startDate a.endDate).meets (daterange new.startDate new.endDate)

/-- The constraints of the repository, in the two parts of the program. -/
theorem absenceConstraint_eq {self : Option SchedulerAbsenceId} {new : SchedulerAbsenceRow} (company : new.companyId = scope)
    (worker : new.workerId = input.workerId) (kind : new.absenceType = input.absenceType)
    (first : new.startDate = input.startDate) (last : new.endDate = input.endDate)
    (others : ∀ a ∈ db.schedulerAbsences.rows, (some a.id ≠ self) = (a.id ≠ new.id)) :
    SchedulerStore.absenceConstraint db scope self input =
      if overlapping db scope new then some (.conflict (some "scheduler_worker_absence_overlap"))
      else violation db scope new := by
  have clashes : ∀ p : SchedulerAbsenceRow → Bool, (db.schedulerAbsences.rows.any fun a =>
      some a.id ≠ self && a.workerId = input.workerId && p a) =
      db.schedulerAbsences.rows.any fun a => a.id ≠ new.id && a.workerId = new.workerId && p a := by
    intro p
    rw [Bool.eq_iff_iff, List.any_eq_true, List.any_eq_true, worker]
    refine exists_congr fun a => and_congr_right fun member => ?_
    simp only [others a member]
  have meets : overlapping db scope new = db.schedulerAbsences.rows.any fun a => a.id ≠ new.id &&
      a.workerId = new.workerId && (a.companyId = scope && a.startDate ≤ input.endDate && input.startDate ≤ a.endDate) := by
    rw [overlapping, Table.select, List.any_filter]
    congr 1
    funext a
    rw [daterange_meets, company, first, last, Bool.eq_iff_iff]
    simp only [Bool.and_eq_true]
    tauto
  simp only [SchedulerStore.absenceConstraint, clashes]
  rw [← meets]
  simp only [firstViolation, violation, company, kind, first, last, worker, ne_eq, not_true_eq_false, decide_false,
    Bool.false_eq_true, if_false, Bool.and_assoc]

theorem enforceNoOverlap_alone {new : SchedulerAbsenceRow} {next : Steps} {n : Nat} (ordered : new.startDate ≤ new.endDate) :
    (saving initial).alone (fun _ => none) n serial (enforceNoOverlap scope new next) db =
      if overlapping db scope new then (.rollback (.error (.conflict (some "scheduler_worker_absence_overlap"))), db)
      else (saving initial).alone (fun _ => none) (n + 2) serial next db := by
  have inOrder : ¬ new.endDate < new.startDate := Int.not_lt.mpr ordered
  simp only [enforceNoOverlap, ask, Database.alone, saving, execute, perform, selectOverlap, if_neg inOrder, Effect.answers]
  rw [← overlapping]
  cases overlapping db scope new with
  | true => rfl
  | false => simp

theorem createAbsence_alone (ordered : input.startDate ≤ input.endDate) (next : db.schedulerAbsences.serial = serial) :
    (saving initial).callAlone (fun _ => none) serial (.create scope input) db = settled db
      ((SchedulerStore.createAbsence db scope input).map fun (absence, after) => (.created absence, after)) := by
  subst next
  have fresh : ∀ a ∈ db.schedulerAbsences.rows, (some a.id ≠ none) = (a.id ≠ db.schedulerAbsences.serial) := by
    intro a member
    have below := db.schedulerAbsences.below a member
    exact propext ⟨fun _ => Int.ne_of_lt below, fun _ => Option.some_ne_none a.id⟩
  have constraint := @absenceConstraint_eq db scope input none (newAbsence scope input db.schedulerAbsences.serial) rfl rfl
    rfl rfl rfl fresh
  have begins : (saving initial).alone (fun _ => none) 0 db.schedulerAbsences.serial (createAbsence scope input) db =
      (saving initial).alone (fun _ => none) 1 (db.schedulerAbsences.serial + 1) (enforceNoOverlap scope
        (newAbsence scope input db.schedulerAbsences.serial) (ask scope
          (.insert (newAbsence scope input db.schedulerAbsences.serial)) fun _ =>
            commit (.created (absenceOfRow (newAbsence scope input db.schedulerAbsences.serial))))) db := rfl
  rw [Database.callAlone, show (saving initial).program (.create scope input) = createAbsence scope input from rfl, begins,
    enforceNoOverlap_alone (show (newAbsence scope input db.schedulerAbsences.serial).startDate ≤ _ from ordered),
    SchedulerStore.createAbsence, constraint]
  cases overlapping db scope (newAbsence scope input db.schedulerAbsences.serial) with
  | true => rfl
  | false =>
    cases violated : violation db scope (newAbsence scope input db.schedulerAbsences.serial) with
    | some e => simp [ask, Database.alone, saving, execute, perform, insert, violated, insertRow, fail, settled, Except.map]
    | none =>
      simp only [ask, Database.alone, saving, execute, perform, insert, violated, insertRow, commit, settled, Except.map,
        Bool.false_eq_true, if_false, put]
      exact congrArg (fun t : Table SchedulerAbsenceRow => (_, { db with schedulerAbsences := t }))
        (@Table.put_serial _ _ db.schedulerAbsences (newAbsence scope input) fun _ => rfl)

/-- A change of the row under its id, written as a whole row or as the fields that change. -/
theorem replace_changed {id : SchedulerAbsenceId} {row : SchedulerAbsenceRow}
    (reached : db.schedulerAbsences.reach (·.companyId = scope) id = some row) :
    replace (changedAbsence input row) db = { db with
      schedulerAbsences :=
        (db.schedulerAbsences.updateAt (·.companyId = scope) id (changedAbsence input) fun _ => rfl).2 } := by
  obtain ⟨found, visible⟩ := Table.reach_eq_some_iff.mp reached
  obtain ⟨there, same⟩ := Table.find_eq_some_iff.mp found
  have rows : (replace (changedAbsence input row) db).schedulerAbsences =
      (db.schedulerAbsences.updateAt (·.companyId = scope) id (changedAbsence input) fun _ => rfl).2 := by
    refine Table.ext (List.map_congr_left fun a member => ?_) rfl
    show (if decide (a.id = row.id) = true then { changedAbsence input row with id := a.id } else a) =
      if (decide (a.id = id) && decide (a.companyId = scope)) = true then changedAbsence input a else a
    rw [show row.id = id from same]
    by_cases here : a.id = id
    · obtain rfl : a = row := Table.key_inj member there (here.trans same.symm)
      rw [visible, decide_eq_true here, Bool.and_self, if_pos rfl, if_pos rfl]
      rfl
    · rw [decide_eq_false here, Bool.false_and, if_neg Bool.false_ne_true, if_neg Bool.false_ne_true]
  exact congrArg (fun t : Table SchedulerAbsenceRow => { db with schedulerAbsences := t }) rows

theorem updateAbsence_alone {id : SchedulerAbsenceId} (ordered : input.startDate ≤ input.endDate) :
    (saving initial).callAlone (fun _ => none) serial (.update scope id input) db = settled db
      ((SchedulerStore.updateAbsence db scope id input).map fun (absence, after) => (.updated absence, after)) := by
  have locked : (lockRow db db scope id).on db = (.ok (db.schedulerAbsences.reach (·.companyId = scope) id), db) := by
    rw [lockRow, present]
    cases db.schedulerAbsences.reach (·.companyId = scope) id <;> rfl
  have undrawn : serial + (lockRow db db scope id).drawn = serial := by
    rw [lockRow]
    cases present db db scope id <;> exact Int.add_zero serial
  rw [Database.callAlone, show (saving initial).program (.update scope id input) = updateAbsence scope id input from rfl,
    updateAbsence, ask, alone_stmt locked undrawn]
  unfold SchedulerStore.updateAbsence checkedChange
  cases reached : db.schedulerAbsences.reach (·.companyId = scope) id with
  | none =>
    have same : (db.schedulerAbsences.updateAt (·.companyId = scope) id (changedAbsence input) fun _ => rfl).2 =
        db.schedulerAbsences :=
      @Table.update_eq_self _ _ _ _ (changedAbsence input) (fun _ => rfl) (Table.reach_eq_none_iff.mp reached)
    simp only [Database.alone, commit, changeRow, Table.updateAt, reached, settled, Except.map]
    exact congrArg (fun t : Table SchedulerAbsenceRow => (_, { db with schedulerAbsences := t })) same.symm
  | some row =>
    obtain ⟨found, visible⟩ := Table.reach_eq_some_iff.mp reached
    obtain ⟨there, same⟩ := Table.find_eq_some_iff.mp found
    have named : ∀ a ∈ db.schedulerAbsences.rows, (some a.id ≠ some id) = (a.id ≠ (changedAbsence input row).id) := by
      intro a member
      rw [show (changedAbsence input row).id = id from same, ne_eq, Option.some_inj]
    have constraint := @absenceConstraint_eq db scope input (some id) (changedAbsence input row) (of_decide_eq_true visible)
      rfl rfl rfl rfl named
    dsimp only
    rw [enforceNoOverlap_alone (show (changedAbsence input row).startDate ≤ _ from ordered), constraint]
    cases overlapping db scope (changedAbsence input row) with
    | true => rfl
    | false =>
      cases violated : violation db scope (changedAbsence input row) with
      | some e => simp [ask, Database.alone, saving, execute, perform, update, violated, fail, settled, Except.map]
      | none =>
        simp only [ask, Database.alone, saving, execute, perform, update, violated, commit, settled, Except.map,
          Bool.false_eq_true, if_false, replace_changed reached, changeRow, Table.updateAt, reached, Option.map_some]

/-- What passes the check of the use cases is a period. -/
theorem validate_ordered (valid : input.validate = .ok ()) : input.startDate ≤ input.endDate := by
  rw [AbsenceInput.validate] at valid
  split at valid
  · cases valid
  · split at valid
    · cases valid
    · next ordered => exact Int.not_lt.mp ordered

theorem settled_committed {α : Type} {wrap : α → Saved} {result : Except PortError (α × Db)} :
    (settled db (result.map fun (value, after) => (wrap value, after))).2 = (committed db result).2 := by
  cases result <;> rfl

/-- What a use case leaves is what a run commits: a refused input starts no transaction. -/
theorem createAbsence_committed {s : SessionUser} (start : initial db serial) (next : db.schedulerAbsences.serial = serial) :
    ∃ config, (saving initial).machine.Reachable config ∧
      config.committed = (SchedulerService.createAbsence db s input).2 := by
  unfold SchedulerService.createAbsence
  cases valid : input.validate with
  | error e => exact ⟨⟨db, serial, []⟩, ⟨⟨db, serial, []⟩, ⟨start, rfl⟩, .refl⟩, rfl⟩
  | ok _ =>
    simp only [inDomain, attempt]
    rw [← settled_committed,
      ← @createAbsence_alone db s.principal.companyId serial input initial (validate_ordered valid) next]
    exact callAlone_reachable (fun _ _ => rfl) start

theorem updateAbsence_committed {s : SessionUser} {id : SchedulerAbsenceId} (start : initial db serial) :
    ∃ config, (saving initial).machine.Reachable config ∧
      config.committed = (SchedulerService.updateAbsence db s id input).2 := by
  unfold SchedulerService.updateAbsence
  cases valid : input.validate with
  | error e => exact ⟨⟨db, serial, []⟩, ⟨⟨db, serial, []⟩, ⟨start, rfl⟩, .refl⟩, rfl⟩
  | ok _ =>
    simp only [inDomain, attempt]
    rw [orNotFound_after, ← settled_committed,
      ← @updateAbsence_alone db s.principal.companyId serial input initial id (validate_ordered valid)]
    exact callAlone_reachable (fun _ _ => rfl) start

end Alone

end AbsencePrograms
