import PmKonstruct.Forms.EtoStore
import PmKonstruct.Library.ReadCommitted

/- Raising an extra to order as a transaction under READ COMMITTED. The upsert of the job's sequence is the allocation: a
   second one waits for the place of the job in the unique index, and then goes by what is there. -/
namespace EtoPrograms
open PlainText DomainErrors Accounts CalendarDate Schema KeyedTable RowSecurity Requests EtoNote ReadCommitted
open StatementProgram (Program)
open EtoStore (EtoRaised)

inductive Query where
  | selectJob (job : JobId)
  | allocateNumber (job : JobId)
  | insertEntry (job : JobId) (author : UserId) (date : Date) (workCompleted : Text)
  | insertNote (entry : DiaryEntryId) (content : Text) (raisedBy : UserId) (now : Instant)

abbrev Reply : Query → Type
  | .selectJob _ => Option JobRow
  | .allocateNumber _ => Int
  | .insertEntry _ _ _ _ => DiaryEntryId
  | .insertNote _ _ _ _ => DiaryNoteId

/-- A statement runs for the company its transaction was opened for. -/
structure Statement where
  scope : CompanyId
  query : Query

abbrev Answer (statement : Statement) : Type := Except PortError (Reply statement.query)

/-- The place of a job in the primary key of the sequences. -/
inductive Lock where
  | sequence (job : JobId)
  deriving DecidableEq

def failing {α : Type} (e : PortError) : Effect (Except PortError α) Db Lock := .answers (.error e)

def nextOf (rows : List EtoJobSequenceRow) (job : JobId) : Option Int := (rows.find? (·.jobId = job)).map (·.nextNumber)

/-- A new row starts at 2, and a row that is there goes up by one. -/
def bumped (rows : List EtoJobSequenceRow) (job : JobId) : Int :=
  match nextOf rows job with
  | none => 2
  | some number => number + 1

def putSequence (job : JobId) (next : Int) : List EtoJobSequenceRow → List EtoJobSequenceRow
  | [] => [⟨job, next⟩]
  | row :: rest => if row.jobId = job then ⟨job, next⟩ :: rest else row :: putSequence job next rest

section Statements
variable (snapshot current : Db) (scope : CompanyId) (serial : Int)

/-- The column is a signed 32-bit number. -/
def allocateNumber (job : JobId) : Effect (Except PortError Int) Db Lock :=
  match firstViolation [
      (!jobInScope snapshot scope job, rowDenied "eto_job_sequences"),
      ((current.jobs.find job).isNone, .conflict (some "eto_job_sequences_job_id_fkey"))] with
  | some e => failing e
  | none =>
    let next := bumped current.etoJobSequences job
    if next < 2 ^ 31 then
      { answer := .ok (next - 1)
        change := fun db => { db with etoJobSequences := putSequence job next db.etoJobSequences }
        awaits := []
        takes := [.sequence job]
        drawn := 0 }
    else failing (.storage "error returned from database: integer out of range")

def insertEntry (job : JobId) (author : UserId) (date : Date) (workCompleted : Text) :
    Effect (Except PortError DiaryEntryId) Db Lock :=
  match firstViolation [
      (!jobInScope snapshot scope job, rowDenied "site_diary"),
      ((current.users.find author).isNone, .conflict (some "site_diary_author_id_users_id_fk")),
      ((current.jobs.find job).isNone, .conflict (some "site_diary_job_id_jobs_id_fk"))] with
  | some e => failing e
  | none =>
    let entry : SiteDiaryRow := ⟨serial, job, some author, date, workCompleted, none, none⟩
    { answer := .ok serial
      change := fun db => { db with siteDiary := db.siteDiary.put entry }
      awaits := []
      takes := []
      drawn := 1 }

def insertNote (entry : DiaryEntryId) (content : Text) (raisedBy : UserId) (now : Instant) :
    Effect (Except PortError DiaryNoteId) Db Lock :=
  match firstViolation [
      (!entryInScope snapshot scope entry, rowDenied "diary_notes"),
      ((current.users.find raisedBy).isNone, .conflict (some "diary_notes_action_raised_by_users_id_fk")),
      ((current.siteDiary.find entry).isNone, .conflict (some "diary_notes_diary_entry_id_site_diary_id_fk"))] with
  | some e => failing e
  | none =>
    let note : DiaryNoteRow := ⟨serial, entry, .listed .eto, content, some .action, some raisedBy, 0, false, now⟩
    { answer := .ok serial
      change := fun db => { db with diaryNotes := db.diaryNotes.put note }
      awaits := []
      takes := []
      drawn := 1 }

def perform : (query : Query) → Effect (Except PortError (Reply query)) Db Lock
  | .selectJob job => .answers (.ok (snapshot.jobs.reach (·.companyId = scope) job))
  | .allocateNumber job => allocateNumber snapshot current scope job
  | .insertEntry job author date workCompleted => insertEntry snapshot current scope serial job author date workCompleted
  | .insertNote entry content raisedBy now => insertNote snapshot current scope serial entry content raisedBy now

end Statements

/-- Any statement may meet a fault of the driver. -/
def execute (fault : Option PortError) (serial : Int) (statement : Statement) (snapshot current : Db) :
    Effect (Answer statement) Db Lock :=
  match fault with
  | some e => failing e
  | none => perform snapshot current statement.scope serial statement.query

/- The transaction. -/

abbrev Result : Type := Except PortError EtoRaised

abbrev Steps : Type := Program Statement Answer (Ending Result)

def fail (e : PortError) : Steps := .done (.rollback (.error e))

/-- A call, with the time its transaction begins and the stamp it is given. -/
structure Request where
  scope : CompanyId
  author : UserId
  authorName : Text
  input : EtoInput
  date : Date
  now : Instant

/-- The error of a statement ends the transaction. -/
def ask (scope : CompanyId) (query : Query) (next : Reply query → Steps) : Steps :=
  .stmt ⟨scope, query⟩ fun answer =>
    match answer with
    | .error e => fail e
    | .ok reply => next reply

def raiseEto (request : Request) : Steps :=
  let input := request.input
  ask request.scope (.selectJob input.jobId) fun
  | none => fail .notFound
  | some job =>
    let header : JobHeader := ⟨job.jobNumber, job.name, job.address⟩
    ask request.scope (.allocateNumber input.jobId) fun number =>
      let po := poNumber number header.jobNumber input.jobId
      ask request.scope (.insertEntry input.jobId request.author request.date (etoEntrySummary po)) fun entry =>
        let content := etoNote po request.authorName header input
        ask request.scope (.insertNote entry content request.author request.now) fun note =>
          .done (.commit (.ok ⟨entry, note, number, po, request.authorName⟩))

abbrev Raising : Type := Transaction Statement Answer Result Request Db Lock

abbrev Raisings : Type := Config Statement Answer Result Request Db Lock

/-- Any number of calls, on any jobs, in any order of their statements; any of them may abort at any time. -/
def raising (initial : Db → Int → Prop) : Database Statement Answer Result Request (Option PortError) Db Lock where
  program := raiseEto
  execute := execute
  conflicts a b := a = b
  initial := initial
  permits _ _ := true

/- A call that nobody interrupts is the call of the repository. -/

section Alone
variable {db : Db} {scope : CompanyId} {serial : Int} {job : JobId} {row : JobRow} {rows : List EtoJobSequenceRow}

theorem putSequence_bumped : putSequence job (bumped rows job) rows = EtoStore.bumpSequence job rows := by
  induction rows with
  | nil => rfl
  | cons row rest ih =>
    rw [putSequence, EtoStore.bumpSequence]
    by_cases same : row.jobId = job
    · simp [bumped, nextOf, same]
    · simp only [bumped, nextOf, List.find?_cons, same, decide_false, if_false] at ih ⊢
      rw [ih]

theorem find_bumpSequence : ((EtoStore.bumpSequence job rows).find? (·.jobId = job)).map (·.nextNumber) =
    some (bumped rows job) := by
  induction rows with
  | nil => simp [bumped, nextOf, EtoStore.bumpSequence]
  | cons row rest ih =>
    rw [EtoStore.bumpSequence]
    by_cases same : row.jobId = job
    · simp [bumped, nextOf, same]
    · simp only [bumped, nextOf, List.find?_cons, same, decide_false, if_false] at ih ⊢
      exact ih

theorem allocateNumber_on (reached : db.jobs.reach (·.companyId = scope) job = some row) :
    (perform db db scope serial (.allocateNumber job)).on db = settled db (EtoStore.allocateNumber db job) := by
  obtain ⟨found, owned⟩ := Table.reach_eq_some_iff.mp reached
  have visible : jobInScope db scope job = true := by rw [jobInScope, found]; exact owned
  simp only [perform, allocateNumber, EtoStore.allocateNumber, firstViolation, visible, found, Option.isNone_some,
    Bool.not_true, Bool.false_eq_true, if_false, find_bumpSequence, Option.getD_some]
  split
  · simp only [Effect.on, putSequence_bumped, settled]
  · rfl

theorem insertEntry_on {author : UserId} {date : Date} {work : Text} (next : db.siteDiary.serial = serial) :
    (perform db db scope serial (.insertEntry job author date work)).on db =
      settled db ((DiaryStore.insertEntry db scope job author date work).map fun (entry, after) => (entry.id, after)) := by
  subst next
  simp only [perform, insertEntry, DiaryStore.insertEntry, insertRow]
  generalize firstViolation _ = violated
  cases violated with
  | some e => rfl
  | none => simp only [Effect.on, Except.map, settled, ← Table.put_serial]

theorem insertNote_on {entry : DiaryEntryId} {content : Text} {raiser : UserId} {now : Instant}
    (next : db.diaryNotes.serial = serial) :
    (perform db db scope serial (.insertNote entry content raiser now)).on db =
      settled db ((DiaryStore.insertNote db scope now entry (.listed .eto) content (some (.action, raiser))).map
        fun (note, after) => (note.id, after)) := by
  subst next
  simp only [perform, insertNote, DiaryStore.insertNote, insertRow, Option.map_some, Option.any_some]
  generalize firstViolation _ = violated
  cases violated with
  | some e => rfl
  | none => simp only [Effect.on, Except.map, settled, ← Table.put_serial]

theorem allocateNumber_drawn : serial + (perform db db scope serial (.allocateNumber job)).drawn = serial := by
  simp only [perform, allocateNumber]
  split
  · exact Int.add_zero serial
  · split <;> exact Int.add_zero serial

theorem insertEntry_drawn {author : UserId} {date : Date} {work : Text} {entry : SiteDiaryRow} {after : Db}
    (inserted : DiaryStore.insertEntry db scope job author date work = .ok (entry, after)) :
    serial + (perform db db scope serial (.insertEntry job author date work)).drawn = serial + 1 := by
  obtain ⟨written, -⟩ := insertRow_ok inserted
  simp only [perform, insertEntry, written]
  rfl

section Ask
variable {initial : Db → Int → Prop} {query : Query} {next : Reply query → Steps} {n : Nat}
    {result : Except PortError (Reply query × Db)}

theorem alone_failed {e : PortError} (comes : (perform db db scope serial query).on db = settled db result)
    (failed : result = .error e) :
    (raising initial).alone (fun _ => none) n serial (ask scope query next) db = (.rollback (.error e), db) := by
  subst failed
  exact @alone_stmt _ _ _ _ _ _ _ (raising initial) (fun _ => none) n serial _ ⟨scope, query⟩ db _ _ _ comes rfl

theorem alone_done {reply : Reply query} {after : Db} {later : Int}
    (comes : (perform db db scope serial query).on db = settled db result) (done : result = .ok (reply, after))
    (draws : serial + (perform db db scope serial query).drawn = later) :
    (raising initial).alone (fun _ => none) n serial (ask scope query next) db =
      (raising initial).alone (fun _ => none) (n + 1) later (next reply) after := by
  subst done
  exact @alone_stmt _ _ _ _ _ _ _ (raising initial) (fun _ => none) n serial later ⟨scope, query⟩ db _ _ _ comes draws

end Ask

theorem allocated_apart {number : Int} {after : Db} (allocated : EtoStore.allocateNumber db job = .ok (number, after)) :
    after.siteDiary = db.siteDiary ∧ after.diaryNotes = db.diaryNotes := by
  simp only [EtoStore.allocateNumber] at allocated
  split at allocated
  · cases allocated
    exact ⟨rfl, rfl⟩
  · cases allocated

/-- The statements of a call that nobody interrupts come to the call of the repository, when the two rows get the ids it
    would give them. -/
theorem raiseEto_alone {initial : Db → Int → Prop} {request : Request} (entry : db.siteDiary.serial = serial)
    (note : db.diaryNotes.serial = serial + 1) :
    (raising initial).callAlone (fun _ => none) serial request db = settled db
      (EtoStore.raiseEto db request.scope request.now request.author request.authorName request.input request.date) := by
  have program : (raising initial).program request = raiseEto request := rfl
  have selects : (perform db db request.scope serial (.selectJob request.input.jobId)).on db =
    settled db (.ok (db.jobs.reach (·.companyId = request.scope) request.input.jobId, db)) := rfl
  rw [Database.callAlone, program, raiseEto, EtoStore.raiseEto, alone_done selects rfl (Int.add_zero serial)]
  cases reached : db.jobs.reach (·.companyId = request.scope) request.input.jobId with
  | none => rfl
  | some job =>
    have allocates := @allocateNumber_on db request.scope serial _ _ reached
    cases allocated : EtoStore.allocateNumber db request.input.jobId with
    | error e =>
      dsimp only
      rw [alone_failed allocates allocated]
      rfl
    | ok pair =>
      obtain ⟨number, counted⟩ := pair
      obtain ⟨entries, notes⟩ := allocated_apart allocated
      dsimp only
      rw [alone_done allocates allocated allocateNumber_drawn]
      have inserts := @insertEntry_on counted request.scope serial request.input.jobId request.author request.date
        (etoEntrySummary (poNumber number job.jobNumber request.input.jobId)) ((congrArg Table.serial entries).trans entry)
      simp only [bind, Except.bind]
      cases inserted : DiaryStore.insertEntry counted request.scope request.input.jobId request.author request.date
        (etoEntrySummary (poNumber number job.jobNumber request.input.jobId)) with
      | error e =>
        rw [alone_failed inserts (by rw [inserted]; rfl)]
        rfl
      | ok pair =>
        obtain ⟨row, entered⟩ := pair
        have same := (insertRow_ok inserted).2
        have next : entered.diaryNotes.serial = serial + 1 := by
          rw [same]
          exact (congrArg Table.serial notes).trans note
        rw [alone_done inserts (by rw [inserted]; rfl) (insertEntry_drawn inserted)]
        have inserts := @insertNote_on entered request.scope (serial + 1) row.id
          (etoNote (poNumber number job.jobNumber request.input.jobId) request.authorName
            ⟨job.jobNumber, job.name, job.address⟩ request.input) request.author request.now next
        cases inserted : DiaryStore.insertNote entered request.scope request.now row.id (.listed .eto)
          (etoNote (poNumber number job.jobNumber request.input.jobId) request.authorName
            ⟨job.jobNumber, job.name, job.address⟩ request.input) (some (.action, request.author)) with
        | error e =>
          rw [alone_failed inserts (by rw [inserted]; rfl)]
          simp only [inserted]
          rfl
        | ok pair =>
          rw [alone_done inserts (by rw [inserted]; rfl) rfl]
          simp only [inserted]
          rfl

/-- What the repository leaves is what a run of one call commits. -/
theorem raiseEto_committed {initial : Db → Int → Prop} {request : Request} (start : initial db serial)
    (entry : db.siteDiary.serial = serial) (note : db.diaryNotes.serial = serial + 1) :
    ∃ config, (raising initial).machine.Reachable config ∧ config.committed = (settled db
      (EtoStore.raiseEto db request.scope request.now request.author request.authorName request.input request.date)).2 := by
  rw [← @raiseEto_alone db serial initial request entry note]
  exact callAlone_reachable (fun _ _ => rfl) start

end Alone

end EtoPrograms
