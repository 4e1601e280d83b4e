import PmKonstruct.Media.DeletionPrograms
import PmKonstruct.Media.LiveKeys

/- No object is left without a row and out of the queue, as long as no upload commits under a root whose list a deletion
   has begun to read, and no row names another entry's note. The list is one statement and the cascade another, so a
   row that comes between the two goes with the cascade and is on no list. -/
namespace OrphanedObjects
open DomainErrors Accounts Schema KeyedTable RowSecurity TransitionRuns ReadCommitted DeletionQueue DeletionPrograms
open StatementProgram (Event)
open MediaStore (MediaOwner MediaRecord)
open LiveKeys (Shrinks cascadeNotes_shrinks cascadeEntries_shrinks cascadeJobs_shrinks mem_visibleMedia)
open PlainText (Text text)

/-- Every media row that goes in a step has its key in the queue by then. -/
structure Queued (before after : Db) : Prop where
  media : ∀ m ∈ before.diaryMedia.rows, m ∉ after.diaryMedia.rows → ∀ company,
    entryInScope before company m.diaryEntryId = true → diaryKey company m ∈ after.mediaDeletionQueue
  files : ∀ f ∈ before.jobMedia.rows, f ∉ after.jobMedia.rows → ∀ company,
    jobInScope before company f.jobId = true → jobKey company f ∈ after.mediaDeletionQueue

/-- A row that names a note names one of its own entry. -/
def Tidy (db : Db) : Prop :=
  ∀ m ∈ db.diaryMedia.rows, ∀ note row, m.noteId = some note → db.diaryNotes.find note = some row →
    row.diaryEntryId = m.diaryEntryId

/- The condition on a run. -/

/-- The statement lists the media of the owner. -/
def lists (db : Db) (statement : Statement) (owner : MediaOwner) : Bool :=
  match statement.query, owner with
  | .selectFiles job, .job other => other = job && jobInScope db statement.scope other
  | .selectMedia (.job job), .diary entry _ =>
    (db.siteDiary.find entry).any (·.jobId = job) && entryInScope db statement.scope entry
  | .selectMedia (.entry id), .diary entry _ => entry = id && entryInScope db statement.scope entry
  | .selectMedia (.note id), .diary entry note => note = some id && entryInScope db statement.scope entry
  | _, _ => false

abbrev Trace : Type := List (Event Statement Answer)

abbrev Point : Type := Phase Statement Answer (Except PortError Outcome) Db

/-- A deletion has begun to read the list that the owner's media are on, and has not ended. -/
def underway (db : Db) (tx : Running) (owner : MediaOwner) : Bool := tx.begun fun statement => lists db statement owner

def clashes (db : Db) (tx other : Running) : Bool :=
  match tx.request.call with
  | .record rec _ => underway db other rec.owner
  | _ => false

def ownNote (db : Db) : MediaOwner → Bool
  | .diary entry note => note.all fun n => (db.diaryNotes.find n).all (·.diaryEntryId = entry)
  | .job _ => true

/-- An upload commits with a note of its own entry. -/
def ownNotes (config : Runs) : Label Request (Option PortError) → Bool
  | .finish i => config.transactions[i]?.all fun tx => !tx.commits ||
      match tx.request.call with
      | .record rec _ => ownNote config.committed rec.owner
      | _ => true
  | _ => true

def separate (config : Runs) (label : Label Request (Option PortError)) : Bool :=
  separately clashes config label && ownNotes config label

/- What a cascade takes. -/

section Cascade
variable {db : Db} {root : Root} {m : DiaryMediaRow} {f : JobMediaRow}

theorem find_key {Row : Type} [Keyed Row] {t : Table Row} {id other : Int} {row : Row} (found : t.find id = some row)
    (same : Keyed.key row = other) : id = other :=
  (Table.find_eq_some_iff.mp found).2.symm.trans same

/-- Under tidy notes a note takes media of its own entry, so everything that goes with an entry names it. -/
theorem entry_takes {gone : SiteDiaryRow → Bool} (tidy : Tidy db) (there : m ∈ db.diaryMedia.rows)
    (taken : m ∉ (cascadeEntries gone db).diaryMedia.rows) : (db.siteDiary.find m.diaryEntryId).any gone = true := by
  by_contra spared
  rw [Bool.not_eq_true] at spared
  refine taken (Table.mem_delete.mpr ⟨LiveKeys.cascadeNotes_media.mpr ⟨there, ?_⟩, spared⟩)
  cases named : m.noteId with
  | none => rfl
  | some note =>
    rw [Option.any_some]
    cases found : db.diaryNotes.find note with
    | none => rfl
    | some row =>
      rw [Option.any_some, tidy m there note row named found]
      exact spared

theorem cascade_takes (tidy : Tidy db) (there : m ∈ db.diaryMedia.rows)
    (taken : m ∉ (cascade root db).diaryMedia.rows) : under db root m = true := by
  cases root with
  | job id =>
    have entries : m ∉ (cascadeEntries (fun e => (db.jobs.find e.jobId).any fun j => j.id = id) db).diaryMedia.rows := taken
    obtain ⟨entry, found, gone⟩ := (Option.any_eq_true _ _).mp (entry_takes tidy there entries)
    obtain ⟨job, located, same⟩ := (Option.any_eq_true _ _).mp gone
    refine (Option.any_eq_true _ _).mpr ⟨entry, found, decide_eq_true ?_⟩
    exact find_key located (of_decide_eq_true same)
  | entry id =>
    have entries : m ∉ (cascadeEntries (fun e => e.id = id) db).diaryMedia.rows := taken
    obtain ⟨entry, found, same⟩ := (Option.any_eq_true _ _).mp (entry_takes tidy there entries)
    exact decide_eq_true (find_key found (of_decide_eq_true same))
  | note id =>
    have gone : (m.noteId.any fun note => (db.diaryNotes.find note).any fun n => n.id = id) = true := by
      by_contra spared
      rw [Bool.not_eq_true] at spared
      exact taken (LiveKeys.cascadeNotes_media.mpr ⟨there, spared⟩)
    obtain ⟨note, named, found⟩ := (Option.any_eq_true _ _).mp gone
    obtain ⟨row, located, same⟩ := (Option.any_eq_true _ _).mp found
    rw [find_key located (of_decide_eq_true same)] at named
    exact decide_eq_true named

theorem cascade_takes_file (there : f ∈ db.jobMedia.rows) (taken : f ∉ (cascade root db).jobMedia.rows) :
    root = .job f.jobId := by
  cases root with
  | job id =>
    have gone : (db.jobs.find f.jobId).any (fun j => j.id = id) = true := by
      by_contra spared
      rw [Bool.not_eq_true] at spared
      exact taken (Table.mem_delete.mpr ⟨there, spared⟩)
    obtain ⟨job, located, same⟩ := (Option.any_eq_true _ _).mp gone
    rw [find_key located (of_decide_eq_true same)]
  | entry id => exact absurd there taken
  | note id => exact absurd there taken

/-- What hangs off a root that is the company's is the company's. -/
theorem under_scope {scope : CompanyId} (tidy : Tidy db) (there : m ∈ db.diaryMedia.rows)
    (hangs : under db root m = true) (visible : rootInScope db scope root = true) :
    entryInScope db scope m.diaryEntryId = true := by
  cases root with
  | job id =>
    obtain ⟨entry, found, same⟩ := (Option.any_eq_true _ _).mp hangs
    refine (Option.any_eq_true _ _).mpr ⟨entry, found, ?_⟩
    rw [of_decide_eq_true same]
    exact visible
  | entry id =>
    rw [of_decide_eq_true hangs]
    exact visible
  | note id =>
    obtain ⟨row, found, seen⟩ := (Option.any_eq_true _ _).mp visible
    rwa [tidy m there id row (of_decide_eq_true hangs) found] at seen

end Cascade

/- Where a call stands. The lists are read of the snapshot, and what is known of them is said of the store as it is. -/

structure Filed (stored : Db) (trace : Trace) (scope : CompanyId) (root : Root) (keys : List Text) : Prop where
  files : ∀ f ∈ stored.jobMedia.rows, root = .job f.jobId → jobInScope stored scope f.jobId = true →
    jobKey scope f ∈ keys
  read : ∀ job, root = .job job → ∃ event ∈ trace, event.statement = ⟨scope, .selectFiles job⟩

structure Listed (stored : Db) (trace : Trace) (scope : CompanyId) (root : Root) (keys : List Text) : Prop
    extends Filed stored trace scope root keys where
  media : ∀ m ∈ stored.diaryMedia.rows, under stored root m = true → entryInScope stored scope m.diaryEntryId = true →
    diaryKey scope m ∈ keys
  shown : ∃ event ∈ trace, event.statement = ⟨scope, .selectMedia root⟩

/-- What a deletion that is ready to commit does to any store. -/
structure Removes (stored : Db) (change : Db → Db) : Prop where
  shrinks : ∀ db, Shrinks db (change db)
  notes : ∀ db id row, (change db).diaryNotes.find id = some row → db.diaryNotes.find id = some row
  media : ∀ db, ∀ m ∈ db.diaryMedia.rows, m ∉ (change db).diaryMedia.rows → ∀ company,
    entryInScope stored company m.diaryEntryId = true → diaryKey company m ∈ (change db).mediaDeletionQueue
  files : ∀ db, ∀ f ∈ db.jobMedia.rows, f ∉ (change db).jobMedia.rows → ∀ company,
    jobInScope stored company f.jobId = true → jobKey company f ∈ (change db).mediaDeletionQueue

/-- An upload that is ready to commit adds one row, of the owner it was asked for. -/
structure AddsMedia (rec : MediaRecord) (draws : List Int) (row : DiaryMediaRow) : Prop where
  owner : rec.owner = .diary row.diaryEntryId row.noteId
  drawn : row.id ∈ draws

structure AddsFile (rec : MediaRecord) (draws : List Int) (row : JobMediaRow) : Prop where
  owner : rec.owner = .job row.jobId
  drawn : row.id ∈ draws

def queueing (keys : List Text) (db : Db) : Db := { db with mediaDeletionQueue := enqueue db.mediaDeletionQueue keys }

inductive Stands (stored : Db) (call : Call) : Trace → List Int → (Db → Db) → Point → Prop where
  | filing {trace : Trace} {draws : List Int} {scope : CompanyId} {job : JobId} : Stands stored call trace draws id
      (.ready (.stmt ⟨scope, .selectFiles job⟩ (orFail fun names =>
        listing scope (.job job) (names.map fun storedName => objectKey scope (text "job") job storedName))))
  | files {trace : Trace} {draws : List Int} {scope : CompanyId} {job : JobId} {snapshot : Db}
      (found : ∀ f ∈ stored.jobMedia.rows, f.jobId = job → jobInScope stored scope f.jobId = true →
        f.storedName ∈ selectFiles snapshot scope job) : Stands stored call trace draws id
      (.started snapshot ⟨scope, .selectFiles job⟩ (orFail fun names =>
        listing scope (.job job) (names.map fun storedName => objectKey scope (text "job") job storedName)))
  | listing {trace : Trace} {draws : List Int} {scope : CompanyId} {root : Root} {keys : List Text}
      (filed : Filed stored trace scope root keys) : Stands stored call trace draws id
      (.ready (.stmt ⟨scope, .selectMedia root⟩ (orFail fun rows => enqueueing scope root
        (keys ++ rows.map fun (storedName, entry) => objectKey scope (text "diary") entry storedName))))
  | lists {trace : Trace} {draws : List Int} {scope : CompanyId} {root : Root} {keys : List Text} {snapshot : Db}
      (filed : Filed stored trace scope root keys)
      (found : ∀ m ∈ stored.diaryMedia.rows, under stored root m = true →
        entryInScope stored scope m.diaryEntryId = true →
        (m.storedName, m.diaryEntryId) ∈ selectMedia snapshot scope root) : Stands stored call trace draws id
      (.started snapshot ⟨scope, .selectMedia root⟩ (orFail fun rows => enqueueing scope root
        (keys ++ rows.map fun (storedName, entry) => objectKey scope (text "diary") entry storedName)))
  | enqueueing {trace : Trace} {draws : List Int} {scope : CompanyId} {root : Root} {keys : List Text}
      (listed : Listed stored trace scope root keys) : Stands stored call trace draws id
      (.ready (.stmt ⟨scope, .enqueue keys⟩ (orFail fun _ => deleting scope root)))
  | enqueues {trace : Trace} {draws : List Int} {scope : CompanyId} {root : Root} {keys : List Text} {snapshot : Db}
      (listed : Listed stored trace scope root keys) : Stands stored call trace draws id
      (.started snapshot ⟨scope, .enqueue keys⟩ (orFail fun _ => deleting scope root))
  | deleting {trace : Trace} {draws : List Int} {scope : CompanyId} {root : Root} {keys : List Text}
      (listed : Listed stored trace scope root keys) : Stands stored call trace draws (queueing keys)
      (.ready (.stmt ⟨scope, .delete root⟩ (orFail fun affected => finished (.deleted affected))))
  | deletes {trace : Trace} {draws : List Int} {scope : CompanyId} {root : Root} {keys : List Text} {snapshot : Db}
      (listed : Listed stored trace scope root keys) : Stands stored call trace draws (queueing keys)
      (.started snapshot ⟨scope, .delete root⟩ (orFail fun affected => finished (.deleted affected)))
  | deleted {trace : Trace} {draws : List Int} {change : Db → Db} {result : Except PortError Outcome}
      (removes : Removes stored change) : Stands stored call trace draws change (.ready (.done (.commit result)))
  | recording {trace : Trace} {draws : List Int} {scope : CompanyId} {rec : MediaRecord} {now : Instant}
      (called : call = .record rec now) : Stands stored call trace draws id
      (.ready (.stmt ⟨scope, .insert rec now⟩ (orFail fun media => finished (.recorded media))))
  | records {trace : Trace} {draws : List Int} {scope : CompanyId} {rec : MediaRecord} {now : Instant} {snapshot : Db}
      (called : call = .record rec now) : Stands stored call trace draws id
      (.started snapshot ⟨scope, .insert rec now⟩ (orFail fun media => finished (.recorded media)))
  | recordedMedia {trace : Trace} {draws : List Int} {rec : MediaRecord} {now : Instant} {row : DiaryMediaRow}
      {result : Except PortError Outcome} (called : call = .record rec now) (adds : AddsMedia rec draws row) :
      Stands stored call trace draws (fun db => { db with diaryMedia := db.diaryMedia.put row })
        (.ready (.done (.commit result)))
  | recordedFile {trace : Trace} {draws : List Int} {rec : MediaRecord} {now : Instant} {row : JobMediaRow}
      {result : Except PortError Outcome} (called : call = .record rec now) (adds : AddsFile rec draws row) :
      Stands stored call trace draws (fun db => { db with jobMedia := db.jobMedia.put row })
        (.ready (.done (.commit result)))
  | failed {trace : Trace} {draws : List Int} {change : Db → Db} {error : PortError} :
      Stands stored call trace draws change (.ready (.done (.rollback (.error error))))
  | committed {trace : Trace} {draws : List Int} {result : Except PortError Outcome} :
      Stands stored call trace draws id (.committed result)
  | undone {trace : Trace} {draws : List Int} {result : Option (Except PortError Outcome)} :
      Stands stored call trace draws id (.undone result)

def Placed (stored : Db) (tx : Running) : Prop := Stands stored tx.request.call tx.trace tx.draws tx.pending tx.phase

/- What the commits of others leave. -/

section After
variable {stored later : Db} {trace : Trace} {scope : CompanyId} {root : Root} {keys : List Text}
    {m : DiaryMediaRow} {f : JobMediaRow}

/-- Owners go, and what comes is on no list that the transaction has begun to read. -/
structure After (stored later : Db) (reads : MediaOwner → Bool) : Prop where
  entries : ∀ id row, later.siteDiary.find id = some row → stored.siteDiary.find id = some row
  jobs : ∀ id row, later.jobs.find id = some row → stored.jobs.find id = some row
  media : ∀ m ∈ later.diaryMedia.rows, m ∈ stored.diaryMedia.rows ∨ reads (.diary m.diaryEntryId m.noteId) = false
  files : ∀ f ∈ later.jobMedia.rows, f ∈ stored.jobMedia.rows ∨ reads (.job f.jobId) = false

theorem lists_media : lists stored ⟨scope, .selectMedia root⟩ (.diary m.diaryEntryId m.noteId) =
    (under stored root m && entryInScope stored scope m.diaryEntryId) := by
  cases root with
  | job id => rfl
  | entry id => rfl
  | note id => rfl

theorem After.job {reads : MediaOwner → Bool} (after : After stored later reads) {company : CompanyId} {job : JobId}
    (seen : jobInScope later company job = true) : jobInScope stored company job = true := by
  obtain ⟨row, found, owned⟩ := (Option.any_eq_true _ _).mp seen
  exact (Option.any_eq_true _ _).mpr ⟨row, after.jobs job row found, owned⟩

theorem After.entry {reads : MediaOwner → Bool} (after : After stored later reads) {company : CompanyId}
    {entry : DiaryEntryId} (seen : entryInScope later company entry = true) :
    entryInScope stored company entry = true := by
  obtain ⟨row, found, visible⟩ := (Option.any_eq_true _ _).mp seen
  exact (Option.any_eq_true _ _).mpr ⟨row, after.entries entry row found, after.job visible⟩

theorem After.hangs {reads : MediaOwner → Bool} (after : After stored later reads)
    (hangs : under later root m = true) : under stored root m = true := by
  cases root with
  | job id =>
    obtain ⟨row, found, same⟩ := (Option.any_eq_true _ _).mp hangs
    exact (Option.any_eq_true _ _).mpr ⟨row, after.entries _ row found, same⟩
  | entry id => exact hangs
  | note id => exact hangs

/-- What the list that is being read, or has been, says of the rows there now. -/
theorem After.mediaOld {reads : MediaOwner → Bool} (after : After stored later reads)
    (reading : ∀ owner, lists stored ⟨scope, .selectMedia root⟩ owner = true → reads owner = true)
    (there : m ∈ later.diaryMedia.rows) (hangs : under later root m = true)
    (visible : entryInScope later scope m.diaryEntryId = true) :
    m ∈ stored.diaryMedia.rows ∧ under stored root m = true ∧ entryInScope stored scope m.diaryEntryId = true := by
  refine ⟨?_, after.hangs hangs, after.entry visible⟩
  rcases after.media m there with old | unread
  · exact old
  · have read := reading (.diary m.diaryEntryId m.noteId)
      (lists_media.trans (Bool.and_eq_true_iff.mpr ⟨after.hangs hangs, after.entry visible⟩))
    rw [unread] at read
    cases read

theorem After.fileOld {reads : MediaOwner → Bool} {job : JobId} (after : After stored later reads)
    (reading : ∀ owner, lists stored ⟨scope, .selectFiles job⟩ owner = true → reads owner = true)
    (there : f ∈ later.jobMedia.rows) (mine : f.jobId = job) (visible : jobInScope later scope f.jobId = true) :
    f ∈ stored.jobMedia.rows ∧ jobInScope stored scope f.jobId = true := by
  refine ⟨?_, after.job visible⟩
  rcases after.files f there with old | unread
  · exact old
  · have read := reading (.job f.jobId) (Bool.and_eq_true_iff.mpr ⟨decide_eq_true mine, after.job visible⟩)
    rw [unread] at read
    cases read

theorem Filed.kept {reads : MediaOwner → Bool} (filed : Filed stored trace scope root keys)
    (after : After stored later reads)
    (reading : ∀ event ∈ trace, ∀ owner, lists stored event.statement owner = true → reads owner = true) :
    Filed later trace scope root keys where
  files := by
    intro f there mine visible
    obtain ⟨event, past, same⟩ := filed.read f.jobId mine
    obtain ⟨old, seen⟩ := after.fileOld (fun owner listed => reading event past owner (by rw [same]; exact listed)) there
      rfl visible
    exact filed.files f old mine seen
  read := filed.read

theorem Listed.kept {reads : MediaOwner → Bool} (listed : Listed stored trace scope root keys)
    (after : After stored later reads)
    (reading : ∀ event ∈ trace, ∀ owner, lists stored event.statement owner = true → reads owner = true) :
    Listed later trace scope root keys where
  toFiled := listed.toFiled.kept after reading
  media := by
    intro m there hangs visible
    obtain ⟨event, past, same⟩ := listed.shown
    obtain ⟨old, below, seen⟩ := after.mediaOld (fun owner listed => reading event past owner (by rw [same]; exact listed))
      there hangs visible
    exact listed.media m old below seen
  shown := listed.shown

theorem Removes.kept {reads : MediaOwner → Bool} {change : Db → Db} (removes : Removes stored change)
    (after : After stored later reads) : Removes later change where
  shrinks := removes.shrinks
  notes := removes.notes
  media := fun db m there gone company visible => removes.media db m there gone company (after.entry visible)
  files := fun db f there gone company visible => removes.files db f there gone company (after.job visible)

theorem placed_after {tx : Running} (placed : Placed stored tx) (after : After stored later (underway stored tx)) :
    Placed later tx := by
  obtain ⟨request, trace, held, draws, pending, phase⟩ := tx
  have past : ∀ point : Point, phase = point → (⟨request, trace, held, draws, pending, point⟩ : Running).live = true →
      ∀ event ∈ trace, ∀ owner, lists stored event.statement owner = true →
        underway stored ⟨request, trace, held, draws, pending, phase⟩ owner = true := by
    rintro point rfl live event member owner reads
    exact begun_past live ⟨event, member, reads⟩
  dsimp only [Placed] at placed ⊢
  cases placed with
  | filing => exact .filing
  | files found =>
    refine .files fun f there mine visible => ?_
    obtain ⟨old, seen⟩ := after.fileOld (fun owner reads => begun_started rfl reads) there
      mine visible
    exact found f old mine seen
  | listing filed => exact .listing (filed.kept after (past _ rfl rfl))
  | lists filed found =>
    refine .lists (filed.kept after (past _ rfl rfl)) fun m there hangs visible => ?_
    obtain ⟨old, below, seen⟩ := after.mediaOld (fun owner reads => begun_started rfl reads)
      there hangs visible
    exact found m old below seen
  | enqueueing listed => exact .enqueueing (listed.kept after (past _ rfl rfl))
  | enqueues listed => exact .enqueues (listed.kept after (past _ rfl rfl))
  | deleting listed => exact .deleting (listed.kept after (past _ rfl rfl))
  | deletes listed => exact .deletes (listed.kept after (past _ rfl rfl))
  | deleted removes => exact .deleted (removes.kept after)
  | recording called => exact .recording called
  | records called => exact .records called
  | recordedMedia called adds => exact .recordedMedia called adds
  | recordedFile called adds => exact .recordedFile called adds
  | failed => exact .failed
  | committed => exact .committed
  | undone => exact .undone

end After

/- The steps of a call. -/

section Steps
variable {stored snapshot : Db} {call : Call} {trace : Trace} {draws : List Int} {scope : CompanyId} {root : Root}
    {keys : List Text}

theorem program_placed {request : Request} : Stands stored request.call trace draws id (.ready (program request)) := by
  obtain ⟨scope, call⟩ := request
  have unfiled : ∀ root : Root, (∀ job, root ≠ .job job) → Filed stored trace scope root [] := fun root other =>
    ⟨fun f _ mine => absurd mine (other _), fun job mine => absurd mine (other job)⟩
  cases call with
  | purge job => exact .filing
  | deleteEntry entry => exact .listing (unfiled _ fun _ => by simp)
  | deleteNote note => exact .listing (unfiled _ fun _ => by simp)
  | record rec now => exact .recording rfl

theorem filed_read {job : JobId} {names : List Text} (past : ∃ event ∈ trace, event.statement = ⟨scope, .selectFiles job⟩)
    (found : ∀ f ∈ stored.jobMedia.rows, f.jobId = job → jobInScope stored scope f.jobId = true → f.storedName ∈ names) :
    Filed stored trace scope (.job job)
      (names.map fun storedName => objectKey scope (text "job") job storedName) where
  files := by
    rintro f there mine visible
    cases mine
    exact List.mem_map_of_mem (found f there rfl visible)
  read := by
    rintro other same
    cases same
    exact past

theorem Filed.extend {event : StatementProgram.Event Statement Answer} (filed : Filed stored trace scope root keys) :
    Filed stored (trace ++ [event]) scope root keys where
  files := filed.files
  read := fun job mine =>
    have ⟨event, past, same⟩ := filed.read job mine
    ⟨event, List.mem_append_left _ past, same⟩

theorem Listed.extend {event : StatementProgram.Event Statement Answer} (listed : Listed stored trace scope root keys) :
    Listed stored (trace ++ [event]) scope root keys where
  toFiled := listed.toFiled.extend
  media := listed.media
  shown :=
    have ⟨event, past, same⟩ := listed.shown
    ⟨event, List.mem_append_left _ past, same⟩

theorem listed_read {rows : List (Text × DiaryEntryId)} (filed : Filed stored trace scope root keys)
    (past : ∃ event ∈ trace, event.statement = ⟨scope, .selectMedia root⟩)
    (found : ∀ m ∈ stored.diaryMedia.rows, under stored root m = true → entryInScope stored scope m.diaryEntryId = true →
      (m.storedName, m.diaryEntryId) ∈ rows) :
    Listed stored trace scope root (keys ++ rows.map fun (storedName, entry) =>
      objectKey scope (text "diary") entry storedName) where
  files := fun f there mine visible => List.mem_append_left _ (filed.files f there mine visible)
  read := filed.read
  media := fun m there hangs visible => List.mem_append_right _ (List.mem_map.mpr ⟨_, found m there hangs visible, rfl⟩)
  shown := past

/-- Without keys there is no statement to queue them. -/
theorem enqueueing_placed (listed : Listed stored trace scope root keys) :
    Stands stored call trace draws id (.ready (enqueueing scope root keys)) := by
  cases keys with
  | nil => exact .deleting listed
  | cons key rest => exact .enqueueing listed

theorem queueing_removes : Removes stored (queueing keys) where
  shrinks := fun _ => .of_eq rfl rfl rfl rfl
  notes := fun _ _ _ found => found
  media := fun _ _ there gone => absurd there gone
  files := fun _ _ there gone => absurd there gone

theorem without_shrinks {before after db : Db} : Shrinks db (without before after db) where
  media := fun _ member => (Table.mem_delete.mp member).1
  files := fun _ member => (Table.mem_delete.mp member).1
  entries := fun _ _ found => Table.find_of_delete found
  jobs := fun _ _ found => Table.find_of_delete found

theorem gone_of_minus {Row : Type} [Keyed Row] [DecidableEq Row] {before after table : Table Row} {row : Row}
    (there : row ∈ table.rows) (removed : row ∉ (minus before after table).rows) :
    row ∈ before.rows ∧ row ∉ after.rows := by
  have went := Table.matched_of_removed there removed
  simpa [gone] using went

/-- What goes with a root the company owns was on its lists. -/
theorem without_removes (tidy : Tidy stored) (visible : rootInScope stored scope root = true)
    (listed : Listed stored trace scope root keys) :
    Removes stored (without (queueing keys stored) (cascade root (queueing keys stored)) ∘ queueing keys) where
  shrinks := fun db =>
    have same : Shrinks db (queueing keys db) := .of_eq rfl rfl rfl rfl
    same.trans without_shrinks
  notes := fun _ _ _ found => Table.find_of_delete found
  media := by
    intro db m there gone company seen
    obtain ⟨stood, taken⟩ : m ∈ stored.diaryMedia.rows ∧ m ∉ (cascade root (queueing keys stored)).diaryMedia.rows :=
      gone_of_minus there gone
    have hangs : under stored root m = true := @cascade_takes (queueing keys stored) root m tidy stood taken
    have mine := under_scope tidy stood hangs visible
    rw [entry_company seen mine]
    exact mem_enqueue.mpr (.inr (listed.media m stood hangs mine))
  files := by
    intro db f there gone company seen
    obtain ⟨stood, taken⟩ : f ∈ stored.jobMedia.rows ∧ f ∉ (cascade root (queueing keys stored)).jobMedia.rows :=
      gone_of_minus there gone
    obtain rfl := @cascade_takes_file (queueing keys stored) root f stood taken
    rw [job_company seen visible]
    exact mem_enqueue.mpr (.inr (listed.files f stood rfl visible))

theorem deleted_placed (tidy : Tidy stored) (listed : Listed stored trace scope root keys)
    {effect : Effect (Except PortError Bool) Db Lock}
    (runs : effect = deleteRoot snapshot (queueing keys stored) scope root) {later : Trace} :
    Stands stored call later draws (effect.change ∘ queueing keys)
      (.ready (orFail (fun affected => finished (.deleted affected)) effect.answer)) := by
  rw [deleteRoot] at runs
  split at runs
  · split at runs
    · next visible =>
      subst runs
      exact .deleted (without_removes tidy visible listed)
    · subst runs
      exact .deleted queueing_removes
  · subst runs
    exact .deleted queueing_removes

theorem recorded_placed {rec : MediaRecord} {now : Instant} {serial : Int} (called : call = .record rec now)
    {effect : Effect (Except PortError MediaStore.Media) Db Lock}
    (runs : effect = insertMedia stored scope serial rec now)
    (drawn : ∀ id, serial ≤ id → id < serial + effect.drawn → id ∈ draws) :
    Stands stored call trace draws effect.change
      (.ready (orFail (fun media => finished (.recorded media)) effect.answer)) := by
  have first : effect.drawn = 1 → serial ∈ draws := fun one => drawn serial (by omega) (by omega)
  rw [insertMedia] at runs
  split at runs
  · next entry note owner =>
    split at runs
    · subst runs
      exact .failed
    · subst runs
      exact .recordedMedia called ⟨owner, first rfl⟩
  · next job owner =>
    split at runs
    · subst runs
      exact .failed
    · subst runs
      exact .recordedFile called ⟨owner, first rfl⟩

end Steps

theorem placed_kept {i : Nat} {tx later : Running} {label : Label Request (Option PortError)} {config : Runs}
    {committed : Db} {serial : Int} {tidy : Db → Prop} {permits : Runs → Label Request (Option PortError) → Bool}
    (acts : Acts (deletions tidy permits) config i tx label committed serial later) (kept : Tidy config.committed)
    (placed : Placed config.committed tx) : Placed committed later := by
  obtain ⟨request, trace, held, draws, pending, phase⟩ := tx
  dsimp only [Placed] at placed
  cases acts with
  | start shape =>
    dsimp only at shape
    subst shape
    cases placed with
    | filing =>
      refine .files fun f there mine visible => List.mem_map_of_mem (List.mem_filter.mpr ⟨there, ?_⟩)
      exact Bool.and_eq_true_iff.mpr ⟨decide_eq_true mine, visible⟩
    | listing filed =>
      refine .lists filed fun m there hangs visible => List.mem_map.mpr ⟨m, ?_, rfl⟩
      exact mem_visibleMedia.mpr ⟨there, hangs, visible⟩
    | enqueueing listed => exact .enqueues listed
    | deleting listed => exact .deletes listed
    | recording called => exact .records called
  | @run env snapshot statement next effect shape runs free =>
    dsimp only at shape runs
    subst shape
    cases env with
    | some fault =>
      subst runs
      cases placed <;> exact .failed
    | none =>
      cases placed with
      | files found =>
        subst runs
        exact .listing (filed_read ⟨_, List.mem_append_right _ (List.mem_singleton_self _), rfl⟩ found)
      | lists filed found =>
        subst runs
        exact enqueueing_placed
          (listed_read filed.extend ⟨_, List.mem_append_right _ (List.mem_singleton_self _), rfl⟩ found)
      | enqueues listed =>
        subst runs
        exact .deleting listed.extend
      | deletes listed => exact deleted_placed kept listed runs
      | records called =>
        refine recorded_placed called runs fun id above below => ?_
        exact mem_draws.mpr (.inr ⟨above, below⟩)
  | commit shape => exact .committed
  | rollback shape => exact .undone
  | abort live => exact .undone

/- What a commit writes. -/

def Uses (db : Db) (id : Int) : Prop :=
  (∃ m ∈ db.diaryMedia.rows, m.id = id) ∨ ∃ f ∈ db.jobMedia.rows, f.id = id

section Runs
variable {tidy : Db → Prop} {permits : Runs → Label Request (Option PortError) → Bool} {config : Runs}

theorem insertMedia_uses {current store : Db} {scope : CompanyId} {serial : Int} {rec : MediaRecord} {now : Instant}
    {id : Int} (used : Uses ((insertMedia current scope serial rec now).change store) id) :
    Uses store id ∨ (serial ≤ id ∧ id < serial + (insertMedia current scope serial rec now).drawn) := by
  rw [insertMedia] at used ⊢
  split at used
  · split at used
    · exact .inl used
    · rcases used with ⟨m, member, rfl⟩ | file
      · rcases Table.mem_put.mp member with ⟨old, -⟩ | rfl
        · exact .inl (.inl ⟨m, old, rfl⟩)
        · exact .inr ⟨le_rfl, Int.lt_succ serial⟩
      · exact .inl (.inr file)
  · split at used
    · exact .inl used
    · rcases used with media | ⟨f, member, rfl⟩
      · exact .inl (.inl media)
      · rcases Table.mem_put.mp member with ⟨old, -⟩ | rfl
        · exact .inl (.inr ⟨f, old, rfl⟩)
        · exact .inr ⟨le_rfl, Int.lt_succ serial⟩

theorem deleteRoot_shrinks {snapshot current store : Db} {scope : CompanyId} {root : Root} :
    Shrinks store ((deleteRoot snapshot current scope root).change store) := by
  rw [deleteRoot]
  split
  · split
    · exact without_shrinks
    · exact .of_eq rfl rfl rfl rfl
  · exact .of_eq rfl rfl rfl rfl

theorem deletions_fresh (reached : (deletions tidy permits).machine.Reachable config) : Fresh Uses config := by
  apply draws_fresh ?_ ?_ reached
  · rintro store serial ⟨-, media, files⟩ id (⟨m, member, rfl⟩ | ⟨f, member, rfl⟩)
    · exact media m member
    · exact files f member
  · intro env serial statement snapshot current store id used
    cases env with
    | some fault => exact .inl used
    | none =>
      obtain ⟨scope, query⟩ := statement
      cases query with
      | selectFiles job => exact .inl used
      | selectMedia root => exact .inl used
      | enqueue keys => exact .inl used
      | delete root =>
        have shrinks : Shrinks store ((deleteRoot snapshot current scope root).change store) := deleteRoot_shrinks
        rcases used with ⟨m, member, rfl⟩ | ⟨f, member, rfl⟩
        · exact .inl (.inl ⟨m, shrinks.media m member, rfl⟩)
        · exact .inl (.inr ⟨f, shrinks.files f member, rfl⟩)
      | insert rec now => exact insertMedia_uses used

section Commit
variable {stored : Db} {tx : Running} {result : Except PortError Outcome}

inductive Writes (stored : Db) (tx : Running) : (Db → Db) → Prop where
  | removes {change : Db → Db} (removes : Removes stored change) : Writes stored tx change
  | media {rec : MediaRecord} {now : Instant} {row : DiaryMediaRow} (called : tx.request.call = .record rec now)
      (adds : AddsMedia rec tx.draws row) : Writes stored tx fun db => { db with diaryMedia := db.diaryMedia.put row }
  | file {rec : MediaRecord} {now : Instant} {row : JobMediaRow} (called : tx.request.call = .record rec now)
      (adds : AddsFile rec tx.draws row) : Writes stored tx fun db => { db with jobMedia := db.jobMedia.put row }

theorem placed_commit (placed : Placed stored tx) (shape : tx.phase = .ready (.done (.commit result))) :
    Writes stored tx tx.pending := by
  obtain ⟨request, trace, held, draws, pending, phase⟩ := tx
  dsimp only [Placed] at shape placed ⊢
  subst shape
  cases placed with
  | deleted removes => exact .removes removes
  | recordedMedia called adds => exact .media called adds
  | recordedFile called adds => exact .file called adds

theorem removes_queued {change : Db → Db} (removes : Removes stored change) : Queued stored (change stored) where
  media := fun m there gone company seen => removes.media stored m there gone company seen
  files := fun f there gone company seen => removes.files stored f there gone company seen

/-- A row under an id nobody has used takes no other row's place. -/
theorem writes_queued {change : Db → Db} (writes : Writes stored tx change)
    (unused : ∀ id ∈ tx.draws, ¬ Uses stored id) : Queued stored (change stored) := by
  cases writes with
  | removes removes => exact removes_queued removes
  | @media rec now row called adds =>
    refine ⟨fun m there gone => absurd (Table.mem_put.mpr (.inl ⟨there, fun same => ?_⟩)) gone,
      fun f there gone => absurd there gone⟩
    exact unused row.id adds.drawn (.inl ⟨m, there, same⟩)
  | @file rec now row called adds =>
    refine ⟨fun m there gone => absurd there gone,
      fun f there gone => absurd (Table.mem_put.mpr (.inl ⟨there, fun same => ?_⟩)) gone⟩
    exact unused row.id adds.drawn (.inr ⟨f, there, same⟩)

end Commit

/-- What the condition says of the commit of an upload. -/
theorem separate_record {j : Nat} {mover : Running} {result : Except PortError Outcome} {rec : MediaRecord}
    {now : Instant} (permitted : separate config (.finish j) = true) (moves : config.transactions[j]? = some mover)
    (shape : mover.phase = .ready (.done (.commit result))) (called : mover.request.call = .record rec now) :
    ownNote config.committed rec.owner = true ∧ ∀ (i : Nat) tx, i ≠ j → config.transactions[i]? = some tx →
      underway config.committed tx rec.owner = false := by
  obtain ⟨apart, own⟩ := Bool.and_eq_true_iff.mp permitted
  have commit : mover.commits = true := by rw [Transaction.commits, shape]
  simp only [ownNotes, moves, Option.all_some, commit, Bool.not_true, Bool.false_or, called] at own
  refine ⟨own, fun i tx elsewhere found => ?_⟩
  have clear := separately_commit apart elsewhere found moves shape
  rwa [clashes, called] at clear

theorem writes_tidy {j : Nat} {mover : Running} {result : Except PortError Outcome} {change : Db → Db}
    (permitted : separate config (.finish j) = true) (moves : config.transactions[j]? = some mover)
    (shape : mover.phase = .ready (.done (.commit result))) (tidied : Tidy config.committed)
    (writes : Writes config.committed mover change) : Tidy (change config.committed) := by
  cases writes with
  | removes removes =>
    intro m there note row named found
    exact tidied m ((removes.shrinks _).media m there) note row named (removes.notes _ note row found)
  | @media rec now row called adds =>
    have own := (separate_record permitted moves shape called).1
    intro m there note other named found
    rcases Table.mem_put.mp there with ⟨old, -⟩ | rfl
    · exact tidied m old note other named found
    · rw [adds.owner, ownNote, named, Option.all_some, show config.committed.diaryNotes.find note = some other from found]
        at own
      simpa using own
  | file called adds => exact tidied

theorem writes_after {i j : Nat} {tx mover : Running} {result : Except PortError Outcome} {change : Db → Db}
    (permitted : separate config (.finish j) = true) (elsewhere : i ≠ j) (found : config.transactions[i]? = some tx)
    (moves : config.transactions[j]? = some mover) (shape : mover.phase = .ready (.done (.commit result)))
    (writes : Writes config.committed mover change) :
    After config.committed (change config.committed) (underway config.committed tx) := by
  cases writes with
  | removes removes =>
    have shrinks := removes.shrinks config.committed
    exact ⟨shrinks.entries, shrinks.jobs, fun m there => .inl (shrinks.media m there),
      fun f there => .inl (shrinks.files f there)⟩
  | @media rec now row called adds =>
    have unread := (separate_record permitted moves shape called).2 i tx elsewhere found
    rw [adds.owner] at unread
    refine ⟨fun _ _ => id, fun _ _ => id, fun m there => ?_, fun f there => .inl there⟩
    rcases Table.mem_put.mp there with ⟨old, -⟩ | rfl
    · exact .inl old
    · exact .inr unread
  | @file rec now row called adds =>
    have unread := (separate_record permitted moves shape called).2 i tx elsewhere found
    rw [adds.owner] at unread
    refine ⟨fun _ _ => id, fun _ _ => id, fun m there => .inl there, fun f there => ?_⟩
    rcases Table.mem_put.mp there with ⟨old, -⟩ | rfl
    · exact .inl old
    · exact .inr unread

theorem calls_placed (reached : (deletions Tidy separate).machine.Reachable config) : Tidy config.committed ∧
    ∀ (i : Nat) tx, config.transactions[i]? = some tx → Placed config.committed tx := by
  apply store_and_transactions_keep Tidy Placed ?_ ?_ ?_ ?_ ?_ reached
  · exact fun store serial start => start.1
  · exact fun config request _ _ _ => program_placed
  · exact fun config i tx label committed serial later _ _ _ acts tidied placed => placed_kept acts tidied placed
  · intro config i j tx mover result _ permitted elsewhere found moves shape _ placed moverPlaced
    exact placed_after placed (writes_after permitted elsewhere found moves shape (placed_commit moverPlaced shape))
  · intro config j mover result _ permitted moves shape tidied moverPlaced
    exact writes_tidy permitted moves shape tidied (placed_commit moverPlaced shape)

theorem queued_same {db : Db} : Queued db db := ⟨fun _ there gone => absurd there gone, fun _ there gone => absurd there gone⟩

end Runs

/- An entry with one photo is deleted while another photo of it is confirmed. -/

def oneEntry : Db :=
  { Db.empty with
    users := .of [.plain 7 1 (text "Sarah") (text "sarah@example.com") (text "MANAGER") (Eq.refl true)] 8
      (Eq.refl true)
    jobs := .of [NoteIsolation.jobOf 1 1 none] 2 (Eq.refl true)
    siteDiary := .of [NoteIsolation.entryOf 1 1] 2 (Eq.refl true) }

def idle : Runs := ⟨oneEntry, 1, []⟩

theorem idle_initial (permits : Runs → Label Request (Option PortError) → Bool) :
    (deletions Tidy permits).machine.initial idle := by
  refine ⟨⟨?_, ?_, ?_⟩, rfl⟩ <;> exact fun row there => absurd there List.not_mem_nil

def photo (name : String) : Request :=
  ⟨1, .record ⟨.diary 1 none, .photo, text "image/jpeg", text "slab.jpg", text name, 1024, text "", 7⟩ 0⟩

/-- The second photo is confirmed before the deletion begins. -/
def inTurn : List (Label Request (Option PortError)) :=
  [.begin (photo "x.jpg")] ++ turns none 0 1 ++ [.finish 0, .begin (photo "y.jpg")] ++ turns none 1 1 ++
    [.finish 1, .begin ⟨1, .deleteEntry 1⟩] ++ turns none 2 3

/-- The second photo is confirmed when the deletion has read its list. -/
def overlapping : List (Label Request (Option PortError)) :=
  [.begin (photo "x.jpg")] ++ turns none 0 1 ++ [.finish 0, .begin (photo "y.jpg"), .begin ⟨1, .deleteEntry 1⟩] ++
    turns none 2 2 ++ turns none 1 1 ++ [.finish 1] ++ turns none 2 1

end OrphanedObjects
