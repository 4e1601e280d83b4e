import PmKonstruct.Diary.NoteIsolation
import PmKonstruct.Media.MediaTakings

/- A bulk delete takes the whole of its selection or leaves everything as it was, whatever else deletes media beside it:
   the rows that it has locked stay where they were until it ends, and those that it missed do not come back. -/
namespace WholeSelections
open DomainErrors Accounts Schema KeyedTable RowSecurity DeletionQueue TransitionRuns ReadCommitted SelectionPrograms
open MediaTakings
open StatementProgram (Event getElem?_set_cases)
open MediaStore (MediaSelection BulkDeletePlan mayDeleteMedia)
open DeletionPrograms (Place Lock gone without taken)
open LiveKeys (mem_visibleMedia)
open PlainText (Text text)

abbrev Trace : Type := List (Event Statement Answer)

/- How far a bulk delete has come. -/

structure Progress where
  files : Option (List JobMediaRow)
  media : Option (List DiaryMediaRow)
  filesGone : Bool
  mediaGone : Bool
  queued : List Text

def Progress.start : Progress := ⟨none, none, false, false, []⟩

def advance (progress : Progress) : Event Statement Answer → Progress
  | ⟨⟨_, .lockFiles _ _⟩, .ok rows⟩ => { progress with files := some rows }
  | ⟨⟨_, .lockMedia _ _⟩, .ok rows⟩ => { progress with media := some rows }
  | ⟨⟨_, .deleteFiles _ _⟩, .ok _⟩ => { progress with filesGone := true }
  | ⟨⟨_, .deleteMedia _ _⟩, .ok _⟩ => { progress with mediaGone := true }
  | ⟨⟨_, .cascading (.enqueue keys)⟩, .ok _⟩ => { progress with queued := keys }
  | _ => progress

def progress (trace : Trace) : Progress := trace.foldl advance .start

theorem progress_snoc {trace : Trace} {event : Event Statement Answer} :
    progress (trace ++ [event]) = advance (progress trace) event := by
  rw [progress, List.foldl_append]
  rfl

theorem advance_error {p : Progress} {statement : Statement} {e : PortError} :
    advance p ⟨statement, .error e⟩ = p := by
  obtain ⟨scope, query⟩ := statement
  cases query with
  | cascading query => cases query <;> rfl
  | _ => rfl

/- The programs, whatever they are answered. -/

/-- The statements of a bulk delete, in their order. -/
def Chosen (job : JobId) (selections : List MediaSelection) (p : Progress) : Query → Prop
  | .lockFiles id ids => id = job ∧ ids = fileIds selections ∧ p = .start
  | .lockMedia id ids => id = job ∧ ids = mediaIds selections ∧ ∃ files, p = { Progress.start with files := some files }
  | .deleteFiles id ids => id = some job ∧ ids = fileIds selections ∧
    ∃ files media, p = { Progress.start with files := some files, media := some media }
  | .deleteMedia id ids => id = some job ∧ ids = mediaIds selections ∧
    ∃ files media filesGone, p = ⟨some files, some media, filesGone, false, []⟩
  | .cascading (.enqueue _) => ∃ files media filesGone mediaGone, p = ⟨some files, some media, filesGone, mediaGone, []⟩
  | .cascading _ => False

/-- A commit comes after the whole of the selection is gone and queued, and a plan is rolled back where it refuses. -/
def Decided (scope : CompanyId) (selections : List MediaSelection) (uploadedBy : Option UserId) (p : Progress) :
    Ending Result → Prop
  | .commit (.ok (.plan plan)) => plan = ⟨[], [], selections⟩ ∧ (selections = [] ∧ p = .start ∨
      ∃ files media, (judged files media selections uploadedBy).missing = [] ∧
        (judged files media selections uploadedBy).forbidden = [] ∧
        p = ⟨some files, some media, !(fileIds selections).isEmpty, !(mediaIds selections).isEmpty,
          files.map (jobKey scope) ++ media.map (diaryKey scope)⟩)
  | .rollback (.ok (.plan plan)) => ∃ files media, p = { Progress.start with files := some files, media := some media } ∧
      plan = judged files media selections uploadedBy ∧ (plan.missing ≠ [] ∨ plan.forbidden ≠ [])
  | .rollback (.error _) => True
  | _ => False

def At (request : Request) (past : Trace) (statement : Statement) : Prop :=
  inserts statement.query = false ∧
    match request.call with
    | .deleteSelected _ _ job selections =>
      statement.scope = request.scope ∧ Chosen job selections (progress past) statement.query
    | _ => True

def Ends (request : Request) (past : Trace) (ending : Ending Result) : Prop :=
  match request.call with
  | .deleteSelected role viewer _ selections =>
    Decided request.scope selections (restrictTo role viewer) (progress past) ending
  | _ => True

section Programs
variable {request : Request} {past : Trace} {scope : CompanyId}

/-- The other calls have nothing to say but that they insert nothing. -/
def Quiet (steps : Steps) : Prop :=
  ∀ past, steps.Obeys (fun _ statement => inserts statement.query = false) (fun _ _ => True) past

theorem quiet_ask {query : Query} {next : Reply query → Steps} (deletes : inserts query = false)
    (later : ∀ reply, Quiet (next reply)) : Quiet (ask scope query next) := by
  intro past
  refine ⟨deletes, fun answer => ?_⟩
  cases answer with
  | error e => trivial
  | ok reply => exact later reply _

theorem quiet_enqueue {keys : List Text} {outcome : Outcome} : Quiet (enqueueDeletions scope keys outcome) := by
  rw [enqueueDeletions]
  split
  · exact fun _ => trivial
  · exact quiet_ask rfl fun _ _ => trivial

theorem quiet_delete {id : MediaId} {jobMedia : Bool} : Quiet (delete scope id jobMedia) := by
  rw [delete]
  split
  · refine quiet_ask rfl fun rows => ?_
    cases rows with
    | nil => exact fun _ => trivial
    | cons row rest => exact quiet_enqueue
  · refine quiet_ask rfl fun rows => ?_
    cases rows with
    | nil => exact fun _ => trivial
    | cons row rest => exact quiet_enqueue

theorem quiet_detach {ids : List MediaId} : Quiet (detachMedia scope ids) := by
  rw [detachMedia]
  split
  · exact fun _ => trivial
  · exact quiet_ask rfl fun _ => quiet_enqueue

theorem quiet_cascading {query : DeletionPrograms.Query}
    {next : Except PortError (DeletionPrograms.Reply query) → DeletionPrograms.Steps}
    (deletes : inserts (.cascading query) = false) (later : ∀ answer, Quiet (cascading (next answer))) :
    Quiet (cascading (.stmt ⟨scope, query⟩ next)) :=
  fun _ => ⟨deletes, fun answer => later answer _⟩

theorem quiet_orFail {α : Type} {next : α → DeletionPrograms.Steps} (later : ∀ reply, Quiet (cascading (next reply)))
    (answer : Except PortError α) : Quiet (cascading (DeletionPrograms.orFail next answer)) := by
  cases answer with
  | error e => exact fun _ => trivial
  | ok reply => exact later reply

theorem quiet_listing {root : DeletionPrograms.Root} {keys : List Text} :
    Quiet (cascading (DeletionPrograms.listing scope root keys)) := by
  have deleting : Quiet (cascading (DeletionPrograms.deleting scope root)) :=
    quiet_cascading rfl (quiet_orFail fun _ _ => trivial)
  refine quiet_cascading rfl (quiet_orFail fun rows => ?_)
  rw [DeletionPrograms.enqueueing]
  split
  · exact deleting
  · exact quiet_cascading rfl (quiet_orFail fun _ => deleting)

theorem obeys_ask {role : Role} {viewer : UserId} {job : JobId} {selections : List MediaSelection} {query : Query}
    {next : Reply query → Steps} (call : request.call = .deleteSelected role viewer job selections)
    (deletes : inserts query = false) (here : Chosen job selections (progress past) query)
    (later : ∀ reply, (next reply).Obeys (At request) (Ends request)
      (past ++ [⟨⟨request.scope, query⟩, .ok reply⟩])) :
    (ask request.scope query next).Obeys (At request) (Ends request) past := by
  refine ⟨⟨deletes, ?_⟩, fun answer => ?_⟩
  · rw [call]
    exact ⟨rfl, here⟩
  · cases answer with
    | error e =>
      show Ends request _ _
      rw [Ends, call]
      trivial
    | ok reply => exact later reply

theorem clearing_obeys {role : Role} {viewer : UserId} {job : JobId} {selections : List MediaSelection}
    {files : List JobMediaRow} {media : List DiaryMediaRow}
    (call : request.call = .deleteSelected role viewer job selections)
    (missing : (judged files media selections (restrictTo role viewer)).missing = [])
    (forbidden : (judged files media selections (restrictTo role viewer)).forbidden = [])
    (here : progress past = { Progress.start with files := some files, media := some media }) :
    (clearing request.scope job selections files media).Obeys (At request) (Ends request) past := by
  have ends : ∀ past : Trace, progress past = ⟨some files, some media, !(fileIds selections).isEmpty,
      !(mediaIds selections).isEmpty, files.map (jobKey request.scope) ++ media.map (diaryKey request.scope)⟩ →
      Ends request past (.commit (.ok (.plan ⟨[], [], selections⟩))) := by
    intro past here
    rw [Ends, call]
    exact ⟨rfl, .inr ⟨files, media, missing, forbidden, here⟩⟩
  have queueing : ∀ past : Trace, progress past = ⟨some files, some media, !(fileIds selections).isEmpty,
      !(mediaIds selections).isEmpty, []⟩ →
      (enqueueDeletions request.scope (files.map (jobKey request.scope) ++ media.map (diaryKey request.scope))
        (.plan ⟨[], [], selections⟩)).Obeys (At request) (Ends request) past := by
    intro past here
    rw [enqueueDeletions]
    split
    · next empty =>
      refine ends past ?_
      rw [here, List.isEmpty_iff.mp empty]
    · refine obeys_ask call rfl ⟨files, media, _, _, here⟩ fun _ => ends _ ?_
      rw [progress_snoc, here]
      rfl
  have deletingMedia : ∀ past : Trace, progress past = ⟨some files, some media, !(fileIds selections).isEmpty,
      false, []⟩ →
      (if (mediaIds selections).isEmpty then
        enqueueDeletions request.scope (files.map (jobKey request.scope) ++ media.map (diaryKey request.scope))
          (.plan ⟨[], [], selections⟩)
      else ask request.scope (.deleteMedia (some job) (mediaIds selections)) fun _ =>
        enqueueDeletions request.scope (files.map (jobKey request.scope) ++ media.map (diaryKey request.scope))
          (.plan ⟨[], [], selections⟩)).Obeys (At request) (Ends request) past := by
    intro past here
    split
    · next empty =>
      refine queueing past ?_
      rw [here, empty]
      rfl
    · next some =>
      rw [Bool.not_eq_true] at some
      refine obeys_ask call rfl ⟨rfl, rfl, files, media, _, here⟩ fun _ => queueing _ ?_
      rw [progress_snoc, here, some]
      rfl
  rw [clearing]
  split
  · next empty =>
    refine deletingMedia past ?_
    rw [here, empty]
    rfl
  · next some =>
    rw [Bool.not_eq_true] at some
    refine obeys_ask call rfl ⟨rfl, rfl, files, media, here⟩ fun _ => deletingMedia _ ?_
    rw [progress_snoc, here, some]
    rfl

theorem deleteMany_obeys {role : Role} {viewer : UserId} {job : JobId} {selections : List MediaSelection}
    (call : request.call = .deleteSelected role viewer job selections) :
    (deleteMany request.scope job selections (restrictTo role viewer)).Obeys (At request) (Ends request) [] := by
  rw [deleteMany]
  split
  · next empty =>
    show Ends request [] _
    rw [Ends, call, List.isEmpty_iff.mp empty]
    exact ⟨rfl, .inl ⟨rfl, rfl⟩⟩
  · refine obeys_ask call rfl ⟨rfl, rfl, rfl⟩ fun files => ?_
    refine obeys_ask call rfl ⟨rfl, rfl, files, rfl⟩ fun media => ?_
    dsimp only
    split
    · next refused =>
      show Ends request _ _
      rw [Ends, call]
      refine ⟨files, media, rfl, rfl, ?_⟩
      simpa using refused
    · next passed =>
      simp only [ne_eq, decide_not, Bool.or_eq_true, Bool.not_eq_eq_eq_not, Bool.not_true, decide_eq_false_iff_not,
        not_or, not_not] at passed
      exact clearing_obeys call passed.1 passed.2 rfl

theorem program_obeys (request : Request) : (program request).Obeys (At request) (Ends request) [] := by
  have aside : ∀ steps : Steps, (∀ role viewer job selections, request.call ≠ .deleteSelected role viewer job selections) →
      Quiet steps → steps.Obeys (At request) (Ends request) [] := by
    intro steps other quiet
    refine (quiet []).imp ?_ ?_
    · intro past statement deletes
      refine ⟨deletes, ?_⟩
      split
      · next call => exact absurd call (other _ _ _ _)
      · trivial
    · intro past ending _
      rw [Ends]
      split
      · next call => exact absurd call (other _ _ _ _)
      · trivial
  rw [program]
  split
  · next call => exact deleteMany_obeys call
  · next call => exact aside _ (by simp [call]) quiet_delete
  · next call => exact aside _ (by simp [call]) quiet_detach
  · next call => exact aside _ (by simp [call]) (quiet_cascading rfl (quiet_orFail fun _ => quiet_listing))
  · next call => exact aside _ (by simp [call]) quiet_listing
  · next call => exact aside _ (by simp [call]) quiet_listing

end Programs

/- Where a bulk delete stands. -/

def chosenFiles (db : Db) (scope : CompanyId) (job : JobId) (selections : List MediaSelection) : List JobMediaRow :=
  visibleFiles db scope (fileAmong (some job) (fileIds selections))

def chosenMedia (db : Db) (scope : CompanyId) (job : JobId) (selections : List MediaSelection) : List DiaryMediaRow :=
  visibleMedia db scope (mediaAmong db (some job) (mediaIds selections))

/-- It has locked the chosen rows as they are, and taken those and no others. -/
structure Standing (stored : Db) (scope : CompanyId) (job : JobId) (selections : List MediaSelection) (p : Progress)
    (held : List Lock) (change : Db → Db) (taking : Taking) : Prop where
  jobs : ∀ j ∈ stored.jobs.rows, taking.jobs j = false
  entries : ∀ e ∈ stored.siteDiary.rows, taking.entries e = false
  files : ∀ f ∈ stored.jobMedia.rows, taking.files f = true ↔
    p.filesGone = true ∧ f ∈ chosenFiles stored scope job selections
  media : ∀ m ∈ stored.diaryMedia.rows, taking.media m = true ↔
    p.mediaGone = true ∧ m ∈ chosenMedia stored scope job selections
  lockedFiles : ∀ rows, p.files = some rows → rows = chosenFiles stored scope job selections ∧
    ∀ f ∈ rows, (Place.file f.id).exclusive ∈ held
  lockedMedia : ∀ rows, p.media = some rows → rows = chosenMedia stored scope job selections ∧
    ∀ m ∈ rows, (Place.media m.id).exclusive ∈ held
  queue : ∀ db, (change db).mediaDeletionQueue = enqueue db.mediaDeletionQueue p.queued

section Standing
variable {stored following snapshot : Db} {scope : CompanyId} {job : JobId} {selections : List MediaSelection} {p : Progress}
    {held more : List Lock} {change next : Db → Db} {taking : Taking}

theorem chosenFiles_congr (files : following.jobMedia = stored.jobMedia) (jobs : following.jobs = stored.jobs) :
    chosenFiles following scope job selections = chosenFiles stored scope job selections := by
  simp only [chosenFiles, visibleFiles, jobInScope, files, jobs]

theorem chosenMedia_congr (media : following.diaryMedia = stored.diaryMedia)
    (entries : following.siteDiary = stored.siteDiary) (jobs : following.jobs = stored.jobs) :
    chosenMedia following scope job selections = chosenMedia stored scope job selections := by
  simp only [chosenMedia, visibleMedia, mediaAmong, entryInScope, jobInScope, media, entries, jobs]

theorem mem_chosenFiles (since : Later stored following) {f : JobMediaRow} (there : f ∈ following.jobMedia.rows) :
    f ∈ chosenFiles following scope job selections ↔ f ∈ chosenFiles stored scope job selections := by
  rw [chosenFiles, chosenFiles, mem_visibleFiles, mem_visibleFiles, since.file_scope there]
  exact ⟨fun ⟨_, rest⟩ => ⟨since.files f there, rest⟩, fun ⟨_, rest⟩ => ⟨there, rest⟩⟩

theorem mem_chosenMedia (since : Later stored following) {m : DiaryMediaRow} (there : m ∈ following.diaryMedia.rows) :
    m ∈ chosenMedia following scope job selections ↔ m ∈ chosenMedia stored scope job selections := by
  rw [chosenMedia, chosenMedia, mem_visibleMedia, mem_visibleMedia, since.entry_scope there, since.media_among there]
  exact ⟨fun ⟨_, rest⟩ => ⟨since.media m there, rest⟩, fun ⟨_, rest⟩ => ⟨there, rest⟩⟩

/-- A deletion that spares the chosen rows leaves the choice as it is. -/
theorem chosenFiles_spared (deletes : Deletes taking change) (closed : Closed stored taking)
    (spared : ∀ f ∈ chosenFiles stored scope job selections, taking.files f = false) :
    chosenFiles (change stored) scope job selections = chosenFiles stored scope job selections := by
  have since := deletes.later closed
  rw [chosenFiles, visibleFiles, deletes.files, Table.select_delete]
  rw [Table.select, List.filter_filter]
  refine List.filter_congr fun f there => ?_
  cases went : taking.files f with
  | true =>
    by_contra apart
    have chosen : f ∈ chosenFiles stored scope job selections := by
      refine mem_visibleFiles.mpr ⟨there, ?_⟩
      simpa using Ne.symm apart
    rw [spared f chosen] at went
    cases went
  | false =>
    have kept : f ∈ (change stored).jobMedia.rows := by
      rw [deletes.files]
      exact Table.mem_delete.mpr ⟨there, went⟩
    rw [since.file_scope kept, Bool.not_false, Bool.true_and]

theorem chosenMedia_spared (deletes : Deletes taking change) (closed : Closed stored taking)
    (spared : ∀ m ∈ chosenMedia stored scope job selections, taking.media m = false) :
    chosenMedia (change stored) scope job selections = chosenMedia stored scope job selections := by
  have since := deletes.later closed
  rw [chosenMedia, visibleMedia, deletes.media, Table.select_delete]
  rw [Table.select, List.filter_filter]
  refine List.filter_congr fun m there => ?_
  cases went : taking.media m with
  | true =>
    by_contra apart
    have chosen : m ∈ chosenMedia stored scope job selections := by
      refine mem_visibleMedia.mpr ⟨there, ?_⟩
      simpa using Ne.symm apart
    rw [spared m chosen] at went
    cases went
  | false =>
    have kept : m ∈ (change stored).diaryMedia.rows := by
      rw [deletes.media]
      exact Table.mem_delete.mpr ⟨there, went⟩
    rw [since.entry_scope kept, since.media_among kept, Bool.not_false, Bool.true_and]

theorem standing_start : Standing stored scope job selections .start [] id .nothing where
  jobs := fun _ _ => rfl
  entries := fun _ _ => rfl
  files := fun _ _ => by simp [Taking.nothing, Progress.start]
  media := fun _ _ => by simp [Taking.nothing, Progress.start]
  lockedFiles := fun _ some => by cases some
  lockedMedia := fun _ some => by cases some
  queue := fun _ => rfl

/-- What the call itself sees of the tables it has not touched. -/
theorem Standing.untouched (standing : Standing stored scope job selections p held change taking)
    (deletes : Deletes taking change) : (change stored).jobs = stored.jobs ∧ (change stored).siteDiary = stored.siteDiary ∧
      (p.filesGone = false → (change stored).jobMedia = stored.jobMedia) ∧
      (p.mediaGone = false → (change stored).diaryMedia = stored.diaryMedia) := by
  rw [deletes.jobs, deletes.entries, deletes.files, deletes.media]
  refine ⟨Table.delete_eq_self standing.jobs, Table.delete_eq_self standing.entries, fun kept => ?_, fun kept => ?_⟩
  · refine Table.delete_eq_self fun f there => ?_
    rw [Bool.eq_false_iff, ne_eq, standing.files f there, kept]
    exact fun both => Bool.false_ne_true both.1
  · refine Table.delete_eq_self fun m there => ?_
    rw [Bool.eq_false_iff, ne_eq, standing.media m there, kept]
    exact fun both => Bool.false_ne_true both.1

/-- What is locked stays locked to the end, whatever else is taken. -/
theorem Standing.files_stay_locked (standing : Standing stored scope job selections p held change taking)
    (rows : List JobMediaRow) (locked : p.files = some rows) : rows = chosenFiles stored scope job selections ∧
      ∀ f ∈ rows, (Place.file f.id).exclusive ∈ held ++ more := by
  obtain ⟨same, locks⟩ := standing.lockedFiles rows locked
  exact ⟨same, fun f there => List.mem_append_left _ (locks f there)⟩

theorem Standing.media_stay_locked (standing : Standing stored scope job selections p held change taking)
    (rows : List DiaryMediaRow) (locked : p.media = some rows) : rows = chosenMedia stored scope job selections ∧
      ∀ m ∈ rows, (Place.media m.id).exclusive ∈ held ++ more := by
  obtain ⟨same, locks⟩ := standing.lockedMedia rows locked
  exact ⟨same, fun m there => List.mem_append_left _ (locks m there)⟩

/-- A statement that takes nothing may add locks. -/
theorem Standing.aside (standing : Standing stored scope job selections p held change taking)
    (queue : ∀ db, (next db).mediaDeletionQueue = db.mediaDeletionQueue) :
    Standing stored scope job selections p (held ++ more) (next ∘ change) (taking.and .nothing) where
  jobs := fun j there => by simp [Taking.and, Taking.nothing, standing.jobs j there]
  entries := fun e there => by simp [Taking.and, Taking.nothing, standing.entries e there]
  files := fun f there => by simp [Taking.and, Taking.nothing, standing.files f there]
  media := fun m there => by simp [Taking.and, Taking.nothing, standing.media m there]
  lockedFiles := standing.files_stay_locked
  lockedMedia := standing.media_stay_locked
  queue := fun db => (queue _).trans (standing.queue db)

/-- Others delete nothing that is locked here. -/
theorem Standing.later {theirs : Taking} {locks : List Lock}
    (standing : Standing stored scope job selections p held change taking) (deletes : Deletes theirs next)
    (closed : Closed stored theirs) (locked : Held stored theirs locks)
    (apart : ∀ place : Place, place.exclusive ∈ held → place.exclusive ∉ locks) :
    Standing (next stored) scope job selections p held change taking := by
  have since := deletes.later closed
  refine ⟨?_, ?_, ?_, ?_, ?_, ?_, standing.queue⟩
  · exact fun j there => standing.jobs j (since.jobs j there)
  · exact fun e there => standing.entries e (since.entries e there)
  · intro f there
    rw [standing.files f (since.files f there), mem_chosenFiles since there]
  · intro m there
    rw [standing.media m (since.media m there), mem_chosenMedia since there]
  · intro rows found
    obtain ⟨same, mine⟩ := standing.lockedFiles rows found
    refine ⟨same.trans (chosenFiles_spared deletes closed fun f chosen => ?_).symm, mine⟩
    by_contra went
    rw [Bool.not_eq_false] at went
    exact apart _ (mine f (same ▸ chosen)) (locked.files f (mem_visibleFiles.mp chosen).1 went)
  · intro rows found
    obtain ⟨same, mine⟩ := standing.lockedMedia rows found
    refine ⟨same.trans (chosenMedia_spared deletes closed fun m chosen => ?_).symm, mine⟩
    by_contra went
    rw [Bool.not_eq_false] at went
    exact apart _ (mine m (same ▸ chosen)) (locked.media m (mem_visibleMedia.mp chosen).1 went)

/-- What a statement takes beyond what the call has taken before, and where that leaves it. -/
def Stepped (stored : Db) (job : JobId) (selections : List MediaSelection) (p : Progress) (held : List Lock)
    (change : Db → Db) (taking : Taking) (statement : Statement) (effect : Effect (Answer statement) Db Lock) : Prop :=
  ∃ second, Deletes second effect.change ∧ Closed (change stored) second ∧ Held (change stored) second effect.takes ∧
    Standing stored statement.scope job selections (advance p ⟨statement, effect.answer⟩) (held ++ effect.takes)
      (effect.change ∘ change) (taking.and second)

theorem stepped_failing {statement : Statement} {e : PortError}
    (standing : Standing stored statement.scope job selections p held change taking) :
    Stepped stored job selections p held change taking statement (DeletionPrograms.failing e) := by
  refine ⟨.nothing, ?_, closed_nothing, held_nothing, ?_⟩
  · exact deletes_nothing (fun _ => rfl) (fun _ => rfl) (fun _ => rfl) fun _ => rfl
  · show Standing _ _ _ _ (advance p ⟨statement, .error e⟩) _ _ _
    rw [advance_error]
    exact standing.aside fun _ => rfl

theorem stepped_lockFiles (standing : Standing stored scope job selections .start held change taking)
    (deletes : Deletes taking change) (seen : Later snapshot (change stored)) :
    Stepped stored job selections .start held change taking ⟨scope, .lockFiles job (fileIds selections)⟩
      (lockFiles snapshot (change stored) scope job (fileIds selections)) := by
  obtain ⟨jobs, -, files, -⟩ := standing.untouched deletes
  have aside := @Standing.aside _ _ _ _ _ _
    ((lockFiles snapshot (change stored) scope job (fileIds selections)).takes) _ (fun db => db) _ standing fun _ => rfl
  have found : (change stored).jobMedia.select (fileAmong (some job)
      ((visibleFiles snapshot scope (fileAmong (some job) (fileIds selections))).map (·.id))) =
      chosenFiles stored scope job selections := by
    rw [seen.files_found]
    exact chosenFiles_congr (files rfl) jobs
  refine ⟨.nothing, ?_, closed_nothing, held_nothing, { aside with lockedFiles := ?_ }⟩
  · exact deletes_nothing (fun _ => rfl) (fun _ => rfl) (fun _ => rfl) fun _ => rfl
  · rintro rows ⟨⟩
    exact ⟨found, fun f there => List.mem_append_right _ (List.mem_map.mpr ⟨f, there, rfl⟩)⟩

theorem stepped_lockMedia {files : List JobMediaRow}
    (standing : Standing stored scope job selections { Progress.start with files := some files } held change taking)
    (deletes : Deletes taking change) (seen : Later snapshot (change stored)) :
    Stepped stored job selections { Progress.start with files := some files } held change taking
      ⟨scope, .lockMedia job (mediaIds selections)⟩
      (lockMedia snapshot (change stored) scope job (mediaIds selections)) := by
  obtain ⟨jobs, entries, -, media⟩ := standing.untouched deletes
  have aside := @Standing.aside _ _ _ _ _ _
    ((lockMedia snapshot (change stored) scope job (mediaIds selections)).takes) _ (fun db => db) _ standing fun _ => rfl
  have found : (change stored).diaryMedia.select (mediaAmong (change stored) (some job)
      ((visibleMedia snapshot scope (mediaAmong snapshot (some job) (mediaIds selections))).map (·.id))) =
      chosenMedia stored scope job selections := by
    rw [seen.media_found]
    exact chosenMedia_congr (media rfl) entries jobs
  refine ⟨.nothing, ?_, closed_nothing, held_nothing, { aside with lockedMedia := ?_ }⟩
  · exact deletes_nothing (fun _ => rfl) (fun _ => rfl) (fun _ => rfl) fun _ => rfl
  · rintro rows ⟨⟩
    refine ⟨found, fun m there => List.mem_append_right _ ?_⟩
    exact List.mem_map_of_mem (List.mem_append_left _ (List.mem_map.mpr ⟨m, there, rfl⟩))

theorem mem_gone {Row : Type} [Keyed Row] [DecidableEq Row] {t : Table Row} {going : Row → Bool} {row : Row} :
    gone t (t.delete going) row = true ↔ row ∈ t.select going := by
  simp only [gone, Bool.and_eq_true, decide_eq_true_eq, Table.mem_delete, Table.mem_select, not_and,
    Bool.not_eq_false]
  exact ⟨fun went => ⟨went.1, went.2 went.1⟩, fun chosen => ⟨chosen.1, fun _ => chosen.2⟩⟩

theorem gone_self {Row : Type} [Keyed Row] [DecidableEq Row] {t : Table Row} {row : Row} : gone t t row = false := by
  simp [gone]

theorem stepped_deleteFiles {files : List JobMediaRow} {media : List DiaryMediaRow}
    (standing : Standing stored scope job selections { Progress.start with files := some files, media := some media }
      held change taking)
    (deletes : Deletes taking change) (seen : Later snapshot (change stored)) :
    Stepped stored job selections { Progress.start with files := some files, media := some media } held change taking
      ⟨scope, .deleteFiles (some job) (fileIds selections)⟩
      (deleteFiles snapshot (change stored) scope (some job) (fileIds selections)) := by
  obtain ⟨jobs, -, same, -⟩ := standing.untouched deletes
  have found : (change stored).jobMedia.select (fileAmong (some job)
      ((visibleFiles snapshot scope (fileAmong (some job) (fileIds selections))).map (·.id))) =
      chosenFiles stored scope job selections := by
    rw [seen.files_found]
    exact chosenFiles_congr (same rfl) jobs
  refine ⟨_, deletes_without, closed_between (cascades_same rfl rfl), held_between fun _ => List.mem_map_of_mem, ?_⟩
  constructor
  · exact fun j there => Bool.or_eq_false_iff.mpr ⟨standing.jobs j there, gone_self⟩
  · exact fun e there => Bool.or_eq_false_iff.mpr ⟨standing.entries e there, gone_self⟩
  · intro f there
    rw [← found, ← mem_gone]
    refine (Bool.or_eq_true_iff).trans ⟨?_, fun ⟨_, went⟩ => .inr went⟩
    rintro (before | went)
    · exact absurd ((standing.files f there).mp before).1 Bool.false_ne_true
    · exact ⟨rfl, went⟩
  · intro m there
    refine Bool.or_eq_true_iff.trans ⟨?_, fun ⟨later, _⟩ => absurd later Bool.false_ne_true⟩
    rintro (before | went)
    · exact (standing.media m there).mp before
    · exact absurd went (Bool.eq_false_iff.mp gone_self)
  · exact standing.files_stay_locked
  · exact standing.media_stay_locked
  · exact standing.queue

theorem stepped_deleteMedia {files : List JobMediaRow} {media : List DiaryMediaRow} {filesGone : Bool}
    (standing : Standing stored scope job selections ⟨some files, some media, filesGone, false, []⟩ held change taking)
    (deletes : Deletes taking change) (seen : Later snapshot (change stored)) :
    Stepped stored job selections ⟨some files, some media, filesGone, false, []⟩ held change taking
      ⟨scope, .deleteMedia (some job) (mediaIds selections)⟩
      (deleteMedia snapshot (change stored) scope (some job) (mediaIds selections)) := by
  obtain ⟨jobs, entries, -, same⟩ := standing.untouched deletes
  have found : (change stored).diaryMedia.select (mediaAmong (change stored) (some job)
      ((visibleMedia snapshot scope (mediaAmong snapshot (some job) (mediaIds selections))).map (·.id))) =
      chosenMedia stored scope job selections := by
    rw [seen.media_found]
    exact chosenMedia_congr (same rfl) entries jobs
  refine ⟨_, deletes_without, closed_between (cascades_same rfl rfl), held_between fun _ => List.mem_map_of_mem, ?_⟩
  constructor
  · exact fun j there => Bool.or_eq_false_iff.mpr ⟨standing.jobs j there, gone_self⟩
  · exact fun e there => Bool.or_eq_false_iff.mpr ⟨standing.entries e there, gone_self⟩
  · intro f there
    refine Bool.or_eq_true_iff.trans ⟨?_, fun both => .inl ((standing.files f there).mpr both)⟩
    rintro (before | went)
    · exact (standing.files f there).mp before
    · exact absurd went (Bool.eq_false_iff.mp gone_self)
  · intro m there
    rw [← found, ← mem_gone]
    refine (Bool.or_eq_true_iff).trans ⟨?_, fun ⟨_, went⟩ => .inr went⟩
    rintro (before | went)
    · exact absurd ((standing.media m there).mp before).1 Bool.false_ne_true
    · exact ⟨rfl, went⟩
  · exact standing.files_stay_locked
  · exact standing.media_stay_locked
  · exact standing.queue

theorem stepped_enqueue {files : List JobMediaRow} {media : List DiaryMediaRow} {filesGone mediaGone : Bool}
    {keys : List Text} (standing : Standing stored scope job selections
      ⟨some files, some media, filesGone, mediaGone, []⟩ held change taking) :
    Stepped stored job selections ⟨some files, some media, filesGone, mediaGone, []⟩ held change taking
      ⟨scope, .cascading (.enqueue keys)⟩ (DeletionPrograms.enqueueKeys (change stored) keys) := by
  have aside := @Standing.aside _ _ _ _ _ _ ((DeletionPrograms.enqueueKeys (change stored) keys).takes) _
    (fun db => db) _ standing fun _ => rfl
  refine ⟨.nothing, ?_, closed_nothing, held_nothing, { aside with queue := fun db => ?_ }⟩
  · exact deletes_nothing (fun _ => rfl) (fun _ => rfl) (fun _ => rfl) fun _ => rfl
  · exact congrArg (enqueue · keys) (standing.queue db)

theorem stepped {fault : Option PortError} {serial : Int} {query : Query}
    (standing : Standing stored scope job selections p held change taking) (deletes : Deletes taking change)
    (seen : Later snapshot (change stored)) (here : Chosen job selections p query) :
    Stepped stored job selections p held change taking ⟨scope, query⟩
      (execute fault serial ⟨scope, query⟩ snapshot (change stored)) := by
  cases fault with
  | some e => exact stepped_failing standing
  | none =>
    cases query with
    | lockFiles id ids =>
      obtain ⟨rfl, rfl, rfl⟩ := here
      exact stepped_lockFiles standing deletes seen
    | lockMedia id ids =>
      obtain ⟨rfl, rfl, files, rfl⟩ := here
      exact stepped_lockMedia standing deletes seen
    | deleteFiles id ids =>
      obtain ⟨rfl, rfl, files, media, rfl⟩ := here
      exact stepped_deleteFiles standing deletes seen
    | deleteMedia id ids =>
      obtain ⟨rfl, rfl, files, media, filesGone, rfl⟩ := here
      exact stepped_deleteMedia standing deletes seen
    | cascading query =>
      cases query with
      | enqueue keys =>
        obtain ⟨files, media, filesGone, mediaGone, rfl⟩ := here
        exact stepped_enqueue standing
      | _ => exact here.elim

end Standing

/- Every call of every run. -/

/-- What a call that is underway has taken, and what it was shown. -/
structure Underway (stored : Db) (tx : Clearing) (taking : Taking) : Prop where
  deletes : Deletes taking tx.pending
  closed : Closed stored taking
  held : Held stored taking tx.held
  seen : ∀ snapshot statement next, tx.phase = .started snapshot statement next → Later snapshot (tx.pending stored)
  standing : ∀ role viewer job selections, tx.request.call = .deleteSelected role viewer job selections →
    Standing stored tx.request.scope job selections (progress tx.trace) tx.held tx.pending taking

def Sound (stored : Db) (tx : Clearing) : Prop := tx.live = true → ∃ taking, Underway stored tx taking

section Calls
variable {config after : Clearings} {stored : Db} {tx mover : Clearing}

theorem calls_obey (reached : clearings.machine.Reachable config) :
    ∀ (i : Nat) tx, config.transactions[i]? = some tx → tx.Obeys (At tx.request) (Ends tx.request) :=
  transactions_obey At Ends program_obeys reached

theorem underway_ran {taking second : Taking} {serial : Int} {statement : Statement} {next : Answer statement → Steps}
    {effect : Effect (Answer statement) Db Lock} (underway : Underway stored tx taking)
    (deletes : Deletes second effect.change) (closed : Closed (tx.pending stored) second)
    (held : Held (tx.pending stored) second effect.takes)
    (standing : ∀ role viewer job selections, tx.request.call = .deleteSelected role viewer job selections →
      Standing stored tx.request.scope job selections (advance (progress tx.trace) ⟨statement, effect.answer⟩)
        (tx.held ++ effect.takes) (effect.change ∘ tx.pending) (taking.and second)) :
    Underway stored (tx.ran serial next effect) (taking.and second) where
  deletes := underway.deletes.comp deletes
  closed := underway.closed.and underway.deletes closed
  held := underway.held.and underway.deletes held
  seen := fun _ _ _ shape => by cases shape
  standing := by
    intro role viewer job selections call
    show Standing _ _ _ _ (progress (tx.trace ++ [⟨statement, effect.answer⟩])) _ _ _
    rw [progress_snoc]
    exact standing role viewer job selections call

theorem sound_ran {fault : Option PortError} {serial : Int} {snapshot : Db} {statement : Statement}
    {next : Answer statement → Steps} (sound : Sound stored tx) (shape : tx.phase = .started snapshot statement next)
    (here : At tx.request tx.trace statement) :
    Sound stored (tx.ran serial next (execute fault serial statement snapshot (tx.pending stored))) := by
  intro _
  obtain ⟨taking, underway⟩ := sound (by rw [Transaction.live, shape])
  have seen := underway.seen _ _ _ shape
  obtain ⟨deletes, chosen⟩ := here
  cases call : tx.request.call with
  | deleteSelected role viewer job selections =>
    rw [call] at chosen
    obtain ⟨scope, query⟩ := statement
    obtain ⟨rfl, order⟩ := chosen
    obtain ⟨second, deleted, closed, held, standing⟩ := @stepped _ _ _ _ _ _ _ _ _ fault serial query
      (underway.standing _ _ _ _ call) underway.deletes seen order
    refine ⟨taking.and second, underway_ran underway deleted closed held fun _ _ _ _ same => ?_⟩
    rw [call] at same
    cases same
    exact standing
  | _ =>
    obtain ⟨second, deleted, closed, held⟩ := @execute_removes snapshot (tx.pending stored) serial fault statement deletes
    refine ⟨taking.and second, underway_ran underway deleted closed held fun _ _ _ _ same => ?_⟩
    rw [call] at same
    cases same

theorem sound_kept {label : Label Request (Option PortError)} {i : Nat} {committed : Db} {serial : Int} {later : Clearing}
    (acts : Acts clearings config i tx label committed serial later) (obeys : tx.Obeys (At tx.request) (Ends tx.request))
    (sound : Sound config.committed tx) : Sound committed later := by
  cases acts with
  | start shape =>
    intro _
    obtain ⟨taking, underway⟩ := sound (by rw [Transaction.live, shape])
    refine ⟨taking, underway.deletes, underway.closed, underway.held, ?_, underway.standing⟩
    rintro _ _ _ ⟨⟩
    exact Later.refl
  | run effect shape runs free =>
    rw [Transaction.Obeys, shape] at obeys
    subst runs
    exact sound_ran sound shape obeys.1
  | commit shape => exact fun live => by cases live
  | rollback shape => exact fun live => by cases live
  | abort live => exact fun live => by cases live

theorem calls_sound (reached : clearings.machine.Reachable config) :
    ∀ (i : Nat) tx, config.transactions[i]? = some tx → Sound config.committed tx := by
  apply transactions_keep Sound ?_ ?_ ?_ reached
  · intro config request _ _ _
    have nothing : Deletes .nothing id := deletes_nothing (fun _ => rfl) (fun _ => rfl) (fun _ => rfl) fun _ => rfl
    refine ⟨.nothing, nothing, closed_nothing, held_nothing, ?_, fun _ _ _ _ _ => standing_start⟩
    rintro _ _ _ ⟨⟩
  · intro config i tx label committed serial later visited _ found acts sound
    exact sound_kept acts (calls_obey visited i tx found) sound
  · intro config i j tx mover result visited _ elsewhere found moves shape sound moverSound live
    obtain ⟨taking, underway⟩ := sound live
    obtain ⟨theirs, moving⟩ := moverSound (by rw [Transaction.live, shape])
    have since := moving.deletes.later moving.closed
    have exclusive := locks_exclusive (fun a b => by simp [clearings, DeletionPrograms.conflicts, eq_comm, Bool.or_comm])
      visited i j tx mover found moves elsewhere
    refine ⟨taking, underway.deletes, underway.closed.later since, underway.held.later since, ?_, ?_⟩
    · intro snapshot statement next begun
      exact (underway.seen snapshot statement next begun).trans (underway.deletes.both since)
    · intro role viewer job selections call
      refine (underway.standing role viewer job selections call).later moving.deletes moving.closed moving.held ?_
      intro place mine yours
      have apart := exclusive _ mine _ yours
      simp [clearings, DeletionPrograms.conflicts, Place.exclusive] at apart

end Calls

/- What the viewer is told of the selection. -/

/-- Who uploaded a selected row, where the row is of the job. -/
def uploaderOf (db : Db) (scope : CompanyId) (job : JobId) (sel : MediaSelection) : Option (Option UserId) :=
  if sel.jobMedia then
    (db.jobMedia.reach (fun f => f.jobId = job && jobInScope db scope f.jobId) sel.id).map (·.uploadedBy)
  else
    (db.diaryMedia.reach (fun m => (db.siteDiary.find m.diaryEntryId).any (·.jobId = job) &&
      entryInScope db scope m.diaryEntryId) sel.id).map (·.uploadedBy)

/-- The selected rows are gone and their objects queued, and all of them were the viewer's to delete. -/
structure Cleared (before after : Db) (scope : CompanyId) (role : Role) (viewer : UserId) (job : JobId)
    (selections : List MediaSelection) : Prop where
  allowed : ∀ sel ∈ selections, ∃ uploader, uploaderOf before scope job sel = some uploader ∧
    mayDeleteMedia role viewer uploader = true
  files : after.jobMedia.rows = before.jobMedia.rows.filter fun f => ⟨true, f.id⟩ ∉ selections
  media : after.diaryMedia.rows = before.diaryMedia.rows.filter fun m => ⟨false, m.id⟩ ∉ selections
  queue : ∀ key, key ∈ after.mediaDeletionQueue ↔ key ∈ before.mediaDeletionQueue ∨
    (∃ f ∈ before.jobMedia.rows, ⟨true, f.id⟩ ∈ selections ∧ key = jobKey scope f) ∨
    ∃ m ∈ before.diaryMedia.rows, ⟨false, m.id⟩ ∈ selections ∧ key = diaryKey scope m
  jobs : after.jobs = before.jobs
  entries : after.siteDiary = before.siteDiary

/-- The plan names what is not of the job and what is not the viewer's to delete, and something is. -/
structure Refused (db : Db) (scope : CompanyId) (role : Role) (viewer : UserId) (job : JobId)
    (selections : List MediaSelection) (plan : BulkDeletePlan) : Prop where
  missing : plan.missing = selections.filter fun sel => (uploaderOf db scope job sel).isNone
  forbidden : plan.forbidden = selections.filter fun sel =>
    (uploaderOf db scope job sel).any fun uploader => !mayDeleteMedia role viewer uploader
  deleted : plan.deleted = []
  refuses : plan.missing ≠ [] ∨ plan.forbidden ≠ []

section Selections
variable {stored : Db} {scope : CompanyId} {role : Role} {viewer : UserId} {job : JobId} {selections : List MediaSelection}
    {files : List JobMediaRow} {media : List DiaryMediaRow}

theorem mem_fileIds {id : MediaId} : id ∈ fileIds selections ↔ ⟨true, id⟩ ∈ selections := by
  rw [fileIds, List.mem_map]
  constructor
  · rintro ⟨⟨jobMedia, own⟩, among, rfl⟩
    obtain ⟨there, rfl⟩ := List.mem_filter.mp among
    exact there
  · exact fun there => ⟨⟨true, id⟩, List.mem_filter.mpr ⟨there, rfl⟩, rfl⟩

theorem mem_mediaIds {id : MediaId} : id ∈ mediaIds selections ↔ ⟨false, id⟩ ∈ selections := by
  rw [mediaIds, List.mem_map]
  constructor
  · rintro ⟨⟨jobMedia, own⟩, among, rfl⟩
    obtain ⟨there, kind⟩ := List.mem_filter.mp among
    cases jobMedia with
    | true => cases kind
    | false => exact there
  · exact fun there => ⟨⟨false, id⟩, List.mem_filter.mpr ⟨there, rfl⟩, rfl⟩

theorem mem_chosenFiles_iff {f : JobMediaRow} : f ∈ chosenFiles stored scope job selections ↔
    f ∈ stored.jobMedia.rows ∧ f.jobId = job ∧ ⟨true, f.id⟩ ∈ selections ∧ jobInScope stored scope f.jobId = true := by
  rw [chosenFiles, mem_visibleFiles, fileAmong_iff, mem_fileIds, Option.all_some, decide_eq_true_eq, and_assoc]

theorem mem_chosenMedia_iff {m : DiaryMediaRow} : m ∈ chosenMedia stored scope job selections ↔
    m ∈ stored.diaryMedia.rows ∧ (stored.siteDiary.find m.diaryEntryId).any (·.jobId = job) = true ∧
      ⟨false, m.id⟩ ∈ selections ∧ entryInScope stored scope m.diaryEntryId = true := by
  rw [chosenMedia, mem_visibleMedia, mediaAmong_iff, mem_mediaIds, Option.all_some, and_assoc]

theorem uploaderOf_file {id : MediaId} {uploader : Option UserId} : uploaderOf stored scope job ⟨true, id⟩ = some uploader ↔
    ∃ f ∈ stored.jobMedia.rows, f.id = id ∧ f.jobId = job ∧ jobInScope stored scope f.jobId = true ∧
      f.uploadedBy = uploader := by
  rw [uploaderOf, if_pos rfl, Option.map_eq_some_iff]
  constructor
  · rintro ⟨f, reached, same⟩
    obtain ⟨found, visible⟩ := Table.reach_eq_some_iff.mp reached
    obtain ⟨there, key⟩ := Table.find_eq_some_iff.mp found
    obtain ⟨own, seen⟩ := (Bool.and_eq_true _ _).mp visible
    exact ⟨f, there, key, of_decide_eq_true own, seen, same⟩
  · rintro ⟨f, there, key, own, seen, same⟩
    refine ⟨f, Table.reach_eq_some_iff.mpr ⟨Table.find_eq_some_iff.mpr ⟨there, key⟩, ?_⟩, same⟩
    exact (Bool.and_eq_true _ _).mpr ⟨decide_eq_true own, seen⟩

theorem uploaderOf_media {id : MediaId} {uploader : Option UserId} :
    uploaderOf stored scope job ⟨false, id⟩ = some uploader ↔ ∃ m ∈ stored.diaryMedia.rows, m.id = id ∧
      (stored.siteDiary.find m.diaryEntryId).any (·.jobId = job) = true ∧
      entryInScope stored scope m.diaryEntryId = true ∧ m.uploadedBy = uploader := by
  rw [uploaderOf, if_neg Bool.false_ne_true, Option.map_eq_some_iff]
  constructor
  · rintro ⟨m, reached, same⟩
    obtain ⟨found, visible⟩ := Table.reach_eq_some_iff.mp reached
    obtain ⟨there, key⟩ := Table.find_eq_some_iff.mp found
    obtain ⟨own, seen⟩ := (Bool.and_eq_true _ _).mp visible
    exact ⟨m, there, key, own, seen, same⟩
  · rintro ⟨m, there, key, own, seen, same⟩
    refine ⟨m, Table.reach_eq_some_iff.mpr ⟨Table.find_eq_some_iff.mpr ⟨there, key⟩, ?_⟩, same⟩
    exact (Bool.and_eq_true _ _).mpr ⟨own, seen⟩

/-- A lookup in a list of pairs that agrees with a function finds what the function says. -/
theorem lookup_eq {found : List (MediaSelection × Option UserId)} {sel : MediaSelection}
    {expected : Option (Option UserId)} (agree : ∀ uploader, (sel, uploader) ∈ found ↔ expected = some uploader) :
    (found.find? (·.1 = sel)).map (·.2) = expected := by
  cases looked : found.find? (·.1 = sel) with
  | none =>
    cases expected with
    | none => rfl
    | some uploader =>
      have absent := List.find?_eq_none.mp looked _ ((agree uploader).mpr rfl)
      simp at absent
  | some pair =>
    obtain ⟨other, uploader⟩ := pair
    have same : other = sel := by simpa using List.find?_some looked
    subst same
    exact ((agree uploader).mp (List.mem_of_find?_eq_some looked)).symm

/-- The rows that are locked say of a selected row what the tables do. -/
theorem found_iff {sel : MediaSelection} {uploader : Option UserId} (among : sel ∈ selections) :
    (sel, uploader) ∈ (chosenFiles stored scope job selections).map (fun f => (MediaSelection.mk true f.id, f.uploadedBy)) ++
      (chosenMedia stored scope job selections).map (fun m => (MediaSelection.mk false m.id, m.uploadedBy)) ↔
      uploaderOf stored scope job sel = some uploader := by
  obtain ⟨jobMedia, id⟩ := sel
  rw [List.mem_append, List.mem_map, List.mem_map]
  cases jobMedia with
  | true =>
    rw [uploaderOf_file]
    constructor
    · rintro (⟨f, chosen, pair⟩ | ⟨m, -, pair⟩)
      · cases pair
        obtain ⟨there, own, -, seen⟩ := mem_chosenFiles_iff.mp chosen
        exact ⟨f, there, rfl, own, seen, rfl⟩
      · cases pair
    · rintro ⟨f, there, rfl, own, seen, rfl⟩
      exact .inl ⟨f, mem_chosenFiles_iff.mpr ⟨there, own, among, seen⟩, rfl⟩
  | false =>
    rw [uploaderOf_media]
    constructor
    · rintro (⟨f, -, pair⟩ | ⟨m, chosen, pair⟩)
      · cases pair
      · cases pair
        obtain ⟨there, own, -, seen⟩ := mem_chosenMedia_iff.mp chosen
        exact ⟨m, there, rfl, own, seen, rfl⟩
    · rintro ⟨m, there, rfl, own, seen, rfl⟩
      exact .inr ⟨m, mem_chosenMedia_iff.mpr ⟨there, own, among, seen⟩, rfl⟩

/-- The filter of the bulk delete is the rule of the single one. -/
theorem restricted {uploader : Option UserId} :
    ((restrictTo role viewer).any fun user => uploader ≠ some user) = !mayDeleteMedia role viewer uploader := by
  by_cases office : role = .office
  · simp [restrictTo, mayDeleteMedia, office]
  · simp [restrictTo, mayDeleteMedia, office]

theorem judged_chosen : judged (chosenFiles stored scope job selections) (chosenMedia stored scope job selections)
    selections (restrictTo role viewer) =
      { missing := selections.filter fun sel => (uploaderOf stored scope job sel).isNone
        forbidden := selections.filter fun sel =>
          (uploaderOf stored scope job sel).any fun uploader => !mayDeleteMedia role viewer uploader
        deleted := [] } := by
  rw [judged]
  congr 1
  · refine List.filter_congr fun sel among => ?_
    exact congrArg Option.isNone (lookup_eq fun _ => found_iff among)
  · refine List.filter_congr fun sel among => ?_
    simp only [restricted]
    exact congrArg (Option.any _) (lookup_eq fun _ => found_iff among)

/-- A selection that nothing is missing from or forbidden in. -/
theorem all_allowed (missing : (judged (chosenFiles stored scope job selections) (chosenMedia stored scope job selections)
      selections (restrictTo role viewer)).missing = [])
    (forbidden : (judged (chosenFiles stored scope job selections) (chosenMedia stored scope job selections)
      selections (restrictTo role viewer)).forbidden = []) :
    ∀ sel ∈ selections, ∃ uploader, uploaderOf stored scope job sel = some uploader ∧
      mayDeleteMedia role viewer uploader = true := by
  rw [judged_chosen] at missing forbidden
  intro sel among
  cases uploaded : uploaderOf stored scope job sel with
  | none =>
    have absent := List.filter_eq_nil_iff.mp missing sel among
    simp [uploaded] at absent
  | some uploader =>
    have permitted := List.filter_eq_nil_iff.mp forbidden sel among
    rw [uploaded, Option.any_some, Bool.not_eq_true', Bool.not_eq_false] at permitted
    exact ⟨uploader, rfl, permitted⟩

theorem chosen_file {f : JobMediaRow} (there : f ∈ stored.jobMedia.rows)
    (allowed : ∀ sel ∈ selections, ∃ uploader, uploaderOf stored scope job sel = some uploader ∧
      mayDeleteMedia role viewer uploader = true) :
    f ∈ chosenFiles stored scope job selections ↔ ⟨true, f.id⟩ ∈ selections := by
  constructor
  · exact fun chosen => (mem_chosenFiles_iff.mp chosen).2.2.1
  · intro among
    obtain ⟨uploader, uploaded, -⟩ := allowed _ among
    obtain ⟨other, old, same, own, seen, -⟩ := uploaderOf_file.mp uploaded
    cases Table.key_inj old there same
    exact mem_chosenFiles_iff.mpr ⟨there, own, among, seen⟩

theorem chosen_media {m : DiaryMediaRow} (there : m ∈ stored.diaryMedia.rows)
    (allowed : ∀ sel ∈ selections, ∃ uploader, uploaderOf stored scope job sel = some uploader ∧
      mayDeleteMedia role viewer uploader = true) :
    m ∈ chosenMedia stored scope job selections ↔ ⟨false, m.id⟩ ∈ selections := by
  constructor
  · exact fun chosen => (mem_chosenMedia_iff.mp chosen).2.2.1
  · intro among
    obtain ⟨uploader, uploaded, -⟩ := allowed _ among
    obtain ⟨other, old, same, own, seen, -⟩ := uploaderOf_media.mp uploaded
    cases Table.key_inj old there same
    exact mem_chosenMedia_iff.mpr ⟨there, own, among, seen⟩

end Selections

/- How a bulk delete ends. -/

section Endings
variable {config after : Clearings} {stored : Db} {tx : Clearing} {taking : Taking} {held : List Lock} {change : Db → Db}
    {scope : CompanyId} {role : Role} {viewer : UserId} {job : JobId} {selections : List MediaSelection}

theorem cleared_nothing (standing : Standing stored scope job [] .start held change taking)
    (deletes : Deletes taking change) :
    Cleared stored (change stored) scope role viewer job [] := by
  obtain ⟨jobs, entries, files, media⟩ := standing.untouched deletes
  refine ⟨fun _ among => (List.not_mem_nil among).elim, ?_, ?_, ?_, jobs, entries⟩
  · rw [files rfl]
    exact (List.filter_eq_self.mpr fun _ _ => rfl).symm
  · rw [media rfl]
    exact (List.filter_eq_self.mpr fun _ _ => rfl).symm
  · intro key
    rw [standing.queue stored]
    simp [Progress.start, enqueue]

theorem cleared {files : List JobMediaRow} {media : List DiaryMediaRow}
    (standing : Standing stored scope job selections
      ⟨some files, some media, !(fileIds selections).isEmpty, !(mediaIds selections).isEmpty,
        files.map (jobKey scope) ++ media.map (diaryKey scope)⟩ held change taking)
    (deletes : Deletes taking change) (missing : (judged files media selections (restrictTo role viewer)).missing = [])
    (forbidden : (judged files media selections (restrictTo role viewer)).forbidden = []) :
    Cleared stored (change stored) scope role viewer job selections := by
  obtain ⟨rfl, -⟩ := standing.lockedFiles files rfl
  obtain ⟨rfl, -⟩ := standing.lockedMedia media rfl
  obtain ⟨jobs, entries, -, -⟩ := standing.untouched deletes
  have allowed := all_allowed missing forbidden
  refine ⟨allowed, ?_, ?_, ?_, jobs, entries⟩
  · rw [deletes.files]
    refine List.filter_congr fun f there => ?_
    rw [Bool.eq_iff_iff, Bool.not_eq_true', ← Bool.not_eq_true, decide_eq_true_eq, standing.files f there,
      chosen_file there allowed]
    refine not_congr ⟨fun both => both.2, fun among => ⟨?_, among⟩⟩
    exact (Bool.not_eq_true' _).mpr (List.isEmpty_eq_false_iff_exists_mem.mpr ⟨f.id, mem_fileIds.mpr among⟩)
  · rw [deletes.media]
    refine List.filter_congr fun m there => ?_
    rw [Bool.eq_iff_iff, Bool.not_eq_true', ← Bool.not_eq_true, decide_eq_true_eq, standing.media m there,
      chosen_media there allowed]
    refine not_congr ⟨fun both => both.2, fun among => ⟨?_, among⟩⟩
    exact (Bool.not_eq_true' _).mpr (List.isEmpty_eq_false_iff_exists_mem.mpr ⟨m.id, mem_mediaIds.mpr among⟩)
  · intro key
    rw [standing.queue stored, mem_enqueue, List.mem_append, List.mem_map, List.mem_map]
    refine or_congr_right (or_congr ⟨?_, ?_⟩ ⟨?_, ?_⟩)
    · rintro ⟨f, chosen, rfl⟩
      have there := (mem_chosenFiles_iff.mp chosen).1
      exact ⟨f, there, (chosen_file there allowed).mp chosen, rfl⟩
    · rintro ⟨f, there, among, rfl⟩
      exact ⟨f, (chosen_file there allowed).mpr among, rfl⟩
    · rintro ⟨m, chosen, rfl⟩
      have there := (mem_chosenMedia_iff.mp chosen).1
      exact ⟨m, there, (chosen_media there allowed).mp chosen, rfl⟩
    · rintro ⟨m, there, among, rfl⟩
      exact ⟨m, (chosen_media there allowed).mpr among, rfl⟩

/-- The phase of a call that has ended, against the store before its last step and after it. -/
def Told (before after : Db) (scope : CompanyId) (role : Role) (viewer : UserId) (job : JobId)
    (selections : List MediaSelection) : Phase Statement Answer Result Db → Prop
  | .committed (.ok (.plan plan)) => plan = ⟨[], [], selections⟩ ∧ Cleared before after scope role viewer job selections
  | .undone (some (.ok (.plan plan))) => after = before ∧ Refused before scope role viewer job selections plan
  | .undone (some (.error _)) => after = before
  | .undone none => after = before
  | _ => False

theorem told_committed {result : Result} (call : tx.request.call = .deleteSelected role viewer job selections)
    (obeys : tx.Obeys (At tx.request) (Ends tx.request)) (sound : Sound stored tx)
    (shape : tx.phase = .ready (.done (.commit result))) :
    Told stored (tx.pending stored) tx.request.scope role viewer job selections (.committed result) := by
  obtain ⟨taking, underway⟩ := sound (by rw [Transaction.live, shape])
  have standing := underway.standing _ _ _ _ call
  rw [Transaction.Obeys, shape] at obeys
  have decided : Ends tx.request tx.trace (.commit result) := obeys
  rw [Ends, call] at decided
  cases result with
  | error e => exact decided.elim
  | ok outcome =>
    cases outcome with
    | plan plan =>
      obtain ⟨rfl, ⟨rfl, here⟩ | ⟨files, media, missing, forbidden, here⟩⟩ := decided
      · rw [here] at standing
        exact ⟨rfl, cleared_nothing standing underway.deletes⟩
      · rw [here] at standing
        exact ⟨rfl, cleared standing underway.deletes missing forbidden⟩
    | _ => exact decided.elim

theorem told_undone {result : Result} (call : tx.request.call = .deleteSelected role viewer job selections)
    (obeys : tx.Obeys (At tx.request) (Ends tx.request)) (sound : Sound stored tx)
    (shape : tx.phase = .ready (.done (.rollback result))) :
    Told stored stored tx.request.scope role viewer job selections (.undone (some result)) := by
  obtain ⟨taking, underway⟩ := sound (by rw [Transaction.live, shape])
  have standing := underway.standing _ _ _ _ call
  rw [Transaction.Obeys, shape] at obeys
  have decided : Ends tx.request tx.trace (.rollback result) := obeys
  rw [Ends, call] at decided
  cases result with
  | error e => exact rfl
  | ok outcome =>
    cases outcome with
    | plan plan =>
      obtain ⟨files, media, here, rfl, refuses⟩ := decided
      rw [here] at standing
      obtain ⟨rfl, -⟩ := standing.lockedFiles files rfl
      obtain ⟨rfl, -⟩ := standing.lockedMedia media rfl
      rw [judged_chosen] at refuses ⊢
      exact ⟨rfl, rfl, rfl, rfl, refuses⟩
    | _ => exact decided.elim

end Endings

/- Two viewers clear one gallery, where a file of the job and a photo of its diary have the same id. -/

def gallery : Db :=
  { Db.empty with
    users := .of [.plain 7 1 (text "Ann") (text "ann@example.com") (text "OFFICE") (Eq.refl true)] 8 (Eq.refl true)
    jobs := .of [NoteIsolation.jobOf 1 1 none] 2 (Eq.refl true)
    siteDiary := .of [⟨2, 1, some 7, 20588, [], none, none⟩] 3 (Eq.refl true)
    diaryMedia := .of [⟨30, 2, none, .photo, text "image/jpeg", text "slab.jpg", text "x.jpg", 1024, [], some 7, 0⟩] 31
      (Eq.refl true)
    jobMedia := .of [⟨30, 1, .photo, text "image/jpeg", text "roof.jpg", text "y.jpg", 1024, [], some 7, 0⟩] 31
      (Eq.refl true) }

def both : Request := ⟨1, .deleteSelected .office 7 1 [⟨true, 30⟩, ⟨false, 30⟩]⟩

/-- The second call has started to lock the file when the first one ends. -/
def overlapping : List (Label Request (Option PortError)) :=
  [.begin both, .begin both] ++ turns none 0 1 ++ [.start 1] ++ turns none 0 4

def second : List (Label Request (Option PortError)) := [.finish 0, .run 1 none] ++ turns none 1 1

end WholeSelections
