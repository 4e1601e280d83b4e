import PmKonstruct.Diary.NoteIsolation
import PmKonstruct.Forms.DraftTables
import PmKonstruct.Jobs.JobService
import PmKonstruct.Library.TransitionRuns

/- The deletion queue and the files that are still there. The queue holds keys and not rows, so a key that is queued
   for one row is safe to sweep only while no other row is stored under it. -/
namespace LiveKeys
open PlainText DomainErrors Accounts CalendarDate Schema KeyedTable RowSecurity Requests DeletionQueue TransitionRuns
open MediaStore Upload InspectionStore DraftTables
open InspectionService (InspectionPhotoUpload findDraft findDraft_load verifyEach batchOk assertItemExists)
open AuthService (SessionUser)

def QueueSparesLive (db : Db) : Prop := ∀ key ∈ db.mediaDeletionQueue, key ∉ mediaKeys db

inductive Call where
  | confirmUpload (owner : MediaOwner) (storedName originalName mimeType : Text)
  | attachPhotos (form : InspectionFormId) (clientKey : Text) (expected : Int) (uploads : List InspectionPhotoUpload)
  | deleteMedia (id : MediaId) (jobMedia : Bool)
  | deleteSelected (job : JobId) (selections : List MediaSelection)
  | deletePhoto (form : InspectionFormId) (expected photo : Int)
  | deleteNote (entry : DiaryEntryId) (note : DiaryNoteId)
  | deleteEntry (entry : DiaryEntryId)
  | purgeJob (job : JobId)
  deriving DecidableEq, Repr

structure Request where
  now : Instant
  session : SessionUser
  storage : ObjectStore
  call : Call

def serve (db : Db) (r : Request) : Db :=
  match r.call with
  | .confirmUpload owner storedName originalName mimeType =>
    (MediaService.confirmUpload db r.session r.storage r.now owner storedName originalName mimeType).2
  | .attachPhotos form clientKey expected uploads =>
    (InspectionService.attachPhotos db r.session r.storage r.now form clientKey expected uploads).2
  | .deleteMedia id jobMedia => (MediaService.delete db r.session id jobMedia).2
  | .deleteSelected job selections => (MediaService.deleteSelected db r.session job selections).2
  | .deletePhoto form expected photo => (InspectionService.deletePhoto db r.session r.now form expected photo).2
  | .deleteNote entry note => (DiaryService.deleteNote db r.session entry note).2
  | .deleteEntry entry => (DiaryService.delete db r.session entry).2
  | .purgeJob job => (JobService.purge db r.session job).2

/-- The owner has no file under the name, and the sweeper is not about to delete one. -/
def unused (db : Db) (s : SessionUser) (owner : MediaOwner) (storedName : Text) : Bool :=
  MediaService.keyFor s owner storedName ∉ db.mediaDeletionQueue &&
    match owner with
    | .diary entry _ => db.diaryMedia.rows.all fun m => (m.diaryEntryId, m.storedName) ≠ (entry, storedName)
    | .job job => db.jobMedia.rows.all fun m => (m.jobId, m.storedName) ≠ (job, storedName)

def attaches (s : SessionUser) (storage : ObjectStore) (draft : InspectionForm) (clientKey : Text)
    (expected : Int) (uploads : List InspectionPhotoUpload) : Bool :=
  (batchOk uploads).isOk && draft.form.revision = expected && (assertItemExists draft clientKey).isOk &&
    (verifyEach s storage draft clientKey uploads).isOk

/-- Every file is stored under a name that is new to its owner, and no note of another company is deleted from under
    the media of this one. -/
def freshNames (db : Db) (r : Request) : Bool :=
  match r.call with
  | .confirmUpload owner storedName originalName mimeType =>
    !MediaService.confirms db r.session r.storage owner storedName originalName mimeType ||
      unused db r.session owner storedName
  | .attachPhotos form clientKey expected uploads =>
    (findDraft db r.session form).toOption.all fun draft =>
      !attaches r.session r.storage draft clientKey expected uploads ||
        (decide (uploads.map (·.storedName)).Nodup && uploads.all fun u =>
          unused db r.session (.diary draft.form.diaryEntryId (some draft.form.diaryNoteId)) u.storedName)
  | .deleteNote entry note => !(DiaryService.get db r.session entry).isOk ||
    noteInScope db r.session.principal.companyId note ||
      (visibleMedia db r.session.principal.companyId fun m => m.noteId = some note).isEmpty
  | _ => true

/-- Uploads and deletions under any sessions, from a store without media. -/
def files (allowed : Db → Request → Bool) : Machine Db Request where
  initial db := db.diaryMedia.rows = [] ∧ db.jobMedia.rows = [] ∧ db.mediaDeletionQueue = []
  step db r := some (serve db r)
  allowed := allowed

def mediaName (m : DiaryMediaRow) : DiaryEntryId × Text := (m.diaryEntryId, m.storedName)

def fileName (m : JobMediaRow) : JobId × Text := (m.jobId, m.storedName)

/-- No owner has two files under one name, and nothing queued is live. -/
structure Spared (db : Db) : Prop where
  media : db.diaryMedia.Unique mediaName
  files : db.jobMedia.Unique fileName
  queue : QueueSparesLive db

/-- Rows went, and nothing came. -/
structure Shrinks (db after : Db) : Prop where
  media : ∀ m ∈ after.diaryMedia.rows, m ∈ db.diaryMedia.rows
  files : ∀ m ∈ after.jobMedia.rows, m ∈ db.jobMedia.rows
  entries : ∀ id row, after.siteDiary.find id = some row → db.siteDiary.find id = some row
  jobs : ∀ id row, after.jobs.find id = some row → db.jobs.find id = some row

section Deletions
variable {db mid after : Db} {scope company : CompanyId} {entry : DiaryEntryId} {job : JobId} {key : Text}

theorem Shrinks.trans (first : Shrinks db mid) (second : Shrinks mid after) : Shrinks db after where
  media := fun m member => first.media m (second.media m member)
  files := fun m member => first.files m (second.files m member)
  entries := fun id row found => first.entries id row (second.entries id row found)
  jobs := fun id row found => first.jobs id row (second.jobs id row found)

theorem Shrinks.of_eq (media : after.diaryMedia = db.diaryMedia) (files : after.jobMedia = db.jobMedia)
    (entries : after.siteDiary = db.siteDiary) (jobs : after.jobs = db.jobs) : Shrinks db after where
  media := by rw [media]; exact fun _ => id
  files := by rw [files]; exact fun _ => id
  entries := by rw [entries]; exact fun _ _ => id
  jobs := by rw [jobs]; exact fun _ _ => id

theorem Shrinks.ofJob (shrinks : Shrinks db after) (seen : jobInScope after company job = true) :
    jobInScope db company job = true := by
  obtain ⟨row, found, owned⟩ := (Option.any_eq_true _ _).mp seen
  exact (Option.any_eq_true _ _).mpr ⟨row, shrinks.jobs job row found, owned⟩

theorem Shrinks.ofEntry (shrinks : Shrinks db after) (seen : entryInScope after company entry = true) :
    entryInScope db company entry = true := by
  obtain ⟨row, found, visible⟩ := (Option.any_eq_true _ _).mp seen
  exact (Option.any_eq_true _ _).mpr ⟨row, shrinks.entries entry row found, shrinks.ofJob visible⟩

theorem Shrinks.keys (shrinks : Shrinks db after) (live : key ∈ mediaKeys after) : key ∈ mediaKeys db := by
  rcases mem_mediaKeys.mp live with ⟨m, member, company, seen, same⟩ | ⟨m, member, company, seen, same⟩
  · exact mem_mediaKeys.mpr (.inl ⟨m, shrinks.media m member, company, shrinks.ofEntry seen, same⟩)
  · exact mem_mediaKeys.mpr (.inr ⟨m, shrinks.files m member, company, shrinks.ofJob seen, same⟩)

/-- The key is the key of a row that went. -/
def KeyOfGone (db after : Db) (key : Text) : Prop :=
  (∃ m ∈ db.diaryMedia.rows, m ∉ after.diaryMedia.rows ∧ ∃ company, key = diaryKey company m) ∨
    ∃ m ∈ db.jobMedia.rows, m ∉ after.jobMedia.rows ∧ ∃ company, key = jobKey company m

theorem gone_notLive (spared : Spared db) (shrinks : Shrinks db after) (gone : KeyOfGone db after key) :
    key ∉ mediaKeys after := by
  intro live
  rw [mem_mediaKeys] at live
  rcases gone with ⟨m, member, absent, company, rfl⟩ | ⟨m, member, absent, company, rfl⟩
  · rcases live with ⟨other, there, _, -, same⟩ | ⟨other, -, _, -, same⟩
    · obtain ⟨-, entry, name⟩ := diaryKey_injective same
      have alike := spared.media other (shrinks.media other there) m member (Prod.ext entry name)
      exact absent (alike ▸ there)
    · exact diaryKey_ne_jobKey same.symm
  · rcases live with ⟨other, -, _, -, same⟩ | ⟨other, there, _, -, same⟩
    · exact diaryKey_ne_jobKey same
    · obtain ⟨-, job, name⟩ := jobKey_injective same
      have alike := spared.files other (shrinks.files other there) m member (Prod.ext job name)
      exact absent (alike ▸ there)

/-- A deletion that queues keys of rows it takes. -/
theorem Spared.shrink (spared : Spared db) (shrinks : Shrinks db after)
    (queued : ∀ key ∈ after.mediaDeletionQueue, key ∈ db.mediaDeletionQueue ∨ KeyOfGone db after key) :
    Spared after where
  media := fun a left b right => spared.media a (shrinks.media a left) b (shrinks.media b right)
  files := fun a left b right => spared.files a (shrinks.files a left) b (shrinks.files b right)
  queue := by
    intro key member live
    rcases queued key member with old | gone
    · exact spared.queue key old (shrinks.keys live)
    · exact gone_notLive spared shrinks gone live

/- What each cascade takes. -/

theorem cascadeMedia_shrinks {gone : DiaryMediaRow → Bool} : Shrinks db (cascadeMedia gone db) where
  media := fun _ member => (Table.mem_delete.mp member).1
  files := fun _ => id
  entries := fun _ _ => id
  jobs := fun _ _ => id

theorem cascadeNotes_shrinks {gone : DiaryNoteRow → Bool} : Shrinks db (cascadeNotes gone db) where
  media := cascadeMedia_shrinks.media
  files := fun _ => id
  entries := fun _ _ => id
  jobs := fun _ _ => id

theorem cascadeNotes_media {gone : DiaryNoteRow → Bool} {m : DiaryMediaRow} :
    m ∈ (cascadeNotes gone db).diaryMedia.rows ↔
      m ∈ db.diaryMedia.rows ∧ (m.noteId.any fun note => (db.diaryNotes.find note).any gone) = false :=
  Table.mem_delete

theorem cascadeEntries_jobs {gone : SiteDiaryRow → Bool} :
    (cascadeEntries gone db).jobs = db.jobs ∧ (cascadeEntries gone db).jobMedia = db.jobMedia := by
  simp only [cascadeEntries, cascadeForms, cascadeMedia, cascadeNotes, and_self]

theorem cascadeEntries_shrinks {gone : SiteDiaryRow → Bool} : Shrinks db (cascadeEntries gone db) where
  media := (cascadeNotes_shrinks.trans cascadeMedia_shrinks).media
  files := by
    intro file there
    rwa [cascadeEntries_jobs.2] at there
  entries := fun _ _ => Table.find_of_delete
  jobs := by
    intro id row found
    rwa [cascadeEntries_jobs.1] at found

theorem cascadeEntries_media {gone : SiteDiaryRow → Bool} {m : DiaryMediaRow}
    (member : m ∈ (cascadeEntries gone db).diaryMedia.rows) : (db.siteDiary.find m.diaryEntryId).any gone = false :=
  (Table.mem_delete.mp member).2

theorem cascadeJobs_shrinks {gone : JobRow → Bool} : Shrinks db (JobStore.cascadeJobs gone db) where
  media := cascadeEntries_shrinks.media
  files := fun _ member => (Table.mem_delete.mp member).1
  entries := cascadeEntries_shrinks.entries
  jobs := fun _ _ => Table.find_of_delete

theorem cascadeJobs_media {gone : JobRow → Bool} {m : DiaryMediaRow}
    (member : m ∈ (JobStore.cascadeJobs gone db).diaryMedia.rows) :
    ((db.siteDiary.find m.diaryEntryId).any fun e => (db.jobs.find e.jobId).any gone) = false :=
  cascadeEntries_media member

theorem cascadeJobs_files {gone : JobRow → Bool} {m : JobMediaRow}
    (member : m ∈ (JobStore.cascadeJobs gone db).jobMedia.rows) : (db.jobs.find m.jobId).any gone = false :=
  (Table.mem_delete.mp member).2

/- Each deletion queues the keys of rows that it takes. -/

theorem cascadeNotes_queue {gone : DiaryNoteRow → Bool} :
    (cascadeNotes gone db).mediaDeletionQueue = db.mediaDeletionQueue := by
  simp only [cascadeNotes, cascadeForms, cascadeMedia]

theorem cascadeEntries_queue {gone : SiteDiaryRow → Bool} :
    (cascadeEntries gone db).mediaDeletionQueue = db.mediaDeletionQueue := by
  simp only [cascadeEntries, cascadeForms, cascadeMedia, cascadeNotes_queue]

theorem cascadeJobs_queue {gone : JobRow → Bool} :
    (JobStore.cascadeJobs gone db).mediaDeletionQueue = db.mediaDeletionQueue := by
  simp only [JobStore.cascadeJobs, cascadeForms, cascadeEntries_queue]

theorem mem_visibleMedia {p : DiaryMediaRow → Bool} {m : DiaryMediaRow} : m ∈ visibleMedia db scope p ↔
    m ∈ db.diaryMedia.rows ∧ p m = true ∧ entryInScope db scope m.diaryEntryId = true := by
  rw [visibleMedia, Table.mem_select, Bool.and_eq_true]

theorem mem_diaryKeys {p : DiaryMediaRow → Bool} (queued : key ∈ (visibleMedia db scope p).map (diaryKey scope)) :
    ∃ m ∈ db.diaryMedia.rows, p m = true ∧ entryInScope db scope m.diaryEntryId = true ∧ key = diaryKey scope m := by
  obtain ⟨m, seen, made⟩ := List.mem_map.mp queued
  obtain ⟨member, picked, visible⟩ := mem_visibleMedia.mp seen
  exact ⟨m, member, picked, visible, made.symm⟩

theorem mem_jobKeys {p : JobMediaRow → Bool} (queued : key ∈ (db.jobMedia.select p).map (jobKey scope)) :
    ∃ m ∈ db.jobMedia.rows, p m = true ∧ key = jobKey scope m := by
  obtain ⟨m, seen, made⟩ := List.mem_map.mp queued
  obtain ⟨member, picked⟩ := Table.mem_select.mp seen
  exact ⟨m, member, picked, made.symm⟩

theorem removeDiaryMedia_spared {p : DiaryMediaRow → Bool} (spared : Spared db) :
    Spared (removeDiaryMedia db scope p) := by
  have shrinks : Shrinks db (removeDiaryMedia db scope p) :=
    ⟨cascadeMedia_shrinks.media, fun _ => id, fun _ _ => id, fun _ _ => id⟩
  apply spared.shrink shrinks
  intro key queued
  rcases mem_enqueue.mp queued with old | new
  · exact .inl old
  · obtain ⟨m, member, picked, visible, made⟩ := mem_diaryKeys new
    refine .inr (.inl ⟨m, member, ?_, scope, made⟩)
    intro kept
    have left := (Table.mem_delete.mp kept).2
    rw [picked, visible] at left
    cases left

theorem removeJobMedia_spared {p : JobMediaRow → Bool} (spared : Spared db) : Spared (removeJobMedia db scope p) := by
  have shrinks : Shrinks db (removeJobMedia db scope p) :=
    ⟨fun _ => id, fun _ member => (Table.mem_delete.mp member).1, fun _ _ => id, fun _ _ => id⟩
  apply spared.shrink shrinks
  intro key queued
  rcases mem_enqueue.mp queued with old | new
  · exact .inl old
  · obtain ⟨m, member, picked, made⟩ := mem_jobKeys new
    refine .inr (.inr ⟨m, member, ?_, scope, made⟩)
    intro kept
    have left := (Table.mem_delete.mp kept).2
    rw [picked] at left
    cases left

theorem mediaDelete_spared {id : MediaId} {jobMedia : Bool} (spared : Spared db) :
    Spared (MediaStore.delete db scope id jobMedia).2 := by
  unfold MediaStore.delete
  split
  · exact spared
  · split
    · exact removeJobMedia_spared spared
    · exact removeDiaryMedia_spared spared

theorem deleteMany_spared {selections : List MediaSelection} {uploadedBy : Option UserId} (spared : Spared db) :
    Spared (MediaStore.deleteMany db scope job selections uploadedBy).2 := by
  unfold MediaStore.deleteMany
  split
  · exact spared
  · simp only
    split
    · exact spared
    · exact removeDiaryMedia_spared (removeJobMedia_spared spared)

/-- The note is the company's, or it queues nothing. -/
theorem deleteNote_spared {note : DiaryNoteId} (spared : Spared db)
    (known : noteInScope db scope note = true ∨ visibleMedia db scope (fun m => m.noteId = some note) = []) :
    Spared (DiaryStore.deleteNote db scope note).2 := by
  unfold DiaryStore.deleteNote
  simp only
  split
  · next absent =>
    rcases known with visible | nothing
    · rw [DiaryStore.noteInScope_false_iff.mpr absent] at visible
      cases visible
    · rw [enqueueNoteMedia, nothing]
      exact spared
  · next row reached =>
    have queuing : Shrinks db (enqueueNoteMedia db scope note) := Shrinks.of_eq rfl rfl rfl rfl
    apply spared.shrink (queuing.trans cascadeNotes_shrinks)
    intro key queued
    rw [cascadeNotes_queue] at queued
    rcases mem_enqueue.mp queued with old | new
    · exact .inl old
    · obtain ⟨m, member, named, -, made⟩ := mem_diaryKeys new
      refine .inr (.inl ⟨m, member, ?_, scope, made⟩)
      intro kept
      have left := (cascadeNotes_media.mp kept).2
      have found : db.diaryNotes.find note = some row := (Table.reach_eq_some_iff.mp reached).1
      have same : row.id = note := (Table.find_eq_some_iff.mp found).2
      simp [of_decide_eq_true named, enqueueNoteMedia, found, same] at left

theorem deleteEntry_spared (spared : Spared db) : Spared (DiaryStore.deleteEntry db scope entry).2 := by
  have queuing : Shrinks db (enqueueDiaryEntryMedia db scope entry) := Shrinks.of_eq rfl rfl rfl rfl
  unfold DiaryStore.deleteEntry
  simp only
  split
  · next absent =>
    apply spared.shrink queuing
    intro key queued
    rcases mem_enqueue.mp queued with old | new
    · exact .inl old
    · obtain ⟨m, -, named, visible, -⟩ := mem_diaryKeys new
      obtain ⟨row, found, owned⟩ := (Option.any_eq_true _ _).mp visible
      rw [of_decide_eq_true named] at found
      rw [Table.reach_eq_some_iff.mpr ⟨found, owned⟩] at absent
      cases absent
  · next row reached =>
    apply spared.shrink (queuing.trans cascadeEntries_shrinks)
    intro key queued
    rw [cascadeEntries_queue] at queued
    rcases mem_enqueue.mp queued with old | new
    · exact .inl old
    · obtain ⟨m, member, named, -, made⟩ := mem_diaryKeys new
      refine .inr (.inl ⟨m, member, ?_, scope, made⟩)
      intro kept
      have left := cascadeEntries_media kept
      have found : db.siteDiary.find entry = some row := (Table.reach_eq_some_iff.mp reached).1
      have same : row.id = entry := (Table.find_eq_some_iff.mp found).2
      simp [of_decide_eq_true named, enqueueDiaryEntryMedia, found, same] at left

theorem purge_spared (spared : Spared db) : Spared (JobStore.purge db scope job).2 := by
  have queuing : Shrinks db (enqueueJobMedia db scope job) := Shrinks.of_eq rfl rfl rfl rfl
  unfold JobStore.purge
  simp only
  split
  · next absent =>
    have hidden : jobInScope db scope job = false := by
      by_contra seen
      obtain ⟨row, found, owned⟩ := jobInScope_iff.mp (Bool.not_eq_false _ ▸ seen)
      rw [Table.reach_eq_some_iff.mpr ⟨found, decide_eq_true owned⟩] at absent
      cases absent
    apply spared.shrink queuing
    intro key queued
    rcases mem_enqueue.mp queued with old | new
    · exact .inl old
    · rcases List.mem_append.mp new with file | media
      · obtain ⟨m, -, picked, -⟩ := mem_jobKeys file
        rw [Bool.and_eq_true, decide_eq_true_eq] at picked
        rw [picked.1, hidden] at picked
        cases picked.2
      · obtain ⟨m, -, picked, visible, -⟩ := mem_diaryKeys media
        obtain ⟨e, found, owned⟩ := (Option.any_eq_true _ _).mp visible
        rw [found, Option.any_some, decide_eq_true_eq] at picked
        rw [picked, hidden] at owned
        cases owned
  · next row reached =>
    have found : db.jobs.find job = some row := (Table.reach_eq_some_iff.mp reached).1
    have same : row.id = job := (Table.find_eq_some_iff.mp found).2
    apply spared.shrink (queuing.trans cascadeJobs_shrinks)
    intro key queued
    rw [cascadeJobs_queue] at queued
    rcases mem_enqueue.mp queued with old | new
    · exact .inl old
    · rcases List.mem_append.mp new with file | media
      · obtain ⟨m, member, picked, made⟩ := mem_jobKeys file
        refine .inr (.inr ⟨m, member, ?_, scope, made⟩)
        intro kept
        have left := cascadeJobs_files kept
        rw [Bool.and_eq_true, decide_eq_true_eq] at picked
        simp [picked.1, enqueueJobMedia, found, same] at left
      · obtain ⟨m, member, picked, -, made⟩ := mem_diaryKeys media
        refine .inr (.inl ⟨m, member, ?_, scope, made⟩)
        intro kept
        have left := cascadeJobs_media kept
        obtain ⟨e, located, under⟩ := (Option.any_eq_true _ _).mp picked
        simp [enqueueJobMedia, located, of_decide_eq_true under, found, same] at left

end Deletions

/- A file that comes under a name of its own. -/

section Uploads
variable {db after : Db} {scope company : CompanyId} {now : Instant} {s : SessionUser}

theorem Spared.congr (spared : Spared db) (media : after.diaryMedia = db.diaryMedia)
    (files : after.jobMedia = db.jobMedia) (queue : after.mediaDeletionQueue = db.mediaDeletionQueue)
    (entries : after.siteDiary = db.siteDiary) (jobs : after.jobs = db.jobs) : Spared after := by
  apply spared.shrink (Shrinks.of_eq media files entries jobs)
  intro key queued
  exact .inl (queue ▸ queued)

theorem Spared.addMedia {make : Int → DiaryMediaRow} {keyed : ∀ n, (make n).id = n} (spared : Spared db)
    (visible : entryInScope db scope (make db.diaryMedia.serial).diaryEntryId = true)
    (fresh : ∀ m ∈ db.diaryMedia.rows, mediaName m ≠ mediaName (make db.diaryMedia.serial))
    (unqueued : diaryKey scope (make db.diaryMedia.serial) ∉ db.mediaDeletionQueue) :
    Spared { db with diaryMedia := db.diaryMedia.insert make keyed } where
  media := by
    have unique : (db.diaryMedia.insert make keyed).Unique mediaName := spared.media.insert fresh
    exact unique
  files := spared.files
  queue := by
    intro key queued live
    rcases mediaKeys_addMedia visible live with before | rfl
    · exact spared.queue key queued before
    · exact unqueued queued

theorem Spared.addFile {make : Int → JobMediaRow} {keyed : ∀ n, (make n).id = n} (spared : Spared db)
    (visible : jobInScope db scope (make db.jobMedia.serial).jobId = true)
    (fresh : ∀ m ∈ db.jobMedia.rows, fileName m ≠ fileName (make db.jobMedia.serial))
    (unqueued : jobKey scope (make db.jobMedia.serial) ∉ db.mediaDeletionQueue) :
    Spared { db with jobMedia := db.jobMedia.insert make keyed } where
  media := spared.media
  files := by
    have unique : (db.jobMedia.insert make keyed).Unique fileName := spared.files.insert fresh
    exact unique
  queue := by
    intro key queued live
    rcases mediaKeys_addFile visible live with before | rfl
    · exact spared.queue key queued before
    · exact unqueued queued

theorem unused_diary {entry : DiaryEntryId} {note : Option DiaryNoteId} {storedName : Text} :
    unused db s (.diary entry note) storedName = true ↔
      objectKey s.principal.companyId (text "diary") entry storedName ∉ db.mediaDeletionQueue ∧
        ∀ m ∈ db.diaryMedia.rows, mediaName m ≠ (entry, storedName) := by
  rw [unused, Bool.and_eq_true, decide_eq_true_iff, List.all_eq_true]
  simp only [MediaService.keyFor, mediaName, decide_eq_true_iff]

theorem unused_job {job : JobId} {storedName : Text} : unused db s (.job job) storedName = true ↔
    objectKey s.principal.companyId (text "job") job storedName ∉ db.mediaDeletionQueue ∧
      ∀ m ∈ db.jobMedia.rows, fileName m ≠ (job, storedName) := by
  rw [unused, Bool.and_eq_true, decide_eq_true_iff, List.all_eq_true]
  simp only [MediaService.keyFor, fileName, decide_eq_true_iff]

theorem record_spared {rec : MediaRecord} {media : Media} (spared : Spared db)
    (free : unused db s rec.owner rec.storedName = true)
    (recorded : record db s.principal.companyId now rec = .ok (media, after)) : Spared after := by
  unfold record at recorded
  cases owner : rec.owner with
  | diary entry note =>
    rw [owner] at recorded free
    obtain ⟨⟨row, stored⟩, inserted, pair⟩ := map_ok recorded
    cases pair
    obtain ⟨unqueued, fresh⟩ := unused_diary.mp free
    have visible := inserted_visible inserted
    obtain ⟨-, rfl⟩ := insertRow_ok inserted
    exact spared.addMedia visible fresh unqueued
  | job job =>
    rw [owner] at recorded free
    obtain ⟨⟨row, stored⟩, inserted, pair⟩ := map_ok recorded
    cases pair
    obtain ⟨unqueued, fresh⟩ := unused_job.mp free
    have visible := insertedFile_visible inserted
    obtain ⟨-, rfl⟩ := insertRow_ok inserted
    exact spared.addFile visible fresh unqueued

theorem confirmUpload_spared {storage : ObjectStore} {owner : MediaOwner} {storedName originalName mimeType : Text}
    (spared : Spared db)
    (free : MediaService.confirms db s storage owner storedName originalName mimeType = true →
      unused db s owner storedName = true) :
    Spared (MediaService.confirmUpload db s storage now owner storedName originalName mimeType).2 := by
  apply attempt_keeps Spared spared
  intro _ access
  apply attempt_keeps Spared spared
  intro verified checked
  apply committed_keeps Spared spared
  intro media after recorded
  have free := free (by rw [MediaService.confirms, access, checked]; rfl)
  exact record_spared spared free recorded

/- A batch: the rows that came before are part of the store that the next one is checked against. -/

theorem linked_spared {row : InspectionFormRow} {photo : InspectionPhotoRecord} {item order : Int} (spared : Spared db)
    (visible : entryInScope db s.principal.companyId row.diaryEntryId = true)
    (free : unused db s (.diary row.diaryEntryId (some row.diaryNoteId)) photo.media.storedName = true) :
    Spared (linkedDb db now row photo item order) := by
  obtain ⟨unqueued, fresh⟩ := unused_diary.mp free
  have added : Spared { db with
      diaryMedia := db.diaryMedia.insert (photoRow now row photo.media) fun _ => rfl } :=
    spared.addMedia visible fresh unqueued
  exact added.congr rfl rfl rfl rfl rfl

theorem linked_unused {row : InspectionFormRow} {photo : InspectionPhotoRecord} {item order : Int} {storedName : Text}
    (free : unused db s (.diary row.diaryEntryId (some row.diaryNoteId)) storedName = true)
    (apart : photo.media.storedName ≠ storedName) :
    unused (linkedDb db now row photo item order) s (.diary row.diaryEntryId (some row.diaryNoteId))
      storedName = true := by
  obtain ⟨unqueued, fresh⟩ := unused_diary.mp free
  refine unused_diary.mpr ⟨unqueued, ?_⟩
  have rows : ∀ m ∈ (db.diaryMedia.insert (photoRow now row photo.media) fun _ => rfl).rows,
      mediaName m ≠ (row.diaryEntryId, storedName) :=
    Table.all_insert fresh fun same => apart (Prod.mk.inj same).2
  exact rows

theorem attachEach_spared {row : InspectionFormRow} {photos : List InspectionPhotoRecord} (spared : Spared db)
    (distinct : (photos.map (·.media.storedName)).Nodup)
    (free : ∀ photo ∈ photos,
      unused db s (.diary row.diaryEntryId (some row.diaryNoteId)) photo.media.storedName = true)
    (done : attachEach s.principal.companyId now row db photos = .ok after) : Spared after := by
  induction photos generalizing db with
  | nil =>
    cases done
    exact spared
  | cons photo rest ih =>
    rw [List.map_cons, List.nodup_cons] at distinct
    obtain ⟨first, later⟩ := List.forall_mem_cons.mp free
    rw [InspectionStore.attachEach] at done
    split at done
    · cases done
    · next linked =>
      have visible := attachPhoto_visible linked
      obtain ⟨item, -, order, -, rfl⟩ := attachPhoto_ok linked
      apply ih (linked_spared spared visible first) distinct.2 _ done
      intro other member
      apply linked_unused (later other member)
      intro same
      exact distinct.1 (List.mem_map.mpr ⟨other, member, same.symm⟩)

theorem verifyEach_names {storage : ObjectStore} {draft : InspectionForm} {clientKey : Text}
    {uploads : List InspectionPhotoUpload} {records : List InspectionPhotoRecord}
    (verified : verifyEach s storage draft clientKey uploads = .ok records) :
    records.map (·.media.storedName) = uploads.map (·.storedName) := by
  induction uploads generalizing records with
  | nil =>
    cases verified
    rfl
  | cons u rest ih =>
    obtain ⟨first, -, verified⟩ := bind_ok verified
    obtain ⟨_, -, verified⟩ := bind_ok verified
    obtain ⟨later, others, made⟩ := bind_ok verified
    cases made
    rw [List.map_cons, List.map_cons, ih others]

theorem attachPhotos_spared {storage : ObjectStore} {form : InspectionFormId} {clientKey : Text} {expected : Int}
    {uploads : List InspectionPhotoUpload} (spared : Spared db)
    (free : freshNames db ⟨now, s, storage, .attachPhotos form clientKey expected uploads⟩ = true) :
    Spared (InspectionService.attachPhotos db s storage now form clientKey expected uploads).2 := by
  apply attempt_keeps Spared spared
  intro _ batch
  apply attempt_keeps Spared spared
  intro draft found
  split
  · exact spared
  next current =>
  apply attempt_keeps Spared spared
  intro _ item
  apply attempt_keeps Spared spared
  intro records verified
  rw [InspectionService.orStale_after]
  apply committed_keeps Spared spared
  intro saved after attached
  rcases attachPhotos_ok attached with ⟨-, rfl⟩ | ⟨other, loaded, revision, each, -⟩
  · exact spared
  rw [findDraft_load found] at loaded
  cases loaded
  have attaching : attaches s storage draft clientKey expected uploads = true := by
    simp only [attaches, inDomain_ok batch, inDomain_ok item, verified, decide_eq_true revision]
    rfl
  simp only [freshNames, found, Except.toOption, Option.all_some, attaching, Bool.not_true, Bool.false_or,
    Bool.and_eq_true, decide_eq_true_eq, List.all_eq_true] at free
  have claimed : Spared (claimedDb db s.principal.companyId now form expected) := spared.congr rfl rfl rfl rfl rfl
  have names := verifyEach_names verified
  apply attachEach_spared claimed (names ▸ free.1) _ each
  intro photo member
  have listed : photo.media.storedName ∈ uploads.map (·.storedName) := names ▸ List.mem_map.mpr ⟨photo, member, rfl⟩
  obtain ⟨u, chosen, same⟩ := List.mem_map.mp listed
  exact same ▸ free.2 u chosen

end Uploads

theorem serve_spared {db : Db} {r : Request} (spared : Spared db) (free : freshNames db r = true) :
    Spared (serve db r) := by
  obtain ⟨now, s, storage, call⟩ := r
  cases call with
  | confirmUpload owner storedName originalName mimeType =>
    apply confirmUpload_spared spared
    intro confirmed
    simpa [freshNames, confirmed] using free
  | attachPhotos form clientKey expected uploads => exact attachPhotos_spared spared free
  | deleteMedia id jobMedia =>
    unfold serve MediaService.delete
    simp only
    split
    · exact spared
    · apply attempt_keeps Spared spared
      intro _ _
      split
      · rw [deletedOrNotFound_after]
        exact mediaDelete_spared spared
      · exact spared
  | deleteSelected job selections =>
    apply attempt_keeps Spared spared
    intro _ _
    exact deleteMany_spared spared
  | deletePhoto form expected photo =>
    apply attempt_keeps Spared spared
    intro _ _
    rw [InspectionService.orStale_after]
    apply committed_keeps Spared spared
    intro found after deleted
    rcases deletePhoto_ok deleted with ⟨-, rfl⟩ | ⟨_, -, -, link, -, -, rfl, -⟩
    · exact spared
    · have claimed : Spared (claimedDb db s.principal.companyId now form expected) :=
        spared.congr rfl rfl rfl rfl rfl
      exact removeDiaryMedia_spared claimed
  | deleteNote entry note =>
    apply attempt_keeps Spared spared
    intro row visible
    rw [deletedOrNotFound_after]
    apply deleteNote_spared spared
    simpa [freshNames, visible, Except.isOk, Except.toBool] using free
  | deleteEntry entry =>
    apply attempt_keeps Spared spared
    intro _ _
    rw [deletedOrNotFound_after]
    exact deleteEntry_spared spared
  | purgeJob job =>
    apply attempt_keeps Spared spared
    intro _ _
    rw [deletedOrNotFound_after]
    exact purge_spared spared

theorem unstored_spared {db : Db} (media : db.diaryMedia.rows = []) (files : db.jobMedia.rows = [])
    (queue : db.mediaDeletionQueue = []) : Spared db where
  media := by simp [Table.Unique, media]
  files := by simp [Table.Unique, files]
  queue := by simp [QueueSparesLive, queue]

def manager : SessionUser where
  user := ⟨7, 1, text "Sarah", text "sarah@example.com", .manager, none, true, none⟩
  principal := ⟨7, 1, .manager⟩
  permissions := []
  entitlement := ⟨true, true, true, none⟩

def twoCompanies : Db :=
  { Db.empty with
    users := .of [.plain 7 1 (text "Sarah") (text "sarah@example.com") (text "MANAGER") (Eq.refl true)] 8
      (Eq.refl true)
    jobs := .of [NoteIsolation.jobOf 1 1 none, NoteIsolation.jobOf 2 2 none] 3 (Eq.refl true)
    siteDiary := .of [NoteIsolation.entryOf 1 1, NoteIsolation.entryOf 2 2] 3 (Eq.refl true)
    diaryNotes := .of [⟨1, 2, .listed .general, text "Slab poured", none, none, 0, false, 0⟩] 2 (Eq.refl true) }

def jpegStored : ObjectStore where
  head := fun _ => .ok (some 1024)
  readPrefix := fun _ _ => .ok [0xff, 0xd8, 0xff, 0xe0]

def asked (call : Call) : Request := ⟨0, manager, jpegStored, call⟩

def photo (owner : MediaOwner) (storedName : String) : Request :=
  asked (.confirmUpload owner (text storedName) (text "slab.jpg") (text "image/jpeg"))

theorem twoCompanies_unstored {allowed : Db → Request → Bool} : (files allowed).initial twoCompanies := ⟨rfl, rfl, rfl⟩

end LiveKeys
