import PmKonstruct.Library.DelimitedFields
import PmKonstruct.Store.RowSecurity

/- Deletions that cascade through the diary, and the queue that remembers the objects they orphan. -/
namespace DeletionQueue
open PlainText DecimalText DelimitedFields DomainErrors Schema KeyedTable RowSecurity

def objectKey (companyId : CompanyId) (entity : Text) (entityId : Int) (storedName : Text) : Text :=
  decimal companyId ++ ('/' :: (entity ++ ('/' :: (decimal entityId ++ ('/' :: storedName)))))

/-- `INSERT … SELECT unnest … ON CONFLICT DO NOTHING`. The width of the column, 255, is left out: `objectKey_length` puts
    the key of an object whose name the server made below 80 characters. -/
def enqueue (queue : List Text) : List Text → List Text
  | [] => queue
  | key :: keys => enqueue (if key ∈ queue then queue else queue ++ [key]) keys

def diaryKey (scope : CompanyId) (media : DiaryMediaRow) : Text :=
  objectKey scope (text "diary") media.diaryEntryId media.storedName

def jobKey (scope : CompanyId) (media : JobMediaRow) : Text :=
  objectKey scope (text "job") media.jobId media.storedName

def companyOfJob (db : Db) (job : JobId) : Option CompanyId := (db.jobs.find job).map (·.companyId)

def companyOfEntry (db : Db) (entry : DiaryEntryId) : Option CompanyId :=
  (db.siteDiary.find entry).bind fun e => companyOfJob db e.jobId

/-- The objects that media rows name, each under the company of its row. -/
def mediaKeys (db : Db) : List Text :=
  db.diaryMedia.rows.filterMap (fun m => (companyOfEntry db m.diaryEntryId).map fun company => diaryKey company m) ++
    db.jobMedia.rows.filterMap fun m => (companyOfJob db m.jobId).map fun company => jobKey company m

/-- The media rows a transaction of the company sees under a condition. -/
def visibleMedia (db : Db) (scope : CompanyId) (p : DiaryMediaRow → Bool) : List DiaryMediaRow :=
  db.diaryMedia.select fun m => p m && entryInScope db scope m.diaryEntryId

def enqueueDiaryEntryMedia (db : Db) (scope : CompanyId) (entry : DiaryEntryId) : Db :=
  let rows := visibleMedia db scope fun m => m.diaryEntryId = entry
  { db with mediaDeletionQueue := enqueue db.mediaDeletionQueue (rows.map (diaryKey scope)) }

def enqueueNoteMedia (db : Db) (scope : CompanyId) (note : DiaryNoteId) : Db :=
  let rows := visibleMedia db scope fun m => m.noteId = some note
  { db with mediaDeletionQueue := enqueue db.mediaDeletionQueue (rows.map (diaryKey scope)) }

/-- Everything under a job: its own files, and the media of every entry that hangs off it. -/
def enqueueJobMedia (db : Db) (scope : CompanyId) (job : JobId) : Db :=
  let files := db.jobMedia.select fun m => m.jobId = job && jobInScope db scope m.jobId
  let media := visibleMedia db scope fun m => (db.siteDiary.find m.diaryEntryId).any (·.jobId = job)
  { db with mediaDeletionQueue :=
      enqueue db.mediaDeletionQueue (files.map (jobKey scope) ++ media.map (diaryKey scope)) }

/- `ON DELETE CASCADE`: what a deleted row takes with it, table by table. -/

section Cascades

def cascadeMedia (gone : DiaryMediaRow → Bool) (db : Db) : Db :=
  { db with
    diaryMedia := db.diaryMedia.delete gone
    inspectionFormMedia := db.inspectionFormMedia.delete fun m => (db.diaryMedia.find m.diaryMediaId).any gone }

def cascadeForms (gone : InspectionFormRow → Bool) (db : Db) : Db :=
  let formGone (form : InspectionFormId) : Bool := (db.inspectionForms.find form).any gone
  let itemGone (item : InspectionFormItemRow) : Bool := formGone item.formId
  { db with
    inspectionForms := db.inspectionForms.delete gone
    inspectionFormItems := db.inspectionFormItems.delete itemGone
    inspectionFormMedia := db.inspectionFormMedia.delete fun m =>
      formGone m.formId || (db.inspectionFormItems.find m.itemId).any itemGone }

def cascadeNotes (gone : DiaryNoteRow → Bool) (db : Db) : Db :=
  let noteGone (note : DiaryNoteId) : Bool := (db.diaryNotes.find note).any gone
  let cleared := cascadeForms (fun f => noteGone f.diaryNoteId) (cascadeMedia (fun m => m.noteId.any noteGone) db)
  { cleared with
    diaryNotes := db.diaryNotes.delete gone
    diaryNoteComments := db.diaryNoteComments.delete fun c => noteGone c.noteId }

def cascadeEntries (gone : SiteDiaryRow → Bool) (db : Db) : Db :=
  let entryGone (entry : DiaryEntryId) : Bool := (db.siteDiary.find entry).any gone
  let cleared := cascadeForms (fun f => entryGone f.diaryEntryId)
    (cascadeMedia (fun m => entryGone m.diaryEntryId) (cascadeNotes (fun n => entryGone n.diaryEntryId) db))
  { cleared with siteDiary := db.siteDiary.delete gone }

/-- Media rows go with their objects queued, in one transaction. -/
def removeDiaryMedia (db : Db) (scope : CompanyId) (p : DiaryMediaRow → Bool) : Db :=
  let keys := (visibleMedia db scope p).map (diaryKey scope)
  let cleared := cascadeMedia (fun m => p m && entryInScope db scope m.diaryEntryId) db
  { cleared with mediaDeletionQueue := enqueue db.mediaDeletionQueue keys }

def removeJobMedia (db : Db) (scope : CompanyId) (p : JobMediaRow → Bool) : Db :=
  let seen (media : JobMediaRow) : Bool := p media && jobInScope db scope media.jobId
  let keys := (db.jobMedia.select seen).map (jobKey scope)
  { db with
    jobMedia := db.jobMedia.delete seen
    mediaDeletionQueue := enqueue db.mediaDeletionQueue keys }

end Cascades

theorem slash_notMem_decimal {n : Int} : '/' ∉ decimal n := by
  intro member
  rcases mem_decimal member with sign | digit
  · cases sign
  · exact absurd digit (by decide)

/-- An entity's name has no slash, so a key names one file of one owner. -/
theorem objectKey_injective {company otherCompany : CompanyId} {entity otherEntity : Text} {id otherId : Int}
    {name otherName : Text} (plain : '/' ∉ entity) (otherPlain : '/' ∉ otherEntity)
    (same : objectKey company entity id name = objectKey otherCompany otherEntity otherId otherName) :
    company = otherCompany ∧ entity = otherEntity ∧ id = otherId ∧ name = otherName := by
  obtain ⟨companies, rest⟩ := before_mark slash_notMem_decimal slash_notMem_decimal same
  obtain ⟨entities, rest⟩ := before_mark plain otherPlain rest
  obtain ⟨ids, names⟩ := before_mark slash_notMem_decimal slash_notMem_decimal rest
  exact ⟨decimal_injective companies, entities, decimal_injective ids, names⟩

theorem objectKey_length {company : CompanyId} {entity name : Text} {id : Int} (scope : InI32 company) (row : InI32 id) :
    (objectKey company entity id name).length ≤ entity.length + name.length + 25 := by
  have companies := length_decimal_le scope
  have ids := length_decimal_le row
  rw [objectKey]
  simp only [List.length_append, List.length_cons]
  omega

theorem diaryKey_injective {scope company : CompanyId} {m other : DiaryMediaRow}
    (same : diaryKey scope m = diaryKey company other) :
    scope = company ∧ m.diaryEntryId = other.diaryEntryId ∧ m.storedName = other.storedName := by
  obtain ⟨companies, -, ids, names⟩ := objectKey_injective (by decide) (by decide) same
  exact ⟨companies, ids, names⟩

theorem jobKey_injective {scope company : CompanyId} {m other : JobMediaRow}
    (same : jobKey scope m = jobKey company other) :
    scope = company ∧ m.jobId = other.jobId ∧ m.storedName = other.storedName := by
  obtain ⟨companies, -, ids, names⟩ := objectKey_injective (by decide) (by decide) same
  exact ⟨companies, ids, names⟩

theorem diaryKey_ne_jobKey {scope company : CompanyId} {m : DiaryMediaRow} {other : JobMediaRow} :
    diaryKey scope m ≠ jobKey company other := by
  intro same
  obtain ⟨-, entities, -⟩ := objectKey_injective (by decide) (by decide) same
  exact absurd entities (by decide)

theorem companyOfJob_iff {db : Db} {company : CompanyId} {job : JobId} :
    companyOfJob db job = some company ↔ jobInScope db company job = true := by
  rw [companyOfJob, Option.map_eq_some_iff, jobInScope_iff]

theorem companyOfEntry_iff {db : Db} {company : CompanyId} {entry : DiaryEntryId} :
    companyOfEntry db entry = some company ↔ entryInScope db company entry = true := by
  simp only [companyOfEntry, Option.bind_eq_some_iff, companyOfJob_iff, entryInScope, Option.any_eq_true]

theorem job_company {db : Db} {scope company : CompanyId} {job : JobId} (left : jobInScope db scope job = true)
    (right : jobInScope db company job = true) : scope = company := by
  rw [← companyOfJob_iff] at left right
  exact Option.some.inj (left.symm.trans right)

theorem entry_company {db : Db} {scope company : CompanyId} {entry : DiaryEntryId}
    (left : entryInScope db scope entry = true) (right : entryInScope db company entry = true) : scope = company := by
  rw [← companyOfEntry_iff] at left right
  exact Option.some.inj (left.symm.trans right)

theorem mem_mediaKeys {db : Db} {key : Text} : key ∈ mediaKeys db ↔
    (∃ m ∈ db.diaryMedia.rows, ∃ company, entryInScope db company m.diaryEntryId = true ∧ diaryKey company m = key) ∨
      ∃ m ∈ db.jobMedia.rows, ∃ company, jobInScope db company m.jobId = true ∧ jobKey company m = key := by
  simp only [mediaKeys, List.mem_append, List.mem_filterMap, Option.map_eq_some_iff, companyOfEntry_iff,
    companyOfJob_iff]

/- A row that is added brings its own key. -/

section Added
variable {db : Db} {scope : CompanyId} {key : Text}

theorem mediaKeys_addMedia {make : Int → DiaryMediaRow} {keyed : ∀ n, (make n).id = n}
    (visible : entryInScope db scope (make db.diaryMedia.serial).diaryEntryId = true)
    (named : key ∈ mediaKeys { db with diaryMedia := db.diaryMedia.insert make keyed }) :
    key ∈ mediaKeys db ∨ key = diaryKey scope (make db.diaryMedia.serial) := by
  rcases mem_mediaKeys.mp named with ⟨m, member, company, seen, same⟩ | file
  · have among : m ∈ (db.diaryMedia.insert make keyed).rows := member
    rcases Table.mem_insert.mp among with old | rfl
    · exact .inl (mem_mediaKeys.mpr (.inl ⟨m, old, company, seen, same⟩))
    · rw [← entry_company visible seen] at same
      exact .inr same.symm
  · exact .inl (mem_mediaKeys.mpr (.inr file))

theorem mediaKeys_addFile {make : Int → JobMediaRow} {keyed : ∀ n, (make n).id = n}
    (visible : jobInScope db scope (make db.jobMedia.serial).jobId = true)
    (named : key ∈ mediaKeys { db with jobMedia := db.jobMedia.insert make keyed }) :
    key ∈ mediaKeys db ∨ key = jobKey scope (make db.jobMedia.serial) := by
  rcases mem_mediaKeys.mp named with media | ⟨m, member, company, seen, same⟩
  · exact .inl (mem_mediaKeys.mpr (.inl media))
  · have among : m ∈ (db.jobMedia.insert make keyed).rows := member
    rcases Table.mem_insert.mp among with old | rfl
    · exact .inl (mem_mediaKeys.mpr (.inr ⟨m, old, company, seen, same⟩))
    · rw [← job_company visible seen] at same
      exact .inr same.symm

end Added

@[simp] theorem mem_enqueue {queue keys : List Text} {key : Text} :
    key ∈ enqueue queue keys ↔ key ∈ queue ∨ key ∈ keys := by
  induction keys generalizing queue with
  | nil => simp [enqueue]
  | cons first rest ih =>
    rw [enqueue, ih, List.mem_cons]
    by_cases queued : first ∈ queue
    · rw [if_pos queued]
      constructor
      · rintro (old | later)
        · exact .inl old
        · exact .inr (.inr later)
      · rintro (old | rfl | later)
        · exact .inl old
        · exact .inl queued
        · exact .inr later
    · rw [if_neg queued, List.mem_append, List.mem_singleton, or_assoc]

theorem enqueue_extends {queue keys : List Text} : ∃ added, enqueue queue keys = queue ++ added := by
  induction keys generalizing queue with
  | nil => exact ⟨[], (List.append_nil queue).symm⟩
  | cons key keys ih =>
    rw [enqueue]
    split
    · exact ih
    · obtain ⟨added, extended⟩ := @ih (queue ++ [key])
      exact ⟨key :: added, by rw [extended, List.append_assoc]; rfl⟩

theorem enqueue_eq_self_iff {queue keys : List Text} : enqueue queue keys = queue ↔ ∀ key ∈ keys, key ∈ queue := by
  induction keys with
  | nil => simp [enqueue]
  | cons key keys ih =>
    rw [enqueue, List.forall_mem_cons]
    by_cases queued : key ∈ queue
    · rw [if_pos queued, ih]
      simp only [queued, true_and]
    · rw [if_neg queued]
      constructor
      · intro same
        obtain ⟨added, extended⟩ := @enqueue_extends (queue ++ [key]) keys
        rw [extended, List.append_assoc] at same
        simp at same
      · intro ⟨here, _⟩
        exact absurd here queued

theorem enqueueNoteMedia_eq_self_iff {db : Db} {scope : CompanyId} {note : DiaryNoteId} :
    enqueueNoteMedia db scope note = db ↔ ∀ m ∈ db.diaryMedia.rows, m.noteId = some note →
      entryInScope db scope m.diaryEntryId = true → diaryKey scope m ∈ db.mediaDeletionQueue := by
  have same : enqueueNoteMedia db scope note = db ↔ enqueue db.mediaDeletionQueue
      ((visibleMedia db scope fun m => m.noteId = some note).map (diaryKey scope)) = db.mediaDeletionQueue := by
    constructor
    · intro unchanged
      exact congrArg Db.mediaDeletionQueue unchanged
    · intro unchanged
      simp only [enqueueNoteMedia, unchanged]
  rw [same, enqueue_eq_self_iff]
  simp only [visibleMedia, List.forall_mem_map, Table.mem_select, Bool.and_eq_true, decide_eq_true_eq]
  constructor
  · intro queued m member named seen
    exact queued m ⟨member, named, seen⟩
  · intro queued m chosen
    exact queued m chosen.1 chosen.2.1 chosen.2.2

end DeletionQueue
