import PmKonstruct.CallForward.CallForwardService
import PmKonstruct.Forms.EtoAttribution
import PmKonstruct.Forms.InspectionService
import PmKonstruct.Jobs.JobService
import PmKonstruct.Jobs.TasksLinks
import PmKonstruct.Scheduler.SchedulerService
import PmKonstruct.Tenancy.VisibleRows

/- What the requests of one company do to the rows of another: nothing, service by service. A statement writes
   what its own policies show, and what they show one company they hide from the other. -/
namespace Neighbours
open PlainText DomainErrors Accounts CalendarDate Schema KeyedTable RowSecurity Requests VisibleRows
open DeletionQueue Upload
open AuthService (SessionUser)
open JobStore (JobInput)
open TasksLinks (RowRequest)
open DiaryService (NoteRequest)
open MediaStore (MediaOwner MediaSelection)
open CallForwardItem (CallForwardInput)
open ProgrammeStore (ReorderEntry)
open SchedulerStore (AbsenceInput AllocationInput)
open InspectionService (InspectionPhotoUpload)
open InspectionNote (InspectionDraftInput)
open EtoNote (EtoInput)

/-- The company finds everything that it had, and nothing else. -/
def Undisturbed (company : CompanyId) (db after : Db) : Prop := visibleRows after company = visibleRows db company

theorem Undisturbed.trans {company : CompanyId} {db between after : Db} (first : Undisturbed company db between)
    (later : Undisturbed company between after) : Undisturbed company db after := Eq.trans later first

section Steps
variable {α β : Type} {db : Db} {company : CompanyId}

theorem undisturbed_attempt {check : Except AppError α} {next : α → Outcome β}
    (later : ∀ value, check = .ok value → Undisturbed company db (next value).2) :
    Undisturbed company db (attempt db check next).2 :=
  attempt_keeps (Undisturbed company db) rfl later

theorem undisturbed_committed {result : Except PortError (α × Db)}
    (later : ∀ value after, result = .ok (value, after) → Undisturbed company db after) :
    Undisturbed company db (committed db result).2 :=
  committed_keeps (Undisturbed company db) rfl later

end Steps

section Apart
variable {Row : Type} {owner : Row → CompanyId} {q matched visible : Row → Bool} {company scope : CompanyId}

theorem owner_apart (apart : scope ≠ company) (row : Row) (owned : decide (owner row = scope) = true) :
    decide (owner row = company) = false :=
  decide_eq_false fun same => apart ((of_decide_eq_true owned).symm.trans same)

/-- Whatever else a statement asks of a row, it asks that the policies show the row. -/
theorem within (apart : ∀ row, visible row = true → q row = false) (row : Row)
    (both : (matched row && visible row) = true) : q row = false :=
  apart row (Bool.and_eq_true_iff.mp both).2

end Apart

section Requests
variable {db : Db} {s : SessionUser} {company : CompanyId} {now : Instant}

/- Jobs, their assignments, tasks and links. -/

theorem undisturbed_createJob (apart : s.principal.companyId ≠ company) {input : JobInput} :
    Undisturbed company db (JobService.create db s now input).2 := by
  refine undisturbed_attempt fun _ _ => ?_
  refine undisturbed_committed fun _ after created => ?_
  obtain ⟨-, rfl⟩ := insertRow_ok created
  exact Spared.visible { Spared.refl db with jobs := Table.select_added rfl (decide_eq_false apart) }

theorem undisturbed_updateJob (apart : s.principal.companyId ≠ company) {id : JobId} {input : JobInput} :
    Undisturbed company db (JobService.update db s now id input).2 := by
  refine undisturbed_attempt fun _ _ => ?_
  refine undisturbed_attempt fun _ _ => ?_
  rw [orNotFound_after]
  refine undisturbed_committed fun _ after updated => ?_
  obtain ⟨rfl, -⟩ := checkedChange_ok updated
  exact Spared.visible { Spared.refl db with jobs := Table.select_missed rfl (within (owner_apart apart)) fun _ _ => rfl }

theorem undisturbed_syncPrimarySupervisor {scope : CompanyId} (apart : scope ≠ company) {job : JobId} :
    Undisturbed company db (JobStore.syncPrimarySupervisor db scope now job).2 :=
  Spared.visible { Spared.refl db with jobs := Table.select_missed rfl (within (owner_apart apart)) fun _ _ => rfl }

theorem undisturbed_clearPrimary {scope : CompanyId} (apart : scope ≠ company) (job : JobId) :
    Undisturbed company db (JobStore.clearPrimary db scope job) :=
  Spared.visible { Spared.refl db with
    assignments := Table.select_missed rfl (within fun _ seen => job_apart apart seen) fun _ _ => rfl }

theorem getJob_scope {id : JobId} {row : JobRow} (seen : getJob db s id = .ok row) :
    jobInScope db s.principal.companyId id = true := by
  obtain ⟨found, there, owned, -⟩ := getJob_ok_iff.mp ⟨row, seen⟩
  exact jobInScope_iff.mpr ⟨found, there, owned⟩

theorem undisturbed_addAssignment (apart : s.principal.companyId ≠ company) {job : JobId} {user : UserId}
    {primary : Bool} : Undisturbed company db (JobService.addAssignment db s now job user primary).2 := by
  refine undisturbed_attempt fun _ seen => ?_
  refine undisturbed_committed fun _ after added => ?_
  have foreign := job_apart apart (getJob_scope seen)
  simp only [JobStore.addAssignment] at added
  split at added
  · cases added
  · cases added
    refine Undisturbed.trans ?_ (undisturbed_syncPrimarySupervisor apart)
    split
    · refine (undisturbed_clearPrimary apart job).trans ?_
      exact Spared.visible { Spared.refl db with assignments := Table.select_added rfl foreign }
    · exact Spared.visible { Spared.refl db with assignments := Table.select_added rfl foreign }

theorem assignment_apart {scope : CompanyId} (apart : scope ≠ company) {job : JobId} {user : UserId}
    {a : JobAssignmentRow} (matched : JobStore.assignmentIs db scope job user a = true) :
    jobInScope db company a.jobId = false :=
  job_apart apart (Bool.and_eq_true_iff.mp matched).2

theorem undisturbed_removeAssignment (apart : s.principal.companyId ≠ company) {job : JobId} {user : UserId} :
    Undisturbed company db (JobService.removeAssignment db s now job user).2 := by
  refine undisturbed_attempt fun _ _ => ?_
  refine Undisturbed.trans (Spared.visible ?_) (undisturbed_syncPrimarySupervisor apart)
  exact { Spared.refl db with assignments := Table.select_delete_missed fun _ matched => assignment_apart apart matched }

theorem undisturbed_setPrimary (apart : s.principal.companyId ≠ company) {job : JobId} {user : UserId} :
    Undisturbed company db (JobService.setPrimary db s now job user).2 := by
  refine undisturbed_attempt fun _ _ => ?_
  refine undisturbed_committed fun _ after promoted => ?_
  simp only [JobStore.setPrimaryAssignment] at promoted
  split at promoted
  · cases promoted
    refine Undisturbed.trans ?_ (undisturbed_syncPrimarySupervisor apart)
    refine (undisturbed_clearPrimary apart job).trans ?_
    exact Spared.visible { Spared.refl db with
      assignments := Table.select_missed rfl (fun _ matched => assignment_apart apart matched) fun _ _ => rfl }
  · cases promoted

theorem queued_undisturbed {queue : List Text} : Undisturbed company db { db with mediaDeletionQueue := queue } := rfl

theorem undisturbed_purge (apart : s.principal.companyId ≠ company) (shut : Sealed (visibleRows db company))
    {id : JobId} : Undisturbed company db (JobService.purge db s id).2 := by
  refine undisturbed_attempt fun _ _ => ?_
  rw [deletedOrNotFound_after, JobStore.purge]
  split
  · exact queued_undisturbed
  · next row reached =>
    exact visible_cascadeJobs queued_undisturbed shut fun _ member => Table.missed_reach (owner_apart apart) reached member

theorem undisturbed_taskOrLink (apart : s.principal.companyId ≠ company) {request : RowRequest} :
    Undisturbed company db (TasksLinks.perform now db s request).2 := by
  have tasks : ∀ row, TasksLinks.taskVisible db s.principal.companyId row = true →
    jobInScope db company row.jobId = false := fun _ seen => job_apart apart seen
  cases request with
  | getTask id =>
    simp only [TasksLinks.perform, TasksLinks.reply, TasksLinks.getTask, orNotFound_after]
    rfl
  | updateTask id input =>
    refine undisturbed_attempt fun _ _ => ?_
    rw [orNotFound_after]
    refine undisturbed_committed fun _ after updated => ?_
    obtain ⟨rfl, -⟩ := checkedChange_ok updated
    exact Spared.visible { Spared.refl db with tasks := Table.select_missed rfl (within tasks) fun _ _ => rfl }
  | updateTaskNotes id notes =>
    simp only [TasksLinks.perform, TasksLinks.reply, TasksLinks.updateTaskNotes, orNotFound_after]
    exact Spared.visible { Spared.refl db with tasks := Table.select_missed rfl (within tasks) fun _ _ => rfl }
  | deleteTask id =>
    simp only [TasksLinks.perform, TasksLinks.reply, TasksLinks.deleteTask, deletedOrNotFound_after]
    exact Spared.visible { Spared.refl db with tasks := Table.select_delete_missed (within tasks) }
  | updateLink job id input =>
    refine undisturbed_attempt fun _ _ => ?_
    refine undisturbed_attempt fun _ _ => ?_
    rw [orNotFound_after]
    exact Spared.visible { Spared.refl db with links := Table.select_missed rfl (within (owner_apart apart)) fun _ _ => rfl }
  | deleteLink job id =>
    refine undisturbed_attempt fun _ _ => ?_
    rw [deletedOrNotFound_after]
    exact Spared.visible { Spared.refl db with links := Table.select_delete_missed (within (owner_apart apart)) }

theorem undisturbed_deleteUser (apart : s.principal.companyId ≠ company) (shut : Sealed (visibleRows db company))
    {id : UserId} : Undisturbed company db (UsersService.delete db s id).2 := by
  refine undisturbed_attempt fun _ _ => ?_
  refine undisturbed_attempt fun _ _ => ?_
  rw [deletedOrNotFound_after, UserStore.delete]
  split
  · rfl
  · next row reached =>
    refine visible_cascadeUser rfl shut fun ⟨own, member, same⟩ => ?_
    exact of_decide_eq_false (Table.missed_reach (owner_apart apart) reached member) same

end Requests

section Diary
variable {db : Db} {s : SessionUser} {company : CompanyId} {now : Instant}

/- Entries, notes and media. -/

theorem undisturbed_changeNote {scope : CompanyId} (apart : scope ≠ company) {note : DiaryNoteId}
    {change : DiaryNoteRow → DiaryNoteRow} (keeps : ∀ n, (change n).id = n.id)
    (kept : ∀ n, (change n).diaryEntryId = n.diaryEntryId) :
    Undisturbed company db (DiaryStore.changeNote db scope note change keeps).2 :=
  Spared.visible { Spared.refl db with
    notes := Table.select_missed rfl (within fun _ seen => entry_apart apart seen)
      fun n _ => congrArg (entryInScope db company) (kept n) }

theorem undisturbed_deleteNote {scope : CompanyId} (apart : scope ≠ company) (shut : Sealed (visibleRows db company))
    {note : DiaryNoteId} : Undisturbed company db (DiaryStore.deleteNote db scope note).2 := by
  rw [DiaryStore.deleteNote]
  split
  · exact queued_undisturbed
  · next row reached =>
    exact visible_cascadeNotes queued_undisturbed shut fun _ member =>
      Table.missed_reach (fun _ seen => entry_apart apart seen) reached member

theorem undisturbed_note (apart : s.principal.companyId ≠ company) (shut : Sealed (visibleRows db company))
    {entry : DiaryEntryId} {note : DiaryNoteId} {request : NoteRequest} :
    Undisturbed company db (DiaryService.perform now db s entry note request).2 := by
  cases request with
  | updateNote input =>
    refine undisturbed_attempt fun _ _ => ?_
    refine undisturbed_attempt fun _ _ => ?_
    rw [orNotFound_after]
    exact undisturbed_changeNote apart _ fun _ => rfl
  | setNoteActionStatus status =>
    refine undisturbed_attempt fun _ _ => ?_
    rw [orNotFound_after]
    refine undisturbed_committed fun _ after changed => ?_
    obtain ⟨rfl, -⟩ := checkedChange_ok changed
    exact Spared.visible { Spared.refl db with
      notes := Table.select_missed rfl (within fun _ seen => entry_apart apart seen) fun _ _ => rfl }
  | setNoteArchived archived =>
    refine undisturbed_attempt fun _ _ => ?_
    rw [orNotFound_after]
    exact undisturbed_changeNote apart _ fun _ => rfl
  | deleteNote =>
    refine undisturbed_attempt fun _ _ => ?_
    rw [deletedOrNotFound_after]
    exact undisturbed_deleteNote apart shut
  | comments => exact undisturbed_attempt fun _ _ => rfl
  | addComment content =>
    refine undisturbed_attempt fun _ _ => ?_
    split
    · rfl
    refine undisturbed_committed fun _ after added => ?_
    unfold DiaryStore.addComment at added
    split at added
    · cases added
    · next there =>
      split at added
      · cases added
      · cases added
        have seen : noteInScope db s.principal.companyId note = true := by
          rw [DiaryStore.noteInScope_iff]
          exact Option.ne_none_iff_exists'.mp there
        exact Spared.visible { Spared.refl db with comments := Table.select_added rfl (note_apart apart seen) }

theorem undisturbed_deleteEntry (apart : s.principal.companyId ≠ company) (shut : Sealed (visibleRows db company))
    {entry : DiaryEntryId} : Undisturbed company db (DiaryService.delete db s entry).2 := by
  refine undisturbed_attempt fun _ _ => ?_
  rw [deletedOrNotFound_after, DiaryStore.deleteEntry]
  split
  · exact queued_undisturbed
  · next row reached =>
    exact visible_cascadeEntries queued_undisturbed shut fun _ member =>
      Table.missed_reach (fun _ seen => job_apart apart seen) reached member

theorem undisturbed_insertDiaryMedia {scope : CompanyId} (apart : scope ≠ company) {entry : DiaryEntryId}
    {note : Option DiaryNoteId} {fileType : FileType} {file : MediaStore.MediaRecord} {row : DiaryMediaRow} {after : Db}
    (inserted : MediaStore.insertDiaryMedia db scope now entry note fileType file = .ok (row, after)) :
    Undisturbed company db after := by
  have seen := MediaStore.inserted_visible inserted
  obtain ⟨-, rfl⟩ := insertRow_ok inserted
  exact Spared.visible { Spared.refl db with diaryMedia := Table.select_added rfl (entry_apart apart seen) }

theorem undisturbed_confirmUpload (apart : s.principal.companyId ≠ company) {storage : ObjectStore} {owner : MediaOwner}
    {storedName originalName mimeType : Text} :
    Undisturbed company db (MediaService.confirmUpload db s storage now owner storedName originalName mimeType).2 := by
  refine undisturbed_attempt fun _ _ => ?_
  refine undisturbed_attempt fun _ _ => ?_
  refine undisturbed_committed fun _ after recorded => ?_
  unfold MediaStore.record at recorded
  split at recorded
  · obtain ⟨⟨row, stored⟩, inserted, made⟩ := map_ok recorded
    cases made
    exact undisturbed_insertDiaryMedia apart inserted
  · obtain ⟨⟨row, stored⟩, inserted, made⟩ := map_ok recorded
    cases made
    have seen := MediaStore.insertedFile_visible inserted
    obtain ⟨-, rfl⟩ := insertRow_ok inserted
    exact Spared.visible { Spared.refl db with jobMedia := Table.select_added rfl (job_apart apart seen) }

theorem undisturbed_removeDiaryMedia {scope : CompanyId} (apart : scope ≠ company)
    (shut : Sealed (visibleRows db company)) {p : DiaryMediaRow → Bool} :
    Undisturbed company db (removeDiaryMedia db scope p) := by
  have foreign : ∀ m : DiaryMediaRow, (p m && entryInScope db scope m.diaryEntryId) = true →
    entryInScope db company m.diaryEntryId = false := within fun _ seen => entry_apart apart seen
  have cleared := visible_cascadeMedia rfl shut fun _ member => Table.missed foreign member
  exact queued_undisturbed.trans cleared

theorem undisturbed_removeJobMedia {scope : CompanyId} (apart : scope ≠ company) {p : JobMediaRow → Bool} :
    Undisturbed company db (removeJobMedia db scope p) :=
  Spared.visible { Spared.refl db with jobMedia := Table.select_delete_missed (within fun _ seen => job_apart apart seen) }

theorem undisturbed_deleteMedia (apart : s.principal.companyId ≠ company) (shut : Sealed (visibleRows db company))
    {id : MediaId} {jobMedia : Bool} : Undisturbed company db (MediaService.delete db s id jobMedia).2 := by
  unfold MediaService.delete
  split
  · rfl
  refine undisturbed_attempt fun _ _ => ?_
  split
  · rw [deletedOrNotFound_after, MediaStore.delete]
    split
    · rfl
    · split
      · exact undisturbed_removeJobMedia apart
      · exact undisturbed_removeDiaryMedia apart shut
  · rfl

theorem undisturbed_deleteMany {scope : CompanyId} (apart : scope ≠ company) (shut : Sealed (visibleRows db company))
    {job : JobId} {selections : List MediaSelection} {uploadedBy : Option UserId} :
    Undisturbed company db (MediaStore.deleteMany db scope job selections uploadedBy).2 := by
  simp only [MediaStore.deleteMany]
  split
  · rfl
  split
  · rfl
  have files := @undisturbed_removeJobMedia db company scope apart fun m =>
    decide (m.jobId = job) && decide (m.id ∈ (selections.filter (·.jobMedia)).map (·.id))
  exact files.trans (undisturbed_removeDiaryMedia apart (files.symm ▸ shut))

theorem undisturbed_deleteSelected (apart : s.principal.companyId ≠ company) (shut : Sealed (visibleRows db company))
    {job : JobId} {selections : List MediaSelection} :
    Undisturbed company db (MediaService.deleteSelected db s job selections).2 :=
  undisturbed_attempt fun _ _ => undisturbed_deleteMany apart shut

end Diary

section Programme
variable {db : Db} {s : SessionUser} {company : CompanyId} {now : Instant} {today : Date}

/- The programme and its templates. -/

theorem item_apart {scope : CompanyId} (apart : scope ≠ company) (item : CallForwardRow)
    (seen : ProgrammeStore.itemVisible db scope item = true) : jobInScope db company item.jobId = false :=
  job_apart apart seen

theorem undisturbed_insertItem {scope : CompanyId} (apart : scope ≠ company) {make : CallForwardItemId → CallForwardRow}
    {keyed : ∀ id, (make id).id = id} {row : CallForwardRow} {after : Db}
    (inserted : ProgrammeStore.insertItem db scope make keyed = .ok (row, after)) : Undisturbed company db after := by
  obtain ⟨written, rfl⟩ := insertRow_ok inserted
  simp only [ProgrammeStore.itemConstraint, ProgrammeStore.tradeTooLong, ProgrammeStore.selfParent,
    ProgrammeStore.foreignParent, tooLong, firstViolation_cons, Bool.not_eq_false'] at written
  exact Spared.visible { Spared.refl db with programme := Table.select_added rfl (job_apart apart written.2.1) }

theorem undisturbed_insertIn {scope : CompanyId} (apart : scope ≠ company) {job : JobId} {input : CallForwardInput}
    {parent : Option CallForwardItemId} {row : CallForwardRow} {after : Db}
    (inserted : ProgrammeStore.insertIn db scope now job input parent = .ok (row, after)) :
    Undisturbed company db after := by
  obtain ⟨order, -, written⟩ := bind_ok inserted
  exact undisturbed_insertItem apart written

theorem undisturbed_createItem (apart : s.principal.companyId ≠ company) {job : JobId} {input : CallForwardInput} :
    Undisturbed company db (CallForwardService.create db s today now job input).2 := by
  refine undisturbed_attempt fun _ _ => ?_
  refine undisturbed_attempt fun _ _ => ?_
  refine undisturbed_attempt fun _ _ => ?_
  refine undisturbed_committed fun _ after created => ?_
  obtain ⟨⟨row, stored⟩, inserted, made⟩ := map_ok created
  cases made
  exact undisturbed_insertIn apart inserted

/-- Each item is written to the store that the items before it left. -/
theorem undisturbed_createEach {scope : CompanyId} (apart : scope ≠ company) {job : JobId}
    {items : List (CallForwardInput × Option Nat)} {created rows : List CallForwardRow} {after : Db}
    (done : ProgrammeStore.createEach scope now job db created items = .ok (rows, after)) :
    Undisturbed company db after := by
  induction items generalizing db created with
  | nil =>
    cases done
    rfl
  | cons item rest ih =>
    obtain ⟨input, localParent⟩ := item
    obtain ⟨parent, -, written⟩ := bind_ok done
    obtain ⟨⟨row, between⟩, inserted, later⟩ := bind_ok written
    exact (undisturbed_insertIn apart inserted).trans (ih later)

theorem undisturbed_createItems (apart : s.principal.companyId ≠ company) {job : JobId}
    {items : List (CallForwardInput × Option Nat)} :
    Undisturbed company db (CallForwardService.createBulk db s today now job items).2 := by
  refine undisturbed_attempt fun _ _ => ?_
  refine undisturbed_attempt fun _ _ => ?_
  refine undisturbed_attempt fun _ _ => ?_
  refine undisturbed_committed fun _ after created => ?_
  obtain ⟨⟨rows, stored⟩, inserted, made⟩ := map_ok created
  cases made
  exact undisturbed_createEach apart inserted

theorem undisturbed_updateItem (apart : s.principal.companyId ≠ company) {id : CallForwardItemId}
    {input : CallForwardInput} : Undisturbed company db (CallForwardService.update db s today now id input).2 := by
  refine undisturbed_attempt fun _ _ => ?_
  refine undisturbed_attempt fun _ _ => ?_
  refine undisturbed_attempt fun _ _ => ?_
  rw [orNotFound_after]
  refine undisturbed_committed fun _ after updated => ?_
  obtain ⟨⟨row, stored⟩, changed, made⟩ := map_ok updated
  cases made
  obtain ⟨rfl, -⟩ := checkedChange_ok changed
  exact Spared.visible { Spared.refl db with programme := Table.select_missed rfl (within (item_apart apart)) fun _ _ => rfl }

theorem undisturbed_deleteItem (apart : s.principal.companyId ≠ company) (shut : Sealed (visibleRows db company))
    {id : CallForwardItemId} : Undisturbed company db (CallForwardService.delete db s id).2 := by
  refine undisturbed_attempt fun _ _ => ?_
  rw [deletedOrNotFound_after, ProgrammeStore.delete]
  split
  · rfl
  · next row reached =>
    have spared := visible_cascadeDelete shut fun _ member => Table.missed_reach (item_apart apart) reached member
    exact Spared.visible { Spared.refl db with programme := spared }

theorem undisturbed_reorder (apart : s.principal.companyId ≠ company) {pick : CallForwardItemId → Nat}
    {entries : List ReorderEntry} : Undisturbed company db (CallForwardService.reorder db s now pick entries).2 := by
  have jobKept : ∀ row, (ProgrammeStore.placed pick now entries row).jobId = row.jobId := by
    intro row
    unfold ProgrammeStore.placed
    split <;> rfl
  unfold CallForwardService.reorder
  split
  · rfl
  refine undisturbed_attempt fun _ _ => ?_
  refine undisturbed_committed fun _ after moved => ?_
  simp only [ProgrammeStore.reorder] at moved
  split at moved
  · cases moved
    rfl
  split at moved
  · cases moved
  · cases moved
    apply Spared.visible
    exact { Spared.refl db with
      programme := Table.select_missed rfl
        (fun item matched => item_apart apart item (Bool.and_eq_true_iff.mp matched).1)
        fun row _ => congrArg (jobInScope db company) (jobKept row) }

theorem undisturbed_createTemplate (apart : s.principal.companyId ≠ company) {name : Text} {description : Option Text}
    {job : JobId} : Undisturbed company db (CallForwardService.createTemplate db s now name description job).2 := by
  unfold CallForwardService.createTemplate
  split
  · rfl
  refine undisturbed_attempt fun _ _ => ?_
  refine undisturbed_attempt fun _ _ => ?_
  refine undisturbed_committed fun _ after created => ?_
  obtain ⟨-, rfl⟩ := insertRow_ok created
  exact Spared.visible { Spared.refl db with templates := Table.select_added rfl (decide_eq_false apart) }

theorem undisturbed_applyEach {scope : CompanyId} (apart : scope ≠ company) {job : JobId} {base : Int}
    {localToDb : List (Int × CallForwardItemId)} {items : List TemplateItem} {after : Db}
    (done : ProgrammeStore.applyEach scope now job base db localToDb items = .ok after) :
    Undisturbed company db after := by
  induction items generalizing db localToDb with
  | nil =>
    cases done
    rfl
  | cons item rest ih =>
    unfold ProgrammeStore.applyEach at done
    split at done
    · cases done
    · dsimp only at done
      obtain ⟨⟨row, between⟩, inserted, later⟩ := bind_ok done
      exact (undisturbed_insertItem apart inserted).trans (ih later)

/-- Clearing the job of the session stops at the programme of the company. -/
theorem undisturbed_clearJob {scope : CompanyId} (apart : scope ≠ company) (shut : Sealed (visibleRows db company))
    (job : JobId) : Undisturbed company db (ProgrammeStore.clearJob db scope job) := by
  have foreign : ∀ i : CallForwardRow, (decide (i.jobId = job) && ProgrammeStore.itemVisible db scope i) = true →
    jobInScope db company i.jobId = false := within (item_apart apart)
  have spared := visible_cascadeDelete shut fun _ member => Table.missed foreign member
  exact Spared.visible { Spared.refl db with programme := spared }

theorem undisturbed_applyTemplate (apart : s.principal.companyId ≠ company) (shut : Sealed (visibleRows db company))
    {id : CallForwardTemplateId} {job : JobId} {replace : Bool} :
    Undisturbed company db (CallForwardService.applyTemplate db s now id job replace).2 := by
  refine undisturbed_attempt fun _ _ => ?_
  refine undisturbed_attempt fun _ _ => ?_
  refine undisturbed_attempt fun _ _ => ?_
  refine undisturbed_committed fun _ after applied => ?_
  unfold ProgrammeStore.apply at applied
  split at applied
  · cases applied
  split at applied
  · cases applied
    rfl
  obtain ⟨base, -, written⟩ := bind_ok applied
  obtain ⟨stored, lines, made⟩ := bind_ok written
  cases made
  refine Undisturbed.trans ?_ (undisturbed_applyEach apart lines)
  split
  · exact undisturbed_clearJob apart shut job
  · rfl

end Programme

section Scheduler
variable {db : Db} {s : SessionUser} {company : CompanyId}

/- Absences and allocations. -/

theorem undisturbed_createAbsence (apart : s.principal.companyId ≠ company) {input : AbsenceInput} :
    Undisturbed company db (SchedulerService.createAbsence db s input).2 := by
  refine undisturbed_attempt fun _ _ => ?_
  refine undisturbed_committed fun _ after created => ?_
  obtain ⟨-, rfl⟩ := insertRow_ok created
  exact Spared.visible { Spared.refl db with absences := Table.select_added rfl (decide_eq_false apart) }

theorem undisturbed_updateAbsence (apart : s.principal.companyId ≠ company) {id : SchedulerAbsenceId}
    {input : AbsenceInput} : Undisturbed company db (SchedulerService.updateAbsence db s id input).2 := by
  refine undisturbed_attempt fun _ _ => ?_
  rw [orNotFound_after]
  refine undisturbed_committed fun _ after updated => ?_
  obtain ⟨rfl, -⟩ := checkedChange_ok updated
  exact Spared.visible { Spared.refl db with absences := Table.select_missed rfl (within (owner_apart apart)) fun _ _ => rfl }

theorem undisturbed_createAllocation (apart : s.principal.companyId ≠ company) {input : AllocationInput} :
    Undisturbed company db (SchedulerService.createAllocation db s input).2 := by
  refine undisturbed_attempt fun _ _ => ?_
  refine undisturbed_attempt fun _ _ => ?_
  refine undisturbed_attempt fun _ _ => ?_
  refine undisturbed_committed fun _ after created => ?_
  obtain ⟨-, rfl⟩ := insertRow_ok created
  exact Spared.visible { Spared.refl db with allocations := Table.select_added rfl (decide_eq_false apart) }

theorem undisturbed_updateAllocation (apart : s.principal.companyId ≠ company) {id : SchedulerAllocationId}
    {input : AllocationInput} : Undisturbed company db (SchedulerService.updateAllocation db s id input).2 := by
  refine undisturbed_attempt fun _ _ => ?_
  refine undisturbed_attempt fun _ _ => ?_
  refine undisturbed_attempt fun _ _ => ?_
  rw [orNotFound_after]
  refine undisturbed_committed fun _ after updated => ?_
  obtain ⟨rfl, -⟩ := checkedChange_ok updated
  exact Spared.visible { Spared.refl db with
    allocations := Table.select_missed rfl (within (owner_apart apart)) fun _ _ => rfl }

end Scheduler

section Forms
variable {db after : Db} {s : SessionUser} {company scope : CompanyId} {now : Instant} {today : Date}

/- Extras to order and inspection drafts. -/

theorem filter_bumpSequence {job : JobId} {q : JobId → Bool} (foreign : q job = false) {rows : List EtoJobSequenceRow} :
    (EtoStore.bumpSequence job rows).filter (fun e => q e.jobId) = rows.filter fun e => q e.jobId := by
  induction rows with
  | nil => simp [EtoStore.bumpSequence, foreign]
  | cons row rest ih =>
    unfold EtoStore.bumpSequence
    split
    · next same => simp [foreign, same]
    · simp only [List.filter_cons, ih]

theorem undisturbed_allocateNumber {job : JobId} (foreign : jobInScope db company job = false) {number : Int}
    (allocated : EtoStore.allocateNumber db job = .ok (number, after)) : Undisturbed company db after := by
  simp only [EtoStore.allocateNumber] at allocated
  split at allocated
  · cases allocated
    exact Spared.visible { Spared.refl db with etoSequences := filter_bumpSequence foreign }
  · cases allocated

theorem undisturbed_insertEntry (apart : scope ≠ company) {job : JobId} {author : UserId} {date : Date}
    {workCompleted : Text} {row : SiteDiaryRow}
    (inserted : DiaryStore.insertEntry db scope job author date workCompleted = .ok (row, after)) :
    Undisturbed company db after := by
  obtain ⟨written, rfl⟩ := insertRow_ok inserted
  simp only [firstViolation_cons, Bool.not_eq_false'] at written
  exact Spared.visible { Spared.refl db with entries := Table.select_added rfl (job_apart apart written.1) }

theorem undisturbed_insertNote (apart : scope ≠ company) {entry : DiaryEntryId} {category : StoredCategory}
    {content : Text} {action : Option (ActionStatus × UserId)} {row : DiaryNoteRow}
    (inserted : DiaryStore.insertNote db scope now entry category content action = .ok (row, after)) :
    Undisturbed company db after := by
  obtain ⟨written, rfl⟩ := insertRow_ok inserted
  simp only [firstViolation_cons, Bool.not_eq_false'] at written
  exact Spared.visible { Spared.refl db with notes := Table.select_added rfl (entry_apart apart written.1) }

theorem undisturbed_raiseEto (apart : s.principal.companyId ≠ company) {input : EtoInput} :
    Undisturbed company db (EtoAttribution.raiseEto db s now today input).2 := by
  refine undisturbed_attempt fun _ _ => ?_
  refine undisturbed_attempt fun _ _ => ?_
  refine undisturbed_committed fun _ after raised => ?_
  unfold EtoStore.raiseEto at raised
  split at raised
  · cases raised
  · next job reached =>
    obtain ⟨found, owned⟩ := Table.reach_eq_some_iff.mp reached
    have foreign := job_apart apart ((Option.any_eq_true _ _).mpr ⟨job, found, owned⟩)
    obtain ⟨⟨number, numbered⟩, allocated, raised⟩ := bind_ok raised
    obtain ⟨⟨entry, entered⟩, insertedEntry, raised⟩ := bind_ok raised
    obtain ⟨⟨note, noted⟩, insertedNote, made⟩ := bind_ok raised
    cases made
    exact ((undisturbed_allocateNumber foreign allocated).trans (undisturbed_insertEntry apart insertedEntry)).trans
      (undisturbed_insertNote apart insertedNote)

theorem undisturbed_loaded {form : InspectionFormId} {user : UserId} {draft : InspectionStore.InspectionForm}
    (done : InspectionStore.loaded db scope form user = .ok (draft, after)) : Undisturbed company db after := by
  unfold InspectionStore.loaded at done
  split at done
  · cases done
  · cases done
    rfl

theorem undisturbed_insertForm (apart : scope ≠ company) {job : JobId} {user : UserId} {entry : DiaryEntryId}
    {note : DiaryNoteId} {date : Date} {row : InspectionFormRow}
    (inserted : InspectionStore.insertForm db scope now job user entry note date = .ok (row, after)) :
    Undisturbed company db after := by
  obtain ⟨-, rfl⟩ := insertRow_ok inserted
  exact Spared.visible { Spared.refl db with forms := Table.select_added rfl (decide_eq_false apart) }

theorem undisturbed_openDraft (apart : s.principal.companyId ≠ company) {job : JobId} {date : Date} {emptyNote : Text} :
    Undisturbed company db (InspectionService.getOrCreateDraft db s now job date emptyNote).2 := by
  refine undisturbed_attempt fun _ _ => ?_
  refine undisturbed_committed fun _ after opened => ?_
  simp only [InspectionStore.getOrCreateDraft] at opened
  split at opened
  · exact undisturbed_loaded opened
  · obtain ⟨⟨entry, entered⟩, insertedEntry, opened⟩ := bind_ok opened
    obtain ⟨⟨note, noted⟩, insertedNote, opened⟩ := bind_ok opened
    obtain ⟨⟨form, formed⟩, insertedForm, opened⟩ := bind_ok opened
    have entries := undisturbed_insertEntry apart insertedEntry
    have notes := undisturbed_insertNote apart insertedNote
    have forms := undisturbed_insertForm apart insertedForm
    exact ((entries.trans notes).trans forms).trans (undisturbed_loaded opened)

theorem undisturbed_claimRevision (apart : scope ≠ company) {form : InspectionFormId} {expected : Int}
    {claimed : Bool} (done : InspectionStore.claimRevision db scope now form expected = (claimed, after)) :
    Undisturbed company db after := by
  cases done
  exact Spared.visible { Spared.refl db with
    forms := Table.select_missed rfl (within (within (owner_apart apart))) fun _ _ => rfl }

/-- A photo goes to an item of the form, and the form is the session's. -/
theorem undisturbed_attachPhoto (apart : scope ≠ company) {form : InspectionFormRow}
    {photo : InspectionStore.InspectionPhotoRecord}
    (attached : InspectionStore.attachPhoto db scope now form photo = .ok after) : Undisturbed company db after := by
  simp only [InspectionStore.attachPhoto] at attached
  split at attached
  · cases attached
  · next item first =>
    obtain ⟨⟨media, stored⟩, inserted, linked⟩ := bind_ok attached
    obtain ⟨order, -, made⟩ := map_ok linked
    have entry := MediaStore.inserted_visible inserted
    obtain ⟨-, rfl⟩ := insertRow_ok inserted
    have seen := (Table.mem_select.mp (List.mem_of_head? first)).2
    simp only [Bool.and_eq_true, decide_eq_true_eq] at seen
    have foreign := form_apart apart (seen.1.1 ▸ seen.2)
    subst made
    exact Spared.visible { Spared.refl db with
      diaryMedia := Table.select_added rfl (entry_apart apart entry)
      formMedia := Table.select_added rfl foreign }

theorem undisturbed_attachEach (apart : scope ≠ company) {form : InspectionFormRow}
    {photos : List InspectionStore.InspectionPhotoRecord}
    (attached : InspectionStore.attachEach scope now form db photos = .ok after) : Undisturbed company db after := by
  induction photos generalizing db with
  | nil =>
    cases attached
    rfl
  | cons photo rest ih =>
    unfold InspectionStore.attachEach at attached
    split at attached
    · cases attached
    · next between one => exact (undisturbed_attachPhoto apart one).trans (ih attached)

theorem undisturbed_attachPhotos (apart : s.principal.companyId ≠ company) {storage : ObjectStore} {id : InspectionFormId}
    {clientKey : Text} {expected : Int} {uploads : List InspectionPhotoUpload} :
    Undisturbed company db (InspectionService.attachPhotos db s storage now id clientKey expected uploads).2 := by
  refine undisturbed_attempt fun _ _ => ?_
  refine undisturbed_attempt fun draft _ => ?_
  split
  · rfl
  refine undisturbed_attempt fun _ _ => ?_
  refine undisturbed_attempt fun _ _ => ?_
  rw [InspectionService.orStale_after]
  refine undisturbed_committed fun _ after done => ?_
  unfold InspectionStore.attachPhotos at done
  split at done
  · cases done
  split at done
  · cases done
    rfl
  · next claimed won =>
    split at done
    · cases done
    · next attached added =>
      cases done
      exact (undisturbed_claimRevision apart won).trans (undisturbed_attachEach apart added)

/-- What the company sees of a form does not change with the store. -/
theorem Undisturbed.forms (same : Undisturbed company db after) {form : InspectionFormId} :
    formInScope after company form = formInScope db company form := by
  rw [Bool.eq_iff_iff, ← names_forms, ← names_forms, same]

theorem select_upsertItems {form : InspectionFormId} {q : InspectionFormItemRow → Bool}
    (foreign : ∀ row, row.formId = form → q row = false) {items : Table InspectionFormItemRow}
    {proposed : List InspectionStore.ProposedItem} :
    (InspectionStore.upsertItems form items proposed).select q = items.select q := by
  induction proposed generalizing items with
  | nil => rfl
  | cons item rest ih =>
    rw [InspectionStore.upsertItems, ih, InspectionStore.upsertItem]
    split
    · have held : ∀ row, InspectionStore.holdsKey form item.clientKey row = true → q row = false :=
        fun row holds => foreign row (of_decide_eq_true (Bool.and_eq_true_iff.mp holds).1)
      exact Table.select_missed rfl held fun row holds => (foreign _ rfl).trans (held row holds).symm
    · exact Table.select_added rfl (foreign _ rfl)

theorem undisturbed_writeFields (apart : scope ≠ company) (form : InspectionFormId) (input : InspectionDraftInput) :
    Undisturbed company db (InspectionStore.writeFields db scope form input) :=
  Spared.visible { Spared.refl db with forms := Table.select_missed rfl (within (owner_apart apart)) fun _ _ => rfl }

theorem undisturbed_dropItems (apart : scope ≠ company) (shut : Sealed (visibleRows db company))
    {form : InspectionFormId} {keys : List Text} :
    Undisturbed company db (InspectionStore.dropItems db scope form keys) := by
  have foreign : ∀ i, InspectionStore.dropped db scope form keys i = true → formInScope db company i.formId = false :=
    within fun _ seen => form_apart apart seen
  exact Spared.visible { Spared.refl db with
    formItems := Table.select_delete_missed foreign
    formMedia := Table.select_delete_spared fun m member =>
      Table.any_find_named (shut.photoItems m member) fun _ item => Table.missed foreign item }

theorem undisturbed_writeItems (apart : scope ≠ company) (shut : Sealed (visibleRows db company))
    {form : InspectionFormId} (foreign : formInScope db company form = false)
    {items : List InspectionNote.InspectionItemInput} (written : InspectionStore.writeItems db scope form items = .ok after) :
    Undisturbed company db after := by
  simp only [InspectionStore.writeItems] at written
  split at written
  · cases written
  · cases written
    have detached := @undisturbed_removeDiaryMedia db company scope apart shut fun m => decide (m.id ∈
      InspectionStore.orphanedMedia db scope form ((InspectionStore.proposedItems items).map (·.clientKey)))
    have dropped := @undisturbed_dropItems _ company scope apart (detached.symm ▸ shut) form
      ((InspectionStore.proposedItems items).map (·.clientKey))
    have kept := detached.trans dropped
    refine kept.trans (Spared.visible ?_)
    exact { Spared.refl _ with formItems := select_upsertItems fun row same => by rw [same]; exact kept.forms.trans foreign }

theorem undisturbed_writeNote (apart : scope ≠ company) {note : DiaryNoteId} {user : UserId}
    {rendered : InspectionStore.RenderedInspection}
    (written : InspectionStore.writeNote db scope note user rendered = .ok after) : Undisturbed company db after := by
  obtain ⟨⟨row, stored⟩, changed, made⟩ := map_ok written
  cases made
  obtain ⟨rfl, -⟩ := checkedChange_ok changed
  exact Spared.visible { Spared.refl db with
    notes := Table.select_missed rfl (within fun _ seen => entry_apart apart seen) fun _ _ => rfl }

theorem undisturbed_writeEntry (apart : scope ≠ company) {entry : DiaryEntryId} {user : UserId}
    {rendered : InspectionStore.RenderedInspection}
    (written : InspectionStore.writeEntry db scope entry user rendered = .ok after) : Undisturbed company db after := by
  obtain ⟨⟨row, stored⟩, changed, made⟩ := map_ok written
  cases made
  obtain ⟨rfl, -⟩ := checkedChange_ok changed
  exact Spared.visible { Spared.refl db with
    entries := Table.select_missed rfl (within fun _ seen => job_apart apart seen) fun _ _ => rfl }

theorem loaded_apart (apart : scope ≠ company) {form : InspectionFormId} {user : UserId}
    {draft : InspectionStore.InspectionForm} (loaded : InspectionStore.load db scope form user = some draft) :
    formInScope db company form = false := by
  obtain ⟨row, reached, -⟩ := Option.map_eq_some_iff.mp loaded
  obtain ⟨found, mine⟩ := Table.reach_eq_some_iff.mp reached
  exact form_apart apart ((Option.any_eq_true _ _).mpr ⟨row, found, (Bool.and_eq_true_iff.mp mine).1⟩)

theorem undisturbed_saveDraft (apart : s.principal.companyId ≠ company) (shut : Sealed (visibleRows db company))
    {id : InspectionFormId} {input : InspectionDraftInput} :
    Undisturbed company db (InspectionService.saveDraft db s now id input).2 := by
  refine undisturbed_attempt fun _ _ => ?_
  refine undisturbed_attempt fun draft _ => ?_
  rw [InspectionService.orStale_after]
  refine undisturbed_committed fun _ after done => ?_
  unfold InspectionStore.saveDraft at done
  split at done
  · cases done
  · next mine loaded =>
    split at done
    · cases done
      rfl
    · next claimed won =>
      obtain ⟨written, items, done⟩ := bind_ok done
      obtain ⟨noted, note, done⟩ := bind_ok done
      obtain ⟨entered, entry, made⟩ := bind_ok done
      cases made
      have fields := (undisturbed_claimRevision apart won).trans (undisturbed_writeFields apart id input)
      have foreign := fields.forms.trans (loaded_apart apart loaded)
      have wrote := fields.trans (undisturbed_writeItems apart (fields.symm ▸ shut) foreign items)
      exact (wrote.trans (undisturbed_writeNote apart note)).trans (undisturbed_writeEntry apart entry)

theorem undisturbed_deletePhoto (apart : s.principal.companyId ≠ company) (shut : Sealed (visibleRows db company))
    {id : InspectionFormId} {expected photo : Int} :
    Undisturbed company db (InspectionService.deletePhoto db s now id expected photo).2 := by
  refine undisturbed_attempt fun _ _ => ?_
  rw [InspectionService.orStale_after]
  refine undisturbed_committed fun _ after done => ?_
  unfold InspectionStore.deletePhoto at done
  split at done
  · cases done
  split at done
  · cases done
    rfl
  · next claimed won =>
    have first := undisturbed_claimRevision apart won
    split at done
    · cases done
    · cases done
      exact first.trans (undisturbed_removeDiaryMedia apart (first.symm ▸ shut))

end Forms

end Neighbours
