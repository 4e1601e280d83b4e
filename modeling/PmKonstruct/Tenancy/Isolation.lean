import PmKonstruct.Library.TransitionRuns
import PmKonstruct.Tenancy.Neighbours
import PmKonstruct.Tenancy.References

/- No company is disturbed by another. Requests name jobs, users, notes and items by ids that the client sends, and a
   deletion follows foreign keys past the policies; what a company has stays as it is all the same, whatever the
   sessions of other companies ask for. -/
namespace Isolation
open PlainText DomainErrors Accounts CalendarDate Schema KeyedTable RowSecurity Requests TransitionRuns VisibleRows Neighbours
open Upload
open AuthService (SessionUser)
open JobStore (JobInput)
open TasksLinks (RowRequest)
open DiaryService (NoteRequest)
open MediaStore (MediaOwner MediaSelection)
open CallForwardItem (CallForwardInput)
open ProgrammeStore (ReorderEntry)
open SchedulerStore (AbsenceInput AllocationInput)
open InspectionService (InspectionPhotoUpload)
open InspectionNote (InspectionDraftInput)
open EtoNote (EtoInput)

inductive Call where
  | createJob (input : JobInput)
  | updateJob (id : JobId) (input : JobInput)
  | addAssignment (job : JobId) (user : UserId) (primary : Bool)
  | removeAssignment (job : JobId) (user : UserId)
  | setPrimary (job : JobId) (user : UserId)
  | purgeJob (id : JobId)
  | deleteUser (id : UserId)
  | taskOrLink (request : RowRequest)
  | note (entry : DiaryEntryId) (note : DiaryNoteId) (request : NoteRequest)
  | deleteEntry (entry : DiaryEntryId)
  | confirmUpload (storage : ObjectStore) (owner : MediaOwner) (storedName originalName mimeType : Text)
  | deleteMedia (id : MediaId) (jobMedia : Bool)
  | deleteSelected (job : JobId) (selections : List MediaSelection)
  | createItem (job : JobId) (input : CallForwardInput)
  | createItems (job : JobId) (items : List (CallForwardInput × Option Nat))
  | updateItem (id : CallForwardItemId) (input : CallForwardInput)
  | deleteItem (id : CallForwardItemId)
  | reorder (pick : CallForwardItemId → Nat) (entries : List ReorderEntry)
  | createTemplate (name : Text) (description : Option Text) (job : JobId)
  | applyTemplate (id : CallForwardTemplateId) (job : JobId) (replace : Bool)
  | createAbsence (input : AbsenceInput)
  | updateAbsence (id : SchedulerAbsenceId) (input : AbsenceInput)
  | createAllocation (input : AllocationInput)
  | updateAllocation (id : SchedulerAllocationId) (input : AllocationInput)
  | openDraft (job : JobId) (date : Date) (emptyNote : Text)
  | attachPhotos (storage : ObjectStore) (id : InspectionFormId) (clientKey : Text) (expected : Int)
      (uploads : List InspectionPhotoUpload)
  | saveDraft (id : InspectionFormId) (input : InspectionDraftInput)
  | deletePhoto (id : InspectionFormId) (expected photo : Int)
  | raiseEto (input : EtoInput)

structure Request where
  now : Instant
  today : Date
  session : SessionUser
  call : Call

def serve (db : Db) (r : Request) : Db :=
  let s := r.session
  match r.call with
  | .createJob input => (JobService.create db s r.now input).2
  | .updateJob id input => (JobService.update db s r.now id input).2
  | .addAssignment job user primary => (JobService.addAssignment db s r.now job user primary).2
  | .removeAssignment job user => (JobService.removeAssignment db s r.now job user).2
  | .setPrimary job user => (JobService.setPrimary db s r.now job user).2
  | .purgeJob id => (JobService.purge db s id).2
  | .deleteUser id => (UsersService.delete db s id).2
  | .taskOrLink request => (TasksLinks.perform r.now db s request).2
  | .note entry note request => (DiaryService.perform r.now db s entry note request).2
  | .deleteEntry entry => (DiaryService.delete db s entry).2
  | .confirmUpload storage owner storedName originalName mimeType =>
    (MediaService.confirmUpload db s storage r.now owner storedName originalName mimeType).2
  | .deleteMedia id jobMedia => (MediaService.delete db s id jobMedia).2
  | .deleteSelected job selections => (MediaService.deleteSelected db s job selections).2
  | .createItem job input => (CallForwardService.create db s r.today r.now job input).2
  | .createItems job items => (CallForwardService.createBulk db s r.today r.now job items).2
  | .updateItem id input => (CallForwardService.update db s r.today r.now id input).2
  | .deleteItem id => (CallForwardService.delete db s id).2
  | .reorder pick entries => (CallForwardService.reorder db s r.now pick entries).2
  | .createTemplate name description job => (CallForwardService.createTemplate db s r.now name description job).2
  | .applyTemplate id job replace => (CallForwardService.applyTemplate db s r.now id job replace).2
  | .createAbsence input => (SchedulerService.createAbsence db s input).2
  | .updateAbsence id input => (SchedulerService.updateAbsence db s id input).2
  | .createAllocation input => (SchedulerService.createAllocation db s input).2
  | .updateAllocation id input => (SchedulerService.updateAllocation db s id input).2
  | .openDraft job date emptyNote => (InspectionService.getOrCreateDraft db s r.now job date emptyNote).2
  | .attachPhotos storage id clientKey expected uploads =>
    (InspectionService.attachPhotos db s storage r.now id clientKey expected uploads).2
  | .saveDraft id input => (InspectionService.saveDraft db s r.now id input).2
  | .deletePhoto id expected photo => (InspectionService.deletePhoto db s r.now id expected photo).2
  | .raiseEto input => (EtoAttribution.raiseEto db s r.now r.today input).2

/-- The sessions of every company but one. -/
def neighbours (company : CompanyId) : Machine Db Request where
  initial db := Sealed (visibleRows db company)
  step db r := some (serve db r)
  allowed _ r := r.session.principal.companyId ≠ company

section Runs
variable {db after : Db} {company : CompanyId}

/-- What one request of another company leaves alone. -/
theorem serve_undisturbed {r : Request} (apart : r.session.principal.companyId ≠ company)
    (shut : Sealed (visibleRows db company)) : Undisturbed company db (serve db r) := by
  obtain ⟨now, today, s, call⟩ := r
  cases call with
  | createJob input => exact undisturbed_createJob apart
  | updateJob id input => exact undisturbed_updateJob apart
  | addAssignment job user primary => exact undisturbed_addAssignment apart
  | removeAssignment job user => exact undisturbed_removeAssignment apart
  | setPrimary job user => exact undisturbed_setPrimary apart
  | purgeJob id => exact undisturbed_purge apart shut
  | deleteUser id => exact undisturbed_deleteUser apart shut
  | taskOrLink request => exact undisturbed_taskOrLink apart
  | note entry note request => exact undisturbed_note apart shut
  | deleteEntry entry => exact undisturbed_deleteEntry apart shut
  | confirmUpload storage owner storedName originalName mimeType => exact undisturbed_confirmUpload apart
  | deleteMedia id jobMedia => exact undisturbed_deleteMedia apart shut
  | deleteSelected job selections => exact undisturbed_deleteSelected apart shut
  | createItem job input => exact undisturbed_createItem apart
  | createItems job items => exact undisturbed_createItems apart
  | updateItem id input => exact undisturbed_updateItem apart
  | deleteItem id => exact undisturbed_deleteItem apart shut
  | reorder pick entries => exact undisturbed_reorder apart
  | createTemplate name description job => exact undisturbed_createTemplate apart
  | applyTemplate id job replace => exact undisturbed_applyTemplate apart shut
  | createAbsence input => exact undisturbed_createAbsence apart
  | updateAbsence id input => exact undisturbed_updateAbsence apart
  | createAllocation input => exact undisturbed_createAllocation apart
  | updateAllocation id input => exact undisturbed_updateAllocation apart
  | openDraft job date emptyNote => exact undisturbed_openDraft apart
  | attachPhotos storage id clientKey expected uploads => exact undisturbed_attachPhotos apart
  | saveDraft id input => exact undisturbed_saveDraft apart shut
  | deletePhoto id expected photo => exact undisturbed_deletePhoto apart shut
  | raiseEto input => exact undisturbed_raiseEto apart

/-- A company whose references stay inside it keeps all of its rows through any run of the others. -/
theorem neighbours_undisturbed (shut : Sealed (visibleRows db company)) (leads : (neighbours company).Leads db after) :
    visibleRows after company = visibleRows db company := by
  refine Leads.invariant (Undisturbed company db) leads rfl fun between later r same allowed served => ?_
  cases served
  exact same.trans (serve_undisturbed (of_decide_eq_true allowed) (same.symm ▸ shut))

end Runs

/- Two companies again. The second has a job with an assignment, an entry, a note, a comment and a programme of two;
   the manager of the first asks for all of it to go and deletes a job of the first. -/

def jobOf (company : CompanyId) (id : JobId) (user : UserId) : JobRow :=
  JobStore.newJob company 0 ⟨[], text "J-1", text "Smith", none, none, text "1 St", none, none, none, some user,
    some user, none, none, none, none, none⟩ id

def lineOf (id : CallForwardItemId) (parent : Option CallForwardItemId) : CallForwardRow :=
  ⟨id, 2, text "Frame", .task, none, none, none, none, none, .notStarted, none, 0, parent, 0, 0⟩

def builders : Db :=
  { References.twoCompanies with
    jobs := ⟨[jobOf 1 1 1, jobOf 2 2 2], 3, by decide, by decide⟩
    jobAssignments := ⟨[⟨1, 2, 2, true, 0⟩], 2, by decide, by decide⟩
    siteDiary := ⟨[⟨1, 2, some 2, 0, text "Poured", none, none⟩], 2, by decide, by decide⟩
    diaryNotes := ⟨[⟨1, 1, .listed .general, text "Crane late", some .action, some 2, 0, false, 0⟩], 2,
      by decide, by decide⟩
    diaryNoteComments := ⟨[⟨1, 1, some 2, text "Noted", 0⟩], 2, by decide, by decide⟩
    callForward := ⟨[lineOf 1 none, lineOf 2 (some 1)], 3, by decide, by decide⟩ }

def asked (call : Call) : Request := ⟨0, 0, References.managerOfFirst, call⟩

def takeover : List Request :=
  [asked (.purgeJob 2), asked (.deleteUser 2), asked (.deleteEntry 1), asked (.note 1 1 .deleteNote),
    asked (.deleteItem 1), asked (.addAssignment 1 2 true), asked (.purgeJob 1)]

def afterTakeover : Db := ((neighbours 2).execute builders takeover).getD builders

theorem builders_sealed : Sealed (visibleRows builders 2) where
  managers := fun job member user named => by
    obtain rfl := List.mem_singleton.mp member
    cases named
    exact ⟨_, List.mem_singleton_self _, rfl⟩
  supervisors := fun job member user named => by
    obtain rfl := List.mem_singleton.mp member
    cases named
    exact ⟨_, List.mem_singleton_self _, rfl⟩
  assigned := fun a member => by
    obtain rfl := List.mem_singleton.mp member
    exact ⟨_, List.mem_singleton_self _, rfl⟩
  linked := fun _ member => nomatch member
  entryAuthors := fun e member user named => by
    obtain rfl := List.mem_singleton.mp member
    cases named
    exact ⟨_, List.mem_singleton_self _, rfl⟩
  entryRaisers := fun e member user named => by
    obtain rfl := List.mem_singleton.mp member
    cases named
  noteRaisers := fun n member user named => by
    obtain rfl := List.mem_singleton.mp member
    cases named
    exact ⟨_, List.mem_singleton_self _, rfl⟩
  commentAuthors := fun c member user named => by
    obtain rfl := List.mem_singleton.mp member
    cases named
    exact ⟨_, List.mem_singleton_self _, rfl⟩
  mediaNotes := fun _ member => nomatch member
  mediaUploaders := fun _ member => nomatch member
  fileUploaders := fun _ member => nomatch member
  formJobs := fun _ member => nomatch member
  formAuthors := fun _ member => nomatch member
  formEntries := fun _ member => nomatch member
  formNotes := fun _ member => nomatch member
  photoItems := fun _ member => nomatch member
  photoMedia := fun _ member => nomatch member
  parents := fun i member parent named => by
    rcases List.mem_cons.mp member with rfl | rest
    · cases named
    · obtain rfl := List.mem_singleton.mp rest
      cases named
      exact ⟨_, List.mem_cons_self, rfl⟩
  booked := fun _ member => nomatch member

theorem builders_undisturbed : afterTakeover.jobs.rows.map (·.id) = [2] ∧
    visibleRows afterTakeover 2 = visibleRows builders 2 :=
  ⟨by rfl, neighbours_undisturbed builders_sealed (leads_getD (by rfl))⟩

/-- The job of the second company is managed by a user of the first, whose account is then deleted. -/
theorem foreign_manager_forgotten : ∃ db after, (neighbours 2).Leads db after ∧
    visibleRows after 2 ≠ visibleRows db 2 := by
  let staffed : Db := { Db.empty with
    users := ⟨[References.userOf 1 1 (by decide), References.userOf 2 1 (by decide)], 3, by decide, by decide⟩
    jobs := ⟨[jobOf 2 1 2], 2, by decide, by decide⟩ }
  have run : ((neighbours 2).execute staffed [asked (.deleteUser 2)]).isSome = true := rfl
  refine ⟨staffed, _, leads_getD run, fun same => ?_⟩
  have managers := congrArg (fun own => own.jobs.map (·.managerId)) same
  exact absurd managers (by decide)

end Isolation
