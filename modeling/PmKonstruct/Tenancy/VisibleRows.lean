import PmKonstruct.Jobs.JobStore
import PmKonstruct.Library.Selections
import PmKonstruct.Users.UserStore

/- The rows that the policies show a company, and the cascades of other companies that pass them by. -/
namespace VisibleRows
open PlainText DomainErrors Accounts AuthStore Schema KeyedTable RowSecurity DeletionQueue ParentForest
open UserStore (setNull cascadeUser)
open JobStore (cascadeJobs)
open ProgrammeStore (parentOf goneWith cascadeDelete)

/-- Everything a company has, table by table. -/
structure Holdings where
  users : List UserRow
  jobs : List JobRow
  assignments : List JobAssignmentRow
  tasks : List JobTaskRow
  links : List JobLinkRow
  entries : List SiteDiaryRow
  notes : List DiaryNoteRow
  comments : List DiaryNoteCommentRow
  diaryMedia : List DiaryMediaRow
  jobMedia : List JobMediaRow
  forms : List InspectionFormRow
  formItems : List InspectionFormItemRow
  formMedia : List InspectionFormMediaRow
  etoSequences : List EtoJobSequenceRow
  programme : List CallForwardRow
  templates : List CallForwardTemplateRow
  workers : List SchedulerWorkerRow
  maintenanceJobs : List SchedulerMaintenanceJobRow
  allocations : List SchedulerAllocationRow
  absences : List SchedulerAbsenceRow

def visibleRows (db : Db) (company : CompanyId) : Holdings where
  users := db.users.select (·.companyId = company)
  jobs := db.jobs.select (·.companyId = company)
  assignments := db.jobAssignments.select fun a => jobInScope db company a.jobId
  tasks := db.jobTasks.select fun t => jobInScope db company t.jobId
  links := db.jobLinks.select (·.companyId = company)
  entries := db.siteDiary.select fun e => jobInScope db company e.jobId
  notes := db.diaryNotes.select fun n => entryInScope db company n.diaryEntryId
  comments := db.diaryNoteComments.select fun c => noteInScope db company c.noteId
  diaryMedia := db.diaryMedia.select fun m => entryInScope db company m.diaryEntryId
  jobMedia := db.jobMedia.select fun m => jobInScope db company m.jobId
  forms := db.inspectionForms.select (·.companyId = company)
  formItems := db.inspectionFormItems.select fun i => formInScope db company i.formId
  formMedia := db.inspectionFormMedia.select fun m => formInScope db company m.formId
  etoSequences := db.etoJobSequences.filter fun e => jobInScope db company e.jobId
  programme := db.callForward.select fun i => jobInScope db company i.jobId
  templates := db.callForwardTemplates.select (·.companyId = company)
  workers := db.schedulerWorkers.select (·.companyId = company)
  maintenanceJobs := db.schedulerMaintenanceJobs.select (·.companyId = company)
  allocations := db.schedulerAllocations.select (·.companyId = company)
  absences := db.schedulerAbsences.select (·.companyId = company)

/-- Every id in a row of the company that a deletion would follow names a row of the company. A parent that the
policies reach a row through is left out: it is the company's already. -/
structure Sealed (own : Holdings) : Prop where
  managers : ∀ job ∈ own.jobs, ∀ user, job.managerId = some user → Names own.users user
  supervisors : ∀ job ∈ own.jobs, ∀ user, job.supervisorId = some user → Names own.users user
  assigned : ∀ a ∈ own.assignments, Names own.users a.userId
  linked : ∀ link ∈ own.links, Names own.jobs link.jobId
  entryAuthors : ∀ e ∈ own.entries, ∀ user, e.authorId = some user → Names own.users user
  entryRaisers : ∀ e ∈ own.entries, ∀ user, e.actionRaisedBy = some user → Names own.users user
  noteRaisers : ∀ n ∈ own.notes, ∀ user, n.actionRaisedBy = some user → Names own.users user
  commentAuthors : ∀ c ∈ own.comments, ∀ user, c.authorId = some user → Names own.users user
  mediaNotes : ∀ m ∈ own.diaryMedia, ∀ note, m.noteId = some note → Names own.notes note
  mediaUploaders : ∀ m ∈ own.diaryMedia, ∀ user, m.uploadedBy = some user → Names own.users user
  fileUploaders : ∀ m ∈ own.jobMedia, ∀ user, m.uploadedBy = some user → Names own.users user
  formJobs : ∀ f ∈ own.forms, Names own.jobs f.jobId
  formAuthors : ∀ f ∈ own.forms, Names own.users f.createdBy
  formEntries : ∀ f ∈ own.forms, Names own.entries f.diaryEntryId
  formNotes : ∀ f ∈ own.forms, Names own.notes f.diaryNoteId
  photoItems : ∀ m ∈ own.formMedia, Names own.formItems m.itemId
  photoMedia : ∀ m ∈ own.formMedia, Names own.diaryMedia m.diaryMediaId
  parents : ∀ i ∈ own.programme, ∀ parent, i.parentId = some parent → Names own.programme parent
  booked : ∀ a ∈ own.allocations, ∀ job, a.jobId = some job → Names own.jobs job

section Scopes
variable {db after : Db} {company scope : CompanyId}

theorem names_jobs {job : JobId} : Names (visibleRows db company).jobs job ↔ jobInScope db company job = true :=
  Table.names_select

theorem names_entries {entry : DiaryEntryId} :
    Names (visibleRows db company).entries entry ↔ entryInScope db company entry = true := Table.names_select

theorem names_notes {note : DiaryNoteId} :
    Names (visibleRows db company).notes note ↔ noteInScope db company note = true := Table.names_select

theorem names_forms {form : InspectionFormId} :
    Names (visibleRows db company).forms form ↔ formInScope db company form = true := Table.names_select

/-- The rows of the company are the same ones, each table by the policies of the store before. -/
structure Spared (company : CompanyId) (db after : Db) : Prop where
  users : after.users.select (·.companyId = company) = db.users.select (·.companyId = company)
  jobs : after.jobs.select (·.companyId = company) = db.jobs.select (·.companyId = company)
  assignments : (after.jobAssignments.select fun a => jobInScope db company a.jobId) =
    db.jobAssignments.select fun a => jobInScope db company a.jobId
  tasks : (after.jobTasks.select fun t => jobInScope db company t.jobId) =
    db.jobTasks.select fun t => jobInScope db company t.jobId
  links : after.jobLinks.select (·.companyId = company) = db.jobLinks.select (·.companyId = company)
  entries : (after.siteDiary.select fun e => jobInScope db company e.jobId) =
    db.siteDiary.select fun e => jobInScope db company e.jobId
  notes : (after.diaryNotes.select fun n => entryInScope db company n.diaryEntryId) =
    db.diaryNotes.select fun n => entryInScope db company n.diaryEntryId
  comments : (after.diaryNoteComments.select fun c => noteInScope db company c.noteId) =
    db.diaryNoteComments.select fun c => noteInScope db company c.noteId
  diaryMedia : (after.diaryMedia.select fun m => entryInScope db company m.diaryEntryId) =
    db.diaryMedia.select fun m => entryInScope db company m.diaryEntryId
  jobMedia : (after.jobMedia.select fun m => jobInScope db company m.jobId) =
    db.jobMedia.select fun m => jobInScope db company m.jobId
  forms : after.inspectionForms.select (·.companyId = company) =
    db.inspectionForms.select (·.companyId = company)
  formItems : (after.inspectionFormItems.select fun i => formInScope db company i.formId) =
    db.inspectionFormItems.select fun i => formInScope db company i.formId
  formMedia : (after.inspectionFormMedia.select fun m => formInScope db company m.formId) =
    db.inspectionFormMedia.select fun m => formInScope db company m.formId
  etoSequences : (after.etoJobSequences.filter fun e => jobInScope db company e.jobId) =
    db.etoJobSequences.filter fun e => jobInScope db company e.jobId
  programme : (after.callForward.select fun i => jobInScope db company i.jobId) =
    db.callForward.select fun i => jobInScope db company i.jobId
  templates : after.callForwardTemplates.select (·.companyId = company) =
    db.callForwardTemplates.select (·.companyId = company)
  workers : after.schedulerWorkers.select (·.companyId = company) =
    db.schedulerWorkers.select (·.companyId = company)
  maintenanceJobs : after.schedulerMaintenanceJobs.select (·.companyId = company) =
    db.schedulerMaintenanceJobs.select (·.companyId = company)
  allocations : after.schedulerAllocations.select (·.companyId = company) =
    db.schedulerAllocations.select (·.companyId = company)
  absences : after.schedulerAbsences.select (·.companyId = company) =
    db.schedulerAbsences.select (·.companyId = company)

theorem Spared.refl (db : Db) : Spared company db db :=
  ⟨rfl, rfl, rfl, rfl, rfl, rfl, rfl, rfl, rfl, rfl, rfl, rfl, rfl, rfl, rfl, rfl, rfl, rfl, rfl, rfl⟩

theorem Spared.jobScope (spared : Spared company db after) : jobInScope after company = jobInScope db company := by
  funext job
  rw [jobInScope, jobInScope, Table.any_find, Table.any_find, spared.jobs]

theorem Spared.entryScope (spared : Spared company db after) : entryInScope after company = entryInScope db company := by
  funext entry
  rw [entryInScope, entryInScope, spared.jobScope, Table.any_find, Table.any_find, spared.entries]

theorem Spared.noteScope (spared : Spared company db after) : noteInScope after company = noteInScope db company := by
  funext note
  rw [noteInScope, noteInScope, spared.entryScope, Table.any_find, Table.any_find, spared.notes]

theorem Spared.formScope (spared : Spared company db after) : formInScope after company = formInScope db company := by
  funext form
  rw [formInScope, formInScope, Table.any_find, Table.any_find, spared.forms]

/-- The policies of the store after show the same rows. -/
theorem Spared.visible (spared : Spared company db after) : visibleRows after company = visibleRows db company := by
  simp only [visibleRows, spared.jobScope, spared.entryScope, spared.noteScope, spared.formScope, spared.users,
    spared.jobs, spared.assignments, spared.tasks, spared.links, spared.entries, spared.notes, spared.comments,
    spared.diaryMedia, spared.jobMedia, spared.forms, spared.formItems, spared.formMedia, spared.etoSequences,
    spared.programme, spared.templates, spared.workers, spared.maintenanceJobs, spared.allocations, spared.absences]

/- What is visible to one company is not to another. -/

theorem job_apart (apart : scope ≠ company) {job : JobId} (seen : jobInScope db scope job = true) :
    jobInScope db company job = false := by
  by_contra other
  exact apart (job_company seen (Bool.not_eq_false _ ▸ other))

theorem entry_apart (apart : scope ≠ company) {entry : DiaryEntryId} (seen : entryInScope db scope entry = true) :
    entryInScope db company entry = false := by
  by_contra other
  exact apart (entry_company seen (Bool.not_eq_false _ ▸ other))

theorem note_apart (apart : scope ≠ company) {note : DiaryNoteId} (seen : noteInScope db scope note = true) :
    noteInScope db company note = false := by
  obtain ⟨row, found, entry⟩ := (Option.any_eq_true _ _).mp seen
  rw [noteInScope, found, Option.any_some]
  exact entry_apart apart entry

theorem form_apart (apart : scope ≠ company) {form : InspectionFormId} (seen : formInScope db scope form = true) :
    formInScope db company form = false := by
  obtain ⟨row, found, owner⟩ := (Option.any_eq_true _ _).mp seen
  rw [formInScope, found, Option.any_some]
  exact decide_eq_false fun same => apart ((of_decide_eq_true owner).symm.trans same)

end Scopes

/- Cascades that start at rows of other companies. -/

section Cascades
variable {db : Db} {company : CompanyId} {own : Holdings}

/-- A reference is gone with no row of the company where each row it may name stays. -/
theorem any_named {reference : Option Int} {Own : Int → Prop} {gone : Int → Bool}
    (inside : ∀ id, reference = some id → Own id) (stays : ∀ id, Own id → gone id = false) :
    reference.any gone = false := by
  cases reference with
  | none => rfl
  | some id => exact stays id (inside id rfl)

theorem filter_spared {α : Type} {rows : List α} {p q : α → Bool} (spared : ∀ row ∈ rows, q row = true → p row = true) :
    (rows.filter p).filter q = rows.filter q := by
  rw [List.filter_filter]
  refine List.filter_congr fun row member => ?_
  cases seen : q row with
  | false => rfl
  | true => rw [spared row member seen]; rfl

theorem visible_cascadeMedia {gone : DiaryMediaRow → Bool} (here : visibleRows db company = own) (shut : Sealed own)
    (spared : ∀ m ∈ own.diaryMedia, gone m = false) : visibleRows (cascadeMedia gone db) company = own := by
  subst here
  apply Spared.visible
  exact { Spared.refl _ with
    diaryMedia := Table.select_delete_spared spared
    formMedia := Table.select_delete_spared fun m member => Table.any_find_named (shut.photoMedia m member) spared }

theorem visible_cascadeForms {gone : InspectionFormRow → Bool} (here : visibleRows db company = own) (shut : Sealed own)
    (spared : ∀ f ∈ own.forms, gone f = false) : visibleRows (cascadeForms gone db) company = own := by
  subst here
  have formStays : ∀ form, formInScope db company form = true → (db.inspectionForms.find form).any gone = false :=
    fun form seen => Table.any_find_named (names_forms.mpr seen) spared
  have itemStays : ∀ i ∈ (visibleRows db company).formItems, (db.inspectionForms.find i.formId).any gone = false :=
    fun i member => formStays i.formId (Table.mem_select.mp member).2
  apply Spared.visible
  refine { Spared.refl _ with
    forms := Table.select_delete_spared spared
    formItems := Table.select_delete_spared itemStays
    formMedia := Table.select_delete_spared fun m member => ?_ }
  exact Bool.or_eq_false_iff.mpr ⟨formStays m.formId (Table.mem_select.mp member).2,
    Table.any_find_named (shut.photoItems m member) itemStays⟩

theorem visible_cascadeNotes {gone : DiaryNoteRow → Bool} (here : visibleRows db company = own) (shut : Sealed own)
    (spared : ∀ n ∈ own.notes, gone n = false) : visibleRows (cascadeNotes gone db) company = own := by
  subst here
  have noteStays : ∀ note, Names (visibleRows db company).notes note → (db.diaryNotes.find note).any gone = false :=
    fun note named => Table.any_find_named named spared
  have media := @visible_cascadeMedia _ _ _ (fun m => m.noteId.any fun note => (db.diaryNotes.find note).any gone) rfl shut
    fun m member => any_named (shut.mediaNotes m member) noteStays
  have cleared := @visible_cascadeForms _ _ _ (fun f => (db.diaryNotes.find f.diaryNoteId).any gone) media shut
    fun f member => noteStays f.diaryNoteId (shut.formNotes f member)
  refine (Spared.visible ?_).trans cleared
  exact { Spared.refl _ with
    notes := Table.select_delete_spared spared
    comments := Table.select_delete_spared fun c member =>
      noteStays c.noteId (names_notes.mpr (Table.mem_select.mp member).2) }

theorem visible_entries {entries : Table SiteDiaryRow}
    (same : (entries.select fun e => jobInScope db company e.jobId) =
      db.siteDiary.select fun e => jobInScope db company e.jobId) :
    visibleRows { db with siteDiary := entries } company = visibleRows db company :=
  Spared.visible { Spared.refl db with entries := same }

theorem visible_cascadeEntries {gone : SiteDiaryRow → Bool} (here : visibleRows db company = own) (shut : Sealed own)
    (spared : ∀ e ∈ own.entries, gone e = false) : visibleRows (cascadeEntries gone db) company = own := by
  subst here
  have entryStays : ∀ entry, Names (visibleRows db company).entries entry → (db.siteDiary.find entry).any gone = false :=
    fun entry named => Table.any_find_named named spared
  have seenStays : ∀ entry, entryInScope db company entry = true → (db.siteDiary.find entry).any gone = false :=
    fun entry seen => entryStays entry (names_entries.mpr seen)
  have notes := @visible_cascadeNotes _ _ _ (fun n => (db.siteDiary.find n.diaryEntryId).any gone) rfl shut
    fun n member => seenStays n.diaryEntryId (Table.mem_select.mp member).2
  have media := @visible_cascadeMedia _ _ _ (fun m => (db.siteDiary.find m.diaryEntryId).any gone) notes shut
    fun m member => seenStays m.diaryEntryId (Table.mem_select.mp member).2
  have cleared := @visible_cascadeForms _ _ _ (fun f => (db.siteDiary.find f.diaryEntryId).any gone) media shut
    fun f member => entryStays f.diaryEntryId (shut.formEntries f member)
  have kept := @visible_entries (cascadeForms (fun f => (db.siteDiary.find f.diaryEntryId).any gone)
    (cascadeMedia (fun m => (db.siteDiary.find m.diaryEntryId).any gone)
      (cascadeNotes (fun n => (db.siteDiary.find n.diaryEntryId).any gone) db))) company (db.siteDiary.delete gone)
    (Table.select_delete_spared spared)
  exact kept.trans cleared

/-- A deletion that starts outside of the programme of the company does not get into it. -/
theorem visible_cascadeDelete {gone : CallForwardRow → Bool} (shut : Sealed (visibleRows db company))
    (spared : ∀ i ∈ (visibleRows db company).programme, gone i = false) :
    (cascadeDelete db.callForward gone).select (fun i => jobInScope db company i.jobId) =
      db.callForward.select fun i => jobInScope db company i.jobId := by
  apply Table.select_delete_spared
  intro i member
  have own : Names (visibleRows db company).programme i.id := ⟨i, member, rfl⟩
  refine meets_closed ?_ ?_ own
  · intro a b inside up
    obtain ⟨row, found, parent⟩ := Option.bind_eq_some_iff.mp up
    obtain ⟨own, there, same⟩ := inside
    have located := Table.find_eq_some_iff.mpr ⟨(Table.mem_select.mp there).1, same⟩
    cases located.symm.trans found
    exact shut.parents row there b parent
  · exact fun a inside => Table.any_find_named inside spared

/-- The cascades through the diary and its forms leave the tables beside them alone. -/
theorem cascadeDiary_shape (formGone : InspectionFormRow → Bool) (gone : SiteDiaryRow → Bool) (db : Db) :
    ∃ entries notes comments media forms items photos, cascadeForms formGone (cascadeEntries gone db) = { db with
      siteDiary := entries
      diaryNotes := notes
      diaryNoteComments := comments
      diaryMedia := media
      inspectionForms := forms
      inspectionFormItems := items
      inspectionFormMedia := photos } := by
  simp only [cascadeForms, cascadeEntries, cascadeNotes, cascadeMedia]
  exact ⟨_, _, _, _, _, _, _, rfl⟩

theorem visible_cascadeJobs {gone : JobRow → Bool} (here : visibleRows db company = own) (shut : Sealed own)
    (spared : ∀ j ∈ own.jobs, gone j = false) : visibleRows (cascadeJobs gone db) company = own := by
  subst here
  have jobStays : ∀ job, Names (visibleRows db company).jobs job → (db.jobs.find job).any gone = false :=
    fun job named => Table.any_find_named named spared
  have seenStays : ∀ job, jobInScope db company job = true → (db.jobs.find job).any gone = false :=
    fun job seen => jobStays job (names_jobs.mpr seen)
  have entries := @visible_cascadeEntries _ _ _ (fun e => (db.jobs.find e.jobId).any gone) rfl shut
    fun e member => seenStays e.jobId (Table.mem_select.mp member).2
  have cleared := @visible_cascadeForms _ _ _ (fun f => (db.jobs.find f.jobId).any gone) entries shut
    fun f member => jobStays f.jobId (shut.formJobs f member)
  obtain ⟨_, _, _, _, _, _, _, shape⟩ := cascadeDiary_shape (fun f => (db.jobs.find f.jobId).any gone)
    (fun e => (db.jobs.find e.jobId).any gone) db
  simp only [cascadeJobs]
  rw [shape] at cleared ⊢
  refine (Spared.visible ?_).trans cleared
  exact {
    users := rfl, entries := rfl, notes := rfl, comments := rfl, diaryMedia := rfl, forms := rfl, formItems := rfl
    formMedia := rfl, templates := rfl, workers := rfl, maintenanceJobs := rfl, absences := rfl
    jobs := Table.select_delete_spared spared
    assignments := Table.select_delete_spared fun a member => seenStays a.jobId (Table.mem_select.mp member).2
    tasks := Table.select_delete_spared fun t member => seenStays t.jobId (Table.mem_select.mp member).2
    links := Table.select_delete_spared fun l member => jobStays l.jobId (shut.linked l member)
    jobMedia := Table.select_delete_spared fun m member => seenStays m.jobId (Table.mem_select.mp member).2
    etoSequences := filter_spared fun e _ seen => by simp [seenStays e.jobId seen]
    programme := visible_cascadeDelete shut fun i member => seenStays i.jobId (Table.mem_select.mp member).2
    allocations := Table.select_delete_spared fun a member => any_named (shut.booked a member) jobStays }

theorem setNull_other {user : UserId} {users : List UserRow} {named : Option UserId} (foreign : ¬ Names users user)
    (inside : ∀ u, named = some u → Names users u) : setNull user named = named := by
  unfold setNull
  split
  · next same => exact absurd (inside user same) foreign
  · rfl

theorem visible_cascadeUser {user : UserId} (here : visibleRows db company = own) (shut : Sealed own)
    (foreign : ¬ Names own.users user) : visibleRows (cascadeUser user db) company = own := by
  subst here
  have other : ∀ u, Names (visibleRows db company).users u → u ≠ user := fun u named same => foreign (same ▸ named)
  have cleared := @visible_cascadeForms _ _ _ (fun f => decide (f.createdBy = user)) rfl shut
    fun f member => decide_eq_false (other f.createdBy (shut.formAuthors f member))
  refine (Spared.visible ?_).trans cleared
  exact { Spared.refl _ with
    users := Table.select_delete_spared fun u member => decide_eq_false (other u.id ⟨u, member, rfl⟩)
    assignments := Table.select_delete_spared fun a member => decide_eq_false (other a.userId (shut.assigned a member))
    jobs := Table.select_changed rfl (fun _ _ => rfl) fun j member _ => by
      rw [setNull_other foreign (shut.managers j member), setNull_other foreign (shut.supervisors j member)]
    entries := Table.select_changed rfl (fun _ _ => rfl) fun e member _ => by
      rw [setNull_other foreign (shut.entryAuthors e member), setNull_other foreign (shut.entryRaisers e member)]
    notes := Table.select_changed rfl (fun _ _ => rfl) fun n member _ => by
      rw [setNull_other foreign (shut.noteRaisers n member)]
    comments := Table.select_changed rfl (fun _ _ => rfl) fun c member _ => by
      rw [setNull_other foreign (shut.commentAuthors c member)]
    diaryMedia := Table.select_changed rfl (fun _ _ => rfl) fun m member _ => by
      rw [setNull_other foreign (shut.mediaUploaders m member)]
    jobMedia := Table.select_changed rfl (fun _ _ => rfl) fun m member _ => by
      rw [setNull_other foreign (shut.fileUploaders m member)] }

end Cascades

end VisibleRows
