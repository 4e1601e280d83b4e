import PmKonstruct.Diary.NoteIsolation
import PmKonstruct.Forms.InspectionService
import PmKonstruct.Library.TransitionRuns

/- Media and the two rows they hang off. A row names its entry and perhaps a note, each under a foreign key of its
   own, and both deletions cascade: what one takes with it depends on the two naming the same entry. -/
namespace MediaOwnership
open PlainText DomainErrors Accounts CalendarDate Schema KeyedTable RowSecurity Requests DeletionQueue TransitionRuns
open MediaStore Upload InspectionStore
open InspectionService (InspectionPhotoUpload)
open AuthService (SessionUser)

/-- The note exists and is one of the entry. -/
def NoteOf (db : Db) (note : DiaryNoteId) (entry : DiaryEntryId) : Prop :=
  db.diaryNotes.Has DiaryNoteRow.diaryEntryId note entry

def MediaOfOwnNotes (db : Db) : Prop :=
  ∀ m ∈ db.diaryMedia.rows, ∀ note, m.noteId = some note → NoteOf db note m.diaryEntryId

def RemovesOnly (db : Db) (p : DiaryMediaRow → Prop) (after : Db) : Prop :=
  ∀ m ∈ db.diaryMedia.rows, m ∉ after.diaryMedia.rows → p m

/-- Whoever deletes a note removes media of the note's entry and of no other. -/
def NoteDeletionContained (db : Db) : Prop :=
  ∀ s entry note, RemovesOnly db (fun m => NoteOf db note m.diaryEntryId) (DiaryService.deleteNote db s entry note).2

def EntryDeletionContained (db : Db) : Prop :=
  ∀ s entry, RemovesOnly db (fun m => m.diaryEntryId = entry) (DiaryService.delete db s entry).2

/-- The invariant also covers the inspection forms, whose entry and note every attached photo takes over. -/
structure Agree (db : Db) : Prop where
  media : MediaOfOwnNotes db
  forms : ∀ f ∈ db.inspectionForms.rows, NoteOf db f.diaryNoteId f.diaryEntryId

/- The calls and their runs. -/

inductive Call where
  | confirmUpload (owner : MediaOwner) (storedName originalName mimeType : Text)
  | getOrCreateDraft (job : JobId) (date : Date) (emptyNote : Text)
  | attachPhotos (form : InspectionFormId) (clientKey : Text) (expected : Int) (uploads : List InspectionPhotoUpload)
  | deleteNote (entry : DiaryEntryId) (note : DiaryNoteId)
  | deleteEntry (entry : DiaryEntryId)
  deriving DecidableEq, Repr

structure Request where
  now : Instant
  session : SessionUser
  storage : ObjectStore
  call : Call

def serve (db : Db) (r : Request) : Db :=
  match r.call with
  | .confirmUpload owner storedName originalName mimeType =>
    (MediaService.confirmUpload db r.session r.storage r.now owner storedName originalName mimeType).2
  | .getOrCreateDraft job date emptyNote =>
    (InspectionService.getOrCreateDraft db r.session r.now job date emptyNote).2
  | .attachPhotos form clientKey expected uploads =>
    (InspectionService.attachPhotos db r.session r.storage r.now form clientKey expected uploads).2
  | .deleteNote entry note => (DiaryService.deleteNote db r.session entry note).2
  | .deleteEntry entry => (DiaryService.delete db r.session entry).2

/-- The note of the upload is one of its entry, or there is no such note, or none is named. -/
def ownNote (db : Db) : MediaOwner → Bool
  | .diary entry note => note.all fun n => (db.diaryNotes.find n).all (·.diaryEntryId = entry)
  | .job _ => true

/-- No upload that gets to its row names a note of another entry. -/
def namesOwnNote (db : Db) (r : Request) : Bool :=
  match r.call with
  | .confirmUpload owner storedName originalName mimeType =>
    !MediaService.confirms db r.session r.storage owner storedName originalName mimeType || ownNote db owner
  | _ => true

/-- One deployment's diary under a condition on the requests that are made. -/
def diary (admits : Db → Request → Bool) : Machine Db Request where
  initial := Agree
  step db r := some (serve db r)
  allowed := admits

/- Uploads. -/

section Uploads
variable {db after : Db} {s : SessionUser} {scope : CompanyId} {now : Instant}

theorem insertDiaryMedia_agrees {entry : DiaryEntryId} {note : Option DiaryNoteId} {fileType : FileType}
    {rec : MediaRecord} {row : DiaryMediaRow} (agree : Agree db) (own : ∀ n, note = some n → NoteOf db n entry)
    (inserted : insertDiaryMedia db scope now entry note fileType rec = .ok (row, after)) :
    Agree after ∧ after.diaryNotes = db.diaryNotes := by
  obtain ⟨_, rfl⟩ := insertRow_ok inserted
  constructor
  · constructor
    · exact Table.all_insert agree.media own
    · exact agree.forms
  · rfl

theorem noteOf_own {entry : DiaryEntryId} {note : DiaryNoteId} {fileType : FileType} {rec : MediaRecord}
    {row : DiaryMediaRow} (own : ownNote db (.diary entry (some note)) = true)
    (inserted : insertDiaryMedia db scope now entry (some note) fileType rec = .ok (row, after)) :
    NoteOf db note entry := by
  obtain ⟨written, _⟩ := insertRow_ok inserted
  simp only [diaryMediaConstraint, fileViolations, overlong, tooLong, List.cons_append, List.nil_append,
    firstViolation_cons] at written
  obtain ⟨_, _, _, _, _, _, _, there, _⟩ := written
  cases found : db.diaryNotes.find note with
  | none => simp [found] at there
  | some n => exact ⟨n, found, by simpa [ownNote, found] using own⟩

theorem record_agrees {rec : MediaRecord} {media : Media} (agree : Agree db) (own : ownNote db rec.owner = true)
    (recorded : record db scope now rec = .ok (media, after)) : Agree after := by
  unfold record at recorded
  cases owner : rec.owner with
  | diary entry note =>
    rw [owner] at recorded own
    obtain ⟨⟨row, stored⟩, inserted, pair⟩ := map_ok recorded
    cases pair
    have named : ∀ n, note = some n → NoteOf db n entry := by
      intro n same
      subst same
      exact noteOf_own own inserted
    exact (insertDiaryMedia_agrees agree named inserted).1
  | job job =>
    rw [owner] at recorded
    obtain ⟨⟨row, stored⟩, inserted, pair⟩ := map_ok recorded
    cases pair
    obtain ⟨_, rfl⟩ := insertRow_ok inserted
    exact ⟨agree.media, agree.forms⟩

theorem confirmUpload_agrees {storage : ObjectStore} {owner : MediaOwner} {storedName originalName mimeType : Text}
    (agree : Agree db) (own : MediaService.confirms db s storage owner storedName originalName mimeType = true →
      ownNote db owner = true) :
    Agree (MediaService.confirmUpload db s storage now owner storedName originalName mimeType).2 := by
  apply attempt_keeps Agree agree
  intro _ access
  apply attempt_keeps Agree agree
  intro verified checked
  apply committed_keeps Agree agree
  intro media after recorded
  exact record_agrees agree (own (by rw [MediaService.confirms, access, checked]; rfl)) recorded

end Uploads

/- Inspection drafts and their photos. -/

section Inspections
variable {db after : Db} {s : SessionUser} {scope : CompanyId} {now : Instant} {user : UserId}

theorem insertEntry_agrees {job : JobId} {date : Date} {entry : SiteDiaryRow} (agree : Agree db)
    (inserted : insertEntry db scope job user date = .ok (entry, after)) : Agree after := by
  unfold insertEntry DiaryStore.insertEntry at inserted
  obtain ⟨_, rfl⟩ := insertRow_ok inserted
  exact ⟨agree.media, agree.forms⟩

theorem insertInspectionNote_agrees {entry : DiaryEntryId} {content : Text} {note : DiaryNoteRow} (agree : Agree db)
    (inserted : insertInspectionNote db scope now entry content = .ok (note, after)) :
    Agree after ∧ NoteOf after note.id entry := by
  unfold insertInspectionNote DiaryStore.insertNote at inserted
  have written := insertRow_value inserted
  obtain ⟨_, rfl⟩ := insertRow_ok inserted
  subst written
  constructor
  · constructor
    · intro m member n named
      exact (agree.media m member n named).insert
    · intro f member
      exact (agree.forms f member).insert
  · exact Table.has_inserted

theorem insertForm_agrees {job : JobId} {entry : DiaryEntryId} {note : DiaryNoteId} {date : Date}
    {form : InspectionFormRow} (agree : Agree db) (own : NoteOf db note entry)
    (inserted : insertForm db scope now job user entry note date = .ok (form, after)) : Agree after := by
  obtain ⟨_, rfl⟩ := insertRow_ok inserted
  constructor
  · exact agree.media
  · exact Table.all_insert agree.forms own

theorem loaded_after {form : InspectionFormId} {draft : InspectionForm}
    (found : loaded db scope form user = .ok (draft, after)) : after = db := by
  unfold loaded at found
  split at found
  · cases found
  · cases found
    rfl

theorem createDraft_agrees {job : JobId} {date : Date} {emptyNote : Text} {draft : InspectionForm} (agree : Agree db)
    (made : InspectionStore.getOrCreateDraft db scope now job user date emptyNote = .ok (draft, after)) :
    Agree after := by
  unfold InspectionStore.getOrCreateDraft at made
  simp only at made
  split at made
  · rw [loaded_after made]
    exact agree
  · obtain ⟨⟨entry, first⟩, entered, made⟩ := bind_ok made
    obtain ⟨⟨note, second⟩, noted, made⟩ := bind_ok made
    obtain ⟨⟨form, third⟩, formed, made⟩ := bind_ok made
    have entryAgrees := insertEntry_agrees agree entered
    have noteAgrees := insertInspectionNote_agrees entryAgrees noted
    rw [loaded_after made]
    exact insertForm_agrees noteAgrees.1 noteAgrees.2 formed

theorem getOrCreateDraft_agrees {job : JobId} {date : Date} {emptyNote : Text} (agree : Agree db) :
    Agree (InspectionService.getOrCreateDraft db s now job date emptyNote).2 := by
  apply attempt_keeps Agree agree
  intro _ _
  apply committed_keeps Agree agree
  intro draft after made
  exact createDraft_agrees agree made

theorem attachPhoto_agrees {form : InspectionFormRow} {photo : InspectionPhotoRecord} (agree : Agree db)
    (own : NoteOf db form.diaryNoteId form.diaryEntryId)
    (attached : attachPhoto db scope now form photo = .ok after) :
    Agree after ∧ NoteOf after form.diaryNoteId form.diaryEntryId := by
  unfold attachPhoto at attached
  simp only at attached
  split at attached
  · cases attached
  · obtain ⟨⟨row, stored⟩, inserted, linking⟩ := bind_ok attached
    obtain ⟨order, _, linked⟩ := map_ok linking
    have named : ∀ n, some form.diaryNoteId = some n → NoteOf db n form.diaryEntryId := by
      intro n same
      cases same
      exact own
    obtain ⟨agrees, notes⟩ := insertDiaryMedia_agrees agree named inserted
    subst linked
    constructor
    · exact ⟨agrees.media, agrees.forms⟩
    · change stored.diaryNotes.Has DiaryNoteRow.diaryEntryId _ _
      rw [notes]
      exact own

/-- Every photo of a batch finds the form's note where the one before it did. -/
theorem attachEach_agrees {form : InspectionFormRow} {photos : List InspectionPhotoRecord} (agree : Agree db)
    (own : NoteOf db form.diaryNoteId form.diaryEntryId)
    (attached : attachEach scope now form db photos = .ok after) : Agree after := by
  induction photos generalizing db with
  | nil =>
    cases attached
    exact agree
  | cons photo rest ih =>
    rw [attachEach] at attached
    split at attached
    · cases attached
    · next middle one =>
      obtain ⟨agrees, stays⟩ := attachPhoto_agrees agree own one
      exact ih agrees stays attached

theorem claimRevision_agrees {form : InspectionFormId} {expected : Int} (agree : Agree db) :
    Agree (claimRevision db scope now form expected).2 := by
  constructor
  · exact agree.media
  · apply @Table.all_update _ _ _ _ _ (nextRevision now) (fun _ => rfl) agree.forms
    intro f member _
    exact agree.forms f member

theorem load_mem {form : InspectionFormId} {draft : InspectionForm} (found : load db scope form user = some draft) :
    draft.form ∈ db.inspectionForms.rows := by
  obtain ⟨row, reached, rfl⟩ := Option.map_eq_some_iff.mp found
  have located := (Table.reach_eq_some_iff.mp reached).1
  exact (Table.find_eq_some_iff.mp located).1

theorem storePhotos_agrees {form : InspectionFormId} {expected : Int} {photos : List InspectionPhotoRecord}
    {draft : Option InspectionForm} (agree : Agree db)
    (attached : InspectionStore.attachPhotos db scope now form user expected photos = .ok (draft, after)) :
    Agree after := by
  unfold InspectionStore.attachPhotos at attached
  split at attached
  · cases attached
  · next found =>
    split at attached
    · cases attached
      exact agree
    · next claimed claim =>
      have claims : Agree (claimRevision db scope now form expected).2 := claimRevision_agrees agree
      have own := agree.forms _ (load_mem found)
      have stays : NoteOf (claimRevision db scope now form expected).2 _ _ := own
      rw [claim] at claims stays
      split at attached
      · cases attached
      · next each =>
        cases attached
        exact attachEach_agrees claims stays each

theorem attachPhotos_agrees {storage : ObjectStore} {form : InspectionFormId} {clientKey : Text} {expected : Int}
    {uploads : List InspectionPhotoUpload} (agree : Agree db) :
    Agree (InspectionService.attachPhotos db s storage now form clientKey expected uploads).2 := by
  apply attempt_keeps Agree agree
  intro _ _
  apply attempt_keeps Agree agree
  intro draft _
  split
  · exact agree
  · apply attempt_keeps Agree agree
    intro _ _
    apply attempt_keeps Agree agree
    intro records _
    rw [InspectionService.orStale_after]
    apply committed_keeps Agree agree
    intro saved after attached
    exact storePhotos_agrees agree attached

end Inspections

/- Deletions: what stays keeps the rows it names, and what goes hangs off the row deleted. -/

section Deletions
variable {db : Db} {s : SessionUser} {scope : CompanyId}

theorem cascadeMedia_agrees {gone : DiaryMediaRow → Bool} (agree : Agree db) : Agree (cascadeMedia gone db) := by
  constructor
  · exact Table.all_delete agree.media
  · exact agree.forms

theorem cascadeForms_agrees {gone : InspectionFormRow → Bool} (agree : Agree db) : Agree (cascadeForms gone db) := by
  constructor
  · exact agree.media
  · exact Table.all_delete agree.forms

theorem cascadeNotes_agrees {gone : DiaryNoteRow → Bool} (agree : Agree db) : Agree (cascadeNotes gone db) := by
  constructor
  · intro m member note named
    obtain ⟨there, kept⟩ := Table.mem_delete.mp member
    rw [named, Option.any_some] at kept
    exact (agree.media m there note named).delete kept
  · intro f member
    obtain ⟨there, kept⟩ := Table.mem_delete.mp member
    exact (agree.forms f there).delete kept

theorem cascadeEntries_agrees {gone : SiteDiaryRow → Bool} (agree : Agree db) : Agree (cascadeEntries gone db) := by
  have notes := @cascadeNotes_agrees db (fun n => (db.siteDiary.find n.diaryEntryId).any gone) agree
  have media := @cascadeMedia_agrees _ (fun m => (db.siteDiary.find m.diaryEntryId).any gone) notes
  have forms := @cascadeForms_agrees _ (fun f => (db.siteDiary.find f.diaryEntryId).any gone) media
  exact ⟨forms.media, forms.forms⟩

theorem deleteNote_agrees {entry : DiaryEntryId} {note : DiaryNoteId} (agree : Agree db) :
    Agree (DiaryService.deleteNote db s entry note).2 := by
  apply attempt_keeps Agree agree
  intro _ _
  rw [deletedOrNotFound_after]
  have queued : Agree (enqueueNoteMedia db s.principal.companyId note) := ⟨agree.media, agree.forms⟩
  unfold DiaryStore.deleteNote
  simp only
  split
  · exact queued
  · exact cascadeNotes_agrees queued

theorem deleteEntry_agrees {entry : DiaryEntryId} (agree : Agree db) :
    Agree (DiaryService.delete db s entry).2 := by
  apply attempt_keeps Agree agree
  intro _ _
  rw [deletedOrNotFound_after]
  have queued : Agree (enqueueDiaryEntryMedia db s.principal.companyId entry) := ⟨agree.media, agree.forms⟩
  unfold DiaryStore.deleteEntry
  simp only
  split
  · exact queued
  · exact cascadeEntries_agrees queued

theorem removesOnly_self {p : DiaryMediaRow → Prop} {after : Db} (same : after.diaryMedia = db.diaryMedia) :
    RemovesOnly db p after := by
  intro m member gone
  rw [same] at gone
  exact absurd member gone

/-- Media that goes with a deleted note names it, so it is of the note's entry. -/
theorem gone_with_note {note : DiaryNoteId} {m : DiaryMediaRow} (agree : Agree db) (member : m ∈ db.diaryMedia.rows)
    (hung : m.noteId.any (fun n => (db.diaryNotes.find n).any (·.id = note)) = true) :
    NoteOf db note m.diaryEntryId := by
  obtain ⟨named, found, there⟩ := Option.any_eq_true _ _ |>.mp hung
  obtain ⟨row, located, same⟩ := Option.any_eq_true _ _ |>.mp there
  have key : row.id = named := (Table.find_eq_some_iff.mp located).2
  rw [decide_eq_true_eq, key] at same
  rw [← same]
  exact agree.media m member named found

theorem gone_with_notes {entry : DiaryEntryId} {m : DiaryMediaRow} (agree : Agree db) (member : m ∈ db.diaryMedia.rows)
    (hung : m.noteId.any (fun n => (db.diaryNotes.find n).any fun row =>
      (db.siteDiary.find row.diaryEntryId).any (·.id = entry)) = true) : m.diaryEntryId = entry := by
  obtain ⟨named, found, there⟩ := Option.any_eq_true _ _ |>.mp hung
  obtain ⟨row, located, ofEntry⟩ := Option.any_eq_true _ _ |>.mp there
  obtain ⟨e, entered, same⟩ := Option.any_eq_true _ _ |>.mp ofEntry
  have key : e.id = row.diaryEntryId := (Table.find_eq_some_iff.mp entered).2
  obtain ⟨other, alsoLocated, agrees⟩ := agree.media m member named found
  rw [located] at alsoLocated
  cases alsoLocated
  rw [decide_eq_true_eq] at same
  rw [← agrees, ← key, same]

theorem noteDeletion_contained (agree : Agree db) : NoteDeletionContained db := by
  intro s entry note
  apply attempt_keeps (RemovesOnly db fun m => NoteOf db note m.diaryEntryId) (removesOnly_self rfl)
  intro _ _
  rw [deletedOrNotFound_after]
  unfold DiaryStore.deleteNote
  simp only
  split
  · exact removesOnly_self rfl
  · intro m member removed
    have hung := Table.matched_of_removed member removed
    exact gone_with_note agree member hung

theorem entryDeletion_contained (agree : Agree db) : EntryDeletionContained db := by
  intro s entry
  apply attempt_keeps (RemovesOnly db fun m => m.diaryEntryId = entry) (removesOnly_self rfl)
  intro _ _
  rw [deletedOrNotFound_after]
  unfold DiaryStore.deleteEntry
  simp only
  split
  · exact removesOnly_self rfl
  · intro m member removed
    -- the notes of the entry go first, with the media that name them, and then the media of the entry itself
    by_cases first : m ∈ (cascadeNotes (fun n => (db.siteDiary.find n.diaryEntryId).any (·.id = entry)) db).diaryMedia.rows
    · have ofEntry := Table.matched_of_removed first removed
      obtain ⟨e, entered, same⟩ := Option.any_eq_true _ _ |>.mp ofEntry
      have key : e.id = m.diaryEntryId := (Table.find_eq_some_iff.mp entered).2
      rw [← key]
      exact of_decide_eq_true same
    · have hung := Table.matched_of_removed member first
      exact gone_with_notes agree member hung

end Deletions

/-- What one call preserves. -/
theorem serve_agrees {db : Db} {r : Request} (agree : Agree db) (own : namesOwnNote db r = true) :
    Agree (serve db r) := by
  obtain ⟨now, session, storage, call⟩ := r
  cases call with
  | confirmUpload owner storedName originalName mimeType =>
    refine confirmUpload_agrees agree fun confirmed => ?_
    simpa [namesOwnNote, confirmed] using own
  | getOrCreateDraft job date emptyNote => exact getOrCreateDraft_agrees agree
  | attachPhotos form clientKey expected uploads => exact attachPhotos_agrees agree
  | deleteNote entry note => exact deleteNote_agrees agree
  | deleteEntry entry => exact deleteEntry_agrees agree

/-- As long as no upload names a note of another entry, media hang off their own entry's notes and a deletion
    stays within the entry it is about. -/
theorem media_stay_with_entry (db : Db) (reached : (diary namesOwnNote).Reachable db) :
    MediaOfOwnNotes db ∧ NoteDeletionContained db ∧ EntryDeletionContained db := by
  have agree : Agree db := by
    apply Reachable.invariant Agree reached
    · intro start agree
      exact agree
    · intro before after request agree own served
      cases served
      exact serve_agrees agree own
  exact ⟨agree.media, noteDeletion_contained agree, entryDeletion_contained agree⟩

/- A manager uploads a photo to one entry under the note of another. -/

def manager : SessionUser where
  user := ⟨7, 1, text "Sarah", text "sarah@example.com", .manager, none, true, none⟩
  principal := ⟨7, 1, .manager⟩
  permissions := []
  entitlement := ⟨true, true, true, none⟩

def twoEntries : Db :=
  { Db.empty with
    users := .of [.plain 7 1 (text "Sarah") (text "sarah@example.com") (text "MANAGER") (Eq.refl true)] 8
      (Eq.refl true)
    jobs := .of [NoteIsolation.jobOf 1 1 none] 2 (Eq.refl true)
    siteDiary := .of [NoteIsolation.entryOf 1 1, NoteIsolation.entryOf 2 1] 3 (Eq.refl true)
    diaryNotes := .of [⟨1, 2, .listed .general, text "Slab poured", none, none, 0, false, 0⟩] 2 (Eq.refl true) }

def jpegStored : ObjectStore where
  head := fun _ => .ok (some 1024)
  readPrefix := fun _ _ => .ok [0xff, 0xd8, 0xff, 0xe0]

def photoUnder (entry : DiaryEntryId) (note : DiaryNoteId) : Request where
  now := 0
  session := manager
  storage := jpegStored
  call := .confirmUpload (.diary entry (some note)) (text "x.jpg") (text "slab.jpg") (text "image/jpeg")

theorem twoEntries_agree : Agree twoEntries := by
  constructor
  · intro m member
    cases member
  · intro f member
    cases member

theorem photo_stays_with_entry : (serve twoEntries (photoUnder 2 1)).diaryMedia.rows.map (·.noteId) = [some 1] ∧
    MediaOfOwnNotes (serve twoEntries (photoUnder 2 1)) := by
  have run : (diary namesOwnNote).execute twoEntries [photoUnder 2 1] = some (serve twoEntries (photoUnder 2 1)) := rfl
  have stays := media_stay_with_entry _ (execute_reachable twoEntries_agree run)
  exact ⟨rfl, stays.1⟩

/-- The row of the photo as it is stored under the foreign note. -/
def strayPhoto : DiaryMediaRow :=
  ⟨1, 1, some 1, .photo, text "image/jpeg", text "slab.jpg", text "x.jpg", 1024, text "1/diary/1/x.jpg", some 7, 0⟩

theorem photo_under_foreign_note : ∃ db, (diary fun _ _ => true).Reachable db ∧ ¬ MediaOfOwnNotes db ∧
    ¬ NoteDeletionContained db ∧ ¬ EntryDeletionContained db := by
  have run : (diary fun _ _ => true).execute twoEntries [photoUnder 1 1] =
      some (serve twoEntries (photoUnder 1 1)) := rfl
  have stored : strayPhoto ∈ (serve twoEntries (photoUnder 1 1)).diaryMedia.rows := List.mem_singleton_self _
  have foreign : ¬ NoteOf (serve twoEntries (photoUnder 1 1)) 1 1 := by
    intro ⟨row, found, same⟩
    cases found
    cases same
  refine ⟨_, execute_reachable twoEntries_agree run, ?_, ?_, ?_⟩
  · intro own
    exact foreign (own strayPhoto stored 1 rfl)
  · intro contained
    exact foreign (contained manager 2 1 strayPhoto stored (List.not_mem_nil))
  · intro contained
    have same := contained manager 2 strayPhoto stored (List.not_mem_nil)
    cases same

end MediaOwnership
