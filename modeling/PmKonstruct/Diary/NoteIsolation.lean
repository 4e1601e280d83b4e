import PmKonstruct.Diary.DiaryService

/- Which notes a request may reach. The entry in the path is checked and the note is not tied to it, so the
   question is when a request is confined to the notes of the entry it names. -/
namespace NoteIsolation
open PlainText DomainErrors Accounts Schema KeyedTable RowSecurity Requests DeletionQueue DiaryService
open DiaryStore (DiaryNoteInput changeNote noteInScope_iff noteInScope_false_iff)
open AuthService (SessionUser)

def BelongsTo (db : Db) (note : DiaryNoteId) (entry : DiaryEntryId) : Prop :=
  ∃ row, db.diaryNotes.find note = some row ∧ row.diaryEntryId = entry

/-- The note is one of an entry the session can see. -/
def OwnsNote (db : Db) (s : SessionUser) (entry : DiaryEntryId) (note : DiaryNoteId) : Prop :=
  SeesEntry db s entry ∧ BelongsTo db note entry

/-- The requests that answer a missing note with not found and nothing else. A thread is listed as empty, blank
    text is complained about first, and a deletion may already have queued objects. -/
def ReportsMissing (db : Db) (s : SessionUser) (note : DiaryNoteId) : NoteRequest → Prop
  | .updateNote input => trim input.content ≠ []
  | .setNoteActionStatus _ => True
  | .setNoteArchived _ => True
  | .deleteNote => ∀ m ∈ db.diaryMedia.rows, m.noteId = some note →
      entryInScope db s.principal.companyId m.diaryEntryId = true →
      diaryKey s.principal.companyId m ∈ db.mediaDeletionQueue
  | .comments => False
  | .addComment content => trim content ≠ []

section Refusals
variable {now : Instant} {db : Db} {s : SessionUser} {entry : DiaryEntryId} {note : DiaryNoteId}

theorem refused_reply {α : Type} {wrap : α → NoteReply} {outcome : Outcome α} :
    Refused db (reply wrap outcome) ↔ Refused db outcome :=
  refused_map wrap

theorem perform_hidden (request : NoteRequest) (hidden : ¬ SeesEntry db s entry) :
    Refused db (perform now db s entry note request) := by
  have denied := get_hidden hidden
  cases request with
  | updateNote input => exact refused_reply.mpr (refused_attempt denied rfl)
  | setNoteActionStatus status => exact refused_reply.mpr (refused_attempt denied rfl)
  | setNoteArchived archived => exact refused_reply.mpr (refused_attempt denied rfl)
  | deleteNote => exact refused_reply.mpr (refused_attempt denied rfl)
  | comments => exact refused_reply.mpr (refused_attempt denied rfl)
  | addComment content => exact refused_reply.mpr (refused_attempt denied rfl)

theorem refused_changeNote {change : DiaryNoteRow → DiaryNoteRow} {keeps : ∀ n, (change n).id = n.id} :
    Refused db (orNotFound "Note" (committed db (.ok (changeNote db s.principal.companyId note change keeps)))) ↔
      noteInScope db s.principal.companyId note = false := by
  rw [noteInScope_false_iff]
  exact refused_changeRow rfl

theorem updateNote_refused (sees : SeesEntry db s entry) {input : DiaryNoteInput} :
    Refused db (updateNote db s entry note input) ↔
      noteInScope db s.principal.companyId note = false ∧ trim input.content ≠ [] := by
  obtain ⟨row, got⟩ := get_sees sees
  simp only [updateNote, got, attempt, DiaryNoteInput.validate]
  by_cases blank : trim input.content = []
  · simp [blank, inDomain, refused_error_iff, notFoundError]
  · simp only [ne_eq, blank, not_false_eq_true, and_true, if_false, inDomain]
    exact refused_changeNote

theorem setNoteActionStatus_refused (sees : SeesEntry db s entry) {status : Option ActionStatus} :
    Refused db (setNoteActionStatus db s entry note status) ↔ noteInScope db s.principal.companyId note = false := by
  obtain ⟨row, got⟩ := get_sees sees
  simp only [setNoteActionStatus, got, attempt]
  rw [noteInScope_false_iff]
  apply refused_checkedChange rfl
  intro e violated
  apply firstViolation_named _ violated
  intro c listed
  cases List.mem_singleton.mp listed
  rfl

theorem setNoteArchived_refused (sees : SeesEntry db s entry) {archived : Bool} :
    Refused db (setNoteArchived db s entry note archived) ↔ noteInScope db s.principal.companyId note = false := by
  obtain ⟨row, got⟩ := get_sees sees
  simp only [setNoteArchived, got, attempt]
  exact refused_changeNote

theorem deleteNote_refused (sees : SeesEntry db s entry) : Refused db (deleteNote db s entry note) ↔
    noteInScope db s.principal.companyId note = false ∧ ReportsMissing db s note .deleteNote := by
  obtain ⟨row, got⟩ := get_sees sees
  simp only [deleteNote, got, attempt, DiaryStore.deleteNote]
  cases visible : noteInScope db s.principal.companyId note with
  | false =>
    rw [noteInScope_false_iff.mp visible]
    simp only [refused_deletedOrNotFound, true_and, enqueueNoteMedia_eq_self_iff, ReportsMissing]
  | true =>
    obtain ⟨found, reached⟩ := noteInScope_iff.mp visible
    rw [reached]
    simp [refused_deletedOrNotFound]

theorem comments_not_refused (sees : SeesEntry db s entry) : ¬ Refused db (comments db s entry note) := by
  obtain ⟨row, got⟩ := get_sees sees
  simp only [comments, got, attempt]
  exact not_refused_ok

theorem addComment_refused (sees : SeesEntry db s entry) {content : Text} :
    Refused db (addComment db s now entry note content) ↔
      noteInScope db s.principal.companyId note = false ∧ trim content ≠ [] := by
  obtain ⟨row, got⟩ := get_sees sees
  simp only [addComment, got, attempt]
  by_cases blank : trim content = []
  · simp [blank, refused_error_iff, notFoundError]
  · rw [if_neg blank, DiaryStore.addComment]
    cases visible : noteInScope db s.principal.companyId note with
    | false => simp [noteInScope_false_iff.mp visible, committed, refused_error_iff, notFoundError, blank]
    | true =>
      obtain ⟨found, reached⟩ := noteInScope_iff.mp visible
      rw [reached, if_neg (by simp)]
      split
      · simp [committed, refused_error_iff, notFoundError]
      · simp [committed, not_refused_ok]

/-- Under a visible entry a request is refused only when the company cannot see the note at all. -/
theorem perform_refused (request : NoteRequest) (sees : SeesEntry db s entry) :
    Refused db (perform now db s entry note request) ↔
      noteInScope db s.principal.companyId note = false ∧ ReportsMissing db s note request := by
  cases request with
  | updateNote input => exact refused_reply.trans (updateNote_refused sees)
  | setNoteActionStatus status =>
    rw [perform, refused_reply, setNoteActionStatus_refused sees]
    simp [ReportsMissing]
  | setNoteArchived archived =>
    rw [perform, refused_reply, setNoteArchived_refused sees]
    simp [ReportsMissing]
  | deleteNote => exact refused_reply.trans (deleteNote_refused sees)
  | comments =>
    rw [perform, refused_reply]
    simp [comments_not_refused sees, ReportsMissing]
  | addComment content => exact refused_reply.trans (addComment_refused sees)

end Refusals

/-- A request is confined to the notes of its entry when the note belongs there, when the entry is not the
    session's to see, or when the whole company has no such note and the request says so. -/
theorem note_request_confined_iff (now : Instant) (db : Db) (s : SessionUser) (entry : DiaryEntryId)
    (note : DiaryNoteId) (request : NoteRequest) :
    Confined (OwnsNote db s entry note) db (perform now db s entry note request) ↔
      BelongsTo db note entry ∨ ¬ SeesEntry db s entry ∨
        (noteInScope db s.principal.companyId note = false ∧ ReportsMissing db s note request) := by
  unfold Confined OwnsNote
  by_cases sees : SeesEntry db s entry
  · rw [perform_refused request sees]
    simp only [sees, true_and, not_true_eq_false, false_or]
  · have denied : Refused db (perform now db s entry note request) := perform_hidden request sees
    simp only [denied, sees, not_false_eq_true, or_true, true_or]

/- A company with two jobs: the supervisor of one rewrites a note of the other. -/

def supervisor : SessionUser where
  user := ⟨7, 1, text "Sarah", text "sarah@example.com", .supervisor, none, true, none⟩
  principal := ⟨7, 1, .supervisor⟩
  permissions := []
  entitlement := ⟨true, true, true, none⟩

def jobOf (id : JobId) (company : CompanyId) (supervisorId : Option UserId) : JobRow :=
  ⟨id, company, [], text "J", text "Smith", none, none, text "1 St", .active, none, none, none, supervisorId, none, none,
    none, none, none, 0, 0⟩

def entryOf (id : DiaryEntryId) (job : JobId) : SiteDiaryRow := ⟨id, job, none, 0, text "Slab poured", none, none⟩

def twoJobs : Db :=
  { Db.empty with
    jobs := ⟨[jobOf 1 1 (some 7), jobOf 2 1 (some 8)], 3, by decide, by decide⟩
    siteDiary := ⟨[entryOf 1 1, entryOf 2 2], 3, by decide, by decide⟩
    diaryNotes := ⟨[⟨1, 2, .listed .general, text "Slab cracked", none, none, 0, false, 0⟩], 2, by decide, by decide⟩ }

theorem foreign_note_rewritten : supervisor.user.role = .supervisor ∧
    ¬ Confined (OwnsNote twoJobs supervisor 1 1) twoJobs
      (perform 0 twoJobs supervisor 1 1 (.updateNote ⟨.general, text "All fine", none, none⟩)) := by
  refine ⟨rfl, ?_⟩
  have answered : (perform 0 twoJobs supervisor 1 1 (.updateNote ⟨.general, text "All fine", none, none⟩)).1 =
      .ok (.note ⟨1, 2, .general, text "All fine", none, none, 0, false, 0⟩) := by rfl
  intro confined
  cases confined with
  | inl owns =>
    obtain ⟨_, row, found, same⟩ := owns
    cases found
    cases same
  | inr refused =>
    obtain ⟨⟨e, failed, _⟩, _⟩ := refused
    rw [answered] at failed
    cases failed

end NoteIsolation
