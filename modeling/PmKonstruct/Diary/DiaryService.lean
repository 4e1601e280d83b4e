import PmKonstruct.Diary.DiaryStore
import PmKonstruct.Store.Requests

/- The diary use cases over a single note. Each checks that the session may see the entry in the path and then
   hands the note id on. -/
namespace DiaryService
open PlainText DomainErrors Accounts Schema KeyedTable RowSecurity Requests DiaryStore
open AuthService (SessionUser)

section Service
variable (db : Db) (s : SessionUser)

def get (entry : DiaryEntryId) : Except AppError SiteDiaryRow :=
  match findEntry db s.principal.companyId (visibleJobs db s) entry with
  | none => .error (.domain (.notFound "Diary entry"))
  | some row => .ok row

def updateNote (entry : DiaryEntryId) (note : DiaryNoteId) (input : DiaryNoteInput) : Outcome DiaryNote :=
  attempt db (get db s entry) fun _ =>
    attempt db (inDomain input.validate) fun _ =>
      orNotFound "Note" (committed db (.ok (DiaryStore.updateNote db s.principal.companyId note input)))

def setNoteActionStatus (entry : DiaryEntryId) (note : DiaryNoteId) (status : Option ActionStatus) :
    Outcome DiaryNote :=
  attempt db (get db s entry) fun _ =>
    orNotFound "Note"
      (committed db (DiaryStore.setNoteActionStatus db s.principal.companyId note status (some s.user.id)))

def setNoteArchived (entry : DiaryEntryId) (note : DiaryNoteId) (archived : Bool) : Outcome DiaryNote :=
  attempt db (get db s entry) fun _ =>
    orNotFound "Note" (committed db (.ok (DiaryStore.setNoteArchived db s.principal.companyId note archived)))

def deleteNote (entry : DiaryEntryId) (note : DiaryNoteId) : Outcome Unit :=
  attempt db (get db s entry) fun _ =>
    deletedOrNotFound "Note" (DiaryStore.deleteNote db s.principal.companyId note)

def comments (entry : DiaryEntryId) (note : DiaryNoteId) : Outcome (List DiaryNoteComment) :=
  attempt db (get db s entry) fun _ => (.ok (DiaryStore.comments db s.principal.companyId note), db)

def addComment (now : Instant) (entry : DiaryEntryId) (note : DiaryNoteId) (content : Text) :
    Outcome DiaryNoteComment :=
  attempt db (get db s entry) fun _ =>
    if trim content = [] then (.error (.domain (.invalid "content" "is required")), db)
    else committed db (DiaryStore.addComment db s.principal.companyId now note s.user.id content)

def delete (entry : DiaryEntryId) : Outcome Unit :=
  attempt db (get db s entry) fun _ =>
    deletedOrNotFound "Diary entry" (DiaryStore.deleteEntry db s.principal.companyId entry)

end Service

variable {db : Db} {s : SessionUser} {entry : DiaryEntryId}

theorem findEntry_iff {row : SiteDiaryRow} : findEntry db s.principal.companyId (visibleJobs db s) entry = some row ↔
    db.siteDiary.find entry = some row ∧ SeesJob db s row.jobId := by
  rw [findEntry, Table.reach_eq_some_iff, admits_iff_sees]

theorem get_sees (sees : SeesEntry db s entry) : ∃ row, get db s entry = .ok row := by
  obtain ⟨row, found, job⟩ := sees
  have located := findEntry_iff.mpr ⟨found, job⟩
  exact ⟨row, by simp only [get, located]⟩

theorem get_hidden (hidden : ¬ SeesEntry db s entry) : get db s entry = .error (.domain (.notFound "Diary entry")) := by
  cases located : findEntry db s.principal.companyId (visibleJobs db s) entry with
  | none => simp only [get, located]
  | some row =>
    obtain ⟨found, job⟩ := findEntry_iff.mp located
    exact absurd ⟨row, found, job⟩ hidden

/- The six requests that name a note under an entry. -/

inductive NoteRequest where
  | updateNote (input : DiaryNoteInput)
  | setNoteActionStatus (status : Option ActionStatus)
  | setNoteArchived (archived : Bool)
  | deleteNote
  | comments
  | addComment (content : Text)
  deriving DecidableEq, Repr

inductive NoteReply where
  | note (note : DiaryNote)
  | deleted
  | comments (thread : List DiaryNoteComment)
  | comment (comment : DiaryNoteComment)
  deriving DecidableEq, Repr

def reply {α : Type} (wrap : α → NoteReply) (outcome : Outcome α) : Outcome NoteReply := (outcome.1.map wrap, outcome.2)

def perform (now : Instant) (db : Db) (s : SessionUser) (entry : DiaryEntryId) (note : DiaryNoteId) :
    NoteRequest → Outcome NoteReply
  | .updateNote input => reply .note (updateNote db s entry note input)
  | .setNoteActionStatus status => reply .note (setNoteActionStatus db s entry note status)
  | .setNoteArchived archived => reply .note (setNoteArchived db s entry note archived)
  | .deleteNote => reply (fun _ => .deleted) (deleteNote db s entry note)
  | .comments => reply .comments (comments db s entry note)
  | .addComment content => reply .comment (addComment db s now entry note content)

end DiaryService
