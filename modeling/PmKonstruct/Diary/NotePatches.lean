import PmKonstruct.Email.Colleagues
import PmKonstruct.Library.PatchBody

/- `PATCH /{id}/notes/{note_id}`. The body is the one that adds a note: a category that is left out is general, and a
   category the client cannot send has been shown as general. -/
namespace NotePatches
open PlainText DomainErrors Accounts Schema KeyedTable Requests DiaryStore PatchBody
open Colleagues (NoteCategory.asStr)
open AuthService (SessionUser)

def NoteCategory.parse (s : Text) : Option NoteCategory :=
  if s = text "general" then some .general
  else if s = text "client" then some .client
  else if s = text "trades" then some .trades
  else if s = text "site_conditions" then some .siteConditions
  else if s = text "issues" then some .issues
  else if s = text "safety" then some .safety
  else if s = text "materials" then some .materials
  else if s = text "eto" then some .eto
  else none

def NoteCategory.all : String := "general, client, trades, site_conditions, issues, safety, materials, eto"

def ActionStatus.parse (s : Text) : Option ActionStatus :=
  if s = text "action" then some .action
  else if s = text "processing" then some .processing
  else if s = text "completed" then some .completed
  else none

def ActionStatus.asStr : ActionStatus → Text
  | .action => text "action"
  | .processing => text "processing"
  | .completed => text "completed"

def parseAction (raw : Option Text) : Except DomainError (Option ActionStatus) :=
  match raw with
  | none => .ok none
  | some s =>
    if s = [] then .ok none
    else
      match ActionStatus.parse s with
      | none => .error (.invalid "actionStatus" "must be one of action, processing, completed")
      | some status => .ok (some status)

structure DiaryNoteRequest where
  category : Option Text
  content : Text
  actionStatus : Option Text
  sortOrder : Option Int
  deriving DecidableEq, Repr

def parseCategory (raw : Option Text) : Except DomainError NoteCategory :=
  match raw with
  | none => .ok .general
  | some c =>
    if c = [] then .ok .general
    else
      match NoteCategory.parse c with
      | none => .error (.invalid "category" ("must be one of " ++ NoteCategory.all))
      | some category => .ok category

def DiaryNoteRequest.intoInput (req : DiaryNoteRequest) : Except DomainError DiaryNoteInput :=
  match parseCategory req.category with
  | .error e => .error e
  | .ok category =>
    match parseAction req.actionStatus with
    | .error e => .error e
    | .ok actionStatus => .ok ⟨category, req.content, actionStatus, req.sortOrder⟩

structure DiaryNoteDto where
  id : DiaryNoteId
  diaryEntryId : DiaryEntryId
  category : Text
  content : Text
  actionStatus : Option Text
  actionRaisedBy : Option UserId
  sortOrder : Int
  archived : Bool
  createdAt : Instant
  deriving DecidableEq, Repr

def DiaryNoteDto.from (note : DiaryNote) : DiaryNoteDto :=
  ⟨note.id, note.diaryEntryId, NoteCategory.asStr note.category, note.content, note.actionStatus.map ActionStatus.asStr,
    note.actionRaisedBy, note.sortOrder, note.archived, note.createdAt⟩

/- The body key by key. The content is always there. -/

structure NoteBody where
  category : Sent Text
  content : Text
  actionStatus : Sent Text
  sortOrder : Sent Int

def NoteBody.read (body : NoteBody) : DiaryNoteRequest :=
  ⟨body.category.single, body.content, body.actionStatus.single, body.sortOrder.single⟩

def patchNote (db : Db) (s : SessionUser) (entry : DiaryEntryId) (note : DiaryNoteId) (body : NoteBody) :
    Outcome DiaryNoteDto :=
  attempt db (inDomain body.read.intoInput) fun input =>
    let (result, after) := DiaryService.updateNote db s entry note input
    (result.map DiaryNoteDto.from, after)

/- A note as the fields a body may name. -/

inductive NoteField where
  | category
  | content
  | actionStatus
  | sortOrder
  deriving DecidableEq, Repr

abbrev NoteField.Value : NoteField → Type
  | .category => StoredCategory
  | .content => Text
  | .actionStatus => Option ActionStatus
  | .sortOrder => Int

abbrev NoteField.Given : NoteField → Type
  | .category | .content | .actionStatus => Text
  | .sortOrder => Int

def NoteBody.sent (body : NoteBody) : ∀ f : NoteField, Sent f.Given
  | .category => body.category
  | .content => .value body.content
  | .actionStatus => body.actionStatus
  | .sortOrder => body.sortOrder

def fieldsOf (row : DiaryNoteRow) : ∀ f : NoteField, f.Value
  | .category => row.category
  | .content => row.content
  | .actionStatus => row.actionStatus
  | .sortOrder => row.sortOrder

def normalise : ∀ f : NoteField, f.Given → Option f.Value
  | .category, word => (NoteCategory.parse word).map .listed
  | .content, t => some t
  | .actionStatus, word => if word = [] then some none else (ActionStatus.parse word).map some
  | .sortOrder, order => some order

def cleared : ∀ f : NoteField, Option f.Value
  | .actionStatus => some none
  | .category | .content | .sortOrder => none

def blankWord : ∀ f : NoteField, f.Given → Bool
  | .category, word => word = []
  | _, _ => false

def naming : Naming NoteField NoteField.Given NoteField.Value where
  normalise := normalise
  cleared := cleared
  blank := blankWord
  blank_none := by
    intro f g blank
    cases f with
    | category =>
      have empty : g = [] := by simpa [blankWord] using blank
      rw [empty]
      decide
    | _ => cases blank

def sentOption {α : Type} : Option α → Sent α
  | none => .null
  | some v => .value v

/-- The body sends nothing but what the API returned for the note. -/
def NoteBody.Echoes (body : NoteBody) (note : DiaryNoteDto) : Prop :=
  (body.category = .absent ∨ body.category = .value note.category) ∧ body.content = note.content ∧
  (body.actionStatus = .absent ∨ body.actionStatus = sentOption note.actionStatus) ∧
  (body.sortOrder = .absent ∨ body.sortOrder = .value note.sortOrder)

/-- Every field is as the body says, and a note sent back as it was returned is as it was. -/
def PartialUpdate (body : NoteBody) (before after : DiaryNoteRow) : Prop :=
  (∀ f, naming.Patched body.sent (fieldsOf before) (fieldsOf after) f) ∧
  (body.Echoes (.from (noteOfRow before)) → after = before)

/-- The category is named or was general, no other action status is named than the note has, and a note of an inspection is
    not sent back as it was returned. -/
structure NoteBody.Harmless (body : NoteBody) (before : DiaryNoteRow) : Prop where
  category : (∃ word, body.category = .value word ∧ word ≠ []) ∨ before.category = .listed .general
  action : ∀ status, naming.named body.sent .actionStatus = some status → status = before.actionStatus
  echo : before.category = .propertyInspection → ¬ body.Echoes (.from (noteOfRow before))

/- What the write leaves of the row. -/

theorem parse_asStr (category : NoteCategory) : NoteCategory.parse (NoteCategory.asStr category) = some category := by
  cases category <;> decide

theorem asStr_nonempty (category : NoteCategory) : NoteCategory.asStr category ≠ [] := by
  cases category <;> decide

/-- The category that is stored: the one named, else general. -/
theorem parseCategory_cases {sent : Sent Text} {category : NoteCategory} (read : parseCategory sent.single = .ok category) :
    (∃ word, sent = .value word ∧ word ≠ [] ∧ NoteCategory.parse word = some category) ∨
    ((∀ word, sent = .value word → word = []) ∧ category = .general) := by
  cases sent with
  | absent =>
    cases read
    exact .inr ⟨by simp, rfl⟩
  | null =>
    cases read
    exact .inr ⟨by simp, rfl⟩
  | value word =>
    simp only [Sent.single, parseCategory] at read
    by_cases blank : word = []
    · simp only [blank, if_true] at read
      cases read
      exact .inr ⟨by simp [blank], rfl⟩
    · simp only [blank, if_false] at read
      cases parsed : NoteCategory.parse word with
      | none => simp [parsed] at read
      | some named =>
        simp only [parsed] at read
        cases read
        exact .inl ⟨word, rfl, blank, parsed⟩

/-- An action status that is sent names one, or none. -/
theorem parseAction_named {body : NoteBody} {status : Option ActionStatus}
    (read : parseAction body.actionStatus.single = .ok status) :
    body.actionStatus = .absent ∨ naming.named body.sent .actionStatus = some status := by
  cases sent : body.actionStatus with
  | absent => exact .inl rfl
  | null =>
    rw [sent] at read
    cases read
    simp [Naming.named, NoteBody.sent, sent, naming, cleared]
  | value word =>
    rw [sent] at read
    simp only [Sent.single, parseAction] at read
    by_cases blank : word = []
    · simp only [blank, if_true] at read
      cases read
      simp [Naming.named, NoteBody.sent, sent, naming, normalise, blank]
    · simp only [blank, if_false] at read
      cases parsed : ActionStatus.parse word with
      | none => simp [parsed] at read
      | some named =>
        simp only [parsed] at read
        cases read
        simp [Naming.named, NoteBody.sent, sent, naming, normalise, blank, parsed]

def rewritten (input : DiaryNoteInput) (row : DiaryNoteRow) : DiaryNoteRow :=
  { row with
    category := .listed input.category
    content := input.content
    sortOrder := input.sortOrder.getD row.sortOrder }

theorem intoInput_ok {req : DiaryNoteRequest} {input : DiaryNoteInput} (read : req.intoInput = .ok input) :
    parseCategory req.category = .ok input.category ∧ input.content = req.content ∧
      parseAction req.actionStatus = .ok input.actionStatus ∧ input.sortOrder = req.sortOrder := by
  unfold DiaryNoteRequest.intoInput at read
  split at read
  · cases read
  · next category named =>
    split at read
    · cases read
    · next status stated =>
      cases read
      exact ⟨named, rfl, stated, rfl⟩

theorem category_echoed {body : NoteBody} {input : DiaryNoteInput} {before : DiaryNoteRow} {category : NoteCategory}
    (stored : before.category = .listed category)
    (echoed : body.category = .absent ∨ body.category = .value (NoteCategory.asStr category))
    (patched : naming.Patched body.sent (fieldsOf before) (fieldsOf (rewritten input before)) .category) :
    StoredCategory.listed input.category = before.category := by
  rcases echoed with sent | sent
  · simpa [Naming.Patched, NoteBody.sent, sent, fieldsOf, rewritten] using patched
  · have named : category = input.category := by
      simpa [Naming.Patched, NoteBody.sent, sent, naming, blankWord, asStr_nonempty, normalise, parse_asStr, fieldsOf,
        rewritten] using patched
    rw [stored, named]

section Fields
variable {body : NoteBody} {input : DiaryNoteInput} {before : DiaryNoteRow} (read : body.read.intoInput = .ok input)
include read

theorem content_patched : naming.Patched body.sent (fieldsOf before) (fieldsOf (rewritten input before)) .content := by
  have given : input.content = body.content := (intoInput_ok read).2.1
  simp [Naming.Patched, NoteBody.sent, fieldsOf, rewritten, naming, normalise, blankWord, given]

theorem sortOrder_patched :
    naming.Patched body.sent (fieldsOf before) (fieldsOf (rewritten input before)) .sortOrder := by
  have given : input.sortOrder = body.sortOrder.single := (intoInput_ok read).2.2.2
  cases sent : body.sortOrder <;>
    simp [Naming.Patched, NoteBody.sent, fieldsOf, rewritten, naming, normalise, cleared, blankWord, given, sent, Sent.single]

theorem category_patched_iff :
    naming.Patched body.sent (fieldsOf before) (fieldsOf (rewritten input before)) .category ↔
      (∃ word, body.category = .value word ∧ word ≠ []) ∨ before.category = .listed .general := by
  rcases parseCategory_cases (intoInput_ok read).1 with ⟨word, sent, nonempty, parsed⟩ | ⟨blank, general⟩
  · replace sent : body.category = .value word := sent
    simp [Naming.Patched, NoteBody.sent, sent, naming, blankWord, nonempty, normalise, parsed, fieldsOf, rewritten]
  · replace blank : ∀ word, body.category = .value word → word = [] := blank
    have unnamed : ¬ ∃ word, body.category = .value word ∧ word ≠ [] := by
      rintro ⟨word, sent, nonempty⟩
      exact nonempty (blank word sent)
    have patched : naming.Patched body.sent (fieldsOf before) (fieldsOf (rewritten input before)) .category ↔
        StoredCategory.listed input.category = before.category := by
      cases sent : body.category with
      | absent => simp [Naming.Patched, NoteBody.sent, sent, fieldsOf, rewritten]
      | null => simp [Naming.Patched, NoteBody.sent, sent, naming, cleared, fieldsOf, rewritten]
      | value word => simp [Naming.Patched, NoteBody.sent, sent, naming, blankWord, blank word sent, fieldsOf, rewritten]
    rw [patched, general, or_iff_right unnamed, eq_comm]

theorem action_patched_iff :
    naming.Patched body.sent (fieldsOf before) (fieldsOf (rewritten input before)) .actionStatus ↔
      ∀ status, naming.named body.sent .actionStatus = some status → status = before.actionStatus := by
  rcases parseAction_named (intoInput_ok read).2.2.1 with absent | named
  · simp [Naming.Patched, Naming.named, NoteBody.sent, absent, fieldsOf, rewritten]
  · cases sent : body.actionStatus with
    | absent => simp [Naming.Patched, Naming.named, NoteBody.sent, sent, fieldsOf, rewritten]
    | null =>
      simp [Naming.Patched, Naming.named, NoteBody.sent, sent, naming, cleared, fieldsOf, rewritten, eq_comm]
    | value word =>
      have reads : normalise .actionStatus word = some input.actionStatus := by
        simpa [Naming.named, NoteBody.sent, sent, naming] using named
      simp [Naming.Patched, Naming.named, NoteBody.sent, sent, naming, blankWord, reads, fieldsOf, rewritten]

/-- A note is changed as the body says exactly when the body is harmless to it. -/
theorem partialUpdate_iff : PartialUpdate body before (rewritten input before) ↔ body.Harmless before := by
  constructor
  · rintro ⟨patched, echo⟩
    refine ⟨(category_patched_iff read).mp (patched .category), (action_patched_iff read).mp (patched .actionStatus), ?_⟩
    intro inspection echoes
    have same : StoredCategory.listed input.category = before.category := congrArg DiaryNoteRow.category (echo echoes)
    rw [inspection] at same
    cases same
  · intro harmless
    constructor
    · intro f
      cases f with
      | category => exact (category_patched_iff read).mpr harmless.category
      | content => exact content_patched read
      | actionStatus => exact (action_patched_iff read).mpr harmless.action
      | sortOrder => exact sortOrder_patched read
    · intro echoes
      have patched := (category_patched_iff read).mpr harmless.category
      have category : StoredCategory.listed input.category = before.category := by
        cases stored : before.category with
        | propertyInspection => exact absurd echoes (harmless.echo stored)
        | listed category =>
          have echoed := echoes.1
          simp only [DiaryNoteDto.from, noteOfRow, stored, StoredCategory.toDomain] at echoed
          rw [← stored]
          exact category_echoed stored echoed patched
      have content : input.content = before.content := (intoInput_ok read).2.1.trans echoes.2.1
      have order : input.sortOrder.getD before.sortOrder = before.sortOrder := by
        have given : input.sortOrder = body.sortOrder.single := (intoInput_ok read).2.2.2
        rcases echoes.2.2.2 with sent | sent <;> simp [given, sent, Sent.single, DiaryNoteDto.from, noteOfRow]
      rw [rewritten, category, content, order]

end Fields

theorem orNotFound_ok {α : Type} {entity : String} {outcome : Outcome (Option α)} {value : α} {after : Db}
    (served : orNotFound entity outcome = (.ok value, after)) : outcome = (.ok (some value), after) := by
  obtain ⟨result, store⟩ := outcome
  cases result with
  | error e => cases served
  | ok found =>
    cases found with
    | none => cases served
    | some found =>
      cases served
      rfl

theorem updateNote_replaces {db after : Db} {s : SessionUser} {entry : DiaryEntryId} {note : DiaryNoteId}
    {input : DiaryNoteInput} {value : DiaryNote}
    (served : DiaryService.updateNote db s entry note input = (.ok value, after)) :
    ∃ before, Replaces db.diaryNotes after.diaryNotes note before (rewritten input before) := by
  obtain ⟨_, -, served⟩ := attempt_ok served
  obtain ⟨_, -, served⟩ := attempt_ok served
  have written : DiaryStore.updateNote db s.principal.companyId note input = (some value, after) :=
    Except.ok.inj (committed_ok (orNotFound_ok served))
  obtain ⟨row, updated, -⟩ := Option.map_eq_some_iff.mp (congrArg Prod.fst written)
  obtain ⟨before, replaces, rfl⟩ := Table.updateAt_replaces updated
  obtain rfl : (DiaryStore.updateNote db s.principal.companyId note input).2 = after := congrArg Prod.snd written
  exact ⟨before, replaces⟩

/-- A `PATCH` that succeeds rewrites one note and no other. It is the partial update its body asks for exactly when the body
    is harmless to the note. -/
theorem note_patched_iff {db after : Db} {s : SessionUser} {entry : DiaryEntryId} {note : DiaryNoteId} {body : NoteBody}
    {dto : DiaryNoteDto} (served : patchNote db s entry note body = (.ok dto, after)) :
    ∃ before row, Replaces db.diaryNotes after.diaryNotes note before row ∧ row.diaryEntryId = before.diaryEntryId ∧
      row.actionRaisedBy = before.actionRaisedBy ∧ row.archived = before.archived ∧ row.createdAt = before.createdAt ∧
      (PartialUpdate body before row ↔ body.Harmless before) := by
  obtain ⟨input, read, served⟩ := attempt_ok served
  cases updated : DiaryService.updateNote db s entry note input with
  | mk result store =>
    rw [updated] at served
    cases result with
    | error e => cases served
    | ok value =>
      cases served
      obtain ⟨before, replaces⟩ := updateNote_replaces updated
      exact ⟨before, rewritten input before, replaces, rfl, rfl, rfl, rfl, partialUpdate_iff (inDomain_ok read)⟩

/- A note on safety gets a new text. Its category is not sent. -/

def sarah : SessionUser where
  user := ⟨7, 1, text "Sarah", text "sarah@example.com", .manager, none, true, none⟩
  principal := ⟨7, 1, .manager⟩
  permissions := []
  entitlement := ⟨true, true, true, none⟩

def siteNotes : Db :=
  { Db.empty with
    jobs := Table.empty.put ⟨1, 1, [], text "J1", text "Smith", none, none, text "1 St", .active, none, none, none, none,
      none, none, none, none, none, 0, 0⟩
    siteDiary := Table.empty.put ⟨2, 1, none, 0, [], none, none⟩
    diaryNotes := Table.empty.put ⟨3, 2, .listed .safety, text "Edge open", none, none, 0, false, 0⟩ }

def onlyContent (content : Text) : NoteBody := ⟨.absent, content, .absent, .absent⟩

def withCategory (category content : Text) : NoteBody := ⟨.value category, content, .absent, .absent⟩

theorem sample_patched_iff : ∃ dto after,
    patchNote siteNotes sarah 2 3 (withCategory (text "safety") (text "Edge closed")) = (.ok dto, after) ∧
    ∃ before row, Replaces siteNotes.diaryNotes after.diaryNotes 3 before row ∧ row.diaryEntryId = before.diaryEntryId ∧
      row.actionRaisedBy = before.actionRaisedBy ∧ row.archived = before.archived ∧ row.createdAt = before.createdAt ∧
      (PartialUpdate (withCategory (text "safety") (text "Edge closed")) before row ↔
        (withCategory (text "safety") (text "Edge closed")).Harmless before) := by
  have served : ∃ dto after,
      patchNote siteNotes sarah 2 3 (withCategory (text "safety") (text "Edge closed")) = (.ok dto, after) := ⟨_, _, rfl⟩
  obtain ⟨dto, after, served⟩ := served
  exact ⟨dto, after, served, note_patched_iff served⟩

theorem category_lost : ∃ dto after,
    patchNote siteNotes sarah 2 3 (onlyContent (text "Edge closed")) = (.ok dto, after) ∧
    ∀ before row, Replaces siteNotes.diaryNotes after.diaryNotes 3 before row →
      ¬ PartialUpdate (onlyContent (text "Edge closed")) before row := by
  refine ⟨_, _, rfl, fun before row replaces partialUpdate => ?_⟩
  have kept : row.category = before.category := partialUpdate.1 .category
  obtain ⟨was, is, -⟩ := replaces
  cases was
  cases is
  cases kept

end NotePatches
