import PmKonstruct.Diary.NoteIsolation
import PmKonstruct.Forms.DraftTables
import PmKonstruct.Library.TransitionRuns

/- The diary's copy of an inspection. A save writes it; attaching a photo or deleting one changes what it is
   rendered from and leaves it as it was. -/
namespace InspectionRendering
open PlainText DomainErrors Accounts CalendarDate Schema KeyedTable RowSecurity Requests TransitionRuns RowOrder
open DeletionQueue InspectionStore InspectionService InspectionNote Upload DraftTables
open AuthService (SessionUser)

section Reading
variable (db : Db) (form : InspectionFormRow)

/-- The draft as it is stored, its items in the order in which they are read. -/
def storedDraft : InspectionDraftInput :=
  ⟨form.inspector, form.inspectionType, form.stage, form.observations, form.weatherData, form.revision,
    (itemsOf db form.companyId form.id).map fun i => ⟨i.clientKey, i.room, i.description, i.actioned, some i.sortOrder⟩⟩

def storedCounts : Text → Nat := photoCounts db form.companyId form.id

def storedStatus : Option Schema.ActionStatus :=
  (inspectionActionStatus (storedDraft db form).retained (storedCounts db form)).map asStr

/-- The note of the form is the rendering of what is stored, and its flag and the entry's flag are too. -/
structure NoteMatches : Prop where
  content : db.diaryNotes.Has DiaryNoteRow.content form.diaryNoteId
    (inspectionNote (storedDraft db form) form.inspectionDate (storedCounts db form))
  noteStatus : db.diaryNotes.Has DiaryNoteRow.actionStatus form.diaryNoteId (storedStatus db form)
  entryStatus : db.siteDiary.Has SiteDiaryRow.actionStatus form.diaryEntryId (storedStatus db form)

end Reading

inductive Call where
  | getOrCreateDraft (job : JobId)
  | saveDraft (id : InspectionFormId) (input : InspectionDraftInput)
  | attachPhotos (id : InspectionFormId) (clientKey : Text) (expected : Int) (uploads : List InspectionPhotoUpload)
  | deletePhoto (id : InspectionFormId) (expected photo : Int)
  deriving DecidableEq, Repr

structure Request where
  now : Instant
  today : Date
  storage : ObjectStore
  session : SessionUser
  call : Call

/-- The store, and the forms whose photos were changed after they were saved last. -/
structure State where
  db : Db
  photosChanged : List InspectionFormId

def serve (state : State) (r : Request) : State :=
  match r.call with
  | .getOrCreateDraft job =>
    ⟨(getOrCreateDraft state.db r.session r.now job r.today (emptyNote r.today)).2, state.photosChanged⟩
  | .saveDraft id input =>
    match saveDraft state.db r.session r.now id input with
    | (.ok _, after) => ⟨after, state.photosChanged.filter (· ≠ id)⟩
    | (.error _, after) => ⟨after, state.photosChanged⟩
  | .attachPhotos id clientKey expected uploads =>
    match attachPhotos state.db r.session r.storage r.now id clientKey expected uploads with
    | (.ok _, after) => ⟨after, id :: state.photosChanged⟩
    | (.error _, after) => ⟨after, state.photosChanged⟩
  | .deletePhoto id expected photo =>
    match deletePhoto state.db r.session r.now id expected photo with
    | (.ok _, after) => ⟨after, id :: state.photosChanged⟩
    | (.error _, after) => ⟨after, state.photosChanged⟩

/-- The save gets past every check that comes before the write. -/
def saves (db : Db) (s : SessionUser) (id : InspectionFormId) (input : InspectionDraftInput) : Bool :=
  input.validate.isOk && (findDraft db s id).toOption.any (·.form.revision = input.revision)

/-- A draft is saved with its items in the order in which they will be read. -/
def savedInOrder (state : State) (r : Request) : Bool :=
  match r.call with
  | .saveDraft id input => !saves state.db r.session id input || decide
      ((proposedItems input.retained).Pairwise fun a b => sentBefore id state.db.inspectionFormItems a b = true)
  | _ => true

/-- Drafts under any sessions, from a store in which none was started yet. -/
def drafts (allowed : State → Request → Bool) : Machine State Request where
  initial state := state.db.inspectionForms.rows = [] ∧ state.db.inspectionFormItems.rows = [] ∧
    state.db.inspectionFormMedia.rows = [] ∧ state.photosChanged = []
  step state r := some (serve state r)
  allowed := allowed

section Renderings
variable {db after : Db} {f : InspectionFormRow} {form : InspectionFormId} {key : Text}

/-- The photos of the item that a form has under a key. -/
def linkCount (db : Db) (form : InspectionFormId) (key : Text) : Nat :=
  (db.inspectionFormMedia.select fun m =>
    m.formId = form && (db.inspectionFormItems.find m.itemId).any (holdsKey form key)).length

def checklist (db : Db) (form : InspectionFormId) : List InspectionFormItemRow :=
  (db.inspectionFormItems.select (·.formId = form)).insertionSort listedBefore

def inputOf (row : InspectionFormItemRow) : InspectionItemInput :=
  ⟨row.clientKey, row.room, row.description, row.actioned, some row.sortOrder⟩

theorem form_inScope (member : f ∈ db.inspectionForms.rows) : formInScope db f.companyId f.id = true := by
  have found : db.inspectionForms.find f.id = some f := Table.find_eq_some_iff.mpr ⟨member, rfl⟩
  simp [formInScope, found]

theorem storedDraft_items (member : f ∈ db.inspectionForms.rows) :
    (storedDraft db f).items = (checklist db f.id).map inputOf := by
  have rows : (db.inspectionFormItems.select fun i => i.formId = f.id && formInScope db f.companyId i.formId) =
      db.inspectionFormItems.select (·.formId = f.id) := by
    refine List.filter_congr fun i _ => ?_
    by_cases same : i.formId = f.id
    · rw [same, form_inScope member, Bool.and_true]
    · simp [same]
  simp only [storedDraft, itemsOf, rows, List.map_map]
  rfl

theorem any_of_has {t : Table InspectionFormItemRow} {id : Int} {a : InspectionFormId × Text} (has : t.Has owner id a) :
    (t.find id).any (holdsKey form key) = decide (a = (form, key)) := by
  obtain ⟨row, found, same⟩ := has
  rw [found, Option.any_some, ← same]
  exact Bool.eq_iff_iff.mpr (holdsKey_iff.trans decide_eq_true_iff.symm)

theorem storedCounts_eq (linked : Linked db) (member : f ∈ db.inspectionForms.rows) :
    storedCounts db f key = linkCount db f.id key := by
  refine congrArg List.length (List.filter_congr fun m there => ?_)
  by_cases same : m.formId = f.id
  · obtain ⟨item, found, belongs⟩ := linked.linkItem m there
    have visible := form_inScope member
    simp [same, found, holdsKey, belongs, visible]
  · simp [same]

/-- What the rendering of a form reads, and what it is compared with, did not change. -/
structure SameDraft (db after : Db) (f : InspectionFormRow) : Prop where
  items : after.inspectionFormItems.select (·.formId = f.id) = db.inspectionFormItems.select (·.formId = f.id)
  counts : ∀ key, linkCount after f.id key = linkCount db f.id key
  note : after.diaryNotes.find f.diaryNoteId = db.diaryNotes.find f.diaryNoteId
  entry : after.siteDiary.find f.diaryEntryId = db.siteDiary.find f.diaryEntryId

theorem NoteMatches.frame (agrees : NoteMatches db f) (linked : Linked db) (linkedAfter : Linked after)
    (member : f ∈ db.inspectionForms.rows) (still : f ∈ after.inspectionForms.rows) (same : SameDraft db after f) :
    NoteMatches after f := by
  have items : (storedDraft after f).items = (storedDraft db f).items := by
    rw [storedDraft_items member, storedDraft_items still, checklist, checklist, same.items]
  have draft : storedDraft after f = storedDraft db f := by
    unfold storedDraft at items ⊢
    simp only at items
    rw [items]
  have counts : storedCounts after f = storedCounts db f := by
    funext key
    rw [storedCounts_eq linked member, storedCounts_eq linkedAfter still, same.counts]
  have status : storedStatus after f = storedStatus db f := by
    unfold storedStatus
    rw [draft, counts]
  constructor
  · rw [draft, counts, Table.Has, same.note]
    exact agrees.content
  · rw [status, Table.Has, same.note]
    exact agrees.noteStatus
  · rw [status, Table.Has, same.entry]
    exact agrees.entryStatus

/-- Every stored item has a key, so none is left out of the rendering. -/
theorem storedDraft_retained (linked : Linked db) (member : f ∈ db.inspectionForms.rows) :
    (storedDraft db f).retained = (checklist db f.id).map inputOf := by
  rw [← storedDraft_items member]
  refine List.filter_eq_self.mpr fun item among => ?_
  rw [storedDraft_items member] at among
  obtain ⟨row, listed, rfl⟩ := List.mem_map.mp among
  have stored := (Table.mem_select.mp ((List.mem_insertionSort _).mp listed)).1
  obtain ⟨filled, trimmed⟩ := linked.itemKey row stored
  exact decide_eq_true (by rw [inputOf, trimmed]; exact filled)

end Renderings

/- A new draft. -/

section Starting
variable {db : Db} {scope : CompanyId} {now : Instant} {job : JobId} {user : UserId} {date : Date} {content : Text}
    {f : InspectionFormRow}

theorem started_same (linked : Linked db) (member : f ∈ db.inspectionForms.rows) :
    SameDraft db (startedDb db scope now job user date content) f where
  items := rfl
  counts := fun _ => rfl
  note := startedNotes_find (linked.forms f member).2.2.isSome
  entry := startedEntries_find (linked.forms f member).2.1.isSome

theorem unstarted_item (linked : Linked db) {i : InspectionFormItemRow} (member : i ∈ db.inspectionFormItems.rows) :
    i.formId ≠ db.inspectionForms.serial := by
  obtain ⟨row, found⟩ := Option.isSome_iff_exists.mp (linked.itemForm i member)
  obtain ⟨stored, same⟩ := Table.find_eq_some_iff.mp found
  have below := db.inspectionForms.below row stored
  exact Int.ne_of_lt (same ▸ below)

theorem unstarted_checklist (linked : Linked db) : checklist db db.inspectionForms.serial = [] := by
  have unselected : db.inspectionFormItems.select (·.formId = db.inspectionForms.serial) = [] := by
    refine List.filter_eq_nil_iff.mpr fun i there => ?_
    simpa using unstarted_item linked there
  rw [checklist, unselected]
  rfl

theorem started_matches (linked : Linked db) (visible : jobInScope db scope job = true) (empty : content = emptyNote date) :
    NoteMatches (startedDb db scope now job user date content)
      (draftForm scope now job user db.siteDiary.serial db.diaryNotes.serial date db.inspectionForms.serial) := by
  have linkedAfter : Linked (startedDb db scope now job user date content) := linked.start visible
  have member : draftForm scope now job user db.siteDiary.serial db.diaryNotes.serial date db.inspectionForms.serial ∈
      (startedForms db scope now job user date).rows := mem_startedForms.mpr (.inr rfl)
  have retained : (storedDraft (startedDb db scope now job user date content)
      (draftForm scope now job user db.siteDiary.serial db.diaryNotes.serial date db.inspectionForms.serial)).retained =
      [] := (storedDraft_retained linkedAfter member).trans (congrArg (List.map inputOf) (unstarted_checklist linked))
  have note : ∀ counts, inspectionNote (storedDraft (startedDb db scope now job user date content)
      (draftForm scope now job user db.siteDiary.serial db.diaryNotes.serial date db.inspectionForms.serial)) date counts =
      content := by
    intro counts
    unfold emptyNote at empty
    rw [empty]
    refine inspectionNote_of_shown rfl rfl rfl rfl ?_ ?_
    · rw [← empty, retained]
      rfl
    · rw [← empty, retained]
      exact fun _ absent => absurd absent List.not_mem_nil
  have status : storedStatus (startedDb db scope now job user date content)
      (draftForm scope now job user db.siteDiary.serial db.diaryNotes.serial date db.inspectionForms.serial) = none := by
    rw [storedStatus, retained]
    rfl
  constructor
  · exact (note _).symm ▸ startedNotes_has
  · exact status.symm ▸ startedNotes_has
  · exact status.symm ▸ startedEntries_has

end Starting

/- A save. -/

section Saving
variable {db : Db} {scope : CompanyId} {now : Instant} {form other : InspectionFormId} {user : UserId}
    {keys : List Text} {key : Text} {proposed : List ProposedItem} {m : InspectionFormMediaRow}

/-- Only a photo whose item was dropped loses its media. -/
theorem orphan_dropped (linked : Linked db) (member : m ∈ db.inspectionFormMedia.rows)
    (orphaned : m.diaryMediaId ∈ orphanedMedia db scope form keys) : onDropped db scope form keys m = true := by
  obtain ⟨first, selected, same⟩ := List.mem_map.mp orphaned
  obtain ⟨there, gone⟩ := Table.mem_select.mp selected
  rw [Bool.and_eq_true] at gone
  exact linked.linksApart first there m member same ▸ gone.1

theorem detached_mem {ids : List MediaId} (gone : (db.diaryMedia.find m.diaryMediaId).any
    (fun d => d.id ∈ ids && entryInScope db scope d.diaryEntryId) = true) : m.diaryMediaId ∈ ids := by
  obtain ⟨row, found, matched⟩ := (Option.any_eq_true _ _).mp gone
  rw [Bool.and_eq_true, decide_eq_true_eq] at matched
  exact (Table.find_eq_some_iff.mp found).2 ▸ matched.1

theorem dropped_other (gone : onDropped db scope form keys m = true) (kept : other ≠ form ∨ key ∈ keys) :
    (db.inspectionFormItems.find m.itemId).any (holdsKey other key) = false := by
  unfold onDropped at gone
  cases found : db.inspectionFormItems.find m.itemId with
  | none => rfl
  | some item =>
    rw [found, Option.any_some, dropped] at gone
    simp only [Bool.and_eq_true, decide_eq_true_eq] at gone
    refine Bool.eq_false_iff.mpr fun holds => ?_
    obtain ⟨same, alike⟩ := Prod.mk.inj (holdsKey_iff.mp holds)
    rcases kept with apart | sent
    · exact apart (same.symm.trans gone.1.1)
    · exact gone.1.2 (alike ▸ sent)

theorem writtenDb_items : (writtenDb db scope form proposed).inspectionFormItems =
    upsertItems form (db.inspectionFormItems.delete (dropped db scope form (proposed.map (·.clientKey)))) proposed := rfl

theorem writtenDb_links : (writtenDb db scope form proposed).inspectionFormMedia =
    (db.inspectionFormMedia.delete fun m => (db.diaryMedia.find m.diaryMediaId).any fun d =>
      d.id ∈ orphanedMedia db scope form (proposed.map (·.clientKey)) && entryInScope db scope d.diaryEntryId).delete
      (onDropped db scope form (proposed.map (·.clientKey))) := rfl

/-- A photo whose item was not dropped is on the item it was on. -/
theorem written_link (linked : Linked db) (member : m ∈ db.inspectionFormMedia.rows)
    (stays : onDropped db scope form (proposed.map (·.clientKey)) m = false) :
    ((writtenDb db scope form proposed).inspectionFormItems.find m.itemId).any (holdsKey other key) =
      (db.inspectionFormItems.find m.itemId).any (holdsKey other key) := by
  obtain ⟨own, has⟩ := has_owner (linked.linkItem m member)
  have still : (db.inspectionFormItems.delete (dropped db scope form (proposed.map (·.clientKey)))).Has owner m.itemId
      (m.formId, own) := has.delete stays
  rw [writtenDb_items, any_of_has (upsertItems_has still), any_of_has has]

theorem written_count (linked : Linked db) (kept : other ≠ form ∨ key ∈ proposed.map (·.clientKey)) :
    linkCount (writtenDb db scope form proposed) other key = linkCount db other key := by
  refine congrArg List.length ?_
  rw [writtenDb_links]
  have same : ∀ m ∈ ((db.inspectionFormMedia.delete fun m => (db.diaryMedia.find m.diaryMediaId).any fun d =>
      d.id ∈ orphanedMedia db scope form (proposed.map (·.clientKey)) && entryInScope db scope d.diaryEntryId).delete
      (onDropped db scope form (proposed.map (·.clientKey)))).rows,
      (decide (m.formId = other) &&
        ((writtenDb db scope form proposed).inspectionFormItems.find m.itemId).any (holdsKey other key)) =
      (decide (m.formId = other) && (db.inspectionFormItems.find m.itemId).any (holdsKey other key)) := by
    intro m member
    obtain ⟨before, stays⟩ := Table.mem_delete.mp member
    rw [written_link linked (Table.mem_delete.mp before).1 stays]
  refine (List.filter_congr same).trans ?_
  -- a photo that is not counted may go
  have uncounted : ∀ m ∈ db.inspectionFormMedia.rows,
      (decide (m.formId = other) && (db.inspectionFormItems.find m.itemId).any (holdsKey other key)) = true →
        onDropped db scope form (proposed.map (·.clientKey)) m = false := by
    intro m _ counted
    refine Bool.eq_false_iff.mpr fun gone => ?_
    rw [dropped_other gone kept, Bool.and_false] at counted
    cases counted
  refine Eq.trans (Table.select_delete_apart fun m member => uncounted m (Table.mem_delete.mp member).1) ?_
  refine Table.select_delete_apart fun m member counted => ?_
  refine Bool.eq_false_iff.mpr fun gone => ?_
  have away := orphan_dropped linked member (detached_mem gone)
  rw [uncounted m member counted] at away
  cases away

theorem upsertItems_select {t : Table InspectionFormItemRow} (apart : other ≠ form) :
    (upsertItems form t proposed).select (·.formId = other) = t.select (·.formId = other) := by
  induction proposed generalizing t with
  | nil => rfl
  | cons item rest ih =>
    refine ih.trans ?_
    unfold upsertItem
    split
    · refine Table.select_update fun row _ holds => ?_
      have belongs : row.formId = form := congrArg Prod.fst (holdsKey_iff.mp holds)
      simp [belongs, ProposedItem.row, apart.symm]
    · exact Table.select_insert (by simp [ProposedItem.row, apart.symm])

theorem written_items (apart : other ≠ form) : (writtenDb db scope form proposed).inspectionFormItems.select
    (·.formId = other) = db.inspectionFormItems.select (·.formId = other) := by
  rw [writtenDb_items, upsertItems_select apart]
  refine Table.select_delete_apart fun row _ belongs => ?_
  simp [dropped, of_decide_eq_true belongs, apart]

/-- The rows of the form are the rows of what was sent. -/
theorem written_row {row : InspectionFormItemRow} (visible : formInScope db scope form = true)
    (member : row ∈ (writtenDb db scope form proposed).inspectionFormItems.rows) (belongs : row.formId = form) :
    ∃ item ∈ proposed, row = item.row form row.id := by
  rw [writtenDb_items] at member
  rcases upsertItems_mem member with ⟨old, others⟩ | written
  · -- a row under a key that was not sent was dropped
    obtain ⟨-, stays⟩ := Table.mem_delete.mp old
    have unsent : row.clientKey ∉ proposed.map (·.clientKey) := by
      intro sent
      obtain ⟨item, among, same⟩ := List.mem_map.mp sent
      have holds := others item among
      simp [holdsKey, belongs, same] at holds
    simp [dropped, belongs, visible, unsent] at stays
  · exact written

/-- The checklist is read in the order in which it was sent. -/
theorem written_checklist (linked : Linked db) (visible : formInScope db scope form = true)
    (distinct : (proposed.map (·.clientKey)).Nodup)
    (sent : proposed.Pairwise fun a b => sentBefore form db.inspectionFormItems a b = true) :
    (checklist (writtenDb db scope form proposed) form).map proposalOf = proposed := by
  have kept : (db.inspectionFormItems.delete (dropped db scope form (proposed.map (·.clientKey)))).Unique owner :=
    linked.keysApart.delete
  have order : proposed.Pairwise fun a b => sentBefore form
      (db.inspectionFormItems.delete (dropped db scope form (proposed.map (·.clientKey)))) a b = true := by
    refine sent.imp_of_mem fun {a b} left _ before => sentBefore_congr ?_ ?_ before
    · intro row member _
      exact (Table.mem_delete.mp member).1
    · intro row member holds
      have key : row.clientKey = a.clientKey := congrArg Prod.snd (holdsKey_iff.mp holds)
      have among : row.clientKey ∈ proposed.map (·.clientKey) := key ▸ List.mem_map_of_mem left
      exact Table.mem_delete.mpr ⟨member, by simp [dropped, among]⟩
  obtain ⟨rows, written, facts, ordered⟩ := upsertItems_listed kept distinct order
  have keys : rows.map (·.clientKey) = proposed.map (·.clientKey) := by
    rw [← written, List.map_map]
    rfl
  have listed : checklist (writtenDb db scope form proposed) form = rows := by
    apply insertionSort_eq
    · intro a left b right before after
      exact Table.key_inj (Table.mem_select.mp left).1 (Table.mem_select.mp right).1 (listedBefore_antisymm before after)
    · exact Table.nodup_select
    · exact List.Nodup.of_map _ (keys ▸ distinct)
    · intro row
      rw [Table.mem_select, decide_eq_true_eq]
      constructor
      · intro member
        exact ⟨(facts row member).1, (facts row member).2.1⟩
      · intro ⟨member, belongs⟩
        obtain ⟨item, among, made⟩ := written_row visible member belongs
        rw [← written] at among
        obtain ⟨other, there, same⟩ := List.mem_map.mp among
        have key : row.clientKey = other.clientKey := by rw [made, ← same]; rfl
        have alike : owner row = owner other := Prod.ext (belongs.trans (facts other there).2.1.symm) key
        exact upsertItems_unique kept row member other (facts other there).1 alike ▸ there
    · exact ordered
  rw [listed, written]

/-- What a rendering reads of a proposal. -/
def shownProposal (item : ProposedItem) : InspectionItemInput :=
  ⟨trim item.clientKey, item.room, item.description, item.actioned, none⟩

theorem proposedItems_shown {items : List InspectionItemInput} :
    (proposedItems items).map shownProposal = items.map shown := by
  apply List.ext_getElem?
  intro index
  simp only [proposedItems, List.getElem?_map, List.getElem?_mapIdx, Option.map_map]
  congr 1
  funext item
  simp only [Function.comp_apply, shownProposal, trim_trim, shown]

variable {row f : InspectionFormRow} {input : InspectionDraftInput} {rendered : RenderedInspection}

theorem noted_has (owned : Owned db row) : ∃ note, (notedNotes db row.companyId row.diaryNoteId user rendered).find
    row.diaryNoteId = some note ∧ note.content = rendered.noteContent ∧ note.actionStatus = rendered.actionStatus := by
  obtain ⟨⟨job, jobFound, company⟩, ⟨entry, entryFound, inJob⟩, note, noteFound, inEntry⟩ := owned
  have visible : DiaryStore.noteVisible db row.companyId note = true := by
    simp [DiaryStore.noteVisible, entryInScope, jobInScope, inEntry, entryFound, inJob, jobFound, company]
  have id : note.id = row.diaryNoteId := (Table.find_eq_some_iff.mp noteFound).2
  unfold notedNotes
  rw [Table.find_update, noteFound, Option.map_some, if_pos (by simp [id, visible])]
  exact ⟨_, rfl, rfl, rfl⟩

theorem entered_has (owned : Owned db row) : ∃ entry, (enteredEntries db row.companyId row.diaryEntryId user rendered).find
    row.diaryEntryId = some entry ∧ entry.actionStatus = rendered.actionStatus := by
  obtain ⟨⟨job, jobFound, company⟩, ⟨entry, entryFound, inJob⟩, -⟩ := owned
  have visible : jobInScope db row.companyId entry.jobId = true := by simp [jobInScope, inJob, jobFound, company]
  have id : entry.id = row.diaryEntryId := (Table.find_eq_some_iff.mp entryFound).2
  unfold enteredEntries
  rw [Table.find_update, entryFound, Option.map_some, if_pos (by simp [id, visible])]
  exact ⟨_, rfl, rfl⟩

theorem noted_apart {note entry : Int} (apart : note ≠ row.diaryNoteId) (elsewhere : entry ≠ row.diaryEntryId) :
    (notedNotes db scope row.diaryNoteId user rendered).find note = db.diaryNotes.find note ∧
      (enteredEntries db scope row.diaryEntryId user rendered).find entry = db.siteDiary.find entry := by
  constructor
  · refine Table.find_update_apart fun n found => ?_
    have id : n.id = note := (Table.find_eq_some_iff.mp found).2
    simp [id, apart]
  · refine Table.find_update_apart fun e found => ?_
    have id : e.id = entry := (Table.find_eq_some_iff.mp found).2
    simp [id, elsewhere]

/-- A form whose note and entry are not written keeps its rendering. -/
theorem described_same (linked : Linked db) (there : row ∈ db.inspectionForms.rows) (member : f ∈ db.inspectionForms.rows)
    (apart : f.id ≠ row.id) : SameDraft db (describedDb db scope row user rendered) f := by
  have rows : f ≠ row := fun same => apart (congrArg InspectionFormRow.id same)
  have notes : f.diaryNoteId ≠ row.diaryNoteId := fun same => rows (linked.notesApart f member row there same)
  have entries : f.diaryEntryId ≠ row.diaryEntryId := fun same => rows (linked.entriesApart f member row there same)
  obtain ⟨note, entry⟩ := @noted_apart db scope user row rendered f.diaryNoteId f.diaryEntryId notes entries
  exact ⟨rfl, fun _ => rfl, note, entry⟩

theorem described_count : linkCount (describedDb db scope row user rendered) other key = linkCount db other key := rfl

theorem written_same (linked : Linked db) (apart : f.id ≠ form) : SameDraft db (writtenDb db scope form proposed) f where
  items := written_items apart
  counts := fun _ => written_count linked (.inl apart)
  note := rfl
  entry := rfl

/-- The items that were written show what the client sent. -/
theorem written_shown (linked : Linked db) (member : f ∈ db.inspectionForms.rows)
    (distinct : ((proposedItems input.retained).map (·.clientKey)).Nodup)
    (sent : (proposedItems input.retained).Pairwise fun a b => sentBefore f.id db.inspectionFormItems a b = true) :
    ((checklist (writtenDb db f.companyId f.id (proposedItems input.retained)) f.id).map inputOf).map shown =
      input.retained.map shown := by
  have visible : formInScope db f.companyId f.id = true := form_inScope member
  have listed := congrArg (List.map shownProposal) (written_checklist linked visible distinct sent)
  rw [proposedItems_shown] at listed
  rw [← listed, List.map_map, List.map_map]
  rfl

/-- The key of an item that was written is a key that was sent. -/
theorem written_key (member : f ∈ db.inspectionForms.rows)
    (linkedAfter : Linked (writtenDb db f.companyId f.id proposed)) {item : InspectionItemInput}
    (among : item ∈ (checklist (writtenDb db f.companyId f.id proposed) f.id).map inputOf) :
    trim item.clientKey ∈ proposed.map (·.clientKey) := by
  obtain ⟨row, listed, rfl⟩ := List.mem_map.mp among
  obtain ⟨stored, belongs⟩ := Table.mem_select.mp ((List.mem_insertionSort _).mp listed)
  obtain ⟨item, sent, made⟩ := written_row (form_inScope member) stored (of_decide_eq_true belongs)
  have trimmed : trim row.clientKey = row.clientKey := (linkedAfter.itemKey row stored).2
  have key : row.clientKey = item.clientKey := congrArg InspectionFormItemRow.clientKey made
  rw [inputOf, trimmed, key]
  exact List.mem_map_of_mem sent

/-- The form that was saved, once its own fields are written. -/
theorem described_matches {counts : Text → Nat} (linked : Linked db) (member : f ∈ db.inspectionForms.rows)
    (fields : writtenForm input f = f) (distinct : ((proposedItems input.retained).map (·.clientKey)).Nodup)
    (sent : (proposedItems input.retained).Pairwise fun a b => sentBefore f.id db.inspectionFormItems a b = true)
    (counted : ∀ key, counts key = linkCount db f.id key) :
    NoteMatches (describedDb (writtenDb db f.companyId f.id (proposedItems input.retained)) f.companyId f user
      (render input f.inspectionDate counts)) f := by
  have written : Linked (writtenDb db f.companyId f.id (proposedItems input.retained)) :=
    linked.write (Option.isSome_iff_exists.mpr ⟨f, Table.find_eq_some_iff.mpr ⟨member, rfl⟩⟩) fun _ => proposedItems_keys
  generalize after : describedDb (writtenDb db f.companyId f.id (proposedItems input.retained)) f.companyId f user
    (render input f.inspectionDate counts) = stored
  have described : Linked stored := after ▸ written.describe
  have still : f ∈ stored.inspectionForms.rows := after ▸ member
  have retained : (storedDraft stored f).retained =
      (checklist (writtenDb db f.companyId f.id (proposedItems input.retained)) f.id).map inputOf :=
    (storedDraft_retained described still).trans (after ▸ rfl)
  have same : (storedDraft stored f).retained.map shown = input.retained.map shown :=
    retained ▸ written_shown linked member distinct sent
  have agree : ∀ item ∈ (storedDraft stored f).retained,
      storedCounts stored f (trim item.clientKey) = counts (trim item.clientKey) := by
    intro item among
    rw [retained] at among
    have key := written_key member written among
    rw [storedCounts_eq described still, counted, ← after, described_count]
    exact written_count linked (.inr key)
  have note : inspectionNote (storedDraft stored f) f.inspectionDate (storedCounts stored f) =
      inspectionNote input f.inspectionDate counts := by
    refine inspectionNote_of_shown ?_ ?_ ?_ ?_ same agree
    · exact (congrArg InspectionFormRow.inspector fields).symm
    · exact (congrArg InspectionFormRow.inspectionType fields).symm
    · exact (congrArg InspectionFormRow.stage fields).symm
    · exact (congrArg InspectionFormRow.observations fields).symm
  have status : storedStatus stored f = (inspectionActionStatus input.retained counts).map asStr := by
    rw [storedStatus, actionStatus_of_filled (filledItems_same same agree)]
  obtain ⟨n, found, content, noteStatus⟩ := @noted_has (writtenDb db f.companyId f.id (proposedItems input.retained)) user f
    (render input f.inspectionDate counts) (linked.forms f member)
  obtain ⟨e, there, entryStatus⟩ := @entered_has (writtenDb db f.companyId f.id (proposedItems input.retained)) user f
    (render input f.inspectionDate counts) (linked.forms f member)
  constructor
  · rw [note, ← after]
    exact ⟨n, found, content⟩
  · rw [status, ← after]
    exact ⟨n, found, noteStatus⟩
  · rw [status, ← after]
    exact ⟨e, there, entryStatus⟩

end Saving

/- Photos. -/

section Photos
variable {db after : Db} {scope : CompanyId} {now : Instant} {form : InspectionFormId} {expected : Int}
    {f row : InspectionFormRow}

theorem SameDraft.trans {mid : Db} (first : SameDraft db mid f) (second : SameDraft mid after f) :
    SameDraft db after f where
  items := second.items.trans first.items
  counts := fun key => (second.counts key).trans (first.counts key)
  note := second.note.trans first.note
  entry := second.entry.trans first.entry

theorem claimed_same : SameDraft db (claimedDb db scope now form expected) f := ⟨rfl, fun _ => rfl, rfl, rfl⟩

theorem mem_claimed (member : f ∈ (claimedDb db scope now form expected).inspectionForms.rows) :
    f.id = form ∨ f ∈ db.inspectionForms.rows := by
  have updated : f ∈ (claimedForms db.inspectionForms scope now form expected).rows := member
  unfold claimedForms at updated
  obtain ⟨old, there, rfl⟩ := Table.mem_update.mp updated
  split
  · next matched =>
    rw [Bool.and_eq_true, decide_eq_true_eq] at matched
    exact .inl matched.1
  · exact .inr there

/-- Photos of another form. -/
theorem linked_same {photo : InspectionPhotoRecord} {item order : Int} (apart : f.id ≠ row.id) :
    SameDraft db (linkedDb db now row photo item order) f where
  items := rfl
  counts := by
    intro key
    refine congrArg List.length ?_
    exact Table.select_insert (by simp [apart.symm])
  note := rfl
  entry := rfl

theorem attachEach_same {photos : List InspectionPhotoRecord} (apart : f.id ≠ row.id)
    (done : attachEach scope now row db photos = .ok after) : SameDraft db after f := by
  induction photos generalizing db with
  | nil =>
    cases done
    exact ⟨rfl, fun _ => rfl, rfl, rfl⟩
  | cons photo rest ih =>
    rw [attachEach] at done
    split at done
    · cases done
    · next first =>
      obtain ⟨item, -, order, -, rfl⟩ := attachPhoto_ok first
      exact (linked_same apart).trans (ih done)

theorem detached_same {link : InspectionFormMediaRow} (linked : Linked db) (there : link ∈ db.inspectionFormMedia.rows)
    (apart : link.formId ≠ f.id) : SameDraft db (detachMedia db scope [link.diaryMediaId]) f where
  items := rfl
  counts := by
    intro key
    refine congrArg List.length (Table.select_delete_apart fun m member counted => ?_)
    refine Bool.eq_false_iff.mpr fun gone => ?_
    have media := List.mem_singleton.mp (detached_mem gone)
    have same := linked.linksApart m member link there media
    rw [Bool.and_eq_true, decide_eq_true_eq] at counted
    exact apart (same ▸ counted.1)
  note := rfl
  entry := rfl

end Photos

/- What one request did. -/

section Requests
variable {db after : Db} {s : SessionUser} {now : Instant} {storage : ObjectStore} {id : InspectionFormId}
    {result : Except AppError InspectionForm} {draft : InspectionForm}

theorem orStale_committed {returned : Except PortError (Option InspectionForm × Db)}
    (served : orStale (committed db returned) = (result, after)) :
    (∃ e, result = .error e ∧ (after = db ∨ returned = .ok (none, after))) ∨
      ∃ form, result = .ok form ∧ returned = .ok (some form, after) := by
  cases returned with
  | error e =>
    cases served
    exact .inl ⟨_, rfl, .inl rfl⟩
  | ok pair =>
    obtain ⟨found, store⟩ := pair
    cases found with
    | none =>
      cases served
      exact .inl ⟨_, rfl, .inr rfl⟩
    | some form =>
      cases served
      exact .inr ⟨form, rfl, rfl⟩

theorem saved_not_lost {input : InspectionDraftInput} {rendered : RenderedInspection}
    (loaded : load db s.principal.companyId id s.user.id = some draft)
    (same : after = savedDb db s.principal.companyId now draft.form s.user.id input rendered) :
    load after s.principal.companyId id s.user.id ≠ none := by
  obtain ⟨found, company, creator⟩ := load_some loaded
  have owned := @claimed_owner db s.principal.companyId now id draft.form.id s.user.id draft input.revision found company
    creator
  have written : ((claimedForms db.inspectionForms s.principal.companyId now draft.form.id input.revision).update
      (fun f => f.id = draft.form.id && f.companyId = s.principal.companyId) (writtenForm input) fun _ => rfl).Has
      (fun f => (f.companyId, f.createdBy)) id (s.principal.companyId, s.user.id) := owned.update fun _ => rfl
  have there : (load after s.principal.companyId id s.user.id).isSome = true := by
    apply load_there
    rw [same]
    exact written
  exact Option.isSome_iff_ne_none.mp there

theorem attachPhotos_served {clientKey : Text} {expected : Int} {uploads : List InspectionPhotoUpload}
    (served : attachPhotos db s storage now id clientKey expected uploads = (result, after)) :
    (∃ e, result = .error e ∧ after = db) ∨ (∃ form, result = .ok form) ∧ ∃ draft records,
      load db s.principal.companyId id s.user.id = some draft ∧
      attachEach s.principal.companyId now draft.form (claimedDb db s.principal.companyId now id expected) records =
        .ok after := by
  unfold InspectionService.attachPhotos at served
  rcases attempt_served served with ⟨e, failed⟩ | ⟨_, -, served⟩
  · exact .inl ⟨e, Prod.mk.inj failed⟩
  rcases attempt_served served with ⟨e, failed⟩ | ⟨draft, found, served⟩
  · exact .inl ⟨e, Prod.mk.inj failed⟩
  split at served
  · exact .inl ⟨_, (Prod.mk.inj served.symm)⟩
  rcases attempt_served served with ⟨e, failed⟩ | ⟨_, -, served⟩
  · exact .inl ⟨e, Prod.mk.inj failed⟩
  rcases attempt_served served with ⟨e, failed⟩ | ⟨records, -, served⟩
  · exact .inl ⟨e, Prod.mk.inj failed⟩
  rcases orStale_committed served with ⟨e, failed, same | lost⟩ | ⟨form, succeeded, returned⟩
  · exact .inl ⟨e, failed, same⟩
  · rcases attachPhotos_ok lost with ⟨-, same⟩ | ⟨draft, loaded, -, each, none⟩
    · exact .inl ⟨e, failed, same⟩
    · exact absurd none.symm (not_lost loaded (attachEach_forms each))
  · rcases attachPhotos_ok returned with ⟨none, -⟩ | ⟨draft, loaded, -, each, -⟩
    · cases none
    · exact .inr ⟨⟨form, succeeded⟩, draft, records, loaded, each⟩

theorem deletePhoto_served {expected photo : Int}
    (served : deletePhoto db s now id expected photo = (result, after)) :
    (∃ e, result = .error e ∧ after = db) ∨ (∃ form, result = .ok form) ∧
      ∃ link ∈ db.inspectionFormMedia.rows, link.formId = id ∧ after = detachMedia
        (claimedDb db s.principal.companyId now id expected) s.principal.companyId [link.diaryMediaId] := by
  unfold InspectionService.deletePhoto at served
  rcases attempt_served served with ⟨e, failed⟩ | ⟨draft, found, served⟩
  · exact .inl ⟨e, Prod.mk.inj failed⟩
  rcases orStale_committed served with ⟨e, failed, same | lost⟩ | ⟨form, succeeded, returned⟩
  · exact .inl ⟨e, failed, same⟩
  · rcases deletePhoto_ok lost with ⟨-, same⟩ | ⟨draft, loaded, -, link, -, -, rfl, none⟩
    · exact .inl ⟨e, failed, same⟩
    · exact absurd none.symm (not_lost loaded rfl)
  · rcases deletePhoto_ok returned with ⟨none, -⟩ | ⟨draft, loaded, -, link, there, belongs, same, -⟩
    · cases none
    · exact .inr ⟨⟨form, succeeded⟩, link, there, belongs, same⟩

theorem saveDraft_served {input : InspectionDraftInput} (served : saveDraft db s now id input = (result, after)) :
    (∃ e, result = .error e ∧ after = db) ∨ (∃ form, result = .ok form) ∧ ∃ draft,
      load db s.principal.companyId id s.user.id = some draft ∧ draft.form.revision = input.revision ∧
      saves db s id input = true ∧ ((proposedItems input.retained).map (·.clientKey)).Nodup ∧
      after = savedDb db s.principal.companyId now draft.form s.user.id input
        (render input draft.form.inspectionDate (photoCounts db s.principal.companyId id)) := by
  unfold InspectionService.saveDraft at served
  rcases attempt_served served with ⟨e, failed⟩ | ⟨_, valid, served⟩
  · exact .inl ⟨e, Prod.mk.inj failed⟩
  rcases attempt_served served with ⟨e, failed⟩ | ⟨draft, found, served⟩
  · exact .inl ⟨e, Prod.mk.inj failed⟩
  rcases orStale_committed served with ⟨e, failed, same | lost⟩ | ⟨form, succeeded, returned⟩
  · exact .inl ⟨e, failed, same⟩
  · rcases saveDraft_ok lost with ⟨-, same⟩ | ⟨draft, loaded, -, -, same, none⟩
    · exact .inl ⟨e, failed, same⟩
    · exact absurd none.symm (saved_not_lost loaded same)
  · rcases saveDraft_ok returned with ⟨none, -⟩ | ⟨other, loaded, revision, distinct, same, -⟩
    · cases none
    · rw [findDraft_load found] at loaded
      cases loaded
      have accepted : saves db s id input = true := by
        simp [saves, inDomain_ok valid, found, revision, Except.isOk, Except.toBool, Except.toOption]
      exact .inr ⟨⟨form, succeeded⟩, draft, findDraft_load found, revision, accepted, distinct, same⟩

end Requests

/- The run. -/

section Run
variable {db after : Db} {s : SessionUser} {now : Instant} {today : Date} {storage : ObjectStore} {user : UserId}
    {id : InspectionFormId} {state : State} {row f : InspectionFormRow} {input : InspectionDraftInput}
    {rendered : RenderedInspection}

/-- Every form's note is its rendering, but for the forms whose photos were changed since. -/
structure Settled (state : State) : Prop where
  linked : Linked state.db
  renders : ∀ f ∈ state.db.inspectionForms.rows, f.id ∉ state.photosChanged → NoteMatches state.db f

theorem mem_saved (there : row ∈ db.inspectionForms.rows) (revision : row.revision = input.revision)
    (member : f ∈ (savedDb db row.companyId now row user input rendered).inspectionForms.rows) :
    f = writtenForm input (nextRevision now row) ∨ f.id ≠ row.id ∧ f ∈ db.inspectionForms.rows := by
  have updated : f ∈ ((claimedForms db.inspectionForms row.companyId now row.id input.revision).update
      (fun f => f.id = row.id && f.companyId = row.companyId) (writtenForm input) fun _ => rfl).rows := member
  unfold claimedForms at updated
  obtain ⟨claimed, middle, rfl⟩ := Table.mem_update.mp updated
  obtain ⟨old, before, rfl⟩ := Table.mem_update.mp middle
  by_cases same : old.id = row.id
  · have whole : old = row := Table.key_inj before there same
    subst whole
    simp [revision, nextRevision]
  · simp [same, before]

theorem written_mem (there : row ∈ db.inspectionForms.rows) (revision : row.revision = input.revision) :
    writtenForm input (nextRevision now row) ∈ (writeFields (claimedDb db row.companyId now row.id input.revision)
      row.companyId row.id input).inspectionForms.rows := by
  have updated : writtenForm input (nextRevision now row) ∈
      ((claimedForms db.inspectionForms row.companyId now row.id input.revision).update
        (fun f => f.id = row.id && f.companyId = row.companyId) (writtenForm input) fun _ => rfl).rows := by
    unfold claimedForms
    refine Table.mem_update.mpr ⟨nextRevision now row, Table.mem_update.mpr ⟨row, there, ?_⟩, ?_⟩
    · simp [revision]
    · simp [nextRevision]
  exact updated

theorem saved_matches (linked : Linked db) (there : row ∈ db.inspectionForms.rows) (revision : row.revision = input.revision)
    (distinct : ((proposedItems input.retained).map (·.clientKey)).Nodup)
    (sent : (proposedItems input.retained).Pairwise fun a b => sentBefore row.id db.inspectionFormItems a b = true) :
    NoteMatches (savedDb db row.companyId now row user input
      (render input row.inspectionDate (photoCounts db row.companyId row.id)))
      (writtenForm input (nextRevision now row)) := by
  have fields : Linked (writeFields (claimedDb db row.companyId now row.id input.revision) row.companyId row.id input) :=
    linked.fields
  have counted : ∀ key, photoCounts db row.companyId row.id key =
      linkCount (writeFields (claimedDb db row.companyId now row.id input.revision) row.companyId row.id input) row.id key :=
    fun key => storedCounts_eq linked there
  exact described_matches fields (written_mem there revision) rfl distinct sent counted

/-- The forms that were not saved. -/
theorem saved_same (linked : Linked db) (there : row ∈ db.inspectionForms.rows) (revision : row.revision = input.revision)
    (member : f ∈ (savedDb db row.companyId now row user input rendered).inspectionForms.rows) (apart : f.id ≠ row.id) :
    SameDraft db (savedDb db row.companyId now row user input rendered) f := by
  have fields : Linked (writeFields (claimedDb db row.companyId now row.id input.revision) row.companyId row.id input) :=
    linked.fields
  have first : SameDraft db (writeFields (claimedDb db row.companyId now row.id input.revision) row.companyId row.id input)
      f := ⟨rfl, fun _ => rfl, rfl, rfl⟩
  have base := @written_mem db now row input there revision
  have found := Option.isSome_iff_exists.mpr ⟨_, Table.find_eq_some_iff.mpr ⟨base, rfl⟩⟩
  have linkedAfter := @Linked.write _ row.companyId row.id (proposedItems input.retained) fields found
    fun _ => proposedItems_keys
  have last : SameDraft (writtenDb (writeFields (claimedDb db row.companyId now row.id input.revision) row.companyId row.id
      input) row.companyId row.id (proposedItems input.retained)) (savedDb db row.companyId now row user input rendered) f :=
    @described_same _ row.companyId user (writtenForm input (nextRevision now row)) f rendered linkedAfter base member apart
  exact (first.trans (written_same fields apart)).trans last

variable {changed : List InspectionFormId}

theorem started_settled {scope : CompanyId} {job : JobId} {date : Date} {content : Text} (settled : Settled ⟨db, changed⟩)
    (visible : jobInScope db scope job = true) (empty : content = emptyNote date) :
    Settled ⟨startedDb db scope now job user date content, changed⟩ := by
  obtain ⟨linked, renders⟩ := settled
  refine ⟨linked.start visible, ?_⟩
  intro f member unchanged
  rcases mem_startedForms.mp member with old | rfl
  · exact (renders f old unchanged).frame linked (linked.start visible) old member (started_same linked old)
  · exact started_matches linked visible empty

theorem saved_settled (settled : Settled ⟨db, changed⟩) (there : row ∈ db.inspectionForms.rows)
    (revision : row.revision = input.revision) (distinct : ((proposedItems input.retained).map (·.clientKey)).Nodup)
    (sent : (proposedItems input.retained).Pairwise fun a b => sentBefore row.id db.inspectionFormItems a b = true) :
    Settled ⟨savedDb db row.companyId now row user input
      (render input row.inspectionDate (photoCounts db row.companyId row.id)), changed.filter (· ≠ row.id)⟩ := by
  obtain ⟨linked, renders⟩ := settled
  have found : (db.inspectionForms.find row.id).isSome = true :=
    Option.isSome_iff_exists.mpr ⟨row, Table.find_eq_some_iff.mpr ⟨there, rfl⟩⟩
  refine ⟨linked.save found, ?_⟩
  intro f member unchanged
  rcases mem_saved there revision member with rfl | ⟨apart, old⟩
  · exact saved_matches linked there revision distinct sent
  · have before : f.id ∉ changed := fun among => unchanged (List.mem_filter.mpr ⟨among, decide_eq_true apart⟩)
    exact (renders f old before).frame linked (linked.save found) old member (saved_same linked there revision member apart)

theorem attached_settled {scope : CompanyId} {expected : Int} {photos : List InspectionPhotoRecord}
    (settled : Settled ⟨db, changed⟩) (same : row.id = id)
    (each : attachEach scope now row (claimedDb db scope now id expected) photos = .ok after) :
    Settled ⟨after, id :: changed⟩ := by
  obtain ⟨linked, renders⟩ := settled
  have linkedAfter : Linked after := linked.claim.attachEach each
  refine ⟨linkedAfter, ?_⟩
  intro f member unchanged
  obtain ⟨apart, before⟩ := not_or.mp (fun either => unchanged (List.mem_cons.mpr either))
  have claimed : f ∈ (claimedDb db scope now id expected).inspectionForms.rows := attachEach_forms each ▸ member
  have old := (mem_claimed claimed).resolve_left apart
  have frame : SameDraft db after f := claimed_same.trans (attachEach_same (same ▸ apart) each)
  exact (renders f old before).frame linked linkedAfter old member frame

theorem deleted_settled {scope : CompanyId} {expected : Int} {link : InspectionFormMediaRow}
    (settled : Settled ⟨db, changed⟩) (there : link ∈ db.inspectionFormMedia.rows) (belongs : link.formId = id) :
    Settled ⟨detachMedia (claimedDb db scope now id expected) scope [link.diaryMediaId], id :: changed⟩ := by
  obtain ⟨linked, renders⟩ := settled
  have claimed : Linked (claimedDb db scope now id expected) := linked.claim
  have linkedAfter : Linked (detachMedia (claimedDb db scope now id expected) scope [link.diaryMediaId]) := claimed.detach
  refine ⟨linkedAfter, ?_⟩
  intro f member unchanged
  obtain ⟨apart, before⟩ := not_or.mp (fun either => unchanged (List.mem_cons.mpr either))
  have old := (mem_claimed member).resolve_left apart
  have other : link.formId ≠ f.id := fun same => apart (same.symm.trans belongs)
  have frame : SameDraft db (detachMedia (claimedDb db scope now id expected) scope [link.diaryMediaId]) f :=
    claimed_same.trans (detached_same claimed there other)
  exact (renders f old before).frame linked linkedAfter old member frame

/-- What one request preserves. -/
theorem serve_settled {r : Request} (settled : Settled state) (ordered : savedInOrder state r = true) :
    Settled (serve state r) := by
  obtain ⟨now, today, storage, s, call⟩ := r
  obtain ⟨db, changed⟩ := state
  cases call with
  | getOrCreateDraft job =>
    apply attempt_keeps (fun db => Settled ⟨db, changed⟩) settled
    intro _ _
    apply committed_keeps (fun db => Settled ⟨db, changed⟩) settled
    intro draft after created
    rcases getOrCreateDraft_ok created with rfl | ⟨visible, rfl⟩
    · exact settled
    · exact started_settled settled visible rfl
  | saveDraft id input =>
    unfold serve
    simp only
    generalize outcome : InspectionService.saveDraft db s now id input = served
    obtain ⟨result, after⟩ := served
    rcases saveDraft_served outcome with ⟨e, rfl, rfl⟩ | ⟨⟨form, rfl⟩, draft, loaded, revision, accepted, distinct, rfl⟩
    · exact settled
    · obtain ⟨found, company, -⟩ := load_some loaded
      obtain ⟨there, same⟩ := Table.find_eq_some_iff.mp found
      have key : draft.form.id = id := same
      subst key
      simp only [savedInOrder, accepted, Bool.not_true, Bool.false_or, decide_eq_true_eq] at ordered
      rw [← company]
      exact saved_settled settled there revision distinct ordered
  | attachPhotos id clientKey expected uploads =>
    unfold serve
    simp only
    generalize outcome : InspectionService.attachPhotos db s storage now id clientKey expected uploads = served
    obtain ⟨result, after⟩ := served
    rcases attachPhotos_served outcome with ⟨e, rfl, rfl⟩ | ⟨⟨form, rfl⟩, draft, records, loaded, each⟩
    · exact settled
    · exact attached_settled settled (Table.find_eq_some_iff.mp (load_some loaded).1).2 each
  | deletePhoto id expected photo =>
    unfold serve
    simp only
    generalize outcome : InspectionService.deletePhoto db s now id expected photo = served
    obtain ⟨result, after⟩ := served
    rcases deletePhoto_served outcome with ⟨e, rfl, rfl⟩ | ⟨⟨form, rfl⟩, link, there, belongs, rfl⟩
    · exact settled
    · exact deleted_settled settled there belongs

end Run

theorem unstarted_linked {db : Db} (forms : db.inspectionForms.rows = []) (items : db.inspectionFormItems.rows = [])
    (links : db.inspectionFormMedia.rows = []) : Linked db := by
  constructor <;> simp [forms, items, links, Table.Unique]

/-- A form's note is the rendering of the form, unless its photos were changed after it was saved last. -/
theorem note_matches (state : State) (reached : (drafts savedInOrder).Reachable state)
    (form : InspectionFormRow) (stored : form ∈ state.db.inspectionForms.rows)
    (unchanged : form.id ∉ state.photosChanged) : NoteMatches state.db form := by
  have settled : Settled state := by
    apply Reachable.invariant Settled reached
    · rintro start ⟨forms, items, links, -⟩
      refine ⟨unstarted_linked forms items links, ?_⟩
      intro f member
      rw [forms] at member
      cases member
    · intro before after request settled ordered served
      cases served
      exact serve_settled settled ordered
  exact settled.renders form stored unchanged

/- Ann inspects a job. -/

def ann : SessionUser where
  user := ⟨7, 1, text "Ann", text "ann@example.com", .manager, none, true, none⟩
  principal := ⟨7, 1, .manager⟩
  permissions := []
  entitlement := ⟨true, true, true, none⟩

def oneJob : State where
  db :=
    { Db.empty with
      users := .of [.plain 7 1 (text "Ann") (text "ann@example.com") (text "MANAGER") (Eq.refl true)] 8 (Eq.refl true)
      jobs := .of [NoteIsolation.jobOf 1 1 none] 2 (Eq.refl true) }
  photosChanged := []

def jpegStored : ObjectStore where
  head := fun _ => .ok (some 1024)
  readPrefix := fun _ _ => .ok [0xff, 0xd8, 0xff, 0xe0]

def asked (call : Call) : Request := ⟨0, 20587, jpegStored, ann, call⟩

def room (key name : String) (place : Option Int) : InspectionItemInput := ⟨text key, text name, [], false, place⟩

def save (revision : Int) (items : List InspectionItemInput) : Request :=
  asked (.saveDraft 1 ⟨text "Ann", [], [], [], none, revision, items⟩)

def photo (revision : Int) : Request :=
  asked (.attachPhotos 1 (text "a") revision [⟨text "x.jpg", text "slab.jpg", text "image/jpeg"⟩])

theorem oneJob_unstarted : (drafts savedInOrder).initial oneJob := ⟨rfl, rfl, rfl, rfl⟩

theorem saved_photo_matches : ∃ state form, (drafts savedInOrder).execute oneJob
      [asked (.getOrCreateDraft 1), save 0 [room "a" "" none], photo 1, save 2 [room "a" "" none]] = some state ∧
    form ∈ state.db.inspectionForms.rows ∧ storedCounts state.db form (text "a") = 1 ∧ NoteMatches state.db form := by
  have run : ∃ state form, (drafts savedInOrder).execute oneJob
        [asked (.getOrCreateDraft 1), save 0 [room "a" "" none], photo 1, save 2 [room "a" "" none]] = some state ∧
      state.db.inspectionForms.rows = [form] ∧ state.photosChanged = [] ∧ storedCounts state.db form (text "a") = 1 :=
    ⟨_, _, rfl, rfl, rfl, by decide +kernel⟩
  obtain ⟨state, form, ran, rows, unchanged, count⟩ := run
  have stored : form ∈ state.db.inspectionForms.rows := rows ▸ List.mem_singleton_self form
  exact ⟨state, form, ran, stored, count, note_matches state (execute_reachable oneJob_unstarted ran) form stored
    (unchanged ▸ List.not_mem_nil)⟩

/-- A photo fills a blank row, so the note should ask for action; and rows that were sent out of their order are read
    back in another order than the note has them in. -/
theorem note_left_behind : (∃ state form, (drafts fun _ _ => true).Reachable state ∧
      form ∈ state.db.inspectionForms.rows ∧ ¬ NoteMatches state.db form) ∧
    ∃ state form, (drafts fun _ _ => true).Reachable state ∧ state.photosChanged = [] ∧
      form ∈ state.db.inspectionForms.rows ∧ ¬ NoteMatches state.db form := by
  constructor
  · have run : ∃ state form, (drafts fun _ _ => true).execute oneJob
          [asked (.getOrCreateDraft 1), save 0 [room "a" "" none], photo 1] = some state ∧
        state.db.inspectionForms.rows = [form] ∧ storedStatus state.db form = some .action ∧
        (state.db.diaryNotes.find form.diaryNoteId).map (·.actionStatus) = some none :=
      ⟨_, _, rfl, rfl, by decide +kernel, rfl⟩
    obtain ⟨state, form, ran, rows, outstanding, note⟩ := run
    refine ⟨state, form, execute_reachable oneJob_unstarted ran, rows ▸ List.mem_singleton_self form, ?_⟩
    intro agrees
    obtain ⟨row, found, same⟩ := agrees.noteStatus
    rw [found, Option.map_some, same, outstanding] at note
    cases note
  · have run : ∃ state form, (drafts fun _ _ => true).execute oneJob [asked (.getOrCreateDraft 1),
          save 0 [room "a" "Kitchen" (some 1), room "b" "Bath" (some 0)]] = some state ∧
        state.db.inspectionForms.rows = [form] ∧ state.photosChanged = [] ∧
        (state.db.diaryNotes.find form.diaryNoteId).map (·.content) ≠
          some (inspectionNote (storedDraft state.db form) form.inspectionDate (storedCounts state.db form)) :=
      ⟨_, _, rfl, rfl, rfl, by decide +kernel⟩
    obtain ⟨state, form, ran, rows, unchanged, other⟩ := run
    refine ⟨state, form, execute_reachable oneJob_unstarted ran, unchanged, rows ▸ List.mem_singleton_self form, ?_⟩
    intro agrees
    obtain ⟨row, found, same⟩ := agrees.content
    exact other (by rw [found, Option.map_some, same])

end InspectionRendering
