import PmKonstruct.Forms.InspectionService
import PmKonstruct.Library.RowOrder

/- What the tables of inspections promise each other, and what the statements on them keep of it. An item belongs
   to a form under a key, a photo to one item, and a form has an entry and a note to itself. -/
namespace DraftTables
open PlainText DomainErrors Accounts CalendarDate Schema KeyedTable RowSecurity Requests DeletionQueue InspectionStore
open InspectionNote (InspectionItemInput InspectionDraftInput)

/-- The unique index of the items. -/
def owner (item : InspectionFormItemRow) : InspectionFormId × Text := (item.formId, item.clientKey)

/-- What never changes about a form. -/
def place (form : InspectionFormRow) : CompanyId × JobId × DiaryEntryId × DiaryNoteId :=
  (form.companyId, form.jobId, form.diaryEntryId, form.diaryNoteId)

/-- The note of the form is in its entry, the entry in its job, and the job in its company. -/
def Owned (db : Db) (form : InspectionFormRow) : Prop :=
  db.jobs.Has JobRow.companyId form.jobId form.companyId ∧
    db.siteDiary.Has SiteDiaryRow.jobId form.diaryEntryId form.jobId ∧
    db.diaryNotes.Has DiaryNoteRow.diaryEntryId form.diaryNoteId form.diaryEntryId

structure Linked (db : Db) : Prop where
  forms : ∀ f ∈ db.inspectionForms.rows, Owned db f
  notesApart : db.inspectionForms.Unique InspectionFormRow.diaryNoteId
  entriesApart : db.inspectionForms.Unique InspectionFormRow.diaryEntryId
  itemForm : ∀ i ∈ db.inspectionFormItems.rows, (db.inspectionForms.find i.formId).isSome = true
  itemKey : ∀ i ∈ db.inspectionFormItems.rows, i.clientKey ≠ [] ∧ trim i.clientKey = i.clientKey
  keysApart : db.inspectionFormItems.Unique owner
  linkItem : ∀ m ∈ db.inspectionFormMedia.rows, db.inspectionFormItems.Has InspectionFormItemRow.formId m.itemId m.formId
  linkMedia : ∀ m ∈ db.inspectionFormMedia.rows, m.diaryMediaId < db.diaryMedia.serial
  linksApart : db.inspectionFormMedia.Unique InspectionFormMediaRow.diaryMediaId

/- The upsert, item by item. -/

section Upsert
variable {form : InspectionFormId} {t : Table InspectionFormItemRow} {item : ProposedItem} {items : List ProposedItem}
    {row : InspectionFormItemRow} {key : Text}

theorem holdsKey_iff : holdsKey form key row = true ↔ owner row = (form, key) := by
  simp [holdsKey, owner]

theorem upsertItem_mem (member : row ∈ (upsertItem form t item).rows) :
    row ∈ t.rows ∧ holdsKey form item.clientKey row = false ∨ row = item.row form row.id := by
  unfold upsertItem at member
  split at member
  · obtain ⟨old, there, made⟩ := Table.mem_update.mp member
    split at made
    · rw [made]
      exact .inr rfl
    · next unmatched =>
      rw [made]
      exact .inl ⟨there, Bool.eq_false_iff.mpr unmatched⟩
  · next absent =>
    rcases Table.mem_insert.mp member with old | rfl
    · exact .inl ⟨old, Bool.eq_false_iff.mpr fun holds => absent (List.any_eq_true.mpr ⟨row, old, holds⟩)⟩
    · exact .inr rfl

theorem upsertItem_other (member : row ∈ t.rows) (other : holdsKey form item.clientKey row = false) :
    row ∈ (upsertItem form t item).rows := by
  unfold upsertItem
  split
  · exact Table.mem_update.mpr ⟨row, member, by rw [other]; rfl⟩
  · exact Table.mem_insert.mpr (.inl member)

theorem upsertItem_serial : t.serial ≤ (upsertItem form t item).serial := by
  unfold upsertItem
  split
  · exact Int.le_refl _
  · exact Int.le_of_lt (Int.lt_succ _)

theorem upsertItem_unique (unique : t.Unique owner) : (upsertItem form t item).Unique owner := by
  unfold upsertItem
  split
  · apply unique.update
    intro row _ matched
    exact (holdsKey_iff.mp matched).symm
  · next absent =>
    apply unique.insert
    intro row member same
    exact absent (List.any_eq_true.mpr ⟨row, member, holdsKey_iff.mpr same⟩)

theorem upsertItem_has {id : Int} {a : InspectionFormId × Text} (has : t.Has owner id a) :
    (upsertItem form t item).Has owner id a := by
  unfold upsertItem
  split
  · apply has.update_found
    intro row _ matched
    exact (holdsKey_iff.mp matched).symm
  · exact has.insert

/-- Where the row of a proposed item stands: under the id its key had, or after every row there was. -/
structure Placed (form : InspectionFormId) (t : Table InspectionFormItemRow) (row : InspectionFormItemRow) : Prop where
  keeps : ∀ old ∈ t.rows, holdsKey form row.clientKey old = true → old.id = row.id
  known : (∃ old ∈ t.rows, holdsKey form row.clientKey old = true) ∨ t.serial ≤ row.id

theorem upsertItem_placed (unique : t.Unique owner) : ∃ row ∈ (upsertItem form t item).rows,
    row = item.row form row.id ∧ Placed form t row := by
  unfold upsertItem
  split
  · next present =>
    obtain ⟨old, there, holds⟩ := List.any_eq_true.mp present
    refine ⟨item.row form old.id, Table.mem_update.mpr ⟨old, there, by rw [if_pos holds]⟩, rfl, ?_, .inl ⟨old, there, holds⟩⟩
    intro other member same
    have alike : owner other = owner old := (holdsKey_iff.mp same).trans (holdsKey_iff.mp holds).symm
    rw [unique other member old there alike]
    rfl
  · next absent =>
    refine ⟨item.row form t.serial, Table.mem_insert.mpr (.inr rfl), rfl, ?_, .inr (Int.le_refl _)⟩
    intro old member holds
    exact absurd (List.any_eq_true.mpr ⟨old, member, holds⟩) absent

theorem upsertItems_unique (unique : t.Unique owner) : (upsertItems form t items).Unique owner := by
  induction items generalizing t with
  | nil => exact unique
  | cons item rest ih => exact ih (upsertItem_unique unique)

theorem upsertItems_has {id : Int} {a : InspectionFormId × Text} (has : t.Has owner id a) :
    (upsertItems form t items).Has owner id a := by
  induction items generalizing t with
  | nil => exact has
  | cons item rest ih => exact ih (upsertItem_has has)

theorem upsertItems_mem (member : row ∈ (upsertItems form t items).rows) :
    row ∈ t.rows ∧ (∀ item ∈ items, holdsKey form item.clientKey row = false) ∨
      ∃ item ∈ items, row = item.row form row.id := by
  induction items generalizing t with
  | nil => exact .inl ⟨member, fun _ none => absurd none List.not_mem_nil⟩
  | cons item rest ih =>
    rcases ih member with ⟨before, others⟩ | ⟨later, there, made⟩
    · rcases upsertItem_mem before with ⟨old, other⟩ | made
      · exact .inl ⟨old, List.forall_mem_cons.mpr ⟨other, others⟩⟩
      · exact .inr ⟨item, List.mem_cons_self, made⟩
    · exact .inr ⟨later, List.mem_cons_of_mem _ there, made⟩

theorem upsertItems_other (member : row ∈ t.rows) (others : ∀ item ∈ items, holdsKey form item.clientKey row = false) :
    row ∈ (upsertItems form t items).rows := by
  induction items generalizing t with
  | nil => exact member
  | cons item rest ih =>
    obtain ⟨first, later⟩ := List.forall_mem_cons.mp others
    exact ih (upsertItem_other member first) later

/-- The order in which a form's items are read. -/
def listedBefore (a b : InspectionFormItemRow) : Prop :=
  a.sortOrder < b.sortOrder ∨ a.sortOrder = b.sortOrder ∧ a.id ≤ b.id

instance : DecidableRel listedBefore := fun _ _ => inferInstanceAs (Decidable (_ ∨ _))

instance : Std.Total listedBefore where
  total a b := by
    unfold listedBefore
    omega

instance : IsTrans InspectionFormItemRow listedBefore where
  trans a b c := by
    unfold listedBefore
    omega

theorem listedBefore_antisymm {a b : InspectionFormItemRow} (left : listedBefore a b) (right : listedBefore b a) :
    a.id = b.id := by
  unfold listedBefore at left right
  omega

/-- Two items keep the order they are sent in: by their places, or at one place by the ids of their keys. -/
def sentBefore (form : InspectionFormId) (t : Table InspectionFormItemRow) (a b : ProposedItem) : Bool :=
  a.sortOrder < b.sortOrder || (a.sortOrder = b.sortOrder && t.rows.all fun later =>
    !holdsKey form b.clientKey later || t.rows.any fun earlier =>
      holdsKey form a.clientKey earlier && earlier.id < later.id)

theorem sentBefore_iff {a b : ProposedItem} : sentBefore form t a b = true ↔ a.sortOrder < b.sortOrder ∨
    a.sortOrder = b.sortOrder ∧ ∀ later ∈ t.rows, holdsKey form b.clientKey later = true →
      ∃ earlier ∈ t.rows, holdsKey form a.clientKey earlier = true ∧ earlier.id < later.id := by
  simp only [sentBefore, Bool.or_eq_true, Bool.and_eq_true, decide_eq_true_eq, List.all_eq_true, List.any_eq_true,
    Bool.not_eq_true', ← Bool.not_eq_true, imp_iff_not_or]

/-- Only the rows under the two keys decide. -/
theorem sentBefore_congr {u : Table InspectionFormItemRow} {a b : ProposedItem}
    (later : ∀ row ∈ u.rows, holdsKey form b.clientKey row = true → row ∈ t.rows)
    (earlier : ∀ row ∈ t.rows, holdsKey form a.clientKey row = true → row ∈ u.rows)
    (sent : sentBefore form t a b = true) : sentBefore form u a b = true := by
  rw [sentBefore_iff] at sent ⊢
  rcases sent with below | ⟨level, ids⟩
  · exact .inl below
  · refine .inr ⟨level, ?_⟩
    intro row member holds
    obtain ⟨first, there, key, less⟩ := ids row (later row member holds) holds
    exact ⟨first, earlier first there key, key, less⟩

theorem holdsKey_apart {other : Text} (holds : holdsKey form key row = true) (apart : key ≠ other) :
    holdsKey form other row = false := by
  refine Bool.eq_false_iff.mpr fun also => apart ?_
  exact congrArg Prod.snd ((holdsKey_iff.mp holds).symm.trans (holdsKey_iff.mp also))

theorem upsertItem_elsewhere (apart : key ≠ item.clientKey) (holds : holdsKey form key row = true) :
    row ∈ (upsertItem form t item).rows ↔ row ∈ t.rows := by
  constructor
  · intro member
    rcases upsertItem_mem member with ⟨old, -⟩ | made
    · exact old
    · rw [made] at holds
      exact absurd (congrArg Prod.snd (holdsKey_iff.mp holds)).symm apart
  · intro member
    exact upsertItem_other member (holdsKey_apart holds apart)

theorem Placed.before_upsert (placed : Placed form (upsertItem form t item) row) (apart : row.clientKey ≠ item.clientKey) :
    Placed form t row := by
  constructor
  · intro old member holds
    exact placed.keeps old ((upsertItem_elsewhere apart holds).mpr member) holds
  · rcases placed.known with ⟨old, member, holds⟩ | fresh
    · exact .inl ⟨old, (upsertItem_elsewhere apart holds).mp member, holds⟩
    · exact .inr (Int.le_trans upsertItem_serial fresh)

/-- The proposal a row was written from. -/
def proposalOf (row : InspectionFormItemRow) : ProposedItem :=
  ⟨row.clientKey, row.room, row.description, row.actioned, row.sortOrder⟩

theorem listed_first {first row : InspectionFormItemRow} (there : first ∈ (upsertItem form t item).rows)
    (made : first = item.row form first.id) (placed : Placed form t first)
    (later : Placed form (upsertItem form t item) row) (apart : row.clientKey ≠ item.clientKey)
    (sent : sentBefore form t item (proposalOf row) = true) : listedBefore first row := by
  have order : first.sortOrder = item.sortOrder := congrArg InspectionFormItemRow.sortOrder made
  have key : first.clientKey = item.clientKey := congrArg InspectionFormItemRow.clientKey made
  rcases sentBefore_iff.mp sent with below | ⟨level, ids⟩
  · exact .inl (order ▸ below)
  · refine .inr ⟨order ▸ level, ?_⟩
    rcases later.known with ⟨old, member, holds⟩ | fresh
    · have before := (upsertItem_elsewhere apart holds).mp member
      obtain ⟨earlier, known, same, less⟩ := ids old before holds
      have id := placed.keeps earlier known (key ▸ same)
      have kept := later.keeps old member holds
      omega
    · have below := (upsertItem form t item).below first there
      exact Int.le_of_lt (Int.lt_of_lt_of_le below fresh)

/-- The rows of the proposals, read in the order in which they were sent. -/
theorem upsertItems_listed (unique : t.Unique owner) (distinct : (items.map (·.clientKey)).Nodup)
    (sent : items.Pairwise fun a b => sentBefore form t a b = true) :
    ∃ rows : List InspectionFormItemRow, rows.map proposalOf = items ∧
      (∀ row ∈ rows, row ∈ (upsertItems form t items).rows ∧ row.formId = form ∧ Placed form t row) ∧
      rows.Pairwise listedBefore := by
  induction items generalizing t with
  | nil => exact ⟨[], rfl, fun _ none => absurd none List.not_mem_nil, .nil⟩
  | cons item rest ih =>
    rw [List.map_cons, List.nodup_cons] at distinct
    obtain ⟨first, later⟩ := List.pairwise_cons.mp sent
    have apart : ∀ other ∈ rest, other.clientKey ≠ item.clientKey := by
      intro other member same
      exact distinct.1 (List.mem_map.mpr ⟨other, member, same⟩)
    have laterSent : rest.Pairwise fun a b => sentBefore form (upsertItem form t item) a b = true := by
      refine later.imp_of_mem ?_
      intro a b left right before
      refine sentBefore_congr ?_ ?_ before
      · intro row member holds
        exact (upsertItem_elsewhere (apart b right) holds).mp member
      · intro row member holds
        exact (upsertItem_elsewhere (apart a left) holds).mpr member
    obtain ⟨rows, written, facts, ordered⟩ := ih (upsertItem_unique unique) distinct.2 laterSent
    obtain ⟨row, there, made, placed⟩ := @upsertItem_placed form t item unique
    have key : row.clientKey = item.clientKey := congrArg InspectionFormItemRow.clientKey made
    have elsewhere : ∀ other ∈ rows, other.clientKey ≠ item.clientKey := by
      intro other member
      exact apart (proposalOf other) (written ▸ List.mem_map_of_mem member)
    have remains : row ∈ (upsertItems form (upsertItem form t item) rest).rows := by
      apply upsertItems_other there
      intro next among
      have holds : holdsKey form item.clientKey row = true := by
        rw [made]
        exact holdsKey_iff.mpr rfl
      exact holdsKey_apart holds fun same => apart next among same.symm
    refine ⟨row :: rows, ?_, ?_, ?_⟩
    · rw [List.map_cons, written, made]
      rfl
    · intro other member
      rcases List.mem_cons.mp member with rfl | member
      · exact ⟨remains, congrArg InspectionFormItemRow.formId made, placed⟩
      · obtain ⟨stored, belongs, later⟩ := facts other member
        exact ⟨stored, belongs, later.before_upsert (elsewhere other member)⟩
    · refine List.pairwise_cons.mpr ⟨?_, ordered⟩
      intro other member
      refine listed_first there made placed (facts other member).2.2 (elsewhere other member) ?_
      exact first (proposalOf other) (written ▸ List.mem_map_of_mem member)

end Upsert

/- What the statements of a transaction keep. -/

section Statements
variable {db after : Db} {scope : CompanyId} {form : InspectionFormId}

theorem Owned.of_place {f g : InspectionFormRow} (owned : Owned db f) (same : place g = place f) : Owned db g := by
  simp only [place, Prod.mk.injEq] at same
  obtain ⟨company, job, entry, note⟩ := same
  unfold Owned
  rw [company, job, entry, note]
  exact owned

theorem Linked.updateForms {p : InspectionFormRow → Bool} {change : InspectionFormRow → InspectionFormRow}
    {keeps : ∀ f, (change f).id = f.id} (linked : Linked db) (kept : ∀ f, place (change f) = place f) :
    Linked { db with inspectionForms := db.inspectionForms.update p change keeps } := by
  have forms : ∀ f ∈ (db.inspectionForms.update p change keeps).rows, Owned db f :=
    Table.all_update linked.forms fun f member _ => (linked.forms f member).of_place (kept f)
  have notes : (db.inspectionForms.update p change keeps).Unique InspectionFormRow.diaryNoteId :=
    linked.notesApart.update fun f _ _ => congrArg (fun p => p.2.2.2) (kept f)
  have entries : (db.inspectionForms.update p change keeps).Unique InspectionFormRow.diaryEntryId :=
    linked.entriesApart.update fun f _ _ => congrArg (fun p => p.2.2.1) (kept f)
  exact { linked with
    forms := forms
    notesApart := notes
    entriesApart := entries
    itemForm := by
      intro i member
      rw [Table.isSome_find_update]
      exact linked.itemForm i member }

theorem Linked.updateNotes {p : DiaryNoteRow → Bool} {change : DiaryNoteRow → DiaryNoteRow}
    {keeps : ∀ n, (change n).id = n.id} (linked : Linked db) (kept : ∀ n, (change n).diaryEntryId = n.diaryEntryId) :
    Linked { db with diaryNotes := db.diaryNotes.update p change keeps } :=
  { linked with
    forms := by
      intro f member
      obtain ⟨job, entry, note⟩ := linked.forms f member
      have still : (db.diaryNotes.update p change keeps).Has DiaryNoteRow.diaryEntryId f.diaryNoteId f.diaryEntryId :=
        note.update kept
      exact ⟨job, entry, still⟩ }

theorem Linked.updateEntries {p : SiteDiaryRow → Bool} {change : SiteDiaryRow → SiteDiaryRow}
    {keeps : ∀ e, (change e).id = e.id} (linked : Linked db) (kept : ∀ e, (change e).jobId = e.jobId) :
    Linked { db with siteDiary := db.siteDiary.update p change keeps } :=
  { linked with
    forms := by
      intro f member
      obtain ⟨job, entry, note⟩ := linked.forms f member
      have still : (db.siteDiary.update p change keeps).Has SiteDiaryRow.jobId f.diaryEntryId f.jobId := entry.update kept
      exact ⟨job, still, note⟩ }

theorem Linked.detach {ids : List MediaId} (linked : Linked db) : Linked (detachMedia db scope ids) :=
  { linked with
    linkItem := fun m member => linked.linkItem m (Table.mem_delete.mp member).1
    linkMedia := fun m member => linked.linkMedia m (Table.mem_delete.mp member).1
    linksApart := linked.linksApart.delete }

theorem Linked.drop {keys : List Text} (linked : Linked db) : Linked (dropItems db scope form keys) :=
  { linked with
    itemForm := fun i member => linked.itemForm i (Table.mem_delete.mp member).1
    itemKey := fun i member => linked.itemKey i (Table.mem_delete.mp member).1
    keysApart := linked.keysApart.delete
    linkItem := by
      intro m member
      obtain ⟨there, kept⟩ := Table.mem_delete.mp member
      exact (linked.linkItem m there).delete kept
    linkMedia := fun m member => linked.linkMedia m (Table.mem_delete.mp member).1
    linksApart := linked.linksApart.delete }

/-- The owner of a row says which form it is in. -/
theorem has_owner {t : Table InspectionFormItemRow} {id : Int}
    (has : t.Has InspectionFormItemRow.formId id form) : ∃ key, t.Has owner id (form, key) := by
  obtain ⟨row, found, same⟩ := has
  exact ⟨row.clientKey, row, found, by rw [← same]; rfl⟩

theorem has_form {t : Table InspectionFormItemRow} {id : Int} {key : Text} (has : t.Has owner id (form, key)) :
    t.Has InspectionFormItemRow.formId id form := by
  obtain ⟨row, found, same⟩ := has
  exact ⟨row, found, congrArg Prod.fst same⟩

theorem Linked.upsert {items : List ProposedItem} (linked : Linked db)
    (there : (db.inspectionForms.find form).isSome = true)
    (keys : ∀ item ∈ items, item.clientKey ≠ [] ∧ trim item.clientKey = item.clientKey) :
    Linked { db with inspectionFormItems := upsertItems form db.inspectionFormItems items } :=
  { linked with
    itemForm := by
      intro i member
      rcases upsertItems_mem member with ⟨old, -⟩ | ⟨item, -, made⟩
      · exact linked.itemForm i old
      · rw [made]
        exact there
    itemKey := by
      intro i member
      rcases upsertItems_mem member with ⟨old, -⟩ | ⟨item, among, made⟩
      · exact linked.itemKey i old
      · rw [made]
        exact keys item among
    keysApart := upsertItems_unique linked.keysApart
    linkItem := by
      intro m member
      obtain ⟨key, has⟩ := has_owner (linked.linkItem m member)
      exact has_form (upsertItems_has has) }

end Statements

/- What the functions of the repository did when they succeeded. -/

section Functions
variable {db after : Db} {scope : CompanyId} {now : Instant} {id form : InspectionFormId} {user : UserId}
    {draft : InspectionForm} {expected : Int}

theorem load_some (loaded : load db scope id user = some draft) :
    db.inspectionForms.find id = some draft.form ∧ draft.form.companyId = scope ∧ draft.form.createdBy = user := by
  obtain ⟨row, reached, made⟩ := Option.map_eq_some_iff.mp loaded
  obtain ⟨found, seen⟩ := Table.reach_eq_some_iff.mp reached
  subst made
  simpa [found] using seen

theorem load_there (has : db.inspectionForms.Has (fun f => (f.companyId, f.createdBy)) id (scope, user)) :
    (load db scope id user).isSome = true := by
  obtain ⟨row, found, same⟩ := has
  have reached : db.inspectionForms.reach (fun f => f.companyId = scope && f.createdBy = user) id = some row := by
    refine Table.reach_eq_some_iff.mpr ⟨found, ?_⟩
    rw [Prod.mk.injEq] at same
    simp [same.1, same.2]
  rw [load, reached]
  rfl

def claimedForms (forms : Table InspectionFormRow) (scope : CompanyId) (now : Instant) (form : InspectionFormId)
    (expected : Int) : Table InspectionFormRow :=
  forms.update (fun f => f.id = form && (f.revision = expected && f.companyId = scope)) (nextRevision now)
    (nextRevision_key now)

/-- The store once a revision is claimed. -/
def claimedDb (db : Db) (scope : CompanyId) (now : Instant) (form : InspectionFormId) (expected : Int) : Db :=
  { db with inspectionForms := claimedForms db.inspectionForms scope now form expected }

theorem claimedForms_there {forms : Table InspectionFormRow} {other : InspectionFormId} :
    ((claimedForms forms scope now form expected).find other).isSome = (forms.find other).isSome := by
  unfold claimedForms
  exact Table.isSome_find_update

theorem claim_true (claimed : claimRevision db scope now form expected = (true, after)) :
    after = claimedDb db scope now form expected ∧ ∃ row, db.inspectionForms.find form = some row ∧
      row.revision = expected ∧ row.companyId = scope := by
  unfold claimRevision at claimed
  simp only [Prod.mk.injEq] at claimed
  obtain ⟨there, same⟩ := claimed
  refine ⟨same.symm, ?_⟩
  obtain ⟨_, changed⟩ := Option.isSome_iff_exists.mp there
  obtain ⟨row, reached, -⟩ := Option.map_eq_some_iff.mp changed
  obtain ⟨found, seen⟩ := Table.reach_eq_some_iff.mp reached
  simp only [Bool.and_eq_true, decide_eq_true_eq] at seen
  exact ⟨row, found, seen⟩

theorem Linked.claim (linked : Linked db) : Linked (claimedDb db scope now form expected) :=
  linked.updateForms fun _ => rfl

theorem claimed_owner (found : db.inspectionForms.find id = some draft.form) (company : draft.form.companyId = scope)
    (creator : draft.form.createdBy = user) : (claimedDb db scope now form expected).inspectionForms.Has
      (fun f => (f.companyId, f.createdBy)) id (scope, user) := by
  have has : db.inspectionForms.Has (fun f => (f.companyId, f.createdBy)) id (scope, user) :=
    ⟨draft.form, found, Prod.ext company creator⟩
  have still : (claimedForms db.inspectionForms scope now form expected).Has (fun f => (f.companyId, f.createdBy)) id
      (scope, user) := by
    unfold claimedForms
    exact has.update fun _ => rfl
  exact still

/- Starting a draft. -/

def draftEntry (job : JobId) (user : UserId) (date : Date) (id : Int) : SiteDiaryRow :=
  ⟨id, job, some user, date, text "Site Inspection — Draft", none, none⟩

def draftNote (now : Instant) (entry : DiaryEntryId) (content : Text) (id : Int) : DiaryNoteRow :=
  ⟨id, entry, .propertyInspection, content, none, none, 0, false, now⟩

def draftForm (scope : CompanyId) (now : Instant) (job : JobId) (user : UserId) (entry : DiaryEntryId)
    (note : DiaryNoteId) (date : Date) (id : Int) : InspectionFormRow :=
  ⟨id, scope, job, user, entry, note, date, [], [], [], [], none, 0, now, now⟩

def startedForms (db : Db) (scope : CompanyId) (now : Instant) (job : JobId) (user : UserId) (date : Date) :
    Table InspectionFormRow :=
  db.inspectionForms.insert (draftForm scope now job user db.siteDiary.serial db.diaryNotes.serial date) fun _ => rfl

def startedEntries (db : Db) (job : JobId) (user : UserId) (date : Date) : Table SiteDiaryRow :=
  db.siteDiary.insert (draftEntry job user date) fun _ => rfl

def startedNotes (db : Db) (now : Instant) (content : Text) : Table DiaryNoteRow :=
  db.diaryNotes.insert (draftNote now db.siteDiary.serial content) fun _ => rfl

def startedDb (db : Db) (scope : CompanyId) (now : Instant) (job : JobId) (user : UserId) (date : Date)
    (content : Text) : Db := { db with
  siteDiary := startedEntries db job user date
  diaryNotes := startedNotes db now content
  inspectionForms := startedForms db scope now job user date }

theorem mem_startedForms {job : JobId} {date : Date} {f : InspectionFormRow} :
    f ∈ (startedForms db scope now job user date).rows ↔ f ∈ db.inspectionForms.rows ∨
      f = draftForm scope now job user db.siteDiary.serial db.diaryNotes.serial date db.inspectionForms.serial := by
  unfold startedForms
  exact Table.mem_insert

theorem loaded_after (done : loaded db scope id user = .ok (draft, after)) : after = db := by
  unfold loaded at done
  split at done
  · cases done
  · cases done
    rfl

theorem getOrCreateDraft_ok {job : JobId} {date : Date} {content : Text}
    (done : getOrCreateDraft db scope now job user date content = .ok (draft, after)) :
    after = db ∨ jobInScope db scope job = true ∧ after = startedDb db scope now job user date content := by
  unfold getOrCreateDraft at done
  simp only at done
  split at done
  · exact .inl (loaded_after done)
  · obtain ⟨⟨entry, first⟩, entered, done⟩ := bind_ok done
    obtain ⟨⟨note, second⟩, noted, done⟩ := bind_ok done
    obtain ⟨⟨row, third⟩, formed, done⟩ := bind_ok done
    have same := loaded_after done
    unfold insertEntry DiaryStore.insertEntry at entered
    unfold insertInspectionNote DiaryStore.insertNote at noted
    unfold insertForm at formed
    have entryId := insertRow_value entered
    obtain ⟨allowed, rfl⟩ := insertRow_ok entered
    have noteId := insertRow_value noted
    obtain ⟨-, rfl⟩ := insertRow_ok noted
    obtain ⟨-, rfl⟩ := insertRow_ok formed
    subst entryId noteId same
    rw [firstViolation_cons] at allowed
    exact .inr ⟨by simpa using allowed.1, rfl⟩

theorem startedEntries_has {α : Type} {c : SiteDiaryRow → α} {job : JobId} {date : Date} :
    (startedEntries db job user date).Has c db.siteDiary.serial (c (draftEntry job user date db.siteDiary.serial)) := by
  unfold startedEntries
  exact Table.has_inserted

theorem startedNotes_has {α : Type} {c : DiaryNoteRow → α} {content : Text} : (startedNotes db now content).Has c
    db.diaryNotes.serial (c (draftNote now db.siteDiary.serial content db.diaryNotes.serial)) := by
  unfold startedNotes
  exact Table.has_inserted

theorem startedEntries_find {job : JobId} {date : Date} {entry : DiaryEntryId}
    (there : (db.siteDiary.find entry).isSome = true) :
    (startedEntries db job user date).find entry = db.siteDiary.find entry := by
  unfold startedEntries
  exact Table.find_insert_there there

theorem startedNotes_find {content : Text} {note : DiaryNoteId} (there : (db.diaryNotes.find note).isSome = true) :
    (startedNotes db now content).find note = db.diaryNotes.find note := by
  unfold startedNotes
  exact Table.find_insert_there there

theorem Owned.start {f : InspectionFormRow} {job : JobId} {date : Date} {content : Text} (owned : Owned db f) :
    Owned (startedDb db scope now job user date content) f := by
  obtain ⟨company, entry, note⟩ := owned
  have entryStill : (startedEntries db job user date).Has SiteDiaryRow.jobId f.diaryEntryId f.jobId := by
    rw [Table.Has, startedEntries_find entry.isSome]
    exact entry
  have noteStill : (startedNotes db now content).Has DiaryNoteRow.diaryEntryId f.diaryNoteId f.diaryEntryId := by
    rw [Table.Has, startedNotes_find note.isSome]
    exact note
  exact ⟨company, entryStill, noteStill⟩

theorem Owned.started {job : JobId} {date : Date} {content : Text} (visible : jobInScope db scope job = true) :
    Owned (startedDb db scope now job user date content)
      (draftForm scope now job user db.siteDiary.serial db.diaryNotes.serial date db.inspectionForms.serial) := by
  obtain ⟨row, found, company⟩ := jobInScope_iff.mp visible
  exact ⟨⟨row, found, company⟩, startedEntries_has, startedNotes_has⟩

theorem Linked.start {job : JobId} {date : Date} {content : Text} (linked : Linked db)
    (visible : jobInScope db scope job = true) : Linked (startedDb db scope now job user date content) := by
  have forms : ∀ f ∈ (startedForms db scope now job user date).rows,
      Owned (startedDb db scope now job user date content) f := by
    intro f member
    rcases mem_startedForms.mp member with old | rfl
    · exact (linked.forms f old).start
    · exact Owned.started visible
  have notes : (startedForms db scope now job user date).Unique InspectionFormRow.diaryNoteId := by
    unfold startedForms
    apply linked.notesApart.insert
    intro f member same
    exact absurd same (Int.ne_of_lt (linked.forms f member).2.2.below)
  have entries : (startedForms db scope now job user date).Unique InspectionFormRow.diaryEntryId := by
    unfold startedForms
    apply linked.entriesApart.insert
    intro f member same
    exact absurd same (Int.ne_of_lt (linked.forms f member).2.1.below)
  have found : ∀ id, (db.inspectionForms.find id).isSome = true →
      ((startedForms db scope now job user date).find id).isSome = true := by
    intro id there
    unfold startedForms
    exact Table.isSome_find_insert there
  exact { linked with
    forms := forms
    notesApart := notes
    entriesApart := entries
    itemForm := fun i member => found i.formId (linked.itemForm i member) }

/- Photos. -/

def photoRow (now : Instant) (form : InspectionFormRow) (media : MediaStore.MediaRecord) (id : Int) : DiaryMediaRow :=
  ⟨id, form.diaryEntryId, some form.diaryNoteId, .photo, media.mimeType, MediaStore.originalColumn media, media.storedName,
    MediaStore.sizeColumn media.fileSize, media.url, some media.uploadedBy, now⟩

def linkedPhotos (db : Db) (form : InspectionFormId) (item order : Int) : Table InspectionFormMediaRow :=
  db.inspectionFormMedia.insert (fun id => ⟨id, form, item, db.diaryMedia.serial, order⟩) fun _ => rfl

def linkedDb (db : Db) (now : Instant) (form : InspectionFormRow) (photo : InspectionPhotoRecord) (item order : Int) :
    Db := { db with
  diaryMedia := db.diaryMedia.insert (photoRow now form photo.media) (fun _ => rfl)
  inspectionFormMedia := linkedPhotos db form.id item order }

theorem mem_linkedPhotos {item order : Int} {m : InspectionFormMediaRow} : m ∈ (linkedPhotos db form item order).rows ↔
    m ∈ db.inspectionFormMedia.rows ∨
      m = ⟨db.inspectionFormMedia.serial, form, item, db.diaryMedia.serial, order⟩ := by
  unfold linkedPhotos
  exact Table.mem_insert

theorem attachPhoto_visible {row : InspectionFormRow} {photo : InspectionPhotoRecord}
    (done : attachPhoto db scope now row photo = .ok after) : entryInScope db scope row.diaryEntryId = true := by
  unfold attachPhoto at done
  simp only at done
  split at done
  · cases done
  · obtain ⟨⟨media, mid⟩, inserted, -⟩ := bind_ok done
    exact MediaStore.inserted_visible inserted

theorem attachPhoto_ok {row : InspectionFormRow} {photo : InspectionPhotoRecord}
    (done : attachPhoto db scope now row photo = .ok after) : ∃ item ∈ db.inspectionFormItems.rows, ∃ order,
      item.formId = row.id ∧ after = linkedDb db now row photo item.id order := by
  unfold attachPhoto at done
  simp only at done
  split at done
  · cases done
  · next item first =>
    obtain ⟨⟨media, mid⟩, inserted, done⟩ := bind_ok done
    have value := insertRow_value inserted
    obtain ⟨-, rfl⟩ := insertRow_ok inserted
    obtain ⟨order, -, made⟩ := map_ok done
    have among := List.mem_of_mem_head? (Option.mem_def.mpr first)
    obtain ⟨member, belongs⟩ := Table.mem_select.mp among
    simp only [Bool.and_eq_true, decide_eq_true_eq] at belongs
    subst value
    exact ⟨item, member, order, belongs.1.1, made.symm⟩

theorem Linked.attach {row : InspectionFormRow} {photo : InspectionPhotoRecord} {item : InspectionFormItemRow}
    {order : Int} (linked : Linked db) (member : item ∈ db.inspectionFormItems.rows) (belongs : item.formId = row.id) :
    Linked (linkedDb db now row photo item.id order) := by
  have media : ∀ m ∈ (linkedPhotos db row.id item.id order).rows, m.diaryMediaId < db.diaryMedia.serial + 1 := by
    intro m member
    rcases mem_linkedPhotos.mp member with old | rfl
    · exact Int.lt_add_one_of_le (Int.le_of_lt (linked.linkMedia m old))
    · exact Int.lt_succ _
  have apart : (linkedPhotos db row.id item.id order).Unique InspectionFormMediaRow.diaryMediaId := by
    unfold linkedPhotos
    apply linked.linksApart.insert
    intro m there same
    exact absurd same (Int.ne_of_lt (linked.linkMedia m there))
  exact { linked with
    linkItem := by
      intro m there
      rcases mem_linkedPhotos.mp there with old | rfl
      · exact linked.linkItem m old
      · exact belongs ▸ Table.has_of_mem member
    linkMedia := media
    linksApart := apart }

theorem Linked.attachEach {row : InspectionFormRow} {photos : List InspectionPhotoRecord} (linked : Linked db)
    (done : attachEach scope now row db photos = .ok after) : Linked after := by
  induction photos generalizing db with
  | nil =>
    cases done
    exact linked
  | cons photo rest ih =>
    rw [InspectionStore.attachEach] at done
    split at done
    · cases done
    · next first =>
      obtain ⟨item, member, order, belongs, rfl⟩ := attachPhoto_ok first
      exact ih (linked.attach member belongs) done

theorem attachEach_forms {row : InspectionFormRow} {photos : List InspectionPhotoRecord}
    (done : attachEach scope now row db photos = .ok after) : after.inspectionForms = db.inspectionForms := by
  induction photos generalizing db with
  | nil =>
    cases done
    rfl
  | cons photo rest ih =>
    rw [InspectionStore.attachEach] at done
    split at done
    · cases done
    · next first =>
      obtain ⟨item, -, order, -, rfl⟩ := attachPhoto_ok first
      have later := ih done
      exact later

/-- A draft that was loaded is there after a change that leaves its owner alone. -/
theorem not_lost (loaded : load db scope id user = some draft)
    (forms : after.inspectionForms = claimedForms db.inspectionForms scope now id expected) :
    load after scope id user ≠ none := by
  obtain ⟨found, company, creator⟩ := load_some loaded
  have owned := @claimed_owner db scope now id id user draft expected found company creator
  have there : (load after scope id user).isSome = true := by
    apply load_there
    rw [forms]
    exact owned
  exact Option.isSome_iff_ne_none.mp there

/-- A claim that succeeds is of the draft that was loaded. -/
theorem claim_loaded {draft : InspectionForm} (loaded : load db scope id user = some draft)
    (taken : claimRevision db scope now id expected = (true, after)) :
    after = claimedDb db scope now id expected ∧ draft.form.revision = expected := by
  obtain ⟨claimed, row, found, revision, -⟩ := claim_true taken
  rw [(load_some loaded).1] at found
  cases found
  exact ⟨claimed, revision⟩

theorem attachPhotos_ok {found : Option InspectionForm} {photos : List InspectionPhotoRecord}
    (done : attachPhotos db scope now id user expected photos = .ok (found, after)) :
    found = none ∧ after = db ∨ ∃ draft, load db scope id user = some draft ∧ draft.form.revision = expected ∧
      attachEach scope now draft.form (claimedDb db scope now id expected) photos = .ok after ∧
      found = load after scope id user := by
  unfold InspectionStore.attachPhotos at done
  split at done
  · cases done
  · next draft loaded =>
    split at done
    · cases done
      exact .inl ⟨rfl, rfl⟩
    · next claimed taken =>
      split at done
      · cases done
      · next attached each =>
        cases done
        obtain ⟨rfl, revision⟩ := claim_loaded loaded taken
        exact .inr ⟨draft, loaded, revision, each, rfl⟩

theorem attachPhotos_stale {photos : List InspectionPhotoRecord}
    (done : attachPhotos db scope now id user expected photos = .ok (none, after)) : after = db := by
  rcases attachPhotos_ok done with ⟨-, same⟩ | ⟨draft, loaded, -, each, lost⟩
  · exact same
  · exact absurd lost.symm (not_lost loaded (attachEach_forms each))

theorem deletePhoto_ok {found : Option InspectionForm} {photo : Int}
    (done : deletePhoto db scope now id user expected photo = .ok (found, after)) :
    found = none ∧ after = db ∨ ∃ draft, load db scope id user = some draft ∧ draft.form.revision = expected ∧
      ∃ link ∈ db.inspectionFormMedia.rows, link.formId = id ∧
        after = detachMedia (claimedDb db scope now id expected) scope [link.diaryMediaId] ∧
        found = load after scope id user := by
  unfold InspectionStore.deletePhoto at done
  split at done
  · cases done
  · next draft loaded =>
    split at done
    · cases done
      exact .inl ⟨rfl, rfl⟩
    · next claimed taken =>
      split at done
      · cases done
      · next link reached =>
        cases done
        obtain ⟨rfl, revision⟩ := claim_loaded loaded taken
        obtain ⟨there, seen⟩ := Table.reach_eq_some_iff.mp reached
        simp only [Bool.and_eq_true, decide_eq_true_eq] at seen
        exact .inr ⟨draft, loaded, revision, link, (Table.find_eq_some_iff.mp there).1, seen.1, rfl, rfl⟩

/- Saving. -/

def writtenForm (input : InspectionDraftInput) (f : InspectionFormRow) : InspectionFormRow :=
  { f with
    inspector := input.inspector
    inspectionType := input.inspectionType
    stage := input.stage
    observations := input.observations
    weatherData := input.weatherData }

/-- The store after the form and its items are written. -/
def writtenDb (db : Db) (scope : CompanyId) (form : InspectionFormId) (proposed : List ProposedItem) : Db :=
  let keys := proposed.map (·.clientKey)
  let kept := dropItems (detachMedia db scope (orphanedMedia db scope form keys)) scope form keys
  { kept with inspectionFormItems := upsertItems form kept.inspectionFormItems proposed }

abbrev noted (user : UserId) (rendered : RenderedInspection) (n : DiaryNoteRow) : DiaryNoteRow :=
  { n with
    content := rendered.noteContent
    actionStatus := rendered.actionStatus
    actionRaisedBy := actionRaiser rendered user }

abbrev entered (user : UserId) (rendered : RenderedInspection) (e : SiteDiaryRow) : SiteDiaryRow :=
  { e with
    workCompleted := rendered.entrySummary
    actionStatus := rendered.actionStatus
    actionRaisedBy := actionRaiser rendered user }

def notedNotes (db : Db) (scope : CompanyId) (note : DiaryNoteId) (user : UserId) (rendered : RenderedInspection) :
    Table DiaryNoteRow :=
  db.diaryNotes.update (fun n => n.id = note && DiaryStore.noteVisible db scope n) (noted user rendered) fun _ => rfl

def enteredEntries (db : Db) (scope : CompanyId) (entry : DiaryEntryId) (user : UserId)
    (rendered : RenderedInspection) : Table SiteDiaryRow :=
  db.siteDiary.update (fun e => e.id = entry && jobInScope db scope e.jobId) (entered user rendered) fun _ => rfl

/-- The store after the note and the entry of a form are written. -/
def describedDb (db : Db) (scope : CompanyId) (form : InspectionFormRow) (user : UserId)
    (rendered : RenderedInspection) : Db :=
  { db with
    diaryNotes := notedNotes db scope form.diaryNoteId user rendered
    siteDiary := enteredEntries db scope form.diaryEntryId user rendered }

/-- The store after a save. -/
def savedDb (db : Db) (scope : CompanyId) (now : Instant) (form : InspectionFormRow) (user : UserId)
    (input : InspectionDraftInput) (rendered : RenderedInspection) : Db :=
  describedDb (writtenDb (writeFields (claimedDb db scope now form.id input.revision) scope form.id input) scope form.id
    (proposedItems input.retained)) scope form user rendered

theorem writeItems_ok {items : List InspectionItemInput} (done : writeItems db scope form items = .ok after) :
    after = writtenDb db scope form (proposedItems items) ∧ ((proposedItems items).map (·.clientKey)).Nodup := by
  unfold writeItems at done
  simp only at done
  split at done
  · cases done
  · next passed =>
    cases done
    refine ⟨rfl, ?_⟩
    unfold upsertViolation at passed
    generalize (proposedItems items).map (·.clientKey) = keys at passed
    have last : ∀ widths : List (Bool × PortError), ∀ clash : Bool × PortError,
        firstViolation (widths ++ [clash]) = none → clash.1 = false := by
      intro widths clash none
      induction widths with
      | nil => exact (firstViolation_cons.mp none).1
      | cons width rest ih => exact ih (firstViolation_cons.mp none).2
    simpa using last _ _ passed

theorem saveDraft_ok {found : Option InspectionForm} {input : InspectionDraftInput} {rendered : RenderedInspection}
    (done : saveDraft db scope now id user input rendered = .ok (found, after)) :
    found = none ∧ after = db ∨ ∃ draft, load db scope id user = some draft ∧ draft.form.revision = input.revision ∧
      ((proposedItems input.retained).map (·.clientKey)).Nodup ∧
      after = savedDb db scope now draft.form user input rendered ∧ found = load after scope id user := by
  unfold InspectionStore.saveDraft at done
  split at done
  · cases done
  · next draft loaded =>
    split at done
    · cases done
      exact .inl ⟨rfl, rfl⟩
    · next claimed taken =>
      obtain ⟨rfl, revision⟩ := claim_loaded loaded taken
      obtain ⟨written, wrote, done⟩ := bind_ok done
      obtain ⟨noted, noting, done⟩ := bind_ok done
      obtain ⟨entered, entering, done⟩ := bind_ok done
      cases done
      obtain ⟨⟨_, first⟩, changed, rfl⟩ := map_ok noting
      obtain ⟨⟨_, second⟩, also, rfl⟩ := map_ok entering
      obtain ⟨rfl, distinct⟩ := writeItems_ok wrote
      have notes := (checkedChange_ok changed).1
      subst notes
      have entries := (checkedChange_ok also).1
      subst entries
      have id : draft.form.id = id := (Table.find_eq_some_iff.mp (load_some loaded).1).2
      subst id
      exact .inr ⟨draft, loaded, revision, distinct, rfl, rfl⟩

theorem mem_proposedItems {items : List InspectionItemInput} {item : ProposedItem} (member : item ∈ proposedItems items) :
    ∃ sent ∈ items, item.clientKey = trim sent.clientKey := by
  obtain ⟨index, bound, rfl⟩ := List.mem_mapIdx.mp member
  exact ⟨items[index], List.getElem_mem bound, rfl⟩

theorem proposedItems_keys {input : InspectionDraftInput} {item : ProposedItem}
    (member : item ∈ proposedItems input.retained) : item.clientKey ≠ [] ∧ trim item.clientKey = item.clientKey := by
  obtain ⟨sent, among, same⟩ := mem_proposedItems member
  have filled := of_decide_eq_true (List.mem_filter.mp among).2
  rw [same, trim_trim]
  exact ⟨filled, rfl⟩

theorem Linked.write {proposed : List ProposedItem} (linked : Linked db)
    (there : (db.inspectionForms.find form).isSome = true)
    (keys : ∀ item ∈ proposed, item.clientKey ≠ [] ∧ trim item.clientKey = item.clientKey) :
    Linked (writtenDb db scope form proposed) := by
  have kept : Linked (dropItems (detachMedia db scope (orphanedMedia db scope form (proposed.map (·.clientKey)))) scope
      form (proposed.map (·.clientKey))) := linked.detach.drop
  exact kept.upsert there keys

theorem Linked.describe {row : InspectionFormRow} {rendered : RenderedInspection} (linked : Linked db) :
    Linked (describedDb db scope row user rendered) := by
  have noted : Linked { db with diaryNotes := notedNotes db scope row.diaryNoteId user rendered } := by
    unfold notedNotes
    exact linked.updateNotes fun _ => rfl
  unfold describedDb enteredEntries
  exact noted.updateEntries fun _ => rfl

theorem Linked.fields {input : InspectionDraftInput} (linked : Linked db) :
    Linked (writeFields (claimedDb db scope now form expected) scope form input) := by
  have claimed : Linked (claimedDb db scope now form expected) := linked.claim
  exact claimed.updateForms fun _ => rfl

theorem Linked.save {row : InspectionFormRow} {input : InspectionDraftInput} {rendered : RenderedInspection}
    (linked : Linked db) (there : (db.inspectionForms.find row.id).isSome = true) :
    Linked (savedDb db scope now row user input rendered) := by
  have still : ((writeFields (claimedDb db scope now row.id input.revision) scope row.id input).inspectionForms.find
      row.id).isSome = true := by
    unfold writeFields
    rw [Table.isSome_find_update]
    exact claimedForms_there.trans there
  have written : Linked (writtenDb (writeFields (claimedDb db scope now row.id input.revision) scope row.id input) scope
      row.id (proposedItems input.retained)) := linked.fields.write still fun _ => proposedItems_keys
  exact written.describe

end Functions

end DraftTables
