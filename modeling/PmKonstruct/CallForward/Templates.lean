import Mathlib.Data.List.Sort
import PmKonstruct.CallForward.Item

/- Call-forward templates: a programme captured as a list whose lines refer to each other by local ids, and the
   check that such a list can be written out again in one pass. -/
namespace Templates
open PlainText DomainErrors Schema CallForwardItem

def maxTemplateItems : Nat := 2000

def validateFrom (seen : List Int) : List TemplateItem → Except DomainError Unit
  | [] => .ok ()
  | item :: rest =>
    if trim item.title = [] then .error (.invalid "items.title" "every template item needs a title")
    else if ItemType.parse item.itemType = none then
      .error (.invalid "items.itemType" "must be one of HEADER, STAGE_CLAIM, TASK")
    else if item.localId ∈ seen then
      .error (.invalid "items.localId" "template items must have distinct local ids")
    else if item.localParentId = some item.localId then
      .error (.invalid "items.localParentId" "an item cannot be its own parent")
    else if item.localParentId.any fun p => decide (p ∉ seen) then
      .error (.invalid "items.localParentId" "a parent must appear before the item that refers to it")
    else validateFrom (seen ++ [item.localId]) rest

def validateItems (items : List TemplateItem) : Except DomainError Unit :=
  if items.length > maxTemplateItems then
    .error (.invalid "items" s!"a template cannot hold more than {maxTemplateItems} items")
  else validateFrom [] items

/-- One row of a job's programme, as a capture reads it. -/
structure ProgrammeRow where
  id : Int
  parentId : Option Int
  title : Text
  itemType : Text
  supplierTrade : Option Text
  sortOrder : Int
  deriving DecidableEq, Repr

/- The walk, parents first and depth first. -/

section Order
variable (rows : List ProgrammeRow)

/-- A parent outside the rows makes the row a root. -/
def presentParent (row : ProgrammeRow) : Option Int := row.parentId.filter fun p => rows.any (·.id = p)

def childrenOf (parent : Option Int) : List ProgrammeRow :=
  (rows.filter fun row => presentParent rows row = parent).insertionSort
    fun a b => a.sortOrder < b.sortOrder ∨ a.sortOrder = b.sortOrder ∧ a.id ≤ b.id

/-- The loop over the stack, its top first. A row that is already out is popped without effect; every other
    turn puts one row out, so there are no more turns than rows. -/
def walk : Nat → List ProgrammeRow → List Int → List ProgrammeRow
  | 0, _, _ => []
  | turns + 1, stack, emitted =>
    match stack.dropWhile fun row => decide (row.id ∈ emitted) with
    | [] => []
    | row :: rest => row :: walk turns (childrenOf rows (some row.id) ++ rest) (row.id :: emitted)

/-- What the walk did not reach is part of a cycle and is appended, so a capture loses nothing. -/
def inTreeOrder : List ProgrammeRow :=
  let out := walk rows rows.length (childrenOf rows none) []
  out ++ rows.filter fun row => decide (row.id ∉ out.map (·.id))

end Order

def position (index : Nat) : Int := if (index : Int) < 2 ^ 31 then index else 2 ^ 31 - 1

/-- Where an id stands; of two rows with one id the later counts. -/
def positionOf (ordered : List ProgrammeRow) (id : Int) : Option Int :=
  (ordered.zipIdx.reverse.find? (·.1.id = id)).map fun (_, index) => position index + 1

def capture (rows : List ProgrammeRow) : List TemplateItem :=
  let ordered := inTreeOrder rows
  ordered.zipIdx.map fun (row, index) =>
    ⟨position index + 1, row.parentId.bind (positionOf ordered), row.title, row.itemType, row.supplierTrade,
      position index⟩

/-- Every parent in the template is a HEADER and no HEADER has one. The check before storing or applying a
    template does not ask for it. -/
def wellNested (items : List TemplateItem) : Bool :=
  items.all fun item => item.localParentId.all fun p =>
    item.itemType ≠ text "HEADER" && items.any fun q => q.localId = p && q.itemType = text "HEADER"

/- What an accepted list looks like. -/

section Accepted
variable {items : List TemplateItem} {seen : List Int}

/-- What the check of one line asks, and what it leaves to the next. -/
structure Line (seen : List Int) (item : TemplateItem) : Prop where
  titled : trim item.title ≠ []
  typed : ∃ t, ItemType.parse item.itemType = some t
  fresh : item.localId ∉ seen
  below : ∀ p, item.localParentId = some p → p ∈ seen

theorem validateFrom_cons {item : TemplateItem} (valid : validateFrom seen (item :: items) = .ok ()) :
    Line seen item ∧ validateFrom (seen ++ [item.localId]) items = .ok () := by
  unfold validateFrom at valid
  split at valid
  · cases valid
  · next titled =>
    split at valid
    · cases valid
    · next typed =>
      split at valid
      · cases valid
      · next fresh =>
        split at valid
        · cases valid
        · split at valid
          · cases valid
          · next known =>
            refine ⟨⟨titled, Option.ne_none_iff_exists'.mp typed, fresh, fun p named => ?_⟩, valid⟩
            rw [named] at known
            simpa using known

theorem validateFrom_ok (valid : validateFrom seen items = .ok ()) :
    (∀ item ∈ items, (∃ t, ItemType.parse item.itemType = some t) ∧ item.localId ∉ seen) ∧
      items.Pairwise (·.localId ≠ ·.localId) := by
  induction items generalizing seen with
  | nil => simp
  | cons item rest ih =>
    obtain ⟨line, valid⟩ := validateFrom_cons valid
    obtain ⟨later, apart⟩ := ih valid
    constructor
    · intro other member
      cases List.mem_cons.mp member with
      | inl same =>
        rw [same]
        exact ⟨line.typed, line.fresh⟩
      | inr member =>
        obtain ⟨known, unseen⟩ := later other member
        exact ⟨known, fun old => unseen (List.mem_append_left _ old)⟩
    · apply List.pairwise_cons.mpr
      constructor
      · intro other member same
        have unseen := (later other member).2
        apply unseen
        rw [← same]
        exact List.mem_append_right _ (List.mem_singleton_self _)
      · exact apart

/-- A parent stands before the line that names it. -/
theorem parent_before {before after : List TemplateItem} {item : TemplateItem} {p : Int}
    (valid : validateFrom seen (before ++ item :: after) = .ok ()) (named : item.localParentId = some p) :
    p ∈ seen ∨ ∃ b ∈ before, b.localId = p := by
  induction before generalizing seen with
  | nil => exact .inl ((validateFrom_cons valid).1.below p named)
  | cons first rest ih =>
    rcases ih (validateFrom_cons valid).2 with listed | ⟨b, there, same⟩
    · rcases List.mem_append.mp listed with old | new
      · exact .inl old
      · exact .inr ⟨first, List.mem_cons_self, (List.mem_singleton.mp new).symm⟩
    · exact .inr ⟨b, List.mem_cons_of_mem _ there, same⟩

theorem validateItems_ok (valid : validateItems items = .ok ()) :
    (∀ item ∈ items, ∃ t, ItemType.parse item.itemType = some t) ∧ items.Pairwise (·.localId ≠ ·.localId) := by
  unfold validateItems at valid
  split at valid
  · cases valid
  · obtain ⟨known, apart⟩ := validateFrom_ok valid
    exact ⟨fun item member => (known item member).1, apart⟩

/-- Lines of an accepted template with one local id are one line. -/
theorem eq_of_localId {a b : TemplateItem} (valid : validateItems items = .ok ()) (left : a ∈ items)
    (right : b ∈ items) (same : a.localId = b.localId) : a = b := by
  by_contra different
  have symmetric : Std.Symm fun a b : TemplateItem => a.localId ≠ b.localId := ⟨fun _ _ apart => apart.symm⟩
  exact (validateItems_ok valid).2.forall left right different same

end Accepted

/- A capture of a well nested programme is well nested. -/

section Capture
variable {rows : List ProgrammeRow}

theorem mem_childrenOf {parent : Option Int} {row : ProgrammeRow} (child : row ∈ childrenOf rows parent) :
    row ∈ rows := by
  have listed := (List.perm_insertionSort _ _).mem_iff.mp child
  exact (List.mem_filter.mp listed).1

theorem mem_walk {turns : Nat} {stack : List ProgrammeRow} {emitted : List Int} {row : ProgrammeRow}
    (known : ∀ r ∈ stack, r ∈ rows) (out : row ∈ walk rows turns stack emitted) : row ∈ rows := by
  induction turns generalizing stack emitted with
  | zero => cases out
  | succ turns ih =>
    unfold walk at out
    split at out
    · cases out
    · next top rest popped =>
      have kept : ∀ r ∈ top :: rest, r ∈ rows := by
        intro r member
        rw [← popped] at member
        exact known r ((List.dropWhile_sublist _).subset member)
      cases List.mem_cons.mp out with
      | inl same =>
        rw [same]
        exact kept top List.mem_cons_self
      | inr later =>
        apply ih _ later
        intro r member
        cases List.mem_append.mp member with
        | inl child => exact mem_childrenOf child
        | inr below => exact kept r (List.mem_cons_of_mem _ below)

theorem mem_inTreeOrder {row : ProgrammeRow} (listed : row ∈ inTreeOrder rows) : row ∈ rows := by
  cases List.mem_append.mp listed with
  | inl walked => exact mem_walk (fun r root => mem_childrenOf root) walked
  | inr left => exact (List.mem_filter.mp left).1

theorem positionOf_some {ordered : List ProgrammeRow} {id p : Int} (found : positionOf ordered id = some p) :
    ∃ row index, (row, index) ∈ ordered.zipIdx ∧ row.id = id ∧ p = position index + 1 := by
  obtain ⟨⟨row, index⟩, located, same⟩ := Option.map_eq_some_iff.mp found
  have member := List.mem_reverse.mp (List.mem_of_find?_eq_some located)
  have named : row.id = id := by simpa using List.find?_some located
  exact ⟨row, index, member, named, same.symm⟩

theorem capture_wellNested
    (nested : ∀ row ∈ rows, ∀ p, row.parentId = some p → row.itemType ≠ text "HEADER" ∧
      ∀ parent ∈ rows, parent.id = p → parent.itemType = text "HEADER") : wellNested (capture rows) = true := by
  simp only [wellNested, List.all_eq_true]
  intro item captured
  obtain ⟨⟨row, index⟩, listed, made⟩ := List.mem_map.mp captured
  have member := mem_inTreeOrder (List.fst_mem_of_mem_zipIdx listed)
  subst made
  cases up : row.parentId.bind (positionOf (inTreeOrder rows)) with
  | none => simp [up]
  | some p =>
    obtain ⟨parent, named, found⟩ := Option.bind_eq_some_iff.mp up
    obtain ⟨above, place, alsoListed, same, stands⟩ := positionOf_some found
    obtain ⟨below, header⟩ := nested row member parent named
    have top := header above (mem_inTreeOrder (List.fst_mem_of_mem_zipIdx alsoListed)) same
    simp only [up, Option.all_some, Bool.and_eq_true, List.any_eq_true, decide_eq_true_eq]
    constructor
    · simpa using below
    · exact ⟨_, List.mem_map.mpr ⟨_, alsoListed, rfl⟩, stands.symm, top⟩

end Capture

end Templates
