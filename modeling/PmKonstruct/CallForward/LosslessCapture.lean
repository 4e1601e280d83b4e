import PmKonstruct.CallForward.TreeOrder
import PmKonstruct.Library.ParentForest

/- What a capture makes of any rows with ids of their own. Nothing is lost or put twice; without a cycle the order is
   that of the tree; and the check of a template refuses what it would refuse in the rows, and cycles. -/
namespace LosslessCapture
open PlainText DomainErrors Schema CallForwardItem Templates TreeOrder PreorderWalk ParentForest

/-- The loop, one row of the stack a turn: a row that is out already is dropped. -/
def treeLoop (rows : List ProgrammeRow) : Nat → List ProgrammeRow → List Int → Option (List ProgrammeRow)
  | _, [], _ => some []
  | 0, _ :: _, _ => none
  | turns + 1, row :: stack, emitted =>
    if row.id ∈ emitted then treeLoop rows turns stack emitted
    else (treeLoop rows turns (kidsOf rows row ++ stack) (row.id :: emitted)).map (row :: ·)

/-- The parent of an id, if both are there. -/
def parentIn (rows : List ProgrammeRow) (id : Int) : Option Int := (rows.find? (·.id = id)).bind (presentParent rows)

section Order
variable (rows ordered : List ProgrammeRow)

def ParentsFirst : Prop := ∀ (i : Nat) row, ordered[i]? = some row → ∀ p, presentParent rows row = some p →
  ∃ (j : Nat) (parent : ProgrammeRow), j < i ∧ ordered[j]? = some parent ∧ parent.id = p

def SiblingsInOrder : Prop := ordered.Pairwise fun a b => presentParent rows a = presentParent rows b →
  a.sortOrder < b.sortOrder ∨ a.sortOrder = b.sortOrder ∧ a.id < b.id

def SubtreesTogether : Prop := ∀ row ∈ rows, ∃ before below after, ordered = before ++ row :: (below ++ after) ∧
  ∀ r ∈ rows, r ∈ below ↔ Above (parentIn rows) r.id row.id

end Order

section Rows
variable {rows stack out : List ProgrammeRow} {row r : ProgrammeRow} {emitted : List Int} {turns i : Nat} {p : Int}

theorem treeLoop_walk (waiting : Waiting rows stack emitted) (keyed : Keyed rows)
    (enough : rows.length ≤ turns + emitted.length) :
    treeLoop rows turns stack emitted = some (walk rows turns stack emitted) := by
  induction turns generalizing stack emitted with
  | zero =>
    cases stack with
    | nil => rfl
    | cons row stack =>
      have := waiting.short
      omega
  | succ turns ih =>
    cases stack with
    | nil => rfl
    | cons row stack =>
      have unseen := waiting.new row List.mem_cons_self
      have next := @ih (kidsOf rows row ++ stack) (row.id :: emitted) (waiting.next keyed) (by rw [List.length_cons]; omega)
      rw [treeLoop, if_neg unseen, next, walk_cons waiting]
      rfl

theorem children_sorted (keyed : Keyed rows) {parent : Option Int} : (childrenOf rows parent).Pairwise fun a b =>
    a.sortOrder < b.sortOrder ∨ a.sortOrder = b.sortOrder ∧ a.id < b.id := by
  have total : Std.Total fun a b : ProgrammeRow => a.sortOrder < b.sortOrder ∨ a.sortOrder = b.sortOrder ∧ a.id ≤ b.id :=
    ⟨fun a b => by omega⟩
  have chained : IsTrans ProgrammeRow fun a b => a.sortOrder < b.sortOrder ∨ a.sortOrder = b.sortOrder ∧ a.id ≤ b.id :=
    ⟨fun a b c => by omega⟩
  have sorted : (childrenOf rows parent).Pairwise fun a b : ProgrammeRow =>
      a.sortOrder < b.sortOrder ∨ a.sortOrder = b.sortOrder ∧ a.id ≤ b.id := List.pairwise_insertionSort _ _
  refine sorted.imp₂ (fun a b before apart => ?_) (children_keyed keyed)
  omega

/-- The loop ends after as many turns as there are rows. -/
theorem treeLoop_ends (keyed : Keyed rows) (enough : rows.length ≤ turns) :
    treeLoop rows turns (childrenOf rows none) [] = some (walk rows rows.length (childrenOf rows none) []) := by
  have waiting := waiting_roots keyed
  rw [treeLoop_walk waiting keyed enough]
  have walked := walk_walks keyed waiting (Nat.le_refl rows.length)
  exact congrArg some ((walk_walks keyed waiting enough).unique walked)

theorem inTreeOrder_perm (keyed : Keyed rows) : (inTreeOrder rows).Perm rows :=
  (List.perm_ext_iff_of_nodup (inTreeOrder_keyed keyed).nodup keyed.nodup).mpr fun _ => mem_inTreeOrder_iff keyed

theorem find_keyed (keyed : Keyed rows) (member : row ∈ rows) : rows.find? (·.id = row.id) = some row := by
  cases found : rows.find? (·.id = row.id) with
  | none =>
    have absent := List.find?_eq_none.mp found row member
    simp at absent
  | some other =>
    have same : other.id = row.id := by simpa using List.find?_some found
    rw [keyed.eq (List.mem_of_find?_eq_some found) member same]

theorem parentIn_row (keyed : Keyed rows) (member : row ∈ rows) : parentIn rows row.id = presentParent rows row := by
  rw [parentIn, find_keyed keyed member, Option.bind_some]

/-- Without a cycle nothing is left over. -/
theorem walks_of_acyclic (keyed : Keyed rows) (acyclic : Acyclic (parentIn rows)) :
    Walks (kidsOf rows) (childrenOf rows none) (inTreeOrder rows) := by
  have walked := walk_walks keyed (waiting_roots keyed) (Nat.le_refl rows.length)
  have complete : ∀ id ∈ rows.map (·.id), ∀ row ∈ rows, row.id = id →
      row ∈ walk rows rows.length (childrenOf rows none) [] := by
    refine @Acyclic.induction Int (parentIn rows) (rows.map (·.id)) (fun id => ∀ row ∈ rows, row.id = id →
      row ∈ walk rows rows.length (childrenOf rows none) []) acyclic ?_ ?_
    · intro id _ p up
      obtain ⟨row, -, above⟩ := Option.bind_eq_some_iff.mp up
      obtain ⟨-, parent, there, same⟩ := presentParent_some.mp above
      exact List.mem_map.mpr ⟨parent, there, same⟩
    · rintro id - ih row there rfl
      cases above : presentParent rows row with
      | none => exact walked.sublist.subset (mem_children.mpr ⟨there, above⟩)
      | some p =>
        obtain ⟨-, parent, known, same⟩ := presentParent_some.mp above
        have visited := ih p ((parentIn_row keyed there).trans above) parent known same
        exact (walked.children_sublist visited).subset (mem_children.mpr ⟨there, above.trans (congrArg some same.symm)⟩)
  have all : ∀ row ∈ rows, row ∈ walk rows rows.length (childrenOf rows none) [] := fun row there =>
    complete row.id (List.mem_map_of_mem there) row there rfl
  rw [inTreeOrder_eq keyed walked all]
  exact walked

theorem walks_parents (keyed : Keyed rows) (walks : Walks (kidsOf rows) (childrenOf rows none) (inTreeOrder rows)) :
    ParentsFirst rows (inTreeOrder rows) := by
  intro i row stands p above
  obtain ⟨-, parent, known, rfl⟩ := presentParent_some.mp above
  have there := (mem_inTreeOrder_iff keyed).mp (List.mem_of_getElem? stands)
  obtain ⟨j, earlier, found⟩ := walks.child_after (inTreeOrder_keyed keyed).nodup ((mem_inTreeOrder_iff keyed).mpr known)
    (mem_children.mpr ⟨there, above⟩) stands
  exact ⟨j, parent, earlier, found, rfl⟩

theorem children_listed (keyed : Keyed rows) (walks : Walks (kidsOf rows) (childrenOf rows none) (inTreeOrder rows))
    {parent : Option Int} : (childrenOf rows parent).Sublist (inTreeOrder rows) := by
  cases parent with
  | none => exact walks.sublist
  | some p =>
    cases kids : childrenOf rows (some p) with
    | nil => exact List.nil_sublist _
    | cons kid rest =>
      have first : kid ∈ childrenOf rows (some p) := by
        rw [kids]
        exact List.mem_cons_self
      obtain ⟨-, parent, known, rfl⟩ := presentParent_some.mp (mem_children.mp first).2
      rw [← kids]
      exact walks.children_sublist ((mem_inTreeOrder_iff keyed).mpr known)

/-- The rows under one parent come out as they were sorted. -/
theorem walks_siblings (keyed : Keyed rows) (walks : Walks (kidsOf rows) (childrenOf rows none) (inTreeOrder rows)) :
    SiblingsInOrder rows (inTreeOrder rows) := by
  have sorted : ∀ parent, ((inTreeOrder rows).filter fun r => presentParent rows r = parent).Pairwise fun a b =>
      a.sortOrder < b.sortOrder ∨ a.sortOrder = b.sortOrder ∧ a.id < b.id := by
    intro parent
    have listed : (childrenOf rows parent).Sublist (inTreeOrder rows) := children_listed keyed walks
    rw [filter_eq_of_sublist listed (inTreeOrder_keyed keyed).nodup]
    · exact children_sorted keyed
    · intro r there
      rw [mem_children, decide_eq_true_eq]
      exact and_iff_right ((mem_inTreeOrder_iff keyed).mp there)
  refine List.pairwise_iff_getElem.mpr fun i j left right less siblings => ?_
  have among := List.pairwise_filter.mp (sorted (presentParent rows (inTreeOrder rows)[j]))
  exact List.pairwise_iff_getElem.mp among i j left right less (decide_eq_true siblings) (decide_eq_true rfl)

/-- What a walk puts out below a row is what is below it. -/
theorem below_row (keyed : Keyed rows) {below : List ProgrammeRow} (member : row ∈ rows)
    (inner : Walks (kidsOf rows) (kidsOf rows row) below) (there : r ∈ rows) :
    r ∈ below ↔ Above (parentIn rows) r.id row.id := by
  have up : ∀ a ∈ rows, ∀ b, b ∈ kidsOf rows a → b ∈ rows ∧ parentIn rows b.id = some a.id := by
    intro a _ b kid
    obtain ⟨known, above⟩ := mem_children.mp kid
    exact ⟨known, (parentIn_row keyed known).trans above⟩
  constructor
  · intro visited
    obtain ⟨kid, first, path⟩ := inner.reached visited
    have climbs : r ∈ rows ∧ Above (parentIn rows) r.id row.id := by
      clear there visited
      induction path with
      | refl =>
        obtain ⟨known, above⟩ := up row member kid first
        exact ⟨known, .single above⟩
      | tail _ child ih =>
        obtain ⟨known, above⟩ := up _ ih.1 _ child
        exact ⟨known, .head above ih.2⟩
    exact climbs.2
  · intro above
    generalize start : r.id = id at above
    induction above using Relation.TransGen.head_induction_on generalizing r with
    | single step =>
      rw [← start, parentIn_row keyed there] at step
      exact inner.sublist.subset (mem_children.mpr ⟨there, step⟩)
    | head step _ ih =>
      rw [← start, parentIn_row keyed there] at step
      obtain ⟨-, parent, known, rfl⟩ := presentParent_some.mp step
      exact (inner.children_sublist (ih known rfl)).subset (mem_children.mpr ⟨there, step⟩)

theorem walks_subtrees (keyed : Keyed rows) (walks : Walks (kidsOf rows) (childrenOf rows none) (inTreeOrder rows)) :
    SubtreesTogether rows (inTreeOrder rows) := by
  intro row member
  obtain ⟨before, below, after, split, inner⟩ := walks.subtree ((mem_inTreeOrder_iff keyed).mpr member)
  exact ⟨before, below, after, split, fun r there => below_row keyed member inner there⟩

end Rows

/- The check of a capture. -/

section Checked
variable {rows ordered : List ProgrammeRow} {items : List TemplateItem} {seen : List Int} {row : ProgrammeRow} {i : Nat}

theorem validateFrom_titled (valid : validateFrom seen items = .ok ()) : ∀ item ∈ items, trim item.title ≠ [] := by
  induction items generalizing seen with
  | nil => exact fun item member => absurd member List.not_mem_nil
  | cons first rest ih =>
    obtain ⟨line, valid⟩ := validateFrom_cons valid
    exact List.forall_mem_cons.mpr ⟨line.titled, ih valid⟩

/-- Lines that each pass after those before them pass together. -/
theorem validateFrom_lines (lines : ∀ (i : Nat) item, items[i]? = some item →
    Line (seen ++ (items.take i).map (·.localId)) item) : validateFrom seen items = .ok () := by
  induction items generalizing seen with
  | nil => rfl
  | cons item rest ih =>
    obtain ⟨titled, ⟨itemType, typed⟩, fresh, below⟩ := lines 0 item rfl
    rw [List.take_zero, List.map_nil, List.append_nil] at fresh below
    have other : item.localParentId ≠ some item.localId := fun same => fresh (below _ same)
    have known : ¬ (item.localParentId.any fun p => decide (p ∉ seen)) = true := by
      cases named : item.localParentId with
      | none => simp
      | some p => simpa using below p named
    unfold validateFrom
    rw [if_neg titled, typed, if_neg (Option.some_ne_none _), if_neg fresh, if_neg other, if_neg known]
    refine ih fun i line stands => ?_
    have later := lines (i + 1) line stands
    rwa [List.take_succ_cons, List.map_cons, List.append_cons] at later

theorem idxOf_keyed (keyed : Keyed ordered) (stands : ordered[i]? = some row) :
    (ordered.map (·.id)).idxOf row.id = i := by
  have inside : i < (ordered.map (·.id)).length := by
    rw [List.length_map]
    exact (List.getElem?_eq_some_iff.mp stands).1
  have located : (ordered.map (·.id))[i] = row.id := by
    rw [List.getElem_map]
    exact congrArg ProgrammeRow.id (List.getElem?_eq_some_iff.mp stands).2
  have distinct : (ordered.map (·.id)).Nodup := List.pairwise_map.mpr keyed
  rw [← located]
  exact distinct.idxOf_getElem i inside

theorem acyclic_of_parents (keyed : Keyed rows) (first : ParentsFirst rows (inTreeOrder rows)) :
    Acyclic (parentIn rows) := by
  have ordered := inTreeOrder_keyed keyed
  apply acyclic_of_rank fun id => ((inTreeOrder rows).map (·.id)).idxOf id
  intro a b up
  obtain ⟨row, found, above⟩ := Option.bind_eq_some_iff.mp up
  have own : row.id = a := by simpa using List.find?_some found
  obtain ⟨i, stands⟩ := List.mem_iff_getElem?.mp ((mem_inTreeOrder_iff keyed).mpr (List.mem_of_find?_eq_some found))
  obtain ⟨j, parent, earlier, located, rfl⟩ := first i row stands b above
  rw [← own, idxOf_keyed ordered stands, idxOf_keyed ordered located]
  exact earlier

theorem capture_lines (keyed : Keyed rows) (small : (inTreeOrder rows).length ≤ maxTemplateItems)
    (first : ParentsFirst rows (inTreeOrder rows)) (titled : ∀ row ∈ rows, trim row.title ≠ [])
    (typed : ∀ row ∈ rows, ∃ t, ItemType.parse row.itemType = some t) : validateFrom [] (capture rows) = .ok () := by
  have ordered := inTreeOrder_keyed keyed
  rw [maxTemplateItems] at small
  have numbered : ∀ (i : Nat) item, (capture rows)[i]? = some item → item.localId = (i : Int) + 1 := by
    intro i item stands
    rw [capture_getElem?] at stands
    obtain ⟨row, located, rfl⟩ := Option.map_eq_some_iff.mp stands
    have inside := (List.getElem?_eq_some_iff.mp located).1
    rw [lineAt, position_eq (by omega)]
  have before : ∀ (i : Nat) (id : Int), id ∈ ((capture rows).take i).map (·.localId) ↔
      ∃ j : Nat, j < i ∧ j < (inTreeOrder rows).length ∧ id = (j : Int) + 1 := by
    intro i id
    rw [List.mem_map]
    constructor
    · rintro ⟨item, member, rfl⟩
      obtain ⟨j, stands⟩ := List.mem_iff_getElem?.mp member
      rw [List.getElem?_take] at stands
      obtain ⟨within, stands⟩ := Option.ite_none_right_eq_some.mp stands
      have inside := (List.getElem?_eq_some_iff.mp stands).1
      rw [length_capture] at inside
      exact ⟨j, within, inside, numbered j item stands⟩
    · rintro ⟨j, within, inside, rfl⟩
      rw [← length_capture] at inside
      have stands := List.getElem?_eq_getElem inside
      refine ⟨(capture rows)[j], List.mem_iff_getElem?.mpr ⟨j, ?_⟩, numbered j _ stands⟩
      rw [List.getElem?_take_of_lt within, stands]
  refine validateFrom_lines fun i item stands => ?_
  have own := numbered i item stands
  rw [capture_getElem?] at stands
  obtain ⟨row, located, rfl⟩ := Option.map_eq_some_iff.mp stands
  have there := (mem_inTreeOrder_iff keyed).mp (List.mem_of_getElem? located)
  rw [List.nil_append]
  refine ⟨titled row there, typed row there, fun old => ?_, fun p named => ?_⟩
  · obtain ⟨j, earlier, -, same⟩ := (before i _).mp old
    omega
  · obtain ⟨q, up, found⟩ := Option.bind_eq_some_iff.mp named
    obtain ⟨parent, j, stood, rfl, rfl⟩ := (positionOf_iff ordered (by omega)).mp found
    have known := (mem_inTreeOrder_iff keyed).mp (List.mem_of_getElem? stood)
    obtain ⟨k, again, earlier, alsoStood, same⟩ := first i row located parent.id
      (presentParent_some.mpr ⟨up, parent, known, rfl⟩)
    have inside := (List.getElem?_eq_some_iff.mp stood).1
    cases ordered.eq (List.mem_of_getElem? alsoStood) (List.mem_of_getElem? stood) same
    have equal : j = k := (List.getElem?_inj inside ordered.nodup).mp (stood.trans alsoStood.symm)
    exact (before i _).mpr ⟨j, equal ▸ earlier, inside, rfl⟩

theorem validateItems_capture (keyed : Keyed rows) : validateItems (capture rows) = .ok () ↔
    Acyclic (parentIn rows) ∧ (∀ row ∈ rows, trim row.title ≠ []) ∧
      (∀ row ∈ rows, ∃ t, ItemType.parse row.itemType = some t) ∧ rows.length ≤ maxTemplateItems := by
  have size : (capture rows).length = rows.length := length_capture.trans (inTreeOrder_perm keyed).length_eq
  constructor
  · intro valid
    obtain ⟨short, lines⟩ := validateItems_short valid
    have line : ∀ row ∈ rows, ∃ item ∈ capture rows, item.title = row.title ∧ item.itemType = row.itemType := by
      intro row there
      obtain ⟨i, stands⟩ := List.mem_iff_getElem?.mp ((mem_inTreeOrder_iff keyed).mpr there)
      refine ⟨lineAt (inTreeOrder rows) i row, List.mem_iff_getElem?.mpr ⟨i, ?_⟩, rfl, rfl⟩
      rw [capture_getElem?, stands, Option.map_some]
    have first : ParentsFirst rows (inTreeOrder rows) := by
      intro i row stands p above
      obtain ⟨parent, j, earlier, located, same⟩ := parent_earlier keyed valid stands above
      exact ⟨j, parent, earlier, located, same⟩
    refine ⟨acyclic_of_parents keyed first, fun row there => ?_, fun row there => ?_, size ▸ short⟩
    · obtain ⟨item, captured, title, -⟩ := line row there
      exact title ▸ validateFrom_titled lines item captured
    · obtain ⟨item, captured, -, itemType⟩ := line row there
      exact itemType ▸ (validateItems_ok valid).1 item captured
  · rintro ⟨acyclic, titled, typed, short⟩
    have lines := capture_lines keyed (length_capture ▸ size ▸ short)
      (walks_parents keyed (walks_of_acyclic keyed acyclic)) titled typed
    rw [validateItems, if_neg (by omega), lines]

end Checked

/-- The whole of it, for any rows with ids of their own. -/
theorem capture_lossless (rows : List ProgrammeRow) (keyed : Keyed rows) :
    (∃ out, (∀ turns, rows.length ≤ turns → treeLoop rows turns (childrenOf rows none) [] = some out) ∧
      inTreeOrder rows = out ++ rows.filter fun row => decide (row.id ∉ out.map (·.id))) ∧
    (inTreeOrder rows).Perm rows ∧
    (Acyclic (parentIn rows) → ParentsFirst rows (inTreeOrder rows) ∧ SiblingsInOrder rows (inTreeOrder rows) ∧
      SubtreesTogether rows (inTreeOrder rows)) ∧
    (validateItems (capture rows) = .ok () ↔ Acyclic (parentIn rows) ∧ (∀ row ∈ rows, trim row.title ≠ []) ∧
      (∀ row ∈ rows, ∃ t, ItemType.parse row.itemType = some t) ∧ rows.length ≤ maxTemplateItems) := by
  refine ⟨⟨_, fun turns enough => treeLoop_ends keyed enough, rfl⟩, inTreeOrder_perm keyed, fun acyclic => ?_,
    validateItems_capture keyed⟩
  have walks := walks_of_acyclic keyed acyclic
  exact ⟨walks_parents keyed walks, walks_siblings keyed walks, walks_subtrees keyed walks⟩

/-- Children numbered from one, so that they stand before their parent by number. -/
def board : List ProgrammeRow :=
  [⟨11, some 10, text "Walls", text "TASK", none, 1⟩, ⟨12, some 10, text "Roof", text "TASK", none, 2⟩,
    ⟨10, none, text "Frame", text "HEADER", none, 7⟩, ⟨20, some 99, text "Fence", text "TASK", none, 8⟩]

theorem board_lossless : (inTreeOrder board).map (·.id) = [10, 11, 12, 20] ∧ validateItems (capture board) = .ok () ∧
    (inTreeOrder board).Perm board ∧ ParentsFirst board (inTreeOrder board) ∧
    SiblingsInOrder board (inTreeOrder board) ∧ SubtreesTogether board (inTreeOrder board) := by
  have keyed : Keyed board := by
    rw [Keyed]
    decide
  have valid : validateItems (capture board) = .ok () := by decide +kernel
  obtain ⟨-, perm, order, verdict⟩ := capture_lossless board keyed
  exact ⟨by decide +kernel, valid, perm, order (verdict.mp valid).1⟩

end LosslessCapture
