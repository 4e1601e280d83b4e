import PmKonstruct.CallForward.Templates
import PmKonstruct.Library.PreorderWalk

/- The order of a capture. The loop never meets a row twice, so it is the walk of the forest; and a capture that is
   accepted has nothing left over, so it is that walk and nothing else. -/
namespace TreeOrder
open PlainText DomainErrors Schema CallForwardItem Templates PreorderWalk

/-- Ids are the keys of the rows. -/
def Keyed (rows : List ProgrammeRow) : Prop := rows.Pairwise (·.id ≠ ·.id)

abbrev kidsOf (rows : List ProgrammeRow) (row : ProgrammeRow) : List ProgrammeRow := childrenOf rows (some row.id)

section Rows
variable {rows stack : List ProgrammeRow} {row other : ProgrammeRow} {parent : Option Int} {emitted : List Int}
    {p : Int}

theorem Keyed.eq (keyed : Keyed rows) (left : row ∈ rows) (right : other ∈ rows) (same : row.id = other.id) :
    row = other := by
  by_contra different
  have symmetric : Std.Symm fun a b : ProgrammeRow => a.id ≠ b.id := ⟨fun _ _ apart => apart.symm⟩
  exact List.Pairwise.forall keyed left right different same

theorem Keyed.nodup (keyed : Keyed rows) : rows.Nodup := keyed.imp fun apart same => apart (congrArg _ same)

theorem mem_children : row ∈ childrenOf rows parent ↔ row ∈ rows ∧ presentParent rows row = parent := by
  rw [childrenOf, List.mem_insertionSort, List.mem_filter, decide_eq_true_eq]

theorem children_keyed (keyed : Keyed rows) : Keyed (childrenOf rows parent) := by
  have symmetric : Std.Symm fun a b : ProgrammeRow => a.id ≠ b.id := ⟨fun _ _ apart => apart.symm⟩
  exact (List.perm_insertionSort _ _).pairwise_iff (fun apart => apart.symm) |>.mpr (keyed.filter _)

theorem presentParent_some : presentParent rows row = some p ↔ row.parentId = some p ∧ ∃ r ∈ rows, r.id = p := by
  rw [presentParent, Option.filter_eq_some_iff, List.any_eq_true]
  simp only [decide_eq_true_eq]

/- The loop. -/

/-- Rows that wait are new, once each, and what stands above a row is out before it waits. -/
structure Waiting (rows stack : List ProgrammeRow) (emitted : List Int) : Prop where
  known : ∀ r ∈ stack, r ∈ rows
  keyed : Keyed stack
  new : ∀ r ∈ stack, r.id ∉ emitted
  below : ∀ r ∈ stack, ∀ p, presentParent rows r = some p → p ∈ emitted
  up : ∀ r ∈ rows, r.id ∈ emitted → ∀ p, presentParent rows r = some p → p ∈ emitted
  once : emitted.Nodup
  real : ∀ id ∈ emitted, ∃ r ∈ rows, r.id = id

theorem waiting_roots (keyed : Keyed rows) : Waiting rows (childrenOf rows none) [] where
  known := fun r member => (mem_children.mp member).1
  keyed := children_keyed keyed
  new := fun _ _ => List.not_mem_nil
  below := by
    intro r member p named
    rw [(mem_children.mp member).2] at named
    cases named
  up := fun _ _ out => absurd out List.not_mem_nil
  once := List.nodup_nil
  real := fun _ out => absurd out List.not_mem_nil

theorem Waiting.next (keyed : Keyed rows) (waiting : Waiting rows (row :: stack) emitted) :
    Waiting rows (kidsOf rows row ++ stack) (row.id :: emitted) := by
  obtain ⟨known, apart, new, below, up, once, real⟩ := waiting
  obtain ⟨here, known⟩ := List.forall_mem_cons.mp known
  obtain ⟨unseen, new⟩ := List.forall_mem_cons.mp new
  obtain ⟨above, below⟩ := List.forall_mem_cons.mp below
  obtain ⟨first, apart⟩ := List.pairwise_cons.mp apart
  refine ⟨?_, ?_, ?_, ?_, ?_, List.nodup_cons.mpr ⟨unseen, once⟩, ?_⟩
  · intro r member
    rcases List.mem_append.mp member with kid | later
    · exact (mem_children.mp kid).1
    · exact known r later
  · refine List.pairwise_append.mpr ⟨children_keyed keyed, apart, fun kid child r later same => ?_⟩
    obtain ⟨there, under⟩ := mem_children.mp child
    rw [keyed.eq there (known r later) same] at under
    exact unseen (below r later row.id under)
  · intro r member out
    rcases List.mem_append.mp member with kid | later
    · obtain ⟨there, under⟩ := mem_children.mp kid
      rcases List.mem_cons.mp out with same | old
      · rw [keyed.eq there here same] at under
        exact unseen (above row.id under)
      · exact unseen (up r there old row.id under)
    · rcases List.mem_cons.mp out with same | old
      · exact first r later same.symm
      · exact new r later old
  · intro r member p named
    rcases List.mem_append.mp member with kid | later
    · rw [(mem_children.mp kid).2] at named
      cases named
      exact List.mem_cons_self
    · exact List.mem_cons_of_mem _ (below r later p named)
  · intro r there out p named
    rcases List.mem_cons.mp out with same | old
    · rw [keyed.eq there here same] at named
      exact List.mem_cons_of_mem _ (above p named)
    · exact List.mem_cons_of_mem _ (up r there old p named)
  · intro id out
    rcases List.mem_cons.mp out with rfl | old
    · exact ⟨row, here, rfl⟩
    · exact real id old

/-- While a row waits, fewer rows are out than there are. -/
theorem Waiting.short (waiting : Waiting rows (row :: stack) emitted) : emitted.length < rows.length := by
  have distinct : (row.id :: emitted).Nodup :=
    List.nodup_cons.mpr ⟨waiting.new row List.mem_cons_self, waiting.once⟩
  have within : row.id :: emitted ⊆ rows.map (·.id) := by
    intro id member
    rcases List.mem_cons.mp member with rfl | out
    · exact List.mem_map_of_mem (waiting.known row List.mem_cons_self)
    · obtain ⟨r, there, same⟩ := waiting.real id out
      exact List.mem_map.mpr ⟨r, there, same⟩
  have counted := (List.subperm_of_subset distinct within).length_le
  rw [List.length_cons, List.length_map] at counted
  exact counted

/-- A row that is new is taken at once. -/
theorem walk_cons {turns : Nat} (waiting : Waiting rows (row :: stack) emitted) :
    walk rows (turns + 1) (row :: stack) emitted = row :: walk rows turns (kidsOf rows row ++ stack) (row.id :: emitted) := by
  have unseen := waiting.new row List.mem_cons_self
  rw [walk, List.dropWhile_cons_of_neg (by simpa using unseen)]

theorem walk_walks {turns : Nat} (keyed : Keyed rows) (waiting : Waiting rows stack emitted)
    (enough : rows.length ≤ turns + emitted.length) : Walks (kidsOf rows) stack (walk rows turns stack emitted) := by
  induction turns generalizing stack emitted with
  | zero =>
    cases stack with
    | nil => exact .nil
    | cons row stack =>
      have := waiting.short
      omega
  | succ turns ih =>
    cases stack with
    | nil => exact .nil
    | cons row stack =>
      rw [walk_cons waiting]
      refine .cons (ih (waiting.next keyed) ?_)
      rw [List.length_cons]
      omega

/-- Whatever the rows, none comes out twice. -/
theorem walk_keyed {turns : Nat} : Keyed (walk rows turns stack emitted) ∧
    ∀ r ∈ walk rows turns stack emitted, r.id ∉ emitted := by
  induction turns generalizing stack emitted with
  | zero => exact ⟨List.Pairwise.nil, fun r member => absurd member List.not_mem_nil⟩
  | succ turns ih =>
    rw [walk]
    split
    · exact ⟨List.Pairwise.nil, fun r member => absurd member List.not_mem_nil⟩
    · next top rest popped =>
      have nonempty : stack.dropWhile (fun r => decide (r.id ∈ emitted)) ≠ [] := by
        rw [popped]
        exact List.cons_ne_nil _ _
      have new : top.id ∉ emitted := by
        have stopped := List.head_dropWhile_not (fun r : ProgrammeRow => decide (r.id ∈ emitted)) nonempty
        simpa [popped] using stopped
      obtain ⟨keyed, unseen⟩ := @ih (kidsOf rows top ++ rest) (top.id :: emitted)
      refine ⟨List.pairwise_cons.mpr ⟨fun r member same => ?_, keyed⟩, fun r member => ?_⟩
      · exact unseen r member (by rw [← same]; exact List.mem_cons_self)
      · rcases List.mem_cons.mp member with rfl | later
        · exact new
        · exact fun old => unseen r later (List.mem_cons_of_mem _ old)

theorem inTreeOrder_keyed (keyed : Keyed rows) : Keyed (inTreeOrder rows) := by
  refine List.pairwise_append.mpr ⟨walk_keyed.1, keyed.filter _, fun r out left remaining same => ?_⟩
  have apart := of_decide_eq_true (List.mem_filter.mp remaining).2
  exact apart (List.mem_map.mpr ⟨r, out, same⟩)

theorem mem_inTreeOrder_iff (keyed : Keyed rows) : row ∈ inTreeOrder rows ↔ row ∈ rows := by
  refine ⟨mem_inTreeOrder, fun there => ?_⟩
  rw [inTreeOrder, List.mem_append, List.mem_filter]
  by_cases out : row.id ∈ (walk rows rows.length (childrenOf rows none) []).map (·.id)
  · obtain ⟨r, member, same⟩ := List.mem_map.mp out
    have known := mem_walk (fun r root => (mem_children.mp root).1) member
    exact .inl (keyed.eq known there same ▸ member)
  · exact .inr ⟨there, decide_eq_true out⟩

/-- A walk from the roots that reaches every row is the order. -/
theorem inTreeOrder_eq {out : List ProgrammeRow} (keyed : Keyed rows)
    (walks : Walks (kidsOf rows) (childrenOf rows none) out) (complete : ∀ r ∈ rows, r ∈ out) :
    inTreeOrder rows = out := by
  have walked := walk_walks keyed (waiting_roots keyed) (Nat.le_refl rows.length)
  have same := walked.unique walks
  have nothing : rows.filter (fun r => decide (r.id ∉ out.map (·.id))) = [] := by
    refine List.filter_eq_nil_iff.mpr fun r there left => ?_
    exact of_decide_eq_true left (List.mem_map_of_mem (complete r there))
  rw [inTreeOrder]
  rw [same, nothing, List.append_nil]

end Rows

/- Positions. -/

section Positions
variable {ordered : List ProgrammeRow} {row : ProgrammeRow} {id place : Int} {i : Nat}

theorem position_eq (small : (i : Int) < 2 ^ 31) : position i = i := if_pos small

theorem positionOf_eq (keyed : Keyed ordered) (stands : ordered[i]? = some row) :
    positionOf ordered row.id = some (position i + 1) := by
  have listed : (row, i) ∈ ordered.zipIdx := List.mem_zipIdx_iff_getElem?.mpr stands
  cases found : positionOf ordered row.id with
  | none =>
    have absent := List.find?_eq_none.mp (Option.map_eq_none_iff.mp found) _ (List.mem_reverse.mpr listed)
    simp at absent
  | some place =>
    obtain ⟨other, j, there, same, stood⟩ := positionOf_some found
    have also := List.mem_zipIdx_iff_getElem?.mp there
    cases keyed.eq (List.mem_of_getElem? also) (List.mem_of_getElem? stands) same
    have inside := (List.getElem?_eq_some_iff.mp stands).1
    rw [stood, (List.getElem?_inj inside keyed.nodup).mp (stands.trans also.symm)]

theorem positionOf_absent (absent : ∀ r ∈ ordered, r.id ≠ id) : positionOf ordered id = none := by
  cases found : positionOf ordered id with
  | none => rfl
  | some place =>
    obtain ⟨row, i, there, same, -⟩ := positionOf_some found
    exact absurd same (absent row (List.fst_mem_of_mem_zipIdx there))

theorem positionOf_iff (keyed : Keyed ordered) (small : (ordered.length : Int) < 2 ^ 31) :
    positionOf ordered id = some place ↔ ∃ row, ∃ i : Nat, ordered[i]? = some row ∧ row.id = id ∧ place = i + 1 := by
  constructor
  · intro found
    obtain ⟨row, i, there, same, stands⟩ := positionOf_some found
    have located := List.mem_zipIdx_iff_getElem?.mp there
    have inside : i < ordered.length := (List.getElem?_eq_some_iff.mp located).1
    rw [position_eq (by omega)] at stands
    exact ⟨row, i, located, same, stands⟩
  · rintro ⟨row, i, located, rfl, rfl⟩
    have inside : i < ordered.length := (List.getElem?_eq_some_iff.mp located).1
    rw [positionOf_eq keyed located, position_eq (by omega)]

/-- The line of a row that stands somewhere. -/
def lineAt (ordered : List ProgrammeRow) (i : Nat) (row : ProgrammeRow) : TemplateItem :=
  ⟨position i + 1, row.parentId.bind (positionOf ordered), row.title, row.itemType, row.supplierTrade, position i⟩

theorem capture_getElem? {rows : List ProgrammeRow} :
    (capture rows)[i]? = (inTreeOrder rows)[i]?.map (lineAt (inTreeOrder rows) i) := by
  rw [capture, List.getElem?_map, List.getElem?_zipIdx, Option.map_map, Nat.zero_add]
  rfl

end Positions

/- What an accepted capture tells of the programme. -/

section Accepted
variable {rows : List ProgrammeRow} {row : ProgrammeRow} {item : TemplateItem} {i : Nat} {p : Int}

theorem validateItems_short {items : List TemplateItem} (valid : validateItems items = .ok ()) :
    items.length ≤ maxTemplateItems ∧ validateFrom [] items = .ok () := by
  unfold validateItems at valid
  split at valid
  · cases valid
  · next short => exact ⟨Nat.le_of_not_gt short, valid⟩

theorem length_capture : (capture rows).length = (inTreeOrder rows).length := by
  rw [capture, List.length_map, List.length_zipIdx]

theorem accepted_small (valid : validateItems (capture rows) = .ok ()) :
    ((inTreeOrder rows).length : Int) < 2 ^ 31 := by
  have short := (validateItems_short valid).1
  rw [length_capture, maxTemplateItems] at short
  omega

/-- In an accepted capture a parent that is there comes out earlier. -/
theorem parent_earlier (keyed : Keyed rows) (valid : validateItems (capture rows) = .ok ())
    (stands : (inTreeOrder rows)[i]? = some row) (named : presentParent rows row = some p) :
    ∃ parent, ∃ j : Nat, j < i ∧ (inTreeOrder rows)[j]? = some parent ∧ parent.id = p := by
  have small := accepted_small valid
  have ordered := inTreeOrder_keyed keyed
  obtain ⟨up, parent, there, same⟩ := presentParent_some.mp named
  obtain ⟨j, found⟩ := List.mem_iff_getElem?.mp ((mem_inTreeOrder_iff keyed).mpr there)
  have within : j < (inTreeOrder rows).length := (List.getElem?_eq_some_iff.mp found).1
  refine ⟨parent, j, ?_, found, same⟩
  have line : (capture rows)[i]? = some (lineAt (inTreeOrder rows) i row) := by rw [capture_getElem?, stands]; rfl
  have refers : (lineAt (inTreeOrder rows) i row).localParentId = some ((j : Int) + 1) := by
    rw [lineAt, up, Option.bind_some]
    exact (positionOf_iff ordered small).mpr ⟨parent, j, found, same, rfl⟩
  obtain ⟨inside, located⟩ := List.getElem?_eq_some_iff.mp line
  have split : capture rows =
      (capture rows).take i ++ lineAt (inTreeOrder rows) i row :: (capture rows).drop (i + 1) := by
    rw [← located, List.getElem_cons_drop, List.take_append_drop]
  have checked := (validateItems_short valid).2
  rw [split] at checked
  rcases parent_before checked refers with impossible | ⟨b, before, numbered⟩
  · cases impossible
  · obtain ⟨k, earlier, rfl⟩ := List.mem_iff_getElem.mp before
    rw [List.length_take] at earlier
    have kth : (capture rows)[k]? = some ((capture rows).take i)[k] := by
      rw [List.getElem_take]
      exact List.getElem?_eq_getElem _
    rw [capture_getElem?] at kth
    obtain ⟨r, -, made⟩ := Option.map_eq_some_iff.mp kth
    have inner : k < (inTreeOrder rows).length := by rw [← length_capture]; omega
    have kthId : (k : Int) + 1 = (j : Int) + 1 := by
      rw [← numbered, ← made, lineAt, position_eq (by omega)]
    omega

/-- An accepted capture is the walk of the forest, and nothing is left over. -/
theorem accepted_walks (keyed : Keyed rows) (valid : validateItems (capture rows) = .ok ()) :
    Walks (kidsOf rows) (childrenOf rows none) (inTreeOrder rows) := by
  have walked := walk_walks keyed (waiting_roots keyed) (Nat.le_refl rows.length)
  cases left : rows.filter fun r => decide (r.id ∉ (walk rows rows.length (childrenOf rows none) []).map (·.id)) with
  | nil =>
    rw [inTreeOrder, left, List.append_nil]
    exact walked
  | cons first rest =>
    have member : first ∈ rows.filter fun r =>
        decide (r.id ∉ (walk rows rows.length (childrenOf rows none) []).map (·.id)) := by
      rw [left]
      exact List.mem_cons_self
    obtain ⟨there, apart⟩ := List.mem_filter.mp member
    refine absurd ?_ (of_decide_eq_true apart)
    refine List.mem_map_of_mem ?_
    cases above : presentParent rows first with
    | none => exact walked.sublist.subset (mem_children.mpr ⟨there, above⟩)
    | some p =>
      have stands : (inTreeOrder rows)[(walk rows rows.length (childrenOf rows none) []).length]? = some first := by
        rw [inTreeOrder, left, List.getElem?_append_right (Nat.le_refl _), Nat.sub_self]
        rfl
      obtain ⟨parent, j, earlier, found, same⟩ := parent_earlier keyed valid stands above
      rw [inTreeOrder, List.getElem?_append_left earlier] at found
      refine (walked.children_sublist (List.mem_of_getElem? found)).subset (mem_children.mpr ⟨there, ?_⟩)
      rw [above, same]

end Accepted

end TreeOrder
