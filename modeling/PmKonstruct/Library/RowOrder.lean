import Mathlib.Data.List.Sort

/- `ORDER BY` on a list of rows: a stable sort, so leaving rows out before or after it is the same. -/
namespace RowOrder

variable {Row : Type} {before : Row → Row → Prop} [DecidableRel before] {row : Row} {rows : List Row}
    {p : Row → Bool}

theorem orderedInsert_first (first : ∀ other ∈ rows, before row other) :
    rows.orderedInsert before row = row :: rows := by
  cases rows with
  | nil => rfl
  | cons head tail => exact List.orderedInsert_cons_of_le before tail (first head List.mem_cons_self)

theorem filter_orderedInsert [IsTrans Row before] (sorted : rows.Pairwise before) :
    (rows.orderedInsert before row).filter p =
      if p row then (rows.filter p).orderedInsert before row else rows.filter p := by
  induction rows with
  | nil => cases kept : p row <;> simp [kept]
  | cons head tail ih =>
    obtain ⟨least, later⟩ := List.pairwise_cons.mp sorted
    by_cases first : before row head
    · have all : ∀ other ∈ (head :: tail).filter p, before row other := by
        intro other member
        rcases List.mem_cons.mp (List.mem_filter.mp member).1 with rfl | there
        · exact first
        · exact IsTrans.trans _ _ _ first (least other there)
      rw [List.orderedInsert_cons_of_le before tail first, orderedInsert_first all, List.filter_cons]
    · rw [List.orderedInsert_of_not_le before tail first, List.filter_cons, List.filter_cons, ih later]
      cases p head with
      | true =>
        simp only [if_true]
        rw [List.orderedInsert_of_not_le before _ first]
        split <;> rfl
      | false => rfl

theorem filter_insertionSort [Std.Total before] [IsTrans Row before] :
    (rows.insertionSort before).filter p = (rows.filter p).insertionSort before := by
  induction rows with
  | nil => rfl
  | cons row tail ih =>
    rw [List.insertionSort_cons, filter_orderedInsert (List.pairwise_insertionSort before tail), ih, List.filter_cons]
    split <;> rfl

/-- Rows listed in order are what sorting the same rows gives. -/
theorem insertionSort_eq [Std.Total before] [IsTrans Row before] {listed : List Row}
    (antisymmetric : ∀ a ∈ rows, ∀ b ∈ rows, before a b → before b a → a = b) (distinct : rows.Nodup)
    (once : listed.Nodup) (same : ∀ row, row ∈ listed ↔ row ∈ rows) (ordered : listed.Pairwise before) :
    rows.insertionSort before = listed := by
  have permuted : (rows.insertionSort before).Perm listed := by
    refine (List.perm_insertionSort before rows).trans ?_
    exact (List.perm_ext_iff_of_nodup distinct once).mpr fun row => (same row).symm
  apply List.Perm.eq_of_pairwise _ (List.pairwise_insertionSort before rows) ordered permuted
  intro a b left right
  exact antisymmetric a ((List.mem_insertionSort before).mp left) b ((same b).mp right)

section Append
variable {more : List Row}

theorem orderedInsert_append (first : ∀ other ∈ more, before row other) :
    (rows ++ more).orderedInsert before row = rows.orderedInsert before row ++ more := by
  induction rows with
  | nil => exact orderedInsert_first first
  | cons head tail ih =>
    by_cases least : before row head
    · rw [List.cons_append, List.orderedInsert_cons_of_le before _ least, List.orderedInsert_cons_of_le before _ least]
      rfl
    · rw [List.cons_append, List.orderedInsert_of_not_le before _ least, List.orderedInsert_of_not_le before _ least, ih]
      rfl

/-- Rows that are in order and come after all others stay where they are. -/
theorem insertionSort_append (apart : ∀ a ∈ rows, ∀ b ∈ more, before a b) (ordered : more.Pairwise before) :
    (rows ++ more).insertionSort before = rows.insertionSort before ++ more := by
  induction rows with
  | nil => exact ordered.insertionSort_eq
  | cons row tail ih =>
    obtain ⟨first, later⟩ := List.forall_mem_cons.mp apart
    rw [List.cons_append, List.insertionSort_cons, ih later, List.insertionSort_cons, orderedInsert_append first]

end Append

end RowOrder
