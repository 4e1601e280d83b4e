import PmKonstruct.Library.ParentForest
import PmKonstruct.Library.Table

/- What a selection of rows does not notice: changes and deletions that miss its rows, and ways up that stay among
   them. -/
namespace KeyedTable
open Keyed
variable {Row : Type} [Keyed Row] {t : Table Row} {row : Row} {id : Int} {p : Row → Bool}

/-- Under a key at most one row is looked at. -/
theorem Table.any_find : (t.find id).any p = (t.select p).any fun row => key row = id := by
  rw [Bool.eq_iff_iff, Option.any_eq_true, List.any_eq_true]
  constructor
  · intro ⟨row, found, holds⟩
    obtain ⟨member, same⟩ := Table.find_eq_some_iff.mp found
    exact ⟨row, Table.mem_select.mpr ⟨member, holds⟩, decide_eq_true same⟩
  · intro ⟨row, selected, same⟩
    obtain ⟨member, holds⟩ := Table.mem_select.mp selected
    exact ⟨row, Table.find_eq_some_iff.mpr ⟨member, of_decide_eq_true same⟩, holds⟩

/-- Among the rows there is one under the key. -/
def Names (rows : List Row) (id : Int) : Prop := ∃ row ∈ rows, key row = id

theorem Table.names_select {q : Row → Bool} : Names (t.select q) id ↔ (t.find id).any q = true := by
  simp [Table.any_find, Names]

/-- A key of a selection leads to a row of it. -/
theorem Table.any_find_named {q : Row → Bool} (named : Names (t.select q) id)
    (spared : ∀ row ∈ t.select q, p row = false) : (t.find id).any p = false := by
  obtain ⟨row, selected, same⟩ := named
  have found := Table.find_eq_some_iff.mpr ⟨(Table.mem_select.mp selected).1, same⟩
  rw [found, Option.any_some]
  exact spared row selected

/-- What matches only rows outside of a selection misses every row in it. -/
theorem Table.missed {q : Row → Bool} (apart : ∀ row, p row = true → q row = false) (selected : row ∈ t.select q) :
    p row = false := by
  by_contra matched
  have seen := (Table.mem_select.mp selected).2
  rw [apart row (Bool.not_eq_false _ ▸ matched)] at seen
  cases seen

/-- A row that a statement finds by its id is not one that its policies hide. -/
theorem Table.missed_reach {q visible : Row → Bool} {found : Row} (apart : ∀ row, visible row = true → q row = false)
    (reached : t.reach visible id = some found) (selected : row ∈ t.select q) : decide (key row = id) = false := by
  refine decide_eq_false fun same => ?_
  obtain ⟨there, holds⟩ := Table.mem_select.mp selected
  obtain ⟨located, seen⟩ := Table.reach_eq_some_iff.mp reached
  cases located.symm.trans (Table.find_eq_some_iff.mpr ⟨there, same⟩)
  rw [apart row seen] at holds
  cases holds

/-- Without one row a selection is shorter by that row, if it had it. -/
theorem Table.length_select_without {q : Row → Bool} (member : row ∈ t.rows) : (t.select q).length =
    ((t.delete fun other => key other = key row).select q).length + if q row then 1 else 0 := by
  have parts := List.length_eq_length_filter_add (l := t.select q) fun other => decide (key other = key row)
  have removed : (t.select q).filter (fun other => decide (key other = key row)) =
      t.select fun other => decide (key other = key row) && q other := by
    rw [Table.select, Table.select, List.filter_filter]
  rw [Table.select_delete, parts, removed, Nat.add_comm]
  congr 1
  have most : (t.select fun other => decide (key other = key row) && q other).length ≤ 1 :=
    Table.length_select_key fun other both => of_decide_eq_true (Bool.and_eq_true_iff.mp both).1
  split
  · next there =>
    have chosen : row ∈ t.select fun other => decide (key other = key row) && q other :=
      Table.mem_select.mpr ⟨member, by simp [there]⟩
    have least := List.length_pos_of_mem chosen
    omega
  · next left =>
    refine List.length_eq_zero_iff.mpr (List.filter_eq_nil_iff.mpr fun other there both => ?_)
    obtain ⟨same, holds⟩ := Bool.and_eq_true_iff.mp both
    cases Table.key_inj there member (of_decide_eq_true same)
    exact left holds

theorem Table.select_added {after : Table Row} {q : Row → Bool} (added : after.rows = t.rows ++ [row])
    (left : q row = false) : after.select q = t.select q := by
  rw [Table.select, Table.select, added, List.filter_append, List.filter_singleton, left]
  exact List.append_nil _

section Update
variable {after : Table Row} {change : Row → Row} {q : Row → Bool}

/-- A change that leaves the selected rows as they are is not noticed in the selection. -/
theorem Table.select_changed (changed : after.rows = t.rows.map fun row => if p row then change row else row)
    (kept : ∀ row, p row = true → q (change row) = q row) (same : ∀ row ∈ t.select q, p row = true → change row = row) :
    after.select q = t.select q := by
  have kinds : ∀ row, q (if p row then change row else row) = q row := by
    intro row
    split
    · next matched => exact kept row matched
    · rfl
  have unchanged : ∀ row ∈ t.rows.filter q, (if p row then change row else row) = row := by
    intro row selected
    split
    · next matched => exact same row selected matched
    · rfl
  have filtered : t.rows.filter (q ∘ fun row => if p row then change row else row) = t.rows.filter q :=
    List.filter_congr fun row _ => kinds row
  rw [Table.select, Table.select, changed, List.filter_map, filtered, List.map_congr_left unchanged, List.map_id']

theorem Table.select_missed (changed : after.rows = t.rows.map fun row => if p row then change row else row)
    (apart : ∀ row, p row = true → q row = false) (kept : ∀ row, p row = true → q (change row) = q row) :
    after.select q = t.select q := by
  refine Table.select_changed changed kept fun row selected matched => ?_
  rw [Table.missed apart selected] at matched
  cases matched

end Update

theorem Table.select_delete_spared {q : Row → Bool} (spared : ∀ row ∈ t.select q, p row = false) :
    (t.delete p).select q = t.select q :=
  Table.select_delete_apart fun row member selected => spared row (Table.mem_select.mpr ⟨member, selected⟩)

theorem Table.select_delete_missed {q : Row → Bool} (apart : ∀ row, p row = true → q row = false) :
    (t.delete p).select q = t.select q :=
  Table.select_delete_spared fun _ selected => Table.missed apart selected

end KeyedTable

namespace ParentForest
variable {α : Type} {parent : α → Option α} {p : α → Bool} {a b : α} {n : Nat}

/-- The way up from a set that holds its parents stays inside. -/
theorem meets_closed {Inside : α → Prop} (closed : ∀ a b, Inside a → parent a = some b → Inside b)
    (missed : ∀ a, Inside a → p a = false) (inside : Inside a) : meets parent p n a = false := by
  induction n generalizing a with
  | zero => exact missed a inside
  | succ n ih =>
    rw [meets, missed a inside, Bool.false_or]
    cases up : parent a with
    | none => rfl
    | some b => exact ih (closed a b inside up)

end ParentForest
