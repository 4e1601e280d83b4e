import Mathlib.Data.List.Basic
import Mathlib.Data.List.Pairwise

/- A relational table: a list of rows under a serial key. Distinct keys and the serial bound travel with the
   table, so an operation that would break the primary key cannot be written. -/
namespace KeyedTable

class Keyed (Row : Type) where
  key : Row → Int

open Keyed

structure Table (Row : Type) [Keyed Row] where
  rows : List Row
  serial : Int
  below : ∀ row ∈ rows, key row < serial
  distinct : rows.Pairwise (key · ≠ key ·)

variable {Row : Type} [Keyed Row] {t : Table Row} {row : Row} {id : Int} {p : Row → Bool}

theorem Table.ext {t u : Table Row} (rows : t.rows = u.rows) (serial : t.serial = u.serial) : t = u := by
  cases t
  cases u
  simp only at rows serial
  subst rows serial
  rfl

def Table.empty : Table Row := ⟨[], 1, by simp, List.Pairwise.nil⟩

/-- A table of given rows, checked by evaluation. -/
def Table.of (rows : List Row) (serial : Int)
    (checked : decide ((∀ row ∈ rows, key row < serial) ∧ rows.Pairwise (key · ≠ key ·)) = true) : Table Row :=
  ⟨rows, serial, (of_decide_eq_true checked).1, (of_decide_eq_true checked).2⟩

def Table.find (t : Table Row) (id : Int) : Option Row := t.rows.find? (key · = id)

def Table.select (t : Table Row) (p : Row → Bool) : List Row := t.rows.filter p

/-- `INSERT`: the row is built from the next value of the sequence. -/
def Table.insert (t : Table Row) (make : Int → Row) (keyed : ∀ n, key (make n) = n) : Table Row where
  rows := t.rows ++ [make t.serial]
  serial := t.serial + 1
  below := by
    intro row member
    rcases List.mem_append.mp member with old | new
    · have := t.below row old
      omega
    · rw [List.mem_singleton.mp new, keyed]
      omega
  distinct := by
    refine List.pairwise_append.mpr ⟨t.distinct, List.pairwise_singleton _ _, ?_⟩
    intro row member new made
    have := t.below row member
    rw [List.mem_singleton.mp made, keyed]
    omega

/-- `UPDATE … WHERE p`: a change that leaves keys alone, applied to the matching rows. -/
def Table.update (t : Table Row) (p : Row → Bool) (change : Row → Row) (keeps : ∀ row, key (change row) = key row) :
    Table Row where
  rows := t.rows.map fun row => if p row then change row else row
  serial := t.serial
  below := by
    intro row member
    obtain ⟨old, oldMember, rfl⟩ := List.mem_map.mp member
    have := t.below old oldMember
    split
    · rwa [keeps]
    · exact this
  distinct := by
    refine List.pairwise_map.mpr (t.distinct.imp ?_)
    intro a b different
    split <;> split <;> simpa only [keeps] using different

/-- `DELETE … WHERE p`. -/
def Table.delete (t : Table Row) (p : Row → Bool) : Table Row where
  rows := t.rows.filter fun row => !p row
  serial := t.serial
  below := fun row member => t.below row (List.mem_filter.mp member).1
  distinct := t.distinct.filter _

/-- The row under its key, whatever was there before. -/
def Table.put (t : Table Row) (row : Row) : Table Row where
  rows := (t.rows.filter fun old => key old ≠ key row) ++ [row]
  serial := max t.serial (key row + 1)
  below := by
    intro other member
    rcases List.mem_append.mp member with old | new
    · have := t.below other (List.mem_filter.mp old).1
      omega
    · rw [List.mem_singleton.mp new]
      omega
  distinct := by
    refine List.pairwise_append.mpr ⟨t.distinct.filter _, List.pairwise_singleton _ _, ?_⟩
    intro old member new made
    rw [List.mem_singleton.mp made]
    simpa using (List.mem_filter.mp member).2

def Table.putAll (t : Table Row) (rows : List Row) : Table Row := rows.foldl Table.put t

theorem Table.key_inj {a b : Row} (left : a ∈ t.rows) (right : b ∈ t.rows) (same : key a = key b) : a = b := by
  by_contra different
  have symmetric : Std.Symm fun a b : Row => key a ≠ key b := ⟨fun _ _ apart => apart.symm⟩
  exact t.distinct.forall left right different same

theorem Table.find_eq_some_iff : t.find id = some row ↔ row ∈ t.rows ∧ key row = id := by
  constructor
  · intro found
    exact ⟨List.mem_of_find?_eq_some found, by simpa using List.find?_some found⟩
  · rintro ⟨member, same⟩
    cases found : t.find id with
    | none =>
      have absent := List.find?_eq_none.mp found row member
      simp [same] at absent
    | some other =>
      have there := List.mem_of_find?_eq_some found
      have keyed : key other = id := by simpa using List.find?_some found
      rw [key_inj there member (keyed.trans same.symm)]

theorem Table.find_below (found : t.find id = some row) : id < t.serial := by
  obtain ⟨member, same⟩ := Table.find_eq_some_iff.mp found
  exact same ▸ t.below row member

theorem Table.find_eq_none_iff : t.find id = none ↔ ∀ row ∈ t.rows, key row ≠ id := by
  simp [Table.find, List.find?_eq_none]

@[simp] theorem Table.mem_select : row ∈ t.select p ↔ row ∈ t.rows ∧ p row := List.mem_filter

theorem Table.nodup_select : (t.select p).Nodup := by
  have rows : t.rows.Nodup := t.distinct.imp fun apart same => apart (congrArg key same)
  exact rows.filter p

section Insert
variable {make : Int → Row} {keyed : ∀ n, key (make n) = n}

@[simp] theorem Table.mem_insert : row ∈ (t.insert make keyed).rows ↔ row ∈ t.rows ∨ row = make t.serial := by
  simp [Table.insert]

/-- A row that is not selected may be added unnoticed. -/
theorem Table.select_insert (left : p (make t.serial) = false) : (t.insert make keyed).select p = t.select p := by
  simp [Table.select, Table.insert, List.filter_append, left]

theorem Table.find_insert_old (found : t.find id = some row) : (t.insert make keyed).find id = some row := by
  rw [Table.find_eq_some_iff] at found ⊢
  exact ⟨Table.mem_insert.mpr (.inl found.1), found.2⟩

theorem Table.find_insert_there (there : (t.find id).isSome = true) : (t.insert make keyed).find id = t.find id := by
  obtain ⟨row, found⟩ := Option.isSome_iff_exists.mp there
  rw [found]
  exact Table.find_insert_old found

theorem Table.isSome_find_insert (there : (t.find id).isSome = true) :
    ((t.insert make keyed).find id).isSome = true := by
  obtain ⟨row, found⟩ := Option.isSome_iff_exists.mp there
  exact Option.isSome_iff_exists.mpr ⟨row, Table.find_insert_old found⟩

end Insert

section Update
variable {change : Row → Row} {keeps : ∀ row, key (change row) = key row}

theorem Table.mem_update : row ∈ (t.update p change keeps).rows ↔
    ∃ old ∈ t.rows, row = if p old then change old else old := by
  constructor
  · intro member
    obtain ⟨old, there, made⟩ := List.mem_map.mp member
    exact ⟨old, there, made.symm⟩
  · rintro ⟨old, there, made⟩
    exact List.mem_map.mpr ⟨old, there, made.symm⟩

theorem Table.find_update : (t.update p change keeps).find id =
    (t.find id).map fun row => if p row then change row else row := by
  cases found : t.find id with
  | none =>
    rw [Option.map_none, Table.find_eq_none_iff]
    rw [Table.find_eq_none_iff] at found
    intro row member
    obtain ⟨old, there, rfl⟩ := Table.mem_update.mp member
    have := found old there
    split
    · rwa [keeps]
    · exact this
  | some row =>
    rw [Option.map_some, Table.find_eq_some_iff, Table.mem_update]
    rw [Table.find_eq_some_iff] at found
    refine ⟨⟨row, found.1, rfl⟩, ?_⟩
    split
    · rw [keeps, found.2]
    · exact found.2

theorem Table.find_update_apart (apart : ∀ row, t.find id = some row → p row = false) :
    (t.update p change keeps).find id = t.find id := by
  rw [Table.find_update]
  cases found : t.find id with
  | none => rfl
  | some row => rw [Option.map_some, apart row found, if_neg Bool.false_ne_true]

theorem Table.isSome_find_update : ((t.update p change keeps).find id).isSome = (t.find id).isSome := by
  rw [Table.find_update, Option.isSome_map]

/-- Rows that are selected neither before nor after may change unnoticed. -/
theorem Table.select_update {q : Row → Bool}
    (apart : ∀ row ∈ t.rows, p row = true → q row = false ∧ q (change row) = false) :
    (t.update p change keeps).select q = t.select q := by
  simp only [Table.select, Table.update]
  generalize t.rows = rows at apart
  induction rows with
  | nil => rfl
  | cons row rest ih =>
    obtain ⟨first, later⟩ := List.forall_mem_cons.mp apart
    rw [List.map_cons, List.filter_cons, List.filter_cons, ih later]
    by_cases matched : p row = true
    · rw [if_pos matched, (first matched).1, (first matched).2]
      rfl
    · rw [if_neg matched]

/-- A change that moves no row in or out of a selection changes the selection row by row. -/
theorem Table.select_update_map {q : Row → Bool} (kept : ∀ row, q (change row) = q row) :
    (t.update p change keeps).select q = (t.select q).map fun row => if p row then change row else row := by
  have same : ∀ row, q (if p row then change row else row) = q row := by
    intro row
    split
    · exact kept row
    · rfl
  simp only [Table.select, Table.update, List.filter_map]
  congr 1
  exact List.filter_congr fun row _ => same row

theorem Table.update_eq_self (unmatched : ∀ row ∈ t.rows, p row = false) : t.update p change keeps = t := by
  refine Table.ext ?_ rfl
  have same : ∀ row ∈ t.rows, (if p row then change row else row) = row := by
    intro row member
    simp [unmatched row member]
  exact (List.map_congr_left same).trans (List.map_id _)

end Update

section Delete

@[simp] theorem Table.mem_delete : row ∈ (t.delete p).rows ↔ row ∈ t.rows ∧ p row = false := by
  simp [Table.delete]

theorem Table.matched_of_removed (member : row ∈ t.rows) (removed : row ∉ (t.delete p).rows) : p row = true := by
  by_contra unmatched
  exact removed (Table.mem_delete.mpr ⟨member, Bool.eq_false_iff.mpr unmatched⟩)

theorem Table.find_delete_old (found : t.find id = some row) (kept : p row = false) :
    (t.delete p).find id = some row := by
  rw [Table.find_eq_some_iff] at found ⊢
  exact ⟨Table.mem_delete.mpr ⟨found.1, kept⟩, found.2⟩

theorem Table.find_of_delete (found : (t.delete p).find id = some row) : t.find id = some row := by
  rw [Table.find_eq_some_iff] at found ⊢
  exact ⟨(Table.mem_delete.mp found.1).1, found.2⟩

theorem Table.find_delete_absent (absent : t.find id = none) : (t.delete p).find id = none := by
  rw [Table.find_eq_none_iff] at absent ⊢
  intro row member
  exact absent row (Table.mem_delete.mp member).1

theorem Table.find_delete_gone (gone : ∀ row, key row = id → p row = true) : (t.delete p).find id = none := by
  rw [Table.find_eq_none_iff]
  intro row member same
  have kept := (Table.mem_delete.mp member).2
  rw [gone row same] at kept
  cases kept

theorem Table.find_delete : (t.delete p).find id = (t.find id).filter fun row => !p row := by
  cases found : t.find id with
  | none => rw [Table.find_delete_absent found, Option.filter_none]
  | some row =>
    obtain ⟨member, same⟩ := Table.find_eq_some_iff.mp found
    by_cases gone : p row = true
    · rw [Option.filter_some, gone, Bool.not_true, if_neg Bool.false_ne_true, Table.find_eq_none_iff]
      intro other there equal
      obtain ⟨old, kept⟩ := Table.mem_delete.mp there
      rw [Table.key_inj old member (equal.trans same.symm), gone] at kept
      cases kept
    · rw [Bool.not_eq_true] at gone
      rw [Option.filter_some, gone, Bool.not_false, if_pos rfl]
      exact Table.find_delete_old found gone

theorem Table.find_delete_kept (kept : ∀ row, t.find id = some row → p row = false) :
    (t.delete p).find id = t.find id := by
  cases found : t.find id with
  | none => exact Table.find_delete_absent found
  | some row => exact Table.find_delete_old found (kept row found)

theorem Table.delete_delete {q : Row → Bool} : (t.delete p).delete q = t.delete fun row => p row || q row := by
  refine Table.ext ?_ rfl
  simp [Table.delete, List.filter_filter, Bool.and_comm]

theorem Table.select_delete {q : Row → Bool} : (t.delete p).select q = (t.select q).filter fun row => !p row := by
  simp only [Table.select, Table.delete, List.filter_filter, Bool.and_comm]

theorem Table.select_delete_apart {q : Row → Bool} (apart : ∀ row ∈ t.rows, q row = true → p row = false) :
    (t.delete p).select q = t.select q := by
  rw [Table.select_delete]
  refine List.filter_eq_self.mpr fun row member => ?_
  obtain ⟨there, selected⟩ := Table.mem_select.mp member
  rw [apart row there selected]
  rfl

theorem Table.delete_eq_self (unmatched : ∀ row ∈ t.rows, p row = false) : t.delete p = t := by
  refine Table.ext ?_ rfl
  exact List.filter_eq_self.mpr fun row member => by simp [unmatched row member]

end Delete

section Put
variable {new : Row} {rows : List Row}

@[simp] theorem Table.mem_put : row ∈ (t.put new).rows ↔ (row ∈ t.rows ∧ key row ≠ key new) ∨ row = new := by
  simp [Table.put]

theorem Table.find_put_self (same : key new = id) : (t.put new).find id = some new :=
  Table.find_eq_some_iff.mpr ⟨Table.mem_put.mpr (.inr rfl), same⟩

theorem Table.find_put_apart (apart : key new ≠ id) : (t.put new).find id = t.find id := by
  have found : ∀ row, (t.put new).find id = some row ↔ t.find id = some row := by
    intro row
    rw [Table.find_eq_some_iff, Table.find_eq_some_iff, Table.mem_put]
    constructor
    · rintro ⟨⟨old, -⟩ | rfl, same⟩
      · exact ⟨old, same⟩
      · exact absurd same apart
    · rintro ⟨old, same⟩
      exact ⟨.inl ⟨old, fun equal => apart (equal.symm.trans same)⟩, same⟩
  exact Option.ext found

theorem Table.isSome_find_put (id : Int) :
    ((t.put new).find id).isSome = (decide (key new = id) || (t.find id).isSome) := by
  by_cases here : key new = id
  · simp [Table.find_put_self here, here]
  · simp [Table.find_put_apart here, here]

theorem Table.rows_put_fresh (fresh : key new = t.serial) : (t.put new).rows = t.rows ++ [new] := by
  refine congrArg (· ++ [new]) (List.filter_eq_self.mpr fun old there => decide_eq_true ?_)
  have below := t.below old there
  omega

theorem Table.put_serial {make : Int → Row} {keyed : ∀ n, key (make n) = n} :
    t.put (make t.serial) = t.insert make keyed := by
  refine Table.ext (Table.rows_put_fresh (keyed _)) ?_
  have next : key (make t.serial) = t.serial := keyed _
  show max t.serial (key (make t.serial) + 1) = t.serial + 1
  omega

theorem Table.select_put {q : Row → Bool} :
    (t.put new).select q = (t.select q).filter (fun row => key row ≠ key new) ++ [new].filter q := by
  simp only [Table.select, Table.put, List.filter_append, List.filter_filter, Bool.and_comm]

theorem Table.select_put_apart {q : Row → Bool} (unused : ∀ row ∈ t.rows, key row ≠ key new) (left : q new = false) :
    (t.put new).select q = t.select q := by
  have spared : (t.select q).filter (fun row => key row ≠ key new) = t.select q :=
    List.filter_eq_self.mpr fun row member => decide_eq_true (unused row (Table.mem_select.mp member).1)
  have none : [new].filter q = [] := by simp [left]
  rw [Table.select_put, spared, none, List.append_nil]

/-- The later image of a row stands. -/
theorem Table.put_put (same : key new = key row) : (t.put row).put new = t.put new := by
  refine Table.ext ?_ ?_
  · simp [Table.put, same]
  · simp only [Table.put, same]
    omega

theorem Table.mem_putAll (distinct : rows.Pairwise (key · ≠ key ·)) :
    row ∈ (t.putAll rows).rows ↔ (row ∈ t.rows ∧ ∀ new ∈ rows, key row ≠ key new) ∨ row ∈ rows := by
  induction rows generalizing t with
  | nil => simp [Table.putAll]
  | cons first rest ih =>
    obtain ⟨apart, later⟩ := List.pairwise_cons.mp distinct
    rw [Table.putAll, List.foldl_cons, ← Table.putAll, ih later, Table.mem_put, List.forall_mem_cons, List.mem_cons]
    constructor
    · rintro (⟨⟨old, away⟩ | rfl, others⟩ | among)
      · exact .inl ⟨old, away, others⟩
      · exact .inr (.inl rfl)
      · exact .inr (.inr among)
    · rintro (⟨old, away, others⟩ | rfl | among)
      · exact .inl ⟨.inl ⟨old, away⟩, others⟩
      · exact .inl ⟨.inr rfl, apart⟩
      · exact .inr among

end Put

/- How many rows a selection has. -/

section Sizes
variable {q : Row → Bool} {new : Row} {change : Row → Row} {keeps : ∀ row, key (change row) = key row}

theorem Table.length_select_key (one : ∀ row, p row = true → key row = id) : (t.select p).length ≤ 1 := by
  have keyed : (t.select p).Pairwise (key · ≠ key ·) := t.distinct.filter _
  cases rows : t.select p with
  | nil => exact Nat.zero_le 1
  | cons first rest =>
    cases rest with
    | nil => exact Nat.le_refl 1
    | cons second rest =>
      have same : ∀ row ∈ first :: second :: rest, key row = id := by
        intro row member
        rw [← rows] at member
        exact one row (Table.mem_select.mp member).2
      rw [rows] at keyed
      have apart := (List.pairwise_cons.mp keyed).1 second List.mem_cons_self
      refine absurd ?_ apart
      rw [same first List.mem_cons_self, same second (List.mem_cons_of_mem _ List.mem_cons_self)]

/-- A selection grows by no more rows than are changed into it. -/
theorem Table.length_select_update : ((t.update p change keeps).select q).length ≤
    (t.select q).length + (t.select fun row => p row && q (change row) && !q row).length := by
  simp only [Table.select, Table.update]
  induction t.rows with
  | nil => exact Nat.le_refl 0
  | cons row rest ih =>
    simp only [List.map_cons, List.filter_cons]
    cases matched : p row <;> cases before : q row <;> cases after : q (change row) <;>
      simp [before, after] <;> omega

theorem Table.length_select_put :
    ((t.put new).select q).length ≤ (t.select q).length + if q new then 1 else 0 := by
  rw [Table.select_put, List.length_append]
  have fewer := List.length_filter_le (fun row => decide (key row ≠ key new)) (t.select q)
  split
  · next counted =>
    have one : [new].filter q = [new] := List.filter_cons_of_pos counted
    rw [one, List.length_singleton]
    omega
  · next left =>
    have none : [new].filter q = [] := List.filter_cons_of_neg left
    rw [none, List.length_nil]
    omega

theorem Table.length_select_delete : ((t.delete p).select q).length ≤ (t.select q).length := by
  rw [Table.select_delete]
  exact List.length_filter_le _ _

end Sizes

/- What holds of every row, and what a row keeps through a statement. -/

section Rows
variable {P : Row → Prop} {α : Type} {f : Row → α} {a : α}

/-- The row under a key exists and has the attribute. -/
def Table.Has (t : Table Row) (f : Row → α) (id : Int) (a : α) : Prop := ∃ row, t.find id = some row ∧ f row = a

theorem Table.has_of_mem (member : row ∈ t.rows) : t.Has f (key row) (f row) :=
  ⟨row, Table.find_eq_some_iff.mpr ⟨member, rfl⟩, rfl⟩

theorem Table.Has.below (has : t.Has f id a) : id < t.serial := by
  obtain ⟨row, found, -⟩ := has
  exact Table.find_below found

theorem Table.Has.isSome (has : t.Has f id a) : (t.find id).isSome = true := by
  obtain ⟨row, found, -⟩ := has
  rw [found]
  rfl

theorem Table.Has.unique {b : α} (left : t.Has f id a) (right : t.Has f id b) : a = b := by
  obtain ⟨row, found, same⟩ := left
  obtain ⟨other, alsoFound, alsoSame⟩ := right
  rw [found] at alsoFound
  cases alsoFound
  exact same.symm.trans alsoSame

section Insert
variable {make : Int → Row} {keyed : ∀ n, key (make n) = n}

theorem Table.all_insert (rows : ∀ row ∈ t.rows, P row) (new : P (make t.serial)) :
    ∀ row ∈ (t.insert make keyed).rows, P row := by
  intro row member
  cases Table.mem_insert.mp member with
  | inl old => exact rows row old
  | inr made =>
    rw [made]
    exact new

theorem Table.Has.insert (has : t.Has f id a) : (t.insert make keyed).Has f id a := by
  obtain ⟨row, found, same⟩ := has
  exact ⟨row, Table.find_insert_old found, same⟩

theorem Table.has_inserted : (t.insert make keyed).Has f t.serial (f (make t.serial)) := by
  have member : make t.serial ∈ (t.insert make keyed).rows := Table.mem_insert.mpr (.inr rfl)
  exact ⟨make t.serial, Table.find_eq_some_iff.mpr ⟨member, keyed t.serial⟩, rfl⟩

end Insert

section Update
variable {change : Row → Row} {keeps : ∀ row, key (change row) = key row}

theorem Table.all_update (rows : ∀ row ∈ t.rows, P row) (changed : ∀ row ∈ t.rows, p row = true → P (change row)) :
    ∀ row ∈ (t.update p change keeps).rows, P row := by
  intro row member
  obtain ⟨old, there, made⟩ := Table.mem_update.mp member
  rw [made]
  split
  · next matched => exact changed old there matched
  · exact rows old there

theorem Table.Has.update_found (has : t.Has f id a)
    (kept : ∀ row, t.find id = some row → p row = true → f (change row) = f row) :
    (t.update p change keeps).Has f id a := by
  obtain ⟨row, found, same⟩ := has
  rw [Table.Has, Table.find_update, found]
  refine ⟨if p row then change row else row, rfl, ?_⟩
  split
  · next matched => rw [kept row found matched, same]
  · exact same

theorem Table.Has.update (has : t.Has f id a) (kept : ∀ row, f (change row) = f row) :
    (t.update p change keeps).Has f id a :=
  has.update_found fun row _ _ => kept row

theorem Table.has_update_iff (kept : ∀ row, f (change row) = f row) :
    (t.update p change keeps).Has f id a ↔ t.Has f id a := by
  constructor
  · intro ⟨row, found, same⟩
    rw [Table.find_update] at found
    obtain ⟨old, located, made⟩ := Option.map_eq_some_iff.mp found
    refine ⟨old, located, ?_⟩
    subst made
    split at same
    · rwa [kept] at same
    · exact same
  · intro has
    exact has.update kept

end Update

theorem Table.Has.put {new : Row} (has : t.Has f id a) (kept : key new = id → f new = a) : (t.put new).Has f id a := by
  by_cases same : key new = id
  · exact ⟨new, Table.find_put_self same, kept same⟩
  · obtain ⟨row, found, holds⟩ := has
    exact ⟨row, (Table.find_put_apart same).trans found, holds⟩

/-- A unique index: no two rows agree on it. -/
def Table.Unique (t : Table Row) (f : Row → α) : Prop := ∀ a ∈ t.rows, ∀ b ∈ t.rows, f a = f b → a = b

theorem Table.Unique.insert {make : Int → Row} {keyed : ∀ n, key (make n) = n} (unique : t.Unique f)
    (new : ∀ row ∈ t.rows, f row ≠ f (make t.serial)) : (t.insert make keyed).Unique f := by
  intro a left b right same
  rcases Table.mem_insert.mp left with oldA | rfl
  · rcases Table.mem_insert.mp right with oldB | rfl
    · exact unique a oldA b oldB same
    · exact absurd same (new a oldA)
  · rcases Table.mem_insert.mp right with oldB | rfl
    · exact absurd same.symm (new b oldB)
    · rfl

theorem Table.Unique.update {change : Row → Row} {keeps : ∀ row, key (change row) = key row} (unique : t.Unique f)
    (kept : ∀ row ∈ t.rows, p row = true → f (change row) = f row) : (t.update p change keeps).Unique f := by
  intro a left b right same
  obtain ⟨oldA, thereA, rfl⟩ := Table.mem_update.mp left
  obtain ⟨oldB, thereB, rfl⟩ := Table.mem_update.mp right
  have column : ∀ row ∈ t.rows, f (if p row then change row else row) = f row := by
    intro row member
    split
    · next matched => exact kept row member matched
    · rfl
  rw [column oldA thereA, column oldB thereB] at same
  rw [unique oldA thereA oldB thereB same]

theorem Table.Unique.delete (unique : t.Unique f) : (t.delete p).Unique f := by
  intro a left b right
  exact unique a (Table.mem_delete.mp left).1 b (Table.mem_delete.mp right).1

theorem Table.Unique.put {new : Row} (unique : t.Unique f) (apart : ∀ row ∈ t.rows, f row ≠ f new) :
    (t.put new).Unique f := by
  intro a left b right same
  rcases Table.mem_put.mp left with ⟨oldA, -⟩ | rfl
  · rcases Table.mem_put.mp right with ⟨oldB, -⟩ | rfl
    · exact unique a oldA b oldB same
    · exact absurd same (apart a oldA)
  · rcases Table.mem_put.mp right with ⟨oldB, -⟩ | rfl
    · exact absurd same.symm (apart b oldB)
    · rfl

/-- One row takes a value that no other row has. -/
theorem Table.Unique.updateOne {id : Int} {change : Row → Row} {keeps : ∀ row, key (change row) = key row}
    (unique : t.Unique f) (one : ∀ row, p row = true → key row = id)
    (free : ∀ a ∈ t.rows, key a ≠ id → ∀ b ∈ t.rows, p b = true → f a ≠ f (change b)) :
    (t.update p change keeps).Unique f := by
  intro a left b right same
  obtain ⟨oldA, thereA, rfl⟩ := Table.mem_update.mp left
  obtain ⟨oldB, thereB, rfl⟩ := Table.mem_update.mp right
  by_cases named : key oldA = key oldB
  · rw [Table.key_inj thereA thereB named]
  · cases changedA : p oldA <;> cases changedB : p oldB
    · simp only [changedA, changedB, Bool.false_eq_true, if_false] at same ⊢
      exact unique oldA thereA oldB thereB same
    · simp only [changedA, changedB, Bool.false_eq_true, if_false, if_true] at same
      exact absurd same (free oldA thereA (fun here => named (here.trans (one oldB changedB).symm)) oldB thereB changedB)
    · simp only [changedA, changedB, Bool.false_eq_true, if_false, if_true] at same
      exact absurd same.symm (free oldB thereB (fun here => named ((one oldA changedA).trans here.symm)) oldA thereA changedA)
    · exact absurd ((one oldA changedA).trans (one oldB changedB).symm) named

theorem Table.Has.delete (has : t.Has f id a) (kept : (t.find id).any p = false) : (t.delete p).Has f id a := by
  obtain ⟨row, found, same⟩ := has
  rw [found, Option.any_some] at kept
  exact ⟨row, Table.find_delete_old found kept, same⟩

theorem Table.all_delete (rows : ∀ row ∈ t.rows, P row) : ∀ row ∈ (t.delete p).rows, P row := by
  intro row member
  exact rows row (Table.mem_delete.mp member).1

end Rows

/- Statements that address one row by its key, under a filter on the rows the session may touch. -/

section One
variable {visible : Row → Bool} {change : Row → Row} {keeps : ∀ row, key (change row) = key row}

def Table.reach (t : Table Row) (visible : Row → Bool) (id : Int) : Option Row := (t.find id).filter visible

/-- `UPDATE … WHERE id = $1 RETURNING`. -/
def Table.updateAt (t : Table Row) (visible : Row → Bool) (id : Int) (change : Row → Row)
    (keeps : ∀ row, key (change row) = key row) : Option Row × Table Row :=
  ((t.reach visible id).map change, t.update (fun row => key row = id && visible row) change keeps)

/-- `DELETE … WHERE id = $1` and whether it affected a row. -/
def Table.deleteAt (t : Table Row) (visible : Row → Bool) (id : Int) : Bool × Table Row :=
  ((t.reach visible id).isSome, t.delete fun row => key row = id && visible row)

theorem Table.reach_eq_some_iff : t.reach visible id = some row ↔ t.find id = some row ∧ visible row = true := by
  simp [Table.reach, Option.filter_eq_some_iff]

theorem Table.reach_eq_none_iff :
    t.reach visible id = none ↔ ∀ row ∈ t.rows, (decide (key row = id) && visible row) = false := by
  constructor
  · intro absent row member
    by_contra matched
    simp only [Bool.not_eq_false, Bool.and_eq_true, decide_eq_true_eq] at matched
    have found := Table.find_eq_some_iff.mpr ⟨member, matched.1⟩
    have reached := Table.reach_eq_some_iff.mpr ⟨found, matched.2⟩
    rw [absent] at reached
    cases reached
  · intro unmatched
    cases reached : t.reach visible id with
    | none => rfl
    | some row =>
      obtain ⟨found, seen⟩ := Table.reach_eq_some_iff.mp reached
      obtain ⟨member, same⟩ := Table.find_eq_some_iff.mp found
      have := unmatched row member
      simp [same, seen] at this

/-- The table after a row of it has been changed, and no other. -/
def Replaces (before after : Table Row) (id : Int) (row changed : Row) : Prop :=
  before.find id = some row ∧ after.find id = some changed ∧ ∀ other, other ≠ id → after.find other = before.find other

theorem Table.update_replaces (keeps : ∀ row, key (change row) = key row) (found : t.find id = some row)
    (seen : visible row = true) :
    Replaces t (t.update (fun row => key row = id && visible row) change keeps) id row (change row) := by
  have same : key row = id := (Table.find_eq_some_iff.mp found).2
  refine ⟨found, ?_, fun other elsewhere => ?_⟩
  · rw [Table.find_update, found]
    simp [same, seen]
  · refine Table.find_update_apart fun there located => ?_
    have apart : key there ≠ id := fun same => elsewhere ((Table.find_eq_some_iff.mp located).2.symm.trans same)
    simp [apart]

theorem Table.updateAt_replaces {changed : Row} (updated : (t.updateAt visible id change keeps).1 = some changed) :
    ∃ row, Replaces t (t.updateAt visible id change keeps).2 id row changed ∧ changed = change row := by
  obtain ⟨row, reached, rfl⟩ := Option.map_eq_some_iff.mp updated
  obtain ⟨found, seen⟩ := Table.reach_eq_some_iff.mp reached
  exact ⟨row, Table.update_replaces keeps found seen, rfl⟩

theorem Table.updateAt_absent (absent : t.reach visible id = none) :
    t.updateAt visible id change keeps = (none, t) := by
  rw [Table.updateAt, absent, Table.update_eq_self (Table.reach_eq_none_iff.mp absent)]
  rfl

theorem Table.deleteAt_absent (absent : t.reach visible id = none) : t.deleteAt visible id = (false, t) := by
  rw [Table.deleteAt, absent, Table.delete_eq_self (Table.reach_eq_none_iff.mp absent)]
  rfl

end One

end KeyedTable
