import PmKonstruct.CallForward.Reordering
import PmKonstruct.CallForward.TreeOrder
import PmKonstruct.Library.RowOrder

/- A template written out after a programme and captured again. The rows of the template come after all others, by
   order and by id, and point only to each other, so their walk follows the walk of what was there. -/
namespace TemplateRoundTrip
open PlainText DomainErrors Accounts Schema KeyedTable RowSecurity Requests CallForwardItem Templates TreeOrder
open PreorderWalk ProgrammeStore Hierarchy Reordering
open AuthService (SessionUser)

/-- What the columns of the table hold. -/
structure Columns (t : Table CallForwardRow) : Prop where
  parents : ∀ row ∈ t.rows, ∀ p, row.parentId = some p → (t.find p).isSome = true
  trades : ∀ row ∈ t.rows, (tradeTooLong row.supplierTrade).1 = false
  orders : ∀ row ∈ t.rows, -2 ^ 31 ≤ row.sortOrder ∧ row.sortOrder < 2 ^ 31

/-- A line moved behind so many others. -/
def shifted (places : Nat) (item : TemplateItem) : TemplateItem :=
  { item with
    localId := item.localId + places
    localParentId := item.localParentId.map (· + places)
    sortOrder := item.sortOrder + places }

/-- The row a line becomes when the template is written from this id and this order on. -/
def written (first base : Int) (item : TemplateItem) : ProgrammeRow :=
  ⟨first + item.localId - 1, item.localParentId.map (first + · - 1), item.title, item.itemType, item.supplierTrade,
    base + item.sortOrder⟩

/-- A line that stands where it says, under one that stands earlier. -/
structure Placed (i : Nat) (item : TemplateItem) : Prop where
  localId : item.localId = i + 1
  sortOrder : item.sortOrder = i
  parent : ∀ p, item.localParentId = some p → 1 ≤ p ∧ p ≤ i
  typed : ∃ t, ItemType.parse item.itemType = some t
  trade : (tradeTooLong item.supplierTrade).1 = false

def programmeRow (i : CallForwardRow) : ProgrammeRow :=
  ⟨i.id, i.parentId, i.title, ItemType.asStr i.itemType, i.supplierTrade, i.sortOrder⟩

/- Writing the lines. -/

def withItem (db : Db) (make : CallForwardItemId → CallForwardRow) (keyed : ∀ id, (make id).id = id) : Db :=
  { db with callForward := db.callForward.insert make keyed }

section Writing
variable {db : Db} {scope : CompanyId} {now : Instant} {job : JobId} {base first : Int} {n : Nat}

theorem wrapI32_eq {order : Int} (low : -2 ^ 31 ≤ order) (high : order < 2 ^ 31) : wrapI32 order = order :=
  Int.bmod_eq_of_le low high

theorem insertItem_ok {make : CallForwardItemId → CallForwardRow} {keyed : ∀ id, (make id).id = id}
    (passes : itemConstraint db scope (make db.callForward.serial) = none) :
    insertItem db scope make keyed = .ok (make db.callForward.serial, withItem db make keyed) := by
  simp only [insertItem, insertRow, passes, withItem]

theorem newLine_passes {item : TemplateItem} {itemType : ItemType} {parent : Option CallForwardItemId}
    (opened : jobInScope db scope job = true) (fits : (tradeTooLong item.supplierTrade).1 = false)
    (there : ∀ p, parent = some p → (db.callForward.find p).isSome = true) :
    itemConstraint db scope (newLine now job base item itemType parent db.callForward.serial) = none := by
  obtain ⟨row, found, -⟩ := jobInScope_iff.mp opened
  have apart : parent ≠ some db.callForward.serial := by
    intro own
    obtain ⟨other, located⟩ := Option.isSome_iff_exists.mp (there _ own)
    obtain ⟨member, same⟩ := Table.find_eq_some_iff.mp located
    have := db.callForward.below other member
    omega
  have known : parentMissing db.callForward parent = false := by
    cases parent with
    | none => rfl
    | some p =>
      obtain ⟨other, located⟩ := Option.isSome_iff_exists.mp (there p rfl)
      rw [parentMissing, Option.any_some, located]
      rfl
  have job : (db.jobs.find job).isNone = false := by rw [found]; rfl
  refine firstViolation_cons.mpr ⟨fits, firstViolation_cons.mpr ⟨?_, firstViolation_cons.mpr ⟨?_, ?_⟩⟩⟩
  · rw [newLine, opened]
    rfl
  · exact decide_eq_false apart
  · exact firstViolation_cons.mpr ⟨job, firstViolation_cons.mpr ⟨known, firstViolation_nil⟩⟩

/-- Where the lines written so far have gone. -/
structure Recorded (t : Table CallForwardRow) (localToDb : List (Int × CallForwardItemId)) (first : Int) (n : Nat) :
    Prop where
  next : t.serial = first + n
  listed : ∀ m : Int, 1 ≤ m → m ≤ n → List.lookup m localToDb = some (first + m - 1)
  there : ∀ m : Int, 1 ≤ m → m ≤ n → (t.find (first + m - 1)).isSome = true

theorem Recorded.step {t : Table CallForwardRow} {localToDb : List (Int × CallForwardItemId)}
    {make : CallForwardItemId → CallForwardRow} (keyed : ∀ id, (make id).id = id)
    (recorded : Recorded t localToDb first n) :
    Recorded (t.insert make keyed) (((n : Int) + 1, t.serial) :: localToDb) first (n + 1) := by
  obtain ⟨next, listed, there⟩ := recorded
  refine ⟨?_, ?_, ?_⟩
  · have grown : (t.insert make keyed).serial = t.serial + 1 := rfl
    rw [grown, next]
    omega
  · intro m positive bounded
    by_cases last : m = (n : Int) + 1
    · have same : first + m - 1 = t.serial := by omega
      rw [same, last, List.lookup_cons_self]
    · rw [List.lookup_cons, beq_eq_false_iff_ne.mpr last]
      exact listed m positive (by omega)
  · intro m positive bounded
    by_cases last : m = (n : Int) + 1
    · have same : first + m - 1 = t.serial := by omega
      rw [same]
      exact (@Table.has_inserted _ _ t _ id make keyed).isSome
    · exact Table.isSome_find_insert (there m positive (by omega))

theorem applyEach_written {items : List TemplateItem} {localToDb : List (Int × CallForwardItemId)}
    (opened : jobInScope db scope job = true) (recorded : Recorded db.callForward localToDb first n)
    (placed : ∀ (i : Nat) item, items[i]? = some item → Placed (n + i) item) (low : -2 ^ 31 ≤ base)
    (room : base + n + items.length ≤ 2 ^ 31) :
    ∃ after new, applyEach scope now job base db localToDb items = .ok after ∧ after.jobs = db.jobs ∧
      after.callForward.rows = db.callForward.rows ++ new ∧ (∀ row ∈ new, row.jobId = job) ∧
      new.map programmeRow = items.map (written first base) := by
  induction items generalizing db localToDb n with
  | nil => exact ⟨db, [], rfl, rfl, (List.append_nil _).symm, by simp, rfl⟩
  | cons item rest ih =>
    obtain ⟨localId, sortOrder, parent, ⟨itemType, parsed⟩, trade⟩ := placed 0 item rfl
    rw [Nat.add_zero] at localId sortOrder parent
    have up : item.localParentId.bind (fun p => List.lookup p localToDb) = item.localParentId.map (first + · - 1) := by
      cases named : item.localParentId with
      | none => rfl
      | some p =>
        obtain ⟨positive, bounded⟩ := parent p named
        exact recorded.listed p positive bounded
    have there : ∀ p, item.localParentId.map (first + · - 1) = some p → (db.callForward.find p).isSome = true := by
      intro p mapped
      obtain ⟨m, named, rfl⟩ := Option.map_eq_some_iff.mp mapped
      obtain ⟨positive, bounded⟩ := parent m named
      exact recorded.there m positive bounded
    have passes := @newLine_passes db scope now job base item itemType _ opened trade there
    rw [List.length_cons] at room
    have inside : ∀ (i : Nat) line, rest[i]? = some line → Placed (n + 1 + i) line := by
      intro i line stands
      have := placed (i + 1) line stands
      rwa [Nat.add_assoc, Nat.add_comm 1 i]
    obtain ⟨after, new, done, jobs, rows, owned, viewed⟩ := @ih
      (withItem db (newLine now job base item itemType (item.localParentId.map (first + · - 1))) fun _ => rfl) (n + 1) _
      opened (recorded.step fun _ => rfl) inside (by omega)
    refine ⟨after,
      newLine now job base item itemType (item.localParentId.map (first + · - 1)) db.callForward.serial :: new, ?_, jobs,
      ?_, ?_, ?_⟩
    · rw [applyEach, parsed]
      simp only [up]
      rw [insertItem_ok passes, localId]
      exact done
    · rw [rows]
      exact List.append_assoc _ _ _
    · intro row member
      rcases List.mem_cons.mp member with rfl | later
      · rfl
      · exact owned row later
    · rw [List.map_cons, List.map_cons, viewed]
      congr 1
      have order : wrapI32 (base + item.sortOrder) = base + item.sortOrder := wrapI32_eq (by omega) (by omega)
      have id : db.callForward.serial = first + item.localId - 1 := by
        rw [recorded.next, localId]
        omega
      rw [programmeRow, newLine, written, order, parse_eq_some_iff.mp parsed, id]

end Writing

/- The programme of the job afterwards. -/

section Programmes
variable {db after : Db} {scope : CompanyId} {job : JobId} {new : List CallForwardRow} {r : ProgrammeRow}

/-- The items of a job in the order in which they are read. -/
abbrev listed (a b : CallForwardRow) : Prop := a.sortOrder < b.sortOrder ∨ a.sortOrder = b.sortOrder ∧ a.id ≤ b.id

theorem mem_jobProgramme : r ∈ jobProgramme db scope job ↔
    ∃ i ∈ db.callForward.rows, (i.jobId = job ∧ itemVisible db scope i = true) ∧ programmeRow i = r := by
  refine List.mem_map.trans (exists_congr fun i => ?_)
  rw [List.mem_insertionSort, Table.mem_select, Bool.and_eq_true, decide_eq_true_eq, and_assoc]
  rfl

theorem jobProgramme_keyed : Keyed (jobProgramme db scope job) := by
  refine List.pairwise_map.mpr ?_
  have apart : (db.callForward.select fun i => i.jobId = job && itemVisible db scope i).Pairwise (·.id ≠ ·.id) :=
    db.callForward.distinct.filter _
  exact ((List.perm_insertionSort _ _).pairwise_iff fun different => different.symm).mpr apart

theorem jobProgramme_append (opened : jobInScope db scope job = true) (jobs : after.jobs = db.jobs)
    (rows : after.callForward.rows = db.callForward.rows ++ new) (owned : ∀ row ∈ new, row.jobId = job)
    (ascending : new.Pairwise (·.sortOrder < ·.sortOrder))
    (last : ∀ order ∈ ordersOf db scope job, ∀ row ∈ new, order < row.sortOrder) :
    jobProgramme after scope job = jobProgramme db scope job ++ new.map programmeRow := by
  have visible : ∀ i, itemVisible after scope i = itemVisible db scope i := by
    intro i
    rw [itemVisible, itemVisible, jobInScope, jobInScope, jobs]
  have kept : new.filter (fun i => i.jobId = job && itemVisible db scope i) = new := by
    refine List.filter_eq_self.mpr fun row member => ?_
    rw [itemVisible, owned row member, opened]
    simp
  have selected : (after.callForward.select fun i => i.jobId = job && itemVisible after scope i) =
      (db.callForward.select fun i => i.jobId = job && itemVisible db scope i) ++ new := by
    simp only [Table.select, visible, rows, List.filter_append, kept]
  have sorted : new.Pairwise listed := ascending.imp .inl
  have apart : ∀ a ∈ db.callForward.select fun i => i.jobId = job && itemVisible db scope i, ∀ b ∈ new, listed a b :=
    fun a member b later => .inl (last _ (List.mem_map_of_mem member) b later)
  rw [jobProgramme, selected]
  have placed := RowOrder.insertionSort_append apart sorted
  exact (congrArg (List.map programmeRow) placed).trans (List.map_append ..)

end Programmes

/- The lines of an accepted capture. -/

section Lines
variable {rows : List ProgrammeRow} {a b row : ProgrammeRow} {item : TemplateItem} {i : Nat}

/-- The line of a row, found through its id. -/
def lineOf (ordered : List ProgrammeRow) (row : ProgrammeRow) : TemplateItem :=
  let place := (positionOf ordered row.id).getD 0
  ⟨place, row.parentId.bind (positionOf ordered), row.title, row.itemType, row.supplierTrade, place - 1⟩

theorem lineOf_eq {ordered : List ProgrammeRow} (keyed : Keyed ordered) (stands : ordered[i]? = some row) :
    lineOf ordered row = lineAt ordered i row := by
  have place : (positionOf ordered row.id).getD 0 = position i + 1 := by
    rw [positionOf_eq keyed stands, Option.getD_some]
  simp only [lineOf, lineAt, place, Int.add_sub_cancel]

theorem capture_eq_map (keyed : Keyed rows) : capture rows = (inTreeOrder rows).map (lineOf (inTreeOrder rows)) := by
  apply List.ext_getElem?
  intro i
  rw [capture_getElem?, List.getElem?_map]
  cases stands : (inTreeOrder rows)[i]? with
  | none => rw [Option.map_none, Option.map_none]
  | some row => rw [Option.map_some, Option.map_some, lineOf_eq (inTreeOrder_keyed keyed) stands]

/-- A line names a line exactly when the row of the one is under the row of the other. -/
theorem line_parent_iff (keyed : Keyed rows) (valid : validateItems (capture rows) = .ok ())
    (stands : (inTreeOrder rows)[i]? = some a) :
    b.parentId.bind (positionOf (inTreeOrder rows)) = some ((i : Int) + 1) ↔ presentParent rows b = some a.id := by
  have small := accepted_small valid
  have ordered := inTreeOrder_keyed keyed
  have here := (mem_inTreeOrder_iff keyed).mp (List.mem_of_getElem? stands)
  constructor
  · intro refers
    obtain ⟨p, named, place⟩ := Option.bind_eq_some_iff.mp refers
    obtain ⟨parent, j, located, same, equal⟩ := (positionOf_iff ordered small).mp place
    have : i = j := by omega
    subst this
    rw [stands] at located
    cases located
    exact presentParent_some.mpr ⟨named.trans (congrArg some same.symm), a, here, rfl⟩
  · intro above
    rw [(presentParent_some.mp above).1, Option.bind_some]
    exact (positionOf_iff ordered small).mpr ⟨a, i, stands, rfl, rfl⟩

theorem line_root_iff (keyed : Keyed rows) :
    b.parentId.bind (positionOf (inTreeOrder rows)) = none ↔ presentParent rows b = none := by
  constructor
  · intro root
    cases above : presentParent rows b with
    | none => rfl
    | some p =>
      obtain ⟨named, parent, there, same⟩ := presentParent_some.mp above
      obtain ⟨j, located⟩ := List.mem_iff_getElem?.mp ((mem_inTreeOrder_iff keyed).mpr there)
      have place := positionOf_eq (inTreeOrder_keyed keyed) located
      rw [named, Option.bind_some, ← same, place] at root
      cases root
  · intro above
    cases named : b.parentId with
    | none => rfl
    | some p =>
      refine positionOf_absent fun r out same => ?_
      have known := presentParent_some.mpr ⟨named, r, (mem_inTreeOrder_iff keyed).mp out, same⟩
      rw [above] at known
      cases known

theorem capture_placed (keyed : Keyed rows) (valid : validateItems (capture rows) = .ok ())
    (trades : ∀ row ∈ rows, (tradeTooLong row.supplierTrade).1 = false) (line : (capture rows)[i]? = some item) :
    Placed i item := by
  have small := accepted_small valid
  have ordered := inTreeOrder_keyed keyed
  have typed := (validateItems_ok valid).1 item (List.mem_of_getElem? line)
  rw [capture_getElem?] at line
  obtain ⟨row, stands, rfl⟩ := Option.map_eq_some_iff.mp line
  have inside : i < (inTreeOrder rows).length := (List.getElem?_eq_some_iff.mp stands).1
  have place : position i = i := position_eq (by omega)
  refine ⟨by rw [lineAt, place], by rw [lineAt, place], fun p named => ?_, typed, ?_⟩
  · obtain ⟨q, up, found⟩ := Option.bind_eq_some_iff.mp named
    obtain ⟨parent, j, located, same, rfl⟩ := (positionOf_iff ordered small).mp found
    have above : presentParent rows row = some q :=
      presentParent_some.mpr ⟨up, parent, (mem_inTreeOrder_iff keyed).mp (List.mem_of_getElem? located), same⟩
    obtain ⟨other, k, earlier, alsoLocated, alsoSame⟩ := parent_earlier keyed valid stands above
    have equal := ordered.eq (List.mem_of_getElem? located) (List.mem_of_getElem? alsoLocated)
      (same.trans alsoSame.symm)
    rw [← equal] at alsoLocated
    have within : j < (inTreeOrder rows).length := (List.getElem?_eq_some_iff.mp located).1
    have : j = k := (List.getElem?_inj within ordered.nodup).mp (located.trans alsoLocated.symm)
    omega
  · exact trades row ((mem_inTreeOrder_iff keyed).mp (List.mem_of_getElem? stands))

end Lines

/- The walk of the rows that were written. -/

section Written
variable {rows earlier : List ProgrammeRow} {first base : Int}

abbrev writtenRows (first base : Int) (rows : List ProgrammeRow) : List ProgrammeRow :=
  (capture rows).map (written first base)

theorem writtenRows_eq (keyed : Keyed rows) :
    writtenRows first base rows =
      (inTreeOrder rows).map fun row => written first base (lineOf (inTreeOrder rows) row) := by
  rw [writtenRows, capture_eq_map keyed, List.map_map]
  rfl

theorem writtenRows_walks (keyed : Keyed rows) (valid : validateItems (capture rows) = .ok ()) :
    Walks (fun row => (writtenRows first base rows).filter fun n => n.parentId = some row.id)
      ((writtenRows first base rows).filter fun n => n.parentId = none) (writtenRows first base rows) := by
  have walked := accepted_walks keyed valid
  have small := accepted_small valid
  have ordered := inTreeOrder_keyed keyed
  have apart := ordered.nodup
  rw [writtenRows_eq keyed]
  have roots : ((inTreeOrder rows).map fun row => written first base (lineOf (inTreeOrder rows) row)).filter
      (fun n => n.parentId = none) =
        (childrenOf rows none).map fun row => written first base (lineOf (inTreeOrder rows) row) := by
    rw [List.filter_map]
    refine congrArg (List.map _) (filter_eq_of_sublist walked.sublist apart fun b out => ?_)
    rw [mem_children, Function.comp_apply, decide_eq_true_eq, written, lineOf, Option.map_eq_none_iff,
      line_root_iff keyed]
    exact and_iff_right ((mem_inTreeOrder_iff keyed).mp out)
  rw [roots]
  refine walked.map fun a visited => ?_
  obtain ⟨i, stands⟩ := List.mem_iff_getElem?.mp visited
  rw [List.filter_map]
  refine congrArg (List.map _) (filter_eq_of_sublist (walked.children_sublist visited) apart fun b out => ?_)
  have inside : i < (inTreeOrder rows).length := (List.getElem?_eq_some_iff.mp stands).1
  have place : positionOf (inTreeOrder rows) a.id = some ((i : Int) + 1) := by
    rw [positionOf_eq ordered stands, position_eq (by omega)]
  rw [mem_children, Function.comp_apply, decide_eq_true_eq, ← line_parent_iff keyed valid stands]
  simp only [written, lineOf, place, Option.getD_some, Option.map_eq_some_iff]
  constructor
  · rintro ⟨-, refers⟩
    exact ⟨_, refers, rfl⟩
  · rintro ⟨m, refers, same⟩
    have : m = (i : Int) + 1 := by omega
    rw [this] at refers
    exact ⟨(mem_inTreeOrder_iff keyed).mp out, refers⟩

end Written

/- The programme with the rows behind it. -/

/-- Rows whose ids and parents were given out before, and whose orders are used up. -/
structure Before (first base : Int) (earlier : List ProgrammeRow) : Prop where
  ids : ∀ r ∈ earlier, r.id < first
  parents : ∀ r ∈ earlier, ∀ p, r.parentId = some p → p < first
  orders : ∀ r ∈ earlier, r.sortOrder < base

section Together
variable {rows earlier : List ProgrammeRow} {first base : Int} {r : ProgrammeRow} {parent : Option Int} {i : Nat}

theorem written_at (placed : ∀ (i : Nat) item, (capture rows)[i]? = some item → Placed i item)
    (stands : (writtenRows first base rows)[i]? = some r) :
    ∃ item, (capture rows)[i]? = some item ∧ Placed i item ∧ written first base item = r := by
  rw [writtenRows, List.getElem?_map] at stands
  obtain ⟨item, line, made⟩ := Option.map_eq_some_iff.mp stands
  exact ⟨item, line, placed i item line, made⟩

theorem written_id (placed : ∀ (i : Nat) item, (capture rows)[i]? = some item → Placed i item)
    (stands : (writtenRows first base rows)[i]? = some r) : r.id = first + i := by
  obtain ⟨item, -, ⟨localId, -, -, -, -⟩, rfl⟩ := written_at placed stands
  have place : first + item.localId - 1 = first + i := by omega
  exact place

theorem written_order (placed : ∀ (i : Nat) item, (capture rows)[i]? = some item → Placed i item)
    (stands : (writtenRows first base rows)[i]? = some r) : r.sortOrder = base + i := by
  obtain ⟨item, -, ⟨-, sortOrder, -, -, -⟩, rfl⟩ := written_at placed stands
  rw [written, sortOrder]

/-- A parent of a row that was written was written too. -/
theorem written_parent {p : Int} (placed : ∀ (i : Nat) item, (capture rows)[i]? = some item → Placed i item)
    (there : r ∈ writtenRows first base rows) (named : r.parentId = some p) :
    ∃ above ∈ writtenRows first base rows, above.id = p := by
  obtain ⟨i, stands⟩ := List.mem_iff_getElem?.mp there
  obtain ⟨item, line, ⟨-, -, parent, -, -⟩, rfl⟩ := written_at placed stands
  obtain ⟨m, refers, rfl⟩ := Option.map_eq_some_iff.mp named
  obtain ⟨positive, bounded⟩ := parent m refers
  have inside : i < (writtenRows first base rows).length := (List.getElem?_eq_some_iff.mp stands).1
  have within : m.toNat - 1 < (writtenRows first base rows).length := by omega
  refine ⟨_, List.getElem_mem within, ?_⟩
  rw [written_id placed (List.getElem?_eq_getElem within)]
  omega

theorem together_keyed (keyed : Keyed earlier) (before : Before first base earlier)
    (placed : ∀ (i : Nat) item, (capture rows)[i]? = some item → Placed i item) :
    Keyed (earlier ++ writtenRows first base rows) := by
  have apart : Keyed (writtenRows first base rows) := by
    refine List.pairwise_iff_getElem.mpr fun i j left right less => ?_
    rw [written_id placed (List.getElem?_eq_getElem left), written_id placed (List.getElem?_eq_getElem right)]
    omega
  refine List.pairwise_append.mpr ⟨keyed, apart, fun a old b new => ?_⟩
  obtain ⟨i, stands⟩ := List.mem_iff_getElem?.mp new
  have := before.ids a old
  rw [written_id placed stands]
  omega

theorem together_children (before : Before first base earlier)
    (placed : ∀ (i : Nat) item, (capture rows)[i]? = some item → Placed i item) :
    childrenOf (earlier ++ writtenRows first base rows) parent =
      childrenOf earlier parent ++ (writtenRows first base rows).filter fun n => n.parentId = parent := by
  have old : ∀ a ∈ earlier, presentParent (earlier ++ writtenRows first base rows) a = presentParent earlier a := by
    intro a there
    refine Option.ext fun p => ?_
    rw [presentParent_some, presentParent_some]
    constructor
    · rintro ⟨named, b, among, same⟩
      rcases List.mem_append.mp among with known | new
      · exact ⟨named, b, known, same⟩
      · obtain ⟨i, stands⟩ := List.mem_iff_getElem?.mp new
        have high := written_id placed stands
        have low := before.parents a there p named
        omega
    · rintro ⟨named, b, known, same⟩
      exact ⟨named, b, List.mem_append_left _ known, same⟩
  have new : ∀ a ∈ writtenRows first base rows,
      presentParent (earlier ++ writtenRows first base rows) a = a.parentId := by
    intro a there
    refine Option.ext fun p => ?_
    rw [presentParent_some]
    refine and_iff_left_of_imp fun named => ?_
    obtain ⟨b, known, same⟩ := written_parent placed there named
    exact ⟨b, List.mem_append_right _ known, same⟩
  rw [childrenOf, List.filter_append, List.filter_congr fun a there => by rw [old a there],
    List.filter_congr fun a (there : a ∈ writtenRows first base rows) => by rw [new a there]]
  refine RowOrder.insertionSort_append ?_ ?_
  · intro a among b later
    obtain ⟨i, stands⟩ := List.mem_iff_getElem?.mp (List.mem_filter.mp later).1
    have low := before.orders a (List.mem_filter.mp among).1
    rw [written_order placed stands]
    exact .inl (by omega)
  · refine List.Pairwise.filter _ (List.pairwise_iff_getElem.mpr fun i j left right less => ?_)
    rw [written_order placed (List.getElem?_eq_getElem left), written_order placed (List.getElem?_eq_getElem right)]
    exact .inl (by omega)

/-- What was there is walked as before, then what was written. -/
theorem together_order (keyed : Keyed earlier) (valid : validateItems (capture earlier) = .ok ())
    (before : Before first base earlier) (keyedRows : Keyed rows) (validRows : validateItems (capture rows) = .ok ())
    (placed : ∀ (i : Nat) item, (capture rows)[i]? = some item → Placed i item) :
    inTreeOrder (earlier ++ writtenRows first base rows) = inTreeOrder earlier ++ writtenRows first base rows := by
  have above : ∀ a ∈ inTreeOrder earlier, kidsOf (earlier ++ writtenRows first base rows) a = kidsOf earlier a := by
    intro a out
    rw [kidsOf, together_children before placed]
    refine List.append_right_eq_self.mpr (List.filter_eq_nil_iff.mpr fun b new under => ?_)
    obtain ⟨c, there, same⟩ := written_parent placed new (of_decide_eq_true under)
    obtain ⟨i, stands⟩ := List.mem_iff_getElem?.mp there
    have high := written_id placed stands
    have low := before.ids a ((mem_inTreeOrder_iff keyed).mp out)
    omega
  have behind : ∀ a ∈ writtenRows first base rows, kidsOf (earlier ++ writtenRows first base rows) a =
      (writtenRows first base rows).filter fun n => n.parentId = some a.id := by
    intro a out
    rw [kidsOf, together_children before placed]
    refine List.append_left_eq_self.mpr (List.eq_nil_iff_forall_not_mem.mpr fun b child => ?_)
    obtain ⟨there, under⟩ := mem_children.mp child
    obtain ⟨i, stands⟩ := List.mem_iff_getElem?.mp out
    have high := written_id placed stands
    have low := before.parents b there a.id (presentParent_some.mp under).1
    omega
  refine inTreeOrder_eq (together_keyed keyed before placed) ?_ ?_
  · rw [together_children before placed]
    have first := (accepted_walks keyed valid).congr above
    exact first.append ((writtenRows_walks keyedRows validRows).congr behind)
  · intro a there
    rcases List.mem_append.mp there with old | new
    · exact List.mem_append_left _ ((mem_inTreeOrder_iff keyed).mpr old)
    · exact List.mem_append_right _ new

end Together

/- The capture afterwards. -/

section Again
variable {rows earlier : List ProgrammeRow} {first base p : Int}

theorem positionOf_before (absent : ∀ n ∈ writtenRows first base rows, n.id ≠ p) :
    positionOf (inTreeOrder earlier ++ writtenRows first base rows) p = positionOf (inTreeOrder earlier) p := by
  have nothing :
      ((writtenRows first base rows).zipIdx (inTreeOrder earlier).length).reverse.find? (·.1.id = p) = none := by
    refine List.find?_eq_none.mpr fun n listed same => ?_
    have there := List.fst_mem_of_mem_zipIdx (List.mem_reverse.mp listed)
    exact absent _ there (of_decide_eq_true same)
  rw [positionOf, List.zipIdx_append, List.reverse_append, List.find?_append, Nat.zero_add, nothing, Option.none_or]
  rfl

/-- A row that was there refers to the row it referred to. -/
theorem parent_stays {r : ProgrammeRow} (before : Before first base earlier)
    (placed : ∀ (i : Nat) item, (capture rows)[i]? = some item → Placed i item) (there : r ∈ earlier) :
    r.parentId.bind (positionOf (inTreeOrder earlier ++ writtenRows first base rows)) =
      r.parentId.bind (positionOf (inTreeOrder earlier)) := by
  refine Option.bind_congr fun p named => positionOf_before fun n new same => ?_
  obtain ⟨j, stood⟩ := List.mem_iff_getElem?.mp new
  have high := written_id placed stood
  have low := before.parents r there p named
  omega

/-- A row that was written refers to the place its line names, behind what was there. -/
theorem parent_shifted {k : Nat} {item : TemplateItem} (distinct : Keyed (inTreeOrder earlier ++ writtenRows first base rows))
    (placed : ∀ (i : Nat) item, (capture rows)[i]? = some item → Placed i item) (line : (capture rows)[k]? = some item)
    (few : (inTreeOrder earlier).length + (capture rows).length < 2 ^ 31) :
    (item.localParentId.map (first + · - 1)).bind (positionOf (inTreeOrder earlier ++ writtenRows first base rows)) =
      item.localParentId.map (· + ((inTreeOrder earlier).length : Int)) := by
  obtain ⟨-, -, parent, -, -⟩ := placed k item line
  have within : k < (capture rows).length := (List.getElem?_eq_some_iff.mp line).1
  cases refers : item.localParentId with
  | none => rfl
  | some m =>
    obtain ⟨positive, bounded⟩ := parent m refers
    have there : m.toNat - 1 < (writtenRows first base rows).length := by
      rw [List.length_map]
      omega
    have stands : (inTreeOrder earlier ++ writtenRows first base rows)[(inTreeOrder earlier).length + (m.toNat - 1)]? =
        some (writtenRows first base rows)[m.toNat - 1] := by
      rw [List.getElem?_append_right (Nat.le_add_right _ _), Nat.add_sub_cancel_left]
      exact List.getElem?_eq_getElem there
    have id : first + m - 1 = (writtenRows first base rows)[m.toNat - 1].id := by
      rw [written_id placed (List.getElem?_eq_getElem there)]
      omega
    have sum : (((inTreeOrder earlier).length + (m.toNat - 1) : Nat) : Int) + 1 = m + (inTreeOrder earlier).length := by
      omega
    have small : (((inTreeOrder earlier).length + (m.toNat - 1) : Nat) : Int) < 2 ^ 31 := by omega
    rw [Option.map_some, Option.bind_some, id, positionOf_eq distinct stands, position_eq small, sum, Option.map_some]

theorem capture_together (keyed : Keyed earlier) (valid : validateItems (capture earlier) = .ok ())
    (before : Before first base earlier) (keyedRows : Keyed rows) (validRows : validateItems (capture rows) = .ok ())
    (placed : ∀ (i : Nat) item, (capture rows)[i]? = some item → Placed i item) :
    capture (earlier ++ writtenRows first base rows) =
      capture earlier ++ (capture rows).map (shifted (capture earlier).length) := by
  have order := together_order keyed valid before keyedRows validRows placed
  have distinct : Keyed (inTreeOrder earlier ++ writtenRows first base rows) := by
    rw [← order]
    exact inTreeOrder_keyed (together_keyed keyed before placed)
  have short := (validateItems_short valid).1
  have also := (validateItems_short validRows).1
  rw [maxTemplateItems] at short also
  apply List.ext_getElem?
  intro i
  rw [capture_getElem?, order]
  rcases Nat.lt_or_ge i (inTreeOrder earlier).length with inside | behind
  · have alsoInside : i < (capture earlier).length := by rwa [length_capture]
    rw [List.getElem?_append_left inside, List.getElem?_append_left alsoInside, capture_getElem?]
    refine Option.map_congr fun r stands => ?_
    have there : r ∈ earlier := (mem_inTreeOrder_iff keyed).mp (List.mem_of_getElem? stands)
    rw [lineAt, lineAt, parent_stays before placed there]
  · have alsoBehind : (capture earlier).length ≤ i := by rwa [length_capture]
    rw [List.getElem?_append_right behind, List.getElem?_append_right alsoBehind, length_capture, List.getElem?_map,
      List.getElem?_map, Option.map_map]
    refine Option.map_congr fun item line => ?_
    obtain ⟨localId, sortOrder, -, -, -⟩ := placed _ item line
    have within : i - (inTreeOrder earlier).length < (capture rows).length := (List.getElem?_eq_some_iff.mp line).1
    rw [length_capture] at short
    have place : position i = i := position_eq (by omega)
    have up := parent_shifted distinct placed line (by omega)
    have localPlace : (i : Int) + 1 = item.localId + (inTreeOrder earlier).length := by omega
    have orderPlace : (i : Int) = item.sortOrder + (inTreeOrder earlier).length := by omega
    rw [Function.comp_apply, lineAt, place, localPlace, orderPlace]
    simp only [written, up, shifted]

end Again

/- The round trip. -/

section RoundTrip
variable {captured kept db : Db} {author : SessionUser} {scope : CompanyId} {source job : JobId}

theorem createTemplate_captures {earlier : Instant} {name : Text} {description : Option Text}
    {template : CallForwardTemplateRow}
    (stored :
      CallForwardService.createTemplate captured author earlier name description source = (.ok template, kept)) :
    template.items = capture (jobProgramme captured author.principal.companyId source) ∧
      validateItems template.items = .ok () := by
  unfold CallForwardService.createTemplate at stored
  split at stored
  · cases stored
  · obtain ⟨_, -, stored⟩ := attempt_ok stored
    obtain ⟨_, valid, stored⟩ := attempt_ok stored
    have made := committed_ok stored
    have items : template.items = capture (jobProgramme captured author.principal.companyId source) := by
      rw [insertRow_value made]
    exact ⟨items, items ▸ inDomain_ok valid⟩

theorem nextOrder_room {orders : List Int} {size : Nat} (low : ∀ order ∈ orders, -2 ^ 31 ≤ order)
    (room : ∀ order ∈ orders, order + size < 2 ^ 31) (short : size ≤ maxTemplateItems) (some : size ≠ 0) :
    ∃ base, nextOrder orders = .ok base ∧ -2 ^ 31 ≤ base ∧ base + size ≤ 2 ^ 31 ∧ ∀ order ∈ orders, order < base := by
  rw [maxTemplateItems] at short
  cases largest : orders.max? with
  | none =>
    have empty : orders = [] := List.max?_eq_none_iff.mp largest
    subst empty
    exact ⟨0, rfl, by omega, by omega, fun order member => absurd member List.not_mem_nil⟩
  | some top =>
    obtain ⟨member, above⟩ := List.max?_eq_some_iff.mp largest
    have lowest := low top member
    have highest := room top member
    refine ⟨top + 1, ?_, by omega, by omega, fun order listed => ?_⟩
    · rw [nextOrder, largest, Option.getD_some]
      exact if_pos (by omega)
    · have := above order listed
      omega

theorem before_of_columns {base : Int} (columns : Columns db.callForward)
    (above : ∀ order ∈ ordersOf db scope job, order < base) :
    Before db.callForward.serial base (jobProgramme db scope job) := by
  refine ⟨fun r listed => ?_, fun r listed p named => ?_, fun r listed => ?_⟩
  · obtain ⟨i, there, -, rfl⟩ := mem_jobProgramme.mp listed
    exact db.callForward.below i there
  · obtain ⟨i, there, -, rfl⟩ := mem_jobProgramme.mp listed
    obtain ⟨parent, found⟩ := Option.isSome_iff_exists.mp (columns.parents i there p named)
    obtain ⟨member, same⟩ := Table.find_eq_some_iff.mp found
    exact same ▸ db.callForward.below parent member
  · obtain ⟨i, there, visible, rfl⟩ := mem_jobProgramme.mp listed
    refine above _ (List.mem_map_of_mem (Table.mem_select.mpr ⟨there, ?_⟩))
    rw [Bool.and_eq_true, decide_eq_true_eq]
    exact visible

theorem template_round_trip (captured kept db : Db) (author : SessionUser) (scope : CompanyId) (earlier now : Instant)
    (name : Text) (description : Option Text) (source job : JobId) (template row : CallForwardTemplateRow)
    (stored : CallForwardService.createTemplate captured author earlier name description source = (.ok template, kept))
    (found : findTemplate db scope row.id = some row) (unchanged : row.items = template.items)
    (nonempty : row.items ≠ []) (opened : jobInScope db scope job = true)
    (accepted : validateItems (capture (jobProgramme db scope job)) = .ok ())
    (source_columns : Columns captured.callForward) (columns : Columns db.callForward)
    (room : ∀ order ∈ ordersOf db scope job, order + row.items.length < 2 ^ 31) :
    ∃ after, apply db scope now row.id job false = .ok (row.items.length, after) ∧
      capture (jobProgramme after scope job) = capture (jobProgramme db scope job) ++
        row.items.map (shifted (capture (jobProgramme db scope job)).length) := by
  obtain ⟨items, valid⟩ := createTemplate_captures stored
  rw [items] at unchanged valid
  have keyed : Keyed (jobProgramme captured author.principal.companyId source) := jobProgramme_keyed
  have trades :
      ∀ r ∈ jobProgramme captured author.principal.companyId source, (tradeTooLong r.supplierTrade).1 = false := by
    intro r listed
    obtain ⟨i, there, -, rfl⟩ := mem_jobProgramme.mp listed
    exact source_columns.trades i there
  have placed : ∀ (i : Nat) item, row.items[i]? = some item → Placed (0 + i) item := by
    intro i item line
    rw [unchanged] at line
    rw [Nat.zero_add]
    exact capture_placed keyed valid trades line
  have low : ∀ order ∈ ordersOf db scope job, -2 ^ 31 ≤ order := by
    intro order listed
    obtain ⟨i, chosen, rfl⟩ := List.mem_map.mp listed
    exact (columns.orders i (Table.mem_select.mp chosen).1).1
  have short := (validateItems_short valid).1
  rw [← unchanged] at short
  obtain ⟨base, next, lowest, highest, above⟩ :=
    nextOrder_room low room short fun none => nonempty (List.length_eq_zero_iff.mp none)
  have start : Recorded db.callForward [] db.callForward.serial 0 :=
    ⟨(Int.add_zero _).symm, fun m positive bounded => by omega, fun m positive bounded => by omega⟩
  have fits : base + ((0 : Nat) : Int) + row.items.length ≤ 2 ^ 31 := by omega
  obtain ⟨after, new, done, jobs, rows, owned, viewed⟩ := @applyEach_written db scope now job base _ 0 row.items []
    opened start placed lowest fits
  have applied : apply db scope now row.id job false = .ok (row.items.length, after) := by
    simp only [apply, found, if_neg nonempty, Bool.false_eq_true, if_false, next]
    exact congrArg (fun result => result >>= fun last => Except.ok (row.items.length, last)) done
  refine ⟨after, applied, ?_⟩
  rw [unchanged] at viewed
  have orders : ∀ (i : Nat) a, new[i]? = some a → a.sortOrder = base + i := by
    intro i a stands
    have view : (writtenRows db.callForward.serial base (jobProgramme captured author.principal.companyId source))[i]? =
        some (programmeRow a) := by
      rw [writtenRows, ← viewed, List.getElem?_map, stands, Option.map_some]
    exact written_order (fun i item line => capture_placed keyed valid trades line) view
  have ascending : new.Pairwise (·.sortOrder < ·.sortOrder) := by
    refine List.pairwise_iff_getElem.mpr fun i j left right less => ?_
    rw [orders i _ (List.getElem?_eq_getElem left), orders j _ (List.getElem?_eq_getElem right)]
    omega
  have last : ∀ order ∈ ordersOf db scope job, ∀ a ∈ new, order < a.sortOrder := by
    intro order listed a member
    obtain ⟨i, stands⟩ := List.mem_iff_getElem?.mp member
    have := above order listed
    rw [orders i a stands]
    omega
  rw [jobProgramme_append opened jobs rows owned ascending last, viewed, unchanged]
  exact capture_together jobProgramme_keyed accepted (before_of_columns columns above) keyed valid
    fun i item line => capture_placed keyed valid trades line

end RoundTrip

/- A frame with its walls and a roof, captured and written behind itself. -/

theorem twoTasks_columns : Columns twoTasks.callForward := by
  refine ⟨fun row member p named => ?_, fun row member => ?_, fun row member => ?_⟩
  · rcases mem_twoTasks member with rfl | rfl | rfl
    · cases named
    · cases named
      rfl
    · cases named
  · rcases mem_twoTasks member with rfl | rfl | rfl <;> rfl
  · rcases mem_twoTasks member with rfl | rfl | rfl <;> decide

theorem twoTasks_again : ∃ template kept,
    CallForwardService.createTemplate twoTasks manager 0 (text "Frame") none 1 = (.ok template, kept) ∧
      ∃ after, apply kept 1 0 1 1 false = .ok (3, after) ∧
        capture (jobProgramme after 1 1) = capture (jobProgramme kept 1 1) ++ template.items.map (shifted 3) := by
  have captured : ∃ template kept,
      CallForwardService.createTemplate twoTasks manager 0 (text "Frame") none 1 = (.ok template, kept) ∧
        findTemplate kept 1 1 = some template ∧ template.id = 1 ∧ template.items.length = 3 ∧
        kept.callForward = twoTasks.callForward ∧ (capture (jobProgramme kept 1 1)).length = 3 ∧
        jobInScope kept 1 1 = true ∧ validateItems (capture (jobProgramme kept 1 1)) = .ok () ∧
        ordersOf kept 1 1 = [0, 1, 2] := ⟨_, _, rfl, rfl, rfl, rfl, rfl, rfl, rfl, rfl, rfl⟩
  obtain ⟨template, kept, stored, found, id, size, programme, length, opened, accepted, orders⟩ := captured
  have nonempty : template.items ≠ [] := by
    intro none
    rw [none] at size
    cases size
  have room : ∀ order ∈ ordersOf kept 1 1, order + template.items.length < 2 ^ 31 := by
    rw [orders, size]
    decide
  have columns : Columns kept.callForward := by
    rw [programme]
    exact twoTasks_columns
  have located : findTemplate kept 1 template.id = some template := by
    rw [id]
    exact found
  obtain ⟨after, applied, again⟩ := template_round_trip twoTasks kept kept manager 1 0 0 (text "Frame") none 1 1
    template template stored located rfl nonempty opened accepted twoTasks_columns columns room
  rw [id, size] at applied
  rw [length] at again
  exact ⟨template, kept, stored, after, applied, again⟩

end TemplateRoundTrip
