import PmKonstruct.CallForward.Hierarchy

/- A list of items created at once. The check runs over places in the list and the types they are about to have, the
   writing over the rows that came of them; the two agree place by place, and a list that fails anywhere leaves nothing. -/
namespace BulkTree
open PlainText DomainErrors Accounts CalendarDate Schema KeyedTable RowSecurity Requests CallForwardItem ProgrammeStore
open CallForwardService Hierarchy
open AuthService (SessionUser)

/-- The row that an item of the list became: what the item says, with a task that has not started where it says nothing. -/
structure Stands (now : Instant) (job : JobId) (rows : List CallForwardRow) (index : Nat) (input : CallForwardInput)
    (localParent : Option Nat) (row : CallForwardRow) : Prop where
  job : row.jobId = job
  title : row.title = input.title
  itemType : row.itemType = input.itemType.getD .task
  trade : row.supplierTrade = input.supplierTrade
  estimated : row.estStart = input.estStart ∧ row.estFinish = input.estFinish
  actual : row.actualStart = input.actualStart ∧ row.actualFinish = input.actualFinish
  status : row.status = input.status.getD .notStarted
  notes : row.notes = input.notes
  stamped : row.createdAt = now ∧ row.updatedAt = now
  order : ∀ given, input.sortOrder = some given → row.sortOrder = given
  child : ∀ p, localParent = some p → p < index ∧ ∃ parent, rows[p]? = some parent ∧ row.parentId = some parent.id
  linked : localParent = none → row.parentId = input.parentId

section Writing
variable {db start after : Db} {s : SessionUser} {scope : CompanyId} {now : Instant} {job : JobId}
    {items front rest : List (CallForwardInput × Option Nat)} {created rows : List CallForwardRow} {row : CallForwardRow}
    {input : CallForwardInput} {parent : Option CallForwardItemId} {localParent : Option Nat}

theorem insertIn_ok (inserted : insertIn db scope now job input parent = .ok (row, after)) : ∃ order,
    (∀ given, input.sortOrder = some given → order = given) ∧
      row = newItem now job input order parent db.callForward.serial ∧
      after = { db with callForward := db.callForward.insert (newItem now job input order parent) fun _ => rfl } := by
  obtain ⟨order, ordered, inserting⟩ := bind_ok inserted
  refine ⟨order, fun given named => ?_, insertRow_value inserting, (insertRow_ok inserting).2⟩
  rw [named] at ordered
  cases ordered
  rfl

/-- A local parent is an earlier row of the list. -/
theorem bulkParent_ok (resolved : bulkParent created input localParent = .ok parent) :
    (∀ p, localParent = some p → ∃ row, created[p]? = some row ∧ parent = some row.id) ∧
      (localParent = none → parent = input.parentId) := by
  cases localParent with
  | none =>
    cases resolved
    exact ⟨fun p named => (by cases named), fun _ => rfl⟩
  | some index =>
    rw [bulkParent] at resolved
    split at resolved
    · cases resolved
    · next row there =>
      cases resolved
      refine ⟨fun p named => ?_, fun none => by cases none⟩
      cases named
      exact ⟨row, there, rfl⟩

theorem stands_here {index : Nat} {order : Int} {id : CallForwardItemId} {more : List CallForwardRow}
    (given : ∀ o, input.sortOrder = some o → order = o) (resolved : bulkParent created input localParent = .ok parent)
    (length : created.length = index) :
    Stands now job (created ++ more) index input localParent (newItem now job input order parent id) where
  job := rfl
  title := rfl
  itemType := rfl
  trade := rfl
  estimated := ⟨rfl, rfl⟩
  actual := ⟨rfl, rfl⟩
  status := rfl
  notes := rfl
  stamped := ⟨rfl, rfl⟩
  order := given
  child := by
    intro p named
    obtain ⟨above, there, same⟩ := (bulkParent_ok resolved).1 p named
    have within : p < created.length := (List.getElem?_eq_some_iff.mp there).1
    exact ⟨length ▸ within, above, (List.getElem?_append_left within).trans there, same⟩
  linked := (bulkParent_ok resolved).2

theorem createEach_builds (building : Building start s job items front rest created db)
    (written : createEach scope now job db created rest = .ok (rows, after)) :
    ∃ new, rows = created ++ new ∧ new.length = rest.length ∧ Grows db.callForward after.callForward ∧
      after.callForward.rows = db.callForward.rows ++ new ∧ after = { db with callForward := after.callForward } ∧
      (∀ (i : Nat) input localParent, rest[i]? = some (input, localParent) →
        ∃ row, new[i]? = some row ∧ Stands now job rows (created.length + i) input localParent row) ∧
      ∀ row ∈ new, ∀ p, row.parentId = some p → Under after.callForward row p := by
  induction rest generalizing front created db with
  | nil =>
    cases written
    refine ⟨[], (List.append_nil _).symm, rfl, fun _ _ has => has, (List.append_nil _).symm, rfl, ?_, ?_⟩
    · intro i input localParent there
      cases there
    · exact fun row member => absurd member List.not_mem_nil
  | cons item rest ih =>
    obtain ⟨input, localParent⟩ := item
    obtain ⟨parent, resolved, writing⟩ := bind_ok written
    obtain ⟨⟨row, stored⟩, inserted, writing⟩ := bind_ok writing
    have linked := building.linked resolved
    obtain ⟨order, given, made, rfl⟩ := insertIn_ok inserted
    have grows : Grows db.callForward (db.callForward.insert (newItem now job input order parent) fun _ => rfl) :=
      fun id kind has => has.insert
    have kind : (db.callForward.insert (newItem now job input order parent) fun _ => rfl).Has kindOf row.id
        (job, input.itemType.getD .task) := by
      rw [made]
      exact Table.has_inserted
    have placed : row ∈ (db.callForward.insert (newItem now job input order parent) fun _ => rfl).rows :=
      Table.mem_insert.mpr (.inr made)
    obtain ⟨new, joined, counted, growing, stored, others, places, under⟩ := ih (building.next grows kind) writing
    refine ⟨row :: new, ?_, ?_, fun id kind has => growing id kind (grows id kind has), ?_, others, ?_, ?_⟩
    · rw [joined, List.append_assoc]
      rfl
    · rw [List.length_cons, counted, List.length_cons]
    · rw [stored, made]
      exact List.append_assoc _ _ _
    · intro i other otherParent there
      cases i with
      | zero =>
        cases there
        refine ⟨row, rfl, ?_⟩
        rw [made, joined, List.append_assoc]
        exact stands_here given resolved rfl
      | succ i =>
        obtain ⟨child, found, stands⟩ := places i other otherParent there
        refine ⟨child, found, ?_⟩
        rw [List.length_append, List.length_singleton, Nat.add_assoc, Nat.add_comm 1 i] at stands
        exact stands
    · intro child member p named
      rcases List.mem_cons.mp member with rfl | later
      · have there : child ∈ after.callForward.rows := by
          rw [stored]
          exact List.mem_append_left _ placed
        obtain ⟨header, below⟩ := linked p (by rw [← named, made]; rfl)
        refine under_of_mem there ?_ ?_
        · rw [made]
          exact growing p _ (grows p _ header)
        · rw [made]
          exact below
      · exact under child later p named

end Writing

section Requests
variable {db : Db} {s : SessionUser} {now : Instant} {today : Date} {job : JobId}
    {items rest : List (CallForwardInput × Option Nat)} {index : Nat}

/-- The check of a list is that of each of its items. -/
theorem checkEach_all (checked : checkEach db s job items index rest = .ok ()) : ∀ (i : Nat) input localParent,
    rest[i]? = some (input, localParent) →
      input.validate = .ok () ∧ checkLink db s job items (index + i) input localParent = .ok () := by
  induction rest generalizing index with
  | nil =>
    intro i input localParent there
    cases there
  | cons item rest ih =>
    obtain ⟨_, valid, checking⟩ := bind_ok checked
    obtain ⟨_, link, later⟩ := bind_ok checking
    intro i input localParent there
    cases i with
    | zero =>
      cases there
      exact ⟨inDomain_ok valid, link⟩
    | succ i =>
      have := ih later i input localParent there
      rwa [Nat.add_assoc, Nat.add_comm 1 i] at this

theorem createBulk_ok {listed : List CallForwardItemWithDelay} {after : Db}
    (served : CallForwardService.createBulk db s today now job items = (.ok listed, after)) :
    checkEach db s job items 0 items = .ok () ∧ ∃ rows, listed = rows.map (withDelay today) ∧
      createEach s.principal.companyId now job db [] items = .ok (rows, after) := by
  obtain ⟨_, -, served⟩ := attempt_ok served
  obtain ⟨_, -, served⟩ := attempt_ok served
  obtain ⟨_, checked, served⟩ := attempt_ok served
  obtain ⟨⟨rows, stored⟩, written, pair⟩ := map_ok (committed_ok served)
  cases pair
  exact ⟨checked, rows, rfl, written⟩

theorem createBulk_error {e : AppError} {after : Db}
    (served : CallForwardService.createBulk db s today now job items = (.error e, after)) : after = db := by
  rcases attempt_served served with ⟨_, failed⟩ | ⟨_, -, served⟩
  · cases failed
    rfl
  · rcases attempt_served served with ⟨_, failed⟩ | ⟨_, -, served⟩
    · cases failed
      rfl
    · rcases attempt_served served with ⟨_, failed⟩ | ⟨_, -, served⟩
      · cases failed
        rfl
      · exact committed_error served

end Requests

/-- The rows of an accepted list, in order and under each other as it says; or nothing. -/
theorem bulk_builds_tree (db : Db) (s : SessionUser) (today : Date) (now : Instant) (job : JobId)
    (items : List (CallForwardInput × Option Nat)) :
    (∀ listed after, CallForwardService.createBulk db s today now job items = (.ok listed, after) → ∃ created,
      listed = created.map (withDelay today) ∧ created.length = items.length ∧
      after = { db with callForward := after.callForward } ∧ after.callForward.rows = db.callForward.rows ++ created ∧
      (∀ (i : Nat) input localParent, items[i]? = some (input, localParent) →
        ∃ row, created[i]? = some row ∧ Stands now job created i input localParent row) ∧
      ∀ row ∈ created, ∀ p, row.parentId = some p → Under after.callForward row p) ∧
    (∀ e after, CallForwardService.createBulk db s today now job items = (.error e, after) → after = db) ∧
    ∀ (i : Nat) input localParent, items[i]? = some (input, localParent) →
      (input.validate ≠ .ok () ∨ checkLink db s job items i input localParent ≠ .ok ()) →
      ∃ e, CallForwardService.createBulk db s today now job items = (.error e, db) := by
  refine ⟨fun listed after served => ?_, fun e after served => createBulk_error served, ?_⟩
  · obtain ⟨checked, rows, listed, written⟩ := createBulk_ok served
    obtain ⟨new, joined, counted, -, stored, others, places, under⟩ :=
      createEach_builds (building_start checked) written
    rw [List.nil_append] at joined
    subst joined
    refine ⟨rows, listed, counted, others, stored, fun i input localParent there => ?_, under⟩
    obtain ⟨row, found, stands⟩ := places i input localParent there
    rw [List.length_nil, Nat.zero_add] at stands
    exact ⟨row, found, stands⟩
  · intro i input localParent there wrong
    cases served : CallForwardService.createBulk db s today now job items with
    | mk answer after =>
      cases answer with
      | error e => exact ⟨e, by rw [createBulk_error served]⟩
      | ok listed =>
        obtain ⟨valid, link⟩ := checkEach_all (createBulk_ok served).1 i input localParent there
        rw [Nat.zero_add] at link
        rcases wrong with invalid | unlinked
        · exact absurd valid invalid
        · exact absurd link unlinked

theorem frame_with_walls : ∃ listed after, CallForwardService.createBulk emptyProgramme manager 0 0 1
      [(line (text "Frame") .header none, none), (line (text "Walls") .task none, some 0)] = (.ok listed, after) ∧
    listed.map (·.item.parentId) = [none, some 1] ∧
    ∃ created : List CallForwardRow, listed = created.map (withDelay 0) ∧
      ∀ row ∈ created, ∀ p, row.parentId = some p → Under after.callForward row p := by
  have run : ∃ listed after, CallForwardService.createBulk emptyProgramme manager 0 0 1
      [(line (text "Frame") .header none, none), (line (text "Walls") .task none, some 0)] = (.ok listed, after) ∧
      listed.map (·.item.parentId) = [none, some 1] := ⟨_, _, rfl, rfl⟩
  obtain ⟨listed, after, served, parents⟩ := run
  obtain ⟨created, view, -, -, -, -, under⟩ := (bulk_builds_tree emptyProgramme manager 0 0 1 _).1 listed after served
  exact ⟨listed, after, served, parents, created, view, under⟩

end BulkTree
