import PmKonstruct.CallForward.CallForwardService
import PmKonstruct.Library.TransitionRuns

/- The hierarchy of a programme over whole runs. The rule relates an item to its parent, so a step may break it
   from either side: by the link it writes, or by what it makes of a row that others point to. -/
namespace Hierarchy
open PlainText DomainErrors Accounts CalendarDate Schema KeyedTable RowSecurity Requests ParentForest TransitionRuns
open CallForwardItem Templates ProgrammeStore CallForwardService
open AuthService (SessionUser)

/-- What the rule asks of a row: its job and its type. -/
def kindOf (row : CallForwardRow) : JobId × ItemType := (row.jobId, row.itemType)

/-- The parent exists on the job of the item and is a HEADER, the item is none, and the two are different. -/
structure Under (t : Table CallForwardRow) (row : CallForwardRow) (parent : CallForwardItemId) : Prop where
  header : t.Has kindOf parent (row.jobId, .header)
  below : row.itemType ≠ .header
  apart : parent ≠ row.id

def Nested (t : Table CallForwardRow) : Prop := ∀ row ∈ t.rows, ∀ p, row.parentId = some p → Under t row p

def ProgrammeNested (db : Db) : Prop := Nested db.callForward

def TemplatesNested (db : Db) : Prop := ∀ template ∈ db.callForwardTemplates.rows, wellNested template.items = true

/-- A link that a step may write. -/
def Linked (t : Table CallForwardRow) (job : JobId) (itemType : ItemType) (parent : Option CallForwardItemId) : Prop :=
  ∀ p, parent = some p → t.Has kindOf p (job, .header) ∧ itemType ≠ .header

def Grows (t u : Table CallForwardRow) : Prop := ∀ id kind, t.Has kindOf id kind → u.Has kindOf id kind

section Tables
variable {t : Table CallForwardRow} {row : CallForwardRow} {p : CallForwardItemId}

theorem under_of_mem (member : row ∈ t.rows) (header : t.Has kindOf p (row.jobId, .header))
    (below : row.itemType ≠ .header) : Under t row p := by
  refine ⟨header, below, ?_⟩
  intro same
  have own : t.Has kindOf row.id (kindOf row) := Table.has_of_mem member
  rw [same] at header
  exact below (congrArg Prod.snd (own.unique header))

theorem nested_flat (nested : Nested t) : Flat (parentOf t) := by
  intro a b up
  obtain ⟨row, found, named⟩ := Option.bind_eq_some_iff.mp up
  obtain ⟨parent, located, kind⟩ := (nested row (Table.find_eq_some_iff.mp found).1 b named).header
  cases above : parentOf t b with
  | none => rfl
  | some c =>
    obtain ⟨other, again, alsoNamed⟩ := Option.bind_eq_some_iff.mp above
    rw [located] at again
    cases again
    have below := (nested parent (Table.find_eq_some_iff.mp located).1 c alsoNamed).below
    exact absurd (congrArg Prod.snd kind) below

theorem nested_insert {make : CallForwardItemId → CallForwardRow} (keyed : ∀ id, (make id).id = id)
    {job : JobId} {itemType : ItemType} (nested : Nested t) (linked : Linked t job itemType (make t.serial).parentId)
    (kind : kindOf (make t.serial) = (job, itemType)) : Nested (t.insert make keyed) := by
  cases kind
  apply Table.all_insert
  · intro row member p named
    have under := nested row member p named
    exact ⟨under.header.insert, under.below, under.apart⟩
  · intro p named
    obtain ⟨header, below⟩ := linked p named
    have member : make t.serial ∈ (t.insert make keyed).rows := Table.mem_insert.mpr (.inr rfl)
    exact under_of_mem member header.insert below

/-- Whatever is deleted takes its children along, so nothing is left under it. -/
theorem nested_cascade {gone : CallForwardRow → Bool} (nested : Nested t) : Nested (cascadeDelete t gone) := by
  intro row member p named
  obtain ⟨there, kept⟩ := Table.mem_delete.mp member
  have under := nested row there p named
  obtain ⟨parent, located, kind⟩ := under.header
  have up : parentOf t row.id = some p := by
    have found : t.find row.id = some row := Table.find_eq_some_iff.mpr ⟨there, rfl⟩
    rw [parentOf, found]
    exact named
  have stays : goneWith t gone parent = false := by
    have key : parent.id = p := (Table.find_eq_some_iff.mp located).2
    unfold goneWith at kept ⊢
    rw [key]
    cases size : t.rows.length with
    | zero =>
      rw [List.length_eq_zero_iff.mp size] at there
      cases there
    | succ n =>
      rw [size] at kept
      exact (nested_flat nested).meets_parent up kept
  have survives : (t.find p).any (goneWith t gone) = false := by
    rw [located]
    exact stays
  exact ⟨Table.Has.delete ⟨parent, located, kind⟩ survives, under.below, under.apart⟩

end Tables

/- Checks on a link. -/

section Checks
variable {db : Db} {s : SessionUser} {job : JobId}

theorem checkParent_ok {childType : ItemType} {childId : Option CallForwardItemId} {p : CallForwardItemId}
    (checked : checkParent db s childType childId (some p) job = .ok ()) :
    db.callForward.Has kindOf p (job, .header) ∧ childType ≠ .header ∧ some p ≠ childId := by
  unfold checkParent at checked
  simp only at checked
  cases found : typeAndJob db s.principal.companyId p with
  | none => simp [found] at checked
  | some parent =>
    obtain ⟨parentType, parentJob⟩ := parent
    simp only [found] at checked
    obtain ⟨apart, sameJob, header, below⟩ := validateParent_ok_iff.mp (inDomain_ok checked)
    obtain ⟨row, reached, kind⟩ := Option.map_eq_some_iff.mp found
    cases kind
    have located := (Table.reach_eq_some_iff.mp reached).1
    refine ⟨⟨row, located, ?_⟩, below, apart⟩
    rw [kindOf, sameJob, header]

theorem linked_of_checkParent {childType : ItemType} {childId parent : Option CallForwardItemId}
    (checked : checkParent db s childType childId parent job = .ok ()) :
    Linked db.callForward job childType parent := by
  intro p named
  subst named
  obtain ⟨header, below, _⟩ := checkParent_ok checked
  exact ⟨header, below⟩

end Checks

/- Insertions, one row and then one list of rows at a time. -/

section Insertions
variable {db after : Db} {s : SessionUser} {scope : CompanyId} {now : Instant} {today : Date} {job : JobId}

theorem insertItem_nested {make : CallForwardItemId → CallForwardRow} {keyed : ∀ id, (make id).id = id}
    {itemType : ItemType} {parent : Option CallForwardItemId} {row : CallForwardRow} (nested : Nested db.callForward)
    (linked : Linked db.callForward job itemType parent) (kind : ∀ id, kindOf (make id) = (job, itemType))
    (named : ∀ id, (make id).parentId = parent) (inserted : insertItem db scope make keyed = .ok (row, after)) :
    Nested after.callForward ∧ Grows db.callForward after.callForward ∧
      after.callForward.Has kindOf row.id (job, itemType) := by
  have written := insertRow_value inserted
  obtain ⟨_, stored⟩ := insertRow_ok inserted
  have table : after.callForward = db.callForward.insert make keyed := congrArg Db.callForward stored
  rw [table]
  constructor
  · apply nested_insert keyed nested _ (kind _)
    rw [named]
    exact linked
  constructor
  · intro id kind has
    exact has.insert
  · rw [written, keyed, ← kind db.callForward.serial]
    exact Table.has_inserted

theorem insertIn_nested {input : CallForwardInput} {parent : Option CallForwardItemId} {row : CallForwardRow}
    (nested : Nested db.callForward) (linked : Linked db.callForward job (input.itemType.getD .task) parent)
    (inserted : insertIn db scope now job input parent = .ok (row, after)) :
    Nested after.callForward ∧ Grows db.callForward after.callForward ∧
      after.callForward.Has kindOf row.id (job, input.itemType.getD .task) := by
  unfold insertIn at inserted
  obtain ⟨order, _, inserting⟩ := bind_ok inserted
  exact insertItem_nested nested linked (fun _ => rfl) (fun _ => rfl) inserting

theorem create_nested {input : CallForwardInput} (nested : Nested db.callForward) :
    Nested (CallForwardService.create db s today now job input).2.callForward := by
  apply attempt_keeps ProgrammeNested nested
  intro _ _
  apply attempt_keeps ProgrammeNested nested
  intro _ _
  apply attempt_keeps ProgrammeNested nested
  intro _ checked
  apply committed_keeps ProgrammeNested nested
  intro item after created
  obtain ⟨⟨row, stored⟩, inserted, pair⟩ := map_ok created
  cases pair
  exact (insertIn_nested nested (linked_of_checkParent checked) inserted).1

/-- The type the list gives to its item at an index. -/
def typeAt (items : List (CallForwardInput × Option Nat)) (index : Nat) : ItemType :=
  (items[index]?.bind fun item => item.1.itemType).getD .task

/-- The rows written so far stand for the first items of the list. -/
def Built (t : Table CallForwardRow) (job : JobId) (items : List (CallForwardInput × Option Nat))
    (created : List CallForwardRow) : Prop :=
  ∀ index row, created[index]? = some row → t.Has kindOf row.id (job, typeAt items index)

theorem linked_of_checkLink {start : Db} {items : List (CallForwardInput × Option Nat)} {created : List CallForwardRow}
    {input : CallForwardInput} {localParent : Option Nat} {parent : Option CallForwardItemId}
    (grown : Grows start.callForward db.callForward) (built : Built db.callForward job items created)
    (checked : checkLink start s job items created.length input localParent = .ok ())
    (resolved : bulkParent created input localParent = .ok parent) :
    Linked db.callForward job (input.itemType.getD .task) parent := by
  cases localParent with
  | none =>
    cases resolved
    intro p named
    obtain ⟨header, below⟩ := linked_of_checkParent checked p named
    exact ⟨grown p _ header, below⟩
  | some index =>
    unfold checkLink at checked
    simp only at checked
    split at checked
    · cases checked
    · next earlier =>
      have valid : validateParent (input.itemType.getD .task) none (some (0, typeAt items index, job)) job = .ok () :=
        inDomain_ok checked
      obtain ⟨_, _, header, below⟩ := validateParent_ok_iff.mp valid
      unfold bulkParent at resolved
      simp only at resolved
      split at resolved
      · cases resolved
      · next row there =>
        cases resolved
        intro p named
        cases named
        have kind := built index row there
        rw [header] at kind
        exact ⟨kind, below⟩

theorem built_append {t u : Table CallForwardRow} {items : List (CallForwardInput × Option Nat)}
    {created : List CallForwardRow} {row : CallForwardRow} (grown : Grows t u) (built : Built t job items created)
    (last : u.Has kindOf row.id (job, typeAt items created.length)) : Built u job items (created ++ [row]) := by
  intro index other there
  by_cases old : index < created.length
  · rw [List.getElem?_append_left old] at there
    exact grown _ _ (built index other there)
  · rw [List.getElem?_append_right (by omega)] at there
    obtain ⟨first, same⟩ := List.getElem?_eq_some_iff.mp there
    have place : index = created.length := by
      simp at first
      omega
    subst place
    simp at same
    rw [← same]
    exact last

/-- The first items of a list that was checked are written, and the others are still to be. -/
structure Building (start : Db) (s : SessionUser) (job : JobId) (items front rest : List (CallForwardInput × Option Nat))
    (created : List CallForwardRow) (db : Db) : Prop where
  parts : items = front ++ rest
  size : created.length = front.length
  grown : Grows start.callForward db.callForward
  built : Built db.callForward job items created
  checked : checkEach start s job items created.length rest = .ok ()

section Building
variable {start : Db} {items front rest : List (CallForwardInput × Option Nat)} {created rows : List CallForwardRow}
    {input : CallForwardInput} {localParent : Option Nat} {parent : Option CallForwardItemId} {row : CallForwardRow}

theorem building_start (checked : checkEach db s job items 0 items = .ok ()) : Building db s job items [] items [] db where
  parts := rfl
  size := rfl
  grown _ _ has := has
  built index row there := by cases there
  checked := checked

theorem Building.linked (building : Building start s job items front ((input, localParent) :: rest) created db)
    (resolved : bulkParent created input localParent = .ok parent) :
    Linked db.callForward job (input.itemType.getD .task) parent := by
  obtain ⟨_, _, checking⟩ := bind_ok building.checked
  obtain ⟨_, link, -⟩ := bind_ok checking
  exact linked_of_checkLink building.grown building.built link resolved

theorem Building.next (building : Building start s job items front ((input, localParent) :: rest) created db)
    (grows : Grows db.callForward after.callForward)
    (kind : after.callForward.Has kindOf row.id (job, input.itemType.getD .task)) :
    Building start s job items (front ++ [(input, localParent)]) rest (created ++ [row]) after where
  parts := by
    rw [building.parts, List.append_assoc]
    rfl
  size := by simp [building.size]
  grown id kind has := grows id kind (building.grown id kind has)
  built := by
    have here : typeAt items created.length = input.itemType.getD .task := by
      rw [typeAt, building.parts, building.size, List.getElem?_append_right (Nat.le_refl _), Nat.sub_self]
      rfl
    exact built_append grows building.built (here ▸ kind)
  checked := by
    obtain ⟨_, _, checking⟩ := bind_ok building.checked
    obtain ⟨_, -, later⟩ := bind_ok checking
    rw [List.length_append]
    exact later

theorem createEach_nested (building : Building start s job items front rest created db) (nested : Nested db.callForward)
    (written : createEach scope now job db created rest = .ok (rows, after)) : Nested after.callForward := by
  induction rest generalizing front created db with
  | nil =>
    cases written
    exact nested
  | cons item rest ih =>
    obtain ⟨input, localParent⟩ := item
    obtain ⟨parent, resolved, writing⟩ := bind_ok written
    obtain ⟨⟨row, stored⟩, inserted, writing⟩ := bind_ok writing
    obtain ⟨nests, grows, kind⟩ := insertIn_nested nested (building.linked resolved) inserted
    exact ih (building.next grows kind) nests writing

end Building

theorem createBulk_nested {items : List (CallForwardInput × Option Nat)} (nested : Nested db.callForward) :
    Nested (CallForwardService.createBulk db s today now job items).2.callForward := by
  apply attempt_keeps ProgrammeNested nested
  intro _ _
  apply attempt_keeps ProgrammeNested nested
  intro _ _
  apply attempt_keeps ProgrammeNested nested
  intro _ checked
  apply committed_keeps ProgrammeNested nested
  intro listed after made
  obtain ⟨⟨rows, stored⟩, written, pair⟩ := map_ok made
  cases pair
  exact createEach_nested (building_start checked) nested written

end Insertions

/- Changes. -/

/-- The update would make something other than a HEADER of an item that has children. -/
def retypesParent (db : Db) (id : CallForwardItemId) (input : CallForwardInput) : Bool :=
  input.itemType.any (· ≠ .header) && db.callForward.rows.any (·.parentId = some id)

/-- The update gets past the checks that come before the row. -/
def updates (db : Db) (s : SessionUser) (id : CallForwardItemId) (input : CallForwardInput) : Bool :=
  input.validate.isOk && (CallForwardService.get db s id).toOption.any fun existing =>
    (CallForwardService.checkParent db s (input.itemType.getD existing.itemType) (some id) input.parentId
      existing.jobId).isOk

section Changes
variable {db after : Db} {s : SessionUser} {now : Instant} {today : Date}

/-- The row of the id is rewritten; whatever is a parent before and keeps its type is one after. -/
theorem nested_change {t : Table CallForwardRow} {matched : CallForwardRow → Bool} {existing : CallForwardRow}
    {input : CallForwardInput} (nested : Nested t) (member : existing ∈ t.rows)
    (only : ∀ row ∈ t.rows, matched row = true → row = existing)
    (linked : ∀ p, input.parentId = some p → t.Has kindOf p (existing.jobId, .header) ∧
      input.itemType.getD existing.itemType ≠ .header ∧ p ≠ existing.id)
    (keeps : (∃ child ∈ t.rows, child.parentId = some existing.id) → input.itemType.getD .header = .header) :
    Nested (t.update matched (changedItem now input) fun _ => rfl) := by
  intro row changed p named
  obtain ⟨old, there, made⟩ := Table.mem_update.mp changed
  by_cases hit : matched old = true
  · -- the link is the new one, and it leads to another row
    rw [if_pos hit] at made
    have same := only old there hit
    subst same made
    obtain ⟨header, below, apart⟩ := linked p named
    have stays : (t.update matched (changedItem now input) fun _ => rfl).Has kindOf p (old.jobId, .header) := by
      apply header.update_found
      intro parent found touched
      obtain ⟨parentMember, key⟩ := Table.find_eq_some_iff.mp found
      have other := only parent parentMember touched
      rw [other] at key
      exact absurd key.symm apart
    exact ⟨stays, below, apart⟩
  · -- the link is an old one, and it may lead to the row that is rewritten
    rw [if_neg hit] at made
    subst made
    have under := nested row there p named
    have stays : (t.update matched (changedItem now input) fun _ => rfl).Has kindOf p (row.jobId, .header) := by
      obtain ⟨parent, found, kind⟩ := under.header
      apply Table.Has.update_found ⟨parent, found, kind⟩
      intro other again touched
      rw [found] at again
      cases again
      obtain ⟨parentMember, key⟩ := Table.find_eq_some_iff.mp found
      have same := only parent parentMember touched
      have header : parent.itemType = .header := congrArg Prod.snd kind
      have type : (changedItem now input parent).itemType = parent.itemType := by
        change input.itemType.getD parent.itemType = parent.itemType
        rw [header]
        apply keeps
        refine ⟨row, there, ?_⟩
        rw [named, ← same]
        exact congrArg some key.symm
      rw [kindOf, kindOf, type]
      rfl
    exact ⟨stays, under.below, under.apart⟩

theorem get_ok {id : CallForwardItemId} {existing : CallForwardRow} (got : CallForwardService.get db s id = .ok existing) :
    db.callForward.find id = some existing := by
  unfold CallForwardService.get at got
  split at got
  · cases got
  · next row found =>
    cases got
    exact (Table.reach_eq_some_iff.mp found).1

theorem update_nested {id : CallForwardItemId} {input : CallForwardInput} (nested : Nested db.callForward)
    (keeps : updates db s id input = true → retypesParent db id input = false) :
    Nested (CallForwardService.update db s today now id input).2.callForward := by
  apply attempt_keeps ProgrammeNested nested
  intro existing got
  apply attempt_keeps ProgrammeNested nested
  intro _ valid
  apply attempt_keeps ProgrammeNested nested
  intro _ checked
  rw [orNotFound_after]
  apply committed_keeps ProgrammeNested nested
  intro answer after changed
  obtain ⟨⟨row, stored⟩, written, pair⟩ := map_ok changed
  cases pair
  obtain ⟨rfl, _⟩ := checkedChange_ok written
  have keeps := keeps (by simp [updates, inDomain_ok valid, got, checked, Except.isOk, Except.toBool, Except.toOption])
  obtain ⟨member, key⟩ := Table.find_eq_some_iff.mp (get_ok got)
  apply nested_change nested member
  · intro other there matched
    rw [Bool.and_eq_true, decide_eq_true_eq] at matched
    exact Table.key_inj there member (matched.1.trans key.symm)
  · intro p named
    rw [named] at checked
    obtain ⟨header, below, apart⟩ := checkParent_ok checked
    refine ⟨header, below, ?_⟩
    intro same
    rw [same] at apart
    exact apart (congrArg some key)
  · intro ⟨child, there, named⟩
    have parent : existing.id = id := key
    rw [parent] at named
    cases type : input.itemType with
    | none => rfl
    | some t =>
      by_contra other
      have retyped : retypesParent db id input = true := by
        rw [retypesParent, type, Bool.and_eq_true]
        constructor
        · exact decide_eq_true other
        · exact List.any_eq_true.mpr ⟨child, there, decide_eq_true named⟩
      rw [keeps] at retyped
      cases retyped

theorem delete_nested {id : CallForwardItemId} (nested : Nested db.callForward) :
    Nested (CallForwardService.delete db s id).2.callForward := by
  apply attempt_keeps ProgrammeNested nested
  intro _ _
  rw [deletedOrNotFound_after]
  unfold ProgrammeStore.delete
  split
  · exact nested
  · exact nested_cascade nested

end Changes

/- Templates. -/

section Templates
variable {db after : Db} {s : SessionUser} {scope : CompanyId} {now : Instant} {job : JobId} {items : List TemplateItem}

/-- The rows written so far are of the types their lines give. -/
def Written (t : Table CallForwardRow) (job : JobId) (items : List TemplateItem)
    (localToDb : List (Int × CallForwardItemId)) : Prop :=
  ∀ localId id, (localId, id) ∈ localToDb → ∀ q ∈ items, q.localId = localId →
    ∀ itemType, ItemType.parse q.itemType = some itemType → t.Has kindOf id (job, itemType)

theorem linked_of_wellNested {localToDb : List (Int × CallForwardItemId)} {item : TemplateItem} {itemType : ItemType}
    (wellNested : wellNested items = true) (written : Written db.callForward job items localToDb)
    (member : item ∈ items) (typed : ItemType.parse item.itemType = some itemType) :
    Linked db.callForward job itemType (item.localParentId.bind fun p => List.lookup p localToDb) := by
  intro id named
  obtain ⟨p, up, found⟩ := Option.bind_eq_some_iff.mp named
  obtain ⟨before, later, parts, _⟩ := List.lookup_eq_some_iff.mp found
  have listed : (p, id) ∈ localToDb := by simp [parts]
  have rule := List.all_eq_true.mp wellNested item member
  rw [up, Option.all_some, Bool.and_eq_true, List.any_eq_true] at rule
  obtain ⟨below, q, parent, same⟩ := rule
  simp only [Bool.and_eq_true, decide_eq_true_eq, ne_eq] at below same
  constructor
  · apply written p id listed q parent same.1
    rw [same.2]
    exact parse_asStr .header
  · intro header
    rw [header] at typed
    exact below (parse_eq_some_iff.mp typed)

theorem applyEach_nested {base : Int} {rest : List TemplateItem} {localToDb : List (Int × CallForwardItemId)}
    (valid : validateItems items = .ok ()) (wellNested : wellNested items = true) (all : ∀ item ∈ rest, item ∈ items)
    (nested : Nested db.callForward) (written : Written db.callForward job items localToDb)
    (applied : applyEach scope now job base db localToDb rest = .ok after) : Nested after.callForward := by
  induction rest generalizing db localToDb with
  | nil =>
    cases applied
    exact nested
  | cons item rest ih =>
    unfold applyEach at applied
    split at applied
    · cases applied
    · next itemType typed =>
      obtain ⟨⟨row, stored⟩, inserted, later⟩ := bind_ok applied
      have member := all item List.mem_cons_self
      have linked := linked_of_wellNested wellNested written member typed
      obtain ⟨nests, grows, kind⟩ := insertItem_nested nested linked (fun _ => rfl) (fun _ => rfl) inserted
      have remaining : ∀ other ∈ rest, other ∈ items := fun other listed => all other (List.mem_cons_of_mem _ listed)
      refine ih remaining nests ?_ later
      intro localId id listed q ofTemplate same t parsed
      cases List.mem_cons.mp listed with
      | inl here =>
        cases here
        have line := eq_of_localId valid ofTemplate member same
        rw [line, typed] at parsed
        cases parsed
        exact kind
      | inr before => exact grows _ _ (written localId id before q ofTemplate same t parsed)

/-- The template gets past the checks that come before its lines. -/
def applies (db : Db) (s : SessionUser) (id : CallForwardTemplateId) (job : JobId) : Bool :=
  (CallForwardService.assertJob db s job).isOk &&
    (CallForwardService.findTemplate db s id).toOption.any fun template => (validateItems template.items).isOk

theorem applyTemplate_nested {id : CallForwardTemplateId} {replace : Bool} (nested : Nested db.callForward)
    (known : applies db s id job = true → ∀ template, db.callForwardTemplates.find id = some template →
      wellNested template.items = true) :
    Nested (CallForwardService.applyTemplate db s now id job replace).2.callForward := by
  apply attempt_keeps ProgrammeNested nested
  intro _ opened
  apply attempt_keeps ProgrammeNested nested
  intro template found
  apply attempt_keeps ProgrammeNested nested
  intro _ checked
  apply committed_keeps ProgrammeNested nested
  intro count after applied
  have known := known (by simp [applies, opened, found, inDomain_ok checked, Except.isOk, Except.toBool, Except.toOption])
  unfold CallForwardService.findTemplate at found
  split at found
  · cases found
  · next row located =>
    cases found
    have valid : validateItems template.items = .ok () := inDomain_ok checked
    unfold ProgrammeStore.apply at applied
    rw [located] at applied
    simp only at applied
    split at applied
    · cases applied
      exact nested
    · obtain ⟨base, _, applying⟩ := bind_ok applied
      obtain ⟨stored, written, done⟩ := bind_ok applying
      cases done
      have rule := known template (Table.reach_eq_some_iff.mp located).1
      have cleared : Nested (if replace then clearJob db s.principal.companyId job else db).callForward := by
        split
        · exact nested_cascade nested
        · exact nested
      have none : Written (if replace then clearJob db s.principal.companyId job else db).callForward job
          template.items [] := by
        intro localId id listed
        cases listed
      exact applyEach_nested valid rule (fun _ listed => listed) cleared none written

theorem createTemplate_nested {name : Text} {description : Option Text} (nested : Nested db.callForward) :
    Nested (CallForwardService.createTemplate db s now name description job).2.callForward := by
  unfold CallForwardService.createTemplate
  split
  · exact nested
  · apply attempt_keeps ProgrammeNested nested
    intro _ _
    apply attempt_keeps ProgrammeNested nested
    intro _ _
    apply committed_keeps ProgrammeNested nested
    intro template after created
    obtain ⟨_, rfl⟩ := insertRow_ok created
    exact nested

theorem jobProgramme_nested (nested : Nested db.callForward) : ∀ row ∈ jobProgramme db scope job, ∀ p,
    row.parentId = some p → row.itemType ≠ text "HEADER" ∧
      ∀ parent ∈ jobProgramme db scope job, parent.id = p → parent.itemType = text "HEADER" := by
  have listed : ∀ row ∈ jobProgramme db scope job, ∃ item ∈ db.callForward.rows,
      row.id = item.id ∧ row.parentId = item.parentId ∧ row.itemType = ItemType.asStr item.itemType := by
    intro row read
    obtain ⟨item, chosen, made⟩ := List.mem_map.mp read
    have member := (List.perm_insertionSort _ _).mem_iff.mp chosen
    subst made
    exact ⟨item, (Table.mem_select.mp member).1, rfl, rfl, rfl⟩
  intro row read p named
  obtain ⟨item, member, _, parent, type⟩ := listed row read
  rw [parent] at named
  have under := nested item member p named
  constructor
  · intro header
    rw [type] at header
    have parsed := parse_asStr item.itemType
    rw [header] at parsed
    exact under.below (Option.some.inj parsed).symm
  · intro above alsoRead same
    obtain ⟨other, there, key, _, kind⟩ := listed above alsoRead
    rw [key] at same
    obtain ⟨found, located, header⟩ := under.header
    obtain ⟨foundMember, foundKey⟩ := Table.find_eq_some_iff.mp located
    have one := Table.key_inj there foundMember (same.trans foundKey.symm)
    have top : found.itemType = .header := congrArg Prod.snd header
    rw [kind, one, top]
    rfl

/-- A template captured from a nested programme is itself well nested. -/
theorem createTemplate_wellNested {name : Text} {description : Option Text} (nested : Nested db.callForward)
    (known : TemplatesNested db) :
    TemplatesNested (CallForwardService.createTemplate db s now name description job).2 := by
  unfold CallForwardService.createTemplate
  split
  · exact known
  · apply attempt_keeps TemplatesNested known
    intro _ _
    apply attempt_keeps TemplatesNested known
    intro _ _
    apply committed_keeps TemplatesNested known
    intro template after created
    obtain ⟨_, rfl⟩ := insertRow_ok created
    apply Table.all_insert known
    exact capture_wellNested (jobProgramme_nested nested)

end Templates

/- Whole runs. -/

inductive Call where
  | create (job : JobId) (input : CallForwardInput)
  | createBulk (job : JobId) (items : List (CallForwardInput × Option Nat))
  | update (id : CallForwardItemId) (input : CallForwardInput)
  | delete (id : CallForwardItemId)
  | applyTemplate (id : CallForwardTemplateId) (job : JobId) (replace : Bool)
  | createTemplate (name : Text) (description : Option Text) (job : JobId)
  deriving DecidableEq, Repr

structure Request where
  now : Instant
  today : Date
  session : SessionUser
  call : Call
  deriving DecidableEq, Repr

def serve (db : Db) (r : Request) : Db :=
  match r.call with
  | .create job input => (CallForwardService.create db r.session r.today r.now job input).2
  | .createBulk job items => (CallForwardService.createBulk db r.session r.today r.now job items).2
  | .update id input => (CallForwardService.update db r.session r.today r.now id input).2
  | .delete id => (CallForwardService.delete db r.session id).2
  | .applyTemplate id job replace => (CallForwardService.applyTemplate db r.session r.now id job replace).2
  | .createTemplate name description job =>
    (CallForwardService.createTemplate db r.session r.now name description job).2

/-- No item with children is made anything but a HEADER, and the templates applied are well nested. -/
def keepsHeaders (db : Db) (r : Request) : Bool :=
  match r.call with
  | .update id input => !updates db r.session id input || !retypesParent db id input
  | .applyTemplate id job _ => !applies db r.session id job ||
    (db.callForwardTemplates.find id).all fun template => wellNested template.items
  | _ => true

/-- One deployment's programmes under a condition on the requests that are made. An empty programme is nested. -/
def programme (admits : Db → Request → Bool) : Machine Db Request where
  initial db := Nested db.callForward
  step db r := some (serve db r)
  allowed := admits

/-- What one call preserves. -/
theorem serve_nested {db : Db} {r : Request} (nested : Nested db.callForward) (keeps : keepsHeaders db r = true) :
    Nested (serve db r).callForward := by
  obtain ⟨now, today, session, call⟩ := r
  cases call with
  | create job input => exact create_nested nested
  | createBulk job items => exact createBulk_nested nested
  | update id input =>
    refine update_nested nested fun updated => ?_
    simpa [keepsHeaders, updated] using keeps
  | delete id => exact delete_nested nested
  | applyTemplate id job replace =>
    apply applyTemplate_nested nested
    intro applied template found
    simpa [keepsHeaders, applied, found] using keeps
  | createTemplate name description job => exact createTemplate_nested nested

theorem programme_stays_nested (db : Db) (reached : (programme keepsHeaders).Reachable db) :
    Nested db.callForward := by
  apply Reachable.invariant ProgrammeNested reached
  · intro start nested
    exact nested
  · intro before after request nested keeps served
    cases served
    exact serve_nested nested keeps

/- A manager starts a programme with a HEADER and a task under it. -/

def manager : SessionUser where
  user := ⟨7, 1, text "Sarah", text "sarah@example.com", .manager, none, true, none⟩
  principal := ⟨7, 1, .manager⟩
  permissions := []
  entitlement := ⟨true, true, true, none⟩

def emptyProgramme : Db :=
  { Db.empty with
    jobs := ⟨[⟨1, 1, [], text "J", text "Smith", none, none, text "1 St", .active, none, none, none, none, none, none,
      none, none, none, 0, 0⟩], 2, by decide, by decide⟩ }

def line (title : Text) (itemType : ItemType) (parent : Option CallForwardItemId) : CallForwardInput :=
  ⟨title, some itemType, none, none, none, none, none, none, none, none, parent⟩

def asManager (call : Call) : Request := ⟨0, 0, manager, call⟩

def frameStage : List Request :=
  [asManager (.create 1 (line (text "Frame") .header none)), asManager (.create 1 (line (text "Walls") .task (some 1)))]

theorem emptyProgramme_nested : Nested emptyProgramme.callForward := by
  intro row member
  cases member

theorem frame_stage_nested : ∃ db, (programme keepsHeaders).execute emptyProgramme frameStage = some db ∧
    db.callForward.rows.length = 2 ∧ Nested db.callForward := by
  have run : ∃ db, (programme keepsHeaders).execute emptyProgramme frameStage = some db ∧
      db.callForward.rows.length = 2 := ⟨_, rfl, rfl⟩
  obtain ⟨db, ran, size⟩ := run
  exact ⟨db, ran, size, programme_stays_nested db (execute_reachable emptyProgramme_nested ran)⟩

/-- Made a task, the HEADER keeps its child. -/
theorem retyped_header_keeps_child : emptyProgramme.callForward.rows = [] ∧
    ∃ db, (programme fun _ _ => true).execute emptyProgramme
      (frameStage ++ [asManager (.update 1 (line (text "Frame") .task none))]) = some db ∧ ¬ Nested db.callForward := by
  refine ⟨rfl, _, rfl, ?_⟩
  intro nested
  have under := nested (newItem 0 1 (line (text "Walls") .task (some 1)) 1 (some 1) 2)
    (List.mem_cons_of_mem _ (List.mem_singleton_self _)) 1 rfl
  obtain ⟨row, found, kind⟩ := under.header
  cases found
  cases kind

end Hierarchy
