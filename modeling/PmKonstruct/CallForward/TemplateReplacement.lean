import PmKonstruct.CallForward.TemplateRoundTrip

/- A template that replaces a programme. Nothing of the job is left after the clearing, so the lines that are written
   are its whole programme; a template without lines returns before anything is cleared. -/
namespace TemplateReplacement
open PlainText DomainErrors Accounts Schema KeyedTable RowSecurity Requests CallForwardItem Templates TreeOrder
open PreorderWalk ProgrammeStore TemplateRoundTrip ParentForest Hierarchy Reordering
open AuthService (SessionUser)

section Clearing
variable {db : Db} {scope : CompanyId} {job : JobId}

theorem gone_matching {t : Table CallForwardRow} {p : CallForwardRow → Bool} {row : CallForwardRow}
    (member : row ∈ t.rows) (matched : p row = true) : goneWith t p row = true := by
  have found : t.find row.id = some row := Table.find_eq_some_iff.mpr ⟨member, rfl⟩
  have here : (t.find row.id).any p = true := by
    rw [found]
    exact matched
  rw [goneWith]
  cases t.rows.length with
  | zero => exact here
  | succ n => exact Bool.or_eq_true_iff.mpr (.inl here)

theorem clearJob_selects :
    (clearJob db scope job).callForward.select
      (fun i => i.jobId = job && itemVisible (clearJob db scope job) scope i) = [] := by
  refine List.eq_nil_iff_forall_not_mem.mpr fun row selected => ?_
  obtain ⟨member, matched⟩ := Table.mem_select.mp selected
  obtain ⟨there, kept⟩ := Table.mem_delete.mp member
  have gone := @gone_matching db.callForward (fun i => i.jobId = job && itemVisible db scope i) row there matched
  rw [gone] at kept
  cases kept

theorem clearJob_programme : jobProgramme (clearJob db scope job) scope job = [] := by
  rw [jobProgramme, clearJob_selects]
  rfl

theorem clearJob_orders : ordersOf (clearJob db scope job) scope job = [] := by
  rw [ordersOf, clearJob_selects]
  rfl

end Clearing

section Lines
variable {db after : Db} {scope : CompanyId} {now : Instant} {job : JobId} {base : Int} {items : List TemplateItem}
    {localToDb : List (Int × CallForwardItemId)} {rows : List ProgrammeRow}

/-- Lines that were written fit their columns, and writing them touched nothing but the programme. -/
theorem applyEach_ok (written : applyEach scope now job base db localToDb items = .ok after) :
    (∀ item ∈ items, (tradeTooLong item.supplierTrade).1 = false) ∧ after.jobs = db.jobs ∧
      after.callForwardTemplates = db.callForwardTemplates := by
  induction items generalizing db localToDb with
  | nil =>
    cases written
    exact ⟨fun item member => absurd member List.not_mem_nil, rfl, rfl⟩
  | cons item rest ih =>
    rw [applyEach] at written
    split at written
    · cases written
    · obtain ⟨⟨row, stored⟩, inserted, later⟩ := bind_ok written
      obtain ⟨passes, rfl⟩ := insertRow_ok inserted
      obtain ⟨fits, jobs, templates⟩ := ih later
      exact ⟨List.forall_mem_cons.mpr ⟨(firstViolation_cons.mp passes).1, fits⟩, jobs, templates⟩

theorem shifted_zero : shifted 0 = id := by
  funext item
  cases item with
  | mk localId localParentId title itemType supplierTrade sortOrder => cases localParentId <;> simp [shifted]

/-- What the lines of a capture become is captured as the same lines. -/
theorem capture_written {first : Int} (keyed : Keyed rows) (valid : validateItems (capture rows) = .ok ())
    (placed : ∀ (i : Nat) item, (capture rows)[i]? = some item → Placed i item) :
    capture (writtenRows first 0 rows) = capture rows := by
  have before : Before first 0 [] := ⟨fun r none => absurd none List.not_mem_nil, fun r none => absurd none List.not_mem_nil,
    fun r none => absurd none List.not_mem_nil⟩
  have nothing : validateItems (capture []) = .ok () := rfl
  have again := @capture_together rows [] first 0 List.Pairwise.nil nothing before keyed valid placed
  have size : (capture []).length = 0 := rfl
  rw [List.nil_append, size, shifted_zero, List.map_id] at again
  exact again

theorem captured_trades (keyed : Keyed rows) (fits : ∀ item ∈ capture rows, (tradeTooLong item.supplierTrade).1 = false) :
    ∀ row ∈ rows, (tradeTooLong row.supplierTrade).1 = false := by
  intro row there
  obtain ⟨i, stands⟩ := List.mem_iff_getElem?.mp ((mem_inTreeOrder_iff keyed).mpr there)
  refine fits (lineAt (inTreeOrder rows) i row) (List.mem_iff_getElem?.mpr ⟨i, ?_⟩)
  rw [capture_getElem?, stands, Option.map_some]

/-- Lines written where nothing is are the programme. -/
theorem applyEach_alone (opened : jobInScope db scope job = true) (nothing : jobProgramme db scope job = [])
    (unordered : ordersOf db scope job = []) (keyed : Keyed rows) (valid : validateItems (capture rows) = .ok ())
    (written : applyEach scope now job 0 db [] (capture rows) = .ok after) :
    capture (jobProgramme after scope job) = capture rows := by
  have trades := captured_trades keyed (applyEach_ok written).1
  have placed : ∀ (i : Nat) item, (capture rows)[i]? = some item → Placed i item := fun i item line =>
    capture_placed keyed valid trades line
  have start : Recorded db.callForward [] db.callForward.serial 0 :=
    ⟨(Int.add_zero _).symm, fun m positive bounded => by omega, fun m positive bounded => by omega⟩
  have short := (validateItems_short valid).1
  rw [maxTemplateItems] at short
  have counted : ∀ (i : Nat) item, (capture rows)[i]? = some item → Placed (0 + i) item := by
    intro i item line
    rw [Nat.zero_add]
    exact placed i item line
  obtain ⟨same, new, done, jobs, stored, owned, viewed⟩ := @applyEach_written db scope now job 0 _ 0 (capture rows) []
    opened start counted (by omega) (by omega)
  rw [written, Except.ok.injEq] at done
  subst done
  have orders : ∀ (i : Nat) a, new[i]? = some a → a.sortOrder = i := by
    intro i a stands
    have view : (writtenRows db.callForward.serial 0 rows)[i]? = some (programmeRow a) := by
      rw [writtenRows, ← viewed, List.getElem?_map, stands, Option.map_some]
    have order := written_order placed view
    rw [Int.zero_add] at order
    exact order
  have ascending : new.Pairwise (·.sortOrder < ·.sortOrder) := by
    refine List.pairwise_iff_getElem.mpr fun i j left right less => ?_
    rw [orders i _ (List.getElem?_eq_getElem left), orders j _ (List.getElem?_eq_getElem right)]
    omega
  have last : ∀ order ∈ ordersOf db scope job, ∀ row ∈ new, order < row.sortOrder := by
    intro order listed
    rw [unordered] at listed
    cases listed
  rw [jobProgramme_append opened jobs stored owned ascending last, nothing, List.nil_append, viewed]
  exact capture_written keyed valid placed

end Lines

section Requests
variable {db after : Db} {s : SessionUser} {now : Instant} {id : CallForwardTemplateId} {job : JobId} {count : Nat}
    {row : CallForwardTemplateRow} {rows : List ProgrammeRow}

theorem applyTemplate_ok {replace : Bool}
    (applied : CallForwardService.applyTemplate db s now id job replace = (.ok count, after)) :
    jobInScope db s.principal.companyId job = true ∧
      apply db s.principal.companyId now id job replace = .ok (count, after) := by
  obtain ⟨_, asserted, applied⟩ := attempt_ok applied
  obtain ⟨_, -, applied⟩ := attempt_ok applied
  obtain ⟨_, -, applied⟩ := attempt_ok applied
  obtain ⟨found, got, -⟩ := map_ok asserted
  obtain ⟨there, located, owned, -⟩ := getJob_ok_iff.mp ⟨found, got⟩
  exact ⟨jobInScope_iff.mpr ⟨there, located, owned⟩, committed_ok applied⟩

/-- Without lines nothing happens. -/
theorem apply_empty {replace : Bool} (found : findTemplate db s.principal.companyId id = some row) (empty : row.items = [])
    (applied : apply db s.principal.companyId now id job replace = .ok (count, after)) : after = db := by
  rw [apply, found] at applied
  simp only [empty, if_true] at applied
  cases applied
  rfl

/-- Replacing leaves the job and the template there, and the lines as the whole programme. -/
theorem apply_replaces (found : findTemplate db s.principal.companyId id = some row) (nonempty : row.items ≠ [])
    (opened : jobInScope db s.principal.companyId job = true) (keyed : Keyed rows) (captured : row.items = capture rows)
    (valid : validateItems (capture rows) = .ok ())
    (applied : apply db s.principal.companyId now id job true = .ok (count, after)) :
    jobInScope after s.principal.companyId job = true ∧ findTemplate after s.principal.companyId id = some row ∧
      capture (jobProgramme after s.principal.companyId job) = row.items := by
  rw [apply, found] at applied
  simp only [if_neg nonempty, if_true] at applied
  obtain ⟨base, next, applied⟩ := bind_ok applied
  obtain ⟨last, written, done⟩ := bind_ok applied
  cases done
  rw [clearJob_orders] at next
  have zero : base = 0 := by
    cases next
    rfl
  subst zero
  obtain ⟨-, jobs, templates⟩ := applyEach_ok written
  have still : jobInScope (clearJob db s.principal.companyId job) s.principal.companyId job = true := opened
  refine ⟨?_, ?_, ?_⟩
  · rw [jobInScope, jobs]
    exact opened
  · rw [findTemplate, templates]
    exact found
  · rw [captured] at written ⊢
    exact applyEach_alone still clearJob_programme clearJob_orders keyed valid written

theorem capture_nil (keyed : Keyed rows) : capture rows = [] ↔ rows = [] := by
  constructor
  · intro none
    have size := @length_capture rows
    rw [none] at size
    refine List.eq_nil_iff_forall_not_mem.mpr fun row there => ?_
    have out := (mem_inTreeOrder_iff keyed).mpr there
    rw [List.length_eq_zero_iff.mp size.symm] at out
    cases out
  · rintro rfl
    rfl

end Requests

/-- A template with lines replaces any programme, once and again; one without lines leaves a programme that is there. -/
theorem replace_leaves_template_iff (captured kept db after : Db) (author s : SessionUser) (earlier now : Instant)
    (name : Text) (description : Option Text) (source job : JobId) (template row : CallForwardTemplateRow) (count : Nat)
    (stored : CallForwardService.createTemplate captured author earlier name description source = (.ok template, kept))
    (found : findTemplate db s.principal.companyId row.id = some row) (unchanged : row.items = template.items)
    (applied : CallForwardService.applyTemplate db s now row.id job true = (.ok count, after)) :
    (capture (jobProgramme after s.principal.companyId job) = row.items ∧
      ∀ (again : SessionUser) (later : Instant), again.principal.companyId = s.principal.companyId →
        capture
            (jobProgramme (CallForwardService.applyTemplate after again later row.id job true).2 s.principal.companyId job) =
          capture (jobProgramme after s.principal.companyId job)) ↔
      row.items ≠ [] ∨ jobProgramme db s.principal.companyId job = [] := by
  obtain ⟨items, valid⟩ := createTemplate_captures stored
  rw [← unchanged] at items valid
  rw [items] at valid
  obtain ⟨opened, wrote⟩ := applyTemplate_ok applied
  have keyed : Keyed (jobProgramme captured author.principal.companyId source) := jobProgramme_keyed
  -- a second time is a first time on what the first one left
  have twice : ∀ (again : SessionUser) (later : Instant), again.principal.companyId = s.principal.companyId →
      (∀ total last, apply after s.principal.companyId later row.id job true = .ok (total, last) →
        capture (jobProgramme last s.principal.companyId job) = capture (jobProgramme after s.principal.companyId job)) →
      capture
          (jobProgramme (CallForwardService.applyTemplate after again later row.id job true).2 s.principal.companyId job) =
        capture (jobProgramme after s.principal.companyId job) := by
    intro again later colleague kept
    let Holds : Db → Prop := fun last =>
      capture (jobProgramme last s.principal.companyId job) = capture (jobProgramme after s.principal.companyId job)
    have start : Holds after := rfl
    apply attempt_keeps Holds start
    intro _ _
    apply attempt_keeps Holds start
    intro _ _
    apply attempt_keeps Holds start
    intro _ _
    apply committed_keeps Holds start
    rw [colleague]
    exact kept
  by_cases empty : row.items = []
  · have same := apply_empty found empty wrote
    subst same
    rw [empty]
    constructor
    · intro ⟨nothing, _⟩
      exact .inr ((capture_nil jobProgramme_keyed).mp nothing)
    · rintro (some | none)
      · exact absurd rfl some
      · refine ⟨(capture_nil jobProgramme_keyed).mpr none, fun again later colleague => twice again later colleague ?_⟩
        intro total last more
        rw [apply_empty found empty more]
  · obtain ⟨still, there, whole⟩ := apply_replaces found empty opened keyed items valid wrote
    refine iff_of_true ⟨whole, fun again later colleague => twice again later colleague ?_⟩ (.inl empty)
    intro total last more
    rw [whole]
    exact (apply_replaces there empty still keyed items valid more).2.2

/-- The frame with its walls and a roof, captured and written over itself. -/
theorem twoTasks_replaced : ∃ template kept after,
    CallForwardService.createTemplate twoTasks manager 0 (text "Frame") none 1 = (.ok template, kept) ∧
      CallForwardService.applyTemplate kept manager 1 template.id 1 true = (.ok 3, after) ∧
      capture (jobProgramme after 1 1) = template.items := by
  have captured : ∃ template kept,
      CallForwardService.createTemplate twoTasks manager 0 (text "Frame") none 1 = (.ok template, kept) ∧
        findTemplate kept 1 1 = some template ∧ template.id = 1 ∧ template.items.length = 3 ∧
        ∃ after, CallForwardService.applyTemplate kept manager 1 1 1 true = (.ok 3, after) :=
    ⟨_, _, rfl, rfl, rfl, rfl, _, rfl⟩
  obtain ⟨template, kept, stored, found, id, size, after, applied⟩ := captured
  have nonempty : template.items ≠ [] := by
    intro none
    rw [none] at size
    cases size
  have wrote : CallForwardService.applyTemplate kept manager 1 template.id 1 true = (.ok 3, after) := by
    rw [id]
    exact applied
  have located : findTemplate kept manager.principal.companyId template.id = some template := by
    rw [id]
    exact found
  have whole := (replace_leaves_template_iff twoTasks kept kept after manager manager 0 1 (text "Frame") none 1 1 template
    template 3 stored located rfl wrote).mpr (.inl nonempty)
  exact ⟨template, kept, after, stored, wrote, whole.1⟩

/-- A template captured before the job had items is written over the items it has by now. -/
theorem empty_replaces_nothing : ∃ template kept after,
    CallForwardService.createTemplate emptyProgramme manager 0 (text "Blank") none 1 = (.ok template, kept) ∧
      template.id = 1 ∧ template.items = [] ∧
      CallForwardService.applyTemplate { kept with callForward := twoTasks.callForward } manager 1 1 1 true = (.ok 0, after) ∧
      (jobProgramme after 1 1).map (·.id) = [1, 2, 3] ∧ capture (jobProgramme after 1 1) ≠ template.items := by
  have captured : ∃ template kept,
      CallForwardService.createTemplate emptyProgramme manager 0 (text "Blank") none 1 = (.ok template, kept) ∧
        template.id = 1 ∧ template.items = [] ∧
        ∃ after, CallForwardService.applyTemplate { kept with callForward := twoTasks.callForward } manager 1 1 1 true =
          (.ok 0, after) ∧ (jobProgramme after 1 1).map (·.id) = [1, 2, 3] ∧ (capture (jobProgramme after 1 1)).length = 3 :=
    ⟨_, _, rfl, rfl, rfl, _, rfl, rfl, rfl⟩
  obtain ⟨template, kept, stored, id, empty, after, applied, rows, size⟩ := captured
  refine ⟨template, kept, after, stored, id, empty, applied, rows, fun same => ?_⟩
  rw [same, empty] at size
  cases size

end TemplateReplacement
