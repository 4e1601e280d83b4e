import PmKonstruct.Jobs.UpdatePrograms

/- How partial updates read and write the two tables, and the order in which each of them does it. -/
namespace UpdateTraces
open DomainErrors Accounts Schema KeyedTable Requests StatementProgram UpdatePrograms
open ReadMergeWrite (Records)
open JobStore (JobInput)
open JobPatch (JobPatchRequest JobFields)
open ItemPatch (CallForwardPatchRequest ItemFields)
open CallForwardItem (CallForwardInput CallForwardItemWithDelay validateParent)
open AuthService (SessionUser)

/- What the statements do to the two tables. -/

section Statements
variable {env : Env} {db : Db}

theorem execute_cases (env : Env) (statement : Statement) (db : Db) : execute env statement db = perform env statement db ∨
    ∃ e, execute env statement db = (.error e, db) := faulting_cases env statement db

section Changed
variable {Row Fields : Type} [Keyed Row] {store : Table Row → Db} {visible : Row → Bool} {id : Int} {change : Row → Row}
    {keeps : ∀ row, Keyed.key (change row) = Keyed.key row} {violation : Option PortError}
    {table : Db → Table Row} {fieldsOf : Row → Fields} {written : Fields → Fields}

/-- An update of one row leaves every other row, and writes the fields of this one unless it reports that it did not. -/
theorem settled_changed (holds : ∀ rows, table (store rows) = rows)
    (writes : ∀ row, fieldsOf (change row) = written (fieldsOf row)) :
    let outcome := settled db (checkedChange (table db) store (fun row => row) visible id change keeps violation)
    (∀ key, key ≠ id → (table outcome.2).find key = (table db).find key) ∧
    (((table outcome.2).find id).map fieldsOf = (((table db).find id).map fieldsOf).map written ∨
      ((table outcome.2).find id = (table db).find id ∧ ∀ row, outcome.1 ≠ .ok (some row))) := by
  intro outcome
  rcases @checkedChange_cases Row Row _ (table db) store (fun row => row) visible id change keeps violation with
    ⟨e, failed⟩ | absent | ⟨row, found, seen, changed⟩
  · have same : outcome = (.error e, db) := by
      simp only [outcome, failed, settled]
    rw [same]
    exact ⟨fun _ _ => rfl, .inr ⟨rfl, fun row => nofun⟩⟩
  · have same : outcome = (.ok none, store (table db)) := by
      simp only [outcome, absent, settled]
    rw [same, holds]
    exact ⟨fun _ _ => rfl, .inr ⟨rfl, fun row => nofun⟩⟩
  · have after : table outcome.2 = (table db).update (fun row => Keyed.key row = id && visible row) change keeps := by
      simp only [outcome, changed, settled, holds]
    rw [after]
    constructor
    · intro key elsewhere
      rw [Table.find_update]
      cases there : (table db).find key with
      | none => rfl
      | some other =>
        have apart : Keyed.key other ≠ id := fun same => elsewhere ((Table.find_eq_some_iff.mp there).2.symm.trans same)
        simp [apart]
    · left
      have same : Keyed.key row = id := (Table.find_eq_some_iff.mp found).2
      rw [Table.find_update, found]
      simp [same, seen, writes]

/-- A table the update does not write stays. -/
theorem settled_apart {α : Type} {other : Db → α} (holds : ∀ rows, other (store rows) = other db) :
    other (settled db (checkedChange (table db) store (fun row => row) visible id change keeps violation)).2 = other db := by
  rcases @checkedChange_cases Row Row _ (table db) store (fun row => row) visible id change keeps violation with
    ⟨e, failed⟩ | absent | ⟨row, -, -, changed⟩
  · rw [failed]
    rfl
  · rw [absent]
    exact holds _
  · rw [changed]
    exact holds _

end Changed

def reads : Statement → Bool
  | .updateJob _ _ _ => false
  | .updateItem _ _ _ => false
  | _ => true

theorem execute_reads (env : Env) {statement : Statement} (db : Db) (quiet : reads statement = true) :
    (execute env statement db).2 = db := by
  rcases execute_cases env statement db with performed | ⟨e, failed⟩
  · rw [performed]
    cases statement with
    | updateJob scope id input => cases quiet
    | updateItem scope id input => cases quiet
    | _ => rfl
  · rw [failed]

end Statements

/- Jobs. -/

def jobTook : Event Statement Answer → Option (Int × JobFields)
  | ⟨.selectJob _ id, .ok (some row)⟩ => some (id, JobPatch.fieldsOf row)
  | _ => none

def jobWrites : Statement → Option (Int × (JobFields → JobFields))
  | .updateJob _ id input => some (id, JobPatch.written input)
  | _ => none

def jobConfirms : Event Statement Answer → Bool
  | ⟨.updateJob _ _ _, .ok (some _)⟩ => true
  | _ => false

theorem updateJob_changed (env : Env) (scope : CompanyId) (id : JobId) (input : JobInput) (db : Db) :
    let outcome := execute env (.updateJob scope id input) db
    (∀ key, key ≠ id → outcome.2.jobs.find key = db.jobs.find key) ∧
    ((outcome.2.jobs.find id).map JobPatch.fieldsOf = ((db.jobs.find id).map JobPatch.fieldsOf).map (JobPatch.written input) ∨
      (outcome.2.jobs.find id = db.jobs.find id ∧ ∀ row, outcome.1 ≠ .ok (some row))) := by
  intro outcome
  rcases execute_cases env (.updateJob scope id input) db with performed | ⟨e, failed⟩
  · rw [show outcome = _ from performed]
    exact @settled_changed db JobRow JobFields _ _ _ id _ _ _ (fun db => db.jobs) _ _ (fun _ => rfl)
      (JobPatch.fieldsOf_changedJob env.now input)
  · rw [show outcome = _ from failed]
    exact ⟨fun _ _ => rfl, .inr ⟨rfl, fun row => nofun⟩⟩

theorem updateItem_jobs (env : Env) (scope : CompanyId) (id : CallForwardItemId) (input : CallForwardInput) (db : Db) :
    (execute env (.updateItem scope id input) db).2.jobs = db.jobs := by
  rcases execute_cases env (.updateItem scope id input) db with performed | ⟨e, failed⟩
  · rw [performed]
    exact @settled_apart db CallForwardRow _ _ _ id _ _ _ (fun db => db.callForward) _ (fun db => db.jobs) fun _ => rfl
  · rw [failed]

theorem jobs_unwritten {env : Env} {statement : Statement} {db : Db} {id : JobId}
    (elsewhere : ∀ change, jobWrites statement ≠ some (id, change)) :
    (execute env statement db).2.jobs.find id = db.jobs.find id := by
  cases statement with
  | updateJob scope key input =>
    have apart : id ≠ key := by
      rintro rfl
      exact elsewhere (JobPatch.written input) rfl
    exact (updateJob_changed env scope key input db).1 id apart
  | updateItem scope key input => rw [updateItem_jobs]
  | _ => rw [execute_reads env db rfl]

theorem jobTook_found {env : Env} {statement : Statement} {db : Db} {id : JobId} {record : JobFields}
    (took : jobTook ⟨statement, (execute env statement db).1⟩ = some (id, record)) :
    (db.jobs.find id).map JobPatch.fieldsOf = some record := by
  cases statement with
  | selectJob scope key =>
    rcases execute_cases env (.selectJob scope key) db with performed | ⟨e, failed⟩
    · rw [performed] at took
      cases reached : db.jobs.reach (·.companyId = scope) key with
      | none => simp [jobTook, perform, reached] at took
      | some row =>
        simp only [jobTook, perform, reached, Option.some.injEq, Prod.mk.injEq] at took
        obtain ⟨rfl, rfl⟩ := took
        rw [(Table.reach_eq_some_iff.mp reached).1, Option.map_some]
    · rw [failed] at took
      cases took
  | _ => cases took

theorem jobConfirms_false {scope : CompanyId} {id : JobId} {input : JobInput}
    {answer : Answer (.updateJob scope id input)} (unchanged : ∀ row, answer ≠ .ok (some row)) :
    jobConfirms ⟨.updateJob scope id input, answer⟩ = false := by
  cases answer with
  | error e => rfl
  | ok found =>
    cases found with
    | none => rfl
    | some row => exact absurd rfl (unchanged row)

def jobRecords (initial : Db → Prop) : Records (updates initial) JobFields where
  find db id := (db.jobs.find id).map JobPatch.fieldsOf
  took := jobTook
  writes := jobWrites
  confirms := jobConfirms
  took_found := fun _ _ _ _ _ took => jobTook_found took
  unwritten := fun _ _ _ _ elsewhere => congrArg (Option.map JobPatch.fieldsOf) (jobs_unwritten elsewhere)
  written := by
    intro env statement db id change writes
    cases statement with
    | updateJob scope key input =>
      cases writes
      rcases (updateJob_changed env scope id input db).2 with changed | ⟨same, unchanged⟩
      · exact .inl changed
      · exact .inr ⟨congrArg (Option.map JobPatch.fieldsOf) same, jobConfirms_false unchanged⟩
    | _ => cases writes

section JobPrograms
variable {α : Type} {AtStatement : List (Event Statement Answer) → Statement → Prop}
    {AtEnd : List (Event Statement Answer) → Except AppError α → Prop} {past : List (Event Statement Answer)}
    {s : SessionUser} {id : JobId}

/-- What a session that may see the job was answered. -/
def sighting (s : SessionUser) (id : JobId) (row : JobRow) : List (Event Statement Answer) :=
  [⟨.assertVisible s.principal.companyId s.user.id s.user.role.seesAllCompanyJobs id, .ok ()⟩,
    ⟨.selectJob s.principal.companyId id, .ok (some row)⟩]

theorem call_obeys {statement : Statement} {next : Reply statement → Action α} (here : AtStatement past statement)
    (fails : ∀ past e, AtEnd past (.error e))
    (later : ∀ reply, (next reply).Obeys AtStatement AtEnd (past ++ [⟨statement, .ok reply⟩])) :
    (call statement next).Obeys AtStatement AtEnd past := by
  refine ⟨here, fun answer => ?_⟩
  cases answer with
  | error e => exact fails _ _
  | ok reply => exact later reply

theorem getJob_obeys {next : JobRow → Action α} (read : ∀ past statement, reads statement = true → AtStatement past statement)
    (fails : ∀ past e, AtEnd past (.error e))
    (later : ∀ row, (next row).Obeys AtStatement AtEnd (past ++ sighting s id row)) :
    (getJob s id next).Obeys AtStatement AtEnd past := by
  refine ⟨read past _ rfl, fun answer => ?_⟩
  cases answer with
  | error e => cases e <;> exact fails _ _
  | ok seen =>
    refine call_obeys (read _ _ rfl) fails fun found => ?_
    cases found with
    | none => exact fails _ _
    | some row =>
      have there := later row
      rw [sighting, List.append_cons] at there
      exact there

/-- An update of a job reads, merges into the row it read first, and writes; it succeeds after a write that was confirmed. -/
theorem updateJob_obeys {AtEnd : List (Event Statement Answer) → Except AppError JobView → Prop} {req : JobPatchRequest}
    (read : ∀ past statement, reads statement = true → AtStatement past statement)
    (fails : ∀ past e, AtEnd past (.error e))
    (write : ∀ current input again, req.apply current = .ok input →
      AtStatement (sighting s id current ++ sighting s id again) (.updateJob s.principal.companyId id input.normalised))
    (ends : ∀ before input row after view,
      AtEnd (before ++ [⟨.updateJob s.principal.companyId id input, .ok (some row)⟩] ++ after) (.ok view)) :
    (updateJob s id req).Obeys AtStatement AtEnd [] := by
  unfold updateJob writeJob getWithPeople
  refine getJob_obeys read fails fun current => ?_
  cases applied : req.apply current with
  | error e => exact fails _ _
  | ok input =>
    refine getJob_obeys read fails fun again => ?_
    cases valid : input.normalised.validate with
    | error e => exact fails _ _
    | ok checked =>
      refine call_obeys (write current input again applied) fails fun written => ?_
      cases written with
      | none => exact fails _ _
      | some row =>
        refine getJob_obeys read fails fun job => ?_
        refine call_obeys (read _ _ rfl) fails fun manager => ?_
        refine call_obeys (read _ _ rfl) fails fun supervisors => ?_
        have served := ends (sighting s id current ++ sighting s id again) input.normalised row (sighting s id job ++
          [⟨.managerName s.principal.companyId id, .ok manager⟩] ++
          [⟨.supervisors s.principal.companyId id, .ok supervisors⟩])
          (.assemble job manager supervisors)
        simp only [List.append_assoc, List.nil_append] at served ⊢
        exact served

end JobPrograms

/- Programme items. -/

def itemTook : Event Statement Answer → Option (Int × ItemFields)
  | ⟨.findItem _ _ id, .ok (some row)⟩ => some (id, ItemPatch.fieldsOf row)
  | _ => none

def itemWrites : Statement → Option (Int × (ItemFields → ItemFields))
  | .updateItem _ id input => some (id, ItemPatch.written input)
  | _ => none

def itemConfirms : Event Statement Answer → Bool
  | ⟨.updateItem _ _ _, .ok (some _)⟩ => true
  | _ => false

theorem updateItem_changed (env : Env) (scope : CompanyId) (id : CallForwardItemId) (input : CallForwardInput) (db : Db) :
    let outcome := execute env (.updateItem scope id input) db
    (∀ key, key ≠ id → outcome.2.callForward.find key = db.callForward.find key) ∧
    ((outcome.2.callForward.find id).map ItemPatch.fieldsOf =
        ((db.callForward.find id).map ItemPatch.fieldsOf).map (ItemPatch.written input) ∨
      (outcome.2.callForward.find id = db.callForward.find id ∧ ∀ row, outcome.1 ≠ .ok (some row))) := by
  intro outcome
  rcases execute_cases env (.updateItem scope id input) db with performed | ⟨e, failed⟩
  · rw [show outcome = _ from performed]
    exact @settled_changed db CallForwardRow ItemFields _ _ _ id _ _ _ (fun db => db.callForward) _ _ (fun _ => rfl)
      (ItemPatch.fieldsOf_changedItem env.now input)
  · rw [show outcome = _ from failed]
    exact ⟨fun _ _ => rfl, .inr ⟨rfl, fun row => nofun⟩⟩

theorem updateJob_items (env : Env) (scope : CompanyId) (id : JobId) (input : JobInput) (db : Db) :
    (execute env (.updateJob scope id input) db).2.callForward = db.callForward := by
  rcases execute_cases env (.updateJob scope id input) db with performed | ⟨e, failed⟩
  · rw [performed]
    exact @settled_apart db JobRow _ _ _ id _ _ _ (fun db => db.jobs) _ (fun db => db.callForward) fun _ => rfl
  · rw [failed]

theorem items_unwritten {env : Env} {statement : Statement} {db : Db} {id : CallForwardItemId}
    (elsewhere : ∀ change, itemWrites statement ≠ some (id, change)) :
    (execute env statement db).2.callForward.find id = db.callForward.find id := by
  cases statement with
  | updateItem scope key input =>
    have apart : id ≠ key := by
      rintro rfl
      exact elsewhere (ItemPatch.written input) rfl
    exact (updateItem_changed env scope key input db).1 id apart
  | updateJob scope key input => rw [updateJob_items]
  | _ => rw [execute_reads env db rfl]

theorem itemTook_found {env : Env} {statement : Statement} {db : Db} {id : CallForwardItemId} {record : ItemFields}
    (took : itemTook ⟨statement, (execute env statement db).1⟩ = some (id, record)) :
    (db.callForward.find id).map ItemPatch.fieldsOf = some record := by
  cases statement with
  | findItem scope visible key =>
    rcases execute_cases env (.findItem scope visible key) db with performed | ⟨e, failed⟩
    · rw [performed] at took
      cases reached : ProgrammeStore.findItem db scope visible key with
      | none => simp [itemTook, perform, reached] at took
      | some row =>
        simp only [itemTook, perform, reached, Option.some.injEq, Prod.mk.injEq] at took
        obtain ⟨rfl, rfl⟩ := took
        rw [(Table.reach_eq_some_iff.mp reached).1, Option.map_some]
    · rw [failed] at took
      cases took
  | _ => cases took

theorem itemConfirms_false {scope : CompanyId} {id : CallForwardItemId} {input : CallForwardInput}
    {answer : Answer (.updateItem scope id input)} (unchanged : ∀ row, answer ≠ .ok (some row)) :
    itemConfirms ⟨.updateItem scope id input, answer⟩ = false := by
  cases answer with
  | error e => rfl
  | ok found =>
    cases found with
    | none => rfl
    | some row => exact absurd rfl (unchanged row)

def itemRecords (initial : Db → Prop) : Records (updates initial) ItemFields where
  find db id := (db.callForward.find id).map ItemPatch.fieldsOf
  took := itemTook
  writes := itemWrites
  confirms := itemConfirms
  took_found := fun _ _ _ _ _ took => itemTook_found took
  unwritten := fun _ _ _ _ elsewhere => congrArg (Option.map ItemPatch.fieldsOf) (items_unwritten elsewhere)
  written := by
    intro env statement db id change writes
    cases statement with
    | updateItem scope key input =>
      cases writes
      rcases (updateItem_changed env scope id input db).2 with changed | ⟨same, unchanged⟩
      · exact .inl changed
      · exact .inr ⟨congrArg (Option.map ItemPatch.fieldsOf) same, itemConfirms_false unchanged⟩
    | _ => cases writes

section ItemPrograms
variable {α : Type} {AtStatement : List (Event Statement Answer) → Statement → Prop}
    {AtEnd : List (Event Statement Answer) → Except AppError α → Prop} {past : List (Event Statement Answer)}
    {s : SessionUser} {id : CallForwardItemId}

/-- What a session that may see the item was answered. -/
inductive ItemSeen (s : SessionUser) (id : CallForwardItemId) (row : CallForwardRow) :
    List (Event Statement Answer) → Prop where
  | everything : ItemSeen s id row [⟨.findItem s.principal.companyId none id, .ok (some row)⟩]
  | supervised (ids : List JobId) : ItemSeen s id row [⟨.visibleJobIds s.principal.companyId s.user.id, .ok ids⟩,
      ⟨.findItem s.principal.companyId (some ids) id, .ok (some row)⟩]

theorem getItem_obeys {next : CallForwardRow → Action α}
    (read : ∀ past statement, reads statement = true → AtStatement past statement)
    (fails : ∀ past e, AtEnd past (.error e))
    (later : ∀ row seen, ItemSeen s id row seen → (next row).Obeys AtStatement AtEnd (past ++ seen)) :
    (getItem s id next).Obeys AtStatement AtEnd past := by
  unfold getItem withVisibleJobs
  split
  · refine call_obeys (read _ _ rfl) fails fun found => ?_
    cases found with
    | none => exact fails _ _
    | some row => exact later row _ .everything
  · refine call_obeys (read _ _ rfl) fails fun ids => ?_
    refine call_obeys (read _ _ rfl) fails fun found => ?_
    cases found with
    | none => exact fails _ _
    | some row =>
      have there := later row _ (.supervised ids)
      rw [List.append_cons] at there
      exact there

theorem checkParent_obeys {childType : ItemType} {parentId : Option CallForwardItemId} {job : JobId} {next : Action α}
    (read : ∀ past statement, reads statement = true → AtStatement past statement)
    (fails : ∀ past e, AtEnd past (.error e))
    (later : ∀ more, (∀ event ∈ more, reads event.statement = true) → next.Obeys AtStatement AtEnd (past ++ more)) :
    (checkParent s id childType parentId job next).Obeys AtStatement AtEnd past := by
  unfold checkParent
  cases parentId with
  | none =>
    have there := later [] (by simp)
    rwa [List.append_nil] at there
  | some parent =>
    refine call_obeys (read _ _ rfl) fails fun found => ?_
    cases found with
    | none => exact fails _ _
    | some pair =>
      cases linked : validateParent childType (some id) (some (parent, pair.1, pair.2)) job with
      | error e =>
        simp only [linked]
        exact fails _ _
      | ok checked =>
        simp only [linked]
        exact later _ (by simp [reads])

/-- An update of an item reads, merges into the row it read first, and writes. -/
theorem updateItem_obeys {AtEnd : List (Event Statement Answer) → Except AppError CallForwardItemWithDelay → Prop}
    {req : CallForwardPatchRequest} (read : ∀ past statement, reads statement = true → AtStatement past statement)
    (fails : ∀ past e, AtEnd past (.error e))
    (write : ∀ current input seen more, req.apply current = .ok input → ItemSeen s id current seen →
      (∀ event ∈ more, reads event.statement = true) →
      AtStatement (seen ++ more) (.updateItem s.principal.companyId id input))
    (ends : ∀ before input row item,
      AtEnd (before ++ [⟨.updateItem s.principal.companyId id input, .ok (some row)⟩]) (.ok item)) :
    (updateItem s id req).Obeys AtStatement AtEnd [] := by
  unfold updateItem writeItem
  refine getItem_obeys read fails fun current seen sees => ?_
  cases applied : req.apply current with
  | error e => exact fails _ _
  | ok input =>
    refine getItem_obeys read fails fun existing again seesAgain => ?_
    cases valid : input.validate with
    | error e => exact fails _ _
    | ok checked =>
      refine checkParent_obeys read fails fun more quiet => ?_
      refine call_obeys (read _ _ rfl) fails fun today => ?_
      refine call_obeys ?_ fails fun written => ?_
      · have quietAgain : ∀ event ∈ again, reads event.statement = true := by
          cases seesAgain <;> simp [reads]
        have issued := write current input seen (again ++ more ++ [⟨.today, .ok today⟩]) applied sees (by
          intro event member
          simp only [List.mem_append, List.mem_singleton] at member
          rcases member with (earlier | linked) | rfl
          · exact quietAgain event earlier
          · exact quiet event linked
          · rfl)
        simp only [List.append_assoc, List.nil_append] at issued ⊢
        exact issued
      · cases written with
        | none => exact fails _ _
        | some row => exact ends _ input row _

end ItemPrograms

end UpdateTraces
