import PmKonstruct.Jobs.LostUpdates

/- What a partial update leaves of the row it found, when nobody else is at it. The body is merged into the row, the whole
   of it is normalised and checked, and every column is written back. -/
namespace PartialUpdates
open PlainText DomainErrors Accounts Schema KeyedTable Requests StatementProgram UpdatePrograms PatchBody
open JobStore (JobInput changedJob)
open ProgrammeStore (changedItem itemVisible)
open CallForwardItem (CallForwardInput CallForwardItemWithDelay withDelay validateParent)
open JobPatch (JobPatchRequest JobPatchBody)
open ItemPatch (CallForwardPatchRequest CallForwardPatchBody)
open AuthService (SessionUser)
open UpdateTraces (execute_reads reads)

section Programs
variable {α : Type} {db : Db} {Holds : α → Db → Prop} {s : SessionUser} {id : Int}

theorem getJob_ensures {next : JobRow → Action α} (later : ∀ row, db.jobs.find id = some row →
      row.companyId = s.principal.companyId → (next row).Ensures execute (OnSuccess Holds) db) :
    (getJob s id next).Ensures execute (OnSuccess Holds) db := by
  intro env
  rw [execute_reads env db rfl]
  generalize (execute env (.assertVisible _ _ _ id) db).1 = answer
  cases answer with
  | error e => cases e <;> exact failed_ensures
  | ok seen =>
    refine await_ensures fun env found answer => ?_
    cases found with
    | none => exact failed_ensures
    | some row =>
      have reached : db.jobs.reach (·.companyId = s.principal.companyId) id = some row := by
        simpa [perform] using answer
      obtain ⟨found, owned⟩ := Table.reach_eq_some_iff.mp reached
      exact later row found (by simpa using owned)

theorem settled_replaces {Row : Type} [Keyed Row] {table : Table Row} {store : Table Row → Db} {visible : Row → Bool}
    {change : Row → Row} {keeps : ∀ row, Keyed.key (change row) = Keyed.key row} {violation : Option PortError}
    {row : Row} (written : (settled db (checkedChange table store (fun row => row) visible id change keeps violation)).1 =
      .ok (some row)) :
    ∃ current rows, Replaces table rows id current row ∧ row = change current ∧
      (settled db (checkedChange table store (fun row => row) visible id change keeps violation)).2 = store rows := by
  rcases @checkedChange_cases Row Row _ table store (fun row => row) visible id change keeps violation with
    ⟨e, failed⟩ | absent | ⟨current, found, seen, changed⟩
  · rw [failed] at written
    cases written
  · rw [absent] at written
    cases written
  · rw [changed] at written ⊢
    cases written
    exact ⟨current, _, Table.update_replaces keeps found seen, rfl, rfl⟩

theorem updateJob_written {env : Env} {scope : CompanyId} {input : JobInput} {row : JobRow}
    (written : (perform env (.updateJob scope id input) db).1 = .ok (some row)) :
    ∃ current jobs, Replaces db.jobs jobs id current row ∧ row = changedJob env.now input current ∧
      (perform env (.updateJob scope id input) db).2 = { db with jobs := jobs } := settled_replaces written

theorem updateItem_written {env : Env} {scope : CompanyId} {input : CallForwardInput} {row : CallForwardRow}
    (written : (perform env (.updateItem scope id input) db).1 = .ok (some row)) :
    ∃ current items, Replaces db.callForward items id current row ∧ row = changedItem env.now input current ∧
      (perform env (.updateItem scope id input) db).2 = { db with callForward := items } := settled_replaces written

theorem getWithPeople_ensures {Holds : JobView → Db → Prop}
    (holds : ∀ view row, db.jobs.find id = some row → view.job = row → Holds view db) :
    (getWithPeople s id).Ensures execute (OnSuccess Holds) db := by
  refine getJob_ensures fun row found owned => ?_
  refine await_ensures fun env managerName _ => ?_
  refine await_ensures fun env supervisors _ => ?_
  intro view done
  cases done
  exact holds _ row found rfl

/-- An update of a job that succeeds has read one row and written it back with what the request makes of it. -/
theorem updateJob_ensures {req : JobPatchRequest} : (updateJob s id req).Ensures execute
    (OnSuccess fun view after => ∃ current input now jobs, req.apply current = .ok input ∧ after = { db with jobs := jobs } ∧
      Replaces db.jobs jobs id current (changedJob now input.normalised current) ∧
      view.job = changedJob now input.normalised current) db := by
  refine getJob_ensures fun current found owned => ?_
  split
  · exact failed_ensures
  · next input applied =>
    refine getJob_ensures fun again foundAgain ownedAgain => ?_
    split
    · exact failed_ensures
    · next checked valid =>
      refine await_ensures fun env written answer => ?_
      cases written with
      | none => exact failed_ensures
      | some row =>
        obtain ⟨before, jobs, replaces, changed, stored⟩ := updateJob_written answer
        have same : before = current := Option.some.inj (replaces.1.symm.trans found)
        subst same changed
        refine getWithPeople_ensures fun view job located shown => ?_
        rw [stored] at located ⊢
        have served : job = changedJob env.now input.normalised before :=
          Option.some.inj (located.symm.trans replaces.2.1)
        exact ⟨before, input, env.now, jobs, applied, rfl, replaces, shown.trans served⟩

theorem getItem_ensures {next : CallForwardRow → Action α} (later : ∀ row, db.callForward.find id = some row →
      (next row).Ensures execute (OnSuccess Holds) db) :
    (getItem s id next).Ensures execute (OnSuccess Holds) db := by
  have found_ensures : ∀ visible, (call (.findItem s.principal.companyId visible id) fun
      | none => fail (.domain (.notFound "Call forward item"))
      | some row => next row).Ensures execute (OnSuccess Holds) db := by
    intro visible
    refine await_ensures fun env found answer => ?_
    cases found with
    | none => exact failed_ensures
    | some row =>
      have reached : ProgrammeStore.findItem db s.principal.companyId visible id = some row := by
        simpa [perform] using answer
      exact later row (Table.reach_eq_some_iff.mp reached).1
  unfold getItem withVisibleJobs
  split
  · exact found_ensures none
  · refine await_ensures fun env ids _ => ?_
    exact found_ensures (some ids)

theorem checkParent_ensures {childType : ItemType} {parentId : Option CallForwardItemId} {job : JobId} {next : Action α}
    (later : next.Ensures execute (OnSuccess Holds) db) :
    (checkParent s id childType parentId job next).Ensures execute (OnSuccess Holds) db := by
  unfold checkParent
  split
  · exact later
  · refine await_ensures fun env found _ => ?_
    cases found with
    | none => exact failed_ensures
    | some pair =>
      dsimp only
      split
      · exact failed_ensures
      · exact later

/-- An update of an item that succeeds has read one row and written it back with what the request makes of it. -/
theorem updateItem_ensures {req : CallForwardPatchRequest} : (updateItem s id req).Ensures execute
    (OnSuccess fun served after => ∃ current input now items, req.apply current = .ok input ∧
      after = { db with callForward := items } ∧ Replaces db.callForward items id current (changedItem now input current) ∧
      served.item = changedItem now input current) db := by
  refine getItem_ensures fun current found => ?_
  split
  · exact failed_ensures
  · next input applied =>
    refine getItem_ensures fun existing foundAgain => ?_
    split
    · exact failed_ensures
    · refine checkParent_ensures ?_
      refine await_ensures fun clock today _ => ?_
      refine await_ensures fun env written answer => ?_
      cases written with
      | none => exact failed_ensures
      | some row =>
        obtain ⟨before, items, replaces, changed, stored⟩ := updateItem_written answer
        have same : before = current := Option.some.inj (replaces.1.symm.trans found)
        subst same changed
        intro served done
        cases done
        exact ⟨before, input, env.now, items, applied, stored, replaces, rfl⟩

end Programs

/-- A partial update that succeeds changes what its body says of one row and leaves every other row. The four texts of a job
    that it does not name stay as they are when no white space surrounds them. -/
theorem patch_changes_named (envs : Nat → Env) (db : Db) (s : SessionUser) :
    (∀ id (body : JobPatchBody) view after, (updateJob s id body.read).runFrom execute envs 0 db = (.ok view, after) →
      ∃ before row, Replaces db.jobs after.jobs id before row ∧ view.job = row ∧ row.companyId = before.companyId ∧
        row.createdAt = before.createdAt ∧
        ∀ f, (JobPatch.naming.named body f = none →
            JobPatch.tidy f (JobPatch.fieldsOf before f) = JobPatch.fieldsOf before f) →
          JobPatch.naming.Patched body (JobPatch.fieldsOf before) (JobPatch.fieldsOf row) f) ∧
    ∀ id (body : CallForwardPatchBody) served after,
      (updateItem s id body.read).runFrom execute envs 0 db = (.ok served, after) →
      ∃ before row, Replaces db.callForward after.callForward id before row ∧ served.item = row ∧
        row.jobId = before.jobId ∧ row.createdAt = before.createdAt ∧
        ∀ f, ItemPatch.naming.Patched body (ItemPatch.fieldsOf before) (ItemPatch.fieldsOf row) f := by
  constructor
  · intro id body view after run
    obtain ⟨current, input, now, jobs, applied, rfl, replaces, shown⟩ := updateJob_ensures.succeeded run
    refine ⟨current, _, replaces, shown, rfl, rfl, fun f tidied => ?_⟩
    rw [JobPatch.fieldsOf_changedJob, JobPatch.apply_merges applied, JobPatch.read_named]
    exact merge_patched (JobPatch.apply_accepts applied) tidied
  · intro id body served after run
    obtain ⟨current, input, now, items, applied, rfl, replaces, shown⟩ := updateItem_ensures.succeeded run
    refine ⟨current, _, replaces, shown, rfl, rfl, fun f => ?_⟩
    rw [ItemPatch.fieldsOf_changedItem, ItemPatch.apply_merges applied, ItemPatch.read_named]
    exact merge_patched (ItemPatch.apply_accepts applied) fun _ => rfl

/- An empty status is accepted and stands for none. Archiving a job tidies the name that an older application stored. -/

open LostUpdates (oneJob sessionOf calm)

def sarah : SessionUser := sessionOf 7 (text "Sarah") .manager

def onlyStatus (word : Text) : JobPatchBody
  | .status => .value word
  | _ => .absent

def onlyFinish (sent : Sent CalendarDate.Date) : CallForwardPatchBody
  | .actualFinish => sent
  | _ => .absent

def spacedName : Db :=
  { oneJob with
    jobs := Table.empty.put ⟨1, 1, text " Slab", text "J1", text "Smith", none, none, text "1 St", .active, none, none, none,
      none, none, none, none, none, none, 0, 0⟩ }

def oneItem : Db :=
  { oneJob with
    callForward := Table.empty.put ⟨1, 1, text "Pour slab", .task, none, none, none, some 3, some 4, .inProgress, none, 0,
      none, 0, 0⟩ }

theorem patch_sample_named :
    (∃ view after, (updateJob sarah 1 (onlyStatus (text "archived")).read).runFrom execute (fun _ => calm) 0 oneJob =
        (.ok view, after) ∧
      ∃ before row, Replaces oneJob.jobs after.jobs 1 before row ∧ view.job = row ∧ row.companyId = before.companyId ∧
        row.createdAt = before.createdAt ∧
        ∀ f, (JobPatch.naming.named (onlyStatus (text "archived")) f = none →
            JobPatch.tidy f (JobPatch.fieldsOf before f) = JobPatch.fieldsOf before f) →
          JobPatch.naming.Patched (onlyStatus (text "archived")) (JobPatch.fieldsOf before) (JobPatch.fieldsOf row) f) ∧
    ∃ served after, (updateItem sarah 1 (onlyFinish .null).read).runFrom execute (fun _ => calm) 0 oneItem =
        (.ok served, after) ∧
      ∃ before row, Replaces oneItem.callForward after.callForward 1 before row ∧ served.item = row ∧
        row.jobId = before.jobId ∧ row.createdAt = before.createdAt ∧
        ∀ f, ItemPatch.naming.Patched (onlyFinish .null) (ItemPatch.fieldsOf before) (ItemPatch.fieldsOf row) f :=
  ⟨⟨_, _, rfl, (patch_changes_named (fun _ => calm) oneJob sarah).1 1 _ _ _ rfl⟩,
    ⟨_, _, rfl, (patch_changes_named (fun _ => calm) oneItem sarah).2 1 _ _ _ rfl⟩⟩

theorem empty_status_kept :
    (∃ view after, (updateJob sarah 1 (onlyStatus []).read).runFrom execute (fun _ => calm) 0 oneJob = (.ok view, after) ∧
      ∀ before row, Replaces oneJob.jobs after.jobs 1 before row →
        ¬ JobPatch.naming.Changed (onlyStatus []) (JobPatch.fieldsOf before) (JobPatch.fieldsOf row)) ∧
    ∃ view after, (updateJob sarah 1 (onlyStatus (text "archived")).read).runFrom execute (fun _ => calm) 0 spacedName =
        (.ok view, after) ∧
      ∀ before row, Replaces spacedName.jobs after.jobs 1 before row →
        ¬ JobPatch.naming.Changed (onlyStatus (text "archived")) (JobPatch.fieldsOf before) (JobPatch.fieldsOf row) := by
  constructor
  · refine ⟨_, _, rfl, fun before row replaces changed => ?_⟩
    have named : JobPatch.JobStatus.parse [] = some row.status := changed .status
    cases named
  · refine ⟨_, _, rfl, fun before row replaces changed => ?_⟩
    have kept : row.name = before.name := changed .name
    obtain ⟨was, is, -⟩ := replaces
    cases was
    cases is
    cases kept

end PartialUpdates
