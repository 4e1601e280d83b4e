import PmKonstruct.Jobs.UpdateTraces

/- What becomes of partial updates of one row. Each writes back every column of the copy it merged into, so one that read
   the row before another wrote it takes the other's fields back. -/
namespace LostUpdates
open PlainText DomainErrors Accounts CalendarDate Schema KeyedTable TransitionRuns StatementProgram
open UpdatePrograms UpdateTraces
open ReadMergeWrite (Records Patches NoCommonField Carries copied_more writesMerge_of_reads)
open JobPatch (JobPatchRequest JobField)
open ItemPatch (CallForwardPatchRequest ItemField)
open AuthService (SessionUser)

def succeeded : Outcome → Bool
  | .ok _ => true
  | .error _ => false

theorem jobWrites_reads {statement : Statement} (quiet : reads statement = true) : jobWrites statement = none := by
  cases statement with
  | updateJob scope id input => cases quiet
  | _ => rfl

theorem itemWrites_reads {statement : Statement} (quiet : reads statement = true) : itemWrites statement = none := by
  cases statement with
  | updateItem scope id input => cases quiet
  | _ => rfl

def jobPatches (initial : Db → Prop) : Patches (jobRecords initial) JobField JobField.Value where
  fields := fun record => record
  tidy := JobPatch.tidy
  target
    | .job _ id _ => some id
    | .item _ _ _ => none
  named
    | .job _ _ req => req.named
    | .item _ _ _ => fun _ => none
  succeeded := succeeded
  named_tidy
    | .job _ _ req => JobPatch.named_tidy req
    | .item _ _ _ => nofun
  merges := by
    intro request
    cases request with
    | job s id req =>
      refine obeys_mapResult.mpr (updateJob_obeys ?_ ?_ ?_ ?_)
      · exact fun past statement quiet => writesMerge_of_reads (jobWrites_reads quiet)
      · intro past e failed
        cases failed
      · intro current input again applied key change writes
        cases writes
        exact ⟨rfl, JobPatch.fieldsOf current, rfl, JobPatch.apply_merges applied⟩
      · intro before input row after view done meant
        simp [Records.wrote, jobRecords, jobWrites, jobConfirms]
    | item s id req =>
      refine obeys_mapResult.mpr (updateItem_obeys ?_ ?_ ?_ ?_)
      · exact fun past statement quiet => writesMerge_of_reads (jobWrites_reads quiet)
      · intro past e failed
        cases failed
      · exact fun current input seen more applied sees quiet => writesMerge_of_reads rfl
      · intro before input row item done meant
        cases meant

/-- The first sight of an item is the copy, whatever was asked of the jobs before. -/
theorem copied_seen {initial : Db → Prop} {s : SessionUser} {id : CallForwardItemId} {row : CallForwardRow}
    {seen more : List (Event Statement Answer)} (sees : ItemSeen s id row seen)
    (quiet : ∀ event ∈ more, reads event.statement = true) :
    (itemRecords initial).copied (seen ++ more) = some (id, ItemPatch.fieldsOf row) := by
  refine copied_more ?_ fun event member => itemWrites_reads (quiet event member)
  cases sees with
  | everything => rfl
  | supervised ids => rfl

def itemPatches (initial : Db → Prop) : Patches (itemRecords initial) ItemField ItemField.Value where
  fields := fun record => record
  tidy := fun _ v => v
  target
    | .job _ _ _ => none
    | .item _ id _ => some id
  named
    | .job _ _ _ => fun _ => none
    | .item _ _ req => req.named
  succeeded := succeeded
  named_tidy := fun _ _ _ _ => rfl
  merges := by
    intro request
    cases request with
    | job s id req =>
      refine obeys_mapResult.mpr (updateJob_obeys ?_ ?_ ?_ ?_)
      · exact fun past statement quiet => writesMerge_of_reads (itemWrites_reads quiet)
      · intro past e failed
        cases failed
      · exact fun current input again applied => writesMerge_of_reads rfl
      · intro before input row after view done meant
        cases meant
    | item s id req =>
      refine obeys_mapResult.mpr (updateItem_obeys ?_ ?_ ?_ ?_)
      · exact fun past statement quiet => writesMerge_of_reads (itemWrites_reads quiet)
      · intro past e failed
        cases failed
      · intro current input seen more applied sees quiet key change writes
        cases writes
        exact ⟨rfl, ItemPatch.fieldsOf current, copied_seen sees quiet, ItemPatch.apply_merges applied⟩
      · intro before input row item done meant
        simp [Records.wrote, itemRecords, itemWrites, itemConfirms]

/- What two requests name, and what is left of it. -/

def Apart : Request → Request → Prop
  | .job _ id req, .job _ other more => id = other → NoCommonField req.named more.named
  | .item _ id req, .item _ other more => id = other → NoCommonField req.named more.named
  | _, _ => True

def Kept (db : Db) : Request → Prop
  | .job _ id req => ∃ row, db.jobs.find id = some row ∧ Carries req.named (JobPatch.fieldsOf row)
  | .item _ id req => ∃ row, db.callForward.find id = some row ∧ Carries req.named (ItemPatch.fieldsOf row)

/-- No update changes a row that another update has read and not written yet. -/
def undisturbed (initial : Db → Prop) : Running → Label Request Env → Bool :=
  apart fun db statement other =>
    (jobRecords initial).interrupts db statement other || (itemRecords initial).interrupts db statement other

theorem undisturbed_jobs {initial : Db → Prop} {config : Running} {label : Label Request Env}
    (permitted : undisturbed initial config label = true) : apart (jobRecords initial).interrupts config label = true := by
  refine apart_mono (fun db statement other interrupted => ?_) permitted
  rw [interrupted, Bool.true_or]

theorem undisturbed_items {initial : Db → Prop} {config : Running} {label : Label Request Env}
    (permitted : undisturbed initial config label = true) : apart (itemRecords initial).interrupts config label = true := by
  refine apart_mono (fun db statement other interrupted => ?_) permitted
  rw [interrupted, Bool.or_true]

/-- Partial updates that name no common field do not lose each other, as long as none of them changes the row between
    the read and the write of another. -/
theorem patches_kept {initial : Db → Prop} {config : Running}
    (reached : ((updates initial).machine.restrict (undisturbed initial)).Reachable config)
    (named : (config.calls.map (·.request)).Pairwise Apart) {call : Underway} {returned : Returned}
    (member : call ∈ config.calls) (done : call.running = .done (.ok returned)) : Kept config.store call.request := by
  cases meant : call.request with
  | job s id req =>
    have apart : (config.calls.map (·.request)).Pairwise (jobPatches initial).Apart := by
      refine named.imp fun {first second} apart key target same => ?_
      cases first <;> cases second <;> cases target <;> cases same
      exact apart rfl
    obtain ⟨key, record, target, found, carries⟩ := (jobPatches initial).kept_done
      (fun _ _ permitted => undisturbed_jobs permitted) reached apart member done rfl (by simp [jobPatches, meant])
    rw [meant] at target carries
    cases target
    obtain ⟨row, there, rfl⟩ := Option.map_eq_some_iff.mp found
    exact ⟨row, there, carries⟩
  | item s id req =>
    have apart : (config.calls.map (·.request)).Pairwise (itemPatches initial).Apart := by
      refine named.imp fun {first second} apart key target same => ?_
      cases first <;> cases second <;> cases target <;> cases same
      exact apart rfl
    obtain ⟨key, record, target, found, carries⟩ := (itemPatches initial).kept_done
      (fun _ _ permitted => undisturbed_items permitted) reached apart member done rfl (by simp [itemPatches, meant])
    rw [meant] at target carries
    cases target
    obtain ⟨row, there, rfl⟩ := Option.map_eq_some_iff.mp found
    exact ⟨row, there, carries⟩

/- Sarah archives a job from the list while Tom's note on it is saved. -/

def oneJob : Db :=
  { Db.empty with
    users := ⟨[⟨8, 1, text "Tom", text "tom@example.com", text "SUPERVISOR", none, true, none, none, by decide⟩], 9,
      by decide, by decide⟩
    jobs := ⟨[⟨1, 1, [], text "J1", text "Smith", none, none, text "1 St", .active, none, none, none, some 8, none, none,
      none, none, none, 0, 0⟩], 2, by decide, by decide⟩ }

def sessionOf (id : UserId) (name : Text) (role : Role) : SessionUser where
  user := ⟨id, 1, name, name, role, none, true, none⟩
  principal := ⟨id, 1, role⟩
  permissions := []
  entitlement := ⟨true, true, true, none⟩

def archive : Request :=
  .job (sessionOf 7 (text "Sarah") .manager) 1 { JobPatchRequest.empty with status := some (text "archived") }

def note : Request :=
  .job (sessionOf 8 (text "Tom") .supervisor) 1 { JobPatchRequest.empty with description := some (some (text "Slab")) }

def calm : Env := ⟨5, 0, none⟩

/-- The next statements of one call. -/
def advances (call n : Nat) : List (Label Request Env) := List.replicate n (.advance call calm)

def onOneJob : Db → Prop := fun db => db = oneJob

/-- Each takes its copy, then each goes on: the note writes the old status back. -/
def overlapping : List (Label Request Env) :=
  [.invoke archive, .invoke note] ++ advances 0 2 ++ advances 1 2 ++ advances 0 7 ++ advances 1 7

/-- One call after the other. -/
def inTurn : List (Label Request Env) := [.invoke archive, .invoke note] ++ advances 0 9 ++ advances 1 9

theorem idle_initial : (updates onOneJob).machine.initial ⟨oneJob, []⟩ := ⟨rfl, rfl⟩

theorem archive_apart_note : [archive, note].Pairwise Apart := by
  rw [List.pairwise_pair]
  intro same f
  cases f with
  | status => exact .inr rfl
  | _ => exact .inl rfl

def returnedStatus : Underway → Option JobStatus
  | ⟨_, _, .done (.ok (.job view))⟩ => some view.job.status
  | _ => none

theorem done_of_returnedStatus {call : Underway} {status : JobStatus} (answered : returnedStatus call = some status) :
    ∃ returned, call.running = .done (.ok returned) := by
  unfold returnedStatus at answered
  split at answered
  · exact ⟨_, rfl⟩
  · cases answered

theorem all_done {config : Running} {first second : JobStatus}
    (answers : config.calls.map returnedStatus = [some first, some second]) :
    ∀ call ∈ config.calls, ∃ returned, call.running = .done (.ok returned) := by
  intro call member
  have among : returnedStatus call ∈ [some first, some second] := answers ▸ List.mem_map_of_mem member
  rcases List.mem_pair.mp among with answered | answered <;> exact done_of_returnedStatus answered

theorem overlapping_lost : ∃ config : Running, (updates onOneJob).machine.Reachable config ∧
    (config.calls.map (·.request)).Pairwise Apart ∧
    (∀ call ∈ config.calls, ∃ returned, call.running = .done (.ok returned)) ∧
    ∃ call ∈ config.calls, ¬ Kept config.store call.request := by
  have run : ∃ config, (updates onOneJob).machine.execute ⟨oneJob, []⟩ overlapping = some config ∧
      config.calls.map (·.request) = [archive, note] ∧
      config.calls.map returnedStatus = [some .archived, some .active] ∧
      (config.store.jobs.find 1).map (·.status) = some .active :=
    ⟨_, rfl, rfl, by decide +kernel, by decide +kernel⟩
  obtain ⟨config, ran, requests, answers, stored⟩ := run
  refine ⟨config, execute_reachable idle_initial ran, requests ▸ archive_apart_note, all_done answers, ?_⟩
  have there : archive ∈ config.calls.map (·.request) := requests ▸ List.mem_cons_self
  obtain ⟨call, member, asked⟩ := List.mem_map.mp there
  refine ⟨call, member, fun kept => ?_⟩
  rw [asked] at kept
  obtain ⟨row, found, carries⟩ := kept
  have archived : row.status = .archived := carries .status .archived rfl
  rw [found, Option.map_some, archived] at stored
  cases stored

theorem inTurn_kept : ∃ config : Running,
    ((updates onOneJob).machine.restrict (undisturbed onOneJob)).Reachable config ∧
    config.calls.map (·.request) = [archive, note] ∧ ∀ call ∈ config.calls, Kept config.store call.request := by
  have run : ∃ config, ((updates onOneJob).machine.restrict (undisturbed onOneJob)).execute ⟨oneJob, []⟩ inTurn =
      some config ∧ config.calls.map (·.request) = [archive, note] ∧
      config.calls.map returnedStatus = [some .archived, some .archived] :=
    ⟨_, rfl, rfl, by decide +kernel⟩
  obtain ⟨config, ran, requests, answers⟩ := run
  have start : ((updates onOneJob).machine.restrict (undisturbed onOneJob)).initial ⟨oneJob, []⟩ := ⟨rfl, rfl⟩
  have reached := execute_reachable start ran
  refine ⟨config, reached, requests, fun call member => ?_⟩
  obtain ⟨returned, done⟩ := all_done answers call member
  exact patches_kept reached (requests ▸ archive_apart_note) member done

end LostUpdates
