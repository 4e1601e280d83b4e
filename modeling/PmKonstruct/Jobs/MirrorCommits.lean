import PmKonstruct.Jobs.AssignmentPrograms
import PmKonstruct.Jobs.SupervisorMirror

/- The supervisor of a job follows its assignments, as long as no call commits on a job whose assignments another call
   has begun to reload. The supervisor is computed from a snapshot and the assignments are those of the commit, so a
   change that comes between the two is not mirrored. -/
namespace MirrorCommits
open DomainErrors Accounts Schema KeyedTable RowSecurity TransitionRuns ReadCommitted AssignmentPrograms
open PlainText (Text text)
open JobStore (JobAssignment assignmentsOf assignmentOfRow primarySupervisor)
open SupervisorMirror (mirror ofJob ofJob_congr assignmentsOf_visible)

/-- The supervisor of the job is the one that its assignments name. -/
def Mirrors (job : JobId) (db : Db) : Prop := ∀ row, db.jobs.find job = some row → row.supervisorId = mirror db job

/- The condition on a run. -/

def reloads (statement : Statement) : Bool :=
  match statement.query with
  | .selectAssignments => true
  | _ => false

/-- The other call is on the same job and has begun to reload its assignments. -/
def clashes (_ : Db) (tx other : Running) : Bool := tx.request.job = other.request.job && other.begun reloads

abbrev Trace : Type := List (StatementProgram.Event Statement Answer)

abbrev Point : Type := Phase Statement Answer (Except PortError (List JobAssignment)) Db

/- What a call does to the assignments before it reloads them. -/

def rowsOf (db : Db) (job : JobId) : List JobAssignmentRow := db.jobAssignments.select fun a => a.jobId = job

def Uses (db : Db) (id : Int) : Prop := ∃ a ∈ db.jobAssignments.rows, a.id = id

/-- The rows of the job after the change are a matter of its rows before, and nothing else changes. -/
structure Edits (job : JobId) (draws : List Int) (change : Db → Db) : Prop where
  own : ∀ db other, rowsOf db job = rowsOf other job → rowsOf (change db) job = rowsOf (change other) job
  others : ∀ db, (∀ id ∈ draws, ¬ Uses db id) → ∀ other, other ≠ job → rowsOf (change db) other = rowsOf db other
  uses : ∀ db id, Uses (change db) id → Uses db id ∨ id ∈ draws
  jobs : ∀ db, (change db).jobs = db.jobs

section Edits
variable {job : JobId} {draws more : List Int} {change next : Db → Db} {ids : List Int} {snapshot current : Db}
    {scope : CompanyId}

theorem edits_nothing : Edits job [] fun db => db where
  own := fun _ _ same => same
  others := fun _ _ _ _ => rfl
  uses := fun _ _ used => .inl used
  jobs := fun _ => rfl

theorem Edits.grow (made : Edits job draws change) : Edits job (draws ++ more) change where
  own := made.own
  others := fun db unused => made.others db fun id drawn => unused id (List.mem_append_left _ drawn)
  uses := fun db id used => (made.uses db id used).imp_right (List.mem_append_left _)
  jobs := made.jobs

theorem Edits.comp (first : Edits job draws change) (second : Edits job more next) (apart : ∀ id ∈ more, id ∉ draws) :
    Edits job (draws ++ more) (next ∘ change) where
  own := fun db other same => second.own _ _ (first.own db other same)
  others := by
    intro db unused other elsewhere
    have still : ∀ id ∈ more, ¬ Uses (change db) id := by
      intro id drawn used
      rcases first.uses db id used with before | earlier
      · exact unused id (List.mem_append_right _ drawn) before
      · exact apart id drawn earlier
    rw [Function.comp_apply, second.others _ still other elsewhere]
    exact first.others db (fun id drawn => unused id (List.mem_append_left _ drawn)) other elsewhere
  uses := by
    intro db id used
    rcases second.uses _ id used with before | drawn
    · rcases first.uses db id before with old | earlier
      · exact .inl old
      · exact .inr (List.mem_append_left _ earlier)
    · exact .inr (List.mem_append_right _ drawn)
  jobs := fun db => (second.jobs _).trans (first.jobs db)

theorem rowsOf_mark {db : Db} {primary : Bool} : rowsOf (mark job ids primary db) job = (rowsOf db job).map fun a =>
    if a.jobId = job && a.id ∈ ids then { a with isPrimary := primary } else a := by
  have keeps : ∀ a : JobAssignmentRow, Keyed.key { a with isPrimary := primary } = Keyed.key a := fun _ => rfl
  exact @Table.select_update_map _ _ db.jobAssignments _ _ keeps _ fun _ => rfl

theorem mark_edits {primary : Bool} : Edits job [] (mark job ids primary) where
  own := by
    intro db other same
    rw [rowsOf_mark, rowsOf_mark, same]
  others := by
    intro db _ other elsewhere
    refine SupervisorMirror.select_mark fun a matched same => ?_
    obtain ⟨own, -⟩ := Bool.and_eq_true_iff.mp matched
    exact elsewhere (same.symm.trans (of_decide_eq_true own))
  uses := by
    rintro db id ⟨a, member, rfl⟩
    obtain ⟨old, there, -, -, rfl⟩ := SupervisorMirror.mem_mark member
    refine .inl ⟨old, there, ?_⟩
    split <;> rfl
  jobs := fun _ => rfl

theorem unassign_edits : Edits job [] (unassign job ids) where
  own := by
    intro db other same
    simp only [rowsOf, unassign] at same ⊢
    rw [Table.select_delete, Table.select_delete, same]
  others := by
    intro db _ other elsewhere
    refine Table.select_delete_apart fun a _ selected => ?_
    have own : a.jobId = other := of_decide_eq_true selected
    simp [own, elsewhere]
  uses := by
    rintro db id ⟨a, member, rfl⟩
    exact .inl ⟨a, (Table.mem_delete.mp member).1, rfl⟩
  jobs := fun _ => rfl

theorem assign_edits {row : JobAssignmentRow} (own : row.jobId = job) (drawn : row.id ∈ draws) :
    Edits job draws (assign row) where
  own := by
    intro db other same
    simp only [rowsOf, assign] at same ⊢
    rw [Table.select_put, Table.select_put, same]
  others := by
    intro db unused other elsewhere
    refine Table.select_put_apart (fun a there same => unused row.id drawn ⟨a, there, same⟩) ?_
    exact decide_eq_false fun same => elsewhere (same.symm.trans own)
  uses := by
    rintro db id ⟨a, member, rfl⟩
    rcases Table.mem_put.mp member with ⟨old, -⟩ | rfl
    · exact .inl ⟨a, old, rfl⟩
    · exact .inr drawn
  jobs := fun _ => rfl

def edits : Query → Bool
  | .selectAssignments => false
  | .setSupervisor _ _ => false
  | _ => true

/-- Every statement before the reload edits the assignments of its job. -/
theorem perform_edits {serial : Int} {query : Query} {effect : Outcome (Reply query)} (kind : edits query = true)
    (runs : effect = perform snapshot current scope job serial query) :
    Edits job ((List.range effect.drawn).map fun n : Nat => serial + n) effect.change := by
  subst runs
  cases query with
  | countAssignments => exact edits_nothing
  | lockJob => exact edits_nothing
  | clearPrimary => exact mark_edits
  | insertAssignment user primary now =>
    rw [perform, insertAssignment]
    split
    · exact edits_nothing
    · exact assign_edits rfl (List.mem_map.mpr ⟨0, List.mem_range.mpr Nat.one_pos, Int.add_zero serial⟩)
  | deleteAssignment user => exact unassign_edits
  | makePrimary user =>
    rw [perform, makePrimary]
    split
    · exact edits_nothing
    · exact mark_edits
  | selectAssignments => cases kind
  | setSupervisor user now => cases kind

end Edits

/- Where a call stands. -/

/-- A program that edits and then reloads, or fails. -/
inductive Editing (request : Request) : Steps → Prop where
  | fails {e : PortError} : Editing request (.done (.rollback (.error e)))
  | reload : Editing request (.stmt ⟨request.scope, request.job, .selectAssignments⟩
      (orFail (supervising request.scope request.job request.now)))
  | edit {query : Query} {next : Except PortError (Reply query) → Steps} (kind : edits query = true)
      (rest : ∀ answer, Editing request (next answer)) :
      Editing request (.stmt ⟨request.scope, request.job, query⟩ next)

theorem orFail_editing {request : Request} {α : Type} {next : α → Steps} (rest : ∀ reply, Editing request (next reply)) :
    ∀ answer, Editing request (orFail next answer)
  | .error _ => .fails
  | .ok reply => rest reply

theorem program_editing {request : Request} : Editing request (program request) := by
  obtain ⟨scope, job, now, call⟩ := request
  cases call with
  | addAssignment user primary =>
    refine .edit rfl (orFail_editing fun existing => ?_)
    split
    · exact .edit rfl (orFail_editing fun _ => .edit rfl (orFail_editing fun _ => .reload))
    · exact .edit rfl (orFail_editing fun _ => .reload)
  | removeAssignment user => exact .edit rfl (orFail_editing fun _ => .reload)
  | setPrimaryAssignment user =>
    refine .edit rfl (orFail_editing fun _ => .edit rfl (orFail_editing fun _ => .edit rfl (orFail_editing fun n => ?_)))
    split
    · exact .fails
    · exact .reload

/-- From the start of its reload on, a call knows the assignments of its job as they will be when it commits. -/
inductive Stands (stored : Db) (request : Request) : Trace → List Int → (Db → Db) → Point → Prop where
  | editing {trace : Trace} {draws : List Int} {pending : Db → Db} {program : Steps}
      (made : Edits request.job draws pending) (shape : Editing request program) :
      Stands stored request trace draws pending (.ready program)
  | edits {trace : Trace} {draws : List Int} {pending : Db → Db} {snapshot : Db} {query : Query}
      {next : Except PortError (Reply query) → Steps} (made : Edits request.job draws pending)
      (kind : edits query = true) (rest : ∀ answer, Editing request (next answer)) :
      Stands stored request trace draws pending (.started snapshot ⟨request.scope, request.job, query⟩ next)
  | reloads {trace : Trace} {draws : List Int} {pending : Db → Db} {snapshot : Db}
      (made : Edits request.job draws pending) (visible : jobInScope snapshot request.scope request.job = true)
      (same : rowsOf (pending stored) request.job = rowsOf snapshot request.job) :
      Stands stored request trace draws pending (.started snapshot ⟨request.scope, request.job, .selectAssignments⟩
        (orFail (supervising request.scope request.job request.now)))
  | supervising {trace : Trace} {draws : List Int} {pending : Db → Db} {user : Option UserId}
      {result : List JobAssignment} (made : Edits request.job draws pending)
      (past : ∃ event ∈ trace, reloads event.statement = true) (known : user = mirror (pending stored) request.job) :
      Stands stored request trace draws pending (.ready (.stmt ⟨request.scope, request.job,
        .setSupervisor user request.now⟩ (orFail fun _ => .done (.commit (.ok result)))))
  | supervises {trace : Trace} {draws : List Int} {pending : Db → Db} {user : Option UserId} {snapshot : Db}
      {result : List JobAssignment} (made : Edits request.job draws pending)
      (past : ∃ event ∈ trace, reloads event.statement = true) (known : user = mirror (pending stored) request.job)
      (visible : jobInScope snapshot request.scope request.job = true) :
      Stands stored request trace draws pending (.started snapshot ⟨request.scope, request.job,
        .setSupervisor user request.now⟩ (orFail fun _ => .done (.commit (.ok result))))
  | supervised {trace : Trace} {draws : List Int} {pending : Db → Db} {user : Option UserId}
      {result : List JobAssignment} (made : Edits request.job draws pending)
      (past : ∃ event ∈ trace, reloads event.statement = true) (known : user = mirror (pending stored) request.job) :
      Stands stored request trace draws (supervise request.job user request.now ∘ pending)
        (.ready (.done (.commit (.ok result))))
  | failed {trace : Trace} {draws : List Int} {pending : Db → Db} {error : PortError} :
      Stands stored request trace draws pending (.ready (.done (.rollback (.error error))))
  | committed {trace : Trace} {draws : List Int} {result : Except PortError (List JobAssignment)} :
      Stands stored request trace draws id (.committed result)
  | undone {trace : Trace} {draws : List Int} {result : Option (Except PortError (List JobAssignment))} :
      Stands stored request trace draws id (.undone result)

/-- The job is another company's, and every statement passes over it. -/
structure Hidden (tx : Running) : Prop where
  pending : tx.pending = id
  snapshot : ∀ snapshot statement next, tx.phase = .started snapshot statement next →
    jobInScope snapshot tx.request.scope tx.request.job = false

def Placed (stored : Db) (tx : Running) : Prop :=
  if jobInScope stored tx.request.scope tx.request.job then
    Stands stored tx.request tx.trace tx.draws tx.pending tx.phase
  else Hidden tx

/- The steps of a call. -/

section Steps
variable {stored snapshot : Db} {request : Request} {trace : Trace} {draws : List Int} {pending : Db → Db}

theorem same_mirror {db other : Db} {job : JobId} (same : rowsOf db job = rowsOf other job) :
    mirror db job = mirror other job := by
  rw [mirror, mirror, ofJob_congr same]

/-- What the reload says of the supervisor. -/
theorem reloaded_mirror {scope : CompanyId} {job : JobId} (visible : jobInScope snapshot scope job = true) :
    primarySupervisor (((assignmentsOf snapshot scope job).map (assignmentOfRow snapshot scope)).map fun a =>
      (a.userId, a.isPrimary)) = mirror snapshot job := by
  rw [assignmentsOf_visible visible, List.map_map]
  rfl

theorem supervised_stands {user : Option UserId} {result : List JobAssignment} (made : Edits request.job draws pending)
    (past : ∃ event ∈ trace, reloads event.statement = true) (known : user = mirror (pending stored) request.job)
    (visible : jobInScope snapshot request.scope request.job = true) {effect : Outcome Unit} {current : Db}
    (runs : effect = setSupervisor snapshot current request.scope request.job user request.now) :
    Stands stored request trace draws (effect.change ∘ pending)
      (.ready (orFail (fun _ => .done (.commit (.ok result))) effect.answer)) := by
  rw [setSupervisor, if_pos visible] at runs
  split at runs
  · subst runs
    exact .failed
  · subst runs
    exact .supervised made past known

end Steps

theorem stands_kept {i : Nat} {tx later : Running} {label : Label Request (Option PortError)} {config : Runs}
    {committed : Db} {serial : Int} {starts : Db → Prop} {permits : Runs → Label Request (Option PortError) → Bool}
    (acts : Acts (assignments starts permits) config i tx label committed serial later)
    (drawn : ∀ id ∈ tx.draws, id < config.serial)
    (visible : jobInScope config.committed tx.request.scope tx.request.job = true)
    (stands : Stands config.committed tx.request tx.trace tx.draws tx.pending tx.phase) :
    Stands config.committed later.request later.trace later.draws later.pending later.phase := by
  obtain ⟨request, trace, held, draws, pending, phase⟩ := tx
  dsimp only at visible stands drawn
  cases acts with
  | start shape =>
    dsimp only at shape
    subst shape
    have seen : ∀ made : Edits request.job draws pending,
        jobInScope (pending config.committed) request.scope request.job = true := by
      intro made
      rw [jobInScope, made.jobs]
      exact visible
    cases stands with
    | editing made shape =>
      cases shape with
      | reload => exact .reloads made (seen made) rfl
      | edit kind rest => exact .edits made kind rest
    | supervising made past known => exact .supervises made past known (seen made)
  | @run env snapshot statement next effect shape runs free =>
    dsimp only at shape runs
    subst shape
    cases env with
    | some fault =>
      subst runs
      cases stands with
      | edits made kind rest => exact .editing made.grow (rest _)
      | reloads made seen same => exact .failed
      | supervises made past known seen => exact .failed
    | none =>
      cases stands with
      | edits made kind rest =>
        refine .editing (made.comp (perform_edits kind runs) ?_) (rest _)
        intro id new old
        obtain ⟨n, -, rfl⟩ := List.mem_map.mp new
        have := drawn _ old
        omega
      | reloads made seen same =>
        subst runs
        refine .supervising made.grow
          ⟨_, List.mem_append_right _ (List.mem_singleton_self _), rfl⟩ ?_
        exact (reloaded_mirror seen).trans (same_mirror same).symm
      | supervises made past known seen =>
        obtain ⟨event, member, own⟩ := past
        exact supervised_stands made.grow ⟨event, List.mem_append_left _ member, own⟩ known seen runs
  | commit shape => exact .committed
  | rollback shape => exact .undone
  | abort live => exact .undone

section Hidden
variable {job : JobId} {scope : CompanyId} {snapshot current : Db}

theorem mark_nothing {primary : Bool} : mark job [] primary = id := by
  funext db
  have keeps : ∀ a : JobAssignmentRow, Keyed.key { a with isPrimary := primary } = Keyed.key a := fun _ => rfl
  have same := @Table.update_eq_self _ _ db.jobAssignments (fun a => a.jobId = job && a.id ∈ ([] : List Int)) _ keeps
    fun a _ => by simp
  rw [mark, same]
  rfl

theorem unassign_nothing : unassign job [] = id := by
  funext db
  have same := @Table.delete_eq_self _ _ db.jobAssignments (fun a => a.jobId = job && a.id ∈ ([] : List Int))
    fun a _ => by simp
  rw [unassign, same]
  rfl

theorem hidden_present {p : JobAssignmentRow → Bool} (hidden : jobInScope snapshot scope job = false) :
    present snapshot current scope job p = [] := by
  simp [present, listed, hidden]

theorem hidden_changes {serial : Int} {query : Query} (hidden : jobInScope snapshot scope job = false) :
    (perform snapshot current scope job serial query).change = id := by
  cases query with
  | countAssignments => rfl
  | lockJob => rfl
  | clearPrimary =>
    rw [perform, clearPrimary, hidden_present hidden]
    exact mark_nothing
  | insertAssignment user primary now =>
    rw [perform, insertAssignment, hidden]
    rfl
  | deleteAssignment user =>
    rw [perform, deleteAssignment, hidden_present hidden]
    exact unassign_nothing
  | makePrimary user =>
    rw [perform, makePrimary, hidden_present hidden]
    exact mark_nothing
  | selectAssignments => rfl
  | setSupervisor user now =>
    rw [perform, setSupervisor, hidden]
    rfl

theorem editing_own {request : Request} {p : Steps} {past : Trace} (shape : Editing request p) :
    p.Obeys (fun _ statement => statement.scope = request.scope ∧ statement.job = request.job) (fun _ _ => True)
      past := by
  induction shape generalizing past with
  | fails => trivial
  | reload =>
    refine ⟨⟨rfl, rfl⟩, fun answer => ?_⟩
    cases answer with
    | error e => trivial
    | ok result =>
      refine ⟨⟨rfl, rfl⟩, fun answer => ?_⟩
      cases answer <;> trivial
  | edit kind rest ih => exact ⟨⟨rfl, rfl⟩, fun answer => ih answer⟩

theorem hidden_kept {i : Nat} {tx later : Running} {label : Label Request (Option PortError)} {config : Runs}
    {committed : Db} {serial : Int} {starts : Db → Prop} {permits : Runs → Label Request (Option PortError) → Bool}
    (acts : Acts (assignments starts permits) config i tx label committed serial later)
    (own : ∀ snapshot statement next, tx.phase = .started snapshot statement next →
      statement.scope = tx.request.scope ∧ statement.job = tx.request.job)
    (unseen : jobInScope config.committed tx.request.scope tx.request.job = false) (hidden : Hidden tx) :
    Hidden later := by
  obtain ⟨request, trace, held, draws, pending, phase⟩ := tx
  obtain ⟨rfl, snapshots⟩ := hidden
  cases acts with
  | start shape =>
    refine ⟨rfl, fun snapshot statement next begun => ?_⟩
    cases begun
    exact unseen
  | @run env snapshot statement next effect shape runs free =>
    refine ⟨?_, fun _ _ _ begun => by cases begun⟩
    have passed := snapshots _ _ _ shape
    obtain ⟨scope, job⟩ := own _ _ _ shape
    cases env with
    | some fault =>
      subst runs
      rfl
    | none =>
      have nothing : effect.change = id := by
        rw [runs]
        refine hidden_changes ?_
        rw [scope, job]
        exact passed
      simp only [Transaction.ran, nothing, Function.comp_id]
  | commit shape => exact ⟨rfl, fun _ _ _ begun => by cases begun⟩
  | rollback shape => exact ⟨rfl, fun _ _ _ begun => by cases begun⟩
  | abort live => exact ⟨rfl, fun _ _ _ begun => by cases begun⟩

end Hidden

/- What a commit writes. -/

structure Writes (stored : Db) (job : JobId) (later : Db) : Prop where
  visible : ∀ scope other, jobInScope later scope other = jobInScope stored scope other
  rows : ∀ other, other ≠ job → rowsOf later other = rowsOf stored other
  jobs : ∀ other, other ≠ job → later.jobs.find other = stored.jobs.find other
  own : Mirrors job later ∨ later = stored

section Commit
variable {stored : Db} {tx : Running} {result : Except PortError (List JobAssignment)}

theorem supervise_find {db : Db} {job other : JobId} {user : Option UserId} {now : Instant} :
    (supervise job user now db).jobs.find other = (db.jobs.find other).map fun j =>
      if j.id = job then { j with supervisorId := user, updatedAt := now } else j := by
  have keeps : ∀ j : JobRow, Keyed.key { j with supervisorId := user, updatedAt := now } = Keyed.key j := fun _ => rfl
  have found := @Table.find_update _ _ db.jobs other (fun j => j.id = job) _ keeps
  simp only [decide_eq_true_eq] at found
  exact found

theorem placed_commit (placed : Placed stored tx) (shape : tx.phase = .ready (.done (.commit result)))
    (unused : ∀ id ∈ tx.draws, ¬ Uses stored id) : Writes stored tx.request.job (tx.pending stored) := by
  obtain ⟨request, trace, held, draws, pending, phase⟩ := tx
  dsimp only at shape unused ⊢
  subst shape
  rw [Placed] at placed
  split at placed
  · dsimp only at placed
    cases placed with
    | editing made shape => cases shape
    | supervised made past known =>
      refine ⟨?_, made.others stored unused, ?_, .inl ?_⟩
      · intro scope other
        rw [Function.comp_apply, jobInScope, supervise_find, made.jobs, jobInScope]
        cases stored.jobs.find other with
        | none => rfl
        | some j =>
          rw [Option.map_some, Option.any_some, Option.any_some]
          split <;> rfl
      · intro other elsewhere
        rw [Function.comp_apply, supervise_find, made.jobs]
        cases found : stored.jobs.find other with
        | none => rfl
        | some j =>
          have apart : j.id ≠ request.job := fun same => elsewhere ((Table.find_eq_some_iff.mp found).2.symm.trans same)
          rw [Option.map_some, if_neg apart]
      · intro row found
        rw [Function.comp_apply, supervise_find] at found
        obtain ⟨old, located, rfl⟩ := Option.map_eq_some_iff.mp found
        have same : old.id = request.job := (Table.find_eq_some_iff.mp located).2
        rw [if_pos same]
        exact known
  · have nothing := placed.pending
    dsimp only at nothing
    subst nothing
    exact ⟨fun _ _ => rfl, fun _ _ => rfl, fun _ _ => rfl, .inr rfl⟩

theorem writes_mirrors {job other : JobId} {later : Db} (writes : Writes stored other later) (mirrors : Mirrors job stored) :
    Mirrors job later := by
  by_cases same : job = other
  · subst same
    rcases writes.own with mirrored | rfl
    · exact mirrored
    · exact mirrors
  · intro row found
    rw [writes.jobs job same] at found
    rw [mirrors row found]
    exact (same_mirror (writes.rows job same)).symm

theorem stands_after {later : Db} (stands : Stands stored tx.request tx.trace tx.draws tx.pending tx.phase)
    (same : tx.begun reloads = true → rowsOf later tx.request.job = rowsOf stored tx.request.job) :
    Stands later tx.request tx.trace tx.draws tx.pending tx.phase := by
  obtain ⟨request, trace, held, draws, pending, phase⟩ := tx
  dsimp only at stands same ⊢
  cases stands with
  | editing made shape => exact .editing made shape
  | edits made kind rest => exact .edits made kind rest
  | reloads made visible read =>
    exact .reloads made visible ((made.own _ _ (same (begun_started rfl rfl))).trans read)
  | supervising made past known =>
    exact .supervising made past (known.trans (same_mirror (made.own _ _ (same (begun_past rfl past)))).symm)
  | supervises made past known visible =>
    exact .supervises made past (known.trans (same_mirror (made.own _ _ (same (begun_past rfl past)))).symm) visible
  | supervised made past known =>
    exact .supervised made past (known.trans (same_mirror (made.own _ _ (same (begun_past rfl past)))).symm)
  | failed => exact .failed
  | committed => exact .committed
  | undone => exact .undone

end Commit

section Runs
variable {starts : Db → Prop} {permits : Runs → Label Request (Option PortError) → Bool} {config : Runs}

theorem assignments_fresh (reached : (assignments starts permits).machine.Reachable config) : Fresh Uses config := by
  apply draws_fresh ?_ ?_ reached
  · rintro store serial ⟨-, below⟩ id ⟨a, member, rfl⟩
    exact below a member
  · intro env serial statement snapshot current store id used
    cases env with
    | some fault => exact .inl used
    | none =>
      obtain ⟨scope, job, query⟩ := statement
      by_cases kind : edits query = true
      · rcases (perform_edits kind rfl).uses store id used with old | drawn
        · exact .inl old
        · obtain ⟨n, below, rfl⟩ := List.mem_map.mp drawn
          have := List.mem_range.mp below
          exact .inr ⟨by omega, Int.add_lt_add_left (Int.ofNat_lt.mpr this) serial⟩
      · cases query with
        | selectAssignments => exact .inl used
        | setSupervisor user now =>
          simp only [assignments, execute, perform, setSupervisor] at used
          split at used
          · split at used
            · exact .inl used
            · exact .inl used
          · exact .inl used
        | _ => exact absurd rfl kind

/-- A statement that has started is about the job its call was made for. -/
theorem started_own (reached : (assignments starts permits).machine.Reachable config) {i : Nat} {tx : Running}
    (found : config.transactions[i]? = some tx) : ∀ snapshot statement next, tx.phase = .started snapshot statement next →
      statement.scope = tx.request.scope ∧ statement.job = tx.request.job := by
  intro snapshot statement next shape
  have obeys := transactions_obey
    (fun request _ statement => statement.scope = request.scope ∧ statement.job = request.job) (fun _ _ _ => True)
    (fun request => editing_own program_editing) reached i tx found
  rw [Transaction.Obeys, shape] at obeys
  exact obeys.1

theorem placed_kept {i : Nat} {tx later : Running} {label : Label Request (Option PortError)} {committed : Db}
    {serial : Int} (reached : (assignments starts permits).machine.Reachable config)
    (found : config.transactions[i]? = some tx)
    (acts : Acts (assignments starts permits) config i tx label committed serial later)
    (placed : Placed config.committed tx) : Placed committed later := by
  have fresh := assignments_fresh reached
  have request : later.request = tx.request := by cases acts <;> rfl
  have visible : jobInScope committed tx.request.scope tx.request.job =
      jobInScope config.committed tx.request.scope tx.request.job := by
    have alive := acts.live
    cases acts with
    | commit shape => exact (placed_commit placed shape (fresh.unused i tx found alive)).visible _ _
    | _ => rfl
  rw [Placed, request, visible]
  rw [Placed] at placed
  split at placed
  · next seen =>
    rw [if_pos seen, ← request]
    have kept := stands_kept acts (fresh.drawn i tx found) seen placed
    cases acts with
    | commit shape => exact .committed
    | _ => exact kept
  · next unseen =>
    rw [if_neg unseen]
    exact hidden_kept acts (started_own reached found) (by simpa using unseen) placed

theorem calls_placed (reached : (assignments starts (separately clashes)).machine.Reachable config) :
    ∀ (i : Nat) tx, config.transactions[i]? = some tx → Placed config.committed tx := by
  apply transactions_keep Placed ?_ ?_ ?_ reached
  · intro config request _ _
    rw [Placed]
    split
    · exact .editing edits_nothing program_editing
    · exact ⟨rfl, fun _ _ _ begun => by cases begun⟩
  · intro config i tx label committed serial later visited _ found acts placed
    exact placed_kept visited found acts placed
  · intro config i j tx mover result visited permitted elsewhere found moves shape placed moverPlaced
    have alive : mover.live = true := by rw [Transaction.live, shape]
    have writes := placed_commit moverPlaced shape ((assignments_fresh visited).unused j mover moves alive)
    rw [Placed, writes.visible]
    rw [Placed] at placed
    split at placed
    · next seen =>
      rw [if_pos seen]
      refine stands_after placed fun begun => writes.rows _ ?_
      intro same
      have allowed : separately clashes config (.finish j : Label Request (Option PortError)) = true := permitted
      have clear := separately_commit allowed elsewhere found moves shape
      simp [clashes, same, begun] at clear
    · next unseen =>
      rw [if_neg unseen]
      exact placed

theorem supervisor_follows {job : JobId}
    (reached : (assignments (Mirrors job) (separately clashes)).machine.Reachable config) : Mirrors job config.committed := by
  apply Reachable.induction (fun config => Mirrors job config.committed) reached
  · exact fun start initial => initial.1.1
  · intro before after label visited mirrors permitted step
    rcases step_cases step with ⟨request, -, rfl⟩ | ⟨i, tx, committed, serial, later, found, acts, rfl⟩
    · exact mirrors
    · have alive := acts.live
      cases acts with
      | commit shape =>
        exact writes_mirrors (placed_commit (calls_placed visited i tx found) shape
          ((assignments_fresh visited).unused i tx found alive)) mirrors
      | _ => exact mirrors

end Runs

/- A job has two supervisors, and both are taken off it. -/

def twoAssigned : Db :=
  { SupervisorMirror.newCompany with
    users := .of [.plain 8 1 (text "Tom") (text "tom@example.com") (text "SUPERVISOR") (Eq.refl true),
      .plain 9 1 (text "Ann") (text "ann@example.com") (text "SUPERVISOR") (Eq.refl true)] 10 (Eq.refl true)
    jobs := .of [{ JobStore.newJob 1 0 SupervisorMirror.jobForm 1 with supervisorId := some 8 }] 2 (Eq.refl true)
    jobAssignments := .of [⟨1, 1, 8, true, 0⟩, ⟨2, 1, 9, false, 1⟩] 3 (Eq.refl true) }

def idle : Runs := ⟨twoAssigned, 3, []⟩

theorem idle_initial (permits : Runs → Label Request (Option PortError) → Bool) :
    (assignments (Mirrors 1) permits).machine.initial idle := by
  refine ⟨⟨fun row found => ?_, by decide⟩, rfl⟩
  cases found
  rfl

def removals : List (Label Request (Option PortError)) :=
  [.begin ⟨1, 1, 2, .removeAssignment 8⟩, .begin ⟨1, 1, 2, .removeAssignment 9⟩]

/-- The second call reloads when the first has committed. -/
def inTurn : List (Label Request (Option PortError)) :=
  removals ++ turns none 0 1 ++ turns none 1 1 ++ turns none 0 2 ++ [.finish 0] ++ turns none 1 2 ++ [.finish 1]

/-- Each call reloads while the other has not committed, and sees the assignment that the other removes. -/
def overlapping : List (Label Request (Option PortError)) :=
  removals ++ turns none 0 1 ++ turns none 1 1 ++ turns none 0 2 ++ turns none 1 1 ++ [.finish 0] ++ turns none 1 1 ++
    [.finish 1]

theorem in_turn_mirrored : ∃ config, (assignments (Mirrors 1) (separately clashes)).machine.Reachable config ∧
    config.committed.jobAssignments.rows = [] ∧ config.committed.jobs.rows.map (·.supervisorId) = [none] ∧
    Mirrors 1 config.committed := by
  have run : ∃ config, (assignments (Mirrors 1) (separately clashes)).machine.execute idle inTurn = some config ∧
      config.committed.jobAssignments.rows = [] ∧ config.committed.jobs.rows.map (·.supervisorId) = [none] :=
    ⟨_, rfl, by decide +kernel, by decide +kernel⟩
  obtain ⟨config, ran, left, named⟩ := run
  have reached := execute_reachable (idle_initial _) ran
  exact ⟨config, reached, left, named, supervisor_follows reached⟩

theorem overlapping_unmirrored : ∃ config, (assignments (Mirrors 1) fun _ _ => true).machine.Reachable config ∧
    (∀ tx ∈ config.transactions, tx.live = false) ∧ config.committed.jobAssignments.rows = [] ∧
    config.committed.jobs.rows.map (·.supervisorId) = [some 8] ∧ ¬ Mirrors 1 config.committed := by
  have run : ∃ config, (assignments (Mirrors 1) fun _ _ => true).machine.execute idle overlapping = some config ∧
      (∀ tx ∈ config.transactions, tx.live = false) ∧ config.committed.jobAssignments.rows = [] ∧
      config.committed.jobs.rows.map (·.supervisorId) = [some 8] ∧
      ∃ row, config.committed.jobs.find 1 = some row ∧ row.supervisorId ≠ mirror config.committed 1 :=
    ⟨_, rfl, by decide +kernel, by decide +kernel, by decide +kernel, _, rfl, by decide +kernel⟩
  obtain ⟨config, ran, ended, left, named, row, found, apart⟩ := run
  exact ⟨config, execute_reachable (idle_initial _) ran, ended, left, named, fun mirrors => apart (mirrors row found)⟩

end MirrorCommits
