import PmKonstruct.Forms.EtoPrograms
import PmKonstruct.Diary.NoteIsolation

/- The numbers of the extras of a job under any interleaving. The place of the job in the sequences is taken by the
   upsert and held to the end, so whoever allocated a number is the next one to commit on that job, and a transaction
   that ends without a commit gives its number back. -/
namespace EtoNumbering
open DomainErrors Accounts Schema KeyedTable TransitionRuns ReadCommitted EtoPrograms
open StatementProgram (Event filterMap_set getElem?_append_cases)
open EtoStore (EtoRaised)
open PlainText (text)

/- The rows of the sequences. -/

theorem nextOf_putSequence {rows : List EtoJobSequenceRow} {job : JobId} {next : Int} :
    nextOf (putSequence job next rows) job = some next := by
  induction rows with
  | nil => simp [putSequence, nextOf]
  | cons row rest ih =>
    by_cases same : row.jobId = job
    · simp [putSequence, nextOf, same]
    · simpa [putSequence, nextOf, same] using ih

theorem nextOf_putSequence_apart {rows : List EtoJobSequenceRow} {job other : JobId} {next : Int} (apart : job ≠ other) :
    nextOf (putSequence job next rows) other = nextOf rows other := by
  induction rows with
  | nil => simp [putSequence, nextOf, apart]
  | cons row rest ih =>
    by_cases same : row.jobId = job
    · simp [putSequence, nextOf, same, apart]
    · rw [putSequence, if_neg same]
      by_cases here : row.jobId = other
      · simp [nextOf, here]
      · simpa [nextOf, here] using ih

/-- The number that the next extra of the job is to have. -/
def following (rows : List EtoJobSequenceRow) (job : JobId) : Int := (nextOf rows job).getD 1

/-- The upsert fails, or gives the next number of the rows as they are and takes the place of the job. -/
theorem allocateNumber_cases (snapshot current : Db) (scope : CompanyId) (job : JobId) :
    (∃ e, allocateNumber snapshot current scope job = failing e) ∨
    allocateNumber snapshot current scope job =
      { answer := .ok (following current.etoJobSequences job)
        change := fun db => { db with
          etoJobSequences := putSequence job (following current.etoJobSequences job + 1) db.etoJobSequences }
        awaits := []
        takes := [.sequence job]
        drawn := 0 } := by
  rw [allocateNumber, following]
  split
  · exact .inl ⟨_, rfl⟩
  · rw [bumped]
    cases nextOf current.etoJobSequences job with
    | none => exact .inr rfl
    | some number =>
      dsimp only
      split
      · right
        rw [Option.getD_some, Int.add_sub_cancel]
      · exact .inl ⟨_, rfl⟩

/- The programs, whatever they are answered. -/

abbrev Trace : Type := List (Event Statement Answer)

def allocation : Event Statement Answer → Option (JobId × Int)
  | ⟨⟨_, .allocateNumber job⟩, .ok number⟩ => some (job, number)
  | _ => none

def allocated (trace : Trace) : List (JobId × Int) := trace.filterMap allocation

/-- A call allocates once, for its own job. -/
def At (request : Request) (past : Trace) (statement : Statement) : Prop :=
  match statement.query with
  | .allocateNumber job => job = request.input.jobId ∧ allocated past = []
  | _ => True

/-- A commit returns the number that was allocated. -/
def Ends (request : Request) (past : Trace) : Ending Result → Prop
  | .commit result => ∃ raised, result = .ok raised ∧ allocated past = [(request.input.jobId, raised.etoNumber)]
  | .rollback _ => True

section Programs
variable {request : Request}

theorem obeys_ask {query : Query} {next : Reply query → Steps} {past : Trace}
    (here : At request past ⟨request.scope, query⟩)
    (later : ∀ reply, (next reply).Obeys (At request) (Ends request)
      (past ++ [⟨⟨request.scope, query⟩, .ok reply⟩])) :
    (ask request.scope query next).Obeys (At request) (Ends request) past := by
  refine ⟨here, fun answer => ?_⟩
  cases answer with
  | error e => trivial
  | ok reply => exact later reply

theorem raiseEto_obeys : (raiseEto request).Obeys (At request) (Ends request) [] := by
  rw [raiseEto]
  refine obeys_ask trivial fun found => ?_
  cases found with
  | none => trivial
  | some job =>
    refine obeys_ask ⟨rfl, rfl⟩ fun number => ?_
    refine obeys_ask trivial fun entry => ?_
    refine obeys_ask trivial fun note => ?_
    exact ⟨_, rfl, rfl⟩

end Programs

theorem raisings_obey {initial : Db → Int → Prop} {config : Raisings} (reached : (raising initial).machine.Reachable config) :
    ∀ (i : Nat) tx, config.transactions[i]? = some tx → tx.Obeys (At tx.request) (Ends tx.request) :=
  transactions_obey At Ends (fun _ => raiseEto_obeys) reached

/- What a call has done to the sequences so far. -/

/-- It has left them as they are, or holds the place of its job and has moved it past the number it was given. -/
def Moved (stored : Db) (tx : Raising) : Prop :=
  match allocated tx.trace with
  | [] => ∀ db, (tx.pending db).etoJobSequences = db.etoJobSequences
  | [(job, number)] => following stored.etoJobSequences job = number ∧ .sequence job ∈ tx.held ∧
      ∀ db, (tx.pending db).etoJobSequences = putSequence job (number + 1) db.etoJobSequences
  | _ => False

def Sound (stored : Db) (tx : Raising) : Prop := tx.live = true → Moved stored tx

section Moves
variable {initial : Db → Int → Prop} {config : Raisings} {stored : Db} {tx mover : Raising} {snapshot : Db} {serial : Int}

/-- A statement that allocates nothing has no part in the sequences. -/
theorem moved_aside {statement : Statement} {next : Answer statement → Steps} {effect : Effect (Answer statement) Db Lock}
    (moved : Moved stored tx) (nothing : allocation ⟨statement, effect.answer⟩ = none)
    (aside : ∀ db, (effect.change db).etoJobSequences = db.etoJobSequences) :
    Moved stored (tx.ran serial next effect) := by
  have same : allocated (tx.ran serial next effect).trace = allocated tx.trace := by
    rw [allocated, Transaction.filterMap_ran, nothing, Option.toList_none, List.append_nil, allocated]
  rw [Moved] at moved ⊢
  rw [same]
  split at moved
  · exact fun db => (aside _).trans (moved db)
  · obtain ⟨number, held, pending⟩ := moved
    exact ⟨number, List.mem_append_left _ held, fun db => (aside _).trans (pending db)⟩
  · exact moved

theorem moved_allocated {scope : CompanyId} {job : JobId} {next : Answer ⟨scope, .allocateNumber job⟩ → Steps}
    {effect : Effect (Except PortError Int) Db Lock} (moved : Moved stored tx) (first : allocated tx.trace = [])
    (runs : effect = allocateNumber snapshot (tx.pending stored) scope job) :
    Moved stored (@Transaction.ran _ _ _ _ _ _ tx serial ⟨scope, .allocateNumber job⟩ next effect) := by
  rcases allocateNumber_cases snapshot (tx.pending stored) scope job with ⟨e, fails⟩ | allocates
  · rw [runs, fails]
    exact moved_aside moved rfl fun _ => rfl
  · rw [Moved, first] at moved
    rw [moved] at allocates
    rw [runs, allocates, Moved]
    have given : allocated (@Transaction.ran _ _ _ _ _ _ tx serial ⟨scope, .allocateNumber job⟩ next
        { answer := .ok (following stored.etoJobSequences job)
          change := fun db => { db with
            etoJobSequences := putSequence job (following stored.etoJobSequences job + 1) db.etoJobSequences }
          awaits := []
          takes := [Lock.sequence job]
          drawn := 0 }).trace = [(job, following stored.etoJobSequences job)] := by
      rw [allocated, Transaction.filterMap_ran, ← allocated, first]
      rfl
    rw [given]
    refine ⟨rfl, List.mem_append_right _ (List.mem_singleton_self _), fun db => ?_⟩
    exact congrArg (putSequence job _) (moved db)

theorem moved_ran {fault : Option PortError} {statement : Statement} {next : Answer statement → Steps}
    (moved : Moved stored tx) (here : At tx.request tx.trace statement) :
    Moved stored (tx.ran serial next (execute fault serial statement snapshot (tx.pending stored))) := by
  obtain ⟨scope, query⟩ := statement
  cases fault with
  | some e => exact moved_aside moved (by cases query <;> rfl) fun _ => rfl
  | none =>
    cases query with
    | selectJob job => exact moved_aside moved rfl fun _ => rfl
    | allocateNumber job => exact moved_allocated moved here.2 rfl
    | insertEntry job author date workCompleted =>
      refine moved_aside moved rfl fun db => ?_
      simp only [execute, perform, insertEntry]
      split <;> rfl
    | insertNote entry content raisedBy now =>
      refine moved_aside moved rfl fun db => ?_
      simp only [execute, perform, insertNote]
      split <;> rfl

/-- A commit puts the sequence of its job past the number it returns, which was the next one. -/
theorem committing {result : Result} (obeys : mover.Obeys (At mover.request) (Ends mover.request))
    (sound : Sound stored mover) (shape : mover.phase = .ready (.done (.commit result))) :
    ∃ raised, result = .ok raised ∧ following stored.etoJobSequences mover.request.input.jobId = raised.etoNumber ∧
      .sequence mover.request.input.jobId ∈ mover.held ∧ ∀ db, (mover.pending db).etoJobSequences =
        putSequence mover.request.input.jobId (raised.etoNumber + 1) db.etoJobSequences := by
  rw [Transaction.Obeys, shape] at obeys
  obtain ⟨raised, returned, number⟩ := obeys
  have moved := sound (by rw [Transaction.live, shape])
  rw [Moved, number] at moved
  exact ⟨raised, returned, moved⟩

theorem calls_sound (reached : (raising initial).machine.Reachable config) :
    ∀ (i : Nat) tx, config.transactions[i]? = some tx → Sound config.committed tx := by
  apply transactions_keep Sound ?_ ?_ ?_ reached
  · intro config request _ _ _ db
    rfl
  · intro config i tx label committed serial later visited _ found acts sound alive
    have obeys := raisings_obey visited i tx found
    have moved := sound acts.live
    cases acts with
    | start shape => exact moved
    | run effect shape runs free =>
      rw [Transaction.Obeys, shape] at obeys
      subst runs
      exact moved_ran moved obeys.1
    | commit shape => cases alive
    | rollback shape => cases alive
    | abort live => cases alive
  · intro config i j tx mover result visited _ elsewhere found moves shape sound moverSound alive
    obtain ⟨raised, -, -, place, pending⟩ := committing (raisings_obey visited j mover moves) moverSound shape
    have exclusive := locks_exclusive (fun a b => by simp [raising, eq_comm]) visited i j tx mover found moves elsewhere
    have moved := sound alive
    rw [Moved] at moved ⊢
    split at moved
    · exact moved
    · next job number given =>
      obtain ⟨current, held, own⟩ := moved
      have apart : mover.request.input.jobId ≠ job := by
        rintro rfl
        exact of_decide_eq_false (exclusive _ held _ place) rfl
      refine ⟨?_, held, own⟩
      rw [pending, following, nextOf_putSequence_apart apart]
      exact current
    · exact moved

end Moves

/- The numbers that were given out. -/

/-- The number a committed call returned, if it was for this job. -/
def returned (job : JobId) (tx : Raising) : Option Int :=
  match tx.phase with
  | .committed (.ok raised) => if tx.request.input.jobId = job then some raised.etoNumber else none
  | _ => none

def numbersOf (config : Raisings) (job : JobId) : List Int := config.transactions.filterMap (returned job)

/-- The numbers are those from 1 to some `k`, each of them once, and the sequence is at `k + 1`. -/
def Consecutive (rows : List EtoJobSequenceRow) (job : JobId) (numbers : List Int) : Prop :=
  ∃ k : Nat, numbers.Perm ((List.range k).map fun n : Nat => (n : Int) + 1) ∧
    nextOf rows job = if k = 0 then none else some ((k : Int) + 1)

section Numbers
variable {initial : Db → Int → Prop} {config after : Raisings} {job : JobId} {rows : List EtoJobSequenceRow}

theorem following_next {k : Nat}
    (next : nextOf rows job = if k = 0 then none else some ((k : Int) + 1)) : following rows job = (k : Int) + 1 := by
  rw [following, next]
  split
  · next none => simp [none]
  · rfl

/-- The next number may stand anywhere among the others. -/
theorem Consecutive.grows {earlier later : List Int} (numbers : Consecutive rows job (earlier ++ later)) :
    Consecutive (putSequence job (following rows job + 1) rows) job
      (earlier ++ [following rows job] ++ later) := by
  obtain ⟨k, all, next⟩ := numbers
  have new := following_next next
  refine ⟨k + 1, ?_, ?_⟩
  · calc earlier ++ [following rows job] ++ later
      _ = earlier ++ ([following rows job] ++ later) := List.append_assoc _ _ _
      List.Perm _ (earlier ++ (later ++ [following rows job])) := List.perm_append_comm.append_left earlier
      _ = (earlier ++ later) ++ [(k : Int) + 1] := by rw [List.append_assoc, new]
      List.Perm _ ((List.range k).map (fun n : Nat => (n : Int) + 1) ++ [(k : Int) + 1]) := all.append_right _
      _ = (List.range (k + 1)).map fun n : Nat => (n : Int) + 1 := by rw [List.range_succ, List.map_append]; rfl
  · rw [nextOf_putSequence, new, if_neg (Nat.succ_ne_zero k)]
    push_cast
    rfl

theorem returned_live {tx : Raising} (live : tx.live = true) : returned job tx = none := by
  rw [Transaction.live] at live
  rw [returned]
  split at live
  · next shape => rw [shape]
  · next shape => rw [shape]
  · cases live
  · cases live

theorem numbers_step {label : Label Request (Option PortError)} (reached : (raising initial).machine.Reachable config)
    (numbers : Consecutive config.committed.etoJobSequences job (numbersOf config job))
    (step : (raising initial).step config label = some after) :
    Consecutive after.committed.etoJobSequences job (numbersOf after job) := by
  rcases step_cases step with ⟨request, -, rfl⟩ | ⟨i, tx, committed, serial, later, found, acts, rfl⟩
  · have same : numbersOf { config with transactions := config.transactions ++ [(raising initial).opened request] } job =
        numbersOf config job := by
      simp [numbersOf, returned, Database.opened]
    rw [same]
    exact numbers
  · obtain ⟨earlier, rest, old, new⟩ := filterMap_set (returned job) later found
    rw [returned_live acts.live, Option.toList_none, List.append_nil] at old
    rw [numbersOf, old] at numbers
    have quiet : returned job later = none → nextOf committed.etoJobSequences job =
        nextOf config.committed.etoJobSequences job → Consecutive committed.etoJobSequences job
          ((config.transactions.set i later).filterMap (returned job)) := by
      intro nothing same
      rw [new, nothing, Option.toList_none, List.append_nil, Consecutive, same]
      exact numbers
    cases acts with
    | start shape => exact quiet rfl rfl
    | run effect shape runs free => exact quiet rfl rfl
    | rollback shape => exact quiet rfl rfl
    | abort live => exact quiet rfl rfl
    | commit shape =>
      obtain ⟨raised, rfl, current, -, pending⟩ :=
        committing (raisings_obey reached i tx found) (calls_sound reached i tx found) shape
      by_cases own : tx.request.input.jobId = job
      · have number : returned job (tx.close (.committed (.ok raised))) = some raised.etoNumber := if_pos own
        rw [own] at current pending
        show Consecutive _ job ((config.transactions.set i _).filterMap (returned job))
        rw [new, number, pending, ← current]
        exact numbers.grows
      · refine quiet (if_neg own) ?_
        rw [pending, nextOf_putSequence_apart own]

theorem numbers_consecutive (unnumbered : ∀ db serial, initial db serial → nextOf db.etoJobSequences job = none)
    (reached : (raising initial).machine.Reachable config) :
    Consecutive config.committed.etoJobSequences job (numbersOf config job) := by
  apply Reachable.induction (fun config => Consecutive config.committed.etoJobSequences job (numbersOf config job)) reached
  · intro start ⟨ready, idle⟩
    refine ⟨0, ?_, unnumbered _ _ ready⟩
    simp [numbersOf, idle]
  · intro before after label visited numbers _ step
    exact numbers_step visited numbers step

end Numbers

/- Three calls on one job and one on another. The first allocates and is lost, and the second, which waited for it, is
   given its number. -/

def twoJobs : Db :=
  { Db.empty with
    users := .of [.plain 7 1 (text "Ann") (text "ann@example.com") (text "SUPERVISOR") (Eq.refl true)] 8 (Eq.refl true)
    jobs := .of [NoteIsolation.jobOf 1 1 none, NoteIsolation.jobOf 2 1 none] 3 (Eq.refl true) }

def fresh (db : Db) (serial : Int) : Prop := db = twoJobs ∧ serial = 1

def extra (job : JobId) : Request := ⟨1, 7, text "Ann", ⟨job, text "Rock", text "Hire a breaker"⟩, 20588, 0⟩

def contended : List (Label Request (Option PortError)) :=
  [.begin (extra 1), .begin (extra 1), .begin (extra 1), .begin (extra 2)] ++ turns none 0 2 ++ turns none 1 1 ++
    [.start 1, .abort 0, .run 1 none] ++ turns none 1 2 ++ turns none 3 4 ++ [.finish 1, .finish 3] ++ turns none 2 4 ++
    [.finish 2]

theorem number_given_back : ∃ config, (raising fresh).machine.Reachable config ∧
    numbersOf config 1 = [1, 2] ∧ numbersOf config 2 = [1] ∧
    Consecutive config.committed.etoJobSequences 1 (numbersOf config 1) := by
  have run : ∃ config, (raising fresh).machine.execute ⟨twoJobs, 1, []⟩ contended = some config ∧
      numbersOf config 1 = [1, 2] ∧ numbersOf config 2 = [1] :=
    ⟨_, rfl, by decide +kernel, by decide +kernel⟩
  obtain ⟨config, ran, first, second⟩ := run
  have start : (raising fresh).machine.initial ⟨twoJobs, 1, []⟩ := ⟨⟨rfl, rfl⟩, rfl⟩
  have reached := execute_reachable start ran
  have unnumbered : ∀ db serial, fresh db serial → nextOf db.etoJobSequences 1 = none := by
    rintro db serial ⟨rfl, -⟩
    rfl
  exact ⟨config, reached, first, second, numbers_consecutive unnumbered reached⟩

end EtoNumbering
