import PmKonstruct.Library.StatementProgram

/- Transactions over a shared store under READ COMMITTED. A statement takes its snapshot when it starts, and runs once
   the locks it needs are free: the snapshot says which rows it looks at, and the rows themselves are read as they are
   by then. What a transaction writes is seen by itself alone until it commits, and its locks are held to its end. -/
namespace ReadCommitted
open TransitionRuns StatementProgram

/-- How a program ends its transaction. -/
inductive Ending (Result : Type) where
  | commit (result : Result)
  | rollback (result : Result)

/-- What running a statement comes to. It waits for some locks and takes others, and may draw new ids. -/
structure Effect (Answer Store Lock : Type) where
  answer : Answer
  change : Store → Store
  awaits : List Lock
  takes : List Lock
  drawn : Nat

/-- What running it on a store alone comes to. -/
def Effect.on {Answer Store Lock : Type} (effect : Effect Answer Store Lock) (store : Store) : Answer × Store :=
  (effect.answer, effect.change store)

/-- A statement that only reads, or that fails. -/
def Effect.answers {Answer Store Lock : Type} (answer : Answer) : Effect Answer Store Lock :=
  ⟨answer, fun store => store, [], [], 0⟩

inductive Phase (Statement : Type) (Answer : Statement → Type) (Result Store : Type) where
  | ready (program : Program Statement Answer (Ending Result))
  | started (snapshot : Store) (statement : Statement) (next : Answer statement → Program Statement Answer (Ending Result))
  | committed (result : Result)
  | undone (result : Option Result)

structure Transaction (Statement : Type) (Answer : Statement → Type) (Result Request Store Lock : Type) where
  request : Request
  trace : List (Event Statement Answer)
  held : List Lock
  draws : List Int
  pending : Store → Store
  phase : Phase Statement Answer Result Store

structure Config (Statement : Type) (Answer : Statement → Type) (Result Request Store Lock : Type) where
  committed : Store
  serial : Int
  transactions : List (Transaction Statement Answer Result Request Store Lock)

/-- A transaction may fail at any time. -/
inductive Label (Request Env : Type) where
  | begin (request : Request)
  | start (transaction : Nat)
  | run (transaction : Nat) (env : Env)
  | finish (transaction : Nat)
  | abort (transaction : Nat)

/-- The statements and what they do, which locks exclude each other, and the condition on the steps of a run. -/
structure Database (Statement : Type) (Answer : Statement → Type) (Result Request Env Store Lock : Type) where
  program : Request → Program Statement Answer (Ending Result)
  execute : Env → Int → (statement : Statement) → Store → Store → Effect (Answer statement) Store Lock
  conflicts : Lock → Lock → Bool
  initial : Store → Int → Prop
  permits : Config Statement Answer Result Request Store Lock → Label Request Env → Bool

variable {Statement : Type} {Answer : Statement → Type} {Result Request Env Store Lock : Type}
    {db : Database Statement Answer Result Request Env Store Lock}

namespace Transaction
variable (tx : Transaction Statement Answer Result Request Store Lock)

def live : Bool :=
  match tx.phase with
  | .ready _ => true
  | .started _ _ _ => true
  | .committed _ => false
  | .undone _ => false

def start (snapshot : Store) (statement : Statement)
    (next : Answer statement → Program Statement Answer (Ending Result)) :
    Transaction Statement Answer Result Request Store Lock :=
  { tx with phase := .started snapshot statement next }

def ran (serial : Int) {statement : Statement} (next : Answer statement → Program Statement Answer (Ending Result))
    (effect : Effect (Answer statement) Store Lock) : Transaction Statement Answer Result Request Store Lock where
  request := tx.request
  trace := tx.trace ++ [⟨statement, effect.answer⟩]
  held := tx.held ++ effect.takes
  draws := tx.draws ++ (List.range effect.drawn).map fun n : Nat => serial + n
  pending := effect.change ∘ tx.pending
  phase := .ready (next effect.answer)

def commits : Bool :=
  match tx.phase with
  | .ready (.done (.commit _)) => true
  | _ => false

/-- It has started a statement of this kind, and has not ended. -/
def begun (kind : Statement → Bool) : Bool :=
  tx.live && (tx.trace.any (fun event => kind event.statement) ||
    match tx.phase with
    | .started _ statement _ => kind statement
    | _ => false)

/-- An ended transaction holds nothing and has nothing left to write. -/
def close (phase : Phase Statement Answer Result Store) : Transaction Statement Answer Result Request Store Lock :=
  { tx with
    held := []
    pending := id
    phase := phase }

end Transaction

/-- What a list of events is read for goes on by the event of the statement that ran. -/
theorem Transaction.filterMap_ran {α : Type} (read : Event Statement Answer → Option α)
    {tx : Transaction Statement Answer Result Request Store Lock} {serial : Int} {statement : Statement}
    {next : Answer statement → Program Statement Answer (Ending Result)}
    {effect : Effect (Answer statement) Store Lock} :
    (tx.ran serial next effect).trace.filterMap read =
      tx.trace.filterMap read ++ (read ⟨statement, effect.answer⟩).toList := by
  rw [Transaction.ran, List.filterMap_append, List.filterMap_cons]
  cases read ⟨statement, effect.answer⟩ <;> rfl

namespace Database

def opened (db : Database Statement Answer Result Request Env Store Lock) (request : Request) :
    Transaction Statement Answer Result Request Store Lock :=
  ⟨request, [], [], [], id, .ready (db.program request)⟩

/-- No other transaction holds a lock that excludes one of these. -/
def free (db : Database Statement Answer Result Request Env Store Lock)
    (config : Config Statement Answer Result Request Store Lock) (i : Nat) (locks : List Lock) : Bool :=
  (config.transactions.eraseIdx i).all fun other =>
    locks.all fun lock => other.held.all fun held => !db.conflicts lock held

def step (db : Database Statement Answer Result Request Env Store Lock)
    (config : Config Statement Answer Result Request Store Lock) :
    Label Request Env → Option (Config Statement Answer Result Request Store Lock)
  | .begin request => some { config with transactions := config.transactions ++ [db.opened request] }
  | .start i =>
    match config.transactions[i]? with
    | none => none
    | some tx =>
      match tx.phase with
      | .ready (.stmt statement next) => some { config with
          transactions := config.transactions.set i (tx.start (tx.pending config.committed) statement next) }
      | _ => none
  | .run i env =>
    match config.transactions[i]? with
    | none => none
    | some tx =>
      match tx.phase with
      | .started snapshot statement next =>
        let effect := db.execute env config.serial statement snapshot (tx.pending config.committed)
        if db.free config i (effect.awaits ++ effect.takes) then
          some ⟨config.committed, config.serial + effect.drawn,
            config.transactions.set i (tx.ran config.serial next effect)⟩
        else none
      | _ => none
  | .finish i =>
    match config.transactions[i]? with
    | none => none
    | some tx =>
      match tx.phase with
      | .ready (.done (.commit result)) => some ⟨tx.pending config.committed, config.serial,
          config.transactions.set i (tx.close (.committed result))⟩
      | .ready (.done (.rollback result)) => some { config with
          transactions := config.transactions.set i (tx.close (.undone (some result))) }
      | _ => none
  | .abort i =>
    match config.transactions[i]? with
    | none => none
    | some tx =>
      if tx.live then some { config with transactions := config.transactions.set i (tx.close (.undone none)) }
      else none

def machine (db : Database Statement Answer Result Request Env Store Lock) :
    Machine (Config Statement Answer Result Request Store Lock) (Label Request Env) where
  initial config := db.initial config.committed config.serial ∧ config.transactions = []
  step := db.step
  allowed := db.permits

end Database

/-- What one transaction can do in a step: the store it leaves committed, the serial, and the transaction after it. -/
inductive Acts (db : Database Statement Answer Result Request Env Store Lock)
    (config : Config Statement Answer Result Request Store Lock) (i : Nat)
    (tx : Transaction Statement Answer Result Request Store Lock) :
    Label Request Env → Store → Int → Transaction Statement Answer Result Request Store Lock → Prop where
  | start {statement : Statement} {next : Answer statement → Program Statement Answer (Ending Result)}
      (shape : tx.phase = .ready (.stmt statement next)) :
      Acts db config i tx (.start i) config.committed config.serial
        (tx.start (tx.pending config.committed) statement next)
  | run {env : Env} {snapshot : Store} {statement : Statement}
      {next : Answer statement → Program Statement Answer (Ending Result)}
      (effect : Effect (Answer statement) Store Lock) (shape : tx.phase = .started snapshot statement next)
      (runs : effect = db.execute env config.serial statement snapshot (tx.pending config.committed))
      (free : db.free config i (effect.awaits ++ effect.takes) = true) :
      Acts db config i tx (.run i env) config.committed (config.serial + effect.drawn)
        (tx.ran config.serial next effect)
  | commit {result : Result} (shape : tx.phase = .ready (.done (.commit result))) :
      Acts db config i tx (.finish i) (tx.pending config.committed) config.serial (tx.close (.committed result))
  | rollback {result : Result} (shape : tx.phase = .ready (.done (.rollback result))) :
      Acts db config i tx (.finish i) config.committed config.serial (tx.close (.undone (some result)))
  | abort (live : tx.live = true) :
      Acts db config i tx (.abort i) config.committed config.serial (tx.close (.undone none))

section Steps
variable {config after : Config Statement Answer Result Request Store Lock} {label : Label Request Env}

theorem step_cases (step : db.step config label = some after) :
    (∃ request, label = .begin request ∧
      after = { config with transactions := config.transactions ++ [db.opened request] }) ∨
    ∃ i tx committed serial later, config.transactions[i]? = some tx ∧
      Acts db config i tx label committed serial later ∧
      after = ⟨committed, serial, config.transactions.set i later⟩ := by
  cases label with
  | begin request =>
    cases step
    exact .inl ⟨request, rfl, rfl⟩
  | start i =>
    simp only [Database.step] at step
    split at step
    · cases step
    · next tx found =>
      split at step
      · next statement next shape =>
        cases step
        exact .inr ⟨i, tx, _, _, _, found, .start shape, rfl⟩
      · cases step
  | run i env =>
    simp only [Database.step] at step
    split at step
    · cases step
    · next tx found =>
      split at step
      · next snapshot statement next shape =>
        split at step
        · next free =>
          cases step
          exact .inr ⟨i, tx, _, _, _, found, .run _ shape rfl free, rfl⟩
        · cases step
      · cases step
  | finish i =>
    simp only [Database.step] at step
    split at step
    · cases step
    · next tx found =>
      split at step
      · next result shape =>
        cases step
        exact .inr ⟨i, tx, _, _, _, found, .commit shape, rfl⟩
      · next result shape =>
        cases step
        exact .inr ⟨i, tx, _, _, _, found, .rollback shape, rfl⟩
      · cases step
  | abort i =>
    simp only [Database.step] at step
    split at step
    · cases step
    · next tx found =>
      split at step
      · next live =>
        cases step
        exact .inr ⟨i, tx, _, _, _, found, .abort live, rfl⟩
      · cases step

end Steps

/- What holds of every transaction of a run. -/

section Rules
variable {config : Config Statement Answer Result Request Store Lock}

/-- A property of the committed store, and one of a transaction against it: they are kept when a transaction's own steps
    keep the second, and every commit keeps both. -/
theorem store_and_transactions_keep (Inv : Store → Prop)
    (Holds : Store → Transaction Statement Answer Result Request Store Lock → Prop)
    (starts : ∀ store serial, db.initial store serial → Inv store)
    (opened : ∀ config request, db.machine.Reachable config → db.permits config (.begin request) = true →
      Inv config.committed → Holds config.committed (db.opened request))
    (own : ∀ config (i : Nat) tx label committed serial later, db.machine.Reachable config → db.permits config label = true →
      config.transactions[i]? = some tx → Acts db config i tx label committed serial later → Inv config.committed →
      Holds config.committed tx → Holds committed later)
    (others : ∀ config (i j : Nat) tx mover result, db.machine.Reachable config →
      db.permits config (.finish j) = true → i ≠ j →
      config.transactions[i]? = some tx → config.transactions[j]? = some mover →
      mover.phase = .ready (.done (.commit result)) → Inv config.committed → Holds config.committed tx →
      Holds config.committed mover → Holds (mover.pending config.committed) tx)
    (commits : ∀ config (j : Nat) mover result, db.machine.Reachable config → db.permits config (.finish j) = true →
      config.transactions[j]? = some mover → mover.phase = .ready (.done (.commit result)) → Inv config.committed →
      Holds config.committed mover → Inv (mover.pending config.committed))
    (reached : db.machine.Reachable config) : Inv config.committed ∧
      ∀ (i : Nat) tx, config.transactions[i]? = some tx → Holds config.committed tx := by
  apply Reachable.induction (fun config => Inv config.committed ∧
    ∀ (i : Nat) tx, config.transactions[i]? = some tx → Holds config.committed tx) reached
  · intro start ⟨initial, idle⟩
    refine ⟨starts _ _ initial, fun i tx found => ?_⟩
    simp [idle] at found
  · rintro before after label visited ⟨inv, holds⟩ permitted step
    rcases step_cases step with ⟨request, rfl, rfl⟩ | ⟨i, old, committed, serial, later, found, acts, rfl⟩
    · refine ⟨inv, fun k tx there => ?_⟩
      rcases getElem?_append_cases there with earlier | rfl
      · exact holds k tx earlier
      · exact opened before request visited permitted inv
    · have mine := own before i old label committed serial later visited permitted found acts inv (holds i old found)
      cases acts with
      | commit shape =>
        refine ⟨commits before i old _ visited permitted found shape inv (holds i old found), fun k tx there => ?_⟩
        rcases getElem?_set_cases found there with ⟨rfl, rfl⟩ | ⟨elsewhere, earlier⟩
        · exact mine
        · exact others before k i tx old _ visited permitted elsewhere earlier found shape inv (holds k tx earlier)
            (holds i old found)
      | _ =>
        refine ⟨inv, fun k tx there => ?_⟩
        rcases getElem?_set_cases found there with ⟨rfl, rfl⟩ | ⟨-, earlier⟩
        · exact mine
        · exact holds k tx earlier

theorem transactions_keep (Holds : Store → Transaction Statement Answer Result Request Store Lock → Prop)
    (opened : ∀ config request, db.machine.Reachable config → db.permits config (.begin request) = true →
      Holds config.committed (db.opened request))
    (own : ∀ config (i : Nat) tx label committed serial later, db.machine.Reachable config → db.permits config label = true →
      config.transactions[i]? = some tx → Acts db config i tx label committed serial later →
      Holds config.committed tx → Holds committed later)
    (others : ∀ config (i j : Nat) tx mover result, db.machine.Reachable config →
      db.permits config (.finish j) = true → i ≠ j →
      config.transactions[i]? = some tx → config.transactions[j]? = some mover →
      mover.phase = .ready (.done (.commit result)) → Holds config.committed tx → Holds config.committed mover →
      Holds (mover.pending config.committed) tx)
    (reached : db.machine.Reachable config) :
    ∀ (i : Nat) tx, config.transactions[i]? = some tx → Holds config.committed tx := by
  have both := store_and_transactions_keep (fun _ => True) Holds (fun _ _ _ => trivial)
    (fun config request visited permitted _ => opened config request visited permitted)
    (fun config i tx label committed serial later visited permitted found acts _ =>
      own config i tx label committed serial later visited permitted found acts)
    (fun config i j tx mover result visited permitted elsewhere found moves shape _ =>
      others config i j tx mover result visited permitted elsewhere found moves shape)
    (fun _ _ _ _ _ _ _ _ _ _ => trivial) reached
  exact both.2

/-- What a program obeys holds of its transaction, wherever it has come to. -/
def Transaction.Obeys (atStatement : List (Event Statement Answer) → Statement → Prop)
    (atEnd : List (Event Statement Answer) → Ending Result → Prop)
    (tx : Transaction Statement Answer Result Request Store Lock) : Prop :=
  match tx.phase with
  | .ready program => program.Obeys atStatement atEnd tx.trace
  | .started _ statement next => (Program.stmt statement next).Obeys atStatement atEnd tx.trace
  | .committed result => atEnd tx.trace (.commit result)
  | .undone (some result) => atEnd tx.trace (.rollback result)
  | .undone none => True

theorem transactions_obey (atStatement : Request → List (Event Statement Answer) → Statement → Prop)
    (atEnd : Request → List (Event Statement Answer) → Ending Result → Prop)
    (sound : ∀ request, (db.program request).Obeys (atStatement request) (atEnd request) [])
    (reached : db.machine.Reachable config) : ∀ (i : Nat) tx, config.transactions[i]? = some tx →
      tx.Obeys (atStatement tx.request) (atEnd tx.request) := by
  apply transactions_keep (fun _ tx => tx.Obeys (atStatement tx.request) (atEnd tx.request)) ?_ ?_ ?_ reached
  · intro config request _ _
    exact sound request
  · intro config i tx label committed serial later _ _ _ acts obeys
    cases acts with
    | start shape =>
      rw [Transaction.Obeys, shape] at obeys
      exact obeys
    | run effect shape =>
      rw [Transaction.Obeys, shape] at obeys
      exact obeys.2 _
    | commit shape =>
      rw [Transaction.Obeys, shape] at obeys
      exact obeys
    | rollback shape =>
      rw [Transaction.Obeys, shape] at obeys
      exact obeys
    | abort => trivial
  · intro config i j tx mover result _ _ _ _ _ _ obeys _
    exact obeys

/-- Two transactions never hold locks that exclude each other. -/
theorem locks_exclusive (symmetric : ∀ a b, db.conflicts a b = db.conflicts b a)
    (reached : db.machine.Reachable config) : ∀ (i j : Nat) left right, config.transactions[i]? = some left →
      config.transactions[j]? = some right → i ≠ j → ∀ a ∈ left.held, ∀ b ∈ right.held, db.conflicts a b = false := by
  apply Reachable.invariant (fun config : Config Statement Answer Result Request Store Lock =>
    ∀ (i j : Nat) left right, config.transactions[i]? = some left → config.transactions[j]? = some right → i ≠ j →
      ∀ a ∈ left.held, ∀ b ∈ right.held, db.conflicts a b = false) reached
  · intro start ⟨_, idle⟩ i j left right found
    simp [idle] at found
  · intro before after label apart permitted step j k left right foundLeft foundRight distinct
    rcases step_cases step with ⟨request, -, rfl⟩ | ⟨i, old, committed, serial, later, found, acts, rfl⟩
    · rcases getElem?_append_cases foundLeft with earlier | rfl
      · rcases getElem?_append_cases foundRight with also | rfl
        · exact apart j k left right earlier also distinct
        · exact fun _ _ b member => absurd member List.not_mem_nil
      · exact fun a member => absurd member List.not_mem_nil
    · have taken : ∀ (m : Nat) other, before.transactions[m]? = some other → m ≠ i → ∀ a ∈ later.held,
          ∀ b ∈ other.held, db.conflicts a b = false := by
        intro m other there elsewhere a member b held
        cases acts with
        | start => exact apart i m old other found there elsewhere.symm a member b held
        | run effect shape runs free =>
          rcases List.mem_append.mp member with had | took
          · exact apart i m old other found there elsewhere.symm a had b held
          · have among := List.mem_eraseIdx_iff_getElem?.mpr ⟨m, elsewhere, there⟩
            have clear := List.all_eq_true.mp (List.all_eq_true.mp (List.all_eq_true.mp free other among) a
              (List.mem_append_right _ took)) b held
            simpa using clear
        | commit => cases member
        | rollback => cases member
        | abort => cases member
      rcases getElem?_set_cases found foundLeft with ⟨rfl, rfl⟩ | ⟨elsewhere, earlier⟩
      · rcases getElem?_set_cases found foundRight with ⟨rfl, rfl⟩ | ⟨other, there⟩
        · exact absurd rfl distinct
        · exact taken k right there other
      · rcases getElem?_set_cases found foundRight with ⟨rfl, rfl⟩ | ⟨other, there⟩
        · intro a held b member
          rw [symmetric]
          exact taken j left earlier elsewhere b member a held
        · exact apart j k left right earlier there distinct

end Rules

/- Runs in which nobody commits into the middle of another transaction. -/

section Separate
variable {clashes : Store → Transaction Statement Answer Result Request Store Lock →
    Transaction Statement Answer Result Request Store Lock → Bool}
    {config : Config Statement Answer Result Request Store Lock}

/-- No transaction commits while it clashes with another. -/
def separately (clashes : Store → Transaction Statement Answer Result Request Store Lock →
    Transaction Statement Answer Result Request Store Lock → Bool)
    (config : Config Statement Answer Result Request Store Lock) : Label Request Env → Bool
  | .finish i => config.transactions[i]?.all fun tx => !tx.commits ||
      (config.transactions.eraseIdx i).all fun other => !clashes config.committed tx other
  | _ => true

theorem separately_commit {i j : Nat} {tx mover : Transaction Statement Answer Result Request Store Lock}
    {result : Result} (permitted : separately clashes config (.finish j : Label Request Env) = true) (elsewhere : i ≠ j)
    (found : config.transactions[i]? = some tx) (moves : config.transactions[j]? = some mover)
    (shape : mover.phase = .ready (.done (.commit result))) : clashes config.committed mover tx = false := by
  have commit : mover.commits = true := by rw [Transaction.commits, shape]
  simp only [separately, moves, Option.all_some, commit, Bool.not_true, Bool.false_or] at permitted
  have among : tx ∈ config.transactions.eraseIdx j := List.mem_eraseIdx_iff_getElem?.mpr ⟨i, elsewhere, found⟩
  simpa using List.all_eq_true.mp permitted tx among

variable {tx : Transaction Statement Answer Result Request Store Lock} {kind : Statement → Bool}

theorem begun_started {snapshot : Store} {statement : Statement}
    {next : Answer statement → Program Statement Answer (Ending Result)}
    (shape : tx.phase = .started snapshot statement next) (own : kind statement = true) : tx.begun kind = true := by
  simp [Transaction.begun, Transaction.live, shape, own]

theorem begun_past (live : tx.live = true) (past : ∃ event ∈ tx.trace, kind event.statement = true) :
    tx.begun kind = true :=
  Bool.and_eq_true_iff.mpr ⟨live, (Bool.or_eq_true _ _).mpr (.inl (List.any_eq_true.mpr past))⟩

end Separate

/- Ids come from a sequence, so what a statement draws nobody has used before. -/

section Draws
variable (Uses : Store → Int → Prop)

structure Fresh (config : Config Statement Answer Result Request Store Lock) : Prop where
  stored : ∀ id, Uses config.committed id → id < config.serial
  drawn : ∀ (i : Nat) tx, config.transactions[i]? = some tx → ∀ id ∈ tx.draws, id < config.serial
  writes : ∀ (i : Nat) tx, config.transactions[i]? = some tx → ∀ store id, Uses (tx.pending store) id →
    Uses store id ∨ id ∈ tx.draws
  unused : ∀ (i : Nat) tx, config.transactions[i]? = some tx → tx.live = true → ∀ id ∈ tx.draws,
    ¬ Uses config.committed id
  apart : ∀ (i j : Nat) left right, config.transactions[i]? = some left → config.transactions[j]? = some right →
    i ≠ j → ∀ id ∈ left.draws, id ∉ right.draws

variable {Uses} {config after : Config Statement Answer Result Request Store Lock}

theorem mem_draws {tx : Transaction Statement Answer Result Request Store Lock} {serial : Int} {statement : Statement}
    {next : Answer statement → Program Statement Answer (Ending Result)} {effect : Effect (Answer statement) Store Lock}
    {id : Int} : id ∈ (tx.ran serial next effect).draws ↔
      id ∈ tx.draws ∨ (serial ≤ id ∧ id < serial + effect.drawn) := by
  simp only [Transaction.ran, List.mem_append, List.mem_map, List.mem_range]
  constructor
  · rintro (old | ⟨n, below, rfl⟩)
    · exact .inl old
    · exact .inr ⟨by omega, by omega⟩
  · rintro (old | ⟨above, below⟩)
    · exact .inl old
    · exact .inr ⟨(id - serial).toNat, by omega, by omega⟩

theorem fresh_opened {request : Request} (fresh : Fresh Uses config) :
    Fresh Uses { config with transactions := config.transactions ++ [db.opened request] } where
  stored := fresh.stored
  drawn := by
    intro i tx there id member
    rcases getElem?_append_cases there with before | rfl
    · exact fresh.drawn i tx before id member
    · cases member
  writes := by
    intro i tx there store id used
    rcases getElem?_append_cases there with before | rfl
    · exact fresh.writes i tx before store id used
    · exact .inl used
  unused := by
    intro i tx there live id member
    rcases getElem?_append_cases there with before | rfl
    · exact fresh.unused i tx before live id member
    · cases member
  apart := by
    intro i j left right foundLeft foundRight distinct id member other
    rcases getElem?_append_cases foundLeft with before | rfl
    · rcases getElem?_append_cases foundRight with also | rfl
      · exact fresh.apart i j left right before also distinct id member other
      · cases other
    · cases member

/-- A step that leaves the store and the serial as they are, and draws nothing. -/
theorem fresh_same {i : Nat} {tx later : Transaction Statement Answer Result Request Store Lock}
    (fresh : Fresh Uses config) (found : config.transactions[i]? = some tx) (draws : later.draws = tx.draws)
    (pending : later.pending = tx.pending ∨ later.pending = id) (live : later.live = true → tx.live = true) :
    Fresh Uses ⟨config.committed, config.serial, config.transactions.set i later⟩ where
  stored := fresh.stored
  drawn := by
    intro j other there id member
    rcases getElem?_set_cases found there with ⟨rfl, rfl⟩ | ⟨-, before⟩
    · rw [draws] at member
      exact fresh.drawn j tx found id member
    · exact fresh.drawn j other before id member
  writes := by
    intro j other there store id used
    rcases getElem?_set_cases found there with ⟨rfl, rfl⟩ | ⟨-, before⟩
    · rw [draws]
      rcases pending with same | none
      · rw [same] at used
        exact fresh.writes j tx found store id used
      · rw [none] at used
        exact .inl used
    · exact fresh.writes j other before store id used
  unused := by
    intro j other there alive id member
    rcases getElem?_set_cases found there with ⟨rfl, rfl⟩ | ⟨-, before⟩
    · rw [draws] at member
      exact fresh.unused j tx found (live alive) id member
    · exact fresh.unused j other before alive id member
  apart := by
    intro j k left right foundLeft foundRight distinct id member
    rcases getElem?_set_cases found foundLeft with ⟨rfl, rfl⟩ | ⟨-, earlier⟩
    · rw [draws] at member
      rcases getElem?_set_cases found foundRight with ⟨rfl, rfl⟩ | ⟨-, also⟩
      · exact absurd rfl distinct
      · exact fresh.apart j k tx right found also distinct id member
    · rcases getElem?_set_cases found foundRight with ⟨rfl, rfl⟩ | ⟨-, also⟩
      · rw [draws]
        exact fresh.apart j k left tx earlier found distinct id member
      · exact fresh.apart j k left right earlier also distinct id member

theorem fresh_committed {i : Nat} {tx : Transaction Statement Answer Result Request Store Lock}
    {phase : Phase Statement Answer Result Store} (fresh : Fresh Uses config)
    (found : config.transactions[i]? = some tx) (ended : (tx.close phase).live = false) :
    Fresh Uses ⟨tx.pending config.committed, config.serial, config.transactions.set i (tx.close phase)⟩ := by
  have closed := @fresh_same _ _ _ _ _ _ Uses config i tx (tx.close phase) fresh found rfl (.inr rfl) (by simp [ended])
  have landed : ∀ id, Uses (tx.pending config.committed) id → Uses config.committed id ∨ id ∈ tx.draws :=
    fun id => fresh.writes i tx found config.committed id
  refine ⟨?_, closed.drawn, closed.writes, ?_, closed.apart⟩
  · intro id used
    rcases landed id used with before | new
    · exact fresh.stored id before
    · exact fresh.drawn i tx found id new
  · intro j other there alive id member used
    rcases landed id used with before | new
    · exact closed.unused j other there alive id member before
    · rcases getElem?_set_cases found there with ⟨rfl, rfl⟩ | ⟨elsewhere, before⟩
      · rw [ended] at alive
        cases alive
      · exact fresh.apart j i other tx before found elsewhere id member new

theorem fresh_ran {i : Nat} {tx : Transaction Statement Answer Result Request Store Lock} {statement : Statement}
    {next : Answer statement → Program Statement Answer (Ending Result)} {effect : Effect (Answer statement) Store Lock}
    (fresh : Fresh Uses config) (found : config.transactions[i]? = some tx) (live : tx.live = true)
    (executes : ∀ store id, Uses (effect.change store) id →
      Uses store id ∨ (config.serial ≤ id ∧ id < config.serial + effect.drawn)) :
    Fresh Uses ⟨config.committed, config.serial + effect.drawn,
      config.transactions.set i (tx.ran config.serial next effect)⟩ where
  stored := by
    intro id used
    have := fresh.stored id used
    show id < config.serial + effect.drawn
    omega
  drawn := by
    intro j other there id member
    show id < config.serial + effect.drawn
    rcases getElem?_set_cases found there with ⟨rfl, rfl⟩ | ⟨-, before⟩
    · rcases mem_draws.mp member with old | ⟨-, below⟩
      · have := fresh.drawn j tx found id old
        omega
      · exact below
    · have := fresh.drawn j other before id member
      omega
  writes := by
    intro j other there store id used
    rcases getElem?_set_cases found there with ⟨rfl, rfl⟩ | ⟨-, before⟩
    · rcases executes (tx.pending store) id used with earlier | new
      · rcases fresh.writes j tx found store id earlier with stored | old
        · exact .inl stored
        · exact .inr (mem_draws.mpr (.inl old))
      · exact .inr (mem_draws.mpr (.inr new))
    · exact fresh.writes j other before store id used
  unused := by
    intro j other there alive id member used
    rcases getElem?_set_cases found there with ⟨rfl, rfl⟩ | ⟨-, before⟩
    · rcases mem_draws.mp member with old | ⟨above, -⟩
      · exact fresh.unused j tx found live id old used
      · have := fresh.stored id used
        omega
    · exact fresh.unused j other before alive id member used
  apart := by
    have new : ∀ (m : Nat) other, config.transactions[m]? = some other → m ≠ i →
        ∀ id ∈ (tx.ran config.serial next effect).draws, id ∉ other.draws := by
      intro m other there elsewhere id member also
      rcases mem_draws.mp member with old | ⟨above, -⟩
      · exact fresh.apart i m tx other found there elsewhere.symm id old also
      · have := fresh.drawn m other there id also
        omega
    intro j k left right foundLeft foundRight distinct id member other
    rcases getElem?_set_cases found foundLeft with ⟨rfl, rfl⟩ | ⟨elsewhere, earlier⟩
    · rcases getElem?_set_cases found foundRight with ⟨rfl, rfl⟩ | ⟨apart, also⟩
      · exact absurd rfl distinct
      · exact new k right also apart id member other
    · rcases getElem?_set_cases found foundRight with ⟨rfl, rfl⟩ | ⟨-, also⟩
      · exact new j left earlier elsewhere id other member
      · exact fresh.apart j k left right earlier also distinct id member other

theorem Acts.live {i : Nat} {tx later : Transaction Statement Answer Result Request Store Lock}
    {label : Label Request Env} {committed : Store} {serial : Int}
    (acts : Acts db config i tx label committed serial later) : tx.live = true := by
  cases acts with
  | start shape => simp [Transaction.live, shape]
  | run effect shape => simp [Transaction.live, shape]
  | commit shape => simp [Transaction.live, shape]
  | rollback shape => simp [Transaction.live, shape]
  | abort live => exact live

/-- An ended transaction stays as it is. -/
theorem mem_set_ended {i : Nat} {tx later other : Transaction Statement Answer Result Request Store Lock}
    {transactions : List (Transaction Statement Answer Result Request Store Lock)}
    (found : transactions[i]? = some tx) (live : tx.live = true) (member : other ∈ transactions)
    (ended : other.live = false) : other ∈ transactions.set i later := by
  obtain ⟨j, there⟩ := List.mem_iff_getElem?.mp member
  have elsewhere : i ≠ j := by
    rintro rfl
    rw [found] at there
    cases there
    rw [live] at ended
    cases ended
  refine List.mem_iff_getElem?.mpr ⟨j, ?_⟩
  rw [List.getElem?_set_ne elsewhere, there]

/-- In every run, when the statements use no new ids but those they draw. -/
theorem draws_fresh (starts : ∀ store serial, db.initial store serial → ∀ id, Uses store id → id < serial)
    (executes : ∀ env serial statement snapshot current store id,
      Uses ((db.execute env serial statement snapshot current).change store) id →
      Uses store id ∨ (serial ≤ id ∧ id < serial + (db.execute env serial statement snapshot current).drawn))
    (reached : db.machine.Reachable config) : Fresh Uses config := by
  apply Reachable.invariant (Fresh Uses) reached
  · intro start ⟨initial, idle⟩
    have nobody : ∀ (i : Nat) tx, start.transactions[i]? ≠ some tx := by simp [idle]
    exact ⟨starts _ _ initial, fun i tx there => absurd there (nobody i tx),
      fun i tx there => absurd there (nobody i tx), fun i tx there => absurd there (nobody i tx),
      fun i j left right there => absurd there (nobody i left)⟩
  · intro before after label fresh permitted step
    rcases step_cases step with ⟨request, -, rfl⟩ | ⟨i, tx, committed, serial, later, found, acts, rfl⟩
    · exact fresh_opened fresh
    · have alive := acts.live
      cases acts with
      | start shape => exact fresh_same fresh found rfl (.inl rfl) fun _ => alive
      | run effect shape runs free =>
        refine fresh_ran fresh found alive fun store id used => ?_
        rw [runs] at used ⊢
        exact executes _ _ _ _ _ store id used
      | commit shape => exact fresh_committed fresh found rfl
      | rollback shape => exact fresh_same fresh found rfl (.inr rfl) fun _ => alive
      | abort live => exact fresh_same fresh found rfl (.inr rfl) fun _ => alive

end Draws

/-- So many statements of the transaction at this place, each under the same environment. -/
def turns (env : Env) (transaction statements : Nat) : List (Label Request Env) :=
  (List.replicate statements [.start transaction, .run transaction env]).flatten

section Alone
variable {envs : Nat → Env} {request : Request} {committed : Store}

/-- One transaction with nobody else about: each statement sees what the ones before it have written. -/
def Database.alone (db : Database Statement Answer Result Request Env Store Lock) (envs : Nat → Env) :
    Nat → Int → Program Statement Answer (Ending Result) → Store → Ending Result × Store
  | _, _, .done ending, store => (ending, store)
  | n, serial, .stmt statement next, store =>
    let effect := db.execute (envs n) serial statement store store
    db.alone envs (n + 1) (serial + effect.drawn) (next effect.answer) (effect.change store)

theorem alone_stmt {n : Nat} {serial later : Int} {statement : Statement} {store after : Store} {answer : Answer statement}
    {next : Answer statement → Program Statement Answer (Ending Result)}
    (comes : (db.execute (envs n) serial statement store store).on store = (answer, after))
    (draws : serial + (db.execute (envs n) serial statement store store).drawn = later) :
    db.alone envs n serial (.stmt statement next) store = db.alone envs (n + 1) later (next answer) after := by
  obtain ⟨rfl, rfl⟩ := Prod.mk.inj comes
  subst draws
  rfl

/-- What a request answers on its own, and the store it leaves committed. -/
def Database.callAlone (db : Database Statement Answer Result Request Env Store Lock) (envs : Nat → Env) (serial : Int)
    (request : Request) (store : Store) : Result × Store :=
  match db.alone envs 0 serial (db.program request) store with
  | (.commit result, after) => (result, after)
  | (.rollback result, _) => (result, store)

theorem alone_leads (permitted : ∀ config label, db.permits config label = true) (n : Nat) (serial : Int)
    {tx : Transaction Statement Answer Result Request Store Lock} {program : Program Statement Answer (Ending Result)}
    (shape : tx.phase = .ready program) : ∃ later ahead,
      db.machine.Leads ⟨committed, serial, [tx]⟩ ⟨committed, ahead, [later]⟩ ∧
      later.phase = .ready (.done (db.alone envs n serial program (tx.pending committed)).1) ∧
      later.pending committed = (db.alone envs n serial program (tx.pending committed)).2 := by
  induction program generalizing tx n serial with
  | done ending => exact ⟨tx, serial, .refl, shape, rfl⟩
  | stmt statement next ih =>
    let effect := db.execute (envs n) serial statement (tx.pending committed) (tx.pending committed)
    let started := tx.start (tx.pending committed) statement next
    have starts : db.machine.Moves ⟨committed, serial, [tx]⟩ ⟨committed, serial, [started]⟩ :=
      ⟨.start 0, permitted _ _, by simp [Database.machine, Database.step, shape, started]⟩
    have runs : db.machine.Moves ⟨committed, serial, [started]⟩
        ⟨committed, serial + effect.drawn, [started.ran serial next effect]⟩ :=
      ⟨.run 0 (envs n), permitted _ _, by
        simp [Database.machine, Database.step, Database.free, started, Transaction.start, effect]⟩
    obtain ⟨later, ahead, leads, ended, written⟩ := @ih effect.answer (n + 1) (serial + effect.drawn)
      (started.ran serial next effect) rfl
    exact ⟨later, ahead, .head starts (.head runs leads), ended, written⟩

/-- What it leaves is what a run of it alone commits. -/
theorem callAlone_reachable (permitted : ∀ config label, db.permits config label = true) {serial : Int}
    (initial : db.initial committed serial) : ∃ config, db.machine.Reachable config ∧
      config.committed = (db.callAlone envs serial request committed).2 := by
  have begins : db.machine.Moves ⟨committed, serial, []⟩ ⟨committed, serial, [db.opened request]⟩ :=
    ⟨.begin request, permitted _ _, rfl⟩
  obtain ⟨later, ahead, leads, ended, written⟩ := @alone_leads Statement Answer Result Request Env Store Lock db envs
    committed permitted 0 serial (db.opened request) _ rfl
  have opened : db.machine.Reachable ⟨committed, ahead, [later]⟩ :=
    ⟨_, ⟨initial, rfl⟩, .head begins leads⟩
  rw [show (db.opened request).pending committed = committed from rfl] at ended written
  unfold Database.callAlone
  generalize db.alone envs 0 serial (db.program request) committed = outcome at ended written ⊢
  obtain ⟨ending, after⟩ := outcome
  cases ending with
  | commit result =>
    have closes : db.machine.step ⟨committed, ahead, [later]⟩ (.finish 0) =
        some ⟨later.pending committed, ahead, [later.close (.committed result)]⟩ := by
      simp [Database.machine, Database.step, ended]
    exact ⟨_, Reachable.step opened (permitted _ _) closes, written⟩
  | rollback result => exact ⟨_, opened, rfl⟩

end Alone

end ReadCommitted
