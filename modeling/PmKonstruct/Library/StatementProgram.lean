import Mathlib.Logic.Equiv.Defs
import PmKonstruct.Library.TransitionRuns

/- Programs that talk to a shared store one statement at a time, run alone or interleaved statement by
   statement with any number of other calls. Each call keeps the trace of what it was answered. -/
namespace StatementProgram
open TransitionRuns

inductive Program (Statement : Type) (Answer : Statement → Type) (Result : Type) where
  | done (result : Result)
  | stmt (statement : Statement) (next : Answer statement → Program Statement Answer Result)

structure Event (Statement : Type) (Answer : Statement → Type) where
  statement : Statement
  answer : Answer statement

variable {Statement : Type} {Answer : Statement → Type} {Result Request Env Store Key : Type}

/-- How the store answers a statement under the clock, draws and faults of the moment. -/
abbrev Executes (Statement : Type) (Answer : Statement → Type) (Env Store : Type) :=
  Env → (statement : Statement) → Store → Answer statement × Store

/-- One call alone: the environments of its statements in order, counted from `at`. -/
def Program.runFrom (execute : Executes Statement Answer Env Store) (envs : Nat → Env) :
    Nat → Program Statement Answer Result → Store → Result × Store
  | _, .done result, store => (result, store)
  | n, .stmt statement next, store =>
    let (answer, after) := execute (envs n) statement store
    runFrom execute envs (n + 1) (next answer) after

def Program.mapResult {Mapped : Type} (f : Result → Mapped) :
    Program Statement Answer Result → Program Statement Answer Mapped
  | .done result => .done (f result)
  | .stmt statement next => .stmt statement fun answer => (next answer).mapResult f

/-- What holds before each statement and at the end of a program, whatever the answers, of the trace so far. -/
def Program.Obeys (atStatement : List (Event Statement Answer) → Statement → Prop)
    (atEnd : List (Event Statement Answer) → Result → Prop) :
    Program Statement Answer Result → List (Event Statement Answer) → Prop
  | .done result, past => atEnd past result
  | .stmt statement next, past => atStatement past statement ∧
    ∀ answer, (next answer).Obeys atStatement atEnd (past ++ [⟨statement, answer⟩])

theorem obeys_of_forall {program : Program Statement Answer Result}
    {atStatement : List (Event Statement Answer) → Statement → Prop}
    {atEnd : List (Event Statement Answer) → Result → Prop} {past : List (Event Statement Answer)}
    (statements : ∀ more statement, atStatement (past ++ more) statement)
    (ends : ∀ more result, atEnd (past ++ more) result) : program.Obeys atStatement atEnd past := by
  induction program generalizing past with
  | done result =>
    have := ends [] result
    rwa [List.append_nil] at this
  | stmt statement next ih =>
    have here := statements [] statement
    rw [List.append_nil] at here
    refine ⟨here, fun answer => ih answer ?_ ?_⟩
    · intro more other
      rw [List.append_assoc]
      exact statements _ other
    · intro more result
      rw [List.append_assoc]
      exact ends _ result

theorem Program.Obeys.imp {program : Program Statement Answer Result}
    {atStatement weaker : List (Event Statement Answer) → Statement → Prop}
    {atEnd ends : List (Event Statement Answer) → Result → Prop} {past : List (Event Statement Answer)}
    (statements : ∀ past statement, atStatement past statement → weaker past statement)
    (results : ∀ past result, atEnd past result → ends past result) (obeys : program.Obeys atStatement atEnd past) :
    program.Obeys weaker ends past := by
  induction program generalizing past with
  | done result => exact results past result obeys
  | stmt statement next ih => exact ⟨statements past statement obeys.1, fun answer => ih answer (obeys.2 answer)⟩

theorem obeys_mapResult {Mapped : Type} {f : Result → Mapped} {program : Program Statement Answer Result}
    {atStatement : List (Event Statement Answer) → Statement → Prop}
    {atEnd : List (Event Statement Answer) → Mapped → Prop} {past : List (Event Statement Answer)} :
    (program.mapResult f).Obeys atStatement atEnd past ↔
      program.Obeys atStatement (fun past result => atEnd past (f result)) past := by
  induction program generalizing past with
  | done result => exact Iff.rfl
  | stmt statement next ih =>
    simp only [Program.mapResult, Program.Obeys, ih]

/- One call alone, by what holds once it has ended. -/

section Alone
variable {execute : Executes Statement Answer Env Store} {Ends : Result → Store → Prop}
    {program : Program Statement Answer Result} {store : Store}

/-- What holds of the result and the store at the end of a program run alone, under any environments. -/
def Program.Ensures (execute : Executes Statement Answer Env Store) (Ends : Result → Store → Prop) :
    Program Statement Answer Result → Store → Prop
  | .done result, store => Ends result store
  | .stmt statement next, store =>
    ∀ env, (next (execute env statement store).1).Ensures execute Ends (execute env statement store).2

theorem Program.Ensures.runFrom (ensures : program.Ensures execute Ends store) (envs : Nat → Env) (n : Nat) :
    Ends (program.runFrom execute envs n store).1 (program.runFrom execute envs n store).2 := by
  induction program generalizing n store with
  | done result => exact ensures
  | stmt statement next ih => exact ih _ (ensures (envs n)) (n + 1)

theorem Program.Ensures.imp {Weaker : Result → Store → Prop} (ensures : program.Ensures execute Ends store)
    (weaker : ∀ result store, Ends result store → Weaker result store) : program.Ensures execute Weaker store := by
  induction program generalizing store with
  | done result => exact weaker _ _ ensures
  | stmt statement next ih => exact fun env => ih _ (ensures env)

theorem Program.Ensures.and {Left Right : Result → Store → Prop} (left : program.Ensures execute Left store)
    (right : program.Ensures execute Right store) :
    program.Ensures execute (fun result store => Left result store ∧ Right result store) store := by
  induction program generalizing store with
  | done result => exact ⟨left, right⟩
  | stmt statement next ih => exact fun env => ih _ (left env) (right env)

theorem ensures_mapResult {Mapped : Type} {f : Result → Mapped} {Ends : Mapped → Store → Prop} :
    (program.mapResult f).Ensures execute Ends store ↔
      program.Ensures execute (fun result store => Ends (f result) store) store := by
  induction program generalizing store with
  | done result => exact Iff.rfl
  | stmt statement next ih => simp only [Program.mapResult, Program.Ensures, ih]

/-- A property of the store that each statement of the program keeps holds at its end. -/
theorem ensures_of_obeys {Holds : Store → Prop} {permitted : Statement → Prop} {past : List (Event Statement Answer)}
    (kept : ∀ env statement store, permitted statement → Holds store → Holds (execute env statement store).2)
    (obeys : program.Obeys (fun _ => permitted) (fun _ _ => True) past) (start : Holds store) :
    program.Ensures execute (fun _ => Holds) store := by
  induction program generalizing past store with
  | done result => exact start
  | stmt statement next ih => exact fun env => ih _ (obeys.2 _) (kept env statement store obeys.1 start)

/-- What holds of the value and the store when a program succeeds. -/
def OnSuccess {Error α : Type} (Holds : α → Store → Prop) : Except Error α → Store → Prop :=
  fun result after => ∀ value, result = .ok value → Holds value after

theorem Program.Ensures.succeeded {Error α : Type} {program : Program Statement Answer (Except Error α)}
    {Holds : α → Store → Prop} {envs : Nat → Env} {value : α} {after : Store}
    (ensures : program.Ensures execute (OnSuccess Holds) store)
    (run : program.runFrom execute envs 0 store = (.ok value, after)) : Holds value after := by
  have ends := ensures.runFrom envs 0
  rw [run] at ends
  exact ends value rfl

end Alone

/- Statements that may meet a fault, and calls that end with it. -/

section Faults
variable {Reply : Statement → Type} {Fault Error α : Type} {fault : Env → Option Fault} {meets : Statement → Bool}
    {perform : Executes Statement (fun statement => Except Fault (Reply statement)) Env Store} {store : Store}
    {Holds : α → Store → Prop}

/-- A statement that can meet a fault meets the one there is, and leaves the store alone. -/
def faulting (fault : Env → Option Fault) (meets : Statement → Bool)
    (perform : Executes Statement (fun statement => Except Fault (Reply statement)) Env Store) :
    Executes Statement (fun statement => Except Fault (Reply statement)) Env Store := fun env statement store =>
  match fault env with
  | none => perform env statement store
  | some e => if meets statement then (.error e, store) else perform env statement store

theorem faulting_cases (env : Env) (statement : Statement) (store : Store) :
    faulting fault meets perform env statement store = perform env statement store ∨
      ∃ e, faulting fault meets perform env statement store = (.error e, store) := by
  rw [faulting]
  split
  · exact .inl rfl
  · split
    · exact .inr ⟨_, rfl⟩
    · exact .inl rfl

/-- What holds whether the statement is performed or not. -/
theorem faulting_keeps (Kept : Store → Prop) {env : Env} {statement : Statement} (before : Kept store)
    (performed : Kept (perform env statement store).2) : Kept (faulting fault meets perform env statement store).2 := by
  rcases @faulting_cases _ _ _ _ _ fault meets perform env statement store with same | ⟨e, failed⟩
  · rwa [same]
  · rwa [failed]

/-- A reply is what performing the statement answers. -/
theorem faulting_of_ok {env : Env} {statement : Statement} {reply : Reply statement}
    (answered : (faulting fault meets perform env statement store).1 = .ok reply) :
    faulting fault meets perform env statement store = perform env statement store := by
  rcases @faulting_cases _ _ _ _ _ fault meets perform env statement store with performed | ⟨e, failed⟩
  · exact performed
  · rw [failed] at answered
    cases answered

/-- Awaits a statement, and ends with its fault. -/
def await (report : Fault → Error) (statement : Statement)
    (next : Reply statement → Program Statement (fun statement => Except Fault (Reply statement)) (Except Error α)) :
    Program Statement (fun statement => Except Fault (Reply statement)) (Except Error α) :=
  .stmt statement fun answer =>
    match answer with
    | .error e => .done (.error (report e))
    | .ok reply => next reply

theorem failed_ensures {execute : Executes Statement Answer Env Store} {error : Error} :
    (Program.done (.error error) : Program Statement Answer (Except Error α)).Ensures execute (OnSuccess Holds) store :=
  fun value done => by cases done

/-- A call that succeeds has had its statement performed. -/
theorem await_ensures {report : Fault → Error} {statement : Statement}
    {next : Reply statement → Program Statement (fun statement => Except Fault (Reply statement)) (Except Error α)}
    (later : ∀ env reply, (perform env statement store).1 = .ok reply →
      (next reply).Ensures (faulting fault meets perform) (OnSuccess Holds) (perform env statement store).2) :
    (await report statement next).Ensures (faulting fault meets perform) (OnSuccess Holds) store := by
  intro env
  rcases @faulting_cases _ _ _ _ _ fault meets perform env statement store with performed | ⟨e, failed⟩
  · rw [performed]
    cases answer : (perform env statement store).1 with
    | error e => exact failed_ensures
    | ok reply => exact later env reply answer
  · rw [failed]
    exact failed_ensures

end Faults

structure Call (Statement : Type) (Answer : Statement → Type) (Result Request : Type) where
  request : Request
  trace : List (Event Statement Answer)
  running : Program Statement Answer Result

def Call.live (call : Call Statement Answer Result Request) : Bool :=
  match call.running with
  | .done _ => false
  | .stmt _ _ => true

structure Config (Statement : Type) (Answer : Statement → Type) (Result Request Store : Type) where
  store : Store
  calls : List (Call Statement Answer Result Request)

inductive Label (Request Env : Type) where
  | invoke (request : Request)
  | advance (call : Nat) (env : Env)

/-- A service over a shared store, with the condition its statements meet when they run. -/
structure Service (Statement : Type) (Answer : Statement → Type) (Result Request Env Store : Type) where
  program : Request → Program Statement Answer Result
  execute : Executes Statement Answer Env Store
  initial : Store → Prop
  admits : Env → Statement → Store → Bool

variable {service : Service Statement Answer Result Request Env Store}

namespace Service

def step (service : Service Statement Answer Result Request Env Store)
    (config : Config Statement Answer Result Request Store) :
    Label Request Env → Option (Config Statement Answer Result Request Store)
  | .invoke request => some { config with calls := config.calls ++ [⟨request, [], service.program request⟩] }
  | .advance i env =>
    match config.calls[i]? with
    | none => none
    | some call =>
      match call.running with
      | .done _ => none
      | .stmt statement next =>
        let (answer, after) := service.execute env statement config.store
        some ⟨after, config.calls.set i ⟨call.request, call.trace ++ [⟨statement, answer⟩], next answer⟩⟩

def allowed (service : Service Statement Answer Result Request Env Store)
    (config : Config Statement Answer Result Request Store) : Label Request Env → Bool
  | .invoke _ => true
  | .advance i env =>
    match config.calls[i]? with
    | none => true
    | some call =>
      match call.running with
      | .done _ => true
      | .stmt statement _ => service.admits env statement config.store

def machine (service : Service Statement Answer Result Request Env Store) :
    Machine (Config Statement Answer Result Request Store) (Label Request Env) where
  initial config := service.initial config.store ∧ config.calls = []
  step := service.step
  allowed := service.allowed

end Service

/-- Everything one allowed step can do: a new call arrives, or one call executes its next statement. -/
theorem step_cases {config after : Config Statement Answer Result Request Store} {label : Label Request Env}
    (permitted : service.allowed config label = true) (step : service.step config label = some after) :
    (∃ request, after = ⟨config.store, config.calls ++ [⟨request, [], service.program request⟩]⟩) ∨
    (∃ i env call statement next, label = .advance i env ∧ config.calls[i]? = some call ∧
      call.running = .stmt statement next ∧ service.admits env statement config.store = true ∧
      after = ⟨(service.execute env statement config.store).2, config.calls.set i ⟨call.request,
        call.trace ++ [⟨statement, (service.execute env statement config.store).1⟩],
        next (service.execute env statement config.store).1⟩⟩) := by
  cases label with
  | invoke request =>
    cases step
    exact .inl ⟨request, rfl⟩
  | advance i env =>
    simp only [Service.step] at step
    simp only [Service.allowed] at permitted
    cases found : config.calls[i]? with
    | none => simp [found] at step
    | some call =>
      simp only [found] at step permitted
      cases shape : call.running with
      | done result => simp [shape] at step
      | stmt statement next =>
        simp only [shape, Option.some.injEq] at step permitted
        exact .inr ⟨i, env, call, statement, next, rfl, found, shape, permitted, step.symm⟩

section Runs
variable {config later : Config Statement Answer Result Request Store}

/-- A property of the store that every admitted statement keeps. -/
theorem store_kept (Holds : Store → Prop) (leads : service.machine.Leads config later) (start : Holds config.store)
    (kept : ∀ env statement store, Holds store → service.admits env statement store = true →
      Holds (service.execute env statement store).2) : Holds later.store := by
  refine Leads.invariant (fun config => Holds config.store) leads start ?_
  intro s t label holds allowed step
  rcases step_cases allowed step with ⟨request, rfl⟩ | ⟨i, env, call, statement, next, -, -, -, admits, rfl⟩
  · exact holds
  · exact kept env statement s.store holds admits

/-- A call in progress obeys what its program obeys. -/
theorem calls_obey (atStatement : Request → List (Event Statement Answer) → Statement → Prop)
    (atEnd : Request → List (Event Statement Answer) → Result → Prop)
    (sound : ∀ request, (service.program request).Obeys (atStatement request) (atEnd request) [])
    (reached : service.machine.Reachable config) :
    ∀ call ∈ config.calls, call.running.Obeys (atStatement call.request) (atEnd call.request) call.trace := by
  refine Reachable.invariant (fun config => ∀ call ∈ config.calls,
    call.running.Obeys (atStatement call.request) (atEnd call.request) call.trace) reached ?_ ?_
  · intro s initial call member
    simp [initial.2] at member
  · intro s t label holds allowed step call member
    rcases step_cases allowed step with ⟨request, rfl⟩ | ⟨i, env, old, statement, next, -, found, shape, -, rfl⟩
    · rcases List.mem_append.mp member with before | new
      · exact holds call before
      · cases List.mem_singleton.mp new
        exact sound request
    · rcases List.mem_or_eq_of_mem_set member with before | rfl
      · exact holds call before
      · have obeys := holds old (List.mem_of_getElem? found)
        rw [shape] at obeys
        exact obeys.2 _

/-- What an answer says of the store stays true of it, when the answer makes it true and every statement keeps it. -/
theorem events_recorded (Holds : Store → Event Statement Answer → Prop)
    (recorded : ∀ env statement store, service.admits env statement store = true →
      Holds (service.execute env statement store).2 ⟨statement, (service.execute env statement store).1⟩)
    (kept : ∀ env statement store event, service.admits env statement store = true → Holds store event →
      Holds (service.execute env statement store).2 event)
    (reached : service.machine.Reachable config) :
    ∀ call ∈ config.calls, ∀ event ∈ call.trace, Holds config.store event := by
  refine Reachable.invariant (fun config => ∀ call ∈ config.calls, ∀ event ∈ call.trace,
    Holds config.store event) reached ?_ ?_
  · intro s initial call member
    simp [initial.2] at member
  · intro s t label holds allowed step call member event past
    rcases step_cases allowed step with ⟨request, rfl⟩ | ⟨i, env, old, statement, next, -, found, -, admits, rfl⟩
    · rcases List.mem_append.mp member with before | new
      · exact holds call before event past
      · cases List.mem_singleton.mp new
        cases past
    · have older : ∀ call ∈ s.calls, ∀ event ∈ call.trace, Holds (service.execute env statement s.store).2 event :=
        fun call member event past => kept env statement s.store event admits (holds call member event past)
      rcases List.mem_or_eq_of_mem_set member with before | rfl
      · exact older call before event past
      · rcases List.mem_append.mp past with before | new
        · exact older old (List.mem_of_getElem? found) event before
        · cases List.mem_singleton.mp new
          exact recorded env statement s.store admits

end Runs

/-- The call at this position was answered with the key. -/
def Granted (claim : Event Statement Answer → Option Key) (calls : List (Call Statement Answer Result Request))
    (i : Nat) (key : Key) : Prop :=
  ∃ call, calls[i]? = some call ∧ ∃ event ∈ call.trace, claim event = some key

section Claims
variable {claim : Event Statement Answer → Option Key} {calls : List (Call Statement Answer Result Request)}
    {i j : Nat} {key : Key}

theorem getElem?_append_cases {α : Type} {items : List α} {new item : α}
    (there : (items ++ [new])[i]? = some item) : items[i]? = some item ∨ item = new := by
  by_cases within : i < items.length
  · rw [List.getElem?_append_left within] at there
    exact .inl there
  · rw [List.getElem?_append_right (by omega)] at there
    exact .inr (List.mem_singleton.mp (List.mem_of_getElem? there))

theorem granted_append {request : Request} {program : Program Statement Answer Result}
    (granted : Granted claim (calls ++ [⟨request, [], program⟩]) i key) : Granted claim calls i key := by
  obtain ⟨call, there, event, past, claimed⟩ := granted
  rcases getElem?_append_cases there with before | rfl
  · exact ⟨call, before, event, past, claimed⟩
  · cases past

theorem getElem?_set_cases {α : Type} {items : List α} {old new item : α} (found : items[j]? = some old)
    (there : (items.set j new)[i]? = some item) : (i = j ∧ item = new) ∨ (i ≠ j ∧ items[i]? = some item) := by
  by_cases same : j = i
  · subst same
    have within : j < items.length := (List.getElem?_eq_some_iff.mp found).1
    rw [List.getElem?_set_self within] at there
    cases there
    exact .inl ⟨rfl, rfl⟩
  · rw [List.getElem?_set_ne same] at there
    exact .inr ⟨fun equal => same equal.symm, there⟩

/-- What a map makes of a list, when one of its items changes. -/
theorem filterMap_set {α β : Type} {items : List α} {i : Nat} {old : α} (p : α → Option β) (new : α)
    (found : items[i]? = some old) : ∃ before after,
      items.filterMap p = before ++ (p old).toList ++ after ∧
      (items.set i new).filterMap p = before ++ (p new).toList ++ after := by
  obtain ⟨within, rfl⟩ := List.getElem?_eq_some_iff.mp found
  refine ⟨(items.take i).filterMap p, (items.drop (i + 1)).filterMap p, ?_, ?_⟩
  · have split : items = items.take i ++ items[i] :: items.drop (i + 1) := by
      rw [List.getElem_cons_drop, List.take_append_drop]
    conv => lhs; rw [split]
    rw [List.filterMap_append, List.filterMap_cons]
    cases p items[i] <;> simp
  · rw [List.set_eq_take_append_cons_drop, if_pos within, List.filterMap_append, List.filterMap_cons]
    cases p new <;> simp

theorem requests_set {old : Call Statement Answer Result Request} {trace : List (Event Statement Answer)}
    {program : Program Statement Answer Result} (found : calls[j]? = some old) :
    (calls.set j ⟨old.request, trace, program⟩).map (·.request) = calls.map (·.request) := by
  refine List.ext_getElem? fun k => ?_
  rw [List.getElem?_map, List.getElem?_map]
  by_cases here : j = k
  · subst here
    rw [List.getElem?_set_self (List.getElem?_eq_some_iff.mp found).1, found, Option.map_some, Option.map_some]
  · rw [List.getElem?_set_ne here]

theorem granted_set {old : Call Statement Answer Result Request} {event : Event Statement Answer}
    {program : Program Statement Answer Result} (found : calls[j]? = some old)
    (granted : Granted claim (calls.set j ⟨old.request, old.trace ++ [event], program⟩) i key) :
    Granted claim calls i key ∨ (i = j ∧ claim event = some key) := by
  obtain ⟨call, there, other, past, claimed⟩ := granted
  rcases getElem?_set_cases found there with ⟨rfl, rfl⟩ | ⟨-, before⟩
  · rcases List.mem_append.mp past with before | new
    · exact .inl ⟨old, found, other, before, claimed⟩
    · cases List.mem_singleton.mp new
      exact .inr ⟨rfl, claimed⟩
  · exact .inl ⟨call, before, other, past, claimed⟩

/-- A key that only a free store grants, and that stays taken, is granted to one call at most. -/
theorem claims_exclusive (claim : Event Statement Answer → Option Key) (Taken : Store → Key → Prop)
    {config : Config Statement Answer Result Request Store}
    (free : ∀ env statement store key, service.admits env statement store = true →
      claim ⟨statement, (service.execute env statement store).1⟩ = some key → ¬ Taken store key)
    (taken : ∀ env statement store key, service.admits env statement store = true →
      claim ⟨statement, (service.execute env statement store).1⟩ = some key →
      Taken (service.execute env statement store).2 key)
    (kept : ∀ env statement store key, service.admits env statement store = true → Taken store key →
      Taken (service.execute env statement store).2 key)
    (reached : service.machine.Reachable config) :
    (∀ i key, Granted claim config.calls i key → Taken config.store key) ∧
    ∀ i j key, Granted claim config.calls i key → Granted claim config.calls j key → i = j := by
  refine Reachable.invariant (fun config : Config Statement Answer Result Request Store =>
    (∀ i key, Granted claim config.calls i key → Taken config.store key) ∧
    ∀ i j key, Granted claim config.calls i key → Granted claim config.calls j key → i = j) reached ?_ ?_
  · intro s initial
    have none : ∀ i key, ¬ Granted claim s.calls i key := by
      rintro i key ⟨call, found, -⟩
      simp [initial.2] at found
    exact ⟨fun i key granted => absurd granted (none i key), fun i j key granted => absurd granted (none i key)⟩
  · rintro s t label ⟨held, unique⟩ allowed step
    rcases step_cases allowed step with ⟨request, rfl⟩ | ⟨k, env, old, statement, next, -, found, -, admits, rfl⟩
    · exact ⟨fun i key granted => held i key (granted_append granted),
        fun i j key left right => unique i j key (granted_append left) (granted_append right)⟩
    · constructor
      · intro i key granted
        rcases granted_set found granted with before | ⟨-, now⟩
        · exact kept env statement s.store key admits (held i key before)
        · exact taken env statement s.store key admits now
      · intro i j key left right
        have spent : claim ⟨statement, (service.execute env statement s.store).1⟩ = some key →
            ∀ i, ¬ Granted claim s.calls i key :=
          fun claimed i before => free env statement s.store key admits claimed (held i key before)
        rcases granted_set found left with first | ⟨first, claimed⟩
        · rcases granted_set found right with second | ⟨-, claimed⟩
          · exact unique i j key first second
          · exact absurd first (spent claimed i)
        · rcases granted_set found right with second | ⟨second, -⟩
          · exact absurd second (spent claimed j)
          · rw [first, second]

/-- A key that is taken is granted to nobody from then on. -/
theorem claims_settled (claim : Event Statement Answer → Option Key) (Taken : Store → Key → Prop)
    {config later : Config Statement Answer Result Request Store}
    (free : ∀ env statement store key, service.admits env statement store = true →
      claim ⟨statement, (service.execute env statement store).1⟩ = some key → ¬ Taken store key)
    (kept : ∀ env statement store key, service.admits env statement store = true → Taken store key →
      Taken (service.execute env statement store).2 key)
    (leads : service.machine.Leads config later) (taken : Taken config.store key) :
    ∀ i, Granted claim later.calls i key → Granted claim config.calls i key := by
  refine (Leads.invariant (fun later : Config Statement Answer Result Request Store => Taken later.store key ∧
    ∀ i, Granted claim later.calls i key → Granted claim config.calls i key) leads ⟨taken, fun i granted => granted⟩ ?_).2
  rintro s t label ⟨held, settled⟩ allowed step
  rcases step_cases allowed step with ⟨request, rfl⟩ | ⟨k, env, old, statement, next, -, found, -, admits, rfl⟩
  · exact ⟨held, fun i granted => settled i (granted_append granted)⟩
  · refine ⟨kept env statement s.store key admits held, fun i granted => ?_⟩
    rcases granted_set found granted with before | ⟨-, now⟩
    · exact settled i before
    · exact absurd held (free env statement s.store key admits now)

end Claims

/- Runs in which no statement runs into the middle of another call. -/

section Apart
variable {interrupts : Store → Statement → Call Statement Answer Result Request → Bool}
    {config : Config Statement Answer Result Request Store}

/-- The statement that runs next interrupts no other call that is under way. -/
def apart (interrupts : Store → Statement → Call Statement Answer Result Request → Bool)
    (config : Config Statement Answer Result Request Store) : Label Request Env → Bool
  | .invoke _ => true
  | .advance i _ =>
    match config.calls[i]? with
    | none => true
    | some call =>
      match call.running with
      | .done _ => true
      | .stmt statement _ =>
        (config.calls.eraseIdx i).all fun other => !(other.live && interrupts config.store statement other)

theorem apart_advance {i j : Nat} {env : Env} {call other : Call Statement Answer Result Request} {statement : Statement}
    {next : Answer statement → Program Statement Answer Result}
    (permitted : apart interrupts config (.advance i env : Label Request Env) = true) (found : config.calls[i]? = some call)
    (shape : call.running = .stmt statement next) (there : config.calls[j]? = some other) (elsewhere : j ≠ i)
    (live : other.live = true) : interrupts config.store statement other = false := by
  simp only [apart, found, shape] at permitted
  have among : other ∈ config.calls.eraseIdx i := List.mem_eraseIdx_iff_getElem?.mpr ⟨j, elsewhere, there⟩
  have spared := List.all_eq_true.mp permitted other among
  simpa [live] using spared

/-- Runs that interrupt less are apart in the weaker sense too. -/
theorem apart_mono {fewer : Store → Statement → Call Statement Answer Result Request → Bool} {label : Label Request Env}
    (weaker : ∀ store statement other, fewer store statement other = true → interrupts store statement other = true)
    (permitted : apart interrupts config label = true) : apart fewer config label = true := by
  cases label with
  | invoke request => rfl
  | advance i env =>
    simp only [apart] at permitted ⊢
    cases found : config.calls[i]? with
    | none => rfl
    | some call =>
      simp only [found] at permitted
      cases shape : call.running with
      | done result => simp only [shape]
      | stmt statement next =>
        simp only [shape] at permitted ⊢
        refine List.all_eq_true.mpr fun other member => ?_
        have spared := List.all_eq_true.mp permitted other member
        cases interrupted : fewer config.store statement other with
        | false => simp
        | true =>
          rw [weaker _ _ _ interrupted] at spared
          simpa using spared

end Apart

/-- A property of the store, and one of a call against it: they are kept when each statement keeps both for its own call,
    and the second for every other call that is there. -/
theorem store_and_calls_keep {permits : Config Statement Answer Result Request Store → Label Request Env → Bool}
    {config : Config Statement Answer Result Request Store} (Inv : Store → Prop)
    (Holds : Store → Call Statement Answer Result Request → Prop)
    (starts : ∀ store, service.initial store → Inv store)
    (invoked : ∀ store request, Inv store → Holds store ⟨request, [], service.program request⟩)
    (own : ∀ config (i : Nat) env call statement next, (service.machine.restrict permits).Reachable config →
      permits config (.advance i env) = true → config.calls[i]? = some call → call.running = .stmt statement next →
      Inv config.store → Holds config.store call → Inv (service.execute env statement config.store).2 ∧
        Holds (service.execute env statement config.store).2 ⟨call.request,
          call.trace ++ [⟨statement, (service.execute env statement config.store).1⟩],
          next (service.execute env statement config.store).1⟩)
    (others : ∀ config (i j : Nat) env call other statement next, (service.machine.restrict permits).Reachable config →
      permits config (.advance i env) = true → config.calls[i]? = some call → call.running = .stmt statement next →
      config.calls[j]? = some other → j ≠ i → Inv config.store → Holds config.store other →
      Holds (service.execute env statement config.store).2 other)
    (reached : (service.machine.restrict permits).Reachable config) :
    Inv config.store ∧ ∀ (i : Nat) call, config.calls[i]? = some call → Holds config.store call := by
  apply Reachable.induction (fun config => Inv config.store ∧
    ∀ (i : Nat) call, config.calls[i]? = some call → Holds config.store call) reached
  · rintro start ⟨initial, idle⟩
    refine ⟨starts _ initial, fun i call found => ?_⟩
    simp [idle] at found
  · rintro before after label visited ⟨inv, holds⟩ permitted step
    obtain ⟨allowed, permits⟩ := restrict_allowed.mp permitted
    rcases step_cases allowed step with ⟨request, rfl⟩ | ⟨i, env, call, statement, next, rfl, found, shape, -, rfl⟩
    · refine ⟨inv, fun k call there => ?_⟩
      rcases getElem?_append_cases there with earlier | rfl
      · exact holds k call earlier
      · exact invoked before.store request inv
    · obtain ⟨kept, mine⟩ := own before i env call statement next visited permits found shape inv (holds i call found)
      refine ⟨kept, fun k other there => ?_⟩
      rcases getElem?_set_cases found there with ⟨rfl, rfl⟩ | ⟨elsewhere, earlier⟩
      · exact mine
      · exact others before i k env call other statement next visited permits found shape earlier elsewhere inv
          (holds k other earlier)

/- What happens after a given moment of a run. -/

section Later
variable {permits : Config Statement Answer Result Request Store → Label Request Env → Bool}
    {config later : Config Statement Answer Result Request Store}

/-- What a call was answered stays in its trace. -/
theorem events_stay (leads : (service.machine.restrict permits).Leads config later) :
    ∀ (k : Nat) call, config.calls[k]? = some call → ∀ event ∈ call.trace,
      ∃ same, later.calls[k]? = some same ∧ event ∈ same.trace := by
  refine Leads.invariant (fun later : Config Statement Answer Result Request Store => ∀ (k : Nat) call,
    config.calls[k]? = some call → ∀ event ∈ call.trace, ∃ same, later.calls[k]? = some same ∧ event ∈ same.trace) leads ?_ ?_
  · exact fun k call there event past => ⟨call, there, past⟩
  · intro s t label stay permitted step k call there event past
    obtain ⟨same, found, kept⟩ := stay k call there event past
    have within : k < s.calls.length := (List.getElem?_eq_some_iff.mp found).1
    rcases step_cases (restrict_allowed.mp permitted).1 step with
      ⟨request, rfl⟩ | ⟨i, env, old, statement, next, -, index, shape, -, rfl⟩
    · exact ⟨same, (List.getElem?_append_left within).trans found, kept⟩
    · by_cases here : i = k
      · subst here
        rw [index, Option.some.injEq] at found
        subst found
        exact ⟨_, List.getElem?_set_self within, List.mem_append_left _ kept⟩
      · exact ⟨same, (List.getElem?_set_ne here).trans found, kept⟩

/-- A condition on the store that every statement keeps. -/
theorem holds_later (Holds : Store → Prop) (reached : (service.machine.restrict permits).Reachable config)
    (leads : (service.machine.restrict permits).Leads config later) (start : Holds config.store)
    (kept : ∀ now (i : Nat) env call statement next, (service.machine.restrict permits).Reachable now →
      (service.machine.restrict permits).Leads config now → permits now (.advance i env) = true →
      now.calls[i]? = some call → call.running = .stmt statement next → Holds now.store →
      Holds (service.execute env statement now.store).2) : Holds later.store := by
  apply Leads.induction (fun later : Config Statement Answer Result Request Store => Holds later.store) reached leads start
  intro s t label visited since holds permitted step
  obtain ⟨allowed, permits⟩ := restrict_allowed.mp permitted
  rcases step_cases allowed step with ⟨request, rfl⟩ | ⟨i, env, old, statement, next, rfl, found, shape, -, rfl⟩
  · exact holds
  · exact kept s i env old statement next visited since permits found shape holds

/-- An event that makes the store meet a condition, which every statement keeps: once a call that came later has
    been answered so, the store meets the condition. -/
theorem marked_later (Marks : Event Statement Answer → Prop) (Holds : Store → Prop)
    (reached : (service.machine.restrict permits).Reachable config)
    (leads : (service.machine.restrict permits).Leads config later)
    (marks : ∀ now (i : Nat) env call statement next, (service.machine.restrict permits).Reachable now →
      (service.machine.restrict permits).Leads config now → permits now (.advance i env) = true →
      now.calls[i]? = some call → call.running = .stmt statement next →
      Marks ⟨statement, (service.execute env statement now.store).1⟩ → Holds (service.execute env statement now.store).2)
    (kept : ∀ now (i : Nat) env call statement next, (service.machine.restrict permits).Reachable now →
      (service.machine.restrict permits).Leads config now → permits now (.advance i env) = true →
      now.calls[i]? = some call → call.running = .stmt statement next → Holds now.store →
      Holds (service.execute env statement now.store).2) :
    ∀ (k : Nat) call, config.calls.length ≤ k → later.calls[k]? = some call → (∃ event ∈ call.trace, Marks event) →
      Holds later.store := by
  apply Leads.induction (fun later : Config Statement Answer Result Request Store => ∀ (k : Nat) call,
    config.calls.length ≤ k → later.calls[k]? = some call → (∃ event ∈ call.trace, Marks event) → Holds later.store)
    reached leads
  · intro k call new there
    rw [List.getElem?_eq_none new] at there
    cases there
  · intro s t label visited since holds permitted step k call new there marked
    obtain ⟨allowed, permits⟩ := restrict_allowed.mp permitted
    rcases step_cases allowed step with ⟨request, rfl⟩ | ⟨i, env, old, statement, next, rfl, found, shape, -, rfl⟩
    · rcases getElem?_append_cases there with earlier | rfl
      · exact holds k call new earlier marked
      · obtain ⟨event, past, -⟩ := marked
        cases past
    · have keeps := kept s i env old statement next visited since permits found shape
      obtain ⟨event, past, mark⟩ := marked
      rcases getElem?_set_cases found there with ⟨rfl, rfl⟩ | ⟨elsewhere, earlier⟩
      · rcases List.mem_append.mp past with before | now
        · exact keeps (holds k old new found ⟨event, before, mark⟩)
        · cases List.mem_singleton.mp now
          exact marks s k env old statement next visited since permits found shape mark
      · exact keeps (holds k call new earlier ⟨event, past, mark⟩)

/-- What shows in every answer from now on shows in the whole trace of the calls that come. -/
theorem answers_later (Shows : Event Statement Answer → Prop)
    (reached : (service.machine.restrict permits).Reachable config)
    (leads : (service.machine.restrict permits).Leads config later)
    (shows : ∀ now (i : Nat) env call statement next, (service.machine.restrict permits).Reachable now →
      (service.machine.restrict permits).Leads config now → permits now (.advance i env) = true →
      now.calls[i]? = some call → call.running = .stmt statement next →
      Shows ⟨statement, (service.execute env statement now.store).1⟩) :
    ∀ (k : Nat) call, config.calls.length ≤ k → later.calls[k]? = some call → ∀ event ∈ call.trace, Shows event := by
  apply Leads.induction (fun later : Config Statement Answer Result Request Store => ∀ (k : Nat) call,
    config.calls.length ≤ k → later.calls[k]? = some call → ∀ event ∈ call.trace, Shows event) reached leads
  · intro k call new there
    rw [List.getElem?_eq_none new] at there
    cases there
  · intro s t label visited since shown permitted step k call new there event past
    obtain ⟨allowed, permits⟩ := restrict_allowed.mp permitted
    rcases step_cases allowed step with ⟨request, rfl⟩ | ⟨i, env, old, statement, next, rfl, found, shape, -, rfl⟩
    · rcases getElem?_append_cases there with earlier | rfl
      · exact shown k call new earlier event past
      · cases past
    · rcases getElem?_set_cases found there with ⟨rfl, rfl⟩ | ⟨elsewhere, earlier⟩
      · rcases List.mem_append.mp past with before | now
        · exact shown k old new found event before
        · cases List.mem_singleton.mp now
          exact shows s k env old statement next visited since permits found shape
      · exact shown k call new earlier event past

end Later

/- A program among the statements of a larger one. -/

section Embedded
variable {Wider : Type} {Reply : Wider → Type}

/-- Statements that are statements of a larger store too, with the same answers. -/
structure Embedding (Statement : Type) (Answer : Statement → Type) (Wider : Type) (Reply : Wider → Type) where
  into : Statement → Wider
  answers : ∀ statement, Reply (into statement) ≃ Answer statement

def Embedding.event (e : Embedding Statement Answer Wider Reply) (event : Event Statement Answer) : Event Wider Reply :=
  ⟨e.into event.statement, (e.answers event.statement).symm event.answer⟩

def Program.among (e : Embedding Statement Answer Wider Reply) : Program Statement Answer Result → Program Wider Reply Result
  | .done result => .done result
  | .stmt statement next => .stmt (e.into statement) fun reply => (next (e.answers statement reply)).among e

variable {e : Embedding Statement Answer Wider Reply} {program : Program Statement Answer Result}
    {atStatement : List (Event Statement Answer) → Statement → Prop}
    {atEnd : List (Event Statement Answer) → Result → Prop} {past : List (Event Statement Answer)}
    {atWider : List (Event Wider Reply) → Wider → Prop} {atWiderEnd : List (Event Wider Reply) → Result → Prop}

theorem obeys_among (obeys : program.Obeys atStatement atEnd past)
    (statements : ∀ past statement, atStatement past statement → atWider (past.map e.event) (e.into statement))
    (ends : ∀ past result, atEnd past result → atWiderEnd (past.map e.event) result) :
    (program.among e).Obeys atWider atWiderEnd (past.map e.event) := by
  induction program generalizing past with
  | done result => exact ends past result obeys
  | stmt statement next ih =>
    constructor
    · exact statements past statement obeys.1
    · intro reply
      have later := ih (e.answers statement reply) (obeys.2 _)
      rw [List.map_append, List.map_singleton, Embedding.event, Equiv.symm_apply_apply] at later
      exact later

end Embedded

/- Where what is in the store comes from. -/

section Origins
variable {service : Service Statement Answer Result Request Env Store} {config : Config Statement Answer Result Request Store}

/-- Each statement of a trace was asked after the answers before it, as the program of its call obeys. -/
theorem events_asked (atStatement : Request → List (Event Statement Answer) → Statement → Prop)
    (sound : ∀ request, (service.program request).Obeys (atStatement request) (fun _ _ => True) [])
    (reached : service.machine.Reachable config) : ∀ call ∈ config.calls, ∀ before event after,
      call.trace = before ++ event :: after → atStatement call.request before event.statement := by
  apply Reachable.induction (fun config : Config Statement Answer Result Request Store => ∀ call ∈ config.calls,
    ∀ before (event : Event Statement Answer) after, call.trace = before ++ event :: after →
      atStatement call.request before event.statement) reached
  · intro s initial call member
    simp [initial.2] at member
  · intro s t label visited asked allowed step call member before event after split
    rcases step_cases allowed step with ⟨request, rfl⟩ | ⟨i, env, old, statement, next, -, found, shape, -, rfl⟩
    · rcases List.mem_append.mp member with earlier | new
      · exact asked call earlier before event after split
      · cases List.mem_singleton.mp new
        simp at split
    · rcases List.mem_or_eq_of_mem_set member with earlier | rfl
      · exact asked call earlier before event after split
      · rcases List.eq_nil_or_concat after with rfl | ⟨rest, last, rfl⟩
        · obtain ⟨rfl, same⟩ := List.append_inj' split rfl
          cases same
          have obeys := calls_obey atStatement (fun _ _ _ => True) sound visited old (List.mem_of_getElem? found)
          rw [shape] at obeys
          exact obeys.1
        · rw [List.concat_eq_append, ← List.cons_append, ← List.append_assoc] at split
          obtain ⟨earlier, -⟩ := List.append_inj' split rfl
          exact asked old (List.mem_of_getElem? found) before event rest earlier

section Things
variable {Thing : Type} {In : Store → Thing → Prop} {Puts : Event Statement Answer → Thing → Prop} {start : Store}

/-- A call was answered when the thing was put in the store. -/
def WasPut (Puts : Event Statement Answer → Thing → Prop) (config : Config Statement Answer Result Request Store)
    (thing : Thing) : Prop :=
  ∃ call ∈ config.calls, ∃ event ∈ call.trace, Puts event thing

theorem wasPut_stays {s t : Config Statement Answer Result Request Store} {label : Label Request Env} {thing : Thing}
    (allowed : service.allowed s label = true) (step : service.step s label = some t) (put : WasPut Puts s thing) :
    WasPut Puts t thing := by
  obtain ⟨call, member, event, past, puts⟩ := put
  rcases step_cases allowed step with ⟨request, rfl⟩ | ⟨i, env, old, statement, next, -, found, -, -, rfl⟩
  · exact ⟨call, List.mem_append_left _ member, event, past, puts⟩
  · have within : i < s.calls.length := (List.getElem?_eq_some_iff.mp found).1
    obtain ⟨k, index⟩ := List.getElem?_of_mem member
    by_cases here : i = k
    · subst here
      rw [found, Option.some.injEq] at index
      subst index
      exact ⟨_, List.mem_of_getElem? (List.getElem?_set_self within), event, List.mem_append_left _ past, puts⟩
    · rw [← List.getElem?_set_ne here] at index
      exact ⟨call, List.mem_of_getElem? index, event, past, puts⟩

/-- What is in the store was there at the start, or a call was answered when it was put there. -/
theorem things_put (In : Store → Thing → Prop) (Puts : Event Statement Answer → Thing → Prop)
    (put : ∀ env statement store thing, In (service.execute env statement store).2 thing →
      In store thing ∨ Puts ⟨statement, (service.execute env statement store).1⟩ thing)
    (starts : ∀ store, service.initial store → store = start) (reached : service.machine.Reachable config) :
    ∀ thing, In config.store thing → In start thing ∨ WasPut Puts config thing := by
  apply Reachable.invariant (fun config : Config Statement Answer Result Request Store => ∀ thing, In config.store thing →
    In start thing ∨ WasPut Puts config thing) reached
  · intro s initial thing there
    rw [starts s.store initial.1] at there
    exact .inl there
  · intro s t label origins allowed step thing there
    have stays := fun put : WasPut Puts s thing => wasPut_stays allowed step put
    rcases step_cases allowed step with ⟨request, rfl⟩ | ⟨i, env, old, statement, next, -, found, -, -, rfl⟩
    · exact (origins thing there).imp_right stays
    · rcases put env statement s.store thing there with before | puts
      · exact (origins thing before).imp_right stays
      · have within : i < s.calls.length := (List.getElem?_eq_some_iff.mp found).1
        exact .inr ⟨_, List.mem_of_getElem? (List.getElem?_set_self within), _,
          List.mem_append_right _ (List.mem_singleton_self _), puts⟩

/-- What a call is told of the store was there at the start, or was put there by some call. -/
theorem told_of (In : Store → Thing → Prop) (Puts Tells : Event Statement Answer → Thing → Prop)
    (put : ∀ env statement store thing, In (service.execute env statement store).2 thing →
      In store thing ∨ Puts ⟨statement, (service.execute env statement store).1⟩ thing)
    (tells : ∀ env statement store thing, Tells ⟨statement, (service.execute env statement store).1⟩ thing → In store thing)
    (starts : ∀ store, service.initial store → store = start) (reached : service.machine.Reachable config) :
    ∀ call ∈ config.calls, ∀ event ∈ call.trace, ∀ thing, Tells event thing → In start thing ∨ WasPut Puts config thing := by
  apply Reachable.induction (fun config : Config Statement Answer Result Request Store => ∀ call ∈ config.calls,
    ∀ event ∈ call.trace, ∀ thing, Tells event thing → In start thing ∨ WasPut Puts config thing) reached
  · intro s initial call member
    simp [initial.2] at member
  · intro s t label visited told allowed step call member event past thing telling
    have stays := fun put : WasPut Puts s thing => wasPut_stays allowed step put
    rcases step_cases allowed step with ⟨request, rfl⟩ | ⟨i, env, old, statement, next, -, found, -, -, rfl⟩
    · rcases List.mem_append.mp member with earlier | new
      · exact (told call earlier event past thing telling).imp_right stays
      · cases List.mem_singleton.mp new
        cases past
    · rcases List.mem_or_eq_of_mem_set member with earlier | rfl
      · exact (told call earlier event past thing telling).imp_right stays
      · rcases List.mem_append.mp past with before | now
        · exact (told old (List.mem_of_getElem? found) event before thing telling).imp_right stays
        · cases List.mem_singleton.mp now
          have there := tells env statement s.store thing telling
          exact (things_put In Puts put starts visited thing there).imp_right stays

end Things

end Origins

end StatementProgram
