import PmKonstruct.Media.Sweeper

/- What the worker may do to the queue, whatever storage answers, however many passes overlap and wherever they die. A
   pass removes a key or records its failure right after storage answered for exactly that key, and touches no other. -/
namespace SweptKeys
open PlainText DomainErrors Accounts KeyedTable TransitionRuns StatementProgram Sweeper

abbrev Trace : Type := List (Event Statement Answer)

/-- The key was among a batch. -/
def Offered (trace : Trace) (key : Text) : Prop :=
  ∃ limit keys, (⟨.pendingDeletions limit, .ok keys⟩ : Event Statement Answer) ∈ trace ∧ key ∈ keys

/-- Storage deleted the object, or had none. -/
def Settles (key : Text) (event : Event Statement Answer) : Prop :=
  event = ⟨.deleteObject key, .ok ()⟩ ∨ event = ⟨.deleteObject key, .error .notFound⟩

def Fails (key : Text) (e : PortError) (event : Event Statement Answer) : Prop :=
  e ≠ .notFound ∧ event = ⟨.deleteObject key, .error e⟩

/- The programs, whatever they are answered. -/

/-- Storage is only asked for what was offered. -/
def Ordered (past : Trace) : Prop :=
  ∀ key answer, (⟨.deleteObject key, answer⟩ : Event Statement Answer) ∈ past → Offered past key

def Turn (past : Trace) : Request → Statement → Prop
  | .sweep, .pendingDeletions _ => True
  | .sweep, .deleteObject key => Offered past key
  | .sweep, .markDeleted key => Offered past key ∧ ∃ event, past.getLast? = some event ∧ Settles key event
  | .sweep, .markDeletionFailed key error => Offered past key ∧
    ∃ e event, past.getLast? = some event ∧ Fails key e event ∧ error = describe e
  | .enqueue _, .enqueueDeletions _ => True
  | _, _ => False

def At (request : Request) (past : Trace) (statement : Statement) : Prop := Ordered past ∧ Turn past request statement

section Programs
variable {past more : Trace} {event : Event Statement Answer} {key : Text} {request : Request}

theorem Offered.append (offered : Offered past key) : Offered (past ++ more) key := by
  obtain ⟨limit, keys, shown, among⟩ := offered
  exact ⟨limit, keys, List.mem_append_left _ shown, among⟩

theorem ordered_nil : Ordered [] := fun _ _ asked => absurd asked List.not_mem_nil

theorem Ordered.snoc (ordered : Ordered past)
    (offered : ∀ key answer, event = ⟨.deleteObject key, answer⟩ → Offered past key) :
    Ordered (past ++ [event]) := by
  intro key answer asked
  rcases List.mem_append.mp asked with before | now
  · exact (ordered key answer before).append
  · exact (offered key answer (List.mem_singleton.mp now).symm).append

/-- The error of a database statement ends the call. -/
theorem obeys_ask {statement : Statement} {next : Reply statement → Steps} (ordered : Ordered past)
    (turn : Turn past request statement) (other : ∀ key, statement ≠ .deleteObject key)
    (later : ∀ reply, Ordered (past ++ [⟨statement, .ok reply⟩]) →
      (next reply).Obeys (At request) (fun past _ => Ordered past) (past ++ [⟨statement, .ok reply⟩])) :
    (ask statement next).Obeys (At request) (fun past _ => Ordered past) past := by
  have grown : ∀ answer, Ordered (past ++ [⟨statement, answer⟩]) := by
    intro answer
    refine ordered.snoc fun key _ same => absurd (congrArg Event.statement same) (other key)
  refine ⟨⟨ordered, turn⟩, fun answer => ?_⟩
  cases answer with
  | error e => exact grown _
  | ok reply => exact later reply (grown _)

theorem sweepKeys_obeys {keys : List Text} {swept : Nat} (ordered : Ordered past) (offered : ∀ key ∈ keys, Offered past key) :
    (sweepKeys keys swept).Obeys (At .sweep) (fun past _ => Ordered past) past := by
  induction keys generalizing past swept with
  | nil => exact ordered
  | cons key rest ih =>
    obtain ⟨first, others⟩ := List.forall_mem_cons.mp offered
    have asked : ∀ answer : Except PortError Unit, Ordered (past ++ [⟨.deleteObject key, answer⟩]) := by
      intro answer
      refine ordered.snoc fun other _ same => ?_
      cases same
      exact first
    refine ⟨⟨ordered, first⟩, fun answer => ?_⟩
    have marking : ∀ event : Event Statement Answer, event = ⟨.deleteObject key, answer⟩ → Settles key event →
        (ask (.markDeleted key) fun _ => sweepKeys rest (swept + 1)).Obeys (At .sweep) (fun past _ => Ordered past)
          (past ++ [⟨.deleteObject key, answer⟩]) := by
      rintro event rfl settles
      refine obeys_ask (asked answer) ⟨first.append, _, List.getLast?_concat, settles⟩ (by simp) fun _ grown => ?_
      exact ih grown fun other among => (others other among).append.append
    have failing : ∀ e, e ≠ PortError.notFound → answer = .error e →
        (ask (.markDeletionFailed key (describe e)) fun _ => sweepKeys rest swept).Obeys (At .sweep)
          (fun past _ => Ordered past) (past ++ [⟨.deleteObject key, answer⟩]) := by
      rintro e other rfl
      refine obeys_ask (asked _) ⟨first.append, e, _, List.getLast?_concat, ⟨other, rfl⟩, rfl⟩ (by simp) fun _ grown => ?_
      exact ih grown fun other among => (others other among).append.append
    cases answer with
    | ok reply => exact marking _ rfl (.inl rfl)
    | error e =>
      cases e with
      | notFound => exact marking _ rfl (.inr rfl)
      | _ => exact failing _ (by simp) rfl

theorem program_obeys (request : Request) : (program request).Obeys (At request) (fun past _ => Ordered past) [] := by
  cases request with
  | sweep =>
    refine obeys_ask ordered_nil trivial (by simp) fun pending ordered => ?_
    split
    · exact ordered
    · exact sweepKeys_obeys ordered fun key among => ⟨_, pending, List.mem_append_right _ (List.mem_singleton_self _), among⟩
  | enqueue keys => exact obeys_ask ordered_nil trivial (by simp) fun _ ordered => ordered

end Programs

/- What a statement does to the rows. -/

/-- A failure of the key was written down. -/
def records (key : Text) : Event Statement Answer → Bool
  | ⟨.markDeletionFailed other _, .ok _⟩ => other = key
  | _ => false

/-- The key was taken out of the queue. -/
def removes (key : Text) : Event Statement Answer → Bool
  | ⟨.markDeleted other, .ok _⟩ => other = key
  | _ => false

section Rows
variable {queue : Queue} {row : QueueRow} {key : Text} {env : Env} {statement : Statement}

theorem mem_keys : key ∈ queue.keys ↔ ∃ row ∈ queue.table.rows, row.objectKey = key := List.mem_map

theorem mem_enqueue {now : Instant} {keys : List Text} (there : row ∈ queue.table.rows) :
    row ∈ (queue.enqueue now keys).table.rows := by
  induction keys generalizing queue with
  | nil => exact there
  | cons key rest ih =>
    refine ih ?_
    rw [enqueueOne]
    split
    · exact Table.mem_insert.mpr (.inl there)
    · exact there

theorem mem_remove : row ∈ (queue.remove key).table.rows ↔ row ∈ queue.table.rows ∧ row.objectKey ≠ key := by
  rw [Queue.remove, Table.mem_delete, decide_eq_false_iff_not]

theorem mem_recordFailure {now : Instant} {error : Text} (there : row ∈ queue.table.rows) :
    (if row.objectKey = key then failedAt now error row else row) ∈ (queue.recordFailure now key error).table.rows := by
  refine List.mem_map.mpr ⟨row, there, ?_⟩
  simp only [decide_eq_true_eq]

/-- A row stays as it is, or a failure of its key is added to it, or its key is removed. -/
theorem execute_row (there : row ∈ queue.table.rows) :
    (row ∈ (execute env statement queue).2.table.rows ∧
      records row.objectKey ⟨statement, (execute env statement queue).1⟩ = false) ∨
    (∃ error, statement = .markDeletionFailed row.objectKey error ∧
      failedAt env.now error row ∈ (execute env statement queue).2.table.rows ∧
      records row.objectKey ⟨statement, (execute env statement queue).1⟩ = true) ∨
    (statement = .markDeleted row.objectKey ∧ row.objectKey ∉ (execute env statement queue).2.keys ∧
      removes row.objectKey ⟨statement, (execute env statement queue).1⟩ = true) := by
  obtain ⟨fault, storage, now, tie⟩ := env
  cases statement with
  | deleteObject key => exact .inl ⟨there, rfl⟩
  | pendingDeletions limit =>
    cases fault with
    | some e => exact .inl ⟨there, rfl⟩
    | none => exact .inl ⟨there, rfl⟩
  | enqueueDeletions keys =>
    cases fault with
    | some e => exact .inl ⟨there, rfl⟩
    | none =>
      refine .inl ⟨?_, rfl⟩
      simp only [execute, perform, enqueueDeletions]
      split
      · exact there
      · exact mem_enqueue there
  | markDeleted key =>
    cases fault with
    | some e => exact .inl ⟨there, rfl⟩
    | none =>
      by_cases same : row.objectKey = key
      · subst same
        refine .inr (.inr ⟨rfl, fun still => ?_, decide_eq_true rfl⟩)
        obtain ⟨other, left, same⟩ := mem_keys.mp still
        exact (mem_remove.mp left).2 same
      · exact .inl ⟨mem_remove.mpr ⟨there, same⟩, rfl⟩
  | markDeletionFailed key error =>
    cases fault with
    | some e => exact .inl ⟨there, rfl⟩
    | none =>
      simp only [execute, perform, markDeletionFailed]
      split
      · exact .inl ⟨there, rfl⟩
      · have kept := @mem_recordFailure _ _ key now error there
        by_cases same : row.objectKey = key
        · rw [if_pos same] at kept
          subst same
          exact .inr (.inl ⟨error, rfl, kept, decide_eq_true rfl⟩)
        · rw [if_neg same] at kept
          exact .inl ⟨kept, decide_eq_false fun here => same here.symm⟩

theorem mem_pending {limit : Nat} (among : key ∈ queue.pending env limit) : key ∈ queue.keys := by
  obtain ⟨row, listed, same⟩ := List.mem_map.mp among
  have chosen := (List.mem_insertionSort _).mp (List.mem_of_mem_take listed)
  exact mem_keys.mpr ⟨row, (Table.mem_select.mp chosen).1, same⟩

theorem nodup_pending {limit : Nat} : (queue.pending env limit).Nodup := by
  have chosen : (((queue.table.select (·.attempts < 10)).insertionSort (listedBefore env)).take limit).Nodup :=
    ((List.perm_insertionSort _ _).nodup_iff.mpr Table.nodup_select).sublist (List.take_sublist _ _)
  refine List.Nodup.map_on ?_ chosen
  intro a left b right same
  have first := (Table.mem_select.mp ((List.mem_insertionSort _).mp (List.mem_of_mem_take left))).1
  have second := (Table.mem_select.mp ((List.mem_insertionSort _).mp (List.mem_of_mem_take right))).1
  exact queue.unique a first b second same

end Rows

/- What a step does to the queue. -/

/-- Storage deleted the object for some pass, or had none. -/
def Settled (config : Sweeps) (key : Text) : Prop := ∃ call ∈ config.calls, ∃ event ∈ call.trace, Settles key event

/-- A pass that was offered the key has just had storage answer for it: the object is gone and the key with it, or the
    failure is added to the row. -/
def Answers (trace : Trace) (row : QueueRow) (after : Queue) : Prop :=
  Offered trace row.objectKey ∧ ∃ event, trace.getLast? = some event ∧
    ((Settles row.objectKey event ∧ row.objectKey ∉ after.keys) ∨
      ∃ e now, Fails row.objectKey e event ∧ failedAt now (describe e) row ∈ after.table.rows)

/-- A row stays as it is unless such a pass changes it. -/
def Lawful (before after : Sweeps) : Prop :=
  ∀ row ∈ before.store.table.rows, row ∈ after.store.table.rows ∨ ∃ call ∈ before.calls, Answers call.trace row after.store

/-- How many statements of this kind the calls have made. -/
def tally (noted : Event Statement Answer → Bool) (config : Sweeps) : Nat :=
  (config.calls.map fun call => call.trace.countP noted).sum

section Steps
variable {config after : Sweeps} {label : Label Request Env} {key : Text} {row : QueueRow}

theorem calls_ordered (reached : sweeps.machine.Reachable config) :
    ∀ call ∈ config.calls, call.running.Obeys (At call.request) (fun past _ => Ordered past) call.trace :=
  calls_obey At (fun _ past _ => Ordered past) program_obeys reached

theorem ordered_trace {call : Pass} (obeys : call.running.Obeys (At call.request) (fun past _ => Ordered past) call.trace) :
    Ordered call.trace := by
  cases shape : call.running with
  | done result =>
    rw [shape] at obeys
    exact obeys
  | stmt statement next =>
    rw [shape] at obeys
    exact obeys.1.1

/-- Whose turn it is to remove the key has just had storage answer for it. -/
theorem turn_marks {request : Request} {past : Trace} (turn : Turn past request (.markDeleted key)) :
    Offered past key ∧ ∃ event, past.getLast? = some event ∧ Settles key event := by
  cases request with
  | sweep => exact turn
  | enqueue keys => exact turn.elim

theorem turn_fails {request : Request} {past : Trace} {error : Text}
    (turn : Turn past request (.markDeletionFailed key error)) :
    Offered past key ∧ ∃ e event, past.getLast? = some event ∧ Fails key e event ∧ error = describe e := by
  cases request with
  | sweep => exact turn
  | enqueue keys => exact turn.elim

theorem always_allowed : sweeps.machine.allowed config label = true := by
  cases label with
  | invoke request => rfl
  | advance i env =>
    simp only [Service.machine, Service.allowed]
    split
    · rfl
    · split <;> rfl

theorem step_lawful (reached : sweeps.machine.Reachable config) (step : sweeps.machine.step config label = some after) :
    Lawful config after := by
  intro row there
  rcases step_cases always_allowed step with ⟨request, rfl⟩ | ⟨i, env, call, statement, next, -, found, shape, -, rfl⟩
  · exact .inl there
  · have member := List.mem_of_getElem? found
    have obeys := calls_ordered reached call member
    rw [shape] at obeys
    obtain ⟨⟨-, turn⟩, -⟩ := obeys
    rcases @execute_row config.store row env statement there with ⟨kept, -⟩ | ⟨error, rfl, failed, -⟩ | ⟨rfl, removed, -⟩
    · exact .inl kept
    · obtain ⟨offered, e, event, last, fails, rfl⟩ := turn_fails turn
      exact .inr ⟨call, member, offered, event, last, .inr ⟨e, env.now, fails, failed⟩⟩
    · obtain ⟨offered, event, last, settles⟩ := turn_marks turn
      exact .inr ⟨call, member, offered, event, last, .inl ⟨settles, removed⟩⟩

/-- A batch is of keys that are in the queue. -/
theorem shown_queued {env : Env} {statement : Statement} {queue : Queue} {limit : Nat} {keys : List Text}
    (shown : ⟨.pendingDeletions limit, .ok keys⟩ =
      (⟨statement, (execute env statement queue).1⟩ : Event Statement Answer)) (among : key ∈ keys) :
    key ∈ (execute env statement queue).2.keys := by
  obtain ⟨fault, storage, now, tie⟩ := env
  cases statement with
  | pendingDeletions limit =>
    cases fault with
    | some e => cases shown
    | none =>
      cases shown
      exact mem_pending among
  | _ => cases shown

/-- A call that advances keeps what it was answered before. -/
theorem mem_trace {i : Nat} {old : Pass} {event : Event Statement Answer} {running : Steps}
    (found : config.calls[i]? = some old) (past : ∃ call ∈ config.calls, event ∈ call.trace) (now : Event Statement Answer) :
    ∃ call ∈ config.calls.set i ⟨old.request, old.trace ++ [now], running⟩, event ∈ call.trace := by
  obtain ⟨call, member, past⟩ := past
  obtain ⟨k, there⟩ := List.mem_iff_getElem?.mp member
  have within := (List.getElem?_eq_some_iff.mp found).1
  by_cases here : i = k
  · subst here
    rw [found] at there
    cases there
    exact ⟨_, List.mem_iff_getElem?.mpr ⟨i, List.getElem?_set_self within⟩, List.mem_append_left _ past⟩
  · exact ⟨call, List.mem_iff_getElem?.mpr ⟨k, (List.getElem?_set_ne here).trans there⟩, past⟩

theorem settled_step (step : sweeps.machine.step config label = some after) (settled : Settled config key) :
    Settled after key := by
  obtain ⟨call, member, event, past, settles⟩ := settled
  rcases step_cases always_allowed step with ⟨request, rfl⟩ | ⟨i, env, old, statement, next, -, found, -, -, rfl⟩
  · exact ⟨call, List.mem_append_left _ member, event, past, settles⟩
  · obtain ⟨same, there, kept⟩ := mem_trace found ⟨call, member, past⟩
      ⟨statement, (sweeps.execute env statement config.store).1⟩
    exact ⟨same, there, event, kept, settles⟩

/-- A key that is removed has been settled. -/
theorem kept_or_settled (reached : sweeps.machine.Reachable config) (step : sweeps.machine.step config label = some after)
    (queued : key ∈ config.store.keys) : key ∈ after.store.keys ∨ Settled after key := by
  obtain ⟨row, there, rfl⟩ := mem_keys.mp queued
  rcases step_lawful reached step row there with kept | ⟨call, member, -, event, last, ⟨settles, -⟩ | ⟨e, now, -, failed⟩⟩
  · exact .inl (mem_keys.mpr ⟨row, kept, rfl⟩)
  · exact .inr (settled_step step ⟨call, member, event, List.mem_of_getLast? last, settles⟩)
  · exact .inl (mem_keys.mpr ⟨_, failed, rfl⟩)

theorem offered_kept (reached : sweeps.machine.Reachable config) :
    ∀ call ∈ config.calls, ∀ key, Offered call.trace key → key ∈ config.store.keys ∨ Settled config key := by
  apply Reachable.induction (fun config : Sweeps => ∀ call ∈ config.calls, ∀ key, Offered call.trace key →
    key ∈ config.store.keys ∨ Settled config key) reached
  · intro start ⟨_, idle⟩ call member
    simp [idle] at member
  · intro before after label visited kept _ step call member key offered
    have older : ∀ call ∈ before.calls, Offered call.trace key → key ∈ after.store.keys ∨ Settled after key := by
      intro call member offered
      rcases kept call member key offered with queued | settled
      · exact kept_or_settled visited step queued
      · exact .inr (settled_step step settled)
    rcases step_cases always_allowed step with ⟨request, rfl⟩ | ⟨i, env, old, statement, next, -, found, -, -, rfl⟩
    · rcases List.mem_append.mp member with before | new
      · exact older call before offered
      · cases List.mem_singleton.mp new
        obtain ⟨limit, keys, shown, -⟩ := offered
        cases shown
    · rcases List.mem_or_eq_of_mem_set member with before | rfl
      · exact older call before offered
      · obtain ⟨limit, keys, shown, among⟩ := offered
        rcases List.mem_append.mp shown with before | now
        · exact older old (List.mem_of_getElem? found) ⟨limit, keys, before, among⟩
        · exact .inl (shown_queued (List.mem_singleton.mp now) among)

/- How often a failure was written down. -/

theorem sum_map_set {α : Type} {items : List α} {i : Nat} {old new : α} {d : Nat} (f : α → Nat) (grows : f new = f old + d)
    (found : items[i]? = some old) : ((items.set i new).map f).sum = (items.map f).sum + d := by
  induction items generalizing i with
  | nil => cases found
  | cons first rest ih =>
    cases i with
    | zero =>
      cases found
      simp only [List.set_cons_zero, List.map_cons, List.sum_cons, grows]
      omega
    | succ i =>
      have later := ih found
      simp only [List.set_cons_succ, List.map_cons, List.sum_cons, later]
      omega

theorem tally_append {noted : Event Statement Answer → Bool} {request : Request} {running : Steps} :
    tally noted ⟨config.store, config.calls ++ [⟨request, [], running⟩]⟩ = tally noted config := by
  simp [tally]

theorem tally_advance {noted : Event Statement Answer → Bool} {i : Nat} {call : Pass} {event : Event Statement Answer}
    {running : Steps} {queue : Queue} (found : config.calls[i]? = some call) :
    tally noted ⟨queue, config.calls.set i ⟨call.request, call.trace ++ [event], running⟩⟩ =
      tally noted config + if noted event then 1 else 0 := by
  refine sum_map_set (fun call : Pass => call.trace.countP noted) ?_ found
  rw [List.countP_append, List.countP_singleton]

theorem tally_step {noted : Event Statement Answer → Bool} (step : sweeps.machine.step config label = some after) :
    tally noted config ≤ tally noted after := by
  rcases step_cases always_allowed step with ⟨request, rfl⟩ | ⟨i, env, call, statement, next, -, found, -, -, rfl⟩
  · exact Nat.le_of_eq tally_append.symm
  · rw [tally_advance found]
    exact Nat.le_add_right _ _

theorem tally_leads {noted : Event Statement Answer → Bool} {later : Sweeps} (leads : sweeps.machine.Leads config later) :
    tally noted config ≤ tally noted later :=
  Leads.invariant (fun s => tally noted config ≤ tally noted s) leads (Nat.le_refl _)
    fun _ _ _ fewer _ step => Nat.le_trans fewer (tally_step step)

/-- Unless the key was taken out in between, the row is there with one more attempt for each failure that was written down
    since. -/
def Counted (before later : Sweeps) : Prop :=
  ∀ row ∈ before.store.table.rows, tally (removes row.objectKey) before < tally (removes row.objectKey) later ∨
    ∃ same ∈ later.store.table.rows, same.id = row.id ∧ same.objectKey = row.objectKey ∧
      same.attempts + tally (records row.objectKey) before = row.attempts + tally (records row.objectKey) later

theorem attempts_counted {later : Sweeps} (reached : sweeps.machine.Reachable config)
    (leads : sweeps.machine.Leads config later) : Counted config later := by
  apply Leads.induction (Counted config) reached leads
  · exact fun row there => .inr ⟨row, there, rfl, rfl, rfl⟩
  · intro now next label _ leading counted _ step row there
    rcases counted row there with removed | ⟨same, kept, id, key, attempts⟩
    · exact .inl (Nat.lt_of_lt_of_le removed (tally_step step))
    · rcases step_cases always_allowed step with ⟨request, rfl⟩ | ⟨i, env, call, statement, rest, -, found, shape, -, rfl⟩
      · refine .inr ⟨same, kept, id, key, ?_⟩
        rw [tally_append]
        exact attempts
      · rw [← key] at attempts ⊢
        rcases @execute_row now.store same env statement kept with ⟨left, quiet⟩ | ⟨error, rfl, failed, noted⟩ |
          ⟨rfl, -, removed⟩
        · refine .inr ⟨same, left, id, rfl, ?_⟩
          have none : records same.objectKey ⟨statement, (sweeps.execute env statement now.store).1⟩ = false := quiet
          rw [tally_advance found, none, if_neg Bool.false_ne_true, Nat.add_zero]
          exact attempts
        · refine .inr ⟨_, failed, id, rfl, ?_⟩
          have one : records same.objectKey
              ⟨.markDeletionFailed same.objectKey error, (sweeps.execute env _ now.store).1⟩ = true := noted
          rw [tally_advance found, one, if_pos rfl]
          show same.attempts + 1 + (tally (records same.objectKey) config : Int) = _
          push_cast
          omega
        · have one : removes same.objectKey
              ⟨.markDeleted same.objectKey, (sweeps.execute env _ now.store).1⟩ = true := removed
          rw [tally_advance found, one, if_pos rfl]
          exact .inl (Nat.lt_succ_of_le (tally_leads leading))

end Steps

/- One pass alone. -/

section Alone
variable {queue : Queue} {key other : Text}

theorem keys_remove : other ∈ (queue.remove key).keys ↔ other ∈ queue.keys ∧ other ≠ key := by
  constructor
  · intro still
    obtain ⟨row, left, rfl⟩ := mem_keys.mp still
    obtain ⟨there, apart⟩ := mem_remove.mp left
    exact ⟨mem_keys.mpr ⟨row, there, rfl⟩, apart⟩
  · rintro ⟨queued, apart⟩
    obtain ⟨row, there, rfl⟩ := mem_keys.mp queued
    exact mem_keys.mpr ⟨row, mem_remove.mpr ⟨there, apart⟩, rfl⟩

theorem keys_recordFailure {now : Instant} {error : Text} : (queue.recordFailure now key error).keys = queue.keys := by
  have same : ∀ row : QueueRow, (if row.objectKey = key then failedAt now error row else row).objectKey = row.objectKey := by
    intro row
    split <;> rfl
  simp [Queue.keys, Queue.recordFailure, Table.update, same]

theorem markDeletionFailed_cases {env : Env} {error : Text} :
    (∃ e, markDeletionFailed env key error queue = (.error e, queue)) ∨
      markDeletionFailed env key error queue = (.ok (), queue.recordFailure env.now key error) := by
  rw [markDeletionFailed]
  split
  · exact .inl ⟨_, rfl⟩
  · exact .inr rfl

/-- The keys of a batch that are gone at its end are as many as were counted. -/
def Removed (pending : List Text) (swept : Nat) (before : Queue) : Result → Queue → Prop
  | .error _, _ => True
  | .ok count, after => ∃ gone : List Text, gone.Nodup ∧ (∀ key ∈ gone, key ∈ pending) ∧ count = swept + gone.length ∧
    ∀ key, key ∈ after.keys ↔ key ∈ before.keys ∧ key ∉ gone

theorem removed_cons {rest : List Text} {swept : Nat} {result : Result} {after : Queue} (new : key ∉ rest)
    (removed : Removed rest (swept + 1) (queue.remove key) result after) :
    Removed (key :: rest) swept queue result after := by
  cases result with
  | error e => trivial
  | ok count =>
    obtain ⟨gone, once, among, total, left⟩ := removed
    refine ⟨key :: gone, List.nodup_cons.mpr ⟨fun there => new (among key there), once⟩, ?_, ?_, fun other => ?_⟩
    · exact List.forall_mem_cons.mpr ⟨List.mem_cons_self, fun other there => List.mem_cons_of_mem _ (among other there)⟩
    · rw [List.length_cons]
      omega
    · rw [left, keys_remove, List.mem_cons, not_or, and_assoc]

theorem removed_skip {rest : List Text} {swept : Nat} {result : Result} {before after : Queue}
    (same : before.keys = queue.keys) (removed : Removed rest swept before result after) :
    Removed (key :: rest) swept queue result after := by
  cases result with
  | error e => trivial
  | ok count =>
    obtain ⟨gone, once, among, total, left⟩ := removed
    rw [same] at left
    exact ⟨gone, once, fun other there => List.mem_cons_of_mem _ (among other there), total, left⟩

theorem sweepKeys_removes {pending : List Text} {swept : Nat} (once : pending.Nodup) :
    (sweepKeys pending swept).Ensures execute (Removed pending swept queue) queue := by
  induction pending generalizing swept queue with
  | nil => exact ⟨[], List.nodup_nil, fun _ there => there, rfl, fun key => by simp⟩
  | cons key rest ih =>
    obtain ⟨new, others⟩ := List.nodup_cons.mp once
    have marking : (ask (.markDeleted key) fun _ => sweepKeys rest (swept + 1)).Ensures execute
        (Removed (key :: rest) swept queue) queue := by
      rintro ⟨fault, storage, now, tie⟩
      cases fault with
      | some e => trivial
      | none => exact (ih others).imp fun _ _ => removed_cons new
    have failing : ∀ error, (ask (.markDeletionFailed key error) fun _ => sweepKeys rest swept).Ensures execute
        (Removed (key :: rest) swept queue) queue := by
      rintro error ⟨fault, storage, now, tie⟩
      cases fault with
      | some e => trivial
      | none =>
        rcases @markDeletionFailed_cases queue key ⟨none, storage, now, tie⟩ error with ⟨e, failed⟩ | recorded
        · simp only [execute, perform, failed]
          trivial
        · simp only [execute, perform, recorded]
          exact (ih others).imp fun _ _ => removed_skip keys_recordFailure
    rintro ⟨fault, storage, now, tie⟩
    cases storage with
    | ok reply => cases fault <;> exact marking
    | error e =>
      cases e with
      | notFound => cases fault <;> exact marking
      | _ => cases fault <;> exact failing _

/-- The count of a pass that nobody interrupts. -/
def Swept (before : Queue) : Result → Queue → Prop
  | .error _, _ => True
  | .ok count, after => ∃ gone : List Text, gone.Nodup ∧ gone.length = count ∧
    ∀ key, key ∈ gone ↔ key ∈ before.keys ∧ key ∉ after.keys

theorem sweep_counts : sweep.Ensures execute (Swept queue) queue := by
  rintro ⟨fault, storage, now, tie⟩
  cases fault with
  | some e => trivial
  | none =>
    have offered : ∀ key ∈ queue.pending ⟨none, storage, now, tie⟩ batch, key ∈ queue.keys := fun key => mem_pending
    have once : (queue.pending ⟨none, storage, now, tie⟩ batch).Nodup := nodup_pending
    show Program.Ensures execute _ (if (queue.pending ⟨none, storage, now, tie⟩ batch).isEmpty then
      .done (.ok 0) else sweepKeys (queue.pending ⟨none, storage, now, tie⟩ batch) 0) queue
    split
    · exact ⟨[], List.nodup_nil, rfl, fun key => by simp⟩
    · refine (sweepKeys_removes once).imp fun result after removed => ?_
      cases result with
      | error e => trivial
      | ok count =>
        obtain ⟨gone, distinct, among, total, left⟩ := removed
        refine ⟨gone, distinct, by omega, fun key => ?_⟩
        rw [left]
        exact ⟨fun there => ⟨offered key (among key there), fun both => both.2 there⟩,
          fun ⟨queued, removed⟩ => by_contra fun kept => removed ⟨queued, kept⟩⟩

end Alone

/- The whole of it. -/

/-- A key whose delete failed is still queued, unless storage has answered for exactly that key that its object is gone. -/
def FailedStay (config : Sweeps) : Prop :=
  ∀ call ∈ config.calls, ∀ key e event, event ∈ call.trace → Fails key e event → key ∈ config.store.keys ∨ Settled config key

theorem failed_stay {config : Sweeps} (reached : sweeps.machine.Reachable config) : FailedStay config := by
  rintro call member key e event past ⟨-, rfl⟩
  exact offered_kept reached call member key (ordered_trace (calls_ordered reached call member) key _ past)

theorem never_forgotten {config : Sweeps} (reached : sweeps.machine.Reachable config) :
    (∀ label after, sweeps.machine.step config label = some after → Lawful config after) ∧ FailedStay config ∧
      (∀ later, sweeps.machine.Leads config later → Counted config later) ∧
      ∀ queue envs n, Swept queue (sweep.runFrom execute envs n queue).1 (sweep.runFrom execute envs n queue).2 :=
  ⟨fun _ _ step => step_lawful reached step, failed_stay reached, fun _ leads => attempts_counted reached leads,
    fun _ envs n => sweep_counts.runFrom envs n⟩

/- One object, and two passes that overlap on it. -/

def oneObject : Queue where
  table := ⟨[⟨1, text "1/job/1/x.jpg", 0, none, none, 5⟩], 2, by decide, by decide⟩
  unique := fun _ left _ right _ => (List.mem_singleton.mp left).trans (List.mem_singleton.mp right).symm

def quiet : Sweeps := ⟨oneObject, []⟩

def answered (storage : Except PortError Unit) : Env := ⟨none, storage, 9, fun id => id⟩

def outage : PortError := .unavailable "storage" "timed out"

def finished (call : Pass) : Bool := !call.live

/-- Both list the object. Storage fails the first and deletes it for the second. -/
def overlapping : List (Label Request Env) :=
  [.invoke .sweep, .invoke .sweep, .advance 0 (answered (.ok ())), .advance 1 (answered (.ok ())),
    .advance 0 (answered (.error outage)), .advance 1 (answered (.ok ())), .advance 1 (answered (.ok ())),
    .advance 0 (answered (.ok ()))]

/-- As it is said of every run: a key whose delete failed is queued with more attempts than at the start. -/
def FailedRaised (start config : Sweeps) : Prop :=
  ∀ call ∈ config.calls, ∀ key e event, event ∈ call.trace → Fails key e event →
    ∀ row ∈ start.store.table.rows, row.objectKey = key →
      ∃ same ∈ config.store.table.rows, same.objectKey = key ∧ row.attempts < same.attempts

/-- The second pass takes the key away, and a pass that dies first has written nothing down. -/
theorem failed_key_leaves : (∃ config, sweeps.machine.Leads quiet config ∧ config.calls.map finished = [true, true] ∧
      ¬ FailedRaised quiet config) ∧
    ∃ config, sweeps.machine.Leads quiet config ∧ config.calls.length = 1 ∧ ¬ FailedRaised quiet config := by
  constructor
  · have run : ∃ config, sweeps.machine.execute quiet overlapping = some config ∧
        config.calls.map finished = [true, true] ∧ config.store.table.rows = [] ∧
        ∃ call ∈ config.calls, ⟨.deleteObject (text "1/job/1/x.jpg"), .error outage⟩ ∈ call.trace :=
      ⟨_, rfl, rfl, rfl, _, List.mem_cons_self, List.mem_cons_of_mem _ List.mem_cons_self⟩
    obtain ⟨config, ran, ended, empty, call, member, past⟩ := run
    refine ⟨config, execute_leads ran, ended, fun raised => ?_⟩
    obtain ⟨same, there, -⟩ := raised call member _ _ _ past ⟨by decide, rfl⟩ _ List.mem_cons_self rfl
    rw [empty] at there
    cases there
  · have run : ∃ config, sweeps.machine.execute quiet
          [.invoke .sweep, .advance 0 (answered (.ok ())), .advance 0 (answered (.error outage))] = some config ∧
        config.calls.length = 1 ∧ config.store = oneObject ∧
        ∃ call ∈ config.calls, ⟨.deleteObject (text "1/job/1/x.jpg"), .error outage⟩ ∈ call.trace :=
      ⟨_, rfl, rfl, rfl, _, List.mem_cons_self, List.mem_cons_of_mem _ List.mem_cons_self⟩
    obtain ⟨config, ran, alone, unchanged, call, member, past⟩ := run
    refine ⟨config, execute_leads ran, alone, fun raised => ?_⟩
    obtain ⟨same, there, -, more⟩ := raised call member _ _ _ past ⟨by decide, rfl⟩ _ List.mem_cons_self rfl
    rw [unchanged] at there
    cases List.mem_singleton.mp there
    exact absurd more (by decide)

theorem overlap_never_forgotten : ∃ config, sweeps.machine.Reachable config ∧ config.calls.map finished = [true, true] ∧
    FailedStay config ∧ Settled config (text "1/job/1/x.jpg") := by
  have run : ∃ config, sweeps.machine.execute quiet overlapping = some config ∧
      config.calls.map finished = [true, true] ∧
      ∃ call ∈ config.calls, ⟨.deleteObject (text "1/job/1/x.jpg"), .ok ()⟩ ∈ call.trace :=
    ⟨_, rfl, rfl, _, List.mem_cons_of_mem _ List.mem_cons_self, List.mem_cons_of_mem _ List.mem_cons_self⟩
  obtain ⟨config, ran, ended, call, member, past⟩ := run
  have start : sweeps.machine.initial quiet := ⟨trivial, rfl⟩
  have reached := execute_reachable start ran
  exact ⟨config, reached, ended, (never_forgotten reached).2.1, call, member, _, past, .inl rfl⟩

end SweptKeys
