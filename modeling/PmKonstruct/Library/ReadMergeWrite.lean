import PmKonstruct.Library.StatementProgram

/- Calls that read a record, merge the fields they were given into the copy, and write every field back. Nothing holds
   the record between the read and the write. -/
namespace ReadMergeWrite
open TransitionRuns StatementProgram

/- A patch names some fields of a record. -/

section Fields
variable {Field : Type} {Value : Field → Type} {named other : ∀ f, Option (Value f)} {copy : ∀ f, Value f}
    {tidy : ∀ f, Value f → Value f}

/-- Records over finitely many fields are compared field by field. -/
@[reducible] def decideFields [∀ f, DecidableEq (Value f)] (fields : List Field) (complete : ∀ f, f ∈ fields) :
    DecidableEq (∀ f, Value f) := fun first second =>
  decidable_of_iff (∀ f ∈ fields, first f = second f)
    ⟨fun same => funext fun f => same f (complete f), fun same f _ => congrFun same f⟩

def Carries (named : ∀ f, Option (Value f)) (record : ∀ f, Value f) : Prop := ∀ f v, named f = some v → record f = v

def NoCommonField (named other : ∀ f, Option (Value f)) : Prop := ∀ f, named f = none ∨ other f = none

/-- A field that is not named is tidied on its way through the copy. -/
def merge (tidy : ∀ f, Value f → Value f) (named : ∀ f, Option (Value f)) (copy : ∀ f, Value f) : ∀ f, Value f :=
  fun f => (named f).getD (tidy f (copy f))

theorem merge_carries : Carries named (merge tidy named copy) := by
  intro f v given
  simp only [merge, given, Option.getD_some]

/-- What the copy carried of another patch goes through the merge. -/
theorem Carries.merge (carries : Carries other copy) (apart : NoCommonField other named)
    (tidied : ∀ f v, other f = some v → tidy f v = v) : Carries other (merge tidy named copy) := by
  intro f v given
  have unnamed : named f = none := by
    rcases apart f with absent | absent
    · rw [absent] at given
      cases given
    · exact absent
  simp only [ReadMergeWrite.merge, unnamed, Option.getD_none, carries f v given, tidied f v given]

theorem NoCommonField.symm (apart : NoCommonField named other) : NoCommonField other named := fun f => (apart f).symm

end Fields

variable {Statement : Type} {Answer : Statement → Type} {Result Request Env Store Record : Type}
    {service : Service Statement Answer Result Request Env Store}

/-- How the statements of a service read and write the records of one kind. -/
structure Records (service : Service Statement Answer Result Request Env Store) (Record : Type) where
  find : Store → Int → Option Record
  took : Event Statement Answer → Option (Int × Record)
  writes : Statement → Option (Int × (Record → Record))
  confirms : Event Statement Answer → Bool
  took_found : ∀ env statement store id record,
    took ⟨statement, (service.execute env statement store).1⟩ = some (id, record) → find store id = some record
  unwritten : ∀ env statement store id, (∀ change, writes statement ≠ some (id, change)) →
    find (service.execute env statement store).2 id = find store id
  written : ∀ env statement store id change, writes statement = some (id, change) →
    find (service.execute env statement store).2 id = (find store id).map change ∨
      (find (service.execute env statement store).2 id = find store id ∧
        confirms ⟨statement, (service.execute env statement store).1⟩ = false)

section Copies
variable (records : Records service Record)

def Records.wrote (event : Event Statement Answer) : Bool :=
  (records.writes event.statement).isSome && records.confirms event

/-- What a call has read and not yet tried to write back. The first copy is the one it merges into. -/
def Records.copied (trace : List (Event Statement Answer)) : Option (Int × Record) :=
  if trace.any fun event => (records.writes event.statement).isSome then none else trace.findSome? records.took

/-- The statement changes the record of which the other call holds a copy. -/
def Records.interrupts [DecidableEq Record] (_ : Store) (statement : Statement)
    (other : Call Statement Answer Result Request) : Bool :=
  match records.writes statement, records.copied other.trace with
  | some (id, change), some (source, copy) => id = source && change copy ≠ copy
  | _, _ => false

variable {records} {trace : List (Event Statement Answer)} {event : Event Statement Answer} {id : Int} {copy : Record}

theorem copied_append (held : records.copied (trace ++ [event]) = some (id, copy)) :
    records.writes event.statement = none ∧
      (records.copied trace = some (id, copy) ∨ records.took event = some (id, copy)) := by
  unfold Records.copied at held ⊢
  rw [List.any_append, List.findSome?_append] at held
  cases before : trace.any fun event => (records.writes event.statement).isSome with
  | true => simp [before] at held
  | false =>
    cases here : records.writes event.statement with
    | some change => simp [here] at held
    | none =>
      refine ⟨rfl, ?_⟩
      cases earlier : trace.findSome? records.took with
      | none =>
        rw [earlier] at held
        simp only [before, here, List.any_cons, List.any_nil, Option.isSome_none, Bool.or_false, Bool.false_eq_true,
          if_false, Option.none_or, List.findSome?_singleton] at held
        exact .inr held
      | some pair =>
        rw [earlier] at held
        simp only [before, here, List.any_cons, List.any_nil, Option.isSome_none, Bool.or_false, Bool.false_eq_true,
          if_false, Option.some_or] at held
        simp only [Bool.false_eq_true, if_false]
        exact .inl held

theorem copied_more {more : List (Event Statement Answer)} (held : records.copied trace = some (id, copy))
    (quiet : ∀ event ∈ more, records.writes event.statement = none) :
    records.copied (trace ++ more) = some (id, copy) := by
  have calm : (more.any fun event => (records.writes event.statement).isSome) = false := by
    rw [List.any_eq_false]
    intro event member
    simp [quiet event member]
  unfold Records.copied at held ⊢
  rw [List.any_append, calm, Bool.or_false, List.findSome?_append]
  split at held
  · cases held
  · next silent =>
    rw [if_neg silent, held, Option.some_or]

variable [DecidableEq Record] {permits : Config Statement Answer Result Request Store → Label Request Env → Bool}
    {config : Config Statement Answer Result Request Store}

/-- As long as nobody changes a record of which a call holds a copy, every copy is current. -/
theorem copies_current (spared : ∀ config label, permits config label = true →
      apart records.interrupts config label = true)
    (reached : (service.machine.restrict permits).Reachable config) :
    ∀ (i : Nat) call, config.calls[i]? = some call → call.live = true → ∀ id copy,
      records.copied call.trace = some (id, copy) → records.find config.store id = some copy := by
  refine (store_and_calls_keep (fun _ => True) (fun store (call : Call Statement Answer Result Request) =>
    call.live = true → ∀ id copy, records.copied call.trace = some (id, copy) → records.find store id = some copy)
    ?_ ?_ ?_ ?_ reached).2
  · intro store initial
    trivial
  · intro store request inv live id copy held
    cases held
  · intro config i env call statement next visited permitted found shape inv current
    refine ⟨trivial, fun live id copy held => ?_⟩
    have underway : call.live = true := by
      unfold Call.live
      rw [shape]
    obtain ⟨reads, source⟩ := copied_append held
    have same : ∀ id, records.find (service.execute env statement config.store).2 id = records.find config.store id := by
      intro id
      refine records.unwritten env statement config.store id fun change writes => ?_
      rw [reads] at writes
      cases writes
    rcases source with earlier | taken
    · rw [same id]
      exact current underway id copy earlier
    · rw [same id]
      exact records.took_found env statement config.store id copy taken
  · intro config i j env call other statement next visited permitted found shape there elsewhere inv current live id
      copy held
    have calm := apart_advance (spared _ _ permitted) found shape there elsewhere live
    have now := current live id copy held
    by_cases written : ∃ change, records.writes statement = some (id, change)
    · obtain ⟨change, writes⟩ := written
      rcases records.written env statement config.store id change writes with changed | ⟨same, -⟩
      · have idle : change copy = copy := by
          simpa [Records.interrupts, writes, held] using calm
        rw [changed, now, Option.map_some, idle]
      · rw [same, now]
    · rw [records.unwritten env statement config.store id fun change writes => written ⟨change, writes⟩]
      exact now

end Copies

/-- After this trace the statement writes nothing, or the merge of the copy that is held. -/
def Records.WritesMerge (records : Records service Record) {Field : Type} {Value : Field → Type}
    (fields : Record → ∀ f, Value f) (tidy : ∀ f, Value f → Value f) (target : Option Int)
    (named : ∀ f, Option (Value f)) (past : List (Event Statement Answer)) (statement : Statement) : Prop :=
  ∀ id change, records.writes statement = some (id, change) → target = some id ∧
    ∃ copy, records.copied past = some (id, copy) ∧ fields (change copy) = merge tidy named (fields copy)

theorem writesMerge_of_reads {records : Records service Record} {Field : Type} {Value : Field → Type}
    {fields : Record → ∀ f, Value f} {tidy : ∀ f, Value f → Value f} {target : Option Int}
    {named : ∀ f, Option (Value f)} {past : List (Event Statement Answer)} {statement : Statement}
    (reads : records.writes statement = none) : records.WritesMerge fields tidy target named past statement := by
  intro id change writes
  rw [reads] at writes
  cases writes

/-- Requests that patch the records of one kind: each writes its merge of the copy it holds, and has written it by the time it
    succeeds. -/
structure Patches (records : Records service Record) (Field : Type) (Value : Field → Type) where
  fields : Record → ∀ f, Value f
  tidy : ∀ f, Value f → Value f
  target : Request → Option Int
  named : Request → ∀ f, Option (Value f)
  succeeded : Result → Bool
  named_tidy : ∀ request f v, named request f = some v → tidy f v = v
  merges : ∀ request, (service.program request).Obeys
    (records.WritesMerge fields tidy (target request) (named request))
    (fun past result => succeeded result = true → (target request).isSome = true → past.any records.wrote = true) []

section Kept
variable {records : Records service Record} {Field : Type} {Value : Field → Type}
    (patches : Patches records Field Value)

def Patches.Apart (first second : Request) : Prop :=
  ∀ id, patches.target first = some id → patches.target second = some id →
    NoCommonField (patches.named first) (patches.named second)

def Patches.Kept (store : Store) (request : Request) : Prop :=
  ∃ id record, patches.target request = some id ∧ records.find store id = some record ∧
    Carries (patches.named request) (patches.fields record)

variable {patches} {store : Store} {env : Env} {statement : Statement} {request other : Request}
    {past : List (Event Statement Answer)}

theorem Patches.Apart.symm (apart : patches.Apart request other) : patches.Apart other request :=
  fun id first second => (apart id second first).symm

section Write
variable {id : Int} {change : Record → Record} {copy : Record}

/-- A request's own write makes its fields hold. -/
theorem Patches.kept_written (writes : records.writes statement = some (id, change))
    (confirmed : records.confirms ⟨statement, (service.execute env statement store).1⟩ = true)
    (target : patches.target request = some id) (now : records.find store id = some copy)
    (merged : patches.fields (change copy) = merge patches.tidy (patches.named request) (patches.fields copy)) :
    patches.Kept (service.execute env statement store).2 request := by
  rcases records.written env statement store id change writes with changed | ⟨-, unconfirmed⟩
  · rw [now, Option.map_some] at changed
    refine ⟨id, change copy, target, changed, ?_⟩
    rw [merged]
    exact merge_carries
  · rw [confirmed] at unconfirmed
    cases unconfirmed

/-- A write out of a current copy keeps what requests with other fields, and earlier writes of its own, have left. -/
theorem Patches.Kept.write (kept : patches.Kept store other)
    (issued : ∀ id change, records.writes statement = some (id, change) → patches.target request = some id ∧
      ∃ copy, records.find store id = some copy ∧
        patches.fields (change copy) = merge patches.tidy (patches.named request) (patches.fields copy))
    (apart : other = request ∨ patches.Apart other request) :
    patches.Kept (service.execute env statement store).2 other := by
  obtain ⟨id, record, target, found, carries⟩ := kept
  by_cases written : ∃ change, records.writes statement = some (id, change)
  · obtain ⟨change, writes⟩ := written
    rcases records.written env statement store id change writes with changed | ⟨same, -⟩
    · obtain ⟨own, copy, now, merged⟩ := issued id change writes
      rw [found] at now
      cases now
      rw [found, Option.map_some] at changed
      refine ⟨id, change record, target, changed, ?_⟩
      rw [merged]
      rcases apart with rfl | apart
      · exact merge_carries
      · exact carries.merge (apart id target own) (patches.named_tidy other)
    · exact ⟨id, record, target, same.trans found, carries⟩
  · refine ⟨id, record, target, ?_, carries⟩
    rw [records.unwritten env statement store id fun change writes => written ⟨change, writes⟩]
    exact found

end Write

theorem pairwise_elsewhere {α : Type} {R : α → α → Prop} {items : List α} {first second : α} {i j : Nat}
    (symm : ∀ {a b}, R a b → R b a) (pairwise : items.Pairwise R) (here : items[i]? = some first)
    (there : items[j]? = some second) (elsewhere : j ≠ i) : R second first := by
  obtain ⟨inside, rfl⟩ := List.getElem?_eq_some_iff.mp here
  obtain ⟨within, rfl⟩ := List.getElem?_eq_some_iff.mp there
  rcases Nat.lt_or_gt_of_ne elsewhere with before | after
  · exact List.pairwise_iff_getElem.mp pairwise j i within inside before
  · exact symm (List.pairwise_iff_getElem.mp pairwise i j inside within after)

variable [DecidableEq Record] {permits : Config Statement Answer Result Request Store → Label Request Env → Bool}
    {config : Config Statement Answer Result Request Store}

/-- What a live call is about to write is the merge of the record as it stands. -/
theorem Patches.issued (patches : Patches records Field Value)
    (spared : ∀ config label, permits config label = true → StatementProgram.apart records.interrupts config label = true)
    (reached : (service.machine.restrict permits).Reachable config) {i : Nat}
    {call : Call Statement Answer Result Request} {next : Answer statement → Program Statement Answer Result}
    (found : config.calls[i]? = some call) (shape : call.running = .stmt statement next) :
    ∀ id change, records.writes statement = some (id, change) → patches.target call.request = some id ∧
      ∃ copy, records.find config.store id = some copy ∧
        patches.fields (change copy) = merge patches.tidy (patches.named call.request) (patches.fields copy) := by
  intro id change writes
  have obeys := calls_obey _ _ patches.merges (restrict_reachable reached) call (List.mem_of_getElem? found)
  rw [shape] at obeys
  obtain ⟨target, copy, held, merged⟩ := obeys.1 id change writes
  have live : call.live = true := by
    unfold Call.live
    rw [shape]
  exact ⟨target, copy, copies_current spared reached i call found live id copy held, merged⟩

/-- Requests that name no common field all find their values in the record from their writes on. -/
theorem Patches.kept (patches : Patches records Field Value)
    (spared : ∀ config label, permits config label = true → StatementProgram.apart records.interrupts config label = true)
    (reached : (service.machine.restrict permits).Reachable config)
    (apart : (config.calls.map (·.request)).Pairwise patches.Apart) :
    ∀ (j : Nat) call, config.calls[j]? = some call → call.trace.any records.wrote = true →
      patches.Kept config.store call.request := by
  apply Reachable.induction (fun config : Config Statement Answer Result Request Store =>
    (config.calls.map (·.request)).Pairwise patches.Apart → ∀ (j : Nat) call, config.calls[j]? = some call →
      call.trace.any records.wrote = true → patches.Kept config.store call.request) reached ?_ ?_ apart
  · rintro start ⟨-, idle⟩ - j call found
    simp [idle] at found
  · intro before after label visited kept permitted step apart j other there wrote
    rcases step_cases (restrict_allowed.mp permitted).1 step with
      ⟨request, rfl⟩ | ⟨i, env, call, statement, next, -, found, shape, -, rfl⟩
    · rw [List.map_append] at apart
      rcases getElem?_append_cases there with earlier | rfl
      · exact kept (List.pairwise_append.mp apart).1 j other earlier wrote
      · cases wrote
    · have earlierApart : (before.calls.map (·.request)).Pairwise patches.Apart := by
        rwa [requests_set found] at apart
      have issued := patches.issued spared visited found shape
      rcases getElem?_set_cases found there with ⟨rfl, rfl⟩ | ⟨elsewhere, earlier⟩
      · rw [List.any_append, Bool.or_eq_true, List.any_cons, List.any_nil, Bool.or_false] at wrote
        rcases wrote with earlier | now
        · exact (kept earlierApart j call found earlier).write issued (.inl rfl)
        · obtain ⟨writing, confirmed⟩ := Bool.and_eq_true_iff.mp now
          obtain ⟨⟨id, change⟩, writes⟩ := Option.isSome_iff_exists.mp writing
          obtain ⟨target, copy, current, merged⟩ := issued id change writes
          exact Patches.kept_written writes confirmed target current merged
      · have named : (before.calls.map (·.request))[i]? = some call.request := by
          rw [List.getElem?_map, found, Option.map_some]
        have others : (before.calls.map (·.request))[j]? = some other.request := by
          rw [List.getElem?_map, earlier, Option.map_some]
        exact (kept earlierApart j other earlier wrote).write issued
          (.inr (pairwise_elsewhere Patches.Apart.symm earlierApart named others elsewhere))

/-- Requests that name no common field all find their values in the record, once they have succeeded. -/
theorem Patches.kept_done (patches : Patches records Field Value)
    (spared : ∀ config label, permits config label = true → StatementProgram.apart records.interrupts config label = true)
    (reached : (service.machine.restrict permits).Reachable config)
    (apart : (config.calls.map (·.request)).Pairwise patches.Apart) {call : Call Statement Answer Result Request}
    {result : Result} (member : call ∈ config.calls) (done : call.running = .done result)
    (succeeded : patches.succeeded result = true) (meant : (patches.target call.request).isSome = true) :
    patches.Kept config.store call.request := by
  have obeys := calls_obey _ _ patches.merges (restrict_reachable reached) call member
  rw [done] at obeys
  obtain ⟨j, found⟩ := List.mem_iff_getElem?.mp member
  exact patches.kept spared reached apart j call found (obeys succeeded meant)

end Kept

end ReadMergeWrite
