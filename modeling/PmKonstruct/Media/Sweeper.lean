import PmKonstruct.Library.RowOrder
import PmKonstruct.Library.StatementProgram
import PmKonstruct.Media.DeletionQueue
import PmKonstruct.Store.Requests

/- The worker that deletes queued objects from storage, and the calls that queue them. Storage is not in the database's
   transactions: a pass lists a batch, asks for each object in turn, and writes down what it was told. -/
namespace Sweeper
open PlainText DomainErrors Accounts Schema KeyedTable Requests
open StatementProgram (Program Service Call Config)

structure QueueRow where
  id : Int
  objectKey : Text
  attempts : Int
  lastError : Option Text
  lastAttemptAt : Option Instant
  createdAt : Instant
  deriving DecidableEq, Repr

instance : Keyed QueueRow := ⟨QueueRow.id⟩

/-- The table has a unique index on the object key. -/
structure Queue where
  table : Table QueueRow
  unique : table.Unique (·.objectKey)

def Queue.keys (queue : Queue) : List Text := queue.table.rows.map (·.objectKey)

def enqueueOne (now : Instant) (queue : Queue) (key : Text) : Queue :=
  if absent : ∀ row ∈ queue.table.rows, row.objectKey ≠ key then
    { table := queue.table.insert (fun id => ⟨id, key, 0, none, none, now⟩) fun _ => rfl
      unique := queue.unique.insert absent }
  else queue

/-- `INSERT … SELECT unnest … ON CONFLICT DO NOTHING`. -/
def Queue.enqueue (queue : Queue) (now : Instant) (keys : List Text) : Queue := keys.foldl (enqueueOne now) queue

def Queue.remove (queue : Queue) (key : Text) : Queue where
  table := queue.table.delete fun row => row.objectKey = key
  unique := queue.unique.delete

def failedAt (now : Instant) (error : Text) (row : QueueRow) : QueueRow :=
  { row with
    attempts := row.attempts + 1
    lastError := some error
    lastAttemptAt := some now }

def Queue.recordFailure (queue : Queue) (now : Instant) (key error : Text) : Queue where
  table := queue.table.update (fun row => row.objectKey = key) (failedAt now error) fun _ => rfl
  unique := queue.unique.update fun _ _ _ => rfl

/-- What a statement meets: a fault of the database, the answer of the object store, the clock, and the order in which
    rows of one time are listed. -/
structure Env where
  fault : Option PortError
  storage : Except PortError Unit
  now : Instant
  tie : Int → Int

def listedBefore (env : Env) (a b : QueueRow) : Prop :=
  a.createdAt < b.createdAt ∨ (a.createdAt = b.createdAt ∧ env.tie a.id ≤ env.tie b.id)

instance (env : Env) : DecidableRel (listedBefore env) := fun a b =>
  inferInstanceAs (Decidable (a.createdAt < b.createdAt ∨ (a.createdAt = b.createdAt ∧ env.tie a.id ≤ env.tie b.id)))

/-- A key that has failed ten times is left for triage. -/
def Queue.pending (queue : Queue) (env : Env) (limit : Nat) : List Text :=
  (((queue.table.select (·.attempts < 10)).insertionSort (listedBefore env)).take limit).map (·.objectKey)

inductive Statement where
  | pendingDeletions (limit : Nat)
  | deleteObject (key : Text)
  | markDeleted (key : Text)
  | markDeletionFailed (key error : Text)
  | enqueueDeletions (keys : List Text)

abbrev Reply : Statement → Type
  | .pendingDeletions _ => List Text
  | _ => Unit

abbrev Answer (statement : Statement) : Type := Except PortError (Reply statement)

/-- The attempts are a signed 32-bit column. -/
def markDeletionFailed (env : Env) (key error : Text) (queue : Queue) : Except PortError Unit × Queue :=
  if queue.table.rows.any fun row => row.objectKey = key && decide (2 ^ 31 ≤ row.attempts + 1) then
    (.error (.storage "error returned from database: integer out of range"), queue)
  else (.ok (), queue.recordFailure env.now key error)

def enqueueDeletions (env : Env) (keys : List Text) (queue : Queue) : Except PortError Unit × Queue :=
  match firstViolation (keys.map (tooLong 255)) with
  | some e => (.error e, queue)
  | none => (.ok (), queue.enqueue env.now keys)

section Queued
variable {env : Env} {now : Instant} {queue : Queue} {keys : List Text}

theorem keys_enqueueOne {key : Text} :
    (enqueueOne now queue key).keys = if key ∈ queue.keys then queue.keys else queue.keys ++ [key] := by
  rw [enqueueOne]
  split
  case isTrue absent =>
    have missing : key ∉ queue.keys := by
      intro member
      obtain ⟨row, there, same⟩ := List.mem_map.mp member
      exact absent row there same
    rw [if_neg missing]
    exact List.map_append
  case isFalse present =>
    have there : key ∈ queue.keys := by
      by_contra missing
      exact present fun row there same => missing (List.mem_map.mpr ⟨row, there, same⟩)
    rw [if_pos there]

theorem keys_enqueue : (queue.enqueue now keys).keys = DeletionQueue.enqueue queue.keys keys := by
  induction keys generalizing queue with
  | nil => rfl
  | cons key rest ih =>
    rw [DeletionQueue.enqueue, ← keys_enqueueOne]
    exact ih

/-- Keys that fit are queued as deleted rows queue theirs. -/
theorem enqueueDeletions_keys (fit : ∀ key ∈ keys, key.length ≤ 255) :
    (enqueueDeletions env keys queue).1 = .ok () ∧
    (enqueueDeletions env keys queue).2.keys = DeletionQueue.enqueue queue.keys keys := by
  have fine : firstViolation (keys.map (tooLong 255)) = none := by
    induction keys with
    | nil => rfl
    | cons key rest ih =>
      have short : decide (key.length > 255) = false := decide_eq_false (Nat.not_lt.mpr (fit key List.mem_cons_self))
      rw [List.map_cons, tooLong, firstViolation_cons]
      exact ⟨short, ih fun other among => fit other (List.mem_cons_of_mem _ among)⟩
  rw [enqueueDeletions, fine]
  exact ⟨rfl, keys_enqueue⟩

end Queued

def perform (env : Env) : (statement : Statement) → Queue → Answer statement × Queue
  | .pendingDeletions limit, queue => (.ok (queue.pending env limit), queue)
  | .deleteObject _, queue => (env.storage, queue)
  | .markDeleted key, queue => (.ok (), queue.remove key)
  | .markDeletionFailed key error, queue => markDeletionFailed env key error queue
  | .enqueueDeletions keys, queue => enqueueDeletions env keys queue

/-- Any statement of the database may meet a fault; what storage answers is its own. -/
def execute (env : Env) (statement : Statement) (queue : Queue) : Answer statement × Queue :=
  match statement, env.fault with
  | .deleteObject _, _ => (env.storage, queue)
  | _, some e => (.error e, queue)
  | statement, none => perform env statement queue

def constraintSuffix : Option String → String
  | none => ""
  | some constraint => " (" ++ constraint ++ ")"

/-- The text of an error as it is written to the row. -/
def describe : PortError → Text
  | .notFound => text "not found"
  | .conflict constraint => text ("conflict" ++ constraintSuffix constraint)
  | .checkViolation constraint => text ("invalid value" ++ constraintSuffix constraint)
  | .storage detail => text ("storage: " ++ detail)
  | .unavailable service detail => text ("upstream " ++ service ++ " unavailable: " ++ detail)
  | .rejected service detail => text ("upstream " ++ service ++ " rejected the request: " ++ detail)

/- The programs. -/

abbrev Result : Type := Except PortError Nat

abbrev Steps : Type := Program Statement Answer Result

/-- How many objects one pass takes. -/
def batch : Nat := 50

/-- The error of a database statement ends the pass. -/
def ask (statement : Statement) (next : Reply statement → Steps) : Steps :=
  .stmt statement fun answer =>
    match answer with
    | .error e => .done (.error e)
    | .ok reply => next reply

/-- Already gone is the outcome that was wanted. -/
def sweepKeys : List Text → Nat → Steps
  | [], swept => .done (.ok swept)
  | key :: rest, swept => .stmt (.deleteObject key) fun
    | .ok () => ask (.markDeleted key) fun _ => sweepKeys rest (swept + 1)
    | .error .notFound => ask (.markDeleted key) fun _ => sweepKeys rest (swept + 1)
    | .error error => ask (.markDeletionFailed key (describe error)) fun _ => sweepKeys rest swept

def sweep : Steps :=
  ask (.pendingDeletions batch) fun pending =>
    if pending.isEmpty then .done (.ok 0) else sweepKeys pending 0

inductive Request where
  | sweep
  | enqueue (keys : List Text)

def program : Request → Steps
  | .sweep => sweep
  | .enqueue keys => ask (.enqueueDeletions keys) fun _ => .done (.ok 0)

abbrev Pass : Type := Call Statement Answer Result Request

abbrev Sweeps : Type := Config Statement Answer Result Request Queue

/-- Any number of passes and of calls that queue objects, on any queue. A pass that dies takes no further step. -/
def sweeps : Service Statement Answer Result Request Env Queue where
  program := program
  execute := execute
  initial _ := True
  admits _ _ _ := true

end Sweeper
