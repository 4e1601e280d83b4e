import Mathlib.Algebra.Order.BigOperators.Group.List
import Mathlib.Algebra.Order.Group.Nat
import PmKonstruct.Media.SweptKeys

/- A queue that nobody adds to, and storage that always refuses the same keys: pass after pass spends what attempts are
   left, until only keys that storage refuses remain and none of them is offered again. -/
namespace QueueDrain
open PlainText DomainErrors Accounts KeyedTable Sweeper SweptKeys
open StatementProgram (Program Executes)

/-- Storage deleted the object, or had none. -/
def deletes : Except PortError Unit → Bool
  | .ok () => true
  | .error .notFound => true
  | .error _ => false

/-- A moment without a fault of the database, at which storage refuses the keys that it always refuses and no other. -/
structure Moment (undeletable : Text → Bool) where
  storage : Text → Except PortError Unit
  now : Instant
  tie : Int → Int
  refuses : ∀ key, deletes (storage key) = !undeletable key

variable {undeletable : Text → Bool}

example : Nonempty (Moment undeletable) :=
  ⟨{ storage := fun key => if undeletable key then .error (.storage "denied") else .ok ()
     now := 0
     tie := id
     refuses := by
      intro key
      cases undeletable key <;> rfl }⟩

/-- What a statement meets at a moment. -/
def Moment.env (moment : Moment undeletable) : Statement → Env
  | .deleteObject key => ⟨none, moment.storage key, moment.now, moment.tie⟩
  | _ => ⟨none, .ok (), moment.now, moment.tie⟩

def answering : Executes Statement Answer (Moment undeletable) Queue := fun moment statement queue =>
  execute (moment.env statement) statement queue

/-- The keys that a pass starting at a moment is offered. -/
def offered (queue : Queue) (moment : Moment undeletable) : List Text :=
  queue.pending (moment.env (.pendingDeletions batch)) batch

/-- The queue after a number of passes, each at moments of its own. -/
def passes (moments : Nat → Nat → Moment undeletable) (queue : Queue) : Nat → Queue
  | 0 => queue
  | n + 1 => (sweep.runFrom answering (moments n) 0 (passes moments queue n)).2

def attemptsLeft (row : QueueRow) : Nat := (10 - row.attempts).toNat

/-- The attempts left over all queued keys. -/
def left (queue : Queue) : Nat := (queue.table.rows.map attemptsLeft).sum

/-- Nothing is left to do: what storage deletes is gone, and what it refuses has had its ten attempts. -/
structure Drained (undeletable : Text → Bool) (before after : Queue) : Prop where
  deleted : ∀ row ∈ before.table.rows, undeletable row.objectKey = false → row.attempts < 10 → row.objectKey ∉ after.keys
  spent : ∀ row ∈ before.table.rows, undeletable row.objectKey = true →
    ∃ same ∈ after.table.rows, same.objectKey = row.objectKey ∧ same.attempts = max 10 row.attempts
  untouched : ∀ row ∈ before.table.rows, 10 ≤ row.attempts → row ∈ after.table.rows
  nothing_new : ∀ key ∈ after.keys, key ∈ before.keys
  quiet : ∀ moment : Moment undeletable, offered after moment = []

/- The attempts left. -/

section Measure
variable {queue : Queue} {row : QueueRow} {key : Text}

theorem attemptsLeft_pos_iff : 0 < attemptsLeft row ↔ row.attempts < 10 := by
  rw [attemptsLeft]
  omega

theorem left_eq_zero_iff : left queue = 0 ↔ ∀ row ∈ queue.table.rows, 10 ≤ row.attempts := by
  rw [left, List.sum_eq_zero_iff]
  constructor
  · intro none row there
    have := none _ (List.mem_map_of_mem there)
    rw [attemptsLeft] at this
    omega
  · intro spent count member
    obtain ⟨row, there, rfl⟩ := List.mem_map.mp member
    have := spent row there
    rw [attemptsLeft]
    omega

theorem sum_filter_lt {α : Type} {items : List α} {item : α} {p : α → Bool} {f : α → Nat} (there : item ∈ items)
    (dropped : p item = false) (positive : 0 < f item) : ((items.filter p).map f).sum < (items.map f).sum := by
  induction items with
  | nil => cases there
  | cons first rest ih =>
    have fewer : ((rest.filter p).map f).sum ≤ (rest.map f).sum :=
      List.Sublist.sum_le_sum (List.filter_sublist.map f) fun _ _ => Nat.zero_le _
    rw [List.filter_cons, List.map_cons, List.sum_cons]
    rcases List.mem_cons.mp there with rfl | later
    · rw [dropped, if_neg Bool.false_ne_true]
      omega
    · have less := ih later
      split
      · rw [List.map_cons, List.sum_cons]
        omega
      · omega

/-- An object that is gone takes the attempts left of its key with it. -/
theorem left_remove (there : row ∈ queue.table.rows) (waiting : row.attempts < 10) :
    left (queue.remove row.objectKey) < left queue :=
  sum_filter_lt there (by simp) (attemptsLeft_pos_iff.mpr waiting)

/-- A failure that is written down is one attempt fewer. -/
theorem left_recordFailure {now : Instant} {error : Text} (there : row ∈ queue.table.rows) (waiting : row.attempts < 10) :
    left (queue.recordFailure now row.objectKey error) < left queue := by
  have fewer : ∀ other : QueueRow,
      attemptsLeft (if other.objectKey = row.objectKey then failedAt now error other else other) ≤ attemptsLeft other := by
    intro other
    split
    · simp only [attemptsLeft, failedAt]
      omega
    · exact Nat.le_refl _
  have here : attemptsLeft (if row.objectKey = row.objectKey then failedAt now error row else row) < attemptsLeft row := by
    rw [if_pos rfl]
    simp only [attemptsLeft, failedAt]
    omega
  simp only [left, Queue.recordFailure, Table.update, List.map_map, decide_eq_true_eq]
  exact List.sum_lt_sum _ _ (fun other _ => fewer other) ⟨row, there, here⟩

end Measure

/- One pass. -/

/-- What becomes of the keys of a batch, and that nothing becomes of the others. -/
structure Spent (undeletable : Text → Bool) (pending : List Text) (before after : Queue) : Prop where
  kept : ∀ row ∈ before.table.rows, row.objectKey ∉ pending → row ∈ after.table.rows
  failed : ∀ row ∈ before.table.rows, row.objectKey ∈ pending → undeletable row.objectKey = true →
    ∃ same ∈ after.table.rows, same.objectKey = row.objectKey ∧ same.attempts = row.attempts + 1
  gone : ∀ key ∈ pending, undeletable key = false → key ∉ after.keys
  old : ∀ key ∈ after.keys, key ∈ before.keys
  less : left after + pending.length ≤ left before

/-- The keys of a batch have attempts left. -/
def Waiting (queue : Queue) (pending : List Text) : Prop :=
  ∀ key ∈ pending, ∃ row ∈ queue.table.rows, row.objectKey = key ∧ row.attempts < 10

section Pass
variable {queue after : Queue} {row : QueueRow} {pending : List Text} {swept : Nat} {now : Instant} {error : Text}

theorem waiting_remove {key : Text} (new : key ∉ pending) (waiting : Waiting queue pending) :
    Waiting (queue.remove key) pending := by
  intro other among
  obtain ⟨row, there, rfl, fewer⟩ := waiting other among
  exact ⟨row, mem_remove.mpr ⟨there, fun same => new (same ▸ among)⟩, rfl, fewer⟩

theorem waiting_recordFailure {key : Text} (new : key ∉ pending) (waiting : Waiting queue pending) :
    Waiting (queue.recordFailure now key error) pending := by
  intro other among
  obtain ⟨row, there, rfl, fewer⟩ := waiting other among
  have apart : row.objectKey ≠ key := fun same => new (same ▸ among)
  have still := @mem_recordFailure queue row key now error there
  rw [if_neg apart] at still
  exact ⟨row, still, rfl, fewer⟩

theorem spent_remove (there : row ∈ queue.table.rows) (fewer : row.attempts < 10)
    (deletable : undeletable row.objectKey = false) (spent : Spent undeletable pending (queue.remove row.objectKey) after) :
    Spent undeletable (row.objectKey :: pending) queue after where
  kept other member apart :=
    spent.kept other (mem_remove.mpr ⟨member, List.ne_of_not_mem_cons apart⟩) (List.not_mem_of_not_mem_cons apart)
  failed other member among refused := by
    have apart : other.objectKey ≠ row.objectKey := by
      intro same
      rw [same, deletable] at refused
      cases refused
    exact spent.failed other (mem_remove.mpr ⟨member, apart⟩) (List.mem_of_ne_of_mem apart among) refused
  gone key among allowed := by
    rcases List.mem_cons.mp among with rfl | later
    · intro still
      exact (keys_remove.mp (spent.old _ still)).2 rfl
    · exact spent.gone key later allowed
  old key still := (keys_remove.mp (spent.old key still)).1
  less := by
    have measure := left_remove there fewer
    have rest := spent.less
    rw [List.length_cons]
    omega

theorem spent_recordFailure (there : row ∈ queue.table.rows) (fewer : row.attempts < 10) (new : row.objectKey ∉ pending)
    (refused : undeletable row.objectKey = true)
    (spent : Spent undeletable pending (queue.recordFailure now row.objectKey error) after) :
    Spent undeletable (row.objectKey :: pending) queue after where
  kept other member apart := by
    have still := @mem_recordFailure queue other row.objectKey now error member
    rw [if_neg (List.ne_of_not_mem_cons apart)] at still
    exact spent.kept other still (List.not_mem_of_not_mem_cons apart)
  failed other member among again := by
    have still := @mem_recordFailure queue other row.objectKey now error member
    by_cases same : other.objectKey = row.objectKey
    · rw [if_pos same] at still
      exact ⟨_, spent.kept _ still (show other.objectKey ∉ pending from same ▸ new), rfl, rfl⟩
    · rw [if_neg same] at still
      exact spent.failed other still (List.mem_of_ne_of_mem same among) again
  gone key among allowed := by
    rcases List.mem_cons.mp among with rfl | later
    · rw [refused] at allowed
      cases allowed
    · exact spent.gone key later allowed
  old key still := by
    have before := spent.old key still
    rwa [keys_recordFailure] at before
  less := by
    have measure := @left_recordFailure queue row now error there fewer
    have rest := spent.less
    rw [List.length_cons]
    omega

/-- With attempts left the count stays within its column. -/
theorem markDeletionFailed_waiting {env : Env} (there : row ∈ queue.table.rows) (fewer : row.attempts < 10) :
    markDeletionFailed env row.objectKey error queue = (.ok (), queue.recordFailure env.now row.objectKey error) := by
  rw [markDeletionFailed, if_neg]
  intro overflows
  obtain ⟨other, member, overflow⟩ := List.any_eq_true.mp overflows
  obtain ⟨same, large⟩ := (Bool.and_eq_true _ _).mp overflow
  rw [queue.unique other member row there (of_decide_eq_true same)] at large
  have := of_decide_eq_true large
  omega

theorem spent_nothing : Spent undeletable [] queue queue where
  kept _ there _ := there
  failed _ _ among := absurd among List.not_mem_nil
  gone _ among := absurd among List.not_mem_nil
  old _ still := still
  less := Nat.le_refl _

theorem sweepKeys_spends (once : pending.Nodup) (waiting : Waiting queue pending) :
    (sweepKeys pending swept).Ensures (@answering undeletable) (fun _ after => Spent undeletable pending queue after)
      queue := by
  induction pending generalizing swept queue with
  | nil => exact spent_nothing
  | cons key rest ih =>
    obtain ⟨new, others⟩ := List.nodup_cons.mp once
    obtain ⟨row, there, rfl, fewer⟩ := waiting key List.mem_cons_self
    have later : Waiting queue rest := fun other among => waiting other (List.mem_cons_of_mem _ among)
    have marking : undeletable row.objectKey = false →
        (ask (.markDeleted row.objectKey) fun _ => sweepKeys rest (swept + 1)).Ensures (@answering undeletable)
          (fun _ after => Spent undeletable (row.objectKey :: rest) queue after) queue := by
      intro deletable moment
      exact (ih others (waiting_remove new later)).imp fun _ _ spent => spent_remove there fewer deletable spent
    have failing : undeletable row.objectKey = true → ∀ e,
        (ask (.markDeletionFailed row.objectKey e) fun _ => sweepKeys rest swept).Ensures (@answering undeletable)
          (fun _ after => Spent undeletable (row.objectKey :: rest) queue after) queue := by
      intro refused e moment
      simp only [answering, Moment.env, execute, perform, markDeletionFailed_waiting there fewer]
      exact (ih others (waiting_recordFailure new later)).imp fun _ _ spent =>
        spent_recordFailure there fewer new refused spent
    intro moment
    have answer := moment.refuses row.objectKey
    simp only [answering, Moment.env, execute]
    cases undeletability : undeletable row.objectKey with
    | false =>
      rw [undeletability] at answer
      cases stored : moment.storage row.objectKey with
      | ok reply => exact marking undeletability
      | error e =>
        rw [stored] at answer
        cases e with
        | notFound => exact marking undeletability
        | _ => cases answer
    | true =>
      rw [undeletability] at answer
      cases stored : moment.storage row.objectKey with
      | ok reply =>
        rw [stored] at answer
        cases answer
      | error e =>
        rw [stored] at answer
        cases e with
        | notFound => cases answer
        | _ => exact failing undeletability _

theorem offered_waiting (moment : Moment undeletable) : Waiting queue (offered queue moment) := by
  intro key among
  obtain ⟨row, listed, same⟩ := List.mem_map.mp among
  have chosen := Table.mem_select.mp ((List.mem_insertionSort _).mp (List.mem_of_mem_take listed))
  exact ⟨row, chosen.1, same, of_decide_eq_true chosen.2⟩

/-- A pass finds work exactly when attempts are left, however long the queue is. -/
theorem offered_eq_nil_iff {moment : Moment undeletable} : offered queue moment = [] ↔ left queue = 0 := by
  rw [left_eq_zero_iff]
  constructor
  · intro none row there
    by_contra fewer
    have chosen : row ∈ (queue.table.select (·.attempts < 10)).insertionSort
        (listedBefore (moment.env (.pendingDeletions batch))) :=
      (List.mem_insertionSort _).mpr (Table.mem_select.mpr ⟨there, decide_eq_true (Int.not_le.mp fewer)⟩)
    rcases List.take_eq_nil_iff.mp (List.map_eq_nil_iff.mp none) with empty | empty
    · cases empty
    · rw [empty] at chosen
      exact List.not_mem_nil chosen
  · intro spent
    by_contra some
    obtain ⟨key, among⟩ := List.exists_mem_of_ne_nil _ some
    obtain ⟨row, there, -, fewer⟩ := offered_waiting moment key among
    have := spent row there
    omega

theorem pass_spends (moments : Nat → Moment undeletable) :
    Spent undeletable (offered queue (moments 0)) queue (sweep.runFrom answering moments 0 queue).2 := by
  have keys : (if (offered queue (moments 0)).isEmpty then (.done (.ok 0) : Steps)
      else sweepKeys (offered queue (moments 0)) 0).Ensures (@answering undeletable)
        (fun _ after => Spent undeletable (offered queue (moments 0)) queue after) queue := by
    split
    · rename_i empty
      have none := List.isEmpty_iff.mp empty
      rw [none]
      exact spent_nothing
    · exact sweepKeys_spends nodup_pending (offered_waiting (moments 0))
  exact keys.runFrom moments 1

theorem pass_less (moments : Nat → Moment undeletable) :
    left (sweep.runFrom answering moments 0 queue).2 ≤ left queue - 1 := by
  have less := (@pass_spends undeletable queue moments).less
  cases found : offered queue (moments 0) with
  | nil =>
    have := offered_eq_nil_iff.mp found
    omega
  | cons key rest =>
    rw [found, List.length_cons] at less
    omega

end Pass

/- Pass after pass. -/

/-- How far a queue has come: each row by what storage makes of its key. -/
structure Progress (undeletable : Text → Bool) (before after : Queue) : Prop where
  counted : ∀ row ∈ before.table.rows, undeletable row.objectKey = true → ∃ same ∈ after.table.rows,
    same.objectKey = row.objectKey ∧ row.attempts ≤ same.attempts ∧ same.attempts ≤ max 10 row.attempts
  deleted : ∀ row ∈ before.table.rows, undeletable row.objectKey = false →
    row ∈ after.table.rows ∨ row.objectKey ∉ after.keys
  untouched : ∀ row ∈ before.table.rows, 10 ≤ row.attempts → row ∈ after.table.rows
  old : ∀ key ∈ after.keys, key ∈ before.keys

section Passes
variable {queue before middle after : Queue} {pending : List Text}

theorem progress_refl : Progress undeletable queue queue where
  counted row there _ := ⟨row, there, rfl, Int.le_refl _, by omega⟩
  deleted _ there _ := .inl there
  untouched _ there _ := there
  old _ there := there

theorem Spent.progress (spent : Spent undeletable pending before after) (waiting : Waiting before pending) :
    Progress undeletable before after where
  counted row there refused := by
    by_cases among : row.objectKey ∈ pending
    · obtain ⟨same, still, named, more⟩ := spent.failed row there among refused
      obtain ⟨other, member, here, fewer⟩ := waiting _ among
      rw [before.unique other member row there here] at fewer
      exact ⟨same, still, named, by omega, by omega⟩
    · exact ⟨row, spent.kept row there among, rfl, Int.le_refl _, by omega⟩
  deleted row there deletable := by
    by_cases among : row.objectKey ∈ pending
    · exact .inr (spent.gone _ among deletable)
    · exact .inl (spent.kept row there among)
  untouched row there many := by
    refine spent.kept row there fun among => ?_
    obtain ⟨other, member, here, fewer⟩ := waiting _ among
    rw [before.unique other member row there here] at fewer
    omega
  old := spent.old

theorem Progress.trans (first : Progress undeletable before middle) (second : Progress undeletable middle after) :
    Progress undeletable before after where
  counted row there refused := by
    obtain ⟨same, still, named, more, within⟩ := first.counted row there refused
    obtain ⟨last, ends, again, later, bounded⟩ := second.counted same still (named ▸ refused)
    exact ⟨last, ends, again.trans named, by omega, by omega⟩
  deleted row there deletable := by
    rcases first.deleted row there deletable with still | gone
    · exact second.deleted row still deletable
    · exact .inr fun back => gone (second.old _ back)
  untouched row there many := second.untouched row (first.untouched row there many) many
  old key still := first.old key (second.old key still)

theorem passes_progress (moments : Nat → Nat → Moment undeletable) (n : Nat) :
    Progress undeletable queue (passes moments queue n) := by
  induction n with
  | zero => exact progress_refl
  | succ n ih => exact ih.trans ((pass_spends (moments n)).progress (offered_waiting (moments n 0)))

theorem passes_left (moments : Nat → Nat → Moment undeletable) (n : Nat) :
    left (passes moments queue n) ≤ left queue - n := by
  induction n with
  | zero => exact Nat.le_refl _
  | succ n ih =>
    have less := @pass_less undeletable (passes moments queue n) (moments n)
    rw [passes]
    omega

theorem Progress.drained (progress : Progress undeletable before after) (none : left after = 0) :
    Drained undeletable before after where
  deleted row there deletable fewer := by
    rcases progress.deleted row there deletable with still | gone
    · have := left_eq_zero_iff.mp none row still
      omega
    · exact gone
  spent row there refused := by
    obtain ⟨same, still, named, more, within⟩ := progress.counted row there refused
    have := left_eq_zero_iff.mp none same still
    exact ⟨same, still, named, by omega⟩
  untouched := progress.untouched
  nothing_new := progress.old
  quiet _ := offered_eq_nil_iff.mpr none

end Passes

/-- Every pass that finds work leaves fewer attempts, and as many passes as there were attempts leave none: nothing is
    blocked by the keys ahead of it. -/
theorem queue_drains (queue : Queue) (moments : Nat → Nat → Moment undeletable) :
    (∀ n, offered (passes moments queue n) (moments n 0) ≠ [] →
      left (passes moments queue (n + 1)) < left (passes moments queue n)) ∧
    ∀ n, left queue ≤ n → Drained undeletable queue (passes moments queue n) := by
  constructor
  · intro n found
    have some : left (passes moments queue n) ≠ 0 := fun none => found (offered_eq_nil_iff.mpr none)
    have less := @pass_less undeletable (passes moments queue n) (moments n)
    rw [passes]
    omega
  · intro n enough
    have fewer := @passes_left undeletable queue moments n
    exact (passes_progress moments n).drained (by omega)

end QueueDrain
