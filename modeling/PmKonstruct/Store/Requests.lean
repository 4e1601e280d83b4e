import PmKonstruct.Store.Schema

/- Requests against the store: an outcome is the answer together with the store it leaves, and a request is
   confined when it is refused unless it owns the rows it names. -/
namespace Requests
open PlainText DomainErrors Schema KeyedTable

abbrev Outcome (α : Type) : Type := Except AppError α × Db

section Steps
variable {α β : Type}

/-- Goes on only after a check that reads the store has passed. -/
def attempt (db : Db) (check : Except AppError α) (next : α → Outcome β) : Outcome β :=
  match check with
  | .error e => (.error e, db)
  | .ok value => next value

/-- The transaction ran into a constraint and was rolled back, or it committed. -/
def settled (db : Db) (result : Except PortError (α × Db)) : Except PortError α × Db :=
  match result with
  | .error e => (.error e, db)
  | .ok (value, after) => (.ok value, after)

/-- The same, under the error of the application. -/
def committed (db : Db) (result : Except PortError (α × Db)) : Outcome α :=
  match result with
  | .error e => (.error (.port e), db)
  | .ok (value, after) => (.ok value, after)

def orNotFound (entity : String) (outcome : Outcome (Option α)) : Outcome α :=
  match outcome with
  | (.error e, after) => (.error e, after)
  | (.ok none, after) => (.error (.domain (.notFound entity)), after)
  | (.ok (some value), after) => (.ok value, after)

def deletedOrNotFound (entity : String) (deleted : Bool × Db) : Outcome Unit :=
  if deleted.1 then (.ok (), deleted.2) else (.error (.domain (.notFound entity)), deleted.2)

def inDomain (check : Except DomainError α) : Except AppError α :=
  match check with
  | .error e => .error (.domain e)
  | .ok value => .ok value

end Steps

section Results
variable {ε α β : Type} {x : Except ε α} {b : β}

theorem bind_ok {f : α → Except ε β} (done : (x >>= f) = .ok b) : ∃ a, x = .ok a ∧ f a = .ok b := by
  cases x with
  | error e => cases done
  | ok a => exact ⟨a, rfl, done⟩

theorem map_ok {f : α → β} (done : x.map f = .ok b) : ∃ a, x = .ok a ∧ f a = b := by
  cases x with
  | error e => cases done
  | ok a =>
    cases done
    exact ⟨a, rfl, rfl⟩

end Results

theorem inDomain_ok {α : Type} {check : Except DomainError α} {value : α} (passed : inDomain check = .ok value) :
    check = .ok value := by
  cases check with
  | error e => cases passed
  | ok a =>
    cases passed
    rfl

/-- The constraints of a table, in the order in which a written row is checked against them. -/
def firstViolation : List (Bool × PortError) → Option PortError
  | [] => none
  | (violated, e) :: rest => if violated then some e else firstViolation rest

@[simp] theorem firstViolation_nil : firstViolation [] = none := rfl

@[simp] theorem firstViolation_cons {violated : Bool} {e : PortError} {rest : List (Bool × PortError)} :
    firstViolation ((violated, e) :: rest) = none ↔ violated = false ∧ firstViolation rest = none := by
  cases violated <;> simp [firstViolation]

/- Errors of the database that name no constraint. -/

def columnOverflow (width : Nat) : PortError :=
  .storage s!"error returned from database: value too long for type character varying({width})"

/-- A `varchar` column cuts an excess of spaces and refuses any other, with an error that names no constraint. -/
def overlong (width : Nat) (value : Text) : Bool × PortError := ((value.drop width).any (· ≠ ' '), columnOverflow width)

/-- The same of a text without an excess of spaces: a constant, a text that was measured before, or the name of an
    object, which the server made. -/
def tooLong (width : Nat) (value : Text) : Bool × PortError := (decide (value.length > width), columnOverflow width)

def rowDenied (table : String) : PortError :=
  .storage ("error returned from database: new row violates row-level security policy for table \"" ++ table ++ "\"")

/-- The place after the last one, in a signed 32-bit column. -/
def nextOrder (orders : List Int) : Except PortError Int :=
  let next := orders.max?.getD (-1) + 1
  if next < 2 ^ 31 then .ok next else .error (.storage "error returned from database: integer out of range")

/- What a request keeps: each step either leaves the store as it was or hands it on. -/

section Keeping
variable {α β : Type} {db : Db} (Holds : Db → Prop)

theorem attempt_keeps {check : Except AppError α} {next : α → Outcome β} (start : Holds db)
    (later : ∀ value, check = .ok value → Holds (next value).2) : Holds (attempt db check next).2 := by
  cases checked : check with
  | error e => exact start
  | ok value => exact later value checked

/-- A request that ran a check failed there, or went on. -/
theorem attempt_served {check : Except AppError α} {next : α → Outcome β} {outcome : Outcome β}
    (served : attempt db check next = outcome) :
    (∃ e, outcome = (.error e, db)) ∨ ∃ value, check = .ok value ∧ next value = outcome := by
  cases check with
  | error e => exact .inl ⟨e, served.symm⟩
  | ok value => exact .inr ⟨value, rfl, served⟩

theorem attempt_ok {check : Except AppError α} {next : α → Outcome β} {value : β} {after : Db}
    (served : attempt db check next = (.ok value, after)) : ∃ a, check = .ok a ∧ next a = (.ok value, after) := by
  rcases attempt_served served with ⟨e, failed⟩ | passed
  · cases failed
  · exact passed

theorem committed_ok {result : Except PortError (α × Db)} {value : α} {after : Db}
    (served : committed db result = (.ok value, after)) : result = .ok (value, after) := by
  cases result with
  | error e => cases served
  | ok pair =>
    cases served
    rfl

theorem committed_error {result : Except PortError (α × Db)} {e : AppError} {after : Db}
    (served : committed db result = (.error e, after)) : after = db := by
  cases result with
  | error _ =>
    cases served
    rfl
  | ok pair => cases served

theorem committed_keeps {result : Except PortError (α × Db)} (start : Holds db)
    (later : ∀ value after, result = .ok (value, after) → Holds after) : Holds (committed db result).2 := by
  cases returned : result with
  | error e => exact start
  | ok pair => exact later pair.1 pair.2 returned

theorem orNotFound_after {entity : String} {outcome : Outcome (Option α)} :
    (orNotFound entity outcome).2 = outcome.2 := by
  obtain ⟨result, after⟩ := outcome
  cases result with
  | error e => rfl
  | ok found => cases found <;> rfl

theorem deletedOrNotFound_after {entity : String} {deleted : Bool × Db} :
    (deletedOrNotFound entity deleted).2 = deleted.2 := by
  obtain ⟨done, after⟩ := deleted
  cases done <;> rfl

end Keeping

/- A statement on one row of one table, in a store that holds the table. -/

section Rows
variable {Row α : Type} [Keyed Row]

def insertRow (t : Table Row) (store : Table Row → Db) (view : Row → α) (make : Int → Row)
    (keyed : ∀ n, Keyed.key (make n) = n) (violation : Option PortError) : Except PortError (α × Db) :=
  match violation with
  | some e => .error e
  | none => .ok (view (make t.serial), store (t.insert make keyed))

def changeRow (t : Table Row) (store : Table Row → Db) (view : Row → α) (visible : Row → Bool) (id : Int)
    (change : Row → Row) (keeps : ∀ row, Keyed.key (change row) = Keyed.key row) : Option α × Db :=
  let (row, rows) := t.updateAt visible id change keeps
  (row.map view, store rows)

/-- Only a row that is written can violate a constraint. -/
def checkedChange (t : Table Row) (store : Table Row → Db) (view : Row → α) (visible : Row → Bool) (id : Int)
    (change : Row → Row) (keeps : ∀ row, Keyed.key (change row) = Keyed.key row) (violation : Option PortError) :
    Except PortError (Option α × Db) :=
  match t.reach visible id, violation with
  | some _, some e => .error e
  | _, _ => .ok (changeRow t store view visible id change keeps)

def removeRow (t : Table Row) (store : Table Row → Db) (visible : Row → Bool) (id : Int) : Bool × Db :=
  let (removed, rows) := t.deleteAt visible id
  (removed, store rows)

variable {t : Table Row} {store : Table Row → Db} {view : Row → α} {visible : Row → Bool} {id : Int}
    {change : Row → Row} {keeps : ∀ row, Keyed.key (change row) = Keyed.key row} {violation : Option PortError}
    {after : Db}

theorem insertRow_ok {make : Int → Row} {keyed : ∀ n, Keyed.key (make n) = n} {value : α}
    (inserted : insertRow t store view make keyed violation = .ok (value, after)) :
    violation = none ∧ after = store (t.insert make keyed) := by
  cases violation with
  | some e => cases inserted
  | none =>
    cases inserted
    exact ⟨rfl, rfl⟩

theorem insertRow_value {make : Int → Row} {keyed : ∀ n, Keyed.key (make n) = n} {value : α}
    (inserted : insertRow t store view make keyed violation = .ok (value, after)) : value = view (make t.serial) := by
  cases violation with
  | some e => cases inserted
  | none =>
    cases inserted
    rfl

/-- The rows that were changed passed the constraints. -/
theorem checkedChange_ok {value : Option α}
    (changed : checkedChange t store view visible id change keeps violation = .ok (value, after)) :
    after = store (t.update (fun row => Keyed.key row = id && visible row) change keeps) ∧
      ∀ row ∈ t.rows, (decide (Keyed.key row = id) && visible row) = true → violation = none := by
  unfold checkedChange at changed
  cases reached : t.reach visible id with
  | none =>
    rw [reached] at changed
    cases changed
    constructor
    · rfl
    · intro row member matched
      rw [Table.reach_eq_none_iff.mp reached row member] at matched
      cases matched
  | some found =>
    rw [reached] at changed
    cases violation with
    | some e => cases changed
    | none =>
      cases changed
      exact ⟨rfl, fun _ _ _ => rfl⟩

/-- Everything such a statement can do: it runs into a constraint, finds no row, or changes the one it found. -/
theorem checkedChange_cases :
    (∃ e, checkedChange t store view visible id change keeps violation = .error e) ∨
    (checkedChange t store view visible id change keeps violation = .ok (none, store t)) ∨
    ∃ row, t.find id = some row ∧ visible row = true ∧
      checkedChange t store view visible id change keeps violation = .ok (some (view (change row)),
        store (t.update (fun row => Keyed.key row = id && visible row) change keeps)) := by
  unfold checkedChange changeRow
  cases reached : t.reach visible id with
  | none =>
    rw [Table.updateAt_absent reached]
    exact .inr (.inl rfl)
  | some row =>
    obtain ⟨found, seen⟩ := Table.reach_eq_some_iff.mp reached
    cases violation with
    | some e => exact .inl ⟨e, rfl⟩
    | none =>
      refine .inr (.inr ⟨row, found, seen, ?_⟩)
      rw [Table.updateAt, reached]
      rfl

end Rows

/- Confinement. -/

def notFoundError : AppError → Bool
  | .domain (.notFound _) => true
  | .port .notFound => true
  | _ => false

section Confinement
variable {α β : Type} {db after : Db} {owns : Prop} {outcome : Outcome α}

/-- The request failed with not found and left the store as it was. -/
def Refused (db : Db) (outcome : Outcome α) : Prop :=
  (∃ e, outcome.1 = .error e ∧ notFoundError e = true) ∧ outcome.2 = db

def Confined (owns : Prop) (db : Db) (outcome : Outcome α) : Prop := owns ∨ Refused db outcome

theorem refused_error_iff {e : AppError} :
    Refused db ((.error e, after) : Outcome α) ↔ notFoundError e = true ∧ after = db := by
  simp [Refused]

theorem refused_attempt {check : Except AppError β} {next : β → Outcome α} {e : AppError}
    (failed : check = .error e) (missing : notFoundError e = true) : Refused db (attempt db check next) := by
  rw [failed]
  exact refused_error_iff.mpr ⟨missing, rfl⟩

/-- A constraint that complains in its own words is not taken for a missing row. -/
theorem firstViolation_named {constraints : List (Bool × PortError)} {e : PortError}
    (named : ∀ c ∈ constraints, notFoundError (.port c.2) = false) (violated : firstViolation constraints = some e) :
    notFoundError (.port e) = false := by
  induction constraints with
  | nil => cases violated
  | cons first rest ih =>
    rw [firstViolation] at violated
    split at violated
    · cases violated
      exact named first List.mem_cons_self
    · exact ih (fun c member => named c (List.mem_cons_of_mem _ member)) violated

theorem not_refused_ok {value : α} : ¬ Refused db ((.ok value, after) : Outcome α) := by
  simp [Refused]

theorem refused_map (f : α → β) : Refused db ((outcome.1.map f, outcome.2) : Outcome β) ↔ Refused db outcome := by
  obtain ⟨result, after⟩ := outcome
  cases result <;> simp [Refused, Except.map]

theorem refused_orNotFound {entity : String} {result : Option α} :
    Refused db (orNotFound entity (.ok result, after)) ↔ result = none ∧ after = db := by
  cases result <;> simp [orNotFound, Refused, notFoundError]

theorem refused_deletedOrNotFound {entity : String} {deleted : Bool} :
    Refused db (deletedOrNotFound entity (deleted, after)) ↔ deleted = false ∧ after = db := by
  cases deleted <;> simp [deletedOrNotFound, Refused, notFoundError]

section Rows
variable {Row : Type} [Keyed Row] {t : Table Row} {store : Table Row → Db} {view : Row → α} {visible : Row → Bool}
    {id : Int} {change : Row → Row} {keeps : ∀ row, Keyed.key (change row) = Keyed.key row} {entity : String}

/-- Changing a row is refused exactly when there is no row the session may touch. -/
theorem refused_changeRow (here : store t = db) :
    Refused db (orNotFound entity (committed db (.ok (changeRow t store view visible id change keeps)))) ↔
      t.reach visible id = none := by
  cases reached : t.reach visible id with
  | none => simp [changeRow, Table.updateAt_absent reached, committed, refused_orNotFound, here]
  | some row => simp [changeRow, Table.updateAt, reached, committed, refused_orNotFound]

theorem refused_checkedChange {violation : Option PortError} (here : store t = db)
    (named : ∀ e, violation = some e → notFoundError (.port e) = false) :
    Refused db (orNotFound entity (committed db (checkedChange t store view visible id change keeps violation))) ↔
      t.reach visible id = none := by
  unfold checkedChange
  cases reached : t.reach visible id with
  | none =>
    rw [refused_changeRow here]
    simp [reached]
  | some found =>
    cases violation with
    | some e => simp [committed, orNotFound, refused_error_iff, named e rfl]
    | none =>
      rw [refused_changeRow here]
      simp [reached]

theorem refused_removeRow (here : store t = db) :
    Refused db (deletedOrNotFound entity (removeRow t store visible id)) ↔ t.reach visible id = none := by
  cases reached : t.reach visible id with
  | none => simp [removeRow, Table.deleteAt_absent reached, refused_deletedOrNotFound, here]
  | some row => simp [removeRow, Table.deleteAt, reached, refused_deletedOrNotFound]

end Rows

end Confinement

end Requests
