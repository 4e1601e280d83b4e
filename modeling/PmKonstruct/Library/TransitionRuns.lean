import Mathlib.Logic.Relation

/- Labelled machines and their runs. A machine says which steps a run may take, so one step relation serves
   the unrestricted system and the runs that meet a condition. -/
namespace TransitionRuns

structure Machine (State Label : Type) where
  initial : State → Prop
  step : State → Label → Option State
  allowed : State → Label → Bool

variable {State Label : Type} {m : Machine State Label} {s t u : State}

def Machine.Moves (m : Machine State Label) (s t : State) : Prop :=
  ∃ label, m.allowed s label = true ∧ m.step s label = some t

/-- The states a run may go through after `s`. -/
def Machine.Leads (m : Machine State Label) : State → State → Prop := Relation.ReflTransGen m.Moves

def Machine.Reachable (m : Machine State Label) (t : State) : Prop := ∃ s, m.initial s ∧ m.Leads s t

/-- A run given by its labels; it stops at a label that is not allowed or not enabled. -/
def Machine.execute (m : Machine State Label) (s : State) : List Label → Option State
  | [] => some s
  | label :: rest => if m.allowed s label then (m.step s label).bind (m.execute · rest) else none

/-- The machine under a further condition on its steps. -/
def Machine.restrict (m : Machine State Label) (permits : State → Label → Bool) : Machine State Label :=
  { m with allowed := fun s label => m.allowed s label && permits s label }

theorem Leads.invariant (Holds : State → Prop) (leads : m.Leads s t) (start : Holds s)
    (preserved : ∀ s t label, Holds s → m.allowed s label = true → m.step s label = some t → Holds t) :
    Holds t := by
  induction leads with
  | refl => exact start
  | tail _ moves ih =>
    obtain ⟨label, allowed, step⟩ := moves
    exact preserved _ _ label ih allowed step

theorem Reachable.invariant (Holds : State → Prop) (reached : m.Reachable t)
    (start : ∀ s, m.initial s → Holds s)
    (preserved : ∀ s t label, Holds s → m.allowed s label = true → m.step s label = some t → Holds t) :
    Holds t := by
  obtain ⟨s, initial, leads⟩ := reached
  exact Leads.invariant Holds leads (start s initial) preserved

theorem Reachable.leads (reached : m.Reachable s) (leads : m.Leads s t) : m.Reachable t := by
  obtain ⟨first, initial, before⟩ := reached
  exact ⟨first, initial, before.trans leads⟩

theorem Reachable.step {label : Label} (reached : m.Reachable s) (allowed : m.allowed s label = true)
    (step : m.step s label = some t) : m.Reachable t :=
  Reachable.leads reached (.single ⟨label, allowed, step⟩)

/-- The invariant rule that may use what is known of every reachable state. -/
theorem Reachable.induction (Holds : State → Prop) (reached : m.Reachable t)
    (start : ∀ s, m.initial s → Holds s)
    (preserved : ∀ s t label, m.Reachable s → Holds s → m.allowed s label = true → m.step s label = some t →
      Holds t) : Holds t := by
  have both : m.Reachable t ∧ Holds t := by
    refine Reachable.invariant (fun s => m.Reachable s ∧ Holds s) reached ?_ ?_
    · intro s initial
      exact ⟨⟨s, initial, .refl⟩, start s initial⟩
    · rintro s t label ⟨before, holds⟩ allowed step
      exact ⟨Reachable.step before allowed step, preserved s t label before holds allowed step⟩
  exact both.2

/-- The same rule along a run from a reachable state. -/
theorem Leads.induction (Holds : State → Prop) (reached : m.Reachable s) (leads : m.Leads s t) (start : Holds s)
    (preserved : ∀ t u label, m.Reachable t → m.Leads s t → Holds t → m.allowed t label = true →
      m.step t label = some u → Holds u) : Holds t := by
  induction leads with
  | refl => exact start
  | tail before moves ih =>
    obtain ⟨label, allowed, step⟩ := moves
    exact preserved _ _ label (Reachable.leads reached before) before ih allowed step

theorem execute_leads {labels : List Label} (run : m.execute s labels = some t) : m.Leads s t := by
  induction labels generalizing s with
  | nil =>
    cases run
    exact .refl
  | cons label rest ih =>
    simp only [Machine.execute] at run
    split at run
    · next allowed =>
      obtain ⟨middle, step, later⟩ := Option.bind_eq_some_iff.mp run
      exact .head ⟨label, allowed, step⟩ (ih later)
    · cases run

theorem leads_getD {labels : List Label} (run : (m.execute s labels).isSome = true) :
    m.Leads s ((m.execute s labels).getD s) := by
  obtain ⟨t, done⟩ := Option.isSome_iff_exists.mp run
  rw [done, Option.getD_some]
  exact execute_leads done

theorem execute_reachable {labels : List Label} (initial : m.initial s) (run : m.execute s labels = some t) :
    m.Reachable t :=
  ⟨s, initial, execute_leads run⟩

theorem restrict_allowed {permits : State → Label → Bool} {label : Label} :
    (m.restrict permits).allowed s label = true ↔ m.allowed s label = true ∧ permits s label = true :=
  Bool.and_eq_true_iff

/-- A run under a condition is a run. -/
theorem restrict_reachable {permits : State → Label → Bool} (reached : (m.restrict permits).Reachable t) :
    m.Reachable t := by
  obtain ⟨s, initial, leads⟩ := reached
  have unrestricted : (m.restrict permits).Moves ≤ m.Moves := by
    intro s t ⟨label, allowed, step⟩
    exact ⟨label, (restrict_allowed.mp allowed).1, step⟩
  exact ⟨s, initial, Relation.ReflTransGen.mono unrestricted s t leads⟩

end TransitionRuns
