import Mathlib.Data.Fintype.Card
import Mathlib.Data.Set.Finite.List
import Mathlib.Logic.Relation

/- Forests given by parent pointers: what lies above a node, when nothing lies above itself, and the search up
   from a node that a cascading deletion amounts to. -/
namespace ParentForest

section Order
variable {α : Type} (parent : α → Option α)

/-- `b` is reached from `a` by following parents at least once. -/
def Above : α → α → Prop := Relation.TransGen fun a b => parent a = some b

def Acyclic : Prop := ∀ a, ¬ Above parent a a

/-- Two levels: no parent has a parent. -/
def Flat : Prop := ∀ a b, parent a = some b → parent b = none

/-- Some node at most `n` steps up satisfies the predicate. -/
def meets (p : α → Bool) : Nat → α → Bool
  | 0, a => p a
  | n + 1, a => p a || (parent a).any (meets p n)

end Order

variable {α : Type} {parent : α → Option α} {p : α → Bool} {a b : α} {n : Nat}

theorem above_rank {rank : α → Nat} (lower : ∀ a b, parent a = some b → rank b < rank a) (above : Above parent a b) :
    rank b < rank a := by
  induction above with
  | single step => exact lower _ _ step
  | tail _ step ih =>
    have next := lower _ _ step
    omega

theorem acyclic_of_rank (rank : α → Nat) (lower : ∀ a b, parent a = some b → rank b < rank a) : Acyclic parent := by
  intro a cycle
  have less := above_rank lower cycle
  omega

theorem Flat.acyclic (flat : Flat parent) : Acyclic parent := by
  apply acyclic_of_rank fun a => if parent a = none then 0 else 1
  intro a b step
  simp [flat a b step, step]

/-- Among finitely many nodes without a cycle, a property that passes from parent to child is a property of all. -/
theorem Acyclic.induction {nodes : List α} {Holds : α → Prop} (acyclic : Acyclic parent)
    (closed : ∀ a ∈ nodes, ∀ b, parent a = some b → b ∈ nodes)
    (step : ∀ a ∈ nodes, (∀ b, parent a = some b → Holds b) → Holds a) : ∀ a ∈ nodes, Holds a := by
  have finite : Finite { a // a ∈ nodes } := List.finite_toSet nodes
  have transitive : IsTrans { a // a ∈ nodes } fun b a => Above parent a.1 b.1 := ⟨fun _ _ _ up far => far.trans up⟩
  have irreflexive : Std.Irrefl fun b a : { a // a ∈ nodes } => Above parent a.1 b.1 := ⟨fun a => acyclic a.1⟩
  have founded := Finite.wellFounded_of_trans_of_irrefl fun b a : { a // a ∈ nodes } => Above parent a.1 b.1
  intro a member
  have all : ∀ node : { a // a ∈ nodes }, Holds node.1 := by
    intro node
    induction node using founded.induction with
    | _ node ih => exact step node.1 node.2 fun b up => ih ⟨b, closed node.1 node.2 b up⟩ (.single up)
  exact all ⟨a, member⟩

theorem meets_root (root : parent a = none) : meets parent p n a = p a := by
  cases n with
  | zero => rfl
  | succ n => rw [meets, root, Option.any_none, Bool.or_false]

/-- In two levels a node that meets nothing has a parent that meets nothing, however far one looks. -/
theorem Flat.meets_parent {m : Nat} (flat : Flat parent) (step : parent a = some b)
    (missed : meets parent p (n + 1) a = false) : meets parent p m b = false := by
  rw [meets, step, Option.any_some, Bool.or_eq_false_iff, meets_root (flat a b step)] at missed
  rw [meets_root (flat a b step)]
  exact missed.2

end ParentForest
