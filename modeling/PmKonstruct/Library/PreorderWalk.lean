import Mathlib.Data.List.Nodup
import Mathlib.Logic.Relation

/- Depth-first walks over a forest: the stack of what is still to be visited, its top first, and what comes out. -/
namespace PreorderWalk

section Walks
variable {α β : Type} (children : α → List α)

/-- Walking this stack to its end puts these nodes out, in this order. -/
inductive Walks : List α → List α → Prop where
  | nil : Walks [] []
  | cons {node : α} {stack out : List α} (rest : Walks (children node ++ stack) out) : Walks (node :: stack) (node :: out)

variable {children} {stack out more also : List α} {a b : α}

theorem Walks.unique (walks : Walks children stack out) (again : Walks children stack also) : out = also := by
  induction walks generalizing also with
  | nil =>
    cases again
    rfl
  | cons rest ih =>
    cases again with
    | cons other => rw [ih other]

theorem Walks.append (first : Walks children stack out) (second : Walks children more also) :
    Walks children (stack ++ more) (out ++ also) := by
  induction first with
  | nil => exact second
  | cons rest ih =>
    rw [List.append_assoc] at ih
    exact .cons ih

/-- What waits comes out in the order in which it waits. -/
theorem Walks.sublist (walks : Walks children stack out) : stack.Sublist out := by
  induction walks with
  | nil => exact List.Sublist.slnil
  | cons rest ih => exact ((List.sublist_append_right _ _).trans ih).cons_cons _

theorem Walks.children_sublist (walks : Walks children stack out) (visited : a ∈ out) : (children a).Sublist out := by
  induction walks with
  | nil => cases visited
  | cons rest ih =>
    rcases List.mem_cons.mp visited with rfl | later
    · exact ((List.sublist_append_left _ _).trans rest.sublist).cons _
    · exact (ih later).cons _

/-- A walk of one forest is a walk of another that it is mapped into. -/
theorem Walks.map {into : β → List β} {f : α → β} (walks : Walks children stack out)
    (same : ∀ a ∈ out, into (f a) = (children a).map f) : Walks into (stack.map f) (out.map f) := by
  induction walks with
  | nil => exact .nil
  | cons rest ih =>
    obtain ⟨here, later⟩ := List.forall_mem_cons.mp same
    rw [List.map_cons, List.map_cons]
    refine .cons ?_
    rw [here, ← List.map_append]
    exact ih later

theorem Walks.congr {into : α → List α} (walks : Walks children stack out) (same : ∀ a ∈ out, into a = children a) :
    Walks into stack out := by
  have kept : ∀ a ∈ out, into (id a) = (children a).map id := by
    intro a visited
    rw [List.map_id]
    exact same a visited
  have mapped := walks.map kept
  rwa [List.map_id, List.map_id] at mapped

/-- What waits first is walked to its end first. -/
theorem Walks.split (walks : Walks children (stack ++ more) out) :
    ∃ first second, out = first ++ second ∧ Walks children stack first ∧ Walks children more second := by
  generalize whole : stack ++ more = all at walks
  induction walks generalizing stack with
  | nil =>
    obtain ⟨rfl, rfl⟩ := List.append_eq_nil_iff.mp whole
    exact ⟨[], [], rfl, .nil, .nil⟩
  | @cons node rest out walked ih =>
    cases stack with
    | nil =>
      cases whole
      exact ⟨[], node :: out, rfl, .nil, .cons walked⟩
    | cons top below =>
      cases whole
      obtain ⟨first, second, rfl, here, later⟩ := ih (List.append_assoc _ _ _)
      exact ⟨node :: first, second, rfl, .cons here, later⟩

/-- What is below a node comes out behind it, in one piece. -/
theorem Walks.subtree (walks : Walks children stack out) (visited : a ∈ out) :
    ∃ before below after, out = before ++ a :: (below ++ after) ∧ Walks children (children a) below := by
  induction walks with
  | nil => cases visited
  | @cons node stack out rest ih =>
    rcases List.mem_cons.mp visited with rfl | later
    · obtain ⟨below, after, rfl, inner, -⟩ := rest.split
      exact ⟨[], below, after, rfl, inner⟩
    · obtain ⟨before, below, after, rfl, inner⟩ := ih later
      exact ⟨node :: before, below, after, rfl, inner⟩

theorem Walks.child_after {i : Nat} (walks : Walks children stack out) (distinct : out.Nodup) (visited : a ∈ out)
    (child : b ∈ children a) (stands : out[i]? = some b) : ∃ j : Nat, j < i ∧ out[j]? = some a := by
  obtain ⟨before, below, after, rfl, inner⟩ := walks.subtree visited
  obtain ⟨k, found⟩ := List.mem_iff_getElem?.mp (inner.sublist.subset child)
  have within : k < below.length := (List.getElem?_eq_some_iff.mp found).1
  have again : (before ++ a :: (below ++ after))[before.length + (k + 1)]? = some b := by
    rw [List.getElem?_append_right (Nat.le_add_right _ _), Nat.add_sub_cancel_left, List.getElem?_cons_succ,
      List.getElem?_append_left within, found]
  have inside := (List.getElem?_eq_some_iff.mp again).1
  have same : before.length + (k + 1) = i := (List.getElem?_inj inside distinct).mp (again.trans stands.symm)
  refine ⟨before.length, by omega, ?_⟩
  rw [List.getElem?_append_right (Nat.le_refl _), Nat.sub_self, List.getElem?_cons_zero]

/-- Whatever comes out is below what waited. -/
theorem Walks.reached (walks : Walks children stack out) (visited : b ∈ out) :
    ∃ a ∈ stack, Relation.ReflTransGen (fun above below => below ∈ children above) a b := by
  induction walks with
  | nil => cases visited
  | @cons node stack out rest ih =>
    rcases List.mem_cons.mp visited with rfl | later
    · exact ⟨b, List.mem_cons_self, .refl⟩
    · obtain ⟨a, waited, path⟩ := ih later
      rcases List.mem_append.mp waited with child | below
      · exact ⟨node, List.mem_cons_self, .head child path⟩
      · exact ⟨a, List.mem_cons_of_mem _ below, path⟩

end Walks

/-- A part of a list that holds all that matches, and nothing else, is what a filter leaves. -/
theorem filter_eq_of_sublist {α : Type} {part whole : List α} {p : α → Bool} (sublist : part.Sublist whole)
    (distinct : whole.Nodup) (matched : ∀ a ∈ whole, a ∈ part ↔ p a = true) : whole.filter p = part := by
  induction sublist with
  | slnil => rfl
  | cons a sublist ih =>
    obtain ⟨new, later⟩ := List.nodup_cons.mp distinct
    obtain ⟨here, rest⟩ := List.forall_mem_cons.mp matched
    have left : ¬ p a = true := fun kept => new (sublist.subset (here.mpr kept))
    rw [List.filter_cons_of_neg left]
    exact ih later rest
  | cons_cons a sublist ih =>
    obtain ⟨new, later⟩ := List.nodup_cons.mp distinct
    obtain ⟨here, rest⟩ := List.forall_mem_cons.mp matched
    rw [List.filter_cons_of_pos (here.mp List.mem_cons_self), ih later]
    intro b member
    rw [← rest b member, List.mem_cons]
    constructor
    · exact .inr
    · rintro (rfl | there)
      · exact absurd member new
      · exact there

end PreorderWalk
