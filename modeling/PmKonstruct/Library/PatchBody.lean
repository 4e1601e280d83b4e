import PmKonstruct.Library.ReadMergeWrite

/- Bodies of partial updates. A key is left out, null or given a value, and each field says what it reads of that. -/
namespace PatchBody
open ReadMergeWrite (merge)

inductive Sent (α : Type) where
  | absent
  | null
  | value (v : α)

/-- A key that a null may not clear: the null reads as if the key was left out. -/
def Sent.single {α : Type} : Sent α → Option α
  | .absent => none
  | .null => none
  | .value v => some v

/-- A key that tells a null from one that was left out. -/
def Sent.double {α : Type} : Sent α → Option (Option α)
  | .absent => none
  | .null => some none
  | .value v => some (some v)

/-- What is given for each field of a record, what it is normalised to, what a null clears the field to, and which values
    count as none given. -/
structure Naming (Field : Type) (Given Value : Field → Type) where
  normalise : ∀ f, Given f → Option (Value f)
  cleared : ∀ f, Option (Value f)
  blank : ∀ f, Given f → Bool
  blank_none : ∀ f g, blank f g = true → normalise f g = none

variable {Field : Type} {Given Value : Field → Type} (naming : Naming Field Given Value)

namespace Naming

def named (body : ∀ f, Sent (Given f)) (f : Field) : Option (Value f) :=
  match body f with
  | .absent => none
  | .null => naming.cleared f
  | .value g => naming.normalise f g

/-- Nothing is refused of the values that are given. -/
def Accepts (body : ∀ f, Sent (Given f)) : Prop :=
  ∀ f g, body f = .value g → naming.blank f g = true ∨ (naming.normalise f g).isSome = true

/-- Every field has what was given for it, and one that is not named has what it had. -/
def Changed (body : ∀ f, Sent (Given f)) (before after : ∀ f, Value f) : Prop := ∀ f,
  match body f with
  | .absent => after f = before f
  | .null => ∀ v, naming.cleared f = some v → after f = v
  | .value g => naming.normalise f g = some (after f)

/-- The same of one field, where a null that clears nothing and a blank value name nothing. -/
def Patched (body : ∀ f, Sent (Given f)) (before after : ∀ f, Value f) (f : Field) : Prop :=
  match body f with
  | .absent => after f = before f
  | .null => after f = (naming.cleared f).getD (before f)
  | .value g => if naming.blank f g then after f = before f else naming.normalise f g = some (after f)

end Naming

variable {naming} {tidy : ∀ f, Value f → Value f} {body : ∀ f, Sent (Given f)} {copy : ∀ f, Value f} {f : Field}

theorem merge_unnamed {named : ∀ f, Option (Value f)} (absent : named f = none) (tidied : tidy f (copy f) = copy f) :
    merge tidy named copy f = copy f := by
  rw [merge, absent, Option.getD_none, tidied]

/-- A merge of what a body names does to a field what the body says, or tidies it. -/
theorem merge_patched (accepted : naming.Accepts body) (tidied : naming.named body f = none → tidy f (copy f) = copy f) :
    naming.Patched body copy (merge tidy (naming.named body) copy) f := by
  unfold Naming.Patched
  cases sent : body f with
  | absent =>
    have unnamed : naming.named body f = none := by rw [Naming.named, sent]
    exact merge_unnamed unnamed (tidied unnamed)
  | null =>
    have named : naming.named body f = naming.cleared f := by rw [Naming.named, sent]
    cases clears : naming.cleared f with
    | none =>
      have unnamed := named.trans clears
      exact merge_unnamed unnamed (tidied unnamed)
    | some v =>
      simp only [merge, named, clears, Option.getD_some]
  | value g =>
    have named : naming.named body f = naming.normalise f g := by rw [Naming.named, sent]
    by_cases blank : naming.blank f g = true
    · have unnamed := named.trans (naming.blank_none f g blank)
      simp only [blank, if_true]
      exact merge_unnamed unnamed (tidied unnamed)
    · have read := (accepted f g sent).resolve_left blank
      obtain ⟨v, normalised⟩ := Option.isSome_iff_exists.mp read
      simp only [blank, Bool.false_eq_true, if_false, merge, named, normalised, Option.getD_some]

end PatchBody
