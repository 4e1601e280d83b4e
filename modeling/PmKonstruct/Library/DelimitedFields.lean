import Mathlib.Data.List.Basic

/- Fields written one after another without their lengths. A spelling that tells where it ends can be followed by any
   other, and both are read back. -/
namespace DelimitedFields

variable {Value Other Symbol : Type}

theorem before_mark {mark : Symbol} {a b rest other : List Symbol} (left : mark ∉ a) (right : mark ∉ b)
    (same : a ++ mark :: rest = b ++ mark :: other) : a = b ∧ rest = other := by
  induction a generalizing b with
  | nil =>
    cases b with
    | nil => exact ⟨rfl, List.tail_eq_of_cons_eq same⟩
    | cons d b => exact absurd (List.head_eq_of_cons_eq same) fun here => right (here ▸ List.mem_cons_self)
  | cons c a ih =>
    cases b with
    | nil => exact absurd (List.head_eq_of_cons_eq same).symm fun here => left (here ▸ List.mem_cons_self)
    | cons d b =>
      obtain ⟨first, later⟩ := List.cons.inj same
      obtain ⟨heads, tails⟩ := ih (fun member => left (List.mem_cons_of_mem _ member))
        (fun member => right (List.mem_cons_of_mem _ member)) later
      exact ⟨by rw [first, heads], tails⟩

/-- The last of the marks, read from the end. -/
theorem after_mark {mark : Symbol} {a b rest other : List Symbol} (left : mark ∉ rest) (right : mark ∉ other)
    (same : a ++ mark :: rest = b ++ mark :: other) : a = b ∧ rest = other := by
  have mirrored := congrArg List.reverse same
  simp only [List.reverse_append, List.reverse_cons, List.append_assoc, List.singleton_append] at mirrored
  obtain ⟨rests, fronts⟩ := before_mark (fun member => left (List.mem_reverse.mp member))
    (fun member => right (List.mem_reverse.mp member)) mirrored
  exact ⟨List.reverse_injective fronts, List.reverse_injective rests⟩

/-- Whatever follows, the symbols tell the value that they spell and where its spelling ends. -/
def Delimited (spell : Value → List Symbol) : Prop :=
  ∀ a b rest other, spell a ++ rest = spell b ++ other → a = b ∧ rest = other

section Rules
variable {spell : Value → List Symbol} {spellOther : Other → List Symbol}

theorem Delimited.append_inj (delimited : Delimited spell) {a b : Value} {rest other : List Symbol} :
    spell a ++ rest = spell b ++ other ↔ a = b ∧ rest = other := by
  constructor
  · exact delimited a b rest other
  · rintro ⟨rfl, rfl⟩
    rfl

theorem Delimited.pair (first : Delimited spell) (second : Delimited spellOther) :
    Delimited fun pair : Value × Other => spell pair.1 ++ spellOther pair.2 := by
  intro a b rest other same
  simp only [List.append_assoc] at same
  obtain ⟨firsts, later⟩ := first _ _ _ _ same
  obtain ⟨seconds, ends⟩ := second _ _ _ _ later
  exact ⟨Prod.ext firsts seconds, ends⟩

/-- A mark that no spelling uses tells where it ends. -/
theorem delimited_marked {mark : Symbol} (injective : Function.Injective spell) (unused : ∀ a, mark ∉ spell a) :
    Delimited fun a => spell a ++ [mark] := by
  intro a b rest other same
  simp only [List.append_assoc, List.singleton_append] at same
  obtain ⟨spelled, ends⟩ := before_mark (unused a) (unused b) same
  exact ⟨injective spelled, ends⟩

/-- No spelling begins with another. -/
theorem delimited_of_prefixFree (free : ∀ a b, spell a <+: spell b → a = b) : Delimited spell := by
  intro a b rest other same
  have here : spell a <+: spell b ++ other := ⟨rest, same⟩
  have equal : a = b := by
    rcases List.prefix_or_prefix_of_prefix here (List.prefix_append _ _) with shorter | longer
    · exact free a b shorter
    · exact (free b a longer).symm
  subst equal
  exact ⟨rfl, List.append_cancel_left same⟩

end Rules

end DelimitedFields
