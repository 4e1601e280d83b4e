import Mathlib.Data.List.AList

/- Maps of bounded size whose entries carry the instant they were made at. When there is no room, entries that are no longer
   fresh go first, and if all are fresh the stalest one goes. -/
namespace ExpiringMap

abbrev Entries (Key Value : Type) := AList fun _ : Key => Value

variable {Key Value : Type} [DecidableEq Key] {m : Entries Key Value} {fresh : Key → Value → Bool} {since : Value → Nat}
  {limit : Nat} {k victim : Key} {v : Value}

def size (m : Entries Key Value) : Nat := m.keys.length

def retain (fresh : Key → Value → Bool) (m : Entries Key Value) : Entries Key Value where
  entries := m.entries.filter fun entry => fresh entry.1 entry.2
  nodupKeys := m.nodupKeys.sublist List.filter_sublist

/-- Of several entries that are as old as each other any may be the one. -/
def isStalest (since : Value → Nat) (m : Entries Key Value) (victim : Key) : Bool :=
  (m.lookup victim).any fun v => m.entries.all fun entry => since v ≤ since entry.2

def full (limit : Nat) (fresh : Key → Value → Bool) (m : Entries Key Value) : Bool :=
  limit ≤ size m && limit ≤ size (retain fresh m)

/-- Room for one more entry. -/
def makeRoom (limit : Nat) (fresh : Key → Value → Bool) (victim : Key) (m : Entries Key Value) : Entries Key Value :=
  if size m < limit then m
  else
    let kept := retain fresh m
    if size kept < limit then kept else kept.erase victim

omit [DecidableEq Key] in
theorem size_eq : size m = m.entries.length := List.length_map _

theorem lookup_eq_some_iff : m.lookup k = some v ↔ ⟨k, v⟩ ∈ m.entries := AList.mem_lookup_iff

theorem lookup_retain_iff : (retain fresh m).lookup k = some v ↔ m.lookup k = some v ∧ fresh k v = true := by
  rw [lookup_eq_some_iff, lookup_eq_some_iff, retain, List.mem_filter]

omit [DecidableEq Key] in
theorem size_retain_le : size (retain fresh m) ≤ size m := by
  rw [size_eq, size_eq]
  exact List.length_filter_le _ _

theorem size_erase (there : k ∈ m) : size (m.erase k) + 1 = size m := by
  rw [size, AList.keys_erase, List.length_erase_of_mem (AList.mem_keys.mp there), size]
  have some : 0 < m.keys.length := List.length_pos_of_mem (AList.mem_keys.mp there)
  omega

theorem size_insert_le : size (m.insert k v) ≤ size m + 1 := by
  rw [size, AList.keys_insert, size, List.length_cons]
  have fewer : (m.keys.erase k).length ≤ m.keys.length := List.length_erase_le
  omega

theorem isStalest_mem (stalest : isStalest since m victim = true) : victim ∈ m := by
  obtain ⟨v, found, -⟩ := (Option.any_eq_true _ _).mp stalest
  rw [← AList.lookup_isSome, found]
  rfl

/-- Nothing is made up. -/
theorem lookup_makeRoom (found : (makeRoom limit fresh victim m).lookup k = some v) : m.lookup k = some v := by
  unfold makeRoom at found
  split at found
  · exact found
  · simp only at found
    split at found
    · exact (lookup_retain_iff.mp found).1
    · have apart : k ≠ victim := by
        rintro rfl
        rw [AList.lookup_erase] at found
        cases found
      rw [AList.lookup_erase_ne apart] at found
      exact (lookup_retain_iff.mp found).1

/-- What is dropped was no longer fresh, or it is the one that has to go, and either only for want of room. -/
theorem lookup_makeRoom_lost (found : m.lookup k = some v) (lost : (makeRoom limit fresh victim m).lookup k = none) :
    limit ≤ size m ∧ (fresh k v = false ∨ full limit fresh m = true ∧ k = victim) := by
  have noRoom : limit ≤ size m := by
    by_contra room
    rw [makeRoom, if_pos (Nat.lt_of_not_le room), found] at lost
    cases lost
  refine ⟨noRoom, ?_⟩
  by_contra kept
  rw [not_or, Bool.not_eq_false] at kept
  have retained : (retain fresh m).lookup k = some v := lookup_retain_iff.mpr ⟨found, kept.1⟩
  unfold makeRoom at lost
  split at lost
  · next room => exact absurd noRoom (Nat.not_le_of_lt room)
  · simp only at lost
    split at lost
    · rw [retained] at lost
      cases lost
    · next stillNone =>
      have whole : full limit fresh m = true := by
        simp only [full, Bool.and_eq_true, decide_eq_true_eq]
        omega
      have apart : k ≠ victim := fun same => kept.2 ⟨whole, same⟩
      rw [AList.lookup_erase_ne apart, retained] at lost
      cases lost

/-- A full map keeps within its bound only if all of it is fresh. -/
theorem full_fresh (bounded : size m ≤ limit) (whole : full limit fresh m = true) (found : m.lookup k = some v) :
    fresh k v = true := by
  simp only [full, Bool.and_eq_true, decide_eq_true_eq, size_eq, retain] at whole bounded
  have all : (m.entries.filter fun entry => fresh entry.1 entry.2).length = m.entries.length :=
    Nat.le_antisymm (List.length_filter_le _ _) (Nat.le_trans bounded whole.2)
  exact List.length_filter_eq_length_iff.mp all ⟨k, v⟩ (lookup_eq_some_iff.mp found)

theorem isStalest_oldest (stalest : isStalest since (retain fresh m) victim = true) (found : m.lookup victim = some v)
    {w : Value} (there : m.lookup k = some w) (still : fresh k w = true) : since v ≤ since w := by
  obtain ⟨v', kept, oldest⟩ := (Option.any_eq_true _ _).mp stalest
  obtain rfl : v' = v := Option.some.inj ((lookup_retain_iff.mp kept).1.symm.trans found)
  exact of_decide_eq_true (List.all_eq_true.mp oldest _ (lookup_eq_some_iff.mp (lookup_retain_iff.mpr ⟨there, still⟩)))

theorem size_makeRoom (bounded : size m ≤ limit)
    (chosen : full limit fresh m = true → isStalest since (retain fresh m) victim = true) :
    size (makeRoom limit fresh victim m) < limit := by
  unfold makeRoom
  split
  · next room => exact room
  · next noRoom =>
    simp only
    split
    · next room => exact room
    · next stillNone =>
      have whole : full limit fresh m = true := by
        simp only [full, Bool.and_eq_true, decide_eq_true_eq]
        omega
      have shrunk := size_erase (isStalest_mem (chosen whole))
      have kept : size (retain fresh m) ≤ size m := size_retain_le
      omega

end ExpiringMap
