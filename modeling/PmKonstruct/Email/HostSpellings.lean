import PmKonstruct.Email.RelayHosts

/- The guard against the ways in which one DNS name is written. Case and surrounding spaces are taken off before anything
   is compared; the dot of the root is not, and with it no refused name is found again. -/
namespace HostSpellings
open PlainText IpAddress RelayHosts

/-- What is compared. -/
def folded (host : Text) : Text := toAsciiLowercase (trim host)

/-- Refused for the name that it is, not for the address that it writes. -/
def BlockedAsName (host : Text) : Prop :=
  folded host ∈ blockedHostnames ∨ (∃ suffix ∈ blockedSuffixes, suffix <:+ folded host) ∨
    (folded host ≠ [] ∧ parseIp (folded host) = none ∧ '.' ∉ folded host)

/-- In any case, between any spaces, with or without the dot of the root. -/
def SameName (host other : Text) : Prop := folded other = folded host ∨ folded other = folded host ++ ['.']

section Spellings
variable {host other name : Text}

theorem folded_rooted : (folded host).getLast? = some '.' ↔ (trim host).getLast? = some '.' := by
  have dot : ∀ c : Char, c.toLower = '.' ↔ c = '.' := fun c => toLower_eq_iff (by rfl)
  rw [folded, toAsciiLowercase, List.getLast?_map, Option.map_eq_some_iff]
  simp only [dot, exists_eq_right]

theorem isBlocked_folded : isBlockedSmtpHost host =
    if folded host = [] then true
    else if folded host ∈ blockedHostnames then true
    else if blockedSuffixes.any fun suffix => suffix.isSuffixOf (folded host) then true
    else
      match parseIp (folded host) with
      | some ip => isPrivateIp ip
      | none => '.' ∉ folded host := rfl

/-- None of the lists has an entry that ends in a dot. -/
theorem blockedAsName_unrooted (blocked : BlockedAsName host) : (folded host).getLast? ≠ some '.' := by
  intro rooted
  obtain ⟨front, shape⟩ := List.getLast?_eq_some_iff.mp rooted
  rcases blocked with listed | ⟨suffix, listed, ends⟩ | ⟨-, -, bare⟩
  · have plain : ∀ name ∈ blockedHostnames, name.getLast? ≠ some '.' := by decide
    exact plain _ listed rooted
  · have plain : ∀ suffix ∈ blockedSuffixes, suffix.getLast? ≠ some '.' ∧ suffix ≠ [] := by decide
    obtain ⟨more, joined⟩ := ends
    rw [← joined, List.getLast?_append_of_ne_nil _ (plain suffix listed).2] at rooted
    exact (plain suffix listed).1 rooted
  · rw [shape] at bare
    simp at bare

theorem blockedAsName_blocked (blocked : BlockedAsName host) : isBlockedSmtpHost host = true := by
  rw [isBlocked_folded]
  split
  · rfl
  · split
    · rfl
    · next unlisted =>
      split
      · rfl
      · next unsuffixed =>
        rcases blocked with listed | ⟨suffix, listed, ends⟩ | ⟨-, unread, bare⟩
        · exact absurd listed unlisted
        · have found : (blockedSuffixes.any fun suffix => suffix.isSuffixOf (folded host)) = true :=
            List.any_eq_true.mpr ⟨suffix, listed, List.isSuffixOf_iff_suffix.mpr ends⟩
          exact absurd found unsuffixed
        · rw [unread]
          exact decide_eq_true bare

/-- With the dot of the root every comparison fails. -/
theorem rooted_passes (rooted : (trim host).getLast? = some '.') : isBlockedSmtpHost host = false := by
  have ends := folded_rooted.mpr rooted
  obtain ⟨front, shape⟩ := List.getLast?_eq_some_iff.mp ends
  have unnamed : ¬ BlockedAsName host := fun blocked => blockedAsName_unrooted blocked ends
  rw [BlockedAsName, not_or, not_or] at unnamed
  rw [isBlocked_folded]
  rw [if_neg (by simp [shape]), if_neg unnamed.1, if_neg, shape, parseIp_dot]
  · simp
  · intro found
    obtain ⟨suffix, listed, ends⟩ := List.any_eq_true.mp found
    exact unnamed.2.1 ⟨suffix, listed, List.isSuffixOf_iff_suffix.mp ends⟩

end Spellings

/-- Another spelling of a refused name is refused exactly when it does not carry the dot of the root. -/
theorem spelling_blocked_iff (host other : Text) (blocked : BlockedAsName host) (same : SameName host other) :
    isBlockedSmtpHost other = true ↔ (trim other).getLast? ≠ some '.' := by
  rcases same with same | same
  · have again : BlockedAsName other := by
      rw [BlockedAsName, same]
      exact blocked
    have unrooted : (trim other).getLast? ≠ some '.' :=
      fun rooted => blockedAsName_unrooted again (folded_rooted.mpr rooted)
    exact iff_of_true (blockedAsName_blocked again) unrooted
  · have rooted : (trim other).getLast? = some '.' := folded_rooted.mp (by rw [same, List.getLast?_concat])
    rw [rooted_passes rooted]
    simp [rooted]

theorem localhost_blocked :
    isBlockedSmtpHost (text " LocalHost\t") = true ↔ (trim (text " LocalHost\t")).getLast? ≠ some '.' :=
  spelling_blocked_iff (text "localhost") (text " LocalHost\t") (.inl (by decide)) (.inl (by decide))

theorem rooted_localhost_passes : BlockedAsName (text "localhost") ∧ SameName (text "localhost") (text "localhost.") ∧
    isBlockedSmtpHost (text "localhost.") = false :=
  ⟨.inl (by decide), .inr (by decide), by decide⟩

end HostSpellings
