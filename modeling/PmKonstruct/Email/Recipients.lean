import PmKonstruct.Identity.Accounts

/- Who an email goes to: the list a client submits, brought into one spelling and held to a cap, and the list of
   those who may be written to about a job. -/
namespace Recipients
open PlainText DomainErrors Accounts

def maxRecipients : Nat := 10

/-- As `str::eq_ignore_ascii_case`: letters outside ASCII are compared as they are. -/
def eqIgnoreAsciiCase (a b : Text) : Bool := a.map Char.toLower = b.map Char.toLower

section Normalising
variable (platform : Platform)

/-- The addresses in the order in which each was first met. -/
def collect (seen : List Text) : List Text → List Text
  | [] => seen
  | address :: rest =>
    let normalised := normaliseEmail platform address
    collect (if normalised ∈ seen then seen else seen ++ [normalised]) rest

def normaliseRecipients (raw : List Text) : Except DomainError (List Text) :=
  if raw = [] then .error (.invalid "to" "At least one recipient email is required")
  else
    let seen := collect platform [] raw
    if seen.length > maxRecipients then
      .error (.invalid "to" "Too many recipients. A maximum of 10 recipients are allowed per email.")
    else
      let invalid := seen.filter fun a => !looksLikeEmail a
      if invalid ≠ [] then
        .error (.invalid "to" (String.ofList (text "Invalid email address(es): " ++ join (text ", ") invalid)))
      else .ok seen

end Normalising

def assertRecipientsAllowed (recipients allowed : List Text) : Except DomainError Unit :=
  let unauthorised := recipients.filter fun r => !allowed.any fun a => eqIgnoreAsciiCase a r
  if unauthorised = [] then .ok ()
  else .error (.forbidden "One or more recipients do not have access to this job")

/- What is collected. -/

section Collecting
variable {platform : Platform}

theorem collect_nodup (raw : List Text) {seen : List Text} (distinct : seen.Nodup) : (collect platform seen raw).Nodup := by
  induction raw generalizing seen with
  | nil => exact distinct
  | cons address rest ih =>
    rw [collect]
    apply ih
    by_cases met : normaliseEmail platform address ∈ seen
    · rwa [if_pos met]
    · rw [if_neg met]
      refine List.nodup_append.mpr ⟨distinct, List.pairwise_singleton _ _, ?_⟩
      intro a before b added same
      rw [List.mem_singleton] at added
      exact met (added ▸ same ▸ before)

/-- What was met before stays in front, and of the rest each spelling stands where it comes first. -/
theorem collect_eq (raw : List Text) (seen : List Text) : collect platform seen raw =
    seen ++ ((raw.map (normaliseEmail platform)).filter fun a => a ∉ seen).eraseDups := by
  induction raw generalizing seen with
  | nil => simp [collect]
  | cons address rest ih =>
    rw [collect, ih, List.map_cons]
    by_cases met : normaliseEmail platform address ∈ seen
    · rw [if_pos met, List.filter_cons_of_neg (by simpa using met)]
    · have later : ((rest.map (normaliseEmail platform)).filter fun a => a ∉ seen ++ [normaliseEmail platform address]) =
          ((rest.map (normaliseEmail platform)).filter fun a => a ∉ seen).filter
            fun a => !a == normaliseEmail platform address := by
        rw [List.filter_filter]
        apply List.filter_congr
        intro a _
        by_cases same : a = normaliseEmail platform address <;> simp [same]
      rw [if_neg met, later, List.filter_cons_of_pos (by simpa using met), List.eraseDups_cons, List.append_assoc,
        List.singleton_append]

theorem collect_nil (raw : List Text) : collect platform [] raw = (raw.map (normaliseEmail platform)).eraseDups := by
  rw [collect_eq, List.nil_append, List.filter_eq_self.mpr (by simp)]

theorem mem_collect {raw : List Text} {address : Text} :
    address ∈ collect platform [] raw ↔ ∃ submitted ∈ raw, normaliseEmail platform submitted = address := by
  rw [collect_nil, List.mem_eraseDups, List.mem_map]

/-- The lists that pass, and what they become. -/
theorem normaliseRecipients_ok {raw recipients : List Text} : normaliseRecipients platform raw = .ok recipients ↔
    raw ≠ [] ∧ recipients = collect platform [] raw ∧ recipients.length ≤ maxRecipients ∧
      ∀ address ∈ recipients, looksLikeEmail address = true := by
  rw [normaliseRecipients]
  by_cases empty : raw = []
  · simp [empty]
  · rw [if_neg empty]
    by_cases many : (collect platform [] raw).length > maxRecipients
    · simp only [many, if_true]
      constructor
      · intro passed
        cases passed
      · rintro ⟨-, rfl, few, -⟩
        omega
    · have sound : ((collect platform [] raw).filter fun a => !looksLikeEmail a) = [] ↔
          ∀ address ∈ collect platform [] raw, looksLikeEmail address = true := by
        simp [List.filter_eq_nil_iff]
      simp only [many, if_false, ne_eq, ite_not, sound]
      split
      · next wellFormed =>
        constructor
        · intro passed
          cases passed
          exact ⟨empty, rfl, by omega, wellFormed⟩
        · rintro ⟨-, rfl, -⟩
          rfl
      · next malformed =>
        constructor
        · intro passed
          cases passed
        · rintro ⟨-, rfl, -, wellFormed⟩
          exact absurd wellFormed malformed

end Collecting

theorem assertRecipientsAllowed_ok {recipients allowed : List Text} : assertRecipientsAllowed recipients allowed = .ok () ↔
    ∀ address ∈ recipients, ∃ a ∈ allowed, eqIgnoreAsciiCase a address = true := by
  have every : (recipients.filter fun r => !allowed.any fun a => eqIgnoreAsciiCase a r) = [] ↔
      ∀ address ∈ recipients, ∃ a ∈ allowed, eqIgnoreAsciiCase a address = true := by
    simp [List.filter_eq_nil_iff]
  simp only [assertRecipientsAllowed, every]
  split
  · next allowed => exact ⟨fun _ => allowed, fun _ => rfl⟩
  · next refused =>
    constructor
    · intro passed
      cases passed
    · intro allowed
      exact absurd allowed refused

end Recipients
