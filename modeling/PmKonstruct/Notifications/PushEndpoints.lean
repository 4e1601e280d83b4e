import PmKonstruct.Domain.Errors
import PmKonstruct.Library.PlainText

/- The check on the endpoint that a browser subscribes with. It is split by hand, at characters, and the push worker is to
   call only what passes. -/
namespace PushEndpoints
open PlainText DomainErrors

/-- The hostname suffixes of the browsers' push services. -/
def allowedPushHosts : List Text :=
  [text "fcm.googleapis.com", text "updates.push.services.mozilla.com", text "push.services.mozilla.com",
    text "push.apple.com", text "web.push.apple.com", text "notify.windows.com", text "wns.windows.com"]

def bad (reason : String) : DomainError := .invalid "endpoint" reason

def isDelimiter (c : Char) : Bool := c = '/' || c = '?' || c = '#'

/-- Up to the path, the query or the fragment. -/
def authority (rest : Text) : Text := rest.takeWhile (!isDelimiter ·)

def splitHost (authority : Text) : Text × Option Text :=
  match rsplitOnce ':' authority with
  | some (host, port) => (host, some port)
  | none => (authority, none)

/-- The leading dot keeps out a name that merely ends in an allowed one. -/
def isAllowed (host : Text) : Bool :=
  allowedPushHosts.any fun s => host = s || ('.' :: s).isSuffixOf host

def validatePushEndpoint (endpoint : Text) : Except DomainError Unit :=
  let endpoint := trim endpoint
  if endpoint = [] then .error (bad "Invalid subscription payload")
  else
    match stripPrefix (text "https://") endpoint with
    | none => .error (bad "Push endpoint must use HTTPS")
    | some rest =>
      let authority := authority rest
      if authority = [] then .error (bad "Push endpoint must be a valid URL")
      else if '@' ∈ authority then .error (bad "Push endpoint must not include credentials")
      else
        let (host, port) := splitHost authority
        if port.any (· ≠ text "443") then .error (bad "Push endpoint must use the default HTTPS port")
        else
          let host := toAsciiLowercase host
          if host = [] then .error (bad "Push endpoint must be a valid URL")
          else if !isAllowed host then .error (bad "Push endpoint host is not a recognised push service")
          else .ok ()

/- What passes. -/

/-- An allowed name in any case, at the front or after a dot. -/
def EndsAllowed (host : Text) : Prop :=
  ∃ front tail, host = front ++ tail ∧ toAsciiLowercase tail ∈ allowedPushHosts ∧ (front = [] ∨ front.getLast? = some '.')

theorem isAllowed_ends {host : Text} (allowed : isAllowed (toAsciiLowercase host) = true) : EndsAllowed host := by
  obtain ⟨s, listed, matched⟩ := List.any_eq_true.mp allowed
  rw [Bool.or_eq_true, decide_eq_true_eq, List.isSuffixOf_iff_suffix] at matched
  rcases matched with rfl | ⟨front, shape⟩
  · exact ⟨[], host, rfl, listed, .inl rfl⟩
  · obtain ⟨kept, last, rfl, rfl, lower⟩ := List.map_eq_append_iff.mp shape.symm
    obtain ⟨c, tail, rfl, dot, rfl⟩ := List.map_eq_cons_iff.mp lower
    rw [toLower_eq_iff (by rfl)] at dot
    subst dot
    exact ⟨kept ++ ['.'], tail, by simp, listed, .inr List.getLast?_concat⟩

/-- The port is not written, or is the last thing written. -/
theorem accepted_parts {endpoint : Text} (accepted : validatePushEndpoint endpoint = .ok ()) :
    ∃ rest, trim endpoint = text "https://" ++ rest ∧ '@' ∉ authority rest ∧
      ∃ host, EndsAllowed host ∧
        ((authority rest = host ∧ ':' ∉ host) ∨ authority rest = host ++ text ":443") := by
  simp only [validatePushEndpoint] at accepted
  split at accepted
  · cases accepted
  · split at accepted
    · cases accepted
    · next rest prefixed =>
      split at accepted
      · cases accepted
      · split at accepted
        · cases accepted
        · next noUser =>
          split at accepted
          · cases accepted
          · next portKnown =>
            split at accepted
            · cases accepted
            · split at accepted
              · cases accepted
              · next listed =>
                have shape : trim endpoint = text "https://" ++ rest := by
                  rw [stripPrefix] at prefixed
                  obtain ⟨front, same⟩ := Option.ite_none_right_eq_some.mp prefixed
                  obtain ⟨more, shape⟩ := List.isPrefixOf_iff_prefix.mp front
                  rw [← shape, List.drop_left] at same
                  rw [← shape, Option.some.inj same]
                refine ⟨rest, shape, noUser, (splitHost (authority rest)).1, ?_, ?_⟩
                · exact isAllowed_ends (by simpa using listed)
                · rw [splitHost] at portKnown ⊢
                  split at portKnown
                  · next host port found =>
                    have same : port = text "443" := by simpa using portKnown
                    rw [(rsplitOnce_eq_some.mp found).2, same]
                    exact .inr rfl
                  · next unmarked => exact .inl ⟨rfl, rsplitOnce_eq_none.mp unmarked⟩

end PushEndpoints
