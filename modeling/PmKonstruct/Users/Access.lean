import Mathlib.Data.Finset.Dedup
import PmKonstruct.Users.Permissions

/- The permissions in force for a role and a stored list. Without the sentinel the list counts for nothing and the
   role has its defaults; a manager is asked for none. -/
namespace Access
open PlainText Accounts
open AuthStore (Permission)
open AuthService (SessionUser)
open Permissions (managedMarker)

def managedMarkerResource : Text := text "access-rules"

def managedMarkerAction : Text := text "managed"

def isManagedMarker (p : Permission) : Bool := p.resource = managedMarkerResource && p.action = managedMarkerAction

/-- The list as managed, for the manager-facing editor. -/
def markManaged (permissions : List Permission) : List Permission :=
  if permissions.any isManagedMarker then permissions else permissions ++ [⟨managedMarkerResource, managedMarkerAction⟩]

def nonManagerViewDefaults : List Permission :=
  [⟨text "jobs", text "read"⟩, ⟨text "site-diary", text "read"⟩, ⟨text "call-forward", text "read"⟩,
    ⟨text "reports", text "read"⟩, ⟨text "trade-scheduler", text "read"⟩]

def supervisorExtraDefaults : List Permission :=
  [⟨text "site-diary", text "write"⟩, ⟨text "call-forward", text "write"⟩, ⟨text "trade-scheduler", text "write"⟩]

def defaultsFor (role : Role) : Finset Permission :=
  (nonManagerViewDefaults ++ if role = .supervisor then supervisorExtraDefaults else []).toFinset

def effectivePermissions (role : Role) (stored : List Permission) : Finset Permission :=
  if stored.any (· = managedMarker) then (stored.filter (· ≠ managedMarker)).toFinset else defaultsFor role

def hasPermission (role : Role) (stored : List Permission) (permission : Permission) : Bool :=
  role.bypassesPermissionChecks || permission ∈ effectivePermissions role stored

def effective (s : SessionUser) : Finset Permission := effectivePermissions s.user.role s.permissions

def can (s : SessionUser) (permission : Permission) : Bool := hasPermission s.user.role s.permissions permission

variable {role : Role} {stored : List Permission} {permission : Permission}

theorem isManagedMarker_iff : isManagedMarker permission = true ↔ permission = managedMarker := by
  obtain ⟨resource, action⟩ := permission
  simp only [isManagedMarker, managedMarker, Bool.and_eq_true, decide_eq_true_eq, AuthStore.Permission.mk.injEq]
  rfl

theorem mem_effectivePermissions : permission ∈ effectivePermissions role stored ↔
    (managedMarker ∈ stored ∧ permission ∈ stored ∧ permission ≠ managedMarker) ∨
      (managedMarker ∉ stored ∧ permission ∈ defaultsFor role) := by
  rw [effectivePermissions]
  split
  · next managed =>
    have marked : managedMarker ∈ stored := by simpa using managed
    simp [marked]
  · next unmanaged =>
    have unmarked : managedMarker ∉ stored := by simpa using unmanaged
    simp [unmarked]

theorem hasPermission_manager : hasPermission .manager stored permission = true := rfl

theorem hasPermission_iff (restricted : role.bypassesPermissionChecks = false) :
    hasPermission role stored permission = true ↔ permission ∈ effectivePermissions role stored := by
  rw [hasPermission, restricted, Bool.false_or, decide_eq_true_eq]

end Access
