import PmKonstruct.Library.DelimitedFields
import PmKonstruct.Media.DeletionQueue

/- The keys that objects are stored under. A stored name comes from the client and may hold anything, slashes too; it
   stands last, and what stands before it tells where it ends. -/
namespace ObjectKeys
open PlainText DecimalText DelimitedFields DomainErrors DeletionQueue

/-- What a stored object belongs to. -/
inductive OwnerKind where
  | diary
  | job
  | logo
  | banner
  deriving DecidableEq, Repr

/-- The middle of the key. -/
def OwnerKind.entity : OwnerKind → Text
  | .diary => text "diary"
  | .job => text "job"
  | .logo => text "branding/logo"
  | .banner => text "branding/banner"

/-- The parts of a key before the stored name, each ended by a slash. -/
def owner : (CompanyId × OwnerKind) × Int → Text :=
  fun parts => ((decimal parts.1.1 ++ ['/']) ++ (parts.1.2.entity ++ ['/'])) ++ (decimal parts.2 ++ ['/'])

theorem objectKey_owner {company : CompanyId} {kind : OwnerKind} {id : Int} {name : Text} :
    objectKey company kind.entity id name = owner ((company, kind), id) ++ name := by
  simp [objectKey, owner]

theorem delimited_number : Delimited fun n : Int => decimal n ++ ['/'] :=
  delimited_marked (fun _ _ => decimal_injective) fun _ => slash_notMem_decimal

/-- Two kinds share a first part, and neither is the beginning of the other. -/
theorem delimited_entity : Delimited fun kind : OwnerKind => kind.entity ++ ['/'] := by
  apply delimited_of_prefixFree
  intro a b
  cases a <;> cases b <;> decide

theorem delimited_owner : Delimited owner :=
  (delimited_number.pair delimited_entity).pair delimited_number

/-- A key names one file of one owner. -/
theorem objectKey_unambiguous (company other : CompanyId) (kind otherKind : OwnerKind) (id otherId : Int)
    (name otherName : Text) :
    objectKey company kind.entity id name = objectKey other otherKind.entity otherId otherName ↔
      company = other ∧ kind = otherKind ∧ id = otherId ∧ name = otherName := by
  rw [objectKey_owner, objectKey_owner, delimited_owner.append_inj]
  simp only [Prod.mk.injEq, and_assoc]

end ObjectKeys
