import PmKonstruct.Store.Schema

/- Branding: one row a company, made by the first write. The images are keys of objects, each replaced by a statement
   of its own that answers what it displaced. -/
namespace BrandingStore
open PlainText DomainErrors Accounts KeyedTable

inductive JobDisplayMode where
  | jobNumber
  | jobName
  | jobAddress
  deriving DecidableEq, Repr

inductive EmailSendMode where
  | device
  | smtp
  deriving DecidableEq, Repr

structure Branding where
  companyName : Text
  logoUrl : Option Text
  bannerUrl : Option Text
  primaryColor : Text
  sidebarColor : Text
  jobDisplayMode : JobDisplayMode
  emailSendMode : EmailSendMode
  updatedAt : Instant
  deriving DecidableEq, Repr

structure CompanyBrandingRow where
  id : Int
  companyId : CompanyId
  branding : Branding
  deriving DecidableEq, Repr

instance : Keyed CompanyBrandingRow := ⟨CompanyBrandingRow.id⟩

/-- What a company starts with; a row starts with the same, at the time it is written. -/
def defaultBranding : Branding :=
  ⟨text "PM Konstruct", none, none, text "#E84E1B", text "#0f1117", .jobNumber, .device, 0⟩

def Branding.image (branding : Branding) (banner : Bool) : Option Text :=
  if banner then branding.bannerUrl else branding.logoUrl

def Branding.setImage (branding : Branding) (banner : Bool) (objectKey : Option Text) (now : Instant) : Branding :=
  if banner then { branding with
    bannerUrl := objectKey
    updatedAt := now }
  else { branding with
    logoUrl := objectKey
    updatedAt := now }

section Repository
variable (t : Table CompanyBrandingRow) (scope : CompanyId)

def rowOf : Option CompanyBrandingRow := t.rows.find? (·.companyId = scope)

def branding : Branding := ((rowOf t scope).map (·.branding)).getD defaultBranding

/-- The answer is the old value, so that the object it named can be swept. -/
def setBrandingImage (now : Instant) (banner : Bool) (objectKey : Option Text) :
    Option Text × Table CompanyBrandingRow :=
  match rowOf t scope with
  | some row => (row.branding.image banner, t.update (·.companyId = scope)
      (fun r => { r with branding := r.branding.setImage banner objectKey now }) (fun _ => rfl))
  | none => (none, t.insert (fun id => ⟨id, scope, defaultBranding.setImage banner objectKey now⟩) (fun _ => rfl))

end Repository

/-- The keys that the rows hold. -/
def imageKeys (t : Table CompanyBrandingRow) : List Text :=
  t.rows.flatMap fun row => row.branding.logoUrl.toList ++ row.branding.bannerUrl.toList

theorem mem_imageKeys {t : Table CompanyBrandingRow} {key : Text} : key ∈ imageKeys t ↔
    ∃ row ∈ t.rows, row.branding.image false = some key ∨ row.branding.image true = some key := by
  simp [imageKeys, Branding.image, Option.mem_toList]

theorem setImage_image {branding : Branding} {banner other : Bool} {objectKey : Option Text} {now : Instant} {key : Text}
    (holds : (branding.setImage banner objectKey now).image other = some key) :
    branding.image other = some key ∨ objectKey = some key := by
  cases banner <;> cases other
  · exact .inr holds
  · exact .inl holds
  · exact .inl holds
  · exact .inr holds

/-- A replaced image brings its own key and no other. -/
theorem imageKeys_set {t : Table CompanyBrandingRow} {scope : CompanyId} {now : Instant} {banner : Bool}
    {objectKey : Option Text} {key : Text} (held : key ∈ imageKeys (setBrandingImage t scope now banner objectKey).2) :
    key ∈ imageKeys t ∨ objectKey = some key := by
  obtain ⟨row, member, holds⟩ := mem_imageKeys.mp held
  have from_row : ∀ old : Branding, row.branding = old.setImage banner objectKey now →
      (old.image false = some key ∨ old.image true = some key) ∨ objectKey = some key := by
    intro old made
    rw [made] at holds
    rcases holds with logo | image
    · rcases setImage_image logo with before | new
      · exact .inl (.inl before)
      · exact .inr new
    · rcases setImage_image image with before | new
      · exact .inl (.inr before)
      · exact .inr new
  unfold setBrandingImage at member
  split at member
  · dsimp only at member
    obtain ⟨old, there, made⟩ := Table.mem_update.mp member
    split at made
    · rcases from_row old.branding (by rw [made]) with before | new
      · exact .inl (mem_imageKeys.mpr ⟨old, there, before⟩)
      · exact .inr new
    · exact .inl (mem_imageKeys.mpr ⟨old, there, made ▸ holds⟩)
  · dsimp only at member
    rcases Table.mem_insert.mp member with before | made
    · exact .inl (mem_imageKeys.mpr ⟨row, before, holds⟩)
    · rcases from_row defaultBranding (by rw [made]) with fresh | new
      · simp [defaultBranding, Branding.image] at fresh
      · exact .inr new

end BrandingStore
