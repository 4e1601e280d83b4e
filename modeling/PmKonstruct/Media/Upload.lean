import PmKonstruct.Store.Schema

/- Accepted upload types and the check of an uploaded object. The declared type is the client's word, so the
   size and the first bytes are read back from the object store, which is a parameter. -/
namespace Upload
open PlainText DomainErrors Schema

def maxPhotoBytes : Nat := 20 * 1024 * 1024

def maxVideoBytes : Nat := 500 * 1024 * 1024

def maxFilesPerUpload : Nat := 10

structure MediaKind where
  mime : Text
  extension : Text
  fileType : FileType
  deriving DecidableEq, Repr

def MediaKind.maxBytes (kind : MediaKind) : Nat :=
  match kind.fileType with
  | .video => maxVideoBytes
  | .photo | .document => maxPhotoBytes

/-- The map is the allowlist: a type that is absent is rejected. -/
def accepted : List MediaKind := [
  ⟨text "image/jpeg", text "jpg", .photo⟩,
  ⟨text "image/jpg", text "jpg", .photo⟩,
  ⟨text "image/png", text "png", .photo⟩,
  ⟨text "image/gif", text "gif", .photo⟩,
  ⟨text "image/webp", text "webp", .photo⟩,
  ⟨text "image/heic", text "heic", .photo⟩,
  ⟨text "image/heif", text "heif", .photo⟩,
  ⟨text "video/mp4", text "mp4", .video⟩,
  ⟨text "video/quicktime", text "mov", .video⟩,
  ⟨text "video/webm", text "webm", .video⟩,
  ⟨text "video/x-msvideo", text "avi", .video⟩,
  ⟨text "video/avi", text "avi", .video⟩]

def kindFor (mime : Text) : Option MediaKind := accepted.find? (·.mime = mime)

/- Signatures. -/

section Signatures

/-- The bytes stand at the offset; a shorter file does not have them. -/
def bytesAt (head : List UInt8) (offset : Nat) (bytes : List UInt8) : Bool := bytes.isPrefixOf (head.drop offset)

def ascii (s : String) : List UInt8 := s.toList.map fun c => UInt8.ofNat c.toNat

def isIsoBaseMedia (head : List UInt8) : Bool := bytesAt head 4 (ascii "ftyp")

def heifBrands : List (List UInt8) := ["heic", "heix", "hevc", "hevx", "mif1", "msf1"].map ascii

def isHeifBrand (head : List UInt8) : Bool := heifBrands.any (bytesAt head 8)

def signatureMatches (mime : Text) (head : List UInt8) : Bool :=
  if mime = text "image/jpeg" ∨ mime = text "image/jpg" then bytesAt head 0 [0xff, 0xd8, 0xff]
  else if mime = text "image/png" then bytesAt head 0 [0x89, 0x50, 0x4e, 0x47, 0x0d, 0x0a, 0x1a, 0x0a]
  else if mime = text "image/gif" then bytesAt head 0 [0x47, 0x49, 0x46, 0x38]
  else if mime = text "image/webp" then
    bytesAt head 0 [0x52, 0x49, 0x46, 0x46] && bytesAt head 8 [0x57, 0x45, 0x42, 0x50]
  else if mime = text "image/heic" ∨ mime = text "image/heif" then isIsoBaseMedia head && isHeifBrand head
  else if mime = text "video/mp4" ∨ mime = text "video/quicktime" then isIsoBaseMedia head
  else if mime = text "video/webm" then bytesAt head 0 [0x1a, 0x45, 0xdf, 0xa3]
  else if mime = text "video/x-msvideo" ∨ mime = text "video/avi" then
    bytesAt head 0 [0x52, 0x49, 0x46, 0x46] && bytesAt head 8 [0x41, 0x56, 0x49, 0x20]
  else false

def signatureProbeBytes : Nat := 16

end Signatures

def validateBatchSize (count limit : Nat) : Except DomainError Unit :=
  if count = 0 then .error (.invalid "files" "at least one file is required")
  else if count > limit then
    .error (.invalid "files" s!"Choose up to {limit} photos or videos at a time.")
  else .ok ()

/-- What the object store answers while a request runs. A size is an unsigned 64-bit number. -/
structure ObjectStore where
  head : Text → Except PortError (Option Nat)
  readPrefix : Text → Nat → Except PortError (List UInt8)

structure VerifiedUpload where
  kind : MediaKind
  sizeBytes : Nat
  deriving DecidableEq, Repr

def sizeMessage : String := "Each photo must be 20 MB or smaller, or each video must be 500 MB or smaller."

/-- Removing a rejected object from the store is best effort and leaves no trace in the answer. -/
def verify (store : ObjectStore) (key mimeType originalName : Text) : Except AppError VerifiedUpload :=
  match kindFor mimeType with
  | none => .error (.domain (.invalid "mimeType" "is not an accepted type"))
  | some kind =>
    match store.head key with
    | .error e => .error (.port e)
    | .ok none => .error (.domain (.invalid "storedName" "was not uploaded"))
    | .ok (some size) =>
      if size = 0 then .error (.domain (.invalid "size" "the file is empty"))
      else if size > kind.maxBytes then .error (.domain (.invalid "size" sizeMessage))
      else
        match store.readPrefix key signatureProbeBytes with
        | .error e => .error (.port e)
        | .ok bytes =>
          if signatureMatches kind.mime bytes then .ok ⟨kind, size⟩
          else
            let message := "File content does not match the declared type for: " ++ String.ofList originalName
            .error (.domain (.invalid "file" message))

end Upload
