import FaceRecognition.Api.Deps

/-!
# The face endpoints

Upload checks, enrolment, image replacement, deletion, verification and identification.
-/

namespace FaceRecognition.Api

open Recognition Db UnitOfWork Services

/-- An `UploadFile`. -/
structure Upload where
  contentType : Option String
  data : Bytes
  filename : Option String

/-- `_MAX_IMAGE_BYTES` -/
def maxImageBytes : ℕ := 15 * 1024 * 1024

def invalidImage (message : String) : Exc := ⟨.invalidImageError, message, []⟩

/-- A missing or empty content type passes. -/
def readImage (file : Upload) : Except Exc Bytes :=
  let contentType := file.contentType.getD ""
  if contentType ≠ "" ∧ ¬ "image/".toList <+: contentType.toList then
    .error (invalidImage ("Unsupported content type: " ++ contentType))
  else if file.data = [] then .error (invalidImage "Empty image upload")
  else if maxImageBytes < file.data.length then .error (invalidImage "Image exceeds 15 MB limit")
  else .ok file.data

section
variable (S : RecognitionService) (c : Context)

def registerFace (personId : UUID) (image : Upload) : SessionM FaceRegisterResponse := do
  let data ← lift (readImage image)
  S.register c personId data image.filename

def enrollByName (personName : String) (image : Upload) : SessionM FaceRegisterResponse := do
  let data ← lift (readImage image)
  S.registerByName c personName data image.filename

def replaceFaceImage (faceId : UUID) (image : Upload) : SessionM FaceRegisterResponse := do
  let data ← lift (readImage image)
  S.replaceFaceImage c faceId data image.filename

def deleteFace (faceId : UUID) : SessionM Unit := do
  match ← FaceRepository.get c faceId with
  | none => throw (RecognitionService.faceNotFound faceId)
  | some face => FaceRepository.delete c face

def verifyFace (personId : UUID) (image : Upload) : SessionM VerifyResponse := do
  let data ← lift (readImage image)
  S.verify c personId data

def searchFaces (image : Upload) (topK : Option ℤ) : SessionM SearchResponse := do
  let data ← lift (readImage image)
  S.search c data topK

def externalSearch (image : Upload) : SessionM ExternalSearchResponse := do
  let data ← lift (readImage image)
  S.identifyTop1 c data

end

theorem readImage_ok {file : Upload} {data : Bytes} (h : readImage file = .ok data) :
    data = file.data := by
  rw [readImage] at h
  split_ifs at h
  exact (Except.ok.inj h).symm

/-! ### The endpoints keep what their statements do -/

/-- An endpoint that reads its image first. -/
theorem keeps_upload {α : Type} {I : Database → Prop} {image : Upload} {k : Bytes → SessionM α}
    (h : Keeps (Both I) (k image.data)) : Keeps (Both I) (lift (readImage image) >>= k) :=
  keeps_lift_bind fun data hread => by
    rw [readImage_ok hread]
    exact h

theorem keeps_deleteFace {I : Database → Prop} {c : Context} (hc : c.others = []) {faceId : UUID}
    (hI : ∀ id, KeptBy I (.deleteFace id)) : Keeps (Both I) (deleteFace c faceId) := by
  refine keeps_bind keeps_select fun face => ?_
  cases face with
  | none => exact keeps_throw _
  | some face => exact keeps_keptBy hc (hI _)

end FaceRecognition.Api
