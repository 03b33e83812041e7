import FaceRecognition.Core.Strings
import FaceRecognition.Db.Repositories
import FaceRecognition.Recognition.Pipeline

/-!
# RecognitionService

Enrolment, image replacement, verification and identification, on the repositories and the
pipeline. Each operation keeps what its statements keep (`keeps_...`): its only writes are flushes.
-/

namespace FaceRecognition.Services

open Recognition Db UnitOfWork

structure RecognitionService where
  pipeline : Pipeline
  makeFaceThumbnail : Image → BBox → Except Exc (Option Bytes)
  gallery : Gallery
  /-- `RECOGNITION_THRESHOLD`, a number: the settings accept `nan` and `inf` too -/
  recognitionThreshold : ℚ
  /-- `SEARCH_TOP_K` -/
  searchTopK : ℤ
  actor : Option String
  clientIp : Option String

structure FaceRegisterResponse where
  faceId : UUID
  personId : UUID
  confidence : ℚ
  bbox : BBox
  deriving DecidableEq, Repr

structure VerifyResponse where
  matched : Bool
  similarityScore : ℚ
  threshold : ℚ
  personId : UUID
  matchedFaceId : Option UUID
  deriving DecidableEq, Repr

structure SearchMatch where
  personId : UUID
  faceId : UUID
  fullName : String
  similarityScore : ℚ
  deriving DecidableEq, Repr

structure SearchResponse where
  «matches» : List SearchMatch
  threshold : ℚ
  queryConfidence : ℚ
  deriving DecidableEq, Repr

structure ExternalSearchResponse where
  matched : Bool
  personId : Option UUID
  fullName : Option String
  similarity : Option ℚ
  threshold : ℚ
  deriving DecidableEq, Repr

namespace RecognitionService

variable (S : RecognitionService) (c : Context)

def personNotFound (id : UUID) : Exc :=
  ⟨.entityNotFoundError, "Person " ++ toString id ++ " not found", []⟩

def faceNotFound (id : UUID) : Exc :=
  ⟨.entityNotFoundError, "Face " ++ toString id ++ " not found", []⟩

/-! ### Enrolment -/

def newFace (personId : UUID) (result : FaceResult) (imagePath : Option String)
    (bbox : Option BBox) (thumbnail : Option Bytes) : Face where
  id := c.faceId
  personId := personId
  embedding := result.embedding
  detScore := result.detection.score
  quality := some result.detection.score
  imagePath := imagePath
  bbox := bbox
  thumbnail := thumbnail
  createdAt := c.now
  updatedAt := c.now
  isActive := true

def enroll (person : Person) (imageBytes : Bytes) (imagePath : Option String) :
    SessionM FaceRegisterResponse := do
  let image ← lift (S.pipeline.decodeImage imageBytes)
  let result ← lift (S.pipeline.processSingle image)
  let thumbnail ← lift (S.makeFaceThumbnail image result.detection.bbox)
  let face ← FaceRepository.add c
    (newFace c person.id result imagePath (some result.detection.bbox) thumbnail)
  RecognitionLogRepository.record c
    { action := .register
      personId := some person.id
      matchedFaceId := some face.id
      success := true
      userId := S.actor
      clientIp := S.clientIp }
  return ⟨face.id, person.id, result.detection.score, result.detection.bbox⟩

def register (personId : UUID) (imageBytes : Bytes) (imagePath : Option String) :
    SessionM FaceRegisterResponse := do
  match ← PersonRepository.get c personId with
  | none => throw (personNotFound personId)
  | some person => S.enroll c person imageBytes imagePath

def registerByName (fullName : String) (imageBytes : Bytes) (imagePath : Option String) :
    SessionM FaceRegisterResponse := do
  let fullName := strip fullName
  match ← PersonRepository.getByName c fullName with
  | some person => S.enroll c person imageBytes imagePath
  | none =>
    let person ← PersonRepository.add c
      (PersonRepository.newPerson c fullName none .emptyObject)
    S.enroll c person imageBytes imagePath

def replaceFaceImage (faceId : UUID) (imageBytes : Bytes) (imagePath : Option String) :
    SessionM FaceRegisterResponse := do
  match ← FaceRepository.get c faceId with
  | none => throw (faceNotFound faceId)
  | some face =>
    let image ← lift (S.pipeline.decodeImage imageBytes)
    let result ← lift (S.pipeline.processSingle image)
    let thumbnail ← lift (S.makeFaceThumbnail image result.detection.bbox)
    flushStatement c .flushFace (.updateFace face.id
      { embedding := result.embedding
        detScore := result.detection.score
        quality := some result.detection.score
        bbox := some result.detection.bbox
        thumbnail := thumbnail
        imagePath := imagePath } c.now)
    RecognitionLogRepository.record c
      { action := .register
        personId := some face.personId
        matchedFaceId := some face.id
        success := true
        userId := S.actor
        clientIp := S.clientIp
        message := some "image replaced" }
    return ⟨face.id, face.personId, result.detection.score, result.detection.bbox⟩

/-! ### Verification (1:1) -/

def verify (personId : UUID) (imageBytes : Bytes) : SessionM VerifyResponse := do
  match ← PersonRepository.get c personId with
  | none => throw (personNotFound personId)
  | some person =>
    let image ← lift (S.pipeline.decodeImage imageBytes)
    let result ← lift (S.pipeline.processLargest image)
    let «match» ← FaceRepository.bestMatchForPerson S.gallery c person.id result.embedding
    let similarity := («match».map Prod.snd).getD 0
    let matchedFaceId := «match».map Prod.fst
    let matched := decide (S.recognitionThreshold ≤ similarity)
    RecognitionLogRepository.record c
      { action := .verify
        personId := some person.id
        matchedFaceId := matchedFaceId
        similarity := some similarity
        success := matched
        userId := S.actor
        clientIp := S.clientIp }
    return {
      matched := matched
      similarityScore := roundDigits 6 similarity
      threshold := S.recognitionThreshold
      personId := person.id
      matchedFaceId := if matched then matchedFaceId else none }

/-! ### Identification (1:N) -/

def toSearchMatch (r : SearchRow) : SearchMatch :=
  ⟨r.personId, r.faceId, r.fullName, roundDigits 6 r.similarity⟩

/-- `top_k or self.settings.SEARCH_TOP_K` -/
def effectiveTopK (topK : Option ℤ) : ℤ :=
  match topK with
  | some k => if k = 0 then S.searchTopK else k
  | none => S.searchTopK

def search (imageBytes : Bytes) (topK : Option ℤ) : SessionM SearchResponse := do
  let image ← lift (S.pipeline.decodeImage imageBytes)
  let result ← lift (S.pipeline.processLargest image)
  let rows ← FaceRepository.search S.gallery c result.embedding (S.effectiveTopK topK)
  let «matches» :=
    (rows.filter fun r => S.recognitionThreshold ≤ r.similarity).map toSearchMatch
  let best := «matches».head?
  RecognitionLogRepository.record c
    { action := .search
      personId := best.map SearchMatch.personId
      matchedFaceId := best.map SearchMatch.faceId
      similarity := best.map SearchMatch.similarityScore
      success := !«matches».isEmpty
      userId := S.actor
      clientIp := S.clientIp }
  return ⟨«matches», S.recognitionThreshold, result.detection.score⟩

def identifyTop1 (imageBytes : Bytes) : SessionM ExternalSearchResponse := do
  let image ← lift (S.pipeline.decodeImage imageBytes)
  let result ← lift (S.pipeline.processLargest image)
  let rows ← FaceRepository.search S.gallery c result.embedding 1
  let best := rows.head?.filter fun r => S.recognitionThreshold ≤ r.similarity
  RecognitionLogRepository.record c
    { action := .search
      personId := best.map SearchRow.personId
      matchedFaceId := best.map SearchRow.faceId
      similarity := best.map SearchRow.similarity
      success := best.isSome
      userId := S.actor
      clientIp := S.clientIp }
  return {
    matched := best.isSome
    personId := best.map SearchRow.personId
    fullName := best.map SearchRow.fullName
    similarity := best.map fun r => roundDigits 6 r.similarity
    threshold := S.recognitionThreshold }

/-! ### The operations keep what their statements do -/

/-- The embedding of the face of an enrolment image. -/
def EnrolledAs (imageBytes : Bytes) (embedding : Embedding) : Prop :=
  ∃ image result, S.pipeline.decodeImage imageBytes = .ok image ∧
    S.pipeline.processSingle image = .ok result ∧ result.embedding = embedding

/-- A row of the log is under the name and the address of the client. -/
structure Signed (S : RecognitionService) (l : RecognitionLog) : Prop where
  userId : l.userId = S.actor
  clientIp : l.clientIp = S.clientIp

section
variable {S : RecognitionService} {c : Context} {I : Database → Prop} {imageBytes : Bytes}
  (hc : c.others = []) (hlog : ∀ l, S.Signed l → KeptBy I (.insertLog l))
include hc hlog

theorem keeps_enroll (hface : ∀ f, S.EnrolledAs imageBytes f.embedding → KeptBy I (.insertFace f))
    (person : Person) (imagePath : Option String) :
    Keeps (Both I) (S.enroll c person imageBytes imagePath) := by
  refine keeps_lift_bind fun image himage => keeps_lift_bind fun result hresult =>
    keeps_bind (keeps_lift _) fun thumbnail => keeps_bind (FaceRepository.keeps_add hc ?_)
      fun face => keeps_bind (keeps_keptBy hc (hlog _ ⟨rfl, rfl⟩)) fun _ => keeps_pure _
  exact hface _ ⟨image, result, himage, hresult, rfl⟩

theorem keeps_register (hface : ∀ f, S.EnrolledAs imageBytes f.embedding → KeptBy I (.insertFace f))
    (personId : UUID) (imagePath : Option String) :
    Keeps (Both I) (S.register c personId imageBytes imagePath) := by
  refine keeps_bind keeps_select fun person => ?_
  cases person with
  | none => exact keeps_throw _
  | some person => exact keeps_enroll hc hlog hface person imagePath

theorem keeps_registerByName {fullName : String}
    (hperson : KeptBy I (.insertPerson
      (PersonRepository.newPerson c (strip fullName) none .emptyObject)))
    (hface : ∀ f, S.EnrolledAs imageBytes f.embedding → KeptBy I (.insertFace f))
    (imagePath : Option String) :
    Keeps (Both I) (S.registerByName c fullName imageBytes imagePath) := by
  refine keeps_bind keeps_select fun person => ?_
  cases person with
  | some person => exact keeps_enroll hc hlog hface person imagePath
  | none =>
    exact keeps_bind (PersonRepository.keeps_add hc hperson) fun person =>
      keeps_enroll hc hlog hface person imagePath

theorem keeps_replaceFaceImage
    (hface : ∀ id s now, S.EnrolledAs imageBytes s.embedding → KeptBy I (.updateFace id s now))
    (faceId : UUID) (imagePath : Option String) :
    Keeps (Both I) (S.replaceFaceImage c faceId imageBytes imagePath) := by
  refine keeps_bind keeps_select fun face => ?_
  cases face with
  | none => exact keeps_throw _
  | some face =>
    refine keeps_lift_bind fun image himage => keeps_lift_bind fun result hresult =>
      keeps_bind (keeps_lift _) fun thumbnail => keeps_bind (keeps_keptBy hc ?_) fun _ =>
        keeps_bind (keeps_keptBy hc (hlog _ ⟨rfl, rfl⟩)) fun _ => keeps_pure _
    exact hface _ _ _ ⟨image, result, himage, hresult, rfl⟩

theorem keeps_verify (personId : UUID) : Keeps (Both I) (S.verify c personId imageBytes) := by
  refine keeps_bind keeps_select fun person => ?_
  cases person with
  | none => exact keeps_throw _
  | some person =>
    exact keeps_bind (keeps_lift _) fun image => keeps_bind (keeps_lift _) fun result =>
      keeps_bind keeps_select fun best => keeps_bind (keeps_keptBy hc (hlog _ ⟨rfl, rfl⟩)) fun _ =>
        keeps_pure _

theorem keeps_search (topK : Option ℤ) : Keeps (Both I) (S.search c imageBytes topK) :=
  keeps_bind (keeps_lift _) fun _ => keeps_bind (keeps_lift _) fun _ =>
    keeps_bind keeps_query fun _ => keeps_bind (keeps_keptBy hc (hlog _ ⟨rfl, rfl⟩)) fun _ =>
      keeps_pure _

theorem keeps_identifyTop1 : Keeps (Both I) (S.identifyTop1 c imageBytes) :=
  keeps_bind (keeps_lift _) fun _ => keeps_bind (keeps_lift _) fun _ =>
    keeps_bind keeps_query fun _ => keeps_bind (keeps_keptBy hc (hlog _ ⟨rfl, rfl⟩)) fun _ =>
      keeps_pure _

end

/-! ### A service whose detector finds one face in every picture -/

def wholeFace : DetectedFace := ⟨⟨0, 0, 100, 100⟩, 9 / 10, fun _ => ⟨50, 50⟩⟩

def oneFacePipeline : Pipeline where
  imdecode data := some ⟨100, 100, data⟩
  detect _ _ := .ok [wholeFace]
  align image _ := .ok image
  embed _ := .ok (planar 1 0)
  minFaceSize := 40

def oneFaceService : RecognitionService where
  pipeline := oneFacePipeline
  makeFaceThumbnail _ _ := .ok none
  gallery := ⟨planarDistance, fun _ => 0⟩
  recognitionThreshold := 35 / 100
  searchTopK := 10
  actor := none
  clientIp := none

def oneFaceResult : FaceResult := ⟨wholeFace, planar 1 0⟩

theorem processLargest_oneFace (image : Image) :
    oneFacePipeline.processLargest image = .ok oneFaceResult := by
  have hquality : oneFacePipeline.checkQuality wholeFace = .ok () :=
    if_neg (by norm_num [wholeFace, oneFacePipeline, DetectedFace.width, DetectedFace.height])
  show oneFacePipeline.embedFace image wholeFace = _
  rw [Pipeline.embedFace, hquality]
  rfl

end RecognitionService

end FaceRecognition.Services
