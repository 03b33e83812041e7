import FaceRecognition.Core.Numbers
import FaceRecognition.Lib.Fallible
import FaceRecognition.Recognition.Arcface

/-!
# The recognition pipeline

Decoding, detection, the size check, alignment and embedding, with the models and the codec as
fields. `processSingle` wants exactly one face in the picture, `processLargest` takes the first one
the detector returns when it is asked for one, `processAll` all that are large enough, in one batch.
-/

namespace FaceRecognition.Recognition

structure Pipeline where
  /-- `cv2.imdecode` -/
  imdecode : Bytes → Option Image
  /-- `detector.detect(image, max_num)` -/
  detect : Image → ℕ → Except Exc (List DetectedFace)
  /-- `aligner.align` -/
  align : Image → (Fin 5 → Point) → Except Exc Image
  /-- `embedder.embed` -/
  embed : Image → Except Exc Embedding
  minFaceSize : ℤ

namespace Pipeline

def decodeImage (P : Pipeline) (data : Bytes) : Except Exc Image :=
  match P.imdecode data with
  | none => .error ⟨.invalidImageError, "Could not decode image bytes", []⟩
  | some img => .ok img

def checkQuality (P : Pipeline) (face : DetectedFace) : Except Exc Unit :=
  if min face.width face.height < P.minFaceSize then
    .error ⟨.lowQualityFaceError, "Face too small (" ++ formatFixed0 face.width ++ "x" ++
      formatFixed0 face.height ++ "px); minimum is " ++ toString P.minFaceSize ++ "px", []⟩
  else .ok ()

def noFaceDetected : Exc := ⟨.noFaceDetectedError, "No face detected in image", []⟩

/-- The quality check, the alignment and the embedding of one detection. -/
def embedFace (P : Pipeline) (imageBgr : Image) (face : DetectedFace) : Except Exc FaceResult := do
  P.checkQuality face
  let aligned ← P.align imageBgr face.landmarks
  let embedding ← P.embed aligned
  return ⟨face, embedding⟩

def processSingle (P : Pipeline) (imageBgr : Image) : Except Exc FaceResult := do
  match ← P.detect imageBgr 0 with
  | [] => .error noFaceDetected
  | [face] => P.embedFace imageBgr face
  | faces => .error ⟨.multipleFacesError, toString faces.length ++
      " faces detected; enrollment/verification needs exactly one",
      [("face_count", faces.length)]⟩

def processLargest (P : Pipeline) (imageBgr : Image) : Except Exc FaceResult := do
  match ← P.detect imageBgr 1 with
  | [] => .error noFaceDetected
  | face :: _ => P.embedFace imageBgr face

/-! ### What a picture that is processed shows -/

section
variable {P : Pipeline} {imageBgr : Image} {result : FaceResult}

theorem decodeImage_eq_ok {data : Bytes} {img : Image} :
    P.decodeImage data = .ok img ↔ P.imdecode data = some img := by
  rw [decodeImage]
  cases P.imdecode data <;> simp

theorem embedFace_eq_ok {face : DetectedFace} : P.embedFace imageBgr face = .ok result ↔
    (P.minFaceSize : ℚ) ≤ min face.width face.height ∧
      ∃ crop, P.align imageBgr face.landmarks = .ok crop ∧
        ∃ embedding, P.embed crop = .ok embedding ∧ ⟨face, embedding⟩ = result := by
  have hquality : P.checkQuality face = .ok () ↔
      (P.minFaceSize : ℚ) ≤ min face.width face.height := by
    rw [checkQuality]
    split_ifs with h
    · exact iff_of_false (fun h => by cases h) (not_le.2 h)
    · exact iff_of_true rfl (not_lt.1 h)
  simp only [embedFace, Fallible.bind_eq_ok, hquality, exists_const, pure, Except.pure,
    Except.ok.injEq]

theorem processSingle_eq_ok : P.processSingle imageBgr = .ok result ↔
    ∃ face, P.detect imageBgr 0 = .ok [face] ∧ P.embedFace imageBgr face = .ok result := by
  rw [processSingle, Fallible.bind_eq_ok]
  constructor
  · rintro ⟨faces, hfaces, h⟩
    match faces with
    | [face] => exact ⟨face, hfaces, h⟩
  · rintro ⟨face, hface, h⟩
    exact ⟨[face], hface, h⟩

theorem processLargest_eq_ok : P.processLargest imageBgr = .ok result ↔
    ∃ face rest, P.detect imageBgr 1 = .ok (face :: rest) ∧
      P.embedFace imageBgr face = .ok result := by
  rw [processLargest, Fallible.bind_eq_ok]
  constructor
  · rintro ⟨faces, hfaces, h⟩
    match faces with
    | face :: rest => exact ⟨face, rest, hfaces, h⟩
  · rintro ⟨face, rest, hface, h⟩
    exact ⟨face :: rest, hface, h⟩

/-- The most prominent face of the picture is large enough, and its embedding can be computed. -/
def Recognises (P : Pipeline) (imageBgr : Image) : Prop :=
  ∃ face rest, P.detect imageBgr 1 = .ok (face :: rest) ∧
    (P.minFaceSize : ℚ) ≤ min face.width face.height ∧
      ∃ crop, P.align imageBgr face.landmarks = .ok crop ∧ ∃ embedding, P.embed crop = .ok embedding

theorem processLargest_returns_iff :
    (∃ result, P.processLargest imageBgr = .ok result) ↔ P.Recognises imageBgr := by
  simp only [processLargest_eq_ok, embedFace_eq_ok, Recognises]
  constructor
  · rintro ⟨_, face, rest, hdetect, hlarge, crop, hcrop, embedding, hembedding, -⟩
    exact ⟨face, rest, hdetect, hlarge, crop, hcrop, embedding, hembedding⟩
  · rintro ⟨face, rest, hdetect, hlarge, crop, hcrop, embedding, hembedding⟩
    exact ⟨_, face, rest, hdetect, hlarge, crop, hcrop, embedding, hembedding, rfl⟩

end

end Pipeline

/-- The pipeline with the embedder that its `embed` is. -/
structure RecognitionPipeline extends Pipeline where
  embedder : ArcFaceEmbedder
  embed_eq : embed = embedder.embed

def RecognitionPipeline.processAll (P : RecognitionPipeline) (imageBgr : Image) :
    Except Exc (List FaceResult) := do
  let faces ← P.detect imageBgr 0
  if faces.isEmpty then return []
  let valid := faces.filter fun f => decide ((P.minFaceSize : ℚ) ≤ min f.width f.height)
  if valid.isEmpty then return []
  let aligned ← valid.mapM fun f => P.align imageBgr f.landmarks
  let embeddings ← P.embedder.embedBatch aligned
  valid.zipIdx.mapM fun (f, i) =>
    match embeddings[i]? with
    | some embedding => .ok ⟨f, embedding⟩
    | none => .error (outOfBounds i 0 embeddings.length)

end FaceRecognition.Recognition
