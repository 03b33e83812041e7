import FaceRecognition.Api.Runs
import FaceRecognition.Db.Constraints
import FaceRecognition.Recognition.EntryPoints

/-!
# Single-face images

The three enrolment endpoints process an image as one that shows exactly one face. The folder import
takes the most prominent face instead, so what it stores comes from an image with one face only when
the imported images show no more.
-/

namespace FaceRecognition.Api

open Relational Recognition Db Services BulkImportService

/-- The picture has exactly one face, of at least the minimum size, and this is its embedding. -/
def SingleFace (P : Pipeline) (image : Image) (embedding : Embedding) : Prop :=
  ∃ face, P.detect image 0 = .ok [face] ∧ (P.minFaceSize : ℚ) ≤ min face.width face.height ∧
    ∃ crop, P.align image face.landmarks = .ok crop ∧ P.embed crop = .ok embedding

/-- The operation enrols the picture, through the pipeline. -/
def Op.EnrolsFrom (P : Pipeline) (image : Image) : Op → Prop
  | .registerFace S _ _ upload | .enrollByName S _ _ upload | .replaceFaceImage S _ _ upload =>
    P = S.pipeline ∧ P.imdecode upload.data = some image
  | .bulkImport env _ rootPath =>
    P = env.pipeline ∧ ∃ pair ∈ importsOf env rootPath, env.readImage pair.2 = .ok (some image)
  | _ => False

/-- The embedding of a picture with one face that one of the operations enrols. -/
def FromSingleFace (ops : List Op) (embedding : Embedding) : Prop :=
  ∃ op ∈ ops, ∃ P image, op.EnrolsFrom P image ∧ SingleFace P image embedding

/-- An imported image whose most prominent face is large enough shows no other face. -/
def Op.ShowsOneFaceEach : Op → Prop
  | .bulkImport env _ rootPath =>
    ∀ pair ∈ importsOf env rootPath, ∀ image face rest, env.readImage pair.2 = .ok (some image) →
      env.pipeline.detect image 1 = .ok (face :: rest) →
      (env.pipeline.minFaceSize : ℚ) ≤ min face.width face.height →
      env.pipeline.detect image 0 = .ok [face]
  | _ => True

section
variable {S : RecognitionService} {env : ImportEnv} {embedding : Embedding}

theorem singleFace_of_embedFace {P : Pipeline} {image : Image} {face : DetectedFace}
    {result : FaceResult} (hdetect : P.detect image 0 = .ok [face])
    (h : P.embedFace image face = .ok result) : SingleFace P image result.embedding := by
  obtain ⟨hlarge, crop, hcrop, embedding, hembedding, rfl⟩ := Pipeline.embedFace_eq_ok.1 h
  exact ⟨face, hdetect, hlarge, crop, hcrop, hembedding⟩

theorem singleFace_of_enrolledAs {data : Bytes} (h : S.EnrolledAs data embedding) :
    ∃ image, S.pipeline.imdecode data = some image ∧ SingleFace S.pipeline image embedding := by
  obtain ⟨image, result, himage, hresult, rfl⟩ := h
  obtain ⟨face, hdetect, hface⟩ := Pipeline.processSingle_eq_ok.1 hresult
  exact ⟨image, Pipeline.decodeImage_eq_ok.1 himage, singleFace_of_embedFace hdetect hface⟩

theorem analyse_eq_ok {imgPath : Path} {image : Image} {result : FaceResult} :
    analyse env imgPath = .ok (image, result) ↔ env.readImage imgPath = .ok (some image) ∧
      env.pipeline.processLargest image = .ok result := by
  rw [analyse, Fallible.bind_eq_ok]
  constructor
  · rintro ⟨read, hread, h⟩
    match read with
    | some image' =>
      obtain ⟨result', hresult, h⟩ := Fallible.bind_eq_ok.1 h
      cases h
      exact ⟨hread, hresult⟩
  · rintro ⟨hread, hresult⟩
    exact ⟨some image, hread, Fallible.bind_eq_ok.2 ⟨result, hresult, rfl⟩⟩

theorem singleFace_of_importedAs {imgPath : Path} (h : ImportedAs env imgPath embedding)
    (hone : ∀ image face rest, env.readImage imgPath = .ok (some image) →
      env.pipeline.detect image 1 = .ok (face :: rest) →
      (env.pipeline.minFaceSize : ℚ) ≤ min face.width face.height →
      env.pipeline.detect image 0 = .ok [face]) :
    ∃ image, env.readImage imgPath = .ok (some image) ∧ SingleFace env.pipeline image embedding := by
  obtain ⟨image, result, hanalyse, rfl⟩ := h
  obtain ⟨hread, hresult⟩ := analyse_eq_ok.1 hanalyse
  obtain ⟨face, rest, hdetect, hface⟩ := Pipeline.processLargest_eq_ok.1 hresult
  have hsingle := hone image face rest hread hdetect (Pipeline.embedFace_eq_ok.1 hface).1
  exact ⟨image, hread, singleFace_of_embedFace hsingle hface⟩

end

/-- What an operation stores comes from one of its pictures, with one face when an imported image
shows no more. -/
theorem singleFace_of_sends {op : Op} (hop : op.ShowsOneFaceEach) {q : Statement} (h : Sends op q)
    {embedding : Embedding} (hq : q.embedding? = some embedding) :
    ∃ P image, op.EnrolsFrom P image ∧ SingleFace P image embedding := by
  have hupload : ∀ {S : RecognitionService} {data : Bytes}, S.EnrolledAs data embedding →
      ∃ P image, (P = S.pipeline ∧ P.imdecode data = some image) ∧
        SingleFace P image embedding := by
    intro S data h
    obtain ⟨image, himage, hsingle⟩ := singleFace_of_enrolledAs h
    exact ⟨_, image, ⟨rfl, himage⟩, hsingle⟩
  cases h with
  | registerFace h =>
    cases hq
    exact hupload h
  | enrollByName h =>
    cases hq
    exact hupload h
  | replaceFaceImage _ _ h =>
    cases hq
    exact hupload h
  | @importFace env _ _ pair f hpair h =>
    cases hq
    obtain ⟨image, hread, hsingle⟩ := singleFace_of_importedAs h (hop pair hpair)
    exact ⟨env.pipeline, image, ⟨rfl, pair, hpair, hread⟩, hsingle⟩
  | _ => cases hq

/-- **Only single-face images are enrolled** by runs whose imports find images with one face. -/
theorem faces_from_single_face {ops : List Op} (hops : ∀ op ∈ ops, op.ShowsOneFaceEach) {w : World}
    (hrun : Run.exec step ⟨Database.empty, Table.empty⟩ ops = some w) :
    FacesWith (FromSingleFace ops) w.db := by
  refine run_keeps (I := FacesWith (FromSingleFace ops)) (fun l => ?_) (fun op hop q hq => ?_)
    (fun f hf => by cases hf) hrun
  · exact facesWith_keptBy fun e h => by cases h
  · exact facesWith_keptBy fun e h => ⟨op, hop, singleFace_of_sends (hops op hop) hq h⟩

/-! ### An import of a group photo -/

def alicesFolder (p : Path) : List Path :=
  if p = photos then [alicePhotos] else if p = alicePhotos then [alicePhoto] else []

def portraitEnv : ImportEnv := photosEnv alicesFolder 5 fun _ => none

def groupEnv : ImportEnv := { portraitEnv with
  pipeline := RecognitionPipeline.twoFacesPipeline.toPipeline }

theorem faces_from_single_face_portrait :
    FacesWith (FromSingleFace [.bulkImport portraitEnv 3 photos])
      (bulkImport portraitEnv 3 photos ⟨Database.empty, Table.empty⟩).db := by
  refine faces_from_single_face (fun op hop => ?_) rfl
  rw [List.mem_singleton.1 hop]
  rintro pair - image face rest - hdetect -
  cases hdetect
  rfl

theorem import_enrols_group : Run.exec step ⟨Database.empty, Table.empty⟩
      [.bulkImport groupEnv 3 photos] =
        some (bulkImport groupEnv 3 photos ⟨Database.empty, Table.empty⟩) ∧
    ¬ FacesWith (FromSingleFace [.bulkImport groupEnv 3 photos])
      (bulkImport groupEnv 3 photos ⟨Database.empty, Table.empty⟩).db := by
  refine ⟨rfl, fun h => ?_⟩
  have hstored : (bulkImport groupEnv 3 photos ⟨Database.empty, Table.empty⟩).db.faces.rows.length
      = 1 := by decide +kernel
  obtain ⟨f, hf⟩ := List.length_eq_one_iff.1 hstored
  obtain ⟨op, hop, P, image, henrols, face, hdetect, -⟩ := h f (by rw [hf]; exact List.mem_cons_self)
  rw [List.mem_singleton.1 hop] at henrols
  obtain ⟨rfl, -⟩ := henrols
  cases hdetect

end FaceRecognition.Api
