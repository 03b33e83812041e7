import FaceRecognition.Lib.Fallible
import FaceRecognition.Recognition.Anchors
import FaceRecognition.Recognition.Pipeline

/-!
# The entry points of the pipeline agree

`processSingle`, `processLargest` and `processAll` detect, check, align and embed the same faces when
the detector's answer for one face is the best of its answers for all, and the embedder embeds every
crop for itself. The SCRFD detector answers so (`bestOf_detect`).
-/

namespace FaceRecognition.Recognition

open Fallible

/-- `top` is the face of the highest priority, or nothing when there is no face. -/
inductive BestOf (priority : DetectedFace → ℚ) : List DetectedFace → List DetectedFace → Prop
  | none : BestOf priority [] []
  | best {faces : List DetectedFace} {face : DetectedFace} (hmem : face ∈ faces)
    (hbest : ∀ other ∈ faces, priority other ≤ priority face) : BestOf priority faces [face]

theorem BestOf.of_singleton {priority : DetectedFace → ℚ} {face : DetectedFace}
    {top : List DetectedFace} (h : BestOf priority [face] top) : top = [face] := by
  cases h with
  | best hmem hbest => rw [List.mem_singleton.1 hmem]

theorem BestOf.mem {priority : DetectedFace → ℚ} {faces rest : List DetectedFace}
    {face : DetectedFace} (h : BestOf priority faces (face :: rest)) : face ∈ faces := by
  cases h with
  | best hmem hbest => exact hmem

/-- The models raise no errors of their own, and neither a face nor a crop depends on the others. -/
structure ModelsAgree (P : RecognitionPipeline) (priority : Image → DetectedFace → ℚ) : Prop where
  detect : ∀ image, ∃ faces top, P.detect image 0 = .ok faces ∧ P.detect image 1 = .ok top ∧
    BestOf (priority image) faces top
  align : ∀ image landmarks, ∃ crop, P.align image landmarks = .ok crop
  embed : ∃ one : Image → Embedding, ∀ crops, P.embedder.embedBatch crops = .ok (crops.map one)

/-- `min(f.width, f.height) >= self.min_face_size` -/
def Pipeline.large (P : Pipeline) (face : DetectedFace) : Bool :=
  (P.minFaceSize : ℚ) ≤ min face.width face.height

namespace RecognitionPipeline

section
variable {P : RecognitionPipeline} {image : Image} {face : DetectedFace}

theorem checkQuality_of_small (h : P.large face = false) :
    ∃ e, P.checkQuality face = .error e ∧ e.kind = .lowQualityFaceError :=
  ⟨_, if_pos (not_le.1 (of_decide_eq_false h)), rfl⟩

theorem embedFace_of_large {crop : Image} {embedding : Embedding} (h : P.large face = true)
    (hcrop : P.align image face.landmarks = .ok crop) (hembed : P.embed crop = .ok embedding) :
    P.embedFace image face = .ok ⟨face, embedding⟩ :=
  Pipeline.embedFace_eq_ok.2 ⟨of_decide_eq_true h, crop, hcrop, embedding, hembed, rfl⟩

theorem embedFace_of_small (h : P.large face = false) :
    ∃ e, P.embedFace image face = .error e ∧ e.kind = .lowQualityFaceError := by
  obtain ⟨e, he, hkind⟩ := checkQuality_of_small h
  refine ⟨e, ?_, hkind⟩
  rw [Pipeline.embedFace, he, error_bind]

theorem processSingle_eq (h : P.detect image 0 = .ok [face]) :
    P.processSingle image = P.embedFace image face := by
  rw [Pipeline.processSingle, h]
  rfl

theorem processLargest_eq {rest : List DetectedFace} (h : P.detect image 1 = .ok (face :: rest)) :
    P.processLargest image = P.embedFace image face := by
  rw [Pipeline.processLargest, h]
  rfl

/-- A single crop is embedded as it is within any batch. -/
theorem embed_of_batch {one : Image → Embedding}
    (h : ∀ crops, P.embedder.embedBatch crops = .ok (crops.map one)) (crop : Image) :
    P.embed crop = .ok (one crop) := by
  rw [P.embed_eq, ArcFaceEmbedder.embed, h]
  rfl

theorem processAll_eq {crop : (Fin 5 → Point) → Image} {one : Image → Embedding}
    (halign : ∀ landmarks, P.align image landmarks = .ok (crop landmarks))
    (hembed : ∀ crops, P.embedder.embedBatch crops = .ok (crops.map one))
    {faces : List DetectedFace} (h : P.detect image 0 = .ok faces) :
    P.processAll image =
      .ok ((faces.filter P.large).map fun f => ⟨f, one (crop f.landmarks)⟩) := by
  have hlarge : (fun f : DetectedFace => decide ((P.minFaceSize : ℚ) ≤ min f.width f.height)) =
      P.large := rfl
  rw [processAll, h, ok_bind, hlarge]
  cases hfaces : faces.isEmpty with
  | true =>
    rw [List.isEmpty_iff.1 hfaces]
    rfl
  | false =>
    rw [if_neg Bool.false_ne_true]
    dsimp only
    cases hvalid : (faces.filter P.large).isEmpty with
    | true =>
      rw [List.isEmpty_iff.1 hvalid]
      rfl
    | false =>
      have halign' : ∀ f ∈ faces.filter P.large, P.align image f.landmarks =
          .ok (crop f.landmarks) := fun f _ => halign f.landmarks
      rw [if_neg Bool.false_ne_true, mapM_ok halign', ok_bind, hembed, ok_bind, List.map_map]
      refine mapM_zipIdx_ok fun f i hf => ?_
      dsimp only
      rw [List.getElem?_map, hf]
      rfl

end

/-- **The three entry points agree**: on the face of a picture with one face, on the most prominent
one of any picture, and on all that are large enough. -/
theorem entry_points_agree (P : RecognitionPipeline) (priority : Image → DetectedFace → ℚ)
    (h : ModelsAgree P priority) (image : Image) :
    (∀ face, P.detect image 0 = .ok [face] → P.processSingle image = P.processLargest image ∧
      (∀ result, P.processSingle image = .ok result → P.processAll image = .ok [result]) ∧
      (P.processAll image = .ok [] ↔
        ∃ e, P.processSingle image = .error e ∧ e.kind = .lowQualityFaceError)) ∧
    (∀ result, P.processLargest image = .ok result →
      ∃ results, P.processAll image = .ok results ∧ result ∈ results) ∧
    ∀ faces, P.detect image 0 = .ok faces → ∃ results, P.processAll image = .ok results ∧
      results.map FaceResult.detection =
        faces.filter (fun face => (P.minFaceSize : ℚ) ≤ min face.width face.height) ∧
      ∀ result ∈ results, ∃ crop, P.align image result.detection.landmarks = .ok crop ∧
        P.embed crop = .ok result.embedding := by
  obtain ⟨faces, top, hfaces, htop, hbest⟩ := h.detect image
  choose crop halign using h.align image
  obtain ⟨one, hembed⟩ := h.embed
  have hall := processAll_eq halign hembed hfaces
  have hlarge : ∀ face, P.large face = true → P.embedFace image face =
      .ok ⟨face, one (crop face.landmarks)⟩ := fun face hface =>
    embedFace_of_large hface (halign _) (embed_of_batch hembed _)
  refine ⟨fun face hface => ?_, fun result hresult => ?_, fun faces' hfaces' => ?_⟩
  · obtain rfl : faces = [face] := Except.ok.inj (hfaces.symm.trans hface)
    rw [hbest.of_singleton] at htop
    rw [processSingle_eq hface, processLargest_eq htop, hall]
    cases hsize : P.large face with
    | true => simp [hlarge face hsize, hsize]
    | false =>
      obtain ⟨e, he, hkind⟩ := @embedFace_of_small P image face hsize
      simp [he, hkind, hsize]
  · cases hbest with
    | none =>
      rw [Pipeline.processLargest, htop] at hresult
      cases hresult
    | @best _ face hmem _ =>
      rw [processLargest_eq htop] at hresult
      cases hsize : P.large face with
      | true =>
        rw [hlarge face hsize] at hresult
        obtain rfl := Except.ok.inj hresult
        exact ⟨_, hall, List.mem_map.2 ⟨face, List.mem_filter.2 ⟨hmem, hsize⟩, rfl⟩⟩
      | false =>
        obtain ⟨e, he, -⟩ := @embedFace_of_small P image face hsize
        rw [he] at hresult
        cases hresult
  · obtain rfl : faces = faces' := Except.ok.inj (hfaces.symm.trans hfaces')
    refine ⟨_, hall, ?_, fun result hmem => ?_⟩
    · rw [List.map_map]
      exact List.map_id _
    · obtain ⟨face, -, rfl⟩ := List.mem_map.1 hmem
      exact ⟨crop face.landmarks, halign _, embed_of_batch hembed _⟩

/-! ### A pipeline that finds two faces -/

def twoFaces : List DetectedFace :=
  [⟨⟨0, 0, 100, 100⟩, 9 / 10, fun _ => ⟨50, 50⟩⟩, ⟨⟨200, 0, 230, 30⟩, 8 / 10, fun _ => ⟨215, 15⟩⟩]

def copyEmbedder : ArcFaceEmbedder where
  run crops := .ok (crops.map fun crop _ => crop.width)
  l2Normalize embedding := embedding

def twoFacesPipeline : RecognitionPipeline where
  imdecode data := some ⟨100, 230, data⟩
  detect _ maxNum := .ok (if maxNum = 1 then twoFaces.take 1 else twoFaces)
  align image _ := .ok image
  embed := copyEmbedder.embed
  minFaceSize := 40
  embedder := copyEmbedder
  embed_eq := rfl

theorem modelsAgree_twoFaces :
    ModelsAgree twoFacesPipeline fun _ face => face.width * face.height where
  detect _ := ⟨twoFaces, _, rfl, rfl, .best List.mem_cons_self fun other hother => by
    rcases List.mem_cons.1 hother with rfl | hother
    · exact le_rfl
    · rw [List.mem_singleton.1 hother]
      norm_num [DetectedFace.width, DetectedFace.height]⟩
  align image _ := ⟨image, rfl⟩
  embed := ⟨fun crop _ => crop.width, fun crops => by
    cases crops with
    | nil => rfl
    | cons crop crops =>
      show Except.ok _ = _
      exact congrArg _ (List.map_id _)⟩

theorem entry_points_agree_twoFaces : ∃ results,
    twoFacesPipeline.processAll ⟨100, 230, []⟩ = .ok results ∧
      results.map FaceResult.detection = twoFaces.take 1 := by
  obtain ⟨results, hall, hdetection, -⟩ :=
    (entry_points_agree twoFacesPipeline _ modelsAgree_twoFaces ⟨100, 230, []⟩).2.2 twoFaces rfl
  refine ⟨results, hall, hdetection.trans ?_⟩
  norm_num [twoFaces, twoFacesPipeline, DetectedFace.width, DetectedFace.height]

end RecognitionPipeline

/-! ### The SCRFD detector -/

namespace SCRFDetector

/-- Asked for one face, the detector returns the best of the faces it finds. -/
theorem bestOf_detect {D : SCRFDetector} (hD : KeypointModel D) {cache cache' : CenterCache}
    (hcache : Warm D cache) (hcache' : Warm D cache') {imageBgr : Image}
    {all top : List DetectedFace} (hall : (D.detect imageBgr 0 cache).1 = .ok all)
    (htop : (D.detect imageBgr 1 cache').1 = .ok top) :
    BestOf (fun face => priority (imageBgr.height, imageBgr.width) face.bbox) all top := by
  rw [detect] at hall htop
  cases hletterbox : D.letterbox imageBgr with
  | error e =>
    rw [hletterbox] at hall
    cases hall
  | ok r =>
  rw [hletterbox] at hall htop
  obtain ⟨all', top', hall', htop', anchors, kept, hanchors, hkept, hsub, -, hmax⟩ :=
    selection_detectAt hD hcache hcache' r.1 r.2 (imageBgr.height, imageBgr.width) 1
  obtain rfl := Except.ok.inj (hall'.symm.trans hall)
  obtain rfl := Except.ok.inj (htop'.symm.trans htop)
  obtain ⟨hlength, hdominates⟩ := hmax one_pos
  rw [hanchors.faces_eq, hkept.faces_eq]
  cases anchors with
  | nil =>
    rw [List.subset_nil.1 hsub]
    exact .none
  | cons a rest =>
    obtain ⟨b, rfl⟩ := List.length_eq_one_iff.1 (hlength.trans (by simp))
    have hb : b ∈ a :: rest := hsub List.mem_cons_self
    refine .best (List.mem_map_of_mem hb) fun face hface => ?_
    obtain ⟨other, hother, rfl⟩ := List.mem_map.1 hface
    by_cases heq : other ∈ [b]
    · rw [List.mem_singleton.1 heq]
    · exact hdominates other hother heq b List.mem_cons_self

end SCRFDetector

end FaceRecognition.Recognition
