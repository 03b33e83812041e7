import FaceRecognition.Services.Audit

/-!
# Identification

What `identify_top1` returns: the nearest active face is the match when it reaches the threshold, and
there is one as soon as any active face does (`topMatch_isSome_iff`).
-/

namespace FaceRecognition.Services.RecognitionService

open Relational Recognition Db UnitOfWork Ranking

variable (S : RecognitionService) (c : Context)

/-- The response of `identify_top1`, for the match. -/
def identified (best : Option SearchRow) : ExternalSearchResponse :=
  ⟨best.isSome, best.map SearchRow.personId, best.map SearchRow.fullName,
    best.map fun r => roundDigits 6 r.similarity, S.recognitionThreshold⟩

section
variable {S} {c} {db : Database} {data : Bytes} {s s' : Session Database}

theorem identifyTop1_response {a : ExternalSearchResponse}
    (h : exec (S.identifyTop1 c data) s = (.ok a, s')) :
    ∃ result, S.queryFace data = .ok result ∧
      a = S.identified (S.topMatch result.embedding (c.view s.work)) ∧ s'.broken = false := by
  simp only [identifyTop1, exec_bind_eq_ok, exec_lift_eq_ok, exec_pure_eq_ok] at h
  obtain ⟨image, _, ⟨himage, rfl⟩, result, _, ⟨hresult, rfl⟩, rows, _, hrows, _, _, hrecord, rfl,
    rfl⟩ := h
  obtain ⟨rfl, rfl⟩ := exec_searchWhere_eq_ok hrows
  obtain ⟨hopen, -, work, -, rfl⟩ := exec_flush_eq_ok.1 hrecord
  exact ⟨result, queryFace_eq_ok.2 ⟨image, himage, hresult⟩, rfl, hopen⟩

theorem topMatch_isSome_iff {e : Embedding} : (S.topMatch e db).isSome = true ↔
    ∃ r ∈ FaceRepository.joined db, r.1.isActive = true ∧ S.similar e r.1 = true := by
  have hup : UpClosed (fun r : Face × Person => S.similar e r.1)
      (((FaceRepository.joined db).filter fun r => r.1.isActive).insertionSort
        fun r r' => S.gallery.Before (FaceRepository.queryVec e) r.1 r'.1) :=
    (List.pairwise_insertionSort _ _).imp fun h => Similar.of_before h
  have htop : (S.topMatch e db).isSome =
      ((((FaceRepository.joined db).filter fun r => r.1.isActive).insertionSort
        fun r r' => S.gallery.Before (FaceRepository.queryVec e) r.1 r'.1).filter
          fun r => S.similar e r.1).head?.isSome := by
    rw [head?_filter hup, topMatch, FaceRepository.searchRows, List.head?_map, List.head?_take,
      if_neg one_ne_zero]
    cases (((FaceRepository.joined db).filter fun r => r.1.isActive).insertionSort
      fun r r' => S.gallery.Before (FaceRepository.queryVec e) r.1 r'.1).head? with
    | none => rfl
    | some r =>
      have hr : decide (S.recognitionThreshold ≤ (FaceRepository.toSearchRow S.gallery
          (FaceRepository.queryVec e) r).similarity) = S.similar e r.1 := rfl
      simp only [Option.map_some, Option.filter_some, hr]
      cases S.similar e r.1 <;> rfl
  rw [htop, List.isSome_head?]
  simp

end

end FaceRecognition.Services.RecognitionService
