import FaceRecognition.Services.Audit

/-!
# Verdicts and scores

A verdict compares the unrounded similarity with the threshold; the score next to it in the response
is rounded to six decimals. The two agree unless rounding carries the similarity to the other side
of the threshold (`responses_consistent_iff`). A person without faces is compared by the similarity
0, so that verification is sound when 0 does not reach the threshold (`verify_sound_iff`).
-/

namespace FaceRecognition.Services

open Relational Recognition Db UnitOfWork

/-- The verdict is the one that the numbers of the response give. -/
def VerifyResponse.Consistent (a : VerifyResponse) : Prop :=
  a.matched = true ↔ a.threshold ≤ a.similarityScore

def SearchResponse.Consistent (a : SearchResponse) : Prop :=
  ∀ m ∈ a.matches, a.threshold ≤ m.similarityScore

/-- Rounding does not carry the similarity to the other side of the threshold. -/
def StaysOnItsSide (threshold similarity : ℚ) : Prop :=
  if threshold ≤ similarity then RoundsTo 6 threshold similarity
  else ¬ RoundsTo 6 threshold similarity

theorem staysOnItsSide_iff {threshold similarity : ℚ} : StaysOnItsSide threshold similarity ↔
    (threshold ≤ similarity ↔ threshold ≤ roundDigits 6 similarity) := by
  rw [StaysOnItsSide, le_roundDigits_iff]
  split_ifs with h <;> simp [h]

namespace RecognitionService

variable (S : RecognitionService)

/-- The response of `verify`, for the best match among the faces of the person. -/
def verdict (personId : UUID) (best : Option (UUID × ℚ)) : VerifyResponse :=
  let similarity := (best.map Prod.snd).getD 0
  let matched := decide (S.recognitionThreshold ≤ similarity)
  ⟨matched, roundDigits 6 similarity, S.recognitionThreshold, personId,
    if matched then best.map Prod.fst else none⟩

/-- Where `a` says matched, it names a face of the person that reaches the threshold. -/
def Sound (db : Database) (personId : UUID) (embedding : Embedding) (a : VerifyResponse) : Prop :=
  a.matched = true → ∃ f ∈ db.faces.rows, f.personId = personId ∧
    S.recognitionThreshold ≤ S.gallery.similarity (FaceRepository.queryVec embedding) f ∧
      a.matchedFaceId = some f.id

section
variable {S} {c : Context} {db : Database} {data : Bytes} {result : FaceResult} {personId : UUID}

theorem verify_verdict {a : VerifyResponse} (h : Answers (S.verify c personId data) db a)
    (hq : S.queryFace data = .ok result) :
    a = S.verdict personId (FaceRepository.bestOfPerson S.gallery personId
      (FaceRepository.queryVec result.embedding) db) := by
  obtain ⟨s, h⟩ := h
  obtain ⟨person?, t, hget, h⟩ := exec_bind_eq_ok.1 h
  obtain ⟨hperson, rfl⟩ := exec_select_eq_ok hget
  cases person? with
  | none => simp [Prod.ext_iff] at h
  | some person =>
    obtain rfl : person.id = personId := Table.pk_of_get? hperson.symm
    simp only [exec_bind_eq_ok, exec_lift_eq_ok, exec_pure_eq_ok] at h
    obtain ⟨image, _, ⟨himage, rfl⟩, result', _, ⟨hresult, rfl⟩, best, _, hbest, _, _, -, rfl, -⟩ :=
      h
    obtain rfl : result' = result :=
      Except.ok.inj ((queryFace_eq_ok.2 ⟨image, himage, hresult⟩).symm.trans hq)
    obtain ⟨rfl, rfl⟩ := exec_select_eq_ok hbest
    rfl

theorem search_matches {topK : Option ℤ} {a : SearchResponse}
    (h : Answers (S.search c data topK) db a) (hq : S.queryFace data = .ok result) :
    a.threshold = S.recognitionThreshold ∧ a.matches =
      ((FaceRepository.searchRows S.gallery (fun r => r.1.isActive)
        (FaceRepository.queryVec result.embedding) (S.effectiveTopK topK).toNat (c.view db)).filter
          fun r => S.recognitionThreshold ≤ r.similarity).map toSearchMatch := by
  obtain ⟨s, h⟩ := h
  simp only [search, exec_bind_eq_ok, exec_lift_eq_ok, exec_pure_eq_ok] at h
  obtain ⟨image, _, ⟨himage, rfl⟩, result', _, ⟨hresult, rfl⟩, rows, _, hrows, _, _, -, rfl, -⟩ := h
  obtain rfl : result' = result :=
    Except.ok.inj ((queryFace_eq_ok.2 ⟨image, himage, hresult⟩).symm.trans hq)
  obtain ⟨rfl, -⟩ := exec_searchWhere_eq_ok hrows
  exact ⟨rfl, rfl⟩

/-- The best match is a face of the person, and there is none only when the person has no face. -/
theorem bestOfPerson_cases (G : Gallery) (personId : UUID) (q : Embedding) (db : Database) :
    (FaceRepository.bestOfPerson G personId q db = none ∧
      ¬ ∃ f ∈ db.faces.rows, f.personId = personId) ∨
    ∃ f ∈ db.faces.rows, f.personId = personId ∧
      FaceRepository.bestOfPerson G personId q db = some (f.id, G.similarity q f) := by
  rw [FaceRepository.bestOfPerson]
  cases hsort : (db.faces.rows.filter fun f => f.personId = personId).insertionSort
      (G.Before q) with
  | nil =>
    refine .inl ⟨rfl, ?_⟩
    rintro ⟨f, hf, hperson⟩
    have hmem : f ∈ (db.faces.rows.filter fun f => f.personId = personId).insertionSort
        (G.Before q) := by simp [hf, hperson]
    rw [hsort] at hmem
    cases hmem
  | cons f rest =>
    have hmem : f ∈ (db.faces.rows.filter fun f => f.personId = personId).insertionSort
        (G.Before q) := hsort ▸ List.mem_cons_self
    simp only [List.mem_insertionSort, List.mem_filter, decide_eq_true_eq] at hmem
    exact .inr ⟨f, hmem.1, hmem.2, rfl⟩

/-- A call on which nothing fails. -/
def quietCall : Context := ⟨0, 2, 8, 9, [], fun _ => none⟩

theorem undisturbed_quietCall (threshold : ℚ) (G : Gallery) {db : Database}
    (hlogs : db.logs = Table.empty) :
    { oneFaceService with recognitionThreshold := threshold, gallery := G }.Undisturbed quietCall
      db where
  alone := rfl
  noFault _ := rfl
  actorFits := rfl
  clientIpFits := rfl
  logIdFresh := by rw [hlogs]; rfl

/-- **Verification is sound** iff the person has a face or the similarity 0 of a person without
faces does not reach the threshold. -/
theorem verify_sound_iff (hq : S.queryFace data = .ok result) {a : VerifyResponse}
    (h : Answers (S.verify c personId data) db a) :
    S.Sound db personId result.embedding a ↔
      0 < S.recognitionThreshold ∨ ∃ f ∈ db.faces.rows, f.personId = personId := by
  rw [verify_verdict h hq, Sound]
  rcases bestOfPerson_cases S.gallery personId (FaceRepository.queryVec result.embedding) db with
    ⟨hbest, hnone⟩ | ⟨f, hf, hperson, hbest⟩
  · rw [hbest]
    constructor
    · intro hsound
      by_contra hcond
      have hzero : S.recognitionThreshold ≤ 0 := not_lt.1 fun hpos => hcond (.inl hpos)
      obtain ⟨f, hf, hperson, -⟩ := hsound (decide_eq_true hzero)
      exact hnone ⟨f, hf, hperson⟩
    · rintro (hpos | hface) hmatched
      · exact absurd (of_decide_eq_true hmatched) (not_le.2 hpos)
      · exact absurd hface hnone
  · rw [hbest]
    refine iff_of_true (fun hmatched => ⟨f, hf, hperson, of_decide_eq_true hmatched, ?_⟩)
      (.inr ⟨f, hf, hperson⟩)
    exact if_pos hmatched

end

theorem verify_sound_alice : ∃ a, Answers (oneFaceService.verify quietCall 1 []) aliceEnrolled a ∧
    oneFaceService.Sound aliceEnrolled 1 oneFaceResult.embedding a := by
  have hq : oneFaceService.queryFace [] = .ok oneFaceResult := processLargest_oneFace _
  obtain ⟨a, ha⟩ := verify_answered (undisturbed_quietCall (35 / 100) _ rfl) hq
    (show aliceEnrolled.persons.get? 1 = some alice from rfl)
  exact ⟨a, ha, (verify_sound_iff hq ha).2 (.inl (by norm_num [oneFaceService]))⟩

/-- With the threshold 0 a person without faces is confirmed. -/
theorem verify_unsound : ∃ a,
    Answers ({ oneFaceService with recognitionThreshold := 0 }.verify quietCall 1 []) onlyAlice a ∧
      a.matched = true ∧ a.matchedFaceId = none ∧
        ¬ { oneFaceService with recognitionThreshold := 0 }.Sound onlyAlice 1
          oneFaceResult.embedding a := by
  have hq : { oneFaceService with recognitionThreshold := 0 }.queryFace [] = .ok oneFaceResult :=
    processLargest_oneFace _
  obtain ⟨a, ha⟩ := verify_answered (undisturbed_quietCall 0 oneFaceService.gallery rfl) hq
    (show onlyAlice.persons.get? 1 = some alice from rfl)
  obtain rfl := verify_verdict ha hq
  refine ⟨_, ha, rfl, rfl, fun hsound => ?_⟩
  obtain ⟨f, hf, -⟩ := hsound rfl
  cases hf

section
variable {S} {c : Context} {db : Database} {data : Bytes} {result : FaceResult}

/-- **Responses are consistent with their own numbers** iff no similarity is so close to the
threshold that rounding carries it to the other side; for a search, of those that reach it. -/
theorem responses_consistent_iff (hq : S.queryFace data = .ok result) :
    (∀ personId a faceId similarity, Answers (S.verify c personId data) db a →
      FaceRepository.bestOfPerson S.gallery personId
        (FaceRepository.queryVec result.embedding) db = some (faceId, similarity) →
      (a.Consistent ↔ StaysOnItsSide S.recognitionThreshold similarity)) ∧
    (∀ topK a, Answers (S.search c data topK) db a →
      (a.Consistent ↔ ∀ r ∈ FaceRepository.searchRows S.gallery (fun r => r.1.isActive)
          (FaceRepository.queryVec result.embedding) (S.effectiveTopK topK).toNat (c.view db),
        S.recognitionThreshold ≤ r.similarity →
          StaysOnItsSide S.recognitionThreshold r.similarity)) ∧
    ∀ k : ℤ, S.recognitionThreshold * 10 ^ 6 = k → ∀ topK a,
      Answers (S.search c data topK) db a → a.Consistent := by
  have hsearch : ∀ topK a, Answers (S.search c data topK) db a →
      (a.Consistent ↔ ∀ r ∈ FaceRepository.searchRows S.gallery (fun r => r.1.isActive)
          (FaceRepository.queryVec result.embedding) (S.effectiveTopK topK).toNat (c.view db),
        S.recognitionThreshold ≤ r.similarity →
          StaysOnItsSide S.recognitionThreshold r.similarity) := by
    intro topK a h
    obtain ⟨hthreshold, hmatches⟩ := search_matches h hq
    rw [SearchResponse.Consistent, hthreshold, hmatches, List.forall_mem_map]
    simp only [List.mem_filter, decide_eq_true_eq, and_imp]
    refine forall_congr' fun r => forall_congr' fun hr => forall_congr' fun hle => ?_
    rw [staysOnItsSide_iff, iff_true_left hle]
    rfl
  refine ⟨fun personId a faceId similarity h hbest => ?_, hsearch, fun k hk topK a h => ?_⟩
  · rw [verify_verdict h hq, hbest, VerifyResponse.Consistent, staysOnItsSide_iff]
    exact iff_congr decide_eq_true_iff Iff.rfl
  · refine (hsearch topK a h).2 fun r _ hle => ?_
    rw [StaysOnItsSide, if_pos hle]
    exact RoundsTo.of_le hk hle

end

theorem responses_consistent_alice :
    ∃ a, Answers (oneFaceService.verify quietCall 1 []) aliceEnrolled a ∧ a.Consistent := by
  have hq : oneFaceService.queryFace [] = .ok oneFaceResult := processLargest_oneFace _
  obtain ⟨a, ha⟩ := verify_answered (undisturbed_quietCall (35 / 100) _ rfl) hq
    (show aliceEnrolled.persons.get? 1 = some alice from rfl)
  refine ⟨a, ha, ((responses_consistent_iff hq).1 1 a 7 (4 / 5) ha ?_).2 ?_⟩
  · decide +kernel
  · rw [StaysOnItsSide, if_pos (by norm_num [oneFaceService])]
    exact RoundsTo.of_le (k := 350000) (by norm_num [oneFaceService]) (by norm_num [oneFaceService])

/-- The similarity 0.3499999 is no match for the threshold 0.35, and is reported as 0.35. -/
theorem response_contradicts_itself : ∃ a,
    Answers ({ oneFaceService with gallery := ⟨fun _ _ => 6500001 / 10000000, fun _ => 0⟩ }.verify
      quietCall 1 []) aliceEnrolled a ∧
      a = ⟨false, 35 / 100, 35 / 100, 1, none⟩ ∧ ¬ a.Consistent := by
  have hq : { oneFaceService with
      gallery := ⟨fun _ _ => 6500001 / 10000000, fun _ => 0⟩ }.queryFace [] = .ok oneFaceResult :=
    processLargest_oneFace _
  obtain ⟨a, ha⟩ := verify_answered (undisturbed_quietCall (35 / 100) _ rfl) hq
    (show aliceEnrolled.persons.get? 1 = some alice from rfl)
  have hverdict := verify_verdict ha hq
  have ha' : a = ⟨false, 35 / 100, 35 / 100, 1, none⟩ := hverdict.trans (by decide +kernel)
  exact ⟨a, ha, ha', by rw [ha']; simp [VerifyResponse.Consistent]⟩

end RecognitionService

end FaceRecognition.Services
