import FaceRecognition.Api.Admission
import FaceRecognition.Services.Identification

/-!
# POST /external/search

What a request that `get_api_key` has admitted is answered and what it commits. It returns when the
picture shows a face that can be recognised and nothing fails on the side of the database
(`completes_iff`); otherwise it raises, also when no face is detected, and the use of the key is
rolled back with the rest.
-/

namespace FaceRecognition.Api

open Relational Recognition Db UnitOfWork Services RateLimit RecognitionService

variable {M : Type}

/-- The service of a request with the key. -/
def forKey (S : RecognitionService) (k : ApiKey) : RecognitionService :=
  { S with actor := some ("apikey:" ++ k.name) }

/-- What a request with a key is answered, with the state after it. -/
def externalAnswer (R : KeyRateLimiter M) (cfg : KeySettings) (c : KeyContext)
    (S : RecognitionService) (image : Upload) (key : Option String) (db : FullDatabase) (m : M) :
    Except Exc ExternalSearchResponse × Session FullDatabase × M :=
  exec (withDb c.toContext (externalSearchWithKey R cfg c S image key)) (Session.begin db, m)

/-- The search finds what it needs, and neither the query, the row of the log nor the commit
fails. -/
structure Completes (S : RecognitionService) (c : Context) (image : Upload) (db : Database) :
    Prop where
  upload : ∃ data, readImage image = .ok data ∧ ∃ picture,
    S.pipeline.imdecode data = some picture ∧ S.pipeline.Recognises picture
  searched : c.fault .searchFaces = none
  logged : S.CanLog c db
  committed : c.fault .commit = none

section
variable {S : RecognitionService} {c : Context} {image : Upload} {db : Database}

theorem queryFace_returns_iff {data : Bytes} : (∃ result, S.queryFace data = .ok result) ↔
    ∃ picture, S.pipeline.imdecode data = some picture ∧ S.pipeline.Recognises picture := by
  simp only [queryFace_eq_ok, Pipeline.decodeImage_eq_ok, ← Pipeline.processLargest_returns_iff]
  constructor
  · rintro ⟨result, picture, hpicture, hresult⟩
    exact ⟨picture, hpicture, result, hresult⟩
  · rintro ⟨picture, hpicture, result, hresult⟩
    exact ⟨result, picture, hpicture, hresult⟩

theorem externalSearch_eq_ok {a : ExternalSearchResponse} {s : Session Database} :
    exec (externalSearch S c image) (Session.begin db) = (.ok a, s) ↔
      ∃ data, readImage image = .ok data ∧
        exec (S.identifyTop1 c data) (Session.begin db) = (.ok a, s) := by
  simp only [externalSearch, exec_bind_eq_ok, exec_lift_eq_ok]
  constructor
  · rintro ⟨data, _, ⟨hread, rfl⟩, h⟩
    exact ⟨data, hread, h⟩
  · rintro ⟨data, hread, h⟩
    exact ⟨data, _, ⟨hread, rfl⟩, h⟩

theorem completes_iff_returns : Completes S c image db ↔
    Returns (externalSearch S c image) (Session.begin db) ∧ c.fault .commit = none := by
  constructor
  · rintro ⟨⟨data, hread, hface⟩, hsearched, hlogged, hcommitted⟩
    obtain ⟨a, s, h⟩ := identifyTop1_returns_iff.2
      ⟨queryFace_returns_iff.2 hface, hsearched, hlogged⟩
    exact ⟨⟨a, s, externalSearch_eq_ok.2 ⟨data, hread, h⟩⟩, hcommitted⟩
  · rintro ⟨⟨a, s, h⟩, hcommitted⟩
    obtain ⟨data, hread, h⟩ := externalSearch_eq_ok.1 h
    obtain ⟨hface, hsearched, hlogged⟩ := identifyTop1_returns_iff.1 ⟨a, s, h⟩
    exact ⟨⟨data, hread, queryFace_returns_iff.1 hface⟩, hsearched, hlogged, hcommitted⟩

end

/-! ### A request that is admitted -/

section
variable {R : KeyRateLimiter M} {cfg : KeySettings} {c : KeyContext} {S : RecognitionService}
  {image : Upload} {key : Option String} {db : FullDatabase} {m : M} {k : ApiKey}
  {st : Session FullDatabase × M}
  (hadmitted : exec (getApiKey R cfg c key) (Session.begin db, m) = (.ok k, st))
include hadmitted

theorem mem_of_admitted : k ∈ db.apiKeys.rows := (getApiKey_ok hadmitted).1

/-- The search runs on the tables as they were committed; the key has been touched. -/
theorem search_of_admitted {a : ExternalSearchResponse} {u : Session FullDatabase × M} :
    exec (externalSearchWithKey R cfg c S image key) (Session.begin db, m) = (.ok a, u) ↔
      ∃ t, exec (externalSearch (forKey S k) c.toContext image) (Session.begin db.toDatabase) =
        (.ok a, t) ∧ u = (tables.restore
          ⟨db, { db with apiKeys := db.apiKeys.put (used c k) }, false⟩ t, st.2) := by
  obtain ⟨-, -, -, hst⟩ := getApiKey_ok hadmitted
  have hsearch : exec (externalSearchWithKey R cfg c S image key) (Session.begin db, m) =
      exec (onTables (externalSearch (forKey S k) c.toContext image)) st := exec_bind_ok hadmitted
  rw [hsearch, onTables, exec_beside_eq_ok, hst, exec_onPart_eq_ok]
  constructor
  · rintro ⟨⟨t, ht, hu⟩, hm⟩
    exact ⟨t, ht, Prod.ext hu hm⟩
  · rintro ⟨t, ht, rfl⟩
    exact ⟨⟨t, ht, rfl⟩, rfl⟩

/-- An answer is that of the search, and then the touched key is committed. -/
theorem externalAnswer_eq_ok {a : ExternalSearchResponse} {u : Session FullDatabase × M} :
    externalAnswer R cfg c S image key db m = (.ok a, u) ↔
      ∃ t, exec (externalSearch (forKey S k) c.toContext image) (Session.begin db.toDatabase) =
        (.ok a, t) ∧ t.broken = false ∧ c.fault .commit = none ∧
          u = (⟨{ t.work with apiKeys := db.apiKeys.put (used c k) },
            { t.work with apiKeys := db.apiKeys.put (used c k) }, false⟩, st.2) := by
  rw [externalAnswer, withDb, exec_transact_eq_ok]
  constructor
  · rintro ⟨v, hv, hbroken, hfault, rfl⟩
    obtain ⟨⟨_, work, broken⟩, ht, rfl⟩ := (search_of_admitted hadmitted).1 hv
    obtain rfl : broken = false := hbroken
    exact ⟨_, ht, rfl, hfault, rfl⟩
  · rintro ⟨⟨_, work, broken⟩, ht, rfl, hfault, rfl⟩
    exact ⟨_, (search_of_admitted hadmitted).2 ⟨_, ht, rfl⟩, rfl, hfault, rfl⟩

theorem completes_iff : (∃ a u, externalAnswer R cfg c S image key db m = (.ok a, u)) ↔
    Completes (forKey S k) c.toContext image db.toDatabase := by
  rw [completes_iff_returns]
  constructor
  · rintro ⟨a, u, h⟩
    obtain ⟨t, ht, -, hfault, -⟩ := (externalAnswer_eq_ok hadmitted).1 h
    exact ⟨⟨a, t, ht⟩, hfault⟩
  · rintro ⟨⟨a, t, ht⟩, hfault⟩
    obtain ⟨data, -, hidentify⟩ := externalSearch_eq_ok.1 ht
    obtain ⟨-, -, -, hopen⟩ := identifyTop1_response hidentify
    exact ⟨a, _, (externalAnswer_eq_ok hadmitted).2 ⟨t, ht, hopen, hfault, rfl⟩⟩

end

/-! ### The contract -/

/-- A response, which says matched exactly when a face is detected and an active face reaches the
threshold, and names nobody otherwise. -/
def AnswersAsPromised (S : RecognitionService) (db : Database) (picture : Image)
    (answer : Except Exc ExternalSearchResponse) : Prop :=
  ∃ a, answer = .ok a ∧
    (a.matched = true ↔ ∃ face rest crop embedding,
      S.pipeline.detect picture 1 = .ok (face :: rest) ∧
      S.pipeline.align picture face.landmarks = .ok crop ∧ S.pipeline.embed crop = .ok embedding ∧
      ∃ row ∈ FaceRepository.joined db, row.1.isActive = true ∧ S.recognitionThreshold ≤
        S.gallery.similarity (FaceRepository.queryVec embedding) row.1) ∧
    (a.matched = false → a.personId = none ∧ a.fullName = none ∧ a.similarity = none)

section
variable {S : RecognitionService} {db : Database} {picture : Image} {data : Bytes}
  {result : FaceResult}

theorem identified_as_promised (hpicture : S.pipeline.imdecode data = some picture)
    (hq : S.queryFace data = .ok result) :
    AnswersAsPromised S db picture (.ok (S.identified (S.topMatch result.embedding db))) := by
  obtain ⟨picture', hpicture', hresult⟩ := queryFace_eq_ok.1 hq
  obtain rfl : picture = picture' :=
    Option.some.inj (hpicture.symm.trans (Pipeline.decodeImage_eq_ok.1 hpicture'))
  obtain ⟨face, rest, hdetect, hface⟩ := Pipeline.processLargest_eq_ok.1 hresult
  obtain ⟨-, crop, hcrop, embedding, hembedding, rfl⟩ := Pipeline.embedFace_eq_ok.1 hface
  refine ⟨_, rfl, ?_, fun hnone => ?_⟩
  · have hmatched : (S.identified (S.topMatch embedding db)).matched = true ↔ _ :=
      topMatch_isSome_iff
    simp only [similar_iff] at hmatched
    rw [hmatched]
    constructor
    · exact fun h => ⟨face, rest, crop, embedding, hdetect, hcrop, hembedding, h⟩
    · rintro ⟨face', rest', crop', embedding', hdetect', hcrop', hembedding', h⟩
      obtain ⟨rfl, rfl⟩ := List.cons.inj (Except.ok.inj (hdetect'.symm.trans hdetect))
      obtain rfl := Except.ok.inj (hcrop'.symm.trans hcrop)
      obtain rfl := Except.ok.inj (hembedding'.symm.trans hembedding)
      exact h
  · have hempty : S.topMatch embedding db = none :=
      Option.isNone_iff_eq_none.1 (Option.isSome_eq_false_iff.1 hnone)
    rw [hempty]
    exact ⟨rfl, rfl, rfl⟩

end

/-- **External search answers as promised** iff the most prominent face of the picture is there,
large enough and can be embedded. -/
theorem external_as_promised_iff {R : KeyRateLimiter M} {cfg : KeySettings} {c : KeyContext}
    {S : RecognitionService} {image : Upload} {key : Option String} {db : FullDatabase} {m : M}
    {k : ApiKey} {st : Session FullDatabase × M} {data : Bytes} {picture : Image}
    (hadmitted : exec (getApiKey R cfg c key) (Session.begin db, m) = (.ok k, st))
    (hdb : (forKey S k).Undisturbed c.toContext db.toDatabase)
    (hread : readImage image = .ok data) (hpicture : S.pipeline.imdecode data = some picture) :
    AnswersAsPromised S db.toDatabase picture (externalAnswer R cfg c S image key db m).1 ↔
      S.pipeline.Recognises picture := by
  constructor
  · rintro ⟨a, ha, -⟩
    obtain ⟨⟨data', hread', picture', hpicture', hrecognises⟩, -⟩ :=
      (completes_iff hadmitted).1 ⟨a, _, Prod.ext ha rfl⟩
    obtain rfl : data = data' := Except.ok.inj (hread.symm.trans hread')
    obtain rfl : picture = picture' := Option.some.inj (hpicture.symm.trans hpicture')
    exact hrecognises
  · intro hrecognises
    obtain ⟨a, u, h⟩ := (completes_iff hadmitted).2 ⟨⟨data, hread, picture, hpicture, hrecognises⟩,
      hdb.noFault _, hdb.canLog, hdb.noFault _⟩
    obtain ⟨t, ht, -⟩ := (externalAnswer_eq_ok hadmitted).1 h
    obtain ⟨data', hread', hidentify⟩ := externalSearch_eq_ok.1 ht
    obtain rfl : data = data' := Except.ok.inj (hread.symm.trans hread')
    obtain ⟨result, hq, rfl, -⟩ := identifyTop1_response hidentify
    rw [Context.view_of_alone hdb.alone] at h
    rw [h]
    exact @identified_as_promised (forKey S k) _ _ _ _ hpicture hq

/-! ### The use of the key -/

/-- The committed time of the last use is not before the request. -/
def UsageRecorded (c : KeyContext) (k : ApiKey) (db : FullDatabase) : Prop :=
  ∃ row, db.apiKeys.get? k.id = some row ∧ ∃ t, row.lastUsedAt = some t ∧ c.utcNow ≤ t

/-- **The use of a key is recorded** iff the search completes, or the row is ahead of the clock. -/
theorem usage_recorded_iff {R : KeyRateLimiter M} {cfg : KeySettings} {c : KeyContext}
    {S : RecognitionService} {image : Upload} {key : Option String} {db : FullDatabase} {m : M}
    {k : ApiKey} {st : Session FullDatabase × M}
    (hadmitted : exec (getApiKey R cfg c key) (Session.begin db, m) = (.ok k, st)) :
    UsageRecorded c k (externalAnswer R cfg c S image key db m).2.1.committed ↔
      Completes (forKey S k) c.toContext image db.toDatabase ∨
        ∃ t, k.lastUsedAt = some t ∧ c.utcNow ≤ t := by
  have hstored : db.apiKeys.get? k.id = some k := Table.mem_iff_get?.1 (mem_of_admitted hadmitted)
  obtain ⟨r, u, hanswer, -, hcases⟩ := exec_withDb c.toContext
    (preserves_externalSearchWithKey R cfg c S image key) (Session.begin db, m)
  have hanswer' : externalAnswer R cfg c S image key db m = (r, u) := hanswer
  rw [hanswer', ← completes_iff hadmitted, hanswer']
  rcases hcases with ⟨⟨e, rfl⟩, hcommitted⟩ | ⟨a, v, rfl, -, -⟩
  · -- rolled back: the row is the one that admitted the request
    have hunchanged : u.1.committed = db := hcommitted
    rw [hunchanged, UsageRecorded, hstored]
    constructor
    · rintro ⟨row, hrow, hused⟩
      obtain rfl := Option.some.inj hrow
      exact .inr hused
    · rintro (⟨a, u', h⟩ | hused)
      · cases congrArg Prod.fst h
      · exact ⟨k, rfl, hused⟩
  · refine iff_of_true ?_ (.inl ⟨a, u, rfl⟩)
    obtain ⟨t, -, -, -, rfl⟩ := (externalAnswer_eq_ok hadmitted).1 hanswer'
    exact ⟨used c k, Table.get?_put_self _ _, c.utcNow, rfl, le_rfl⟩

/-! ### A partner searches -/

def partner : ApiKey where
  id := 7
  name := "partner"
  keyHash := partnerSettings.hashApiKey partnerKey
  displayPrefix := "frk_k7Qm2xVb"
  isActive := true
  createdBy := none
  lastUsedAt := none
  createdAt := 0
  updatedAt := 0

def partnerGallery : FullDatabase :=
  { aliceEnrolled with apiKeys := Table.empty.put partner }

def partnerPhoto : Upload := ⟨some "image/png", [255], none⟩

def partnerAnswer (S : RecognitionService) :
    Except Exc ExternalSearchResponse × Session FullDatabase × Buckets :=
  externalAnswer inProcessKeyRateLimiter partnerSettings (partnerContext 10) S partnerPhoto
    (some partnerKey) partnerGallery fun _ => none

/-- The detector finds nothing. -/
def noFaceService : RecognitionService :=
  { oneFaceService with pipeline := { oneFacePipeline with detect := fun _ _ => .ok [] } }

theorem admit_partner : ∃ st, exec (getApiKey inProcessKeyRateLimiter partnerSettings
      (partnerContext 10) (some partnerKey)) (Session.begin partnerGallery, fun _ => none) =
    (.ok partner, st) := by
  have hanswer : (exec (getApiKey inProcessKeyRateLimiter partnerSettings (partnerContext 10)
      (some partnerKey)) (Session.begin partnerGallery, fun _ => none)).1 = .ok partner := by
    decide +kernel
  exact ⟨_, Prod.ext hanswer rfl⟩

theorem undisturbed_partner : (forKey oneFaceService partner).Undisturbed
    (partnerContext 10).toContext aliceEnrolled where
  alone := rfl
  noFault _ := rfl
  actorFits := by decide
  clientIpFits := rfl
  logIdFresh := rfl

theorem recognises_oneFace (picture : Image) : oneFacePipeline.Recognises picture :=
  ⟨wholeFace, [], rfl,
    by norm_num [wholeFace, oneFacePipeline, DetectedFace.width, DetectedFace.height], picture, rfl,
    _, rfl⟩

theorem readImage_partnerPhoto : readImage partnerPhoto = .ok [255] := by decide +kernel

theorem external_as_promised_partner :
    AnswersAsPromised oneFaceService aliceEnrolled ⟨100, 100, [255]⟩
      (partnerAnswer oneFaceService).1 := by
  obtain ⟨st, hadmitted⟩ := admit_partner
  exact (external_as_promised_iff hadmitted undisturbed_partner readImage_partnerPhoto rfl).2
    (recognises_oneFace _)

theorem no_face_raises : readImage partnerPhoto = .ok [255] ∧
    noFaceService.pipeline.imdecode [255] = some ⟨100, 100, [255]⟩ ∧
    ¬ AnswersAsPromised noFaceService aliceEnrolled ⟨100, 100, [255]⟩
      (partnerAnswer noFaceService).1 := by
  refine ⟨readImage_partnerPhoto, rfl, ?_⟩
  have hanswer : (partnerAnswer noFaceService).1 = .error Pipeline.noFaceDetected := by
    decide +kernel
  rintro ⟨a, ha, -⟩
  cases hanswer.symm.trans ha

theorem usage_recorded_partner : UsageRecorded (partnerContext 10) partner
    (partnerAnswer oneFaceService).2.1.committed := by
  obtain ⟨st, hadmitted⟩ := admit_partner
  exact (usage_recorded_iff hadmitted).2 (.inl ⟨⟨[255], readImage_partnerPhoto, _, rfl,
    recognises_oneFace _⟩, rfl, ⟨rfl, by decide, rfl, rfl⟩, rfl⟩)

theorem no_face_forgets_usage :
    (exec (getApiKey inProcessKeyRateLimiter partnerSettings (partnerContext 10) (some partnerKey))
      (Session.begin partnerGallery, fun _ => none)).1 = .ok partner ∧
    ¬ UsageRecorded (partnerContext 10) partner (partnerAnswer noFaceService).2.1.committed := by
  refine ⟨by decide +kernel, ?_⟩
  have hrow : ((partnerAnswer noFaceService).2.1.committed.apiKeys.get? 7).map ApiKey.lastUsedAt =
      some none := by decide +kernel
  rintro ⟨row, hstored, t, ht, -⟩
  rw [show ((partnerAnswer noFaceService).2.1.committed.apiKeys.get? 7) = some row from hstored,
    Option.map_some, ht] at hrow
  cases hrow

end FaceRecognition.Api
