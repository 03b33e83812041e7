import FaceRecognition.Services.Recognition

/-!
# One ranking behind verify, search and identify

The faces of active persons that reach the threshold, nearest first, are one list (`ranking`), and
the three operations read it. `search` takes the first `k` rows before it applies the threshold:
the rows that pass are a prefix of the sorted ones, so nothing is lost. Its query filters on the
mirrored flag, which selects the same rows as the person's own. `verify` looks at the faces of one
person only, and the nearest of these is the first of that person in the ranking.
-/

namespace FaceRecognition.Services

open Relational Recognition Db UnitOfWork Ranking

namespace RecognitionService

variable (S : RecognitionService)

/-- The face of the query image. -/
def queryFace (imageBytes : Bytes) : Except Exc FaceResult :=
  S.pipeline.decodeImage imageBytes >>= S.pipeline.processLargest

def similar (embedding : Embedding) (f : Face) : Bool :=
  S.recognitionThreshold ≤ S.gallery.similarity (FaceRepository.queryVec embedding) f

def ranking (embedding : Embedding) (db : Database) : List (Face × Person) :=
  ((FaceRepository.joined db).filter fun r => r.2.isActive && S.similar embedding r.1).insertionSort
    fun r r' => S.gallery.Before (FaceRepository.queryVec embedding) r.1 r'.1

def Answers {α : Type} (m : SessionM α) (db : Database) (a : α) : Prop :=
  ∃ s, exec m (Session.begin db) = (.ok a, s)

/-! ### The answers, read off the operations -/

section
variable {S} {c : Context} {db : Database} {data : Bytes}

theorem queryFace_eq_ok {result : FaceResult} :
    S.queryFace data = .ok result ↔ ∃ image, S.pipeline.decodeImage data = .ok image ∧
      S.pipeline.processLargest image = .ok result :=
  Fallible.bind_eq_ok

theorem searchWhere_eq_ok (hc : c.others = []) {clause : Face × Person → Bool} {e : Embedding}
    {k : ℤ} {s s' : Session Database} {rows : List SearchRow}
    (h : exec (FaceRepository.searchWhere S.gallery c clause e k) s = (.ok rows, s')) :
    rows = FaceRepository.searchRows S.gallery clause (FaceRepository.queryVec e) k.toNat s.work ∧
      s' = s := by
  obtain ⟨-, -, hrows, rfl⟩ := exec_query_eq_ok.1 h
  rw [Context.view_of_alone hc] at hrows
  split_ifs at hrows
  exact ⟨(Except.ok.inj hrows).symm, rfl⟩

theorem search_answer (hc : c.others = []) {topK : Option ℤ} {a : SearchResponse}
    (h : Answers (S.search c data topK) db a) :
    ∃ result, S.queryFace data = .ok result ∧ a.matches =
      ((FaceRepository.searchRows S.gallery (fun r => r.1.isActive)
        (FaceRepository.queryVec result.embedding) (S.effectiveTopK topK).toNat db).filter
          fun r => S.recognitionThreshold ≤ r.similarity).map toSearchMatch := by
  obtain ⟨s, h⟩ := h
  simp only [search, exec_bind_eq_ok, exec_lift_eq_ok, exec_pure_eq_ok] at h
  obtain ⟨image, _, ⟨himage, rfl⟩, result, _, ⟨hresult, rfl⟩, rows, _, hrows, _, _, -, rfl, -⟩ := h
  obtain ⟨rfl, -⟩ := searchWhere_eq_ok hc hrows
  exact ⟨result, queryFace_eq_ok.2 ⟨image, himage, hresult⟩, rfl⟩

theorem identifyTop1_answer (hc : c.others = []) {a : ExternalSearchResponse}
    (h : Answers (S.identifyTop1 c data) db a) :
    ∃ result best, S.queryFace data = .ok result ∧
      best = ((FaceRepository.searchRows S.gallery (fun r => r.1.isActive)
        (FaceRepository.queryVec result.embedding) 1 db).head?.filter
          fun r => S.recognitionThreshold ≤ r.similarity) ∧
      a.matched = best.isSome ∧ a.personId = best.map SearchRow.personId ∧
      a.fullName = best.map SearchRow.fullName := by
  obtain ⟨s, h⟩ := h
  simp only [identifyTop1, exec_bind_eq_ok, exec_lift_eq_ok, exec_pure_eq_ok] at h
  obtain ⟨image, _, ⟨himage, rfl⟩, result, _, ⟨hresult, rfl⟩, rows, _, hrows, _, _, -, rfl, -⟩ := h
  obtain ⟨rfl, -⟩ := searchWhere_eq_ok hc hrows
  exact ⟨result, _, queryFace_eq_ok.2 ⟨image, himage, hresult⟩, rfl, rfl, rfl, rfl⟩

theorem verify_answer (hc : c.others = []) {p : UUID} {a : VerifyResponse}
    (h : Answers (S.verify c p data) db a) :
    ∃ person result best, db.persons.get? p = some person ∧ S.queryFace data = .ok result ∧
      best = FaceRepository.bestOfPerson S.gallery p
        (FaceRepository.queryVec result.embedding) db ∧
      a.personId = p ∧
      a.matched = decide (S.recognitionThreshold ≤ (best.map Prod.snd).getD 0) ∧
      a.matchedFaceId = if a.matched then best.map Prod.fst else none := by
  obtain ⟨s, h⟩ := h
  rw [verify, exec_bind_eq_ok] at h
  obtain ⟨person?, _, hperson, h⟩ := h
  obtain ⟨hget, rfl⟩ := select_eq_ok hc hperson
  cases person? with
  | none => simp [Prod.ext_iff] at h
  | some person =>
    have hp : db.persons.get? p = some person := hget.symm
    obtain rfl : person.id = p := Table.pk_of_get? hp
    simp only [exec_bind_eq_ok, exec_lift_eq_ok, exec_pure_eq_ok] at h
    obtain ⟨image, _, ⟨himage, rfl⟩, result, _, ⟨hresult, rfl⟩, best, _, hbest, _, _, -, rfl, -⟩ :=
      h
    obtain ⟨rfl, rfl⟩ := select_eq_ok hc hbest
    exact ⟨person, result, _, hp, queryFace_eq_ok.2 ⟨image, himage, hresult⟩, rfl, rfl, rfl, rfl⟩

end

/-! ### The ranking -/

section
variable {S} {db : Database} {e : Embedding}

theorem mem_joined {r : Face × Person} : r ∈ FaceRepository.joined db ↔
    r.1 ∈ db.faces.rows ∧ db.persons.get? r.1.personId = some r.2 := by
  rw [FaceRepository.joined, List.mem_filterMap]
  constructor
  · rintro ⟨f, hf, hr⟩
    obtain ⟨p, hp, rfl⟩ := Option.map_eq_some_iff.1 hr
    exact ⟨hf, hp⟩
  · rintro ⟨hf, hp⟩
    exact ⟨r.1, hf, by rw [hp]; rfl⟩

/-- The mirrored flag selects the same rows as the flag of the joined person. -/
theorem filter_active (hm : Mirror db) :
    (FaceRepository.joined db).filter (fun r => r.1.isActive) =
      (FaceRepository.joined db).filter fun r => r.2.isActive := by
  refine List.filter_congr fun r hr => ?_
  obtain ⟨hf, hp⟩ := mem_joined.1 hr
  obtain ⟨p, hp', hactive⟩ := hm.person hf
  obtain rfl : p = r.2 := Option.some.inj (hp'.symm.trans hp)
  exact hactive.symm

theorem similar_iff {f : Face} : S.similar e f = true ↔
    S.recognitionThreshold ≤ S.gallery.similarity (FaceRepository.queryVec e) f := by
  rw [similar, decide_eq_true_iff]

theorem Similar.of_before {f f' : Face}
    (h : S.gallery.Before (FaceRepository.queryVec e) f f') (h' : S.similar e f' = true) :
    S.similar e f = true := by
  rw [similar_iff] at h' ⊢
  exact h'.trans (sub_le_sub_left h.distance_le 1)

/-- Active rows, nearest first: what the query of `search` takes its rows from. -/
def activeRows (S : RecognitionService) (e : Embedding) (db : Database) : List (Face × Person) :=
  ((FaceRepository.joined db).filter fun r => r.2.isActive).insertionSort
    fun r r' => S.gallery.Before (FaceRepository.queryVec e) r.1 r'.1

theorem upClosed_activeRows : UpClosed (fun r => S.similar e r.1) (S.activeRows e db) :=
  (List.pairwise_insertionSort _ _).imp fun h => Similar.of_before h

theorem ranking_eq_filter :
    S.ranking e db = (S.activeRows e db).filter fun r => S.similar e r.1 := by
  rw [ranking, activeRows, filter_sort, List.filter_filter]
  congr 2
  funext r
  exact Bool.and_comm _ _

theorem mem_ranking {r : Face × Person} : r ∈ S.ranking e db ↔ r.1 ∈ db.faces.rows ∧
    db.persons.get? r.1.personId = some r.2 ∧ r.2.isActive = true ∧
      S.recognitionThreshold ≤ S.gallery.similarity (FaceRepository.queryVec e) r.1 := by
  simp [ranking, mem_joined, similar_iff, and_assoc]

theorem searchRows_active (hm : Mirror db) (k : ℕ) :
    FaceRepository.searchRows S.gallery (fun r => r.1.isActive) (FaceRepository.queryVec e) k db =
      ((S.activeRows e db).take k).map
        (FaceRepository.toSearchRow S.gallery (FaceRepository.queryVec e)) := by
  rw [FaceRepository.searchRows, filter_active hm]
  rfl

theorem filter_searchRows (hm : Mirror db) (k : ℕ) :
    (FaceRepository.searchRows S.gallery (fun r => r.1.isActive) (FaceRepository.queryVec e) k
      db).filter (fun r => S.recognitionThreshold ≤ r.similarity) =
      ((S.ranking e db).take k).map
        (FaceRepository.toSearchRow S.gallery (FaceRepository.queryVec e)) := by
  rw [searchRows_active hm, List.filter_map, ranking_eq_filter, ← filter_take upClosed_activeRows]
  rfl

theorem head_searchRows (hm : Mirror db) :
    ((FaceRepository.searchRows S.gallery (fun r => r.1.isActive) (FaceRepository.queryVec e) 1
      db).head?.filter fun r => S.recognitionThreshold ≤ r.similarity) =
      (S.ranking e db).head?.map
        (FaceRepository.toSearchRow S.gallery (FaceRepository.queryVec e)) := by
  rw [ranking_eq_filter, head?_filter upClosed_activeRows, searchRows_active hm]
  cases S.activeRows e db with
  | nil => rfl
  | cons r rows =>
    by_cases hr : S.similar e r.1 = true
    · have hr' := similar_iff.1 hr
      simp [Option.filter, FaceRepository.toSearchRow, hr, hr']
    · have hr' := mt similar_iff.2 hr
      simp [Option.filter, FaceRepository.toSearchRow, hr, hr']

theorem joined_of_person {p : UUID} {person : Person} (hp : db.persons.get? p = some person)
    (hactive : person.isActive = true) :
    (((FaceRepository.joined db).filter fun r => r.2.isActive && S.similar e r.1).filter
      fun r => r.1.personId = p).map Prod.fst =
      (db.faces.rows.filter fun f => f.personId = p).filter (S.similar e) := by
  rw [FaceRepository.joined]
  induction db.faces.rows with
  | nil => rfl
  | cons f l ih =>
    by_cases hf : f.personId = p
    · cases hs : S.similar e f <;> simpa [-List.filter_filter, hf, hp, hactive, hs] using ih
    · cases hq : db.persons.get? f.personId with
      | none => simpa [-List.filter_filter, hf, hq] using ih
      | some q =>
        cases hs : (q.isActive && S.similar e f) <;>
          simpa [-List.filter_filter, -Bool.and_eq_true, hf, hq, hs] using ih

/-- The faces of one person in the ranking are its faces, nearest first, that reach the
threshold. -/
theorem ranking_of_person {p : UUID} {person : Person} (hp : db.persons.get? p = some person)
    (hactive : person.isActive = true) :
    ((S.ranking e db).filter fun r => r.1.personId = p).map Prod.fst =
      ((db.faces.rows.filter fun f => f.personId = p).insertionSort
        (S.gallery.Before (FaceRepository.queryVec e))).filter (S.similar e) := by
  rw [ranking, filter_sort, filter_sort, ← joined_of_person hp hactive]
  exact List.map_insertionSort _ (S.gallery.Before (FaceRepository.queryVec e)) Prod.fst _
    fun _ _ _ _ => Iff.rfl

end

/-! ### The three operations -/

/-- Nothing fails on the side of the database: no call does, and the audit row can be written. -/
structure Undisturbed (c : Context) (db : Database) : Prop where
  alone : c.others = []
  noFault : ∀ site, c.fault site = none
  actorFits : fits 255 S.actor = true
  clientIpFits : fits 64 S.clientIp = true
  logIdFresh : db.logs.get? c.logId = none

/-- The row of the log for a recognition can be written. -/
structure CanLog (c : Context) (db : Database) : Prop where
  noFault : c.fault .addLog = none
  actorFits : fits 255 S.actor = true
  clientIpFits : fits 64 S.clientIp = true
  logIdFresh : db.logs.get? c.logId = none

/-- The answers of the three operations are read off the list `R`. -/
structure Projections (c : Context) (data : Bytes) (q : Embedding) (db : Database)
    (R : List (Face × Person)) : Prop where
  search : ∀ k : ℤ, 1 ≤ k → ∀ a, Answers (S.search c data (some k)) db a →
    a.matches = (R.take k.toNat).map fun r =>
      ⟨r.1.personId, r.1.id, r.2.fullName, roundDigits 6 (S.gallery.similarity q r.1)⟩
  identify : ∀ a, Answers (S.identifyTop1 c data) db a →
    (a.matched = true ↔ R ≠ []) ∧ a.personId = R.head?.map (fun r => r.1.personId) ∧
      a.fullName = R.head?.map fun r => r.2.fullName
  verify : ∀ p person, db.persons.get? p = some person → person.isActive = true →
    (∃ f ∈ db.faces.rows, f.personId = p) → ∀ a, Answers (S.verify c p data) db a →
      (a.matched = true ↔ ∃ r ∈ R, r.1.personId = p) ∧
        a.matchedFaceId = (R.find? fun r => r.1.personId = p).map fun r => r.1.id
  answered : S.Undisturbed c db → (∀ k : ℤ, 1 ≤ k → ∃ a, Answers (S.search c data (some k)) db a) ∧
    (∃ a, Answers (S.identifyTop1 c data) db a) ∧
      ∀ p person, db.persons.get? p = some person → ∃ a, Answers (S.verify c p data) db a

section
variable {S} {c : Context} {db : Database} {data : Bytes} {result : FaceResult}

theorem Undisturbed.canLog (h : S.Undisturbed c db) : S.CanLog c db :=
  ⟨h.noFault _, h.actorFits, h.clientIpFits, h.logIdFresh⟩

theorem returns_record_iff {s : Session Database} {l : LogFields} (hu : l.userId = S.actor)
    (hi : l.clientIp = S.clientIp) (hm : l.message = none) :
    Returns (RecognitionLogRepository.record c l) s ↔ s.broken = false ∧ S.CanLog c s.work := by
  have hinsert : (∃ ws, insertLog (newLog c l) (c.view s.work) = .ok ws) ↔
      fits 255 S.actor = true ∧ fits 64 S.clientIp = true ∧ fits 512 none = true ∧
        s.work.logs.get? c.logId = none := by
    rw [insertLog_succeeds_iff, ← hu, ← hi, ← hm]
    rfl
  constructor
  · rintro ⟨u, t, h⟩
    obtain ⟨hopen, hfault, work, hwork, -⟩ := exec_flush_eq_ok.1 h
    obtain ⟨ws, hrun, -⟩ := execute_eq_ok.1 hwork
    obtain ⟨hactor, hip, -, hnew⟩ := hinsert.1 ⟨ws, hrun⟩
    exact ⟨hopen, hfault, hactor, hip, hnew⟩
  · rintro ⟨hopen, h⟩
    obtain ⟨ws, hrun⟩ := hinsert.2 ⟨h.actorFits, h.clientIpFits, rfl, h.logIdFresh⟩
    exact ⟨(), _, exec_flush_eq_ok.2 ⟨hopen, h.noFault, _, execute_eq_ok.2 ⟨ws, hrun, rfl⟩, rfl⟩⟩

theorem CanLog.record (h : S.CanLog c db) {l : LogFields} (hu : l.userId = S.actor)
    (hi : l.clientIp = S.clientIp) (hm : l.message = none) :
    Returns (RecognitionLogRepository.record c l) (Session.begin db) :=
  (returns_record_iff hu hi hm).2 ⟨rfl, h⟩

theorem Undisturbed.select {α : Type} (h : S.Undisturbed c db) (site : Site) (f : Database → α) :
    exec (Db.select c site f) (Session.begin db) = (.ok (f db), Session.begin db) :=
  exec_query_eq_ok.2 ⟨rfl, h.noFault _, by rw [Context.view_of_alone h.alone]; rfl, rfl⟩

theorem search_returns (hfault : c.fault .searchFaces = none) (e : Embedding) {k : ℤ}
    (hk : 0 ≤ k) : ∃ rows, exec (FaceRepository.search S.gallery c e k) (Session.begin db) =
      (.ok rows, Session.begin db) := by
  rw [FaceRepository.search, FaceRepository.searchWhere]
  exact ⟨_, exec_query_eq_ok.2 ⟨rfl, hfault, if_neg (not_lt.2 hk), rfl⟩⟩

theorem search_answered (h : S.Undisturbed c db) (hq : S.queryFace data = .ok result) {k : ℤ}
    (hk : 1 ≤ k) : ∃ a, Answers (S.search c data (some k)) db a := by
  obtain ⟨image, himage, hresult⟩ := queryFace_eq_ok.1 hq
  have hk' : S.effectiveTopK (some k) = k := if_neg (by omega)
  obtain ⟨rows, hrows⟩ := search_returns (h.noFault _) result.embedding (k := k) (by omega)
  refine returns_bind (exec_lift_eq_ok.2 ⟨himage, rfl⟩)
    (returns_bind (exec_lift_eq_ok.2 ⟨hresult, rfl⟩) ?_)
  rw [hk']
  exact returns_bind hrows ((h.canLog.record rfl rfl rfl).bind fun _ _ => returns_pure _ _)

theorem identifyTop1_returns_iff : Returns (S.identifyTop1 c data) (Session.begin db) ↔
    (∃ result, S.queryFace data = .ok result) ∧ c.fault .searchFaces = none ∧ S.CanLog c db := by
  constructor
  · rintro ⟨a, t, h⟩
    simp only [identifyTop1, exec_bind_eq_ok, exec_lift_eq_ok] at h
    obtain ⟨image, _, ⟨himage, rfl⟩, result, _, ⟨hresult, rfl⟩, rows, _, hrows, _, _, hrecord, -⟩ :=
      h
    rw [FaceRepository.search, FaceRepository.searchWhere] at hrows
    obtain ⟨-, hfault, -, rfl⟩ := exec_query_eq_ok.1 hrows
    obtain ⟨-, hlog⟩ := (returns_record_iff (S := S) rfl rfl rfl).1 ⟨_, _, hrecord⟩
    exact ⟨⟨result, queryFace_eq_ok.2 ⟨image, himage, hresult⟩⟩, hfault, hlog⟩
  · rintro ⟨⟨result, hq⟩, hfault, hlog⟩
    obtain ⟨image, himage, hresult⟩ := queryFace_eq_ok.1 hq
    obtain ⟨rows, hrows⟩ := search_returns hfault result.embedding (k := 1) (by omega)
    exact returns_bind (exec_lift_eq_ok.2 ⟨himage, rfl⟩)
      (returns_bind (exec_lift_eq_ok.2 ⟨hresult, rfl⟩)
        (returns_bind hrows ((hlog.record rfl rfl rfl).bind fun _ _ => returns_pure _ _)))

theorem verify_answered (h : S.Undisturbed c db) (hq : S.queryFace data = .ok result) {p : UUID}
    {person : Person} (hp : db.persons.get? p = some person) :
    ∃ a, Answers (S.verify c p data) db a := by
  obtain ⟨image, himage, hresult⟩ := queryFace_eq_ok.1 hq
  have hget : exec (PersonRepository.get c p) (Session.begin db) =
      (.ok (some person), Session.begin db) := hp ▸ h.select .getPerson _
  exact returns_bind hget (returns_bind (exec_lift_eq_ok.2 ⟨himage, rfl⟩)
    (returns_bind (exec_lift_eq_ok.2 ⟨hresult, rfl⟩) (returns_bind (h.select .searchFaces _)
      ((h.canLog.record rfl rfl rfl).bind fun _ _ => returns_pure _ _))))

/-- The nearest face of a person decides, and it is the first one of the person in the ranking. -/
theorem find_ranking {e : Embedding} {p : UUID} {person : Person}
    (hp : db.persons.get? p = some person) (hactive : person.isActive = true) :
    ((S.ranking e db).find? fun r => r.1.personId = p).map Prod.fst =
      ((db.faces.rows.filter fun f => f.personId = p).insertionSort
        (S.gallery.Before (FaceRepository.queryVec e))).head?.filter (S.similar e) := by
  have hup : UpClosed (S.similar e) ((db.faces.rows.filter fun f => f.personId = p).insertionSort
      (S.gallery.Before (FaceRepository.queryVec e))) :=
    (List.pairwise_insertionSort _ _).imp fun h => Similar.of_before h
  rw [← head?_filter hup, ← ranking_of_person hp hactive, List.head?_map, List.head?_filter]

theorem verify_projects {p : UUID} {person : Person} (hp : db.persons.get? p = some person)
    (hactive : person.isActive = true) (hface : ∃ f ∈ db.faces.rows, f.personId = p)
    (hc : c.others = []) (hq : S.queryFace data = .ok result) {a : VerifyResponse}
    (h : Answers (S.verify c p data) db a) :
    (a.matched = true ↔ ∃ r ∈ S.ranking result.embedding db, r.1.personId = p) ∧
      a.matchedFaceId =
        ((S.ranking result.embedding db).find? fun r => r.1.personId = p).map fun r => r.1.id := by
  obtain ⟨_, result', best, -, hq', rfl, -, hmatched, hid⟩ := verify_answer hc h
  obtain rfl : result' = result := Except.ok.inj (hq'.symm.trans hq)
  have hfind := find_ranking (S := S) (e := result'.embedding) hp hactive
  rw [FaceRepository.bestOfPerson] at hmatched hid
  set near := (db.faces.rows.filter fun f => f.personId = p).insertionSort
    (S.gallery.Before (FaceRepository.queryVec result'.embedding)) with hnear
  have hexists : (∃ r ∈ S.ranking result'.embedding db, r.1.personId = p) ↔
      (((S.ranking result'.embedding db).find? fun r => r.1.personId = p).map Prod.fst).isSome := by
    simp [List.find?_isSome]
  have hids : (((S.ranking result'.embedding db).find? fun r => r.1.personId = p).map
      fun r => r.1.id) = (((S.ranking result'.embedding db).find? fun r => r.1.personId = p).map
        Prod.fst).map fun f => f.id := by
    rw [Option.map_map]
    rfl
  rw [hexists, hids, hfind]
  cases hhead : near with
  | nil =>
    obtain ⟨f, hf, hfp⟩ := hface
    have hmem : f ∈ near := by simp [hnear, hf, hfp]
    rw [hhead] at hmem
    cases hmem
  | cons f rest =>
    rw [hhead] at hmatched hid
    by_cases hs : S.similar result'.embedding f = true
    · simp [hmatched, hid, similar_iff.1 hs, hs, Option.filter]
    · simp [hmatched, hid, mt similar_iff.2 hs, hs, Option.filter]

theorem operations_project_ranking (hm : Mirror db) (hc : c.others = [])
    (hq : S.queryFace data = .ok result) :
    S.Projections c data (FaceRepository.queryVec result.embedding) db
      (S.ranking result.embedding db) where
  search k hk a h := by
    obtain ⟨result', hq', hmatches⟩ := search_answer hc h
    obtain rfl : result' = result := Except.ok.inj (hq'.symm.trans hq)
    have hk' : S.effectiveTopK (some k) = k := if_neg (by omega)
    rw [hmatches, hk', filter_searchRows hm, List.map_map]
    rfl
  identify a h := by
    obtain ⟨result', best, hq', hbest, hmatched, hperson, hname⟩ := identifyTop1_answer hc h
    obtain rfl : result' = result := Except.ok.inj (hq'.symm.trans hq)
    rw [head_searchRows hm] at hbest
    rw [hmatched, hperson, hname, hbest]
    cases S.ranking result'.embedding db with
    | nil => simp
    | cons r rest => simp [FaceRepository.toSearchRow]
  verify p person hp hactive hface a h := verify_projects hp hactive hface hc hq h
  answered h := ⟨fun _ hk => search_answered h hq hk,
    identifyTop1_returns_iff.2 ⟨⟨result, hq⟩, h.noFault _, h.canLog⟩,
    fun _ _ hp => verify_answered h hq hp⟩

/-- Carol is not active, and Bob has a face as similar as one of Alice's and one that is not. -/
theorem operations_project_ranking_carol :
    oneFaceService.Projections ⟨0, 2, 8, 9, [], fun _ => none⟩ []
        (FaceRepository.queryVec oneFaceResult.embedding) withCarol
        (oneFaceService.ranking oneFaceResult.embedding withCarol) ∧
      (oneFaceService.ranking oneFaceResult.embedding withCarol).map (fun r => r.1.id) =
        [8, 7, 9, 11] := by
  have hq : oneFaceService.queryFace [] = .ok oneFaceResult := processLargest_oneFace _
  exact ⟨operations_project_ranking mirror_withCarol rfl hq, by decide +kernel⟩

end

end RecognitionService

end FaceRecognition.Services
