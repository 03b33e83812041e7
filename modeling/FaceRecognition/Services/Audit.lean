import FaceRecognition.Lib.Transaction
import FaceRecognition.Services.Ranking

/-!
# What the operations of the service write

Each operation that returns has written at most one person, at most one face and one row of the log,
which tells what the response says (`..._writes`). None of them commits (`preserves_...`).
-/

namespace FaceRecognition.Services

open Relational Recognition Db UnitOfWork

/-- The rows an operation writes. -/
structure Writes where
  person : Option Person
  face : Option Face
  log : RecognitionLog

def Writes.on (w : Writes) (db : Database) : Database where
  persons := w.person.elim db.persons db.persons.put
  faces := w.face.elim db.faces db.faces.put
  logs := db.logs.put w.log

/-- The columns of a row of the log that tell what happened. -/
structure Tells (log : RecognitionLog) (action : RecognitionAction)
    (personId matchedFaceId : Option UUID) (success : Bool) : Prop where
  action : log.action = action
  personId : log.personId = personId
  matchedFaceId : log.matchedFaceId = matchedFaceId
  success : log.success = success

/-- The work of `s'` is that of `s` with a new row in the log and the other writes. -/
structure Wrote (s s' : Session Database) (w : Writes) : Prop where
  newPerson : ∀ p, w.person = some p → s.work.persons.get? p.id = none
  newLog : s.work.logs.get? w.log.id = none
  work : s'.work = w.on s.work

theorem no_person {P : Person → Prop} (p : Person) (h : none = some p) : P p := by cases h

/-- The face and the row of the log agree with the response. -/
structure Enrolled (a : FaceRegisterResponse) (f : Face) (log : RecognitionLog) : Prop where
  faceId : f.id = a.faceId
  personId : f.personId = a.personId
  log : Tells log .register (some a.personId) (some a.faceId) true

namespace RecognitionService

variable {S : RecognitionService} {c : Context} {s s' : Session Database} {data : Bytes}
  {imagePath : Option String}

/-! ### Calls of the repositories -/

theorem record_ok {l : LogFields} {u : Unit}
    (h : exec (RecognitionLogRepository.record c l) s = (.ok u, s')) :
    s.work.logs.get? c.logId = none ∧
      s' = { s with work := { s.work with logs := s.work.logs.put (newLog c l) } } := by
  obtain ⟨ws, hrun, rfl⟩ := exec_flushStatement_eq_ok h
  obtain rfl := insertLog_ok hrun
  exact ⟨insertLog_new hrun, rfl⟩

theorem addPerson_ok {p q : Person} (h : exec (PersonRepository.add c p) s = (.ok q, s')) :
    q = p ∧ s.work.persons.get? p.id = none ∧
      s' = { s with work := { s.work with persons := s.work.persons.put p } } := by
  obtain ⟨u, t, hflush, h⟩ := exec_bind_eq_ok.1 h
  obtain ⟨rfl, rfl⟩ := exec_pure_eq_ok.1 h
  obtain ⟨ws, hrun, rfl⟩ := exec_flushStatement_eq_ok hflush
  obtain ⟨hflag, rfl⟩ := insertPerson_ok hrun
  have hnew : (c.view s.work).persons.get? q.id = none := Option.map_eq_none_iff.1 hflag
  rw [get?_view, Option.or_eq_none_iff] at hnew
  exact ⟨rfl, hnew.1, rfl⟩

theorem addFace_ok {f f' : Face} (h : exec (FaceRepository.add c f) s = (.ok f', s')) :
    f' = f ∧ s.work.faces.get? f.id = none ∧ ∃ b, s' = { s with
      work := { s.work with faces := s.work.faces.put { f with isActive := b } } } := by
  obtain ⟨u, t, hflush, h⟩ := exec_bind_eq_ok.1 h
  obtain ⟨rfl, rfl⟩ := exec_pure_eq_ok.1 h
  obtain ⟨ws, hrun, rfl⟩ := exec_flushStatement_eq_ok hflush
  obtain ⟨p, -, hnew, rfl⟩ := insertFace_ok hrun
  exact ⟨rfl, hnew, p.isActive, rfl⟩

/-! ### Enrolment -/

theorem enroll_writes {person : Person} {a : FaceRegisterResponse}
    (h : exec (S.enroll c person data imagePath) s = (.ok a, s')) :
    ∃ f log, Enrolled a f log ∧ a.personId = person.id ∧ s.work.faces.get? f.id = none ∧
      Wrote s s' ⟨none, some f, log⟩ := by
  simp only [enroll, exec_bind_eq_ok, exec_lift_eq_ok, exec_pure_eq_ok] at h
  obtain ⟨image, _, ⟨-, rfl⟩, result, _, ⟨-, rfl⟩, thumbnail, _, ⟨-, rfl⟩, face, t, hadd, _, _,
    hrecord, rfl, rfl⟩ := h
  obtain ⟨rfl, hnew, b, rfl⟩ := addFace_ok hadd
  obtain ⟨hlog, rfl⟩ := record_ok hrecord
  exact ⟨{ newFace c person.id result imagePath (some result.detection.bbox) thumbnail with
    isActive := b }, _, ⟨rfl, rfl, ⟨rfl, rfl, rfl, rfl⟩⟩, rfl, hnew, ⟨no_person, hlog, rfl⟩⟩

theorem register_writes {personId : UUID} {a : FaceRegisterResponse}
    (h : exec (S.register c personId data imagePath) s = (.ok a, s')) :
    ∃ f log, Enrolled a f log ∧ a.personId = personId ∧ s.work.faces.get? f.id = none ∧
      Wrote s s' ⟨none, some f, log⟩ := by
  obtain ⟨person?, t, hget, h⟩ := exec_bind_eq_ok.1 h
  obtain ⟨hperson, rfl⟩ := exec_select_eq_ok hget
  cases person? with
  | none => simp [Prod.ext_iff] at h
  | some person =>
    obtain rfl : person.id = personId := Table.pk_of_get? hperson.symm
    exact enroll_writes h

/-- The person of a name is the first one who has it, or a new one when nobody has. -/
inductive FindsOrCreates (db : Database) (fullName : String) (personId : UUID) :
    Option Person → Prop
  | found {p : Person} (h : p ∈ db.persons.rows) (hname : p.fullName = fullName)
    (hid : p.id = personId) : FindsOrCreates db fullName personId none
  | created {p : Person} (h : ∀ q ∈ db.persons.rows, q.fullName ≠ fullName)
    (hname : p.fullName = fullName) (hid : p.id = personId) :
    FindsOrCreates db fullName personId (some p)

theorem registerByName_writes {fullName : String} {a : FaceRegisterResponse}
    (h : exec (S.registerByName c fullName data imagePath) s = (.ok a, s')) :
    ∃ person f log, Enrolled a f log ∧
      FindsOrCreates (c.view s.work) (strip fullName) a.personId person ∧
      s.work.faces.get? f.id = none ∧ Wrote s s' ⟨person, some f, log⟩ := by
  obtain ⟨person?, t, hget, h⟩ := exec_bind_eq_ok.1 h
  obtain ⟨hperson, rfl⟩ := exec_select_eq_ok hget
  cases person? with
  | some person =>
    obtain ⟨f, log, henrolled, hid, hnew, hwrote⟩ := enroll_writes h
    have hfound := hperson.symm
    exact ⟨none, f, log, henrolled, .found (List.mem_of_find?_eq_some hfound)
      (by simpa using List.find?_some hfound) hid.symm, hnew, hwrote⟩
  | none =>
    obtain ⟨person, t, hadd, h⟩ := exec_bind_eq_ok.1 h
    obtain ⟨rfl, hnewPerson, rfl⟩ := addPerson_ok hadd
    obtain ⟨f, log, henrolled, hid, hnew, hwrote⟩ := enroll_writes h
    have hnobody := hperson.symm
    simp only [List.find?_eq_none, decide_eq_true_eq] at hnobody
    refine ⟨some _, f, log, henrolled, .created hnobody rfl hid.symm, hnew, ?_, hwrote.newLog,
      hwrote.work⟩
    rintro p ⟨⟩
    exact hnewPerson

theorem replaceFaceImage_writes {faceId : UUID} {a : FaceRegisterResponse}
    (h : exec (S.replaceFaceImage c faceId data imagePath) s = (.ok a, s')) :
    ∃ old f log, Enrolled a f log ∧ a.faceId = faceId ∧ s.work.faces.get? faceId = some old ∧
      f.personId = old.personId ∧ Wrote s s' ⟨none, some f, log⟩ := by
  obtain ⟨face?, t, hget, h⟩ := exec_bind_eq_ok.1 h
  obtain ⟨hface, rfl⟩ := exec_select_eq_ok hget
  cases face? with
  | none => simp [Prod.ext_iff] at h
  | some old =>
    have hold : t.work.faces.get? faceId = some old := hface.symm
    obtain rfl : old.id = faceId := Table.pk_of_get? hold
    simp only [exec_bind_eq_ok, exec_lift_eq_ok, exec_pure_eq_ok] at h
    obtain ⟨image, _, ⟨-, rfl⟩, result, _, ⟨-, rfl⟩, thumbnail, _, ⟨-, rfl⟩, _, _, hflush, _, _,
      hrecord, rfl, rfl⟩ := h
    obtain ⟨ws, hrun, rfl⟩ := exec_flushStatement_eq_ok hflush
    obtain ⟨old', new, hold', hid, hperson, -, rfl⟩ := updateFace_ok hrun
    obtain rfl : old = old' := Option.some.inj (hold.symm.trans hold')
    obtain ⟨hlog, rfl⟩ := record_ok hrecord
    refine ⟨old, new, _, ⟨hid, hperson, ⟨rfl, rfl, rfl, rfl⟩⟩, rfl, hold, hperson,
      ⟨no_person, ?_, rfl⟩⟩
    exact hlog

/-! ### Recognition -/

/-- The log has the best face of the person, the response only when it reaches the threshold. -/
theorem verify_writes {personId : UUID} {a : VerifyResponse}
    (h : exec (S.verify c personId data) s = (.ok a, s')) :
    ∃ result log, S.queryFace data = .ok result ∧ a.personId = personId ∧
      Tells log .verify (some a.personId) ((FaceRepository.bestOfPerson S.gallery personId
        (FaceRepository.queryVec result.embedding) s.work).map Prod.fst) a.matched ∧
      a.matchedFaceId = (if a.matched then log.matchedFaceId else none) ∧
      Wrote s s' ⟨none, none, log⟩ := by
  obtain ⟨person?, t, hget, h⟩ := exec_bind_eq_ok.1 h
  obtain ⟨hperson, rfl⟩ := exec_select_eq_ok hget
  cases person? with
  | none => simp [Prod.ext_iff] at h
  | some person =>
    obtain rfl : person.id = personId := Table.pk_of_get? hperson.symm
    simp only [exec_bind_eq_ok, exec_lift_eq_ok, exec_pure_eq_ok] at h
    obtain ⟨image, _, ⟨himage, rfl⟩, result, _, ⟨hresult, rfl⟩, best, _, hbest, _, _, hrecord, rfl,
      rfl⟩ := h
    obtain ⟨rfl, rfl⟩ := exec_select_eq_ok hbest
    obtain ⟨hlog, rfl⟩ := record_ok hrecord
    exact ⟨result, _, queryFace_eq_ok.2 ⟨image, himage, hresult⟩, rfl, ⟨rfl, rfl, rfl, rfl⟩, rfl,
      ⟨no_person, hlog, rfl⟩⟩

theorem exec_searchWhere_eq_ok {G : Gallery} {clause : Face × Person → Bool} {e : Embedding} {k : ℤ}
    {rows : List SearchRow}
    (h : exec (FaceRepository.searchWhere G c clause e k) s = (.ok rows, s')) :
    rows = FaceRepository.searchRows G clause (FaceRepository.queryVec e) k.toNat (c.view s.work) ∧
      s' = s := by
  obtain ⟨-, -, hrows, rfl⟩ := exec_query_eq_ok.1 h
  split_ifs at hrows
  exact ⟨(Except.ok.inj hrows).symm, rfl⟩

/-- The log has the first match of the response. -/
theorem search_writes {topK : Option ℤ} {a : SearchResponse}
    (h : exec (S.search c data topK) s = (.ok a, s')) :
    ∃ log, Tells log .search (a.matches.head?.map SearchMatch.personId)
        (a.matches.head?.map SearchMatch.faceId) (!a.matches.isEmpty) ∧
      Wrote s s' ⟨none, none, log⟩ := by
  simp only [search, exec_bind_eq_ok, exec_lift_eq_ok, exec_pure_eq_ok] at h
  obtain ⟨image, _, ⟨-, rfl⟩, result, _, ⟨-, rfl⟩, rows, _, hrows, _, _, hrecord, rfl, rfl⟩ := h
  obtain ⟨-, rfl⟩ := exec_searchWhere_eq_ok hrows
  obtain ⟨hlog, rfl⟩ := record_ok hrecord
  exact ⟨_, ⟨rfl, rfl, rfl, rfl⟩, ⟨no_person, hlog, rfl⟩⟩

/-- The nearest active face, when it reaches the threshold. -/
def topMatch (S : RecognitionService) (embedding : Embedding) (db : Database) : Option SearchRow :=
  (FaceRepository.searchRows S.gallery (fun r => r.1.isActive)
    (FaceRepository.queryVec embedding) 1 db).head?.filter fun r =>
      S.recognitionThreshold ≤ r.similarity

theorem identifyTop1_writes {a : ExternalSearchResponse}
    (h : exec (S.identifyTop1 c data) s = (.ok a, s')) :
    ∃ result best log, S.queryFace data = .ok result ∧
      best = S.topMatch result.embedding (c.view s.work) ∧
      Tells log .search a.personId (best.map SearchRow.faceId) a.matched ∧
      a.personId = best.map SearchRow.personId ∧ a.matched = best.isSome ∧
      Wrote s s' ⟨none, none, log⟩ := by
  simp only [identifyTop1, exec_bind_eq_ok, exec_lift_eq_ok, exec_pure_eq_ok] at h
  obtain ⟨image, _, ⟨himage, rfl⟩, result, _, ⟨hresult, rfl⟩, rows, _, hrows, _, _, hrecord, rfl,
    rfl⟩ := h
  obtain ⟨rfl, rfl⟩ := exec_searchWhere_eq_ok hrows
  obtain ⟨hlog, rfl⟩ := record_ok hrecord
  exact ⟨result, _, _, queryFace_eq_ok.2 ⟨image, himage, hresult⟩, rfl, ⟨rfl, rfl, rfl, rfl⟩, rfl,
    rfl, ⟨no_person, hlog, rfl⟩⟩

/-! ### No operation commits -/

variable (S c)

theorem preserves_enroll (person : Person) (imageBytes : Bytes) (imagePath : Option String) :
    Preserves Session.committed (S.enroll c person imageBytes imagePath) :=
  preserves_bind (preserves_lift _) fun _ => preserves_bind (preserves_lift _) fun _ =>
    preserves_bind (preserves_lift _) fun _ =>
      preserves_bind (preserves_bind preserves_flush fun _ => preserves_pure _) fun _ =>
        preserves_bind preserves_flush fun _ => preserves_pure _

theorem preserves_register (personId : UUID) (imageBytes : Bytes) (imagePath : Option String) :
    Preserves Session.committed (S.register c personId imageBytes imagePath) := by
  refine preserves_bind preserves_query fun person => ?_
  cases person with
  | none => exact preserves_throw _
  | some person => exact preserves_enroll S c person imageBytes imagePath

theorem preserves_registerByName (fullName : String) (imageBytes : Bytes)
    (imagePath : Option String) :
    Preserves Session.committed (S.registerByName c fullName imageBytes imagePath) := by
  refine preserves_bind preserves_query fun person => ?_
  cases person with
  | some person => exact preserves_enroll S c person imageBytes imagePath
  | none =>
    exact preserves_bind (preserves_bind preserves_flush fun _ => preserves_pure _) fun person =>
      preserves_enroll S c person imageBytes imagePath

theorem preserves_replaceFaceImage (faceId : UUID) (imageBytes : Bytes)
    (imagePath : Option String) :
    Preserves Session.committed (S.replaceFaceImage c faceId imageBytes imagePath) := by
  refine preserves_bind preserves_query fun face => ?_
  cases face with
  | none => exact preserves_throw _
  | some face =>
    exact preserves_bind (preserves_lift _) fun _ => preserves_bind (preserves_lift _) fun _ =>
      preserves_bind (preserves_lift _) fun _ => preserves_bind preserves_flush fun _ =>
        preserves_bind preserves_flush fun _ => preserves_pure _

theorem preserves_verify (personId : UUID) (imageBytes : Bytes) :
    Preserves Session.committed (S.verify c personId imageBytes) := by
  refine preserves_bind preserves_query fun person => ?_
  cases person with
  | none => exact preserves_throw _
  | some person =>
    exact preserves_bind (preserves_lift _) fun _ => preserves_bind (preserves_lift _) fun _ =>
      preserves_bind preserves_query fun _ => preserves_bind preserves_flush fun _ =>
        preserves_pure _

theorem preserves_search (imageBytes : Bytes) (topK : Option ℤ) :
    Preserves Session.committed (S.search c imageBytes topK) :=
  preserves_bind (preserves_lift _) fun _ => preserves_bind (preserves_lift _) fun _ =>
    preserves_bind preserves_query fun _ => preserves_bind preserves_flush fun _ =>
      preserves_pure _

theorem preserves_identifyTop1 (imageBytes : Bytes) :
    Preserves Session.committed (S.identifyTop1 c imageBytes) :=
  preserves_bind (preserves_lift _) fun _ => preserves_bind (preserves_lift _) fun _ =>
    preserves_bind preserves_query fun _ => preserves_bind preserves_flush fun _ =>
      preserves_pure _

end RecognitionService

end FaceRecognition.Services
