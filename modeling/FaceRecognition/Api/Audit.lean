import FaceRecognition.Api.ApiKeys

/-!
# Requests are all-or-nothing and audited

The six requests that enrol and recognise, from any database and with any call failing. A request
that raises leaves the committed database as it was. One that returns has committed the writes of
its operation, with one row of the log that agrees with the response, and the use of the API key
(`all_or_nothing`).
-/

namespace FaceRecognition.Api.Audit

open Relational Recognition Db UnitOfWork Services RecognitionService

inductive Request where
  | register (personId : UUID) (image : Upload)
  | enroll (personName : String) (image : Upload)
  | replaceImage (faceId : UUID) (image : Upload)
  | verify (personId : UUID) (image : Upload)
  | search (image : Upload) (topK : Option ℤ)
  | external (key : Option String) (image : Upload)

inductive Response where
  | enrolled (a : FaceRegisterResponse)
  | verified (a : VerifyResponse)
  | found (a : SearchResponse)
  | identified (a : ExternalSearchResponse)

section
variable {M : Type} (R : KeyRateLimiter M) (cfg : KeySettings) (S : RecognitionService)
  (c : KeyContext)

def answer {α : Type} (respond : α → Response) (m : RequestM M α) : RequestM M Response := do
  let a ← m
  return respond a

def handler : Request → RequestM M Response
  | .register personId image =>
    answer .enrolled (onTables (registerFace S c.toContext personId image))
  | .enroll personName image =>
    answer .enrolled (onTables (enrollByName S c.toContext personName image))
  | .replaceImage faceId image =>
    answer .enrolled (onTables (replaceFaceImage S c.toContext faceId image))
  | .verify personId image => answer .verified (onTables (verifyFace S c.toContext personId image))
  | .search image topK => answer .found (onTables (searchFaces S c.toContext image topK))
  | .external key image => answer .identified (externalSearchWithKey R cfg c S image key)

/-- The response, and what is committed then. -/
def serve (request : Request) (db : FullDatabase) (m : M) : Except Exc Response × FullDatabase :=
  let (r, st) := exec (withDb c.toContext (handler R cfg S c request)) (Session.begin db, m)
  (r, st.1.committed)

end

/-! ### What a request may commit -/

/-- The rows a request writes for its response. -/
inductive Outcome (S : RecognitionService) (c : Context) (db : Database) :
    Request → Response → Writes → Prop
  | register {image : Upload} {a : FaceRegisterResponse} {f : Face} {log : RecognitionLog}
    (hnew : db.faces.get? f.id = none) (h : Enrolled a f log) :
    Outcome S c db (.register a.personId image) (.enrolled a) ⟨none, some f, log⟩
  | enroll {name : String} {image : Upload} {a : FaceRegisterResponse} {person : Option Person}
    {f : Face} {log : RecognitionLog}
    (hperson : FindsOrCreates (c.view db) (strip name) a.personId person)
    (hnew : db.faces.get? f.id = none) (h : Enrolled a f log) :
    Outcome S c db (.enroll name image) (.enrolled a) ⟨person, some f, log⟩
  | replaceImage {image : Upload} {a : FaceRegisterResponse} {old f : Face} {log : RecognitionLog}
    (hold : db.faces.get? a.faceId = some old) (hperson : f.personId = old.personId)
    (h : Enrolled a f log) :
    Outcome S c db (.replaceImage a.faceId image) (.enrolled a) ⟨none, some f, log⟩
  | verify {image : Upload} {a : VerifyResponse} {result : FaceResult} {log : RecognitionLog}
    (hquery : S.queryFace image.data = .ok result)
    (h : Tells log .verify (some a.personId) ((FaceRepository.bestOfPerson S.gallery a.personId
      (FaceRepository.queryVec result.embedding) db).map Prod.fst) a.matched)
    (hface : a.matchedFaceId = if a.matched then log.matchedFaceId else none) :
    Outcome S c db (.verify a.personId image) (.verified a) ⟨none, none, log⟩
  | search {image : Upload} {topK : Option ℤ} {a : SearchResponse} {log : RecognitionLog}
    (h : Tells log .search (a.matches.head?.map SearchMatch.personId)
      (a.matches.head?.map SearchMatch.faceId) (!a.matches.isEmpty)) :
    Outcome S c db (.search image topK) (.found a) ⟨none, none, log⟩
  | external {key : Option String} {image : Upload} {a : ExternalSearchResponse}
    {result : FaceResult} {best : Option SearchRow} {log : RecognitionLog}
    (hquery : S.queryFace image.data = .ok result)
    (hbest : best = S.topMatch result.embedding (c.view db))
    (hperson : a.personId = best.map SearchRow.personId) (hmatched : a.matched = best.isSome)
    (h : Tells log .search a.personId (best.map SearchRow.faceId) a.matched) :
    Outcome S c db (.external key image) (.identified a) ⟨none, none, log⟩

/-- The keys afterwards: a request with a key has used an active one. -/
def KeyUsed (cfg : KeySettings) (c : KeyContext) (keys keys' : Table ApiKey) : Request → Prop
  | .external key _ => ∃ k ∈ keys.rows, k.isActive = true ∧
      k.keyHash = cfg.hashApiKey (key.getD "") ∧ keys' = keys.put (used c k)
  | _ => keys' = keys

/-- A request has failed and committed nothing, or its own writes and no others. -/
inductive Audited (cfg : KeySettings) (S : RecognitionService) (c : KeyContext)
    (db : FullDatabase) (request : Request) : Except Exc Response → FullDatabase → Prop
  | failed (e : Exc) : Audited cfg S c db request (.error e) db
  | done {response : Response} {w : Writes} {db' : FullDatabase}
    (houtcome : Outcome S c.toContext db.toDatabase request response w)
    (hperson : ∀ p, w.person = some p → db.persons.get? p.id = none)
    (hlog : db.logs.get? w.log.id = none) (htables : db'.toDatabase = w.on db.toDatabase)
    (hkeys : KeyUsed cfg c db.apiKeys db'.apiKeys request) :
    Audited cfg S c db request (.ok response) db'

/-! ### The handlers -/

section
variable {M : Type} {R : KeyRateLimiter M} {cfg : KeySettings} {S : RecognitionService}
  {c : KeyContext} {st st' : Session FullDatabase × M}

theorem answer_ok {α : Type} {respond : α → Response} {m : RequestM M α} {response : Response}
    (h : exec (answer respond m) st = (.ok response, st')) :
    ∃ a, response = respond a ∧ exec m st = (.ok a, st') := by
  obtain ⟨a, t, hm, h⟩ := exec_bind_eq_ok.1 h
  obtain ⟨rfl, rfl⟩ := exec_pure_eq_ok.1 h
  exact ⟨a, rfl, hm⟩

theorem preserves_answer {α : Type} {respond : α → Response} {m : RequestM M α}
    (h : Preserves (fun st => st.1.committed) m) :
    Preserves (fun st => st.1.committed) (answer respond m) :=
  preserves_bind h fun _ => preserves_pure _

variable (R cfg S c) in
theorem preserves_handler (request : Request) :
    Preserves (fun st => st.1.committed) (handler R cfg S c request) := by
  cases request with
  | register personId image =>
    exact preserves_answer (preserves_onTables (preserves_bind (preserves_lift _) fun data =>
      preserves_register S c.toContext personId data image.filename))
  | enroll personName image =>
    exact preserves_answer (preserves_onTables (preserves_bind (preserves_lift _) fun data =>
      preserves_registerByName S c.toContext personName data image.filename))
  | replaceImage faceId image =>
    exact preserves_answer (preserves_onTables (preserves_bind (preserves_lift _) fun data =>
      preserves_replaceFaceImage S c.toContext faceId data image.filename))
  | verify personId image =>
    exact preserves_answer (preserves_onTables (preserves_bind (preserves_lift _) fun data =>
      preserves_verify S c.toContext personId data))
  | search image topK =>
    exact preserves_answer (preserves_onTables (preserves_bind (preserves_lift _) fun data =>
      preserves_search S c.toContext data topK))
  | external key image =>
    exact preserves_answer (preserves_externalSearchWithKey R cfg c S image key)

/-- What an operation on an upload returns, with the tables before and after. -/
theorem onTables_ok {α : Type} {image : Upload} {k : Bytes → SessionM α} {a : α}
    (h : exec (onTables (lift (readImage image) >>= k)) st = (.ok a, st')) :
    ∃ t, exec (k image.data) (tables.session st.1) = (.ok a, t) ∧
      st'.1.work.toDatabase = t.work ∧ st'.1.work.apiKeys = st.1.work.apiKeys := by
  obtain ⟨hpart, -⟩ := exec_beside_eq_ok.1 h
  obtain ⟨t, hk, hst⟩ := (exec_onPart_eq_ok tables).1 hpart
  obtain ⟨data, u, hread, hk⟩ := exec_bind_eq_ok.1 hk
  obtain ⟨hdata, rfl⟩ := exec_lift_eq_ok.1 hread
  obtain rfl := readImage_ok hdata
  rw [hst]
  exact ⟨t, hk, rfl, rfl⟩

theorem answer_onTables_ok {α : Type} {respond : α → Response} {image : Upload}
    {k : Bytes → SessionM α} {response : Response}
    (h : exec (answer respond (onTables (lift (readImage image) >>= k))) st =
      (.ok response, st')) :
    ∃ a t, response = respond a ∧ exec (k image.data) (tables.session st.1) = (.ok a, t) ∧
      st'.1.work.toDatabase = t.work ∧ st'.1.work.apiKeys = st.1.work.apiKeys := by
  obtain ⟨a, rfl, hanswer⟩ := answer_ok h
  obtain ⟨t, hrun, htables, hkeys⟩ := onTables_ok hanswer
  exact ⟨a, t, rfl, hrun, htables, hkeys⟩

/-- A handler that returns has written what its request may. -/
theorem handler_ok {request : Request} {response : Response}
    (h : exec (handler R cfg S c request) st = (.ok response, st')) :
    Audited cfg S c st.1.work request (.ok response) st'.1.work := by
  cases request with
  | register personId image =>
    obtain ⟨a, t, rfl, hrun, htables, hkeys⟩ := answer_onTables_ok h
    obtain ⟨f, log, henrolled, rfl, hnew, hwrote⟩ := register_writes hrun
    exact .done (.register hnew henrolled) hwrote.newPerson hwrote.newLog
      (htables.trans hwrote.work) hkeys
  | enroll personName image =>
    obtain ⟨a, t, rfl, hrun, htables, hkeys⟩ := answer_onTables_ok h
    obtain ⟨person, f, log, henrolled, hperson, hnew, hwrote⟩ := registerByName_writes hrun
    exact .done (.enroll hperson hnew henrolled) hwrote.newPerson hwrote.newLog
      (htables.trans hwrote.work) hkeys
  | replaceImage faceId image =>
    obtain ⟨a, t, rfl, hrun, htables, hkeys⟩ := answer_onTables_ok h
    obtain ⟨old, f, log, henrolled, rfl, hold, hperson, hwrote⟩ := replaceFaceImage_writes hrun
    exact .done (.replaceImage hold hperson henrolled) hwrote.newPerson hwrote.newLog
      (htables.trans hwrote.work) hkeys
  | verify personId image =>
    obtain ⟨a, t, rfl, hrun, htables, hkeys⟩ := answer_onTables_ok h
    obtain ⟨result, log, hquery, rfl, htells, hface, hwrote⟩ := verify_writes hrun
    exact .done (.verify hquery htells hface) hwrote.newPerson hwrote.newLog
      (htables.trans hwrote.work) hkeys
  | search image topK =>
    obtain ⟨a, t, rfl, hrun, htables, hkeys⟩ := answer_onTables_ok h
    obtain ⟨log, htells, hwrote⟩ := search_writes hrun
    exact .done (.search htells) hwrote.newPerson hwrote.newLog (htables.trans hwrote.work) hkeys
  | external key image =>
    obtain ⟨a, rfl, hanswer⟩ := answer_ok h
    obtain ⟨k, u, hadmit, hsearch⟩ := exec_bind_eq_ok.1 hanswer
    obtain ⟨hmem, hactive, hhash, hu⟩ := getApiKey_ok hadmit
    obtain ⟨t, hrun, htables, hkeys⟩ := onTables_ok hsearch
    obtain ⟨result, best, log, hquery, hbest, htells, hperson, hmatched, hwrote⟩ :=
      identifyTop1_writes hrun
    rw [hu] at hbest hwrote hkeys
    exact .done (.external hquery hbest hperson hmatched htells) hwrote.newPerson hwrote.newLog
      (htables.trans hwrote.work) ⟨k, hmem, hactive, hhash, hkeys⟩

end

/-- **Requests are all-or-nothing and audited**: what is committed is what was committed before, or
that with the operation's writes and one row of the log that agrees with the response. -/
theorem all_or_nothing {M : Type} (R : KeyRateLimiter M) (cfg : KeySettings)
    (S : RecognitionService) (c : KeyContext) (request : Request) (db : FullDatabase) (m : M) :
    Audited cfg S c db request (serve R cfg S c request db m).1
      (serve R cfg S c request db m).2 := by
  obtain ⟨r, st, hexec, -, hcases⟩ := exec_withDb c.toContext
    (preserves_handler R cfg S c request) (Session.begin db, m)
  rw [serve, hexec]
  dsimp only
  rcases hcases with ⟨⟨e, rfl⟩, hcommitted⟩ | ⟨response, u, rfl, hhandler, hcommitted⟩
  · rw [hcommitted]
    exact .failed e
  · rw [hcommitted]
    exact handler_ok hhandler

end FaceRecognition.Api.Audit
