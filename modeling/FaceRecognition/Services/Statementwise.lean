import FaceRecognition.Api.Deps
import FaceRecognition.Lib.Requests
import FaceRecognition.Services.BulkImport

/-!
# Enrolment statement by statement

`register_by_name` requests and imports as programs over session calls, so that they can be
interleaved. Each is written as its sequential version in `RecognitionService` and
`BulkImportService`, and alone on a session it does the same (`registration_denotes`,
`importPairs_denotes`).
-/

namespace FaceRecognition.Services.Statementwise

open Relational Recognition Db UnitOfWork ReadCommitted

/-- The database server, with the look up of `get_by_name`. -/
def postgres : Dbms Database Write RowId String Statement (Option Person) Exc where
  engine := engine
  look fullName db := db.persons.rows.find? fun p => p.fullName = fullName
  run := Statement.run
  pending := pendingRollback

theorem postgres_engine : postgres.engine = engine := rfl

abbrev Command := Call String Statement

abbrev ClientM (σ : Type) := ProgramM String Statement (Option Person) Exc σ

variable {σ α : Type}

/-! ### Repositories -/

def getByName (fullName : String) : ClientM σ (Option Person) := ask (.query fullName)

def addPerson (person : Person) : ClientM σ Person := do
  ask (.flush (.insertPerson person))
  return person

def addFace (face : Face) : ClientM σ Face := do
  ask (.flush (.insertFace face))
  return face

def record (c : Context) (l : LogFields) : ClientM σ Unit := ask (.flush (.insertLog (newLog c l)))

/-- `async with AsyncSessionFactory()` -/
def withSession (body : ClientM σ α) : ClientM σ α := inSession body

/-! ### register_by_name -/

/-- `get_db` around a handler. -/
def getDb (handler : ClientM σ α) : ClientM σ α := asRequest handler

section
variable (S : RecognitionService) (c : Context)

def enroll (person : Person) (imageBytes : Bytes) (imagePath : Option String) :
    ClientM σ FaceRegisterResponse := do
  let image ← raised (S.pipeline.decodeImage imageBytes)
  let result ← raised (S.pipeline.processSingle image)
  let thumbnail ← raised (S.makeFaceThumbnail image result.detection.bbox)
  let face ← addFace (RecognitionService.newFace c person.id result imagePath
    (some result.detection.bbox) thumbnail)
  record c
    { action := .register
      personId := some person.id
      matchedFaceId := some face.id
      success := true
      userId := S.actor
      clientIp := S.clientIp }
  return ⟨face.id, person.id, result.detection.score, result.detection.bbox⟩

def registerByName (fullName : String) (imageBytes : Bytes) (imagePath : Option String) :
    ClientM σ FaceRegisterResponse := do
  let fullName := strip fullName
  match ← getByName fullName with
  | some person => enroll S c person imageBytes imagePath
  | none =>
    let person ← addPerson (PersonRepository.newPerson c fullName none .emptyObject)
    enroll S c person imageBytes imagePath

end

/-! ### The import -/

structure ImportLocal where
  personCache : PersonCache
  jobs : InProcessJobStore

abbrev ImportClient := ClientM ImportLocal

def onJob (jobId : UUID) (f : ImportJob → ImportJob) : ImportClient Unit :=
  modify fun l => { l with jobs := l.jobs.update jobId f }

/-- The id from the table or of a new row, now cached. -/
def findOrAdd (c : Context) (personName : String) : ImportClient UUID := do
  let existing ← match ← getByName personName with
    | some person => pure person
    | none => addPerson (PersonRepository.newPerson c personName none .emptyObject)
  modify fun l =>
    { l with personCache := Function.update l.personCache personName (some existing.id) }
  return existing.id

def resolvePerson (c : Context) (personName : String) : ImportClient UUID := do
  match (← get).personCache personName with
  | some personId => return personId
  | none => findOrAdd c personName

theorem resolvePerson_cached {c : Context} {personName : String} {l : ImportLocal} {personId : UUID}
    (h : l.personCache personName = some personId) :
    go (resolvePerson c personName) l = .pure (.ok personId, l) := by
  show go (match l.personCache personName with | some _ => _ | none => _) l = _
  rw [h]
  rfl

theorem resolvePerson_new {c : Context} {personName : String} {l : ImportLocal}
    (h : l.personCache personName = none) :
    go (resolvePerson c personName) l = go (findOrAdd c personName) l := by
  show go (match l.personCache personName with | some _ => _ | none => _) l = _
  rw [h]

/-- The handler of `processOne`. -/
def recordFailure (c : Context) (jobId : UUID) (imgPath : Path) (exc : Exc) :
    ImportClient Unit := do
  onJob jobId (ImportJob.record false (some (imgPath.str ++ ": " ++ exc.message)))
  record c (BulkImportService.importFailure imgPath exc)

def processOne (env : ImportEnv) (c : Context) (jobId : UUID) (personName : String)
    (imgPath : Path) : ImportClient Unit :=
  tryCatch
    (do
      let (image, result) ← raised (BulkImportService.analyse env imgPath)
      let personId ← resolvePerson c personName
      let thumbnail ← raised (env.makeFaceThumbnail image result.detection.bbox)
      let _ ← addFace (BulkImportService.newFace c personId imgPath result thumbnail)
      onJob jobId (ImportJob.record true none))
    (recordFailure c jobId imgPath)

/-- The body of the `try` in `processBatch`. -/
def batchBody (env : ImportEnv) (jobId : UUID) (batch : Batch) : ImportClient Unit := do
  batch.forM fun pair =>
    processOne env (BulkImportService.contextOf env batch pair.2) jobId pair.1 pair.2
  ask .commit

/-- The handler of `processBatch`. -/
def abandonBatch (jobId : UUID) (exc : Exc) : ImportClient Unit := do
  ask .rollback
  onJob jobId (ImportJob.addError ("Batch failed: " ++ exc.message))

def processBatch (env : ImportEnv) (jobId : UUID) (batch : Batch) : ImportClient Unit :=
  withSession (tryCatch (batchBody env jobId batch) (abandonBatch jobId))

/-- The loop of `run` over the pairs, with the batch collected so far. -/
def batchLoop (env : ImportEnv) (jobId : UUID) (batch : Batch) : List Pair → ImportClient Unit
  | [] => if batch = [] then pure () else processBatch env jobId batch
  | pair :: pairs => do
    let batch := batch ++ [pair]
    if env.batchSize ≤ batch.length then
      processBatch env jobId batch
      batchLoop env jobId [] pairs
    else batchLoop env jobId batch pairs

/-- `run` after the discovery. -/
def importPairs (env : ImportEnv) (jobId : UUID) (pairs : List Pair) : ImportClient Unit := do
  onJob jobId (ImportJob.markRunning env.startedAt pairs.length)
  modify fun l => { l with personCache := fun _ => none }
  batchLoop env jobId [] pairs
  onJob jobId (ImportJob.markFinished env.finishedAt false)

/-! ### Alone they are the sequential code -/

/-- Nobody else commits persons and no call fails. -/
structure Quiet (c : Context) : Prop where
  others : c.others = []
  fault : ∀ site, c.fault site = none

/-- Where actions on a session are run: in a request or in an import. -/
structure Home (σ τ : Type) where
  join : Session Database → σ → τ
  on : {α : Type} → SessionM α → Action Exc τ α
  exec_on : ∀ {α : Type} (m : SessionM α) (sess : Session Database) (l : σ),
    exec (on m) (join sess l) = ((exec m sess).1, join (exec m sess).2 l)

def request : Home Unit (Session Database) := ⟨fun sess _ => sess, id, fun _ _ _ => rfl⟩

def importing : Home ImportLocal ImportState :=
  ⟨fun sess l => ⟨sess, l.personCache, l.jobs⟩, onSession, fun _ _ _ => rfl⟩

section
variable {τ : Type} {H : Home σ τ} {c : Context}

theorem denotes_on {p : Command} {m : SessionM (p.Answer (Option Person))}
    (h : ∀ sess, exec m sess = (answer postgres none sess p).swap) :
    Denotes postgres H.join (ask p) (H.on m) := by
  intro sess l
  refine ⟨(answer postgres none sess p).2, (answer postgres none sess p).1, l, rfl, ?_⟩
  rw [H.exec_on, h]
  rfl

theorem getByName_denotes (hc : Quiet c) (fullName : String) :
    Denotes postgres H.join (getByName fullName)
      (H.on (PersonRepository.getByName c fullName)) := by
  refine denotes_on fun sess => ?_
  have hview : c.view = id := funext (Context.view_of_alone hc.others)
  rw [PersonRepository.getByName, select, hc.fault, hview]
  rfl

theorem flush_denotes (hc : Quiet c) (site : Site) (q : Statement) :
    Denotes postgres H.join (ask (.flush q)) (H.on (flushStatement c site q)) := by
  refine denotes_on fun sess => ?_
  have hexecute : execute c q = fun db => (q.run db).map (applyAll db) :=
    funext fun db => by rw [execute, Context.view_of_alone hc.others]
  rw [flushStatement, hc.fault, hexecute]
  rfl

theorem denotes_on_pure (a : α) :
    Denotes postgres H.join (pure a : ClientM σ α) (H.on (pure a)) :=
  fun sess l => ⟨.ok a, sess, l, rfl, H.exec_on _ sess l⟩

theorem denotes_on_bind {β : Type} {p : ClientM σ α} {k : α → ClientM σ β} {m : SessionM α}
    {f : α → SessionM β} (h : Denotes postgres H.join p (H.on m))
    (hk : ∀ a, Denotes postgres H.join (k a) (H.on (f a))) :
    Denotes postgres H.join (p >>= k) (H.on (m >>= f)) := by
  intro sess l
  obtain ⟨r, sess', l', heval, hexec⟩ := denotes_bind h hk sess l
  refine ⟨r, sess', l', heval, ?_⟩
  rw [← hexec, H.exec_on, exec_bind, exec_bind, H.exec_on]
  rcases exec m sess with ⟨e | a, t⟩
  · rfl
  · exact (H.exec_on (f a) t l).symm

theorem addPerson_denotes (hc : Quiet c) (person : Person) :
    Denotes postgres H.join (addPerson person) (H.on (PersonRepository.add c person)) :=
  denotes_on_bind (flush_denotes hc _ _) fun _ => denotes_on_pure _

theorem addFace_denotes (hc : Quiet c) (face : Face) :
    Denotes postgres H.join (addFace face) (H.on (FaceRepository.add c face)) :=
  denotes_on_bind (flush_denotes hc _ _) fun _ => denotes_on_pure _

theorem record_denotes (hc : Quiet c) (l : LogFields) :
    Denotes postgres H.join (record c l) (H.on (RecognitionLogRepository.record c l)) :=
  flush_denotes hc _ _

theorem enroll_denotes {S : RecognitionService} (hc : Quiet c) (person : Person)
    (imageBytes : Bytes) (imagePath : Option String) :
    Denotes postgres request.join (enroll S c person imageBytes imagePath)
      (S.enroll c person imageBytes imagePath) := by
  refine denotes_bind (denotes_raised _) fun image => denotes_bind (denotes_raised _) fun result =>
    denotes_bind (denotes_raised _) fun thumbnail => denotes_bind (addFace_denotes hc _) fun face =>
      denotes_bind (record_denotes hc _) fun _ => denotes_pure _

theorem registerByName_denotes {S : RecognitionService} (hc : Quiet c) (fullName : String)
    (imageBytes : Bytes) (imagePath : Option String) :
    Denotes postgres request.join (registerByName S c fullName imageBytes imagePath)
      (S.registerByName c fullName imageBytes imagePath) := by
  refine denotes_bind (getByName_denotes hc (strip fullName)) fun found => ?_
  cases found with
  | some person => exact enroll_denotes hc person imageBytes imagePath
  | none =>
    exact denotes_bind (addPerson_denotes hc _) fun person =>
      enroll_denotes hc person imageBytes imagePath

/-! A session that ends with a commit or a rollback has nothing left to close. -/

/-- The session has no work of its own. -/
def Idle (sess : Session Database) : Prop := sess = .begin sess.committed

theorem withSession_denotes {p : ClientM σ α} {m : Action Exc τ α} {I : τ → Prop}
    (hI : ∀ sess l, I (H.join sess l) → Idle sess) (h : Denotes postgres H.join p m)
    (hidle : Triple (fun _ => True) m I I) (sess : Session Database) (l : σ) :
    ∃ r sess' l', (go (withSession p) l).eval (answer postgres none) sess = (sess', (r, l')) ∧
      exec m (H.join (.begin sess.committed) l) = (r, H.join sess' l') := by
  obtain ⟨r, sess', l', heval, hexec⟩ := h (.begin sess.committed) l
  have hclose : sess' = .begin sess'.committed := by
    cases r with
    | error e => exact hI _ _ ((hidle _ trivial).2 e _ hexec)
    | ok a => exact hI _ _ ((hidle _ trivial).1 a _ hexec)
  refine ⟨r, sess', l', ?_, hexec⟩
  rw [withSession, go_inSession]
  show ((go p l).bind fun out => closing out.1 out.2).eval (answer postgres none)
    (.begin sess.committed) = _
  rw [Client.Prog.eval_bind, heval]
  cases r with
  | error e => exact congrArg (fun s => (s, (Except.error e, l'))) hclose.symm
  | ok a => exact congrArg (fun s => (s, (Except.ok a, l'))) hclose.symm

theorem commit_denotes : Denotes postgres H.join (ask .commit)
    (H.on (commit pendingRollback none)) :=
  denotes_on fun _ => rfl

theorem rollback_denotes : Denotes postgres H.join (ask .rollback) (H.on (rollback none)) :=
  denotes_on fun _ => rfl

theorem idle_commit :
    Triple (fun _ => True) (commit pendingRollback none) Idle fun _ => True := by
  rintro ⟨committed, work, broken⟩ -
  refine ⟨fun a t ht => ?_, fun _ _ _ => trivial⟩
  cases broken with
  | true => cases ht
  | false =>
    cases ht
    rfl

theorem idle_rollback : Triple (fun _ => True) (rollback none : SessionM Unit) Idle Idle :=
  triple_of_forall fun _ _ => rfl

end

/-! ### The request -/

theorem getDb_denotes {c : Context} (hc : Quiet c) {p : ClientM Unit α} {m : SessionM α}
    (h : Denotes postgres request.join p m) (sess : Session Database) :
    ∃ r sess', (go (getDb p) ()).eval (answer postgres none) sess = (sess', (r, ())) ∧
      exec (Api.getDb c m) (.begin sess.committed) = (r, sess') := by
  rw [Api.getDb_of_fault hc.fault]
  exact asRequest_alone h sess

theorem registration_denotes {S : RecognitionService} {c : Context} (hc : Quiet c)
    (fullName : String) (imageBytes : Bytes) (imagePath : Option String)
    (sess : Session Database) :
    ∃ r sess', (go (getDb (registerByName S c fullName imageBytes imagePath)) ()).eval
        (answer postgres none) sess = (sess', (r, ())) ∧
      exec (Api.getDb c (S.registerByName c fullName imageBytes imagePath))
        (.begin sess.committed) = (r, sess') :=
  getDb_denotes hc (registerByName_denotes hc fullName imageBytes imagePath) sess

/-! ### The import -/

/-- No call of the import fails, and nobody else commits persons. -/
structure QuietImport (env : ImportEnv) : Prop where
  images : ∀ path, Quiet (env.imageContext path)
  commits : ∀ batch, env.commitFault batch = none
  rollbacks : ∀ batch, env.rollbackFault batch = none
  closes : ∀ batch, env.closeFault batch = none

section
variable {c : Context} {env : ImportEnv} (jobId : UUID)

theorem onJob_denotes (f : ImportJob → ImportJob) :
    Denotes postgres importing.join (onJob jobId f) (Services.onJob jobId f) :=
  fun sess l => ⟨.ok (), sess, { l with jobs := l.jobs.update jobId f }, rfl, rfl⟩

theorem triple_onSession {m : SessionM α} {Q R : Session Database → Prop}
    (h : Triple (fun _ => True) m Q R) :
    Triple (fun _ => True) (onSession m) (fun st => Q st.session) fun st => R st.session := by
  intro st _
  obtain ⟨hok, herror⟩ := h st.session trivial
  have hexec : exec (onSession m) st =
      ((exec m st.session).1, { st with session := (exec m st.session).2 }) := rfl
  rw [hexec]
  rcases hres : exec m st.session with ⟨r, sess⟩
  refine ⟨fun a t ht => ?_, fun e t ht => ?_⟩
  · cases ht
    exact hok a sess hres
  · cases ht
    exact herror e sess hres

theorem setCache_denotes (f : PersonCache → PersonCache) :
    Denotes postgres importing.join
      (modify fun l => { l with personCache := f l.personCache } : ImportClient Unit)
      (modify fun st => { st with personCache := f st.personCache } : ImportM Unit) :=
  fun sess l => ⟨.ok (), sess, { l with personCache := f l.personCache }, rfl, rfl⟩

theorem resolvePerson_denotes (hc : Quiet c) (personName : String) :
    Denotes postgres importing.join (resolvePerson c personName)
      (BulkImportService.resolvePerson c personName) := by
  have hremember : ∀ existing : Person, Denotes postgres importing.join
      (do
        modify fun l =>
          { l with personCache := Function.update l.personCache personName (some existing.id) }
        return existing.id)
      (do
        modify fun st =>
          { st with personCache := Function.update st.personCache personName (some existing.id) }
        return existing.id) := fun existing =>
    denotes_bind (setCache_denotes fun cache => Function.update cache personName existing.id)
      fun _ => denotes_pure existing.id
  have hnew : Denotes postgres importing.join (findOrAdd c personName)
      (do
        let existing ← match ← onSession (PersonRepository.getByName c personName) with
          | some person => pure person
          | none =>
            onSession (PersonRepository.add c
              (PersonRepository.newPerson c personName none .emptyObject))
        modify fun st =>
          { st with personCache := Function.update st.personCache personName (some existing.id) }
        return existing.id) := by
    refine denotes_bind (getByName_denotes hc personName) fun found => ?_
    cases found with
    | some person => exact denotes_bind (denotes_pure person) hremember
    | none => exact denotes_bind (addPerson_denotes hc _) hremember
  intro sess l
  cases hcache : l.personCache personName with
  | some personId =>
    refine ⟨.ok personId, sess, l, by rw [resolvePerson_cached hcache]; rfl, ?_⟩
    show exec (match l.personCache personName with | some _ => _ | none => _) _ = _
    rw [hcache]
    rfl
  | none =>
    obtain ⟨r, sess', l', heval, hexec⟩ := hnew sess l
    refine ⟨r, sess', l', by rw [resolvePerson_new hcache, heval], ?_⟩
    show exec (match l.personCache personName with | some _ => _ | none => _) _ = _
    rw [hcache]
    exact hexec

theorem recordFailure_denotes (hc : Quiet c) (imgPath : Path) (exc : Exc) :
    Denotes postgres importing.join (recordFailure c jobId imgPath exc)
      (BulkImportService.recordFailure c jobId imgPath exc) :=
  denotes_bind (onJob_denotes jobId _) fun _ => record_denotes hc _

theorem processOne_denotes (hc : Quiet c) (personName : String) (imgPath : Path) :
    Denotes postgres importing.join (processOne env c jobId personName imgPath)
      (BulkImportService.processOne env c jobId personName imgPath) := by
  refine denotes_tryCatch (denotes_bind (denotes_raised _) fun analysed => ?_)
    (recordFailure_denotes jobId hc imgPath)
  refine denotes_bind (resolvePerson_denotes hc personName) fun personId =>
    denotes_bind (denotes_raised _) fun thumbnail => denotes_bind (addFace_denotes hc _) fun _ =>
      onJob_denotes jobId _

theorem processBatch_denotes (henv : QuietImport env) (batch : Batch) :
    Denotes postgres importing.join (processBatch env jobId batch)
      (BulkImportService.processBatch env jobId batch) := by
  have hbody : Denotes postgres importing.join
      (tryCatch (batchBody env jobId batch) (abandonBatch jobId))
      (tryCatch (BulkImportService.batchBody env jobId batch)
        (BulkImportService.abandonBatch env jobId batch)) := by
    refine denotes_tryCatch (denotes_bind (denotes_forM fun pair _ => ?_) fun _ => ?_) fun exc => ?_
    · have hc : Quiet (BulkImportService.contextOf env batch pair.2) :=
        ⟨(henv.images pair.2).others, (henv.images pair.2).fault⟩
      exact processOne_denotes jobId hc pair.1 pair.2
    · rw [henv.commits]
      exact commit_denotes
    · rw [BulkImportService.abandonBatch, henv.rollbacks]
      exact denotes_bind rollback_denotes fun _ => onJob_denotes jobId _
  have hidle : Triple (fun _ => True)
      (tryCatch (BulkImportService.batchBody env jobId batch)
        (BulkImportService.abandonBatch env jobId batch))
      (fun st => Idle st.session) fun st => Idle st.session := by
    have hany : Triple (fun _ => True) (batch.forM fun pair =>
        BulkImportService.processOne env (BulkImportService.contextOf env batch pair.2) jobId
          pair.1 pair.2) (fun _ => True) fun _ => True :=
      triple_of_forall fun _ _ => trivial
    refine triple_tryCatch (triple_bind hany fun _ => ?_) fun exc => ?_
    · rw [henv.commits]
      exact triple_onSession idle_commit
    · rw [BulkImportService.abandonBatch, henv.rollbacks]
      refine triple_bind (triple_onSession idle_rollback) fun _ => ?_
      exact triple_of_forall fun _ hs => hs
  intro sess l
  obtain ⟨r, sess', l', heval, hexec⟩ :=
    withSession_denotes (H := importing) (fun _ _ hs => hs) hbody hidle sess l
  refine ⟨r, sess', l', heval, ?_⟩
  have hopen : exec (modify fun st => { st with session := Session.begin st.session.committed } :
      ImportM Unit) (importing.join sess l) =
        (.ok (), importing.join (.begin sess.committed) l) := rfl
  rw [BulkImportService.processBatch, exec_bind_ok hopen, henv.closes]
  cases r with
  | error e => exact exec_bind_error hexec
  | ok u => exact exec_bind_ok hexec

theorem batchLoop_denotes (henv : QuietImport env) (batch : Batch) (pairs : List Pair) :
    Denotes postgres importing.join (batchLoop env jobId batch pairs)
      (BulkImportService.batchLoop env jobId batch pairs) := by
  induction pairs generalizing batch with
  | nil =>
    rw [batchLoop, BulkImportService.batchLoop]
    split_ifs
    · exact denotes_pure ()
    · exact processBatch_denotes jobId henv batch
  | cons pair pairs ih =>
    rw [batchLoop, BulkImportService.batchLoop]
    split_ifs
    · exact denotes_bind (processBatch_denotes jobId henv _) fun _ => ih []
    · exact ih _

theorem importPairs_denotes (henv : QuietImport env) (pairs : List Pair) :
    Denotes postgres importing.join (importPairs env jobId pairs)
      (BulkImportService.importPairs env jobId pairs) :=
  denotes_bind (onJob_denotes jobId _) fun _ => denotes_bind (setCache_denotes fun _ _ => none)
    fun _ => denotes_bind (batchLoop_denotes jobId henv [] pairs) fun _ => onJob_denotes jobId _

end

end FaceRecognition.Services.Statementwise
