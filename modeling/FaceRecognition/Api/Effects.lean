import FaceRecognition.Api.Application

/-!
# What an operation does to the tables

One lemma for each way into the tables: an endpoint on the three tables keeps what its statements
keep (`handle_keeps`), an endpoint for keys leaves these alone, and the request of a third party
names the key that has admitted it (`external_ended`). An operation that is refused or raises leaves
every table as it was (`serve_failed`).
-/

namespace FaceRecognition.Api

open Relational Recognition Db UnitOfWork Services RateLimit Security

/-- The operation on the three tables that an endpoint is. -/
def Route.op (cfg : AppSettings) (user : TokenPayload) (http : Http) : Route → Option Op
  | .createPerson c payload => some (.createPerson c payload)
  | .updatePerson c personId payload => some (.updatePerson c personId payload)
  | .deletePerson c personId => some (.deletePerson c personId)
  | .registerFace c personId image =>
    some (.registerFace (serviceFor cfg user http) c personId image)
  | .enrollByName c personName image =>
    some (.enrollByName (serviceFor cfg user http) c personName image)
  | .replaceFaceImage c faceId image =>
    some (.replaceFaceImage (serviceFor cfg user http) c faceId image)
  | .deleteFace c faceId => some (.deleteFace c faceId)
  | .verifyFace c personId image => some (.verifyFace (serviceFor cfg user http) c personId image)
  | .searchFaces c image topK => some (.searchFaces (serviceFor cfg user http) c image topK)
  | .bulkImport env jobId rootPath => some (.bulkImport env jobId rootPath)
  | .read .. | .createKey .. | .revokeKey .. | .createUser .. => none

/-- An invariant of the three tables that the operation keeps. -/
structure KeptByOp (I : Database → Prop) (op : Op) : Prop where
  log : ∀ l, Records op l → KeptBy I (.insertLog l)
  sends : ∀ q, Sends op q → KeptBy I q

/-! ### Sessions with the table of keys -/

section
variable {c : Context} {w : AppWorld}

theorem onKeys_keeps {α : Type} {I : FullDatabase → Prop} {handler : RequestM Buckets α}
    (h : Keeps (fun st => Both I st.1) handler) (hw : I w.db) : I (onKeys c handler w).1.db :=
  (keeps_transact h (Session.begin w.db, w.external) (both_begin hw)).1

/-- The request raises and commits nothing, or returns and commits the work of its handler. -/
theorem onKeys_cases {α : Type} {handler : RequestM Buckets α}
    (h : Preserves (fun st => st.1.committed) handler) :
    (∃ e, (onKeys c handler w).2 = .error e) ∧ (onKeys c handler w).1.db = w.db ∨
      ∃ a u, (onKeys c handler w).2 = .ok () ∧
        exec handler (Session.begin w.db, w.external) = (.ok a, u) ∧
          (onKeys c handler w).1.db = u.1.work := by
  obtain ⟨r, st, hexec, -, hcases⟩ := exec_withDb c h (Session.begin w.db, w.external)
  have hanswer : (onKeys c handler w).2 = r.map fun _ => () :=
    congrArg (fun out => out.1.map fun _ => ()) hexec
  have hdb : (onKeys c handler w).1.db = st.1.committed :=
    congrArg (fun out => out.2.1.committed) hexec
  rw [hanswer, hdb]
  rcases hcases with ⟨⟨e, rfl⟩, hcommitted⟩ | ⟨a, u, rfl, hrun, hcommitted⟩
  · exact .inl ⟨⟨e, rfl⟩, hcommitted⟩
  · exact .inr ⟨a, u, rfl, hrun, hcommitted⟩

/-- A handler that writes to the table of keys only. -/
theorem onKeys_tables {α : Type} {handler : KeySessionM α} {db : Database}
    (h : Keeps (Both fun db' : FullDatabase => db'.toDatabase = db) handler)
    (hw : w.db.toDatabase = db) : (onKeys c (beside handler) w).1.db.toDatabase = db :=
  onKeys_keeps (I := fun db' => db'.toDatabase = db) (keeps_beside h) hw

theorem keeps_createKey {cfg : KeySettings} {c : KeyContext} {name : String}
    {createdBy : Option String} (db : Database) :
    Keeps (Both fun db' : FullDatabase => db'.toDatabase = db)
      (ApiKeyService.create cfg c name createdBy) := by
  refine keeps_bind (keeps_bind (keeps_flush fun db' db'' h hrun => ?_) fun _ => keeps_pure _)
    fun _ => keeps_pure _
  obtain ⟨-, -, rfl⟩ := insertApiKey_ok hrun
  exact h

theorem keeps_revokeKey {c : KeyContext} {keyId : UUID} (db : Database) :
    Keeps (Both fun db' : FullDatabase => db'.toDatabase = db) (ApiKeyService.revoke c keyId) := by
  refine keeps_bind keeps_query fun entity => ?_
  cases entity with
  | none => exact keeps_throw _
  | some entity =>
    refine keeps_flush fun db' db'' h hrun => ?_
    obtain rfl := Except.ok.inj hrun
    exact h

end

/-! ### Endpoints -/

section
variable {cfg : AppSettings} {user : TokenPayload} {http : Http} {w : AppWorld}

theorem withinEnrollLimit_db {I : FullDatabase → Prop}
    {handler : AppWorld → AppWorld × Except Exc Unit} (h : ∀ w, I w.db → I (handler w).1.db)
    (hw : I w.db) : I (withinEnrollLimit cfg http handler w).1.db := by
  rw [withinEnrollLimit]
  split_ifs
  · exact h _ hw
  · exact hw

/-- An endpoint on the three tables is a step of the operation. -/
theorem onDatabase_keeps {α : Type} {I : Database → Prop} {c : Context}
    {handler : Context → SessionM α} {op : Op}
    (hstep : ∀ w : World, step w op = some (request c handler w)) (hI : KeptByOp I op)
    (hw : I w.db.toDatabase) : I (onDatabase c handler w).1.db.toDatabase :=
  step_keeps hI.log hI.sends (w := ⟨w.db.toDatabase, w.jobs⟩) hw (hstep _)

variable (cfg user http w) in
/-- What the statements of an endpoint keep, the endpoint keeps. -/
theorem handle_keeps {I : Database → Prop} (route : Route)
    (hI : ∀ op, route.op cfg user http = some op → KeptByOp I op) (hw : I w.db.toDatabase) :
    I (handle cfg user http w route).1.db.toDatabase := by
  cases route with
  | read c fault what =>
    rw [show (handle cfg user http w (.read c fault what)).1.db.toDatabase = w.db.toDatabase from
      onKeys_tables keeps_query rfl]
    exact hw
  | createPerson c payload =>
    rw [handle]
    exact onDatabase_keeps (fun _ => rfl) (hI _ rfl) hw
  | updatePerson c personId payload =>
    rw [handle]
    exact onDatabase_keeps (fun _ => rfl) (hI _ rfl) hw
  | deletePerson c personId =>
    rw [handle]
    exact onDatabase_keeps (fun _ => rfl) (hI _ rfl) hw
  | registerFace c personId image =>
    rw [handle]
    exact onDatabase_keeps (fun _ => rfl) (hI _ rfl) hw
  | enrollByName c personName image =>
    exact withinEnrollLimit_db (I := fun db => I db.toDatabase)
      (fun w hw => onDatabase_keeps (fun _ => rfl) (hI _ rfl) hw) hw
  | replaceFaceImage c faceId image =>
    rw [handle]
    exact onDatabase_keeps (fun _ => rfl) (hI _ rfl) hw
  | deleteFace c faceId =>
    rw [handle]
    exact onDatabase_keeps (fun _ => rfl) (hI _ rfl) hw
  | verifyFace c personId image =>
    rw [handle]
    exact onDatabase_keeps (fun _ => rfl) (hI _ rfl) hw
  | searchFaces c image topK =>
    rw [handle]
    exact onDatabase_keeps (fun _ => rfl) (hI _ rfl) hw
  | bulkImport env jobId rootPath =>
    exact bulkImport_keeps (w := ⟨w.db.toDatabase, w.jobs⟩) (hI _ rfl).log (hI _ rfl).sends hw
  | createKey c name =>
    rw [show (handle cfg user http w (.createKey c name)).1.db.toDatabase = w.db.toDatabase from
      onKeys_tables (keeps_createKey _) rfl]
    exact hw
  | revokeKey c keyId =>
    rw [show (handle cfg user http w (.revokeKey c keyId)).1.db.toDatabase = w.db.toDatabase from
      onKeys_tables (keeps_revokeKey _) rfl]
    exact hw
  | createUser c payload => exact hw

end

/-! ### The request of a third party -/

/-- The recognition of a key's request is that of `external_search` under the name of the key. -/
def keyService (cfg : AppSettings) (http : Http) (k : ApiKey) : RecognitionService :=
  { cfg.service with actor := some ("apikey:" ++ k.name), clientIp := http.client }

/-- What a third party's request commits: nothing, or the use of the key that has admitted it and
the work of its identification. -/
inductive ExternalEnded (cfg : AppSettings) (c : KeyContext) (http : Http) (image : Upload)
    (key : Option String) (db : FullDatabase) : Except Exc Unit → FullDatabase → Prop
  | failed (e : Exc) : ExternalEnded cfg c http image key db (.error e) db
  | identified (k : ApiKey) (hk : k ∈ db.apiKeys.rows) (hactive : k.isActive = true)
    (hhash : k.keyHash = cfg.keys.hashApiKey (key.getD "")) (a : ExternalSearchResponse)
    (s : Session Database)
    (hrun : exec (externalSearch (keyService cfg http k) c.toContext.alone image)
      (Session.begin db.toDatabase) = (.ok a, s)) :
    ExternalEnded cfg c http image key db (.ok ())
      { toDatabase := s.work, apiKeys := db.apiKeys.put (used c k) }

theorem external_ended (cfg : AppSettings) (w : AppWorld) (c : KeyContext) (http : Http)
    (image : Upload) (key : Option String) :
    ∃ r, (serve cfg w (.external c http image key)).2 = .identified r ∧ ExternalEnded cfg c http
      image key w.db r (serve cfg w (.external c http image key)).1.db := by
  rcases onKeys_cases (w := w) (c := c.toContext) (preserves_externalSearchWithKey
      inProcessKeyRateLimiter cfg.keys { c with toContext := c.toContext.alone }
      { cfg.service with clientIp := http.client } image key) with
    ⟨⟨e, hr⟩, hdb⟩ | ⟨a, u, hr, hrun, hdb⟩
  · refine ⟨.error e, congrArg AppAnswer.identified hr, ?_⟩
    rw [show (serve cfg w (.external c http image key)).1.db = w.db from hdb]
    exact .failed e
  · refine ⟨.ok (), congrArg AppAnswer.identified hr, ?_⟩
    rw [show (serve cfg w (.external c http image key)).1.db = u.1.work from hdb]
    obtain ⟨k, v, hadmit, hsearch⟩ := exec_bind_eq_ok.1 hrun
    obtain ⟨hmem, hactive, hhash, hv⟩ := getApiKey_ok hadmit
    obtain ⟨hpart, -⟩ := exec_beside_eq_ok.1 hsearch
    obtain ⟨t, hidentify, hu⟩ := (exec_onPart_eq_ok tables).1 hpart
    rw [hv] at hidentify hu
    rw [hu]
    exact .identified k hmem hactive hhash a t hidentify

/-- What the row of an identification keeps, the identification keeps. -/
theorem externalSearch_keeps {I : Database → Prop} {S : RecognitionService} {c : Context}
    {image : Upload} {db : Database} {a : ExternalSearchResponse} {s : Session Database}
    (hrun : exec (externalSearch S c.alone image) (Session.begin db) = (.ok a, s))
    (hlog : ∀ l, S.Signed l → KeptBy I (.insertLog l)) (hdb : I db) : I s.work := by
  have hkeeps : Keeps (Both I) (lift (readImage image) >>= S.identifyTop1 c.alone) :=
    keeps_upload (RecognitionService.keeps_identifyTop1 (c := c.alone) rfl hlog)
  have hwork := (hkeeps (Session.begin db) (both_begin hdb)).2
  rwa [show exec (lift (readImage image) >>= S.identifyTop1 c.alone) (Session.begin db) =
    (.ok a, s) from hrun] at hwork

theorem external_keeps {cfg : AppSettings} {I : Database → Prop} {c : KeyContext} {http : Http}
    {image : Upload} {key : Option String} {db db' : FullDatabase} {r : Except Exc Unit}
    (h : ExternalEnded cfg c http image key db r db')
    (hlog : ∀ l, KeptBy I (.insertLog l)) (hdb : I db.toDatabase) : I db'.toDatabase := by
  cases h with
  | failed e => exact hdb
  | identified k hk _ _ a s hrun => exact externalSearch_keeps hrun (fun l _ => hlog l) hdb

/-! ### Operations that fail -/

/-- What a worker shares with the others, and its registry of jobs. -/
def AppWorld.tables (w : AppWorld) : Users × FullDatabase × InProcessJobStore :=
  (w.users, w.db, w.jobs)

/-- The operation is refused or raises. -/
def AppAnswer.failed : AppAnswer → Bool
  | .token (.error _) | .bootstrapped (.error _) | .served _ (.error _) | .identified (.error _)
  | .refused _ => true
  | .token (.ok _) | .bootstrapped (.ok _) | .served _ (.ok _) | .identified (.ok _) => false

section
variable {c : Context}

theorem preserves_raiseIfTaken (externalId : Option String) :
    Preserves Session.committed (raiseIfTaken c externalId) := by
  cases externalId with
  | none => exact preserves_pure _
  | some externalId =>
    rw [raiseIfTaken]
    split_ifs
    · exact preserves_pure _
    · refine preserves_bind preserves_query fun taken => ?_
      cases taken with
      | none => exact preserves_pure _
      | some person => exact preserves_throw _

theorem preserves_createPerson (payload : PersonCreate) :
    Preserves Session.committed (createPerson c payload) :=
  preserves_bind (preserves_raiseIfTaken _) fun _ =>
    preserves_bind (preserves_bind preserves_flush fun _ => preserves_pure _) fun _ =>
      preserves_lift _

theorem preserves_updatePerson (personId : UUID) (payload : PersonUpdate) :
    Preserves Session.committed (updatePerson c personId payload) := by
  refine preserves_bind preserves_query fun person => ?_
  cases person with
  | none => exact preserves_throw _
  | some person =>
    refine preserves_bind (preserves_raiseIfTaken _) fun _ => preserves_bind ?_ fun _ =>
      preserves_bind preserves_query fun person => ?_
    · rw [flushPerson]
      split_ifs
      · exact preserves_pure _
      · exact preserves_flush
    · cases person with
      | none => exact preserves_throw _
      | some person => exact preserves_lift _

theorem preserves_deletePerson (personId : UUID) :
    Preserves Session.committed (deletePerson c personId) := by
  refine preserves_bind preserves_query fun person => ?_
  cases person with
  | none => exact preserves_throw _
  | some person => exact preserves_flush

theorem preserves_deleteFace (faceId : UUID) :
    Preserves Session.committed (deleteFace c faceId) := by
  refine preserves_bind preserves_query fun face => ?_
  cases face with
  | none => exact preserves_throw _
  | some face => exact preserves_flush

end

section
variable {cfg : AppSettings} {user : TokenPayload} {http : Http} {w : AppWorld}

theorem tables_of_db {w' : AppWorld} (husers : w'.users = w.users) (hdb : w'.db = w.db)
    (hjobs : w'.jobs = w.jobs) : w'.tables = w.tables := by
  rw [AppWorld.tables, husers, hdb, hjobs]
  rfl

theorem onDatabase_failed {α : Type} {c : Context} {handler : Context → SessionM α} {e : Exc}
    (hkept : Preserves Session.committed (handler c.alone))
    (h : (onDatabase c handler w).2 = .error e) :
    (onDatabase c handler w).1.tables = w.tables := by
  have hended : Ended (handler c.alone) w.db.toDatabase
      (exec (getDb c.alone (handler c.alone)) (Session.begin w.db.toDatabase)).1
      (exec (getDb c.alone (handler c.alone)) (Session.begin w.db.toDatabase)).2.committed :=
    ended_transact hkept
  refine tables_of_db rfl ?_ rfl
  show ({ w.db with toDatabase := _ } : FullDatabase) = w.db
  rw [onDatabase] at h
  dsimp only at h
  generalize (exec (getDb c.alone (handler c.alone)) (Session.begin w.db.toDatabase)).1 = r at *
  generalize (exec (getDb c.alone (handler c.alone))
    (Session.begin w.db.toDatabase)).2.committed = db at *
  cases hended with
  | failed _ => rfl
  | returned a s hrun => cases h

theorem onKeys_failed {α : Type} {c : Context} {handler : RequestM Buckets α} {e : Exc}
    (hkept : Preserves (fun st => st.1.committed) handler)
    (h : (onKeys c handler w).2 = .error e) : (onKeys c handler w).1.tables = w.tables := by
  rcases onKeys_cases hkept with ⟨-, hdb⟩ | ⟨a, u, hok, -, -⟩
  · exact tables_of_db rfl hdb rfl
  · rw [hok] at h
    cases h

/-- A session on the table of users. -/
theorem onUsers_failed {α : Type} {m handler : UserSessionM α} {e : Exc}
    (hended : Ended handler w.users (exec m (Session.begin w.users)).1
      (exec m (Session.begin w.users)).2.committed) (h : (onUsers m w).2 = .error e) :
    (onUsers m w).1.tables = w.tables := by
  refine tables_of_db ?_ rfl rfl
  rw [onUsers] at h ⊢
  dsimp only at h ⊢
  generalize (exec m (Session.begin w.users)).1 = r at *
  generalize (exec m (Session.begin w.users)).2.committed = users at *
  cases hended with
  | failed _ => rfl
  | returned a s hrun => cases h

theorem withinEnrollLimit_failed {handler : AppWorld → AppWorld × Except Exc Unit} {e : Exc}
    (hfailed : ∀ w e, (handler w).2 = .error e → (handler w).1.tables = w.tables)
    (h : (withinEnrollLimit cfg http handler w).2 = .error e) :
    (withinEnrollLimit cfg http handler w).1.tables = w.tables := by
  rw [withinEnrollLimit] at h ⊢
  split_ifs at h ⊢
  · exact hfailed _ e h
  · rfl

theorem handle_failed {route : Route} {e : Exc} (h : (handle cfg user http w route).2 = .error e) :
    (handle cfg user http w route).1.tables = w.tables := by
  have hupload : ∀ {α : Type} {image : Upload} {k : Bytes → SessionM α},
      (∀ data, Preserves Session.committed (k data)) →
        Preserves Session.committed (lift (readImage image) >>= k) := fun hk =>
    preserves_bind (preserves_lift _) hk
  cases route with
  | read c fault what => exact onKeys_failed (preserves_beside preserves_query) h
  | createPerson c payload =>
    rw [handle] at h ⊢
    exact onDatabase_failed (preserves_createPerson payload) h
  | updatePerson c personId payload =>
    rw [handle] at h ⊢
    exact onDatabase_failed (preserves_updatePerson personId payload) h
  | deletePerson c personId =>
    rw [handle] at h ⊢
    exact onDatabase_failed (preserves_deletePerson personId) h
  | registerFace c personId image =>
    rw [handle] at h ⊢
    exact onDatabase_failed (hupload fun data =>
      RecognitionService.preserves_register _ _ personId data image.filename) h
  | enrollByName c personName image =>
    exact withinEnrollLimit_failed (fun w e => onDatabase_failed (hupload fun data =>
      RecognitionService.preserves_registerByName _ _ personName data image.filename)) h
  | replaceFaceImage c faceId image =>
    rw [handle] at h ⊢
    exact onDatabase_failed (hupload fun data =>
      RecognitionService.preserves_replaceFaceImage _ _ faceId data image.filename) h
  | deleteFace c faceId =>
    rw [handle] at h ⊢
    exact onDatabase_failed (preserves_deleteFace faceId) h
  | verifyFace c personId image =>
    rw [handle] at h ⊢
    exact onDatabase_failed (hupload fun data =>
      RecognitionService.preserves_verify _ _ personId data) h
  | searchFaces c image topK =>
    rw [handle] at h ⊢
    exact onDatabase_failed (hupload fun data =>
      RecognitionService.preserves_search _ _ data topK) h
  | bulkImport env jobId rootPath => cases h
  | createKey c name =>
    exact onKeys_failed (preserves_beside (preserves_bind
      (preserves_bind preserves_flush fun _ => preserves_pure _) fun _ => preserves_pure _)) h
  | revokeKey c keyId =>
    refine onKeys_failed (preserves_beside (preserves_bind preserves_query fun entity => ?_)) h
    cases entity with
    | none => exact preserves_throw _
    | some entity => exact preserves_flush
  | createUser c payload =>
    have hraised : (onUsers (withUsers c (AuthService.createUser cfg.auth c payload)) w).2.map
        (fun _ => ()) = .error e := h
    cases hr : (onUsers (withUsers c (AuthService.createUser cfg.auth c payload)) w).2 with
    | error e' =>
      exact onUsers_failed (ended_withUsers _ _ (AuthService.preserves_createUser _ _ payload)) hr
    | ok u =>
      rw [hr] at hraised
      cases hraised

end

/-- **An operation that is refused or raises leaves every table as it was.** The limiters do count
it. -/
theorem serve_failed (cfg : AppSettings) (w : AppWorld) (op : AppOp)
    (h : (serve cfg w op).2.failed = true) : (serve cfg w op).1.tables = w.tables := by
  have hbootstrap : ∀ {c : UserContext} {username password : String},
      (AppAnswer.bootstrapped (onUsers (bootstrap cfg.auth c username password) w).2).failed →
        (onUsers (bootstrap cfg.auth c username password) w).1.tables = w.tables := by
    intro c username password h
    cases hr : (onUsers (bootstrap cfg.auth c username password) w).2 with
    | error e => exact onUsers_failed (ended_bootstrap ..) hr
    | ok u =>
      rw [hr] at h
      cases h
  cases op with
  | login c username password =>
    have hfailed : (AppAnswer.token (onUsers
        (withUsers c (AuthService.authenticate cfg.auth c username password)) w).2).failed := h
    cases hr : (onUsers
        (withUsers c (AuthService.authenticate cfg.auth c username password)) w).2 with
    | error e =>
      exact onUsers_failed
        (ended_withUsers _ _ (AuthService.preserves_authenticate _ _ username password)) hr
    | ok t =>
      rw [hr] at hfailed
      cases hfailed
  | startup c username password =>
    rw [serve] at h ⊢
    split_ifs at h ⊢
    · rfl
    · exact hbootstrap h
  | createAdmin c username password => exact hbootstrap h
  | request http route =>
    rw [serve] at h ⊢
    generalize guard cfg.auth.toTokenSettings route.minimum http = admitted at h ⊢
    cases admitted with
    | error refusal => rfl
    | ok user =>
      have hfailed : (AppAnswer.served user (handle cfg user http w route).2).failed = true := h
      cases hr : (handle cfg user http w route).2 with
      | error e => exact handle_failed hr
      | ok u =>
        rw [hr] at hfailed
        cases hfailed
  | external c http image key =>
    obtain ⟨r, hr, hended⟩ := external_ended cfg w c http image key
    rw [hr] at h
    refine tables_of_db rfl ?_ rfl
    generalize (serve cfg w (.external c http image key)).1.db = db at hended ⊢
    cases hended with
    | failed e => rfl
    | identified k hk hactive hhash a s hrun => cases h

/-- A worker with an account, and Alice with her face. -/
def enrolledWorker : AppWorld :=
  { newWorker with
    users := (serve plainApp newWorker (.createAdmin (userCall 0 0) "root" "root's own")).1.users
    db := ⟨aliceEnrolled, Table.empty⟩ }

/-- An operator deletes Alice, and with her the face. -/
def deleteAlice (commitFault : Option Exc) : AppOp :=
  .request ⟨some ("Bearer " ++ plainJwt.encode ⟨"clerk", "operator", 124⟩), none, 70, 70⟩
    (.deletePerson { atNoon with fault := fun site => if site = .commit then commitFault else none }
      1)

theorem serve_failed_at_commit :
    (serve plainApp enrolledWorker (deleteAlice none)).1.db.persons.rows = [] ∧
      (serve plainApp enrolledWorker (deleteAlice (some BulkImportService.connectionLost))).1.tables =
        enrolledWorker.tables := by
  have hdeletes : (serve plainApp enrolledWorker (deleteAlice none)).1.db.persons.rows.length = 0 := by
    decide +kernel
  exact ⟨List.length_eq_zero_iff.1 hdeletes,
    serve_failed plainApp enrolledWorker _ (by decide +kernel)⟩

end FaceRecognition.Api
