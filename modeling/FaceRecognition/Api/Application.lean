import FaceRecognition.Api.ApiKeys
import FaceRecognition.Api.Guards
import FaceRecognition.Api.Runs
import FaceRecognition.Api.Stats
import FaceRecognition.Db.Listing
import FaceRecognition.Lib.Machine

/-!
# The application

All endpoints behind their guards, on the state of one worker: the tables, the registry of import
jobs and the buckets of the two limiters. `serve` answers a login, the start of a worker, a request
and a third party's request, one after the other. A refused request does not reach its handler. The
requests are those that the middleware (the global limiter, CORS) lets through.
-/

namespace FaceRecognition.Api

open Relational Paging Db UnitOfWork Services RateLimit Security

structure AppSettings where
  auth : AuthSettings
  keys : KeySettings
  /-- `ENROLL_RATE_LIMIT` -/
  enrollRateLimit : String
  /-- The pipeline and the settings of recognition. -/
  service : RecognitionService

structure AppWorld where
  users : Users
  db : FullDatabase
  jobs : InProcessJobStore
  /-- `external_rate_limiter` -/
  external : Buckets
  /-- `enroll_rate_limiter` -/
  enrolment : Buckets

/-! ### The endpoints that read -/

inductive Reading where
  | listFaces (order : Arrangement FaceRepository.createdAt) (limit offset : ℕ)
    (personId : Option UUID)
  | listPersons (order : Arrangement (unordered (ρ := Person))) (limit offset : ℕ)
  | getPerson (personId : UUID)
  | getStats
  | getLogs (order : Arrangement RecognitionLog.createdAt) (limit : ℕ)
  | listKeys (order : Arrangement ApiKey.createdAt)
  | importStatus (jobId : UUID)

inductive Page where
  | faces (totalCount : ℕ) (rows : List (Face × String))
  | persons (rows : List Person)
  | person (row : Person)
  | stats (r : Stats.StatsResponse)
  | logs (rows : List RecognitionLog)
  | keys (rows : List ApiKey)
  | job (job : ImportJob)

def jobNotFound (jobId : UUID) : Exc :=
  ⟨.entityNotFoundError, "Import job " ++ toString jobId ++ " not found", []⟩

def Reading.page (db : FullDatabase) (jobs : InProcessJobStore) : Reading → Except Exc Page
  | .listFaces order limit offset personId =>
    .ok (.faces (FaceRepository.count personId db.toDatabase)
      (FaceRepository.listWithPerson order limit offset personId db.toDatabase))
  | .listPersons order limit offset =>
    .ok (.persons (PersonRepository.list order limit offset db.toDatabase))
  | .getPerson personId =>
    match db.persons.get? personId with
    | none => .error (RecognitionService.personNotFound personId)
    | some person => .ok (.person person)
  | .getStats => .ok (.stats (Stats.statsResponse (PersonRepository.count db.toDatabase)
      (FaceRepository.count none db.toDatabase) (RecognitionLogRepository.count db.toDatabase)
      (RecognitionLogRepository.successCount db.toDatabase)))
  | .getLogs order limit => .ok (.logs ((order.arrange db.logs.rows).take limit))
  | .listKeys order => .ok (.keys (order.arrange db.apiKeys.rows))
  | .importStatus jobId =>
    match jobs.get? jobId with
    | none => .error (jobNotFound jobId)
    | some job => .ok (.job job)

/-! ### The endpoints -/

inductive Route where
  | read (c : Context) (fault : Option Exc) (what : Reading)
  | createPerson (c : Context) (payload : PersonCreate)
  | updatePerson (c : Context) (personId : UUID) (payload : PersonUpdate)
  | deletePerson (c : Context) (personId : UUID)
  | registerFace (c : Context) (personId : UUID) (image : Upload)
  | enrollByName (c : Context) (personName : String) (image : Upload)
  | replaceFaceImage (c : Context) (faceId : UUID) (image : Upload)
  | deleteFace (c : Context) (faceId : UUID)
  | verifyFace (c : Context) (personId : UUID) (image : Upload)
  | searchFaces (c : Context) (image : Upload) (topK : Option ℤ)
  | bulkImport (env : ImportEnv) (jobId : UUID) (rootPath : Path)
  | createKey (c : KeyContext) (name : String)
  | revokeKey (c : KeyContext) (keyId : UUID)
  | createUser (c : UserContext) (payload : UserCreate)

/-- The role that the guard of the endpoint asks for. -/
def Route.minimum : Route → Role
  | .read _ _ what =>
    match what with
    | .listFaces .. | .listPersons .. | .getPerson _ | .getStats | .getLogs .. => .viewer
    | .listKeys _ | .importStatus _ => .admin
  | .createPerson .. | .updatePerson .. | .deletePerson .. => .operator
  | .registerFace .. | .enrollByName .. | .replaceFaceImage .. | .deleteFace .. => .operator
  | .verifyFace .. | .searchFaces .. => .viewer
  | .bulkImport .. => .admin
  | .createKey .. | .revokeKey .. => .admin
  | .createUser .. => .admin

/-- `get_recognition_service` -/
def serviceFor (cfg : AppSettings) (user : TokenPayload) (http : Http) : RecognitionService :=
  { cfg.service with actor := some user.sub, clientIp := http.client }

/-- `get_remote_address` -/
def remoteAddress (http : Http) : String :=
  if http.client.getD "" = "" then "127.0.0.1" else http.client.getD ""

def enrollLimitExceeded (spec : String) : Exc :=
  ⟨.rateLimitExceededError, "Enroll rate limit exceeded (" ++ spec ++ ")", []⟩

/-- A handler that has nothing to do with keys. -/
def onDatabase {α : Type} (c : Context) (handler : Context → SessionM α) (w : AppWorld) :
    AppWorld × Except Exc Unit :=
  let out := exec (getDb c.alone (handler c.alone)) (Session.begin w.db.toDatabase)
  ({ w with db := { w.db with toDatabase := out.2.committed } }, out.1.map fun _ => ())

def onKeys {α : Type} (c : Context) (handler : RequestM Buckets α) (w : AppWorld) :
    AppWorld × Except Exc Unit :=
  let out := exec (withDb c handler) (Session.begin w.db, w.external)
  ({ w with db := out.2.1.committed, external := out.2.2 }, out.1.map fun _ => ())

def onUsers {α : Type} (session : UserSessionM α) (w : AppWorld) : AppWorld × Except Exc α :=
  let out := exec session (Session.begin w.users)
  ({ w with users := out.2.committed }, out.1)

/-- `enforce_enroll_rate_limit`, and then the handler. -/
def withinEnrollLimit (cfg : AppSettings) (http : Http)
    (handler : AppWorld → AppWorld × Except Exc Unit) (w : AppWorld) : AppWorld × Except Exc Unit :=
  let rate := parseRate cfg.enrollRateLimit
  let allowed := InProcessKeyRateLimiter.allow w.enrolment (remoteAddress http) rate.1 rate.2
    http.monotonic
  let w := { w with enrolment := allowed.2 }
  if allowed.1 then handler w else (w, .error (enrollLimitExceeded cfg.enrollRateLimit))

section
variable (cfg : AppSettings)

/-- The handler of an endpoint, for the user that has passed its guard. -/
def handle (user : TokenPayload) (http : Http) (w : AppWorld) : Route → AppWorld × Except Exc Unit
  | .read c fault what =>
    onKeys c (beside (query pendingRollback fault fun db => what.page db w.jobs)) w
  | .createPerson c payload => onDatabase c (fun c => createPerson c payload) w
  | .updatePerson c personId payload =>
    onDatabase c (fun c => updatePerson c personId payload) w
  | .deletePerson c personId => onDatabase c (fun c => deletePerson c personId) w
  | .registerFace c personId image =>
    onDatabase c (fun c => registerFace (serviceFor cfg user http) c personId image) w
  | .enrollByName c personName image =>
    withinEnrollLimit cfg http
      (onDatabase c fun c => enrollByName (serviceFor cfg user http) c personName image) w
  | .replaceFaceImage c faceId image =>
    onDatabase c (fun c => replaceFaceImage (serviceFor cfg user http) c faceId image) w
  | .deleteFace c faceId => onDatabase c (fun c => deleteFace c faceId) w
  | .verifyFace c personId image =>
    onDatabase c (fun c => verifyFace (serviceFor cfg user http) c personId image) w
  | .searchFaces c image topK =>
    onDatabase c (fun c => searchFaces (serviceFor cfg user http) c image topK) w
  | .bulkImport env jobId rootPath =>
    let after := bulkImport env jobId rootPath ⟨w.db.toDatabase, w.jobs⟩
    ({ w with db := { w.db with toDatabase := after.db }, jobs := after.jobs }, .ok ())
  | .createKey c name =>
    onKeys c.toContext (beside (ApiKeyService.create cfg.keys c name (some user.sub))) w
  | .revokeKey c keyId => onKeys c.toContext (beside (ApiKeyService.revoke c keyId)) w
  | .createUser c payload =>
    let (w, r) := onUsers (withUsers c (AuthService.createUser cfg.auth c payload)) w
    (w, r.map fun _ => ())

inductive AppOp where
  | login (c : UserContext) (username password : String)
  /-- The start of a worker, with `BOOTSTRAP_ADMIN_USER` and `BOOTSTRAP_ADMIN_PASSWORD`. -/
  | startup (c : UserContext) (username password : Option String)
  /-- `scripts/create_admin.py` -/
  | createAdmin (c : UserContext) (username password : String)
  | request (http : Http) (route : Route)
  | external (c : KeyContext) (http : Http) (image : Upload) (key : Option String)

/-- Of a request that has passed its guard, the user and how the handler has ended. -/
inductive AppAnswer where
  | token (r : Except Exc Token)
  | bootstrapped (r : Except Exc Unit)
  | refused (refusal : Refusal)
  | served (user : TokenPayload) (r : Except Exc Unit)
  | identified (r : Except Exc Unit)
  deriving DecidableEq

def serve (w : AppWorld) : AppOp → AppWorld × AppAnswer
  | .login c username password =>
    let (w, r) := onUsers (withUsers c (AuthService.authenticate cfg.auth c username password)) w
    (w, .token r)
  | .startup c username password =>
    if username.getD "" = "" ∨ password.getD "" = "" then (w, .bootstrapped (.ok ()))
    else
      let (w, r) := onUsers (bootstrap cfg.auth c (username.getD "") (password.getD "")) w
      (w, .bootstrapped r)
  | .createAdmin c username password =>
    let (w, r) := onUsers (bootstrap cfg.auth c username password) w
    (w, .bootstrapped r)
  | .request http route =>
    match guard cfg.auth.toTokenSettings route.minimum http with
    | .error refusal => (w, .refused refusal)
    | .ok user =>
      let (w, r) := handle cfg user http w route
      (w, .served user r)
  | .external c http image key =>
    let (w, r) := onKeys c.toContext (externalSearchWithKey inProcessKeyRateLimiter cfg.keys
      { c with toContext := c.toContext.alone } { cfg.service with clientIp := http.client } image
      key) w
    (w, .identified r)

end

/-! ### A worker that has just started -/

def plainApp : AppSettings where
  auth := { jwt := plainJwt, accessTokenExpireMinutes := 1, passwords := plainPasswords }
  keys := ⟨id, "60/minute"⟩
  enrollRateLimit := "3000/minute"
  service := RecognitionService.oneFaceService

def newWorker : AppWorld :=
  ⟨Table.empty, ⟨Database.empty, Table.empty⟩, Table.empty, fun _ => none, fun _ => none⟩

def userCall (id : UUID) (utcNow : Time) : UserContext where
  now := utcNow
  personId := 0
  faceId := 0
  logId := 0
  userId := id
  salt := 0
  utcNow := utcNow

theorem plainApp_signs : plainApp.auth.jwt.Signs := plainJwt_signs

theorem plainApp_bcrypt : plainApp.auth.passwords.Bcrypt := plainPasswords_bcrypt

theorem newWorker_users : newWorker.users = Table.empty := rfl

end FaceRecognition.Api
