import FaceRecognition.Api.Faces
import FaceRecognition.Db.ApiKeys
import FaceRecognition.RateLimit.Agreement
import FaceRecognition.Services.Audit

/-!
# API keys

Creating and revoking keys, and the admission of third parties by `get_api_key`. A request runs on a
session of all four tables, with the limiter of the process beside it.
-/

namespace FaceRecognition.Api

open Relational Db UnitOfWork Services RateLimit

/-- `KeyRateLimiter`: a limiter with its own state, asked at a reading of its clock. -/
structure KeyRateLimiter (M : Type) where
  allow : M → String → ℤ → ℚ → ℚ → Bool × M

def inProcessKeyRateLimiter : KeyRateLimiter Buckets where
  allow := InProcessKeyRateLimiter.allow

/-- What the code reads from its environment. -/
structure KeySettings where
  /-- `hashlib.sha256(raw.encode("utf-8")).hexdigest()` -/
  hashApiKey : String → String
  /-- `EXTERNAL_RATE_LIMIT` -/
  externalRateLimit : String

variable {M : Type}

abbrev RequestM (M : Type) := Action Exc (Session FullDatabase × M)

/-- The handler within `get_db`. -/
def withDb {α : Type} (c : Context) (handler : RequestM M α) : RequestM M α :=
  transact pendingRollback (c.fault .commit) (c.fault .rollback) handler

theorem exec_withDb {α : Type} (c : Context) {handler : RequestM M α}
    (h : Preserves (fun st => st.1.committed) handler) (st : Session FullDatabase × M) :
    ∃ r st', exec (withDb c handler) st = (r, st') ∧ st'.2 = (exec handler st).2.2 ∧
      ((∃ e, r = .error e) ∧ st'.1.committed = st.1.committed ∨
        ∃ a u, r = .ok a ∧ exec handler st = (.ok a, u) ∧ st'.1.committed = u.1.work) :=
  exec_transact _ _ _ h st

def onTables {α : Type} (m : SessionM α) : RequestM M α := beside (onPart tables m)

/-- A request that has nothing to do with keys is one of `get_db` on the other tables. -/
theorem simulates_withDb {α : Type} (c : Context) (handler : SessionM α) :
    Simulates (tables.seen (M := M)) (withDb c (onTables handler)) (getDb c handler) :=
  simulates_transact pendingRollback (c.fault .commit) (c.fault .rollback) handler

/-! ### ApiKeyService -/

/-- `API_KEY_PREFIX` -/
def apiKeyPrefix : String := "frk_"

structure GeneratedKey where
  raw : String
  keyHash : String
  displayPrefix : String
  deriving DecidableEq, Repr

def generateApiKey (cfg : KeySettings) (token : String) : GeneratedKey :=
  let raw := apiKeyPrefix ++ token
  ⟨raw, cfg.hashApiKey raw, String.ofList (raw.toList.take 12)⟩

structure ApiKeyCreated where
  id : UUID
  name : String
  displayPrefix : String
  isActive : Bool
  createdBy : Option String
  lastUsedAt : Option Time
  createdAt : Time
  key : String
  deriving DecidableEq, Repr

namespace ApiKeyService

variable (cfg : KeySettings) (c : KeyContext)

def newApiKey (name : String) (createdBy : Option String) : ApiKey where
  id := c.keyId
  name := name
  keyHash := (generateApiKey cfg c.token).keyHash
  displayPrefix := (generateApiKey cfg c.token).displayPrefix
  isActive := true
  createdBy := createdBy
  lastUsedAt := none
  createdAt := c.now
  updatedAt := c.now

def create (name : String) (createdBy : Option String) : KeySessionM ApiKeyCreated := do
  let entity ← ApiKeyRepository.add c (newApiKey cfg c name createdBy)
  return {
    id := entity.id
    name := entity.name
    displayPrefix := entity.displayPrefix
    isActive := entity.isActive
    createdBy := entity.createdBy
    lastUsedAt := entity.lastUsedAt
    createdAt := entity.createdAt
    key := (generateApiKey cfg c.token).raw }

def keyNotFound (id : UUID) : Exc :=
  ⟨.entityNotFoundError, "API key " ++ toString id ++ " not found", []⟩

def revoke (keyId : UUID) : KeySessionM Unit := do
  match ← ApiKeyRepository.get c keyId with
  | none => throw (keyNotFound keyId)
  | some entity => ApiKeyRepository.delete c entity

end ApiKeyService

/-! ### Admission -/

def missingApiKey : Exc := ⟨.authenticationError, "Missing X-API-Key header", []⟩

def invalidApiKey : Exc := ⟨.authenticationError, "Invalid or revoked API key", []⟩

def rateLimitExceeded (spec : String) : Exc :=
  ⟨.rateLimitExceededError, "API key rate limit exceeded (" ++ spec ++ ")", []⟩

section
variable (R : KeyRateLimiter M) (cfg : KeySettings) (c : KeyContext)

/-- `external_rate_limiter.allow` -/
def allow (key : String) (limit : ℤ) (window : ℚ) : RequestM M Bool := fun st =>
  let (granted, m) := R.allow st.2 key limit window c.monotonic
  (.ok granted, (st.1, m))

/-- `get_api_key`, for a header that is there or not. -/
def getApiKey (key : Option String) : RequestM M ApiKey := do
  let key := key.getD ""
  if key = "" then throw missingApiKey
  else
    match ← beside (ApiKeyRepository.getActiveByHash c (cfg.hashApiKey key)) with
    | none => throw invalidApiKey
    | some entity =>
      let (limit, window) := parseRate cfg.externalRateLimit
      if ← allow R c (toString entity.id) limit window then
        beside (ApiKeyRepository.touch c entity.id c.utcNow)
        return entity
      else throw (rateLimitExceeded cfg.externalRateLimit)

/-- `POST /external/search` -/
def externalSearchWithKey (S : RecognitionService) (image : Upload) (key : Option String) :
    RequestM M ExternalSearchResponse := do
  let apiKey ← getApiKey R cfg c key
  onTables (externalSearch { S with actor := some ("apikey:" ++ apiKey.name) } c.toContext image)

end

/-! ### What an admission has done -/

section
variable {R : KeyRateLimiter M} {cfg : KeySettings} {c : KeyContext}

theorem exec_allow (key : String) (limit : ℤ) (window : ℚ) (st : Session FullDatabase × M) :
    exec (allow R c key limit window) st = (.ok (R.allow st.2 key limit window c.monotonic).1,
      (st.1, (R.allow st.2 key limit window c.monotonic).2)) := rfl

theorem preserves_getApiKey (key : Option String) :
    Preserves (fun st => st.1.committed) (getApiKey R cfg c key) := by
  rw [getApiKey]
  dsimp only
  split_ifs
  · exact preserves_throw _
  · refine preserves_bind (preserves_beside preserves_query) fun entity => ?_
    cases entity with
    | none => exact preserves_throw _
    | some entity =>
      refine preserves_bind (fun _ => rfl) fun granted => ?_
      cases granted with
      | true =>
        exact preserves_bind (preserves_beside preserves_flush) fun _ => preserves_pure _
      | false => exact preserves_throw _

theorem preserves_onTables {α : Type} {m : SessionM α} (h : Preserves Session.committed m) :
    Preserves (fun st : Session FullDatabase × M => st.1.committed) (onTables m) :=
  preserves_beside (preserves_onPart h)

variable (R cfg c) in
theorem preserves_externalSearchWithKey (S : RecognitionService) (image : Upload)
    (key : Option String) :
    Preserves (fun st => st.1.committed) (externalSearchWithKey R cfg c S image key) :=
  preserves_bind (preserves_getApiKey key) fun _ => preserves_onTables
    (preserves_bind (preserves_lift _) fun data =>
      RecognitionService.preserves_identifyTop1 _ c.toContext data)

/-- The row of the key, after its use. -/
def used (c : KeyContext) (k : ApiKey) : ApiKey :=
  { k with lastUsedAt := some c.utcNow, updatedAt := c.now }

/-- A request is admitted by an active key of the hash, which is touched. -/
theorem getApiKey_ok {key : Option String} {k : ApiKey} {st st' : Session FullDatabase × M}
    (h : exec (getApiKey R cfg c key) st = (.ok k, st')) :
    k ∈ st.1.work.apiKeys.rows ∧ k.isActive = true ∧ k.keyHash = cfg.hashApiKey (key.getD "") ∧
      st'.1 = { st.1 with
        work := { st.1.work with apiKeys := st.1.work.apiKeys.put (used c k) } } := by
  rw [getApiKey] at h
  dsimp only at h
  split_ifs at h
  · simp [Prod.ext_iff] at h
  obtain ⟨entity?, t, hget, h⟩ := exec_bind_eq_ok.1 h
  obtain ⟨hquery, hmemory⟩ := exec_beside_eq_ok.1 hget
  obtain ⟨-, -, hfind, ht⟩ := exec_query_eq_ok.1 hquery
  cases entity? with
  | none => simp [Prod.ext_iff] at h
  | some entity =>
    obtain ⟨granted, u, hallow, h⟩ := exec_bind_eq_ok.1 h
    rw [exec_allow] at hallow
    cases granted with
    | false => simp [Prod.ext_iff] at h
    | true =>
      obtain ⟨-, hu⟩ := Prod.ext_iff.1 hallow
      obtain ⟨_, v, htouch, h⟩ := exec_bind_eq_ok.1 h
      obtain ⟨rfl, rfl⟩ := exec_pure_eq_ok.1 h
      obtain ⟨hflush, -⟩ := exec_beside_eq_ok.1 htouch
      obtain ⟨-, -, db, hdb, hv⟩ := exec_flush_eq_ok.1 hflush
      have hsome := Except.ok.inj hfind
      have hmem := List.mem_of_find?_eq_some hsome
      have hkey := List.find?_some hsome
      simp only [decide_eq_true_eq] at hkey
      have hsession : u.1 = st.1 := (congrArg Prod.fst hu).symm.trans ht
      rw [hsession] at hdb hv
      have hrow : st.1.work.apiKeys.get? k.id = some k := Table.mem_iff_get?.1 hmem
      rw [touchApiKey, hrow] at hdb
      obtain rfl := Except.ok.inj hdb
      exact ⟨hmem, hkey.2, hkey.1, hv⟩

end

end FaceRecognition.Api
