import FaceRecognition.Api.ApiKeys

/-!
# Runs of requests with keys

The operations on the table `api_keys` and the in-process limiter, one after the other: keys are
created and revoked, and requests come with any header. The lemmas say what each of them answers
and what it does to the table and the buckets.
-/

namespace FaceRecognition.Api

open Relational Db UnitOfWork Services RateLimit

structure KeyWorld where
  db : FullDatabase
  buckets : Buckets

inductive KeyOp where
  | create (c : KeyContext) (name : String) (createdBy : Option String)
  | revoke (c : KeyContext) (keyId : UUID)
  | external (c : KeyContext) (S : RecognitionService) (image : Upload) (key : Option String)

/-- What a request is answered. Of a request with a key, what `get_api_key` says. -/
inductive KeyAnswer where
  | created (r : Except Exc ApiKeyCreated)
  | revoked (r : Except Exc Unit)
  | admitted (r : Except Exc Unit)

/-- Without failures of the database; what follows the admission of a request may fail. -/
def serveKeys (cfg : KeySettings) (w : KeyWorld) : KeyOp → KeyWorld × KeyAnswer
  | .create c name createdBy =>
    let (r, st) := exec (withDb { c.toContext with fault := fun _ => none }
      (beside (ApiKeyService.create cfg c.reliable name createdBy))) (Session.begin w.db, w.buckets)
    (⟨st.1.committed, st.2⟩, .created r)
  | .revoke c keyId =>
    let (r, st) := exec (withDb { c.toContext with fault := fun _ => none }
      (beside (ApiKeyService.revoke c.reliable keyId))) (Session.begin w.db, w.buckets)
    (⟨st.1.committed, st.2⟩, .revoked r)
  | .external c S image key =>
    let admission := exec (getApiKey inProcessKeyRateLimiter cfg c.reliable key)
      (Session.begin w.db, w.buckets)
    let st := (exec (withDb c.toContext (externalSearchWithKey inProcessKeyRateLimiter cfg
      c.reliable S image key)) (Session.begin w.db, w.buckets)).2
    (⟨st.1.committed, st.2⟩, .admitted (admission.1.map fun _ => ()))

/-! ### What each operation does -/

/-- What the requests read of a key. -/
def core (k : ApiKey) : UUID × String × Bool := (k.id, k.keyHash, k.isActive)

section
variable {cfg : KeySettings} {w : KeyWorld} {c : KeyContext}

theorem serveKeys_create (name : String) (createdBy : Option String) :
    serveKeys cfg w (.create c name createdBy) =
      match insertApiKey (ApiKeyService.newApiKey cfg c name createdBy) w.db with
      | .error e => (w, .created (.error e))
      | .ok db => (⟨db, w.buckets⟩, .created (.ok
          ⟨c.keyId, name, (generateApiKey cfg c.token).displayPrefix, true, createdBy, none, c.now,
            (generateApiKey cfg c.token).raw⟩)) := by
  simp only [serveKeys, withDb, transact, exec_tryCatch, exec_bind, exec_beside,
    ApiKeyService.create, ApiKeyRepository.add, Session.begin, exec_flush, KeyContext.reliable,
    attempt_none]
  cases hinsert : insertApiKey (ApiKeyService.newApiKey cfg c name createdBy) w.db with
  | error e =>
    have h : insertApiKey (ApiKeyService.newApiKey cfg { c with keyFault := fun _ => none } name
      createdBy) w.db = .error e := hinsert
    rw [h]
    rfl
  | ok db =>
    have h : insertApiKey (ApiKeyService.newApiKey cfg { c with keyFault := fun _ => none } name
      createdBy) w.db = .ok db := hinsert
    rw [h]
    rfl

theorem serveKeys_revoke (keyId : UUID) :
    serveKeys cfg w (.revoke c keyId) =
      match w.db.apiKeys.get? keyId with
      | none => (w, .revoked (.error (ApiKeyService.keyNotFound keyId)))
      | some k => (⟨{ w.db with apiKeys := w.db.apiKeys.erase k.id }, w.buckets⟩,
          .revoked (.ok ())) := by
  simp only [serveKeys, withDb, transact, exec_tryCatch, exec_bind, exec_beside,
    ApiKeyService.revoke, ApiKeyRepository.get, Session.begin, exec_query]
  cases w.db.apiKeys.get? keyId with
  | none => rfl
  | some k => rfl

theorem serveKeys_external (S : RecognitionService) (image : Upload) (key : Option String) :
    (serveKeys cfg w (.external c S image key)).2 =
      .admitted ((exec (getApiKey inProcessKeyRateLimiter cfg c.reliable key)
        (Session.begin w.db, w.buckets)).1.map fun _ => ()) := rfl

theorem exec_getApiKey {M : Type} (R : KeyRateLimiter M) (key : Option String) (db : FullDatabase)
    (m : M) :
    exec (getApiKey R cfg c.reliable key) (Session.begin db, m) =
      if key.getD "" = "" then (.error missingApiKey, (Session.begin db, m))
      else match db.apiKeys.rows.find? fun k => k.keyHash = cfg.hashApiKey (key.getD "") ∧
          k.isActive with
        | none => (.error invalidApiKey, (Session.begin db, m))
        | some k =>
          let allowed := R.allow m (toString k.id) (parseRate cfg.externalRateLimit).1
            (parseRate cfg.externalRateLimit).2 c.monotonic
          if allowed.1 then
            (.ok k, (⟨db, { db with apiKeys := db.apiKeys.put (used c k) }, false⟩, allowed.2))
          else (.error (rateLimitExceeded cfg.externalRateLimit),
            (Session.begin db, allowed.2)) := by
  rw [getApiKey]
  dsimp only
  split_ifs
  · rfl
  · simp only [exec_bind, exec_beside, ApiKeyRepository.getActiveByHash, Session.begin, exec_query,
      KeyContext.reliable, attempt_none]
    cases hfind : db.apiKeys.rows.find? fun k => k.keyHash = cfg.hashApiKey (key.getD "") ∧
        k.isActive with
    | none => rfl
    | some k =>
      simp only [exec_bind, exec_allow]
      split_ifs with h
      · have hrow : db.apiKeys.get? k.id = some k :=
          Table.mem_iff_get?.1 (List.mem_of_find?_eq_some hfind)
        have htouch : touchApiKey k.id c.utcNow c.now db =
            .ok { db with apiKeys := db.apiKeys.put (used c k) } := by
          rw [touchApiKey, hrow]
          rfl
        simp only [exec_bind, exec_beside, ApiKeyRepository.touch, exec_flush, attempt_none, htouch]
        rfl
      · rfl

/-- A request with a key changes no row in a column that requests read. -/
theorem core_external (S : RecognitionService) (image : Upload) (key : Option String) :
    (serveKeys cfg w (.external c S image key)).1.db.apiKeys.rows.map core =
      w.db.apiKeys.rows.map core := by
  obtain ⟨r, st, hexec, -, hcases⟩ := exec_withDb c.toContext
    (preserves_externalSearchWithKey inProcessKeyRateLimiter cfg c.reliable S image key)
    (Session.begin w.db, w.buckets)
  have hdb : (serveKeys cfg w (.external c S image key)).1.db = st.1.committed :=
    congrArg (fun out => out.2.1.committed) hexec
  rw [hdb]
  rcases hcases with ⟨-, hcommitted⟩ | ⟨a, u, -, hrun, hcommitted⟩
  · rw [hcommitted]
    rfl
  · obtain ⟨k, v, hadmit, hsearch⟩ := exec_bind_eq_ok.1 hrun
    obtain ⟨hmem, -, -, hv⟩ := getApiKey_ok hadmit
    have hkeys : u.1.work.apiKeys = v.1.work.apiKeys := by
      obtain ⟨hpart, -⟩ := exec_beside_eq_ok.1 hsearch
      obtain ⟨t, -, hu⟩ := (exec_onPart_eq_ok tables).1 hpart
      rw [hu]
      rfl
    rw [hcommitted, hkeys, hv]
    exact Table.map_put_of_mem core hmem rfl rfl

theorem buckets_external (S : RecognitionService) (image : Upload) (key : Option String) :
    (serveKeys cfg w (.external c S image key)).1.buckets =
      (exec (getApiKey inProcessKeyRateLimiter cfg c.reliable key)
        (Session.begin w.db, w.buckets)).2.2 := by
  obtain ⟨r, st, hexec, hmemory, -⟩ := exec_withDb c.toContext
    (preserves_externalSearchWithKey inProcessKeyRateLimiter cfg c.reliable S image key)
    (Session.begin w.db, w.buckets)
  have hbuckets : (serveKeys cfg w (.external c S image key)).1.buckets = st.2 :=
    congrArg (fun out => out.2.2) hexec
  rw [hbuckets, hmemory, externalSearchWithKey, exec_bind]
  rcases exec (getApiKey inProcessKeyRateLimiter cfg c.reliable key)
    (Session.begin w.db, w.buckets) with ⟨e | k, u⟩ <;> rfl

end

end FaceRecognition.Api
