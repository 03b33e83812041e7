import FaceRecognition.Lib.Chunks
import FaceRecognition.Services.BulkImport

/-!
# What an import does to the database

`fate` is the effect of one image on the database of the open transaction and on `person_cache`,
without handlers: the image is enrolled, it is rejected and logged, or a flush fails and the
session is broken. `batchAfter` is the effect of a batch on the committed database and the cache.
`processOne_eq` and `processBatch_eq` show that the code has these effects.
-/

namespace FaceRecognition.Services.BulkImportService

open Relational Recognition Db UnitOfWork Chunks

/-- The database of the open transaction, and the cache. -/
structure Progress where
  work : Database
  cache : PersonCache

inductive Fate where
  | enrolled (after : Progress)
  | rejected (exc : Exc) (after : Progress)
  | aborted (exc raised : Exc) (after : Progress)

variable (env : ImportEnv)

def resolve (c : Context) (name : String) (p : Progress) : Except Exc (UUID × Progress) :=
  match p.cache name with
  | some id => .ok (id, p)
  | none =>
    match attempt (c.fault .getByName)
        (.ok ((c.view p.work).persons.rows.find? fun q => q.fullName = name)) with
    | .error e => .error e
    | .ok (some q) => .ok (q.id, ⟨p.work, Function.update p.cache name (some q.id)⟩)
    | .ok none =>
      let new := PersonRepository.newPerson c name none .emptyObject
      match attempt (c.fault .addPerson) (execute c (.insertPerson new) p.work) with
      | .error e => .error e
      | .ok work => .ok (new.id, ⟨work, Function.update p.cache name (some new.id)⟩)

/-- A failed image is written to the log. -/
def reject (c : Context) (path : Path) (exc : Exc) (p : Progress) : Fate :=
  match attempt (c.fault .addLog)
      (execute c (.insertLog (newLog c (importFailure path exc))) p.work) with
  | .error e => .aborted exc e p
  | .ok work => .rejected exc ⟨work, p.cache⟩

def fate (c : Context) (name : String) (path : Path) (p : Progress) : Fate :=
  match analyse env path with
  | .error exc => reject c path exc p
  | .ok (image, result) =>
    match resolve c name p with
    | .error exc => .aborted exc pendingRollback p
    | .ok (id, p) =>
      match env.makeFaceThumbnail image result.detection.bbox with
      | .error exc => reject c path exc p
      | .ok thumbnail =>
        match attempt (c.fault .addFace)
            (execute c (.insertFace (newFace c id path result thumbnail)) p.work) with
        | .error exc => .aborted exc pendingRollback p
        | .ok work => .enrolled ⟨work, p.cache⟩

/-! ### The code of one image -/

/-- The state when the open transaction has come to `p`. -/
def openAt (committed : Database) (p : Progress) (jobs : InProcessJobStore) : ImportState :=
  ⟨⟨committed, p.work, false⟩, p.cache, jobs⟩

/-- The same after a failed call. -/
def brokenAt (committed : Database) (p : Progress) (jobs : InProcessJobStore) : ImportState :=
  ⟨⟨committed, p.work, true⟩, p.cache, jobs⟩

section
variable {env} {c : Context} {committed : Database} {p : Progress} {jobs : InProcessJobStore}

theorem exec_onSession {α : Type} (m : SessionM α) (st : ImportState) :
    exec (onSession m) st = ((exec m st.session).1, { st with session := (exec m st.session).2 }) :=
  rfl

theorem resolvePerson_eq (name : String) :
    exec (resolvePerson c name) (openAt committed p jobs) =
      match resolve c name p with
      | .error e => (.error e, brokenAt committed p jobs)
      | .ok (id, q) => (.ok id, openAt committed q jobs) := by
  have hget : exec (get : ImportM ImportState) (openAt committed p jobs) =
      (.ok (openAt committed p jobs), openAt committed p jobs) := rfl
  rw [resolvePerson, exec_bind_ok hget, resolve]
  cases hcache : p.cache name with
  | some id => simp [openAt, hcache]
  | none =>
    simp only [openAt, hcache, exec_bind, exec_onSession, PersonRepository.getByName, exec_select]
    cases attempt (c.fault .getByName)
        (Except.ok ((c.view p.work).persons.rows.find? fun q => q.fullName = name)) with
    | error e => rfl
    | ok found =>
      cases found with
      | some q => rfl
      | none =>
        simp only [exec_bind, exec_onSession, PersonRepository.exec_add]
        cases attempt (c.fault .addPerson) (execute c
          (.insertPerson (PersonRepository.newPerson c name none .emptyObject)) p.work) <;> rfl

/-- The job store after an image, with the error text when there is one. -/
def recorded (jobs : InProcessJobStore) (jobId : UUID) (path : Path) :
    Option Exc → InProcessJobStore
  | none => jobs.update jobId (ImportJob.record true none)
  | some exc => jobs.update jobId (ImportJob.record false (some (path.str ++ ": " ++ exc.message)))

theorem recordFailure_eq (jobId : UUID) (path : Path) (exc : Exc) :
    exec (recordFailure c jobId path exc) (openAt committed p jobs) =
      match attempt (c.fault .addLog)
        (execute c (.insertLog (newLog c (importFailure path exc))) p.work) with
      | .error e => (.error e, brokenAt committed p (recorded jobs jobId path (some exc)))
      | .ok work => (.ok (), openAt committed ⟨work, p.cache⟩
          (recorded jobs jobId path (some exc))) := by
  have hjob : exec (onJob jobId (ImportJob.record false (some (path.str ++ ": " ++ exc.message))))
      (openAt committed p jobs) =
        (.ok (), openAt committed p (recorded jobs jobId path (some exc))) := rfl
  rw [recordFailure, exec_bind_ok hjob]
  simp only [exec_onSession, openAt, RecognitionLogRepository.record, exec_flushStatement]
  cases attempt (c.fault .addLog)
    (execute c (.insertLog (newLog c (importFailure path exc))) p.work) <;> rfl

theorem recordFailure_broken (jobId : UUID) (path : Path) (exc : Exc) :
    exec (recordFailure c jobId path exc) (brokenAt committed p jobs) =
      (.error pendingRollback, brokenAt committed p (recorded jobs jobId path (some exc))) :=
  rfl

/-- What comes out for an image, and the state then. -/
def ended (committed : Database) (jobs : InProcessJobStore) (jobId : UUID) (path : Path) :
    Fate → Except Exc Unit × ImportState
  | .enrolled q => (.ok (), openAt committed q (recorded jobs jobId path none))
  | .rejected exc q => (.ok (), openAt committed q (recorded jobs jobId path (some exc)))
  | .aborted exc raised q =>
    (.error raised, brokenAt committed q (recorded jobs jobId path (some exc)))

theorem recordFailure_ends (jobId : UUID) (path : Path) (exc : Exc) :
    exec (recordFailure c jobId path exc) (openAt committed p jobs) =
      ended committed jobs jobId path (reject c path exc p) := by
  rw [recordFailure_eq, reject]
  cases attempt (c.fault .addLog)
    (execute c (.insertLog (newLog c (importFailure path exc))) p.work) <;> rfl

theorem processOne_eq (jobId : UUID) (name : String) (path : Path) :
    exec (processOne env c jobId name path) (openAt committed p jobs) =
      ended committed jobs jobId path (fate env c name path p) := by
  rw [processOne, exec_tryCatch, exec_bind, exec_lift, fate]
  cases analyse env path with
  | error exc => exact recordFailure_ends jobId path exc
  | ok r =>
    obtain ⟨image, result⟩ := r
    simp only [exec_bind, resolvePerson_eq, exec_lift]
    cases resolve c name p with
    | error exc => exact recordFailure_broken jobId path exc
    | ok r =>
      obtain ⟨id, q⟩ := r
      dsimp only
      cases env.makeFaceThumbnail image result.detection.bbox with
      | error exc => exact recordFailure_ends jobId path exc
      | ok thumbnail =>
        simp only [exec_onSession, openAt, FaceRepository.exec_add]
        cases attempt (c.fault .addFace)
            (execute c (.insertFace (newFace c id path result thumbnail)) q.work) with
        | error exc => exact recordFailure_broken jobId path exc
        | ok work => rfl

end

/-! ### The code of one batch -/

/-- The images of a batch up to its end or to the first failed flush, whose exception leaves
`processOne`. -/
def imagesFate (batch : Batch) : List Pair → Progress → Option Exc × Progress
  | [], p => (none, p)
  | (name, path) :: images, p =>
    match fate env (contextOf env batch path) name path p with
    | .enrolled q => imagesFate batch images q
    | .rejected _ q => imagesFate batch images q
    | .aborted _ raised q => (some raised, q)

def imagesJobs (batch : Batch) (jobId : UUID) :
    List Pair → Progress → InProcessJobStore → InProcessJobStore
  | [], _, jobs => jobs
  | (name, path) :: images, p, jobs =>
    match fate env (contextOf env batch path) name path p with
    | .enrolled q => imagesJobs batch jobId images q (recorded jobs jobId path none)
    | .rejected exc q => imagesJobs batch jobId images q (recorded jobs jobId path (some exc))
    | .aborted exc _ _ => recorded jobs jobId path (some exc)

/-- The transaction of the batch does not end in a commit. -/
def rollsBack (batch : Batch) (p : Progress) : Bool :=
  (imagesFate env batch batch p).1.isSome || (env.commitFault batch).isSome

/-- The committed database and the cache after the batch. -/
def batchAfter (batch : Batch) (p : Progress) : Progress :=
  if rollsBack env batch p then ⟨p.work, (imagesFate env batch batch p).2.cache⟩
  else (imagesFate env batch batch p).2

/-- An exception leaves `processBatch`: the rollback itself fails, or closing the session does. -/
def raises (batch : Batch) (p : Progress) : Bool :=
  (rollsBack env batch p && (env.rollbackFault batch).isSome) || (env.closeFault batch).isSome

section
variable {env} {jobId : UUID}

theorem images_eq (batch : Batch) (images : List Pair) (committed : Database) (p : Progress)
    (jobs : InProcessJobStore) :
    exec (images.forM fun pair =>
      processOne env (contextOf env batch pair.2) jobId pair.1 pair.2) (openAt committed p jobs) =
      match imagesFate env batch images p with
      | (none, q) => (.ok (), openAt committed q (imagesJobs env batch jobId images p jobs))
      | (some e, q) =>
        (.error e, brokenAt committed q (imagesJobs env batch jobId images p jobs)) := by
  induction images generalizing p jobs with
  | nil => rfl
  | cons pair images ih =>
    obtain ⟨name, path⟩ := pair
    show exec (processOne env (contextOf env batch path) jobId name path >>= fun _ =>
      images.forM _) _ = _
    rw [exec_bind, processOne_eq, imagesFate, imagesJobs]
    cases fate env (contextOf env batch path) name path p with
    | enrolled q => exact ih q _
    | rejected exc q => exact ih q _
    | aborted exc raised q => rfl

/-- What a job store says about the job, without the error texts. -/
def countsOf (jobs : InProcessJobStore) (jobId : UUID) :
    Option (JobState × ℕ × ℕ × ℕ × ℕ) :=
  (jobs.get? jobId).map ImportJob.counts

theorem countsOf_addError (jobs : InProcessJobStore) (msg : PyStr) :
    countsOf (jobs.update jobId (ImportJob.addError msg)) jobId = countsOf jobs jobId := by
  cases h : jobs.get? jobId with
  | none => rw [countsOf, InProcessJobStore.get?_update_of_none h, countsOf, h]
  | some job =>
    rw [countsOf, InProcessJobStore.get?_update (fun j => j.addError_jobId msg) h, countsOf, h]
    simp

theorem batchBody_commits {batch : Batch} {p : Progress} (h : rollsBack env batch p = false)
    (jobs : InProcessJobStore) :
    exec (batchBody env jobId batch) (openAt p.work p jobs) = (.ok (),
      openAt (imagesFate env batch batch p).2.work (imagesFate env batch batch p).2
        (imagesJobs env batch jobId batch p jobs)) := by
  rw [rollsBack, Bool.or_eq_false_iff] at h
  rw [batchBody, exec_bind, images_eq]
  generalize imagesFate env batch batch p = r at h ⊢
  obtain ⟨_ | e, q⟩ := r
  · cases hcommit : env.commitFault batch with
    | none => rfl
    | some e => simp [hcommit] at h
  · cases h.1

theorem batchBody_fails {batch : Batch} {p : Progress} (h : rollsBack env batch p = true)
    (jobs : InProcessJobStore) :
    ∃ e, exec (batchBody env jobId batch) (openAt p.work p jobs) = (.error e,
      brokenAt p.work (imagesFate env batch batch p).2
        (imagesJobs env batch jobId batch p jobs)) := by
  rw [rollsBack, Bool.or_eq_true] at h
  rw [batchBody, exec_bind, images_eq]
  generalize imagesFate env batch batch p = r at h ⊢
  obtain ⟨_ | e, q⟩ := r
  · cases hcommit : env.commitFault batch with
    | none =>
      rw [hcommit] at h
      rcases h with h | h <;> cases h
    | some e => exact ⟨e, rfl⟩
  · exact ⟨e, rfl⟩

/-- One batch: what it returns, what is committed and cached afterwards, and the counters. -/
theorem processBatch_eq (batch : Batch) (st : ImportState) {p : Progress}
    (hp : p = ⟨st.session.committed, st.personCache⟩) :
    ∃ r st', exec (processBatch env jobId batch) st = (r, st') ∧
      (r = .ok () ↔ raises env batch p = false) ∧
      st'.session.committed = (batchAfter env batch p).work ∧
      st'.personCache = (batchAfter env batch p).cache ∧
      countsOf st'.jobs jobId = countsOf (imagesJobs env batch jobId batch p st.jobs) jobId := by
  have hopen : exec (modify fun st => { st with session := Session.begin st.session.committed } :
      ImportM Unit) st = (.ok (), openAt p.work p st.jobs) := by
    rw [hp]
    rfl
  rw [processBatch, exec_bind_ok hopen, exec_bind, exec_tryCatch]
  cases hroll : rollsBack env batch p with
  | false =>
    rw [batchBody_commits hroll]
    refine ⟨_, _, rfl, ?_, ?_, ?_, rfl⟩
    · cases hclose : env.closeFault batch <;> simp [raises, hroll, hclose]
    · simp [batchAfter, hroll, openAt]
    · simp [batchAfter, hroll, openAt]
  | true =>
    obtain ⟨e, he⟩ := batchBody_fails hroll st.jobs
    rw [he]
    cases hrollback : env.rollbackFault batch with
    | some e' =>
      simp only [abandonBatch, hrollback, exec_bind, exec_onSession]
      refine ⟨_, _, rfl, ?_, ?_, ?_, rfl⟩
      · simp [raises, hroll, hrollback]
      · rw [batchAfter, if_pos hroll]
        rfl
      · rw [batchAfter, if_pos hroll]
        rfl
    | none =>
      simp only [abandonBatch, hrollback, exec_bind, exec_onSession]
      refine ⟨_, _, rfl, ?_, ?_, ?_, countsOf_addError _ _⟩
      · cases hclose : env.closeFault batch <;> simp [raises, hroll, hrollback, hclose]
      · rw [batchAfter, if_pos hroll]
        rfl
      · rw [batchAfter, if_pos hroll]
        rfl

end

/-! ### The code of a run -/

/-- The committed database and the cache after the batches, up to one that raises. -/
def batchesAfter : List Batch → Progress → Progress
  | [], p => p
  | batch :: batches, p =>
    if raises env batch p then batchAfter env batch p
    else batchesAfter batches (batchAfter env batch p)

section
variable {env} {jobId : UUID}

/-- What is left of the run after the discovery, once the job is running. -/
theorem exec_importPairs (env : ImportEnv) (jobId : UUID) (pairs : List Pair) (st : ImportState) :
    exec (importPairs env jobId pairs) st =
      exec (batchLoop env jobId [] pairs >>= fun _ =>
        onJob jobId (ImportJob.markFinished env.finishedAt false))
        ⟨st.session, fun _ => none,
          st.jobs.update jobId (ImportJob.markRunning env.startedAt pairs.length)⟩ := rfl

theorem batchLoop_eq (batch : Batch) (pairs : List Pair) :
    batchLoop env jobId batch pairs =
      (collect env.batchSize batch pairs).forM (processBatch env jobId) := by
  induction pairs generalizing batch with
  | nil =>
    rw [batchLoop, collect]
    split_ifs
    · rfl
    · exact (bind_pure _).symm
  | cons pair pairs ih =>
    rw [batchLoop, collect]
    split_ifs
    · rw [ih]
      rfl
    · exact ih _

theorem batches_committed (batches : List Batch) (st : ImportState) {p : Progress}
    (hp : p = ⟨st.session.committed, st.personCache⟩) :
    (exec (batches.forM (processBatch env jobId)) st).2.session.committed =
      (batchesAfter env batches p).work := by
  induction batches generalizing st p with
  | nil =>
    rw [hp]
    rfl
  | cons batch batches ih =>
    obtain ⟨r, st', hexec, hr, hcommitted, hcache, -⟩ := processBatch_eq batch st hp
    show (exec (processBatch env jobId batch >>= fun _ =>
      batches.forM (processBatch env jobId)) st).2.session.committed = _
    rw [exec_bind, hexec, batchesAfter]
    cases r with
    | error e =>
      have hraises : raises env batch p = true := by
        cases h : raises env batch p with
        | true => rfl
        | false => simp [h] at hr
      rw [if_pos hraises]
      exact hcommitted
    | ok u =>
      rw [hr.1 rfl]
      refine ih st' ?_
      rw [hcommitted, hcache]

theorem importPairs_committed (pairs : List Pair) (st : ImportState) :
    (exec (importPairs env jobId pairs) st).2.session.committed =
      (batchesAfter env (collect env.batchSize [] pairs)
        ⟨st.session.committed, fun _ => none⟩).work := by
  set started : ImportState := ⟨st.session, fun _ => none,
    st.jobs.update jobId (ImportJob.markRunning env.startedAt pairs.length)⟩ with hstarted
  have h := @batches_committed env jobId (collect env.batchSize [] pairs) started _ rfl
  rw [← batchLoop_eq] at h
  rw [← h]
  show (exec (batchLoop env jobId [] pairs >>= fun _ =>
    onJob jobId (ImportJob.markFinished env.finishedAt false)) started).2.session.committed = _
  rw [exec_bind]
  rcases exec (batchLoop env jobId [] pairs) started with ⟨e | u, st'⟩ <;> rfl

end

end FaceRecognition.Services.BulkImportService
