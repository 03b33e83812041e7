import Mathlib.Data.List.Chain
import FaceRecognition.Services.ImportTruth

/-!
# The progress of an import

`Watched.run` is `run` with the job noted after every call of the store (`run_erases`). The jobs
noted make a well-formed history, whatever fails (`progress_well_formed`): an image is counted at
most once although both the body and the handler of `processOne` call `record`.

The job of a run that ends is finished unless an exception leaves `run`: from `is_dir` of the root,
from the discovery (`discover_returns_iff`), or from a batch whose rollback or close fails
(`ends_finished_iff`).
-/

namespace FaceRecognition.Services.BulkImportService

open Relational Recognition Db UnitOfWork Chunks

/-! ### The run with its store calls noted -/

abbrev WatchedM := Action Exc (ImportState × List ImportJob)

namespace Watched

/-- What `get` of the store returns. -/
def seen (jobId : UUID) (st : ImportState) : List ImportJob := (st.jobs.get? jobId).toList

def onJob (jobId : UUID) (f : ImportJob → ImportJob) : WatchedM Unit :=
  noted (seen jobId) (Services.onJob jobId f)

def recordFailure (c : Context) (jobId : UUID) (imgPath : Path) (exc : Exc) : WatchedM Unit := do
  onJob jobId (ImportJob.record false (some (imgPath.str ++ ": " ++ exc.message)))
  quiet (onSession (RecognitionLogRepository.record c (importFailure imgPath exc)))

def processOne (env : ImportEnv) (c : Context) (jobId : UUID) (personName : String)
    (imgPath : Path) : WatchedM Unit :=
  tryCatch
    (do
      let (image, result) ← lift (analyse env imgPath)
      let personId ← quiet (resolvePerson c personName)
      let thumbnail ← lift (env.makeFaceThumbnail image result.detection.bbox)
      let _ ← quiet (onSession (FaceRepository.add c (newFace c personId imgPath result thumbnail)))
      onJob jobId (ImportJob.record true none))
    (recordFailure c jobId imgPath)

def batchBody (env : ImportEnv) (jobId : UUID) (batch : Batch) : WatchedM Unit := do
  batch.forM fun pair => processOne env (contextOf env batch pair.2) jobId pair.1 pair.2
  quiet (onSession (commit pendingRollback (env.commitFault batch)))

def abandonBatch (env : ImportEnv) (jobId : UUID) (batch : Batch) (exc : Exc) : WatchedM Unit := do
  quiet (onSession (rollback (env.rollbackFault batch)))
  onJob jobId (ImportJob.addError ("Batch failed: " ++ exc.message))

def processBatch (env : ImportEnv) (jobId : UUID) (batch : Batch) : WatchedM Unit := do
  quiet (modify fun st => { st with session := Session.begin st.session.committed })
  tryCatch (batchBody env jobId batch) (abandonBatch env jobId batch)
  lift (match env.closeFault batch with
    | some exc => .error exc
    | none => .ok ())

def batchLoop (env : ImportEnv) (jobId : UUID) (batch : Batch) : List Pair → WatchedM Unit
  | [] => if batch = [] then pure () else processBatch env jobId batch
  | pair :: pairs => do
    let batch := batch ++ [pair]
    if env.batchSize ≤ batch.length then
      processBatch env jobId batch
      batchLoop env jobId [] pairs
    else batchLoop env jobId batch pairs

def importPairs (env : ImportEnv) (jobId : UUID) (pairs : List Pair) : WatchedM Unit := do
  onJob jobId (ImportJob.markRunning env.startedAt pairs.length)
  quiet (modify fun st => { st with personCache := fun _ => none })
  batchLoop env jobId [] pairs
  onJob jobId (ImportJob.markFinished env.finishedAt false)

def run (env : ImportEnv) (jobId : UUID) (root : Path) : WatchedM Unit := do
  if ← lift (env.isDir root) then
    let pairs ← lift (discover env root)
    importPairs env jobId pairs
  else
    onJob jobId (ImportJob.addError ("Root path not found or not a directory: " ++ root.str))
    onJob jobId (ImportJob.markFinished env.finishedAt true)

/-! ### Without the history it is the run -/

section erases
variable (env : ImportEnv) (c : Context) (jobId : UUID)

theorem onJob_erases (f : ImportJob → ImportJob) :
    Erases (onJob jobId f) (Services.onJob jobId f) := erases_noted _ _

theorem recordFailure_erases (imgPath : Path) (exc : Exc) :
    Erases (recordFailure c jobId imgPath exc)
      (BulkImportService.recordFailure c jobId imgPath exc) :=
  erases_bind (onJob_erases jobId _) fun _ => erases_quiet _

theorem processOne_erases (personName : String) (imgPath : Path) :
    Erases (processOne env c jobId personName imgPath)
      (BulkImportService.processOne env c jobId personName imgPath) := by
  refine erases_tryCatch ?_ fun exc => recordFailure_erases c jobId imgPath exc
  refine erases_bind (erases_lift _) fun r => erases_bind (erases_quiet _) fun personId => ?_
  refine erases_bind (erases_lift _) fun thumbnail => erases_bind (erases_quiet _) fun face => ?_
  exact onJob_erases jobId _

theorem processBatch_erases (batch : Batch) :
    Erases (processBatch env jobId batch) (BulkImportService.processBatch env jobId batch) := by
  refine erases_bind (erases_quiet _) fun _ => erases_bind (erases_tryCatch ?_ fun exc => ?_)
    fun _ => erases_lift _
  · refine erases_bind (erases_forM fun pair _ => ?_) fun _ => erases_quiet _
    exact processOne_erases env _ jobId pair.1 pair.2
  · exact erases_bind (erases_quiet _) fun _ => onJob_erases jobId _

theorem batchLoop_erases (batch : Batch) (pairs : List Pair) :
    Erases (batchLoop env jobId batch pairs) (BulkImportService.batchLoop env jobId batch pairs) := by
  induction pairs generalizing batch with
  | nil =>
    rw [batchLoop, BulkImportService.batchLoop]
    split_ifs
    · exact erases_pure _
    · exact processBatch_erases env jobId batch
  | cons pair pairs ih =>
    rw [batchLoop, BulkImportService.batchLoop]
    split_ifs
    · exact erases_bind (processBatch_erases env jobId _) fun _ => ih _
    · exact ih _

theorem run_erases (root : Path) :
    Erases (run env jobId root) (BulkImportService.run env jobId root) := by
  refine erases_bind (erases_lift _) fun isDir => ?_
  cases isDir with
  | true =>
    refine erases_bind (erases_lift _) fun pairs => erases_bind (onJob_erases jobId _) fun _ => ?_
    refine erases_bind (erases_quiet _) fun _ => erases_bind ?_ fun _ => onJob_erases jobId _
    exact batchLoop_erases env jobId [] pairs
  | false => exact erases_bind (onJob_erases jobId _) fun _ => onJob_erases jobId _

end erases

end Watched

/-! ### Well-formed histories -/

/-- What can be said of one job. -/
structure Sound (job : ImportJob) : Prop where
  processed : job.processed = job.succeeded + job.failed
  total : job.processed ≤ job.total
  cap : job.errors.length ≤ errorCap
  finished : job.finishedAt.isSome ↔ job.state = .completed ∨ job.state = .failed

/-- What can be said of a job and the next one. -/
structure Follows (job job' : ImportJob) : Prop where
  forward : job.Forward job'
  state : job'.state = job.state ∨ job.state = .pending ∧ job'.state = .running ∨
    job.state = .running ∧ job'.state = .completed ∨ job.state = .pending ∧ job'.state = .failed
  started : job'.startedAt.isSome ↔ job.startedAt.isSome ∨ job'.state = .running

structure WellFormed (history : List ImportJob) : Prop where
  pending : ∃ job, history.head? = some job ∧ job.state = .pending
  sound : ∀ job ∈ history, Sound job
  follows : history.IsChain Follows
  /-- A job is started iff it has been running. -/
  started : ∀ past job rest, history = past ++ job :: rest →
    (job.startedAt.isSome ↔ ∃ j ∈ past ++ [job], j.state = .running)

theorem wellFormed_new (jobId : UUID) : WellFormed [{ jobId := jobId }] := by
  refine ⟨⟨_, rfl, rfl⟩, ?_, .singleton _, ?_⟩
  · intro job hjob
    obtain rfl := List.mem_singleton.1 hjob
    exact ⟨rfl, le_rfl, Nat.zero_le _, by simp⟩
  · intro past job rest h
    cases past with
    | nil =>
      cases h
      simp
    | cons j past =>
      obtain ⟨-, hrest⟩ := List.cons.inj h
      cases past <;> cases hrest

theorem WellFormed.next {past : List ImportJob} {job job' : ImportJob}
    (h : WellFormed (past ++ [job])) (hsound : Sound job') (hfollows : Follows job job') :
    WellFormed (past ++ [job] ++ [job']) where
  pending := by
    obtain ⟨first, hfirst, hpending⟩ := h.pending
    refine ⟨first, ?_, hpending⟩
    rw [List.head?_append, hfirst]
    rfl
  sound := by
    intro j hj
    rcases List.mem_append.1 hj with hj | hj
    · exact h.sound j hj
    · exact List.mem_singleton.1 hj ▸ hsound
  follows := by
    have hsplit : past ++ [job] ++ [job'] = past ++ job :: job' :: [] := by simp
    rw [hsplit, List.isChain_append_cons_cons]
    exact ⟨h.follows, hfollows, .singleton _⟩
  started := by
    intro before j rest hsplit
    rcases List.eq_nil_or_concat rest with rfl | ⟨rest', last, rfl⟩
    · obtain ⟨hbefore, hj⟩ := List.append_inj' hsplit rfl
      cases hj
      have hpast := h.started past job [] rfl
      rw [← hbefore, hfollows.started, hpast]
      simp only [List.mem_append, List.mem_singleton, or_and_right, exists_or, exists_eq_left]
    · have hold : past ++ [job] ++ [job'] = (before ++ j :: rest') ++ [last] := by
        rw [hsplit]
        simp
      obtain ⟨hpast, -⟩ := List.append_inj' hold rfl
      exact h.started before j rest' hpast

/-! ### What the store calls of a run do -/

/-- The history ends with the job as it is now, of which `P` holds. -/
def Watching (jobId : UUID) (P : ImportJob → Prop) (s : ImportState × List ImportJob) : Prop :=
  ∃ past job, s.2 = past ++ [job] ∧ s.1.jobs.get? jobId = some job ∧ WellFormed s.2 ∧ P job

/-- A call of the store that takes jobs with `P` to jobs with `Q`. -/
structure Advances (P : ImportJob → Prop) (f : ImportJob → ImportJob) (Q : ImportJob → Prop) :
    Prop where
  jobId : ∀ job, (f job).jobId = job.jobId
  sound : ∀ job, Sound job → P job → Sound (f job)
  follows : ∀ job, Sound job → P job → Follows job (f job)
  post : ∀ job, Sound job → P job → Q (f job)

/-- The run is on, and at most `k` images are counted. -/
structure Busy (total k : ℕ) (job : ImportJob) : Prop where
  state : job.state = .running
  started : job.startedAt.isSome
  total : job.total = total
  processed : job.processed ≤ k

/-- The run has not begun. -/
structure Waiting (job : ImportJob) : Prop where
  state : job.state = .pending
  started : job.startedAt = none
  processed : job.processed = 0

section advances
variable {total k : ℕ}

theorem Busy.mono {job : ImportJob} (h : Busy total k job) {k' : ℕ} (hk : k ≤ k') :
    Busy total k' job :=
  ⟨h.state, h.started, h.total, h.processed.trans hk⟩

/-- The call changes neither the state nor the timestamps. -/
theorem follows_of_same {job job' : ImportJob} (hforward : job.Forward job')
    (hstate : job'.state = job.state) (hstamps : job'.stamps = job.stamps)
    (hstarted : job.state = .running → job.startedAt.isSome) : Follows job job' := by
  have hsame : job'.startedAt = job.startedAt := (Prod.ext_iff.1 hstamps).1
  refine ⟨hforward, .inl hstate, ?_⟩
  rw [hsame, hstate]
  exact ⟨.inl, fun h => h.elim id hstarted⟩

theorem finished_of_same {job job' : ImportJob} (h : Sound job) (hstate : job'.state = job.state)
    (hstamps : job'.stamps = job.stamps) :
    job'.finishedAt.isSome ↔ job'.state = .completed ∨ job'.state = .failed := by
  have hsame : job'.finishedAt = job.finishedAt := (Prod.ext_iff.1 hstamps).2
  rw [hsame, hstate]
  exact h.finished

theorem advances_record (hk : k < total) (success : Bool) (error : Option PyStr) :
    Advances (Busy total k) (ImportJob.record success error) (Busy total (k + 1)) where
  jobId job := job.record_jobId success error
  sound job hsound hbusy := by
    have hcounts := job.record_counts success error
    simp only [ImportJob.counts, Prod.mk.injEq] at hcounts
    obtain ⟨hstate, htotal, hprocessed, hsucceeded, hfailed⟩ := hcounts
    refine ⟨?_, ?_, ImportJob.record_cap hsound.cap success error,
      finished_of_same hsound hstate (job.record_stamps success error)⟩
    · rw [hprocessed, hsucceeded, hfailed, hsound.processed]
      cases success <;> simp <;> omega
    · rw [hprocessed, htotal, hbusy.total]
      have := hbusy.processed
      omega
  follows job hsound hbusy := follows_of_same (job.forward_record success error)
    (Prod.ext_iff.1 (job.record_counts success error)).1 (job.record_stamps success error)
    fun _ => hbusy.started
  post job hsound hbusy := by
    have hcounts := job.record_counts success error
    simp only [ImportJob.counts, Prod.mk.injEq] at hcounts
    obtain ⟨hstate, htotal, hprocessed, -, -⟩ := hcounts
    have hstarted : (job.record success error).startedAt = job.startedAt :=
      (Prod.ext_iff.1 (job.record_stamps success error)).1
    refine ⟨hstate.trans hbusy.state, hstarted ▸ hbusy.started, htotal.trans hbusy.total, ?_⟩
    rw [hprocessed]
    exact Nat.succ_le_succ hbusy.processed

theorem Sound.addError {job : ImportJob} (h : Sound job) (msg : PyStr) :
    Sound (job.addError msg) := by
  have hcounts := job.addError_counts msg
  simp only [ImportJob.counts, Prod.mk.injEq] at hcounts
  obtain ⟨hstate, htotal, hprocessed, hsucceeded, hfailed⟩ := hcounts
  refine ⟨?_, ?_, ImportJob.addError_cap h.cap msg,
    finished_of_same h hstate (job.addError_stamps msg)⟩
  · rw [hprocessed, hsucceeded, hfailed, h.processed]
  · rw [hprocessed, htotal]
    exact h.total

theorem follows_addError {job : ImportJob} (msg : PyStr)
    (hstarted : job.state = .running → job.startedAt.isSome) : Follows job (job.addError msg) :=
  follows_of_same (job.forward_addError msg) (Prod.ext_iff.1 (job.addError_counts msg)).1
    (job.addError_stamps msg) hstarted

theorem advances_addError (msg : PyStr) :
    Advances (Busy total k) (ImportJob.addError msg) (Busy total k) where
  jobId job := job.addError_jobId msg
  sound job hsound hbusy := hsound.addError msg
  follows job hsound hbusy := follows_addError msg fun _ => hbusy.started
  post job hsound hbusy := by
    have hcounts := job.addError_counts msg
    simp only [ImportJob.counts, Prod.mk.injEq] at hcounts
    obtain ⟨hstate, htotal, hprocessed, -, -⟩ := hcounts
    have hstarted : (job.addError msg).startedAt = job.startedAt :=
      (Prod.ext_iff.1 (job.addError_stamps msg)).1
    exact ⟨hstate.trans hbusy.state, hstarted ▸ hbusy.started, htotal.trans hbusy.total,
      hprocessed.trans_le hbusy.processed⟩

theorem advances_refuse (msg : PyStr) : Advances Waiting (ImportJob.addError msg) Waiting where
  jobId job := job.addError_jobId msg
  sound job hsound hwaiting := hsound.addError msg
  follows job hsound hwaiting := follows_addError msg fun h => by
    rw [hwaiting.state] at h
    cases h
  post job hsound hwaiting := by
    have hcounts := job.addError_counts msg
    simp only [ImportJob.counts, Prod.mk.injEq] at hcounts
    obtain ⟨hstate, -, hprocessed, -, -⟩ := hcounts
    have hstarted : (job.addError msg).startedAt = job.startedAt :=
      (Prod.ext_iff.1 (job.addError_stamps msg)).1
    exact ⟨hstate.trans hwaiting.state, hstarted.trans hwaiting.started,
      hprocessed.trans hwaiting.processed⟩

theorem advances_markRunning (now : Time) (total : ℕ) :
    Advances Waiting (ImportJob.markRunning now total) (Busy total 0) where
  jobId _ := rfl
  sound job hsound hwaiting := by
    refine ⟨hsound.processed, ?_, hsound.cap, ?_⟩
    · show job.processed ≤ total
      rw [hwaiting.processed]
      exact Nat.zero_le _
    · show job.finishedAt.isSome ↔ _
      rw [hsound.finished, hwaiting.state]
      simp [ImportJob.markRunning]
  follows job hsound hwaiting :=
    ⟨job.forward_markRunning now total, .inr (.inl ⟨hwaiting.state, rfl⟩), by
      simp [ImportJob.markRunning]⟩
  post job hsound hwaiting := ⟨rfl, rfl, rfl, hwaiting.processed.le⟩

theorem advances_complete (now : Time) :
    Advances (Busy total k) (ImportJob.markFinished now false) fun _ => True where
  jobId _ := rfl
  sound job hsound hbusy :=
    ⟨hsound.processed, hsound.total, hsound.cap, by simp [ImportJob.markFinished]⟩
  follows job hsound hbusy := by
    refine ⟨job.forward_markFinished now false, .inr (.inr (.inl ⟨hbusy.state, rfl⟩)), ?_⟩
    show job.startedAt.isSome ↔ job.startedAt.isSome ∨ _
    exact ⟨.inl, fun _ => hbusy.started⟩
  post _ _ _ := trivial

theorem advances_fail (now : Time) :
    Advances Waiting (ImportJob.markFinished now true) fun _ => True where
  jobId _ := rfl
  sound job hsound hwaiting :=
    ⟨hsound.processed, hsound.total, hsound.cap, by simp [ImportJob.markFinished]⟩
  follows job hsound hwaiting := by
    refine ⟨job.forward_markFinished now true, .inr (.inr (.inr ⟨hwaiting.state, rfl⟩)), ?_⟩
    simp [ImportJob.markFinished]
  post _ _ _ := trivial

end advances

/-! ### The run keeps the history well-formed -/

section triples
variable {env : ImportEnv} {c : Context} {jobId : UUID} {P Q : ImportJob → Prop} {total k : ℕ}

theorem triple_onJob {f : ImportJob → ImportJob} (h : Advances P f Q)
    (R : ImportState × List ImportJob → Prop) :
    Triple (Watching jobId P) (Watched.onJob jobId f) (Watching jobId Q) R := by
  rintro ⟨st, history⟩ ⟨past, job, hhistory, hjob, hwf, hP⟩
  refine ⟨fun a t ht => ?_, fun e t ht => by cases ht⟩
  have hhistory : history = past ++ [job] := hhistory
  have hwf : WellFormed history := hwf
  subst hhistory
  have hget : (st.jobs.update jobId f).get? jobId = some (f job) :=
    InProcessJobStore.get?_update h.jobId hjob
  have hsound := hwf.sound job (by simp)
  have hexec : exec (Watched.onJob jobId f) (st, past ++ [job]) =
      (.ok (), ({ st with jobs := st.jobs.update jobId f },
        past ++ [job] ++ ((st.jobs.update jobId f).get? jobId).toList)) := rfl
  rw [hexec, hget] at ht
  cases ht
  exact ⟨past ++ [job], f job, rfl, hget, hwf.next (h.sound job hsound hP) (h.follows job hsound hP),
    h.post job hsound hP⟩

theorem triple_quiet {α : Type} {m : ImportM α}
    (h : ∀ jobs, Keeps (fun st => st.jobs = jobs) m) :
    Triple (Watching jobId P) (quiet m) (Watching jobId P) (Watching jobId P) := by
  refine triple_of_forall fun s => ?_
  rintro ⟨past, job, hhistory, hjob, hwf, hP⟩
  refine ⟨past, job, hhistory, ?_, hwf, hP⟩
  have hjobs : (exec m s.1).2.jobs = s.1.jobs := h s.1.jobs s.1 rfl
  show (exec m s.1).2.jobs.get? jobId = some job
  rwa [hjobs]

theorem keepsJobs_onSession {α : Type} (m : SessionM α) (jobs : InProcessJobStore) :
    Keeps (fun st => st.jobs = jobs) (onSession m) := fun _ h => h

theorem keepsJobs_resolvePerson (name : String) (jobs : InProcessJobStore) :
    Keeps (fun st => st.jobs = jobs) (resolvePerson c name) := by
  have hget : Keeps (fun st => st.jobs = jobs) (get : ImportM ImportState) := fun _ h => h
  refine keeps_bind hget fun st => ?_
  have hremember : ∀ existing : Person, Keeps (fun st => st.jobs = jobs) (do
      modify fun st => { st with
        personCache := Function.update st.personCache name (some existing.id) }
      return existing.id : ImportM UUID) := fun existing _ h => h
  cases st.personCache name with
  | some personId => exact keeps_pure personId
  | none =>
    refine keeps_bind (keepsJobs_onSession _ jobs) fun found => ?_
    cases found with
    | some person => exact keeps_bind (keeps_pure person) hremember
    | none => exact keeps_bind (keepsJobs_onSession _ jobs) hremember

theorem triple_processOne (hk : k < total) (name : String) (path : Path) :
    Triple (Watching jobId (Busy total k)) (Watched.processOne env c jobId name path)
      (Watching jobId (Busy total (k + 1))) (Watching jobId (Busy total (k + 1))) := by
  have hsession : ∀ {α : Type} (m : SessionM α) (P : ImportJob → Prop),
      Triple (Watching jobId P) (quiet (onSession m)) (Watching jobId P) (Watching jobId P) :=
    fun m P => triple_quiet (keepsJobs_onSession m)
  -- the body leaves the counters alone when it raises, so the handler counts the image
  refine triple_tryCatch (R := Watching jobId (Busy total k)) ?_ fun exc => ?_
  · refine triple_bind (triple_lift _) fun r => ?_
    refine triple_bind (triple_quiet (keepsJobs_resolvePerson name)) fun personId => ?_
    refine triple_bind (triple_lift _) fun thumbnail => ?_
    refine triple_bind (hsession _ _) fun face => ?_
    exact triple_onJob (advances_record hk true none) _
  · refine triple_bind (triple_onJob (advances_record hk false _) _) fun _ => ?_
    exact hsession _ _

theorem Watching.mono {s : ImportState × List ImportJob} (h : Watching jobId P s)
    (hPQ : ∀ job, P job → Q job) : Watching jobId Q s := by
  obtain ⟨past, job, hhistory, hjob, hwf, hP⟩ := h
  exact ⟨past, job, hhistory, hjob, hwf, hPQ job hP⟩

theorem watching_busy_mono {k' : ℕ} (hk : k ≤ k') (s : ImportState × List ImportJob)
    (h : Watching jobId (Busy total k) s) : Watching jobId (Busy total k') s :=
  h.mono fun _ hbusy => hbusy.mono hk

theorem triple_images (batch : Batch) {images : List Pair} (hk : k + images.length ≤ total) :
    Triple (Watching jobId (Busy total k))
      (images.forM fun pair => Watched.processOne env (contextOf env batch pair.2) jobId pair.1 pair.2)
      (Watching jobId (Busy total (k + images.length)))
      (Watching jobId (Busy total (k + images.length))) := by
  induction images generalizing k with
  | nil => exact triple_pure _
  | cons pair images ih =>
    rw [List.length_cons] at hk ⊢
    have hfirst := @triple_processOne env (contextOf env batch pair.2) jobId total k (by omega)
      pair.1 pair.2
    have hlast : k + 1 + images.length = k + (images.length + 1) := by omega
    have hrest := @ih (k + 1) (by omega)
    rw [hlast] at hrest
    refine triple_bind (triple_mono hfirst (fun _ => id) (fun _ => id) ?_) fun _ => hrest
    exact watching_busy_mono (by omega)

theorem triple_processBatch {batch : Batch} (hk : k + batch.length ≤ total) :
    Triple (Watching jobId (Busy total k)) (Watched.processBatch env jobId batch)
      (Watching jobId (Busy total (k + batch.length)))
      (Watching jobId (Busy total (k + batch.length))) := by
  have hopen : ∀ jobs, Keeps (fun st => st.jobs = jobs) (modify fun st =>
      { st with session := Session.begin st.session.committed } : ImportM Unit) := fun _ _ h => h
  have hgrow := @watching_busy_mono jobId total k (k + batch.length) (by omega)
  refine triple_bind (triple_mono (triple_quiet hopen) (fun _ => id) (fun _ => id) hgrow)
    fun _ => triple_bind ?_ fun _ => triple_lift _
  refine triple_tryCatch (R := Watching jobId (Busy total (k + batch.length))) ?_ fun exc => ?_
  · refine triple_bind (triple_images batch hk) fun _ => ?_
    exact triple_quiet (keepsJobs_onSession _)
  · refine triple_bind (triple_quiet (keepsJobs_onSession _)) fun _ => ?_
    exact triple_onJob (advances_addError _) _

theorem triple_batchLoop {batch : Batch} {pairs : List Pair}
    (hk : k + (batch.length + pairs.length) ≤ total) :
    Triple (Watching jobId (Busy total k)) (Watched.batchLoop env jobId batch pairs)
      (Watching jobId (Busy total total)) (Watching jobId (Busy total total)) := by
  induction pairs generalizing k batch with
  | nil =>
    rw [Watched.batchLoop]
    rw [List.length_nil] at hk
    split_ifs
    · exact triple_mono (triple_pure ()) (watching_busy_mono (by omega)) (fun _ => id) fun _ => id
    · exact triple_mono (triple_processBatch (by omega)) (fun _ => id)
        (watching_busy_mono (by omega)) (watching_busy_mono (by omega))
  | cons pair pairs ih =>
    have hlen : (batch ++ [pair]).length = batch.length + 1 := List.length_append
    rw [List.length_cons] at hk
    rw [Watched.batchLoop]
    split_ifs
    · have hbatch := @triple_processBatch env jobId total k (batch ++ [pair]) (by omega)
      refine triple_bind (triple_mono hbatch (fun _ => id) (fun _ => id)
        (watching_busy_mono (by omega))) fun _ => ih ?_
      rw [List.length_nil]
      omega
    · exact ih (by omega)

theorem triple_run (root : Path) :
    Triple (Watching jobId Waiting) (Watched.run env jobId root)
      (Watching jobId fun _ => True) (Watching jobId fun _ => True) := by
  have hany : ∀ {P : ImportJob → Prop} (s : ImportState × List ImportJob),
      Watching jobId P s → Watching jobId (fun _ => True) s := fun s h => h.mono fun _ _ => trivial
  refine triple_bind (triple_mono (triple_lift _) (fun _ => id) (fun _ => id) hany) fun isDir => ?_
  cases isDir with
  | true =>
    refine triple_bind (triple_mono (triple_lift _) (fun _ => id) (fun _ => id) hany) fun pairs => ?_
    refine triple_bind (triple_onJob (advances_markRunning _ pairs.length) _) fun _ => ?_
    have hcache : ∀ jobs, Keeps (fun st => st.jobs = jobs) (modify fun st =>
        { st with personCache := fun _ => none } : ImportM Unit) := fun _ _ h => h
    refine triple_bind (triple_mono (triple_quiet hcache) (fun _ => id) (fun _ => id) hany)
      fun _ => ?_
    have hloop := @triple_batchLoop env jobId pairs.length 0 [] pairs (by simp)
    refine triple_bind (triple_mono hloop (fun _ => id) (fun _ => id) hany) fun _ => ?_
    exact triple_onJob (advances_complete _) _
  | false =>
    refine triple_bind (triple_onJob (advances_refuse _) _) fun _ => ?_
    exact triple_onJob (advances_fail _) _

/-- **Progress is well-formed at every moment.** The jobs after the store calls of a run on a fresh
job, whatever fails, make a well-formed history; without the history the watched run is `run`. -/
theorem progress_well_formed (env : ImportEnv) (jobId : UUID) (root : Path) (st : ImportState)
    (hnew : st.jobs.get? jobId = some { jobId := jobId }) :
    ∃ r st' history,
      exec (Watched.run env jobId root) (st, [{ jobId := jobId }]) = (r, (st', history)) ∧
      exec (run env jobId root) st = (r, st') ∧ WellFormed history ∧
      history.getLast? = st'.jobs.get? jobId := by
  have hstart : Watching jobId Waiting (st, [{ jobId := jobId }]) :=
    ⟨[], _, rfl, hnew, wellFormed_new jobId, ⟨rfl, rfl, rfl⟩⟩
  obtain ⟨hok, herror⟩ := @triple_run env jobId root _ hstart
  obtain ⟨hr, hst⟩ := Watched.run_erases env jobId root (st, [{ jobId := jobId }])
  rcases hexec : exec (Watched.run env jobId root) (st, [{ jobId := jobId }]) with ⟨r, st', history⟩
  rw [hexec] at hr hst
  have hend : Watching jobId (fun _ => True) (st', history) := by
    cases r with
    | ok a => exact hok a _ hexec
    | error e => exact herror e _ hexec
  obtain ⟨past, job, hhistory, hjob, hwf, -⟩ := hend
  refine ⟨r, st', history, rfl, Prod.ext hr.symm hst.symm, hwf, ?_⟩
  have hlast : history = past ++ [job] := hhistory
  have hget : st'.jobs.get? jobId = some job := hjob
  rw [hlast, hget, List.getLast?_append]
  rfl

end triples

theorem progress_well_formed_one_image :
    ∃ r st' history,
      exec (Watched.run (oneImageEnv none) 3 photos) (freshJob, [{ jobId := 3 }]) =
        (r, (st', history)) ∧
      exec (run (oneImageEnv none) 3 photos) freshJob = (r, st') ∧ WellFormed history ∧
      history.getLast? = st'.jobs.get? 3 :=
  progress_well_formed (oneImageEnv none) 3 photos freshJob (by decide +kernel)

/-! ### Runs that leave their job unfinished -/

def Finished (jobs : InProcessJobStore) (jobId : UUID) : Prop :=
  ∃ job, jobs.get? jobId = some job ∧ (job.state = .completed ∨ job.state = .failed) ∧
    job.finishedAt.isSome

/-- No exception leaves a batch: no rollback of a failing batch fails, and no close. -/
def Survives (env : ImportEnv) : List Batch → Progress → Prop
  | [], _ => True
  | batch :: batches, p => raises env batch p = false ∧ Survives env batches (batchAfter env batch p)

section finished
variable {env : ImportEnv} {jobId : UUID} {root : Path} {st st' : ImportState}

theorem batches_survive (batches : List Batch) (st : ImportState) {p : Progress}
    (hp : p = ⟨st.session.committed, st.personCache⟩) :
    (exec (batches.forM (processBatch env jobId)) st).1 = .ok () ↔ Survives env batches p := by
  induction batches generalizing st p with
  | nil => exact iff_of_true rfl trivial
  | cons batch batches ih =>
    obtain ⟨r, st', hexec, hr, hcommitted, hcache, -⟩ := processBatch_eq batch st hp
    have hrun : exec ((batch :: batches).forM (processBatch env jobId)) st =
        exec (processBatch env jobId batch >>= fun _ =>
          batches.forM (processBatch env jobId)) st := rfl
    rw [hrun, Survives, ← hr]
    cases r with
    | error e =>
      rw [exec_bind_error hexec]
      exact iff_of_false (fun h => by cases h) fun h => by cases h.1
    | ok u =>
      rw [exec_bind_ok hexec, ih st' (p := batchAfter env batch p) (by rw [hcommitted, hcache])]
      exact ⟨fun h => ⟨rfl, h⟩, fun h => h.2⟩

theorem not_finished_of_state {jobs : InProcessJobStore} {job : ImportJob}
    (hjob : jobs.get? jobId = some job) (hstate : job.state = .pending ∨ job.state = .running) :
    ¬ Finished jobs jobId := by
  rintro ⟨job', hjob', hdone, -⟩
  obtain rfl := Option.some.inj (hjob.symm.trans hjob')
  rcases hstate with h | h <;> rcases hdone with h' | h' <;> cases h.symm.trans h'

theorem importPairs_finished_iff (pairs : List Pair) {r : Except Exc Unit} {job : ImportJob}
    (hjob : st.jobs.get? jobId = some job)
    (hrun : exec (importPairs env jobId pairs) st = (r, st')) :
    Finished st'.jobs jobId ↔
      Survives env (collect env.batchSize [] pairs) ⟨st.session.committed, fun _ => none⟩ := by
  set started : ImportState := ⟨st.session, fun _ => none,
    st.jobs.update jobId (ImportJob.markRunning env.startedAt pairs.length)⟩ with hstarted
  have hrunning : started.jobs.get? jobId = some (job.markRunning env.startedAt pairs.length) :=
    InProcessJobStore.get?_update (fun _ => rfl) hjob
  obtain ⟨r', st₁, v, n, hloop, hcounts, -⟩ := @batches_tally env jobId
    (collect env.batchSize [] pairs) started ⟨st.session.committed, fun _ => none⟩ rfl
  have hsurvive := @batches_survive env jobId (collect env.batchSize [] pairs) started _ rfl
  rw [hloop] at hsurvive
  have hstart : countsOf started.jobs jobId =
      some (job.markRunning env.startedAt pairs.length).counts := by
    rw [countsOf, hrunning]
    rfl
  rw [hstart, Option.map_some] at hcounts
  obtain ⟨job₁, hjob₁, hcounts₁⟩ := Option.map_eq_some_iff.1 hcounts
  rw [← batchLoop_eq] at hloop
  rw [exec_importPairs] at hrun
  rw [← hsurvive]
  cases r' with
  | error e =>
    rw [exec_bind_error hloop] at hrun
    cases hrun
    have hstate : job₁.state = .running := congrArg Prod.fst hcounts₁
    exact iff_of_false (not_finished_of_state hjob₁ (.inr hstate)) fun h => by cases h
  | ok u =>
    rw [exec_bind_ok hloop] at hrun
    cases hrun
    refine iff_of_true ⟨job₁.markFinished env.finishedAt false, ?_, .inl rfl, rfl⟩ rfl
    exact InProcessJobStore.get?_update (fun _ => rfl) hjob₁

/-- **When a run ends with a finished job.** Exactly when the root is no directory, or it and its
folders can be listed and no exception leaves a batch. -/
theorem ends_finished_iff {r : Except Exc Unit}
    (hnew : st.jobs.get? jobId = some { jobId := jobId })
    (hrun : exec (run env jobId root) st = (r, st')) :
    Finished st'.jobs jobId ↔ env.isDir root = .ok false ∨ (env.isDir root = .ok true ∧
      ∃ pairs, discover env root = .ok pairs ∧
        Survives env (collect env.batchSize [] pairs) ⟨st.session.committed, fun _ => none⟩) := by
  obtain ⟨e, hdir, -, rfl⟩ | ⟨hdir, -, rfl⟩ | ⟨e, hdir, hdisc, -, rfl⟩ | ⟨pairs, hdir, hdisc, hrun⟩ :=
    run_cases hrun
  · refine iff_of_false (not_finished_of_state hnew (.inl rfl)) ?_
    simp [hdir]
  · exact iff_of_true ⟨_, job_of_missing_root root hnew, .inr rfl, rfl⟩ (.inl hdir)
  · refine iff_of_false (not_finished_of_state hnew (.inl rfl)) ?_
    simp [hdir, hdisc]
  · rw [importPairs_finished_iff pairs hnew hrun]
    simp [hdir, hdisc]

end finished

theorem ends_finished_one_image :
    Finished (exec (run (oneImageEnv none) 3 photos) freshJob).2.jobs 3 := by
  have hsurvives : Survives (oneImageEnv none) (collect 32 [] [("Alice", alicePhoto)])
      ⟨Database.empty, fun _ => none⟩ := ⟨by decide +kernel, trivial⟩
  exact (@ends_finished_iff (oneImageEnv none) 3 photos freshJob _ _ (by decide +kernel) rfl).2
    (.inr ⟨rfl, _, rfl, hsurvives⟩)

/-- The folder of Alice cannot be listed. -/
def unreadableFolder : ImportEnv :=
  { oneImageEnv none with
    iterdir := fun p =>
      if p = photos then .ok [alicePhotos]
      else .error ⟨.osError, "[Errno 13] Permission denied: '/photos/Alice'", []⟩ }

theorem unreadable_folder_leaves_pending :
    ¬ Finished (exec (run unreadableFolder 3 photos) freshJob).2.jobs 3 := by
  have hjob : (exec (run unreadableFolder 3 photos) freshJob).2.jobs.get? 3 =
      some { jobId := 3 } := by
    decide +kernel
  exact not_finished_of_state hjob (.inl rfl)

end FaceRecognition.Services.BulkImportService
