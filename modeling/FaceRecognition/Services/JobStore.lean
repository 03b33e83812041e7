import FaceRecognition.Core.Strings
import FaceRecognition.Db.Schema

/-!
# The in-process job store

`InProcessJobStore` keeps the import jobs of one worker; every mutation is a function of the job it
addresses and leaves the others alone.
-/

namespace FaceRecognition.Services

open Relational Db

/-- `_ERROR_CAP` -/
def errorCap : ℕ := 100

inductive JobState where
  | pending
  | running
  | completed
  | failed
  deriving DecidableEq, Repr

structure ImportJob where
  jobId : UUID
  state : JobState := .pending
  total : ℕ := 0
  processed : ℕ := 0
  succeeded : ℕ := 0
  failed : ℕ := 0
  errors : List PyStr := []
  startedAt : Option Time := none
  finishedAt : Option Time := none
  deriving DecidableEq, Repr

instance : PrimaryKey ImportJob UUID := ⟨ImportJob.jobId⟩

abbrev InProcessJobStore := Table ImportJob

namespace ImportJob

def markRunning (now : Time) (total : ℕ) (job : ImportJob) : ImportJob :=
  { job with state := .running, total := total, startedAt := some now }

def markFinished (now : Time) (failed : Bool) (job : ImportJob) : ImportJob :=
  { job with state := if failed then .failed else .completed, finishedAt := some now }

def addError (msg : PyStr) (job : ImportJob) : ImportJob :=
  if job.errors.length < errorCap then { job with errors := job.errors ++ [msg] } else job

/-- The counters of one image; an empty error text is not recorded. -/
def record (success : Bool) (error : Option PyStr) (job : ImportJob) : ImportJob :=
  let job := { job with processed := job.processed + 1 }
  let job := if success then { job with succeeded := job.succeeded + 1 }
    else { job with failed := job.failed + 1 }
  match error with
  | some msg => if msg ≠ "" then job.addError msg else job
  | none => job

@[simp] theorem addError_jobId (job : ImportJob) (msg : PyStr) :
    (job.addError msg).jobId = job.jobId := by
  rw [addError]
  split_ifs <;> rfl

/-- Everything but the error texts. -/
def counts (job : ImportJob) : JobState × ℕ × ℕ × ℕ × ℕ :=
  (job.state, job.total, job.processed, job.succeeded, job.failed)

@[simp] theorem addError_counts (job : ImportJob) (msg : PyStr) :
    (job.addError msg).counts = job.counts := by
  rw [addError]
  split_ifs <;> rfl

theorem record_jobId (job : ImportJob) (success : Bool) (error : Option PyStr) :
    (job.record success error).jobId = job.jobId := by
  cases error with
  | none => cases success <;> rfl
  | some msg => cases success <;> by_cases h : msg = "" <;> simp [record, h]

theorem record_counts (job : ImportJob) (success : Bool) (error : Option PyStr) :
    (job.record success error).counts = (job.state, job.total, job.processed + 1,
      job.succeeded + success.toNat, job.failed + (!success).toNat) := by
  cases error with
  | none => cases success <;> rfl
  | some msg =>
    cases success <;> by_cases h : msg = "" <;> simp [record, h, addError_counts] <;> rfl

theorem record_some (job : ImportJob) (success : Bool) (msg : PyStr) :
    job.record success (some msg) =
      if msg ≠ "" then (job.record success none).addError msg else job.record success none := rfl

/-- The timestamps. -/
def stamps (job : ImportJob) : Option Time × Option Time := (job.startedAt, job.finishedAt)

theorem addError_stamps (job : ImportJob) (msg : PyStr) : (job.addError msg).stamps = job.stamps := by
  unfold addError
  split_ifs <;> rfl

theorem record_stamps (job : ImportJob) (success : Bool) (error : Option PyStr) :
    (job.record success error).stamps = job.stamps := by
  have hnone : (job.record success none).stamps = job.stamps := by cases success <;> rfl
  cases error with
  | none => exact hnone
  | some msg =>
    rw [record_some]
    split_ifs
    · rw [addError_stamps, hnone]
    · exact hnone

theorem addError_cap {job : ImportJob} (h : job.errors.length ≤ errorCap) (msg : PyStr) :
    (job.addError msg).errors.length ≤ errorCap := by
  unfold addError
  split_ifs with hlt
  · have hlength : (job.errors ++ [msg]).length = job.errors.length + 1 := List.length_append
    show (job.errors ++ [msg]).length ≤ errorCap
    omega
  · exact h

theorem record_cap {job : ImportJob} (h : job.errors.length ≤ errorCap) (success : Bool)
    (error : Option PyStr) : (job.record success error).errors.length ≤ errorCap := by
  have hnone : (job.record success none).errors.length ≤ errorCap := by cases success <;> exact h
  cases error with
  | none => exact hnone
  | some msg =>
    rw [record_some]
    split_ifs
    · exact addError_cap hnone msg
    · exact hnone

/-! ### Progress -/

/-- From `job` to `job'` no progress is taken back: no count falls, no error is dropped, and a job
that has begun is not pending again. -/
structure Forward (job job' : ImportJob) : Prop where
  processed : job.processed ≤ job'.processed
  succeeded : job.succeeded ≤ job'.succeeded
  failed : job.failed ≤ job'.failed
  errors : job.errors <+: job'.errors
  begun : job.state ≠ .pending → job'.state ≠ .pending

theorem Forward.refl (job : ImportJob) : Forward job job :=
  ⟨le_rfl, le_rfl, le_rfl, List.prefix_refl _, id⟩

theorem Forward.trans {job job' job'' : ImportJob} (h : Forward job job')
    (h' : Forward job' job'') : Forward job job'' :=
  ⟨h.processed.trans h'.processed, h.succeeded.trans h'.succeeded, h.failed.trans h'.failed,
    h.errors.trans h'.errors, h'.begun ∘ h.begun⟩

theorem forward_markRunning (job : ImportJob) (now : Time) (total : ℕ) :
    Forward job (job.markRunning now total) :=
  ⟨le_rfl, le_rfl, le_rfl, List.prefix_refl _, fun _ => by simp [markRunning]⟩

theorem forward_markFinished (job : ImportJob) (now : Time) (failed : Bool) :
    Forward job (job.markFinished now failed) :=
  ⟨le_rfl, le_rfl, le_rfl, List.prefix_refl _, fun _ => by cases failed <;> simp [markFinished]⟩

theorem forward_addError (job : ImportJob) (msg : PyStr) : Forward job (job.addError msg) := by
  unfold addError
  split_ifs with h
  · exact ⟨le_rfl, le_rfl, le_rfl, List.prefix_append _ _, id⟩
  · exact .refl job

theorem forward_record (job : ImportJob) (success : Bool) (error : Option PyStr) :
    Forward job (job.record success error) := by
  have hcounts : Forward job (job.record success none) := by
    cases success <;>
      exact ⟨by simp [record], by simp [record], by simp [record], List.prefix_refl _, id⟩
  cases error with
  | none => exact hcounts
  | some msg =>
    rw [record_some]
    split_ifs
    · exact hcounts.trans (forward_addError _ msg)
    · exact hcounts

end ImportJob

namespace InProcessJobStore

def create (jobs : InProcessJobStore) (id : UUID) : InProcessJobStore :=
  jobs.put { jobId := id }

/-- `if job := self._jobs.get(job_id): ...` -/
def update (jobs : InProcessJobStore) (id : UUID) (f : ImportJob → ImportJob) : InProcessJobStore :=
  match jobs.get? id with
  | some job => jobs.put (f job)
  | none => jobs

theorem get?_update {jobs : InProcessJobStore} {id : UUID} {job : ImportJob}
    {f : ImportJob → ImportJob} (hf : ∀ j, (f j).jobId = j.jobId) (h : jobs.get? id = some job) :
    (jobs.update id f).get? id = some (f job) := by
  rw [update, h]
  have hid : pk (f job) = id := (hf job).trans (Table.pk_of_get? h)
  exact hid ▸ Table.get?_put_self jobs (f job)

theorem get?_update_of_none {jobs : InProcessJobStore} {id : UUID} {f : ImportJob → ImportJob}
    (h : jobs.get? id = none) : (jobs.update id f).get? id = none := by
  rw [update, h]
  exact h

theorem get?_update_of_ne {jobs : InProcessJobStore} {id id' : UUID} {f : ImportJob → ImportJob}
    (hf : ∀ j, (f j).jobId = j.jobId) (h : id' ≠ id) :
    (jobs.update id f).get? id' = jobs.get? id' := by
  unfold update
  cases hjob : jobs.get? id with
  | none => rfl
  | some job =>
    have hid : pk (f job) = id := (hf job).trans (Table.pk_of_get? hjob)
    exact Table.get?_put_of_ne _ fun he => h (he.symm.trans hid)

end InProcessJobStore

end FaceRecognition.Services
