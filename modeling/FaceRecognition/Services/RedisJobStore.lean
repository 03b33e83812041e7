import FaceRecognition.Core.Datetime
import FaceRecognition.Redis.Collections
import FaceRecognition.Services.JobStore

/-!
# The Redis job store

`RedisJobStore` keeps a job as a hash of texts and a separate list of errors, which a pipeline
pushes to and trims. `Shows` says that the two keys of a job hold what an `ImportJob` of the
in-process store holds; each method acts on a job that is shown as the in-process store's method
does (`..._shows`), and `get` returns what is shown (`get_of_shows`). A message with a surrogate is
not pushed: its call raises when the counters are already written.
-/

namespace FaceRecognition.Services

open Relational Db Client

def JobState.text : JobState → String
  | .pending => "pending"
  | .running => "running"
  | .completed => "completed"
  | .failed => "failed"

/-- `ImportJob`, as `RedisJobStore.get` builds it from texts. -/
structure JobSnapshot where
  jobId : UUID
  state : String
  total : ℤ
  processed : ℤ
  succeeded : ℤ
  failed : ℤ
  errors : List PyStr
  startedAt : Option Datetime
  finishedAt : Option Datetime
  deriving DecidableEq

structure RedisJobStore where
  /-- `ttl_seconds` -/
  ttl : ℤ := 86400

namespace RedisJobStore

open Redis (Server)
open Redis.Collections

inductive Error where
  | redis (e : Redis.Error)
  | valueError (text : String)
  | unicodeEncodeError (msg : PyStr)
  deriving DecidableEq, Repr

abbrev StoreM := ExceptT Error Prog

def send (c : Cmd) : StoreM c.Reply :=
  ExceptT.mk ((Prog.request c).bind fun r => .pure (r.mapError .redis))

/-- `_h` -/
def hashKey (jobId : UUID) : String := "fr:import:job:" ++ toString jobId

/-- `_e` -/
def errorsKey (jobId : UUID) : String := "fr:import:job:" ++ toString jobId ++ ":errors"

/-- `_parse_dt` -/
def parseDt (value : Option String) : Option Datetime :=
  match value with
  | none => none
  | some text => if text = "" then none else Datetime.fromisoformat text

/-- `int(data.get(name, 0))` -/
def counter (data : Fields) (name : String) : StoreM ℤ :=
  match data.text name with
  | none => return 0
  | some text =>
    match readInt text with
    | some n => return n
    | none => throw (.valueError text)

variable (S : RedisJobStore)

/-- The mapping that `create` writes. -/
def newFields (job : ImportJob) : Fields :=
  [("state", job.state.text), ("total", "0"), ("processed", "0"), ("succeeded", "0"),
    ("failed", "0"), ("started_at", ""), ("finished_at", "")]

def create (jobId : UUID) : StoreM ImportJob := do
  let job : ImportJob := { jobId := jobId }
  let key := hashKey job.jobId
  send (.hset key (newFields job))
  let _ ← send (.expire key S.ttl)
  return job

/-- The job that `get` builds. -/
def snapshotOf (jobId : UUID) (data : Fields) (errors : List String) :
    StoreM (Option JobSnapshot) := do
  return some {
    jobId := jobId
    state := (data.text "state").getD "pending"
    total := ← counter data "total"
    processed := ← counter data "processed"
    succeeded := ← counter data "succeeded"
    failed := ← counter data "failed"
    errors := errors.map PyStr.ofString
    startedAt := parseDt (data.text "started_at")
    finishedAt := parseDt (data.text "finished_at") }

def get (jobId : UUID) : StoreM (Option JobSnapshot) := do
  let data ← send (.hgetall (hashKey jobId))
  if data = [] then return none
  let errors ← send (.lrange (errorsKey jobId) 0 (-1))
  snapshotOf jobId data errors

def markRunning (jobId : UUID) (total : ℕ) (now : Datetime) : StoreM Unit :=
  send (.hset (hashKey jobId)
    [("state", "running"), ("total", toString (total : ℤ)), ("started_at", now.isoformat)])

def markFinished (jobId : UUID) (failed : Bool) (now : Datetime) : StoreM Unit :=
  send (.hset (hashKey jobId)
    [("state", if failed then "failed" else "completed"), ("finished_at", now.isoformat)])

/-- The pipeline of `_push_error`. -/
def pushQueue (jobId : UUID) (text : String) : List Queued :=
  [.rpush (errorsKey jobId) text, .ltrim (errorsKey jobId) 0 (errorCap - 1),
    .expire (errorsKey jobId) S.ttl]

/-- The pipeline is encoded as a whole before anything is sent. -/
def pushError (jobId : UUID) (msg : PyStr) : StoreM Unit :=
  match msg.encode with
  | some text => send (.multi (S.pushQueue jobId text))
  | none => throw (.unicodeEncodeError msg)

/-- The field that a `record` counts its outcome in. -/
def outcomeField (success : Bool) : String := if success then "succeeded" else "failed"

def record (jobId : UUID) (success : Bool) (error : Option PyStr) : StoreM Unit := do
  let key := hashKey jobId
  let _ ← send (.hincrby key "processed" 1)
  let _ ← send (.hincrby key (outcomeField success) 1)
  match error with
  | none => return
  | some msg => if msg ≠ "" then S.pushError jobId msg

def addError (jobId : UUID) (msg : PyStr) : StoreM Unit := S.pushError jobId msg

/-! ### Programs of commands, run alone -/

/-- A method run alone, every command executed. -/
def run {α : Type} (m : StoreM α) (s : Server) : Server × Except Error α :=
  m.run.eval exec s

section
variable {α : Type} {s s' : Server}

theorem run_send_bind {c : Cmd} {r : c.Reply} (h : exec s c = (s', .ok r)) (k : c.Reply → StoreM α) :
    run (send c >>= k) s = run (k r) s' := by
  show Prog.eval exec s (.call c _) = _
  rw [Prog.eval, h]
  rfl

theorem run_send_bind_error {c : Cmd} {e : Redis.Error} (h : exec s c = (s', .error e))
    (k : c.Reply → StoreM α) : run (send c >>= k) s = (s', .error (.redis e)) := by
  show Prog.eval exec s (.call c _) = _
  rw [Prog.eval, h]
  rfl

theorem run_send {c : Cmd} {r : c.Reply} (h : exec s c = (s', .ok r)) :
    run (send c) s = (s', .ok r) := by
  show Prog.eval exec s (.call c _) = _
  rw [Prog.eval, h]
  rfl

end

/-! ### The keys -/

theorem toDigits_injective {m n : ℕ} (h : Nat.toDigits 10 m = Nat.toDigits 10 n) : m = n :=
  Option.some.inj ((readDigits_toDigits m).symm.trans (h ▸ readDigits_toDigits n))

theorem toList_toString (n : ℕ) : (toString n).toList = Nat.toDigits 10 n := Nat.toList_repr

theorem toList_hashKey (jobId : UUID) :
    (hashKey jobId).toList = "fr:import:job:".toList ++ Nat.toDigits 10 jobId := by
  show ("fr:import:job:" ++ toString jobId).toList = _
  rw [String.toList_append, toList_toString]

theorem toList_errorsKey (jobId : UUID) : (errorsKey jobId).toList =
    "fr:import:job:".toList ++ Nat.toDigits 10 jobId ++ ":errors".toList := by
  show ("fr:import:job:" ++ toString jobId ++ ":errors").toList = _
  rw [String.toList_append, String.toList_append, toList_toString]

theorem hashKey_injective {id id' : UUID} (h : hashKey id = hashKey id') : id = id' := by
  have hlist := congrArg String.toList h
  rw [toList_hashKey, toList_hashKey] at hlist
  exact toDigits_injective (List.append_cancel_left hlist)

theorem errorsKey_injective {id id' : UUID} (h : errorsKey id = errorsKey id') : id = id' := by
  have hlist := congrArg String.toList h
  rw [toList_errorsKey, toList_errorsKey] at hlist
  exact toDigits_injective (List.append_cancel_left (List.append_cancel_right hlist))

theorem hashKey_ne_errorsKey (id id' : UUID) : hashKey id ≠ errorsKey id' := by
  intro h
  have hlist := congrArg String.toList h
  rw [toList_hashKey, toList_errorsKey, List.append_assoc] at hlist
  have hcolon : ':' ∈ Nat.toDigits 10 id := by
    rw [List.append_cancel_left hlist]
    exact List.mem_append_right _ (by decide)
  have := Nat.isDigit_of_mem_toDigits (by omega) (by omega) hcolon
  exact absurd this (by decide)

/-! ### What the keys of a job show -/

/-- A timestamp and its field: an empty text for none. -/
def StampShown (text : Option String) (stamp : Option Time) : Prop :=
  (stamp = none ∧ text = some "") ∨ (stamp.isSome ∧ ∃ d : Datetime, text = some d.isoformat)

/-- The fields of the hash. -/
structure Encodes (data : Fields) (job : ImportJob) : Prop where
  state : data.text "state" = some job.state.text
  total : data.text "total" = some (toString (job.total : ℤ))
  processed : data.text "processed" = some (toString (job.processed : ℤ))
  succeeded : data.text "succeeded" = some (toString (job.succeeded : ℤ))
  failed : data.text "failed" = some (toString (job.failed : ℤ))
  startedAt : StampShown (data.text "started_at") job.startedAt
  finishedAt : StampShown (data.text "finished_at") job.finishedAt

/-- What `get` returns for a job. -/
structure Agrees (v : JobSnapshot) (job : ImportJob) : Prop where
  jobId : v.jobId = job.jobId
  state : v.state = job.state.text
  total : v.total = job.total
  processed : v.processed = job.processed
  succeeded : v.succeeded = job.succeeded
  failed : v.failed = job.failed
  errors : v.errors = job.errors
  startedAt : v.startedAt.isSome = job.startedAt.isSome
  finishedAt : v.finishedAt.isSome = job.finishedAt.isSome

/-- The keys of the job hold it. The hash expires at `expiry` and the errors not before it. -/
structure Shows (expiry : ℚ) (s : Server) (job : ImportJob) : Prop where
  hash : ∃ data, s.keys (hashKey job.jobId) = some ⟨.hash data, some expiry⟩ ∧ Encodes data job
  errors : ∃ texts, ListAt s (errorsKey job.jobId) texts ∧ job.errors = texts.map PyStr.ofString
  errorsDeadline : ∀ e d, s.keys (errorsKey job.jobId) = some e → e.deadline = some d → expiry ≤ d
  cap : job.errors.length ≤ errorCap

theorem isoformat_ne_empty (d : Datetime) : d.isoformat ≠ "" := by
  intro h
  have := Datetime.fromisoformat_isoformat d
  rw [h] at this
  cases this

theorem StampShown.parseDt {text : Option String} {stamp : Option Time} (h : StampShown text stamp) :
    (RedisJobStore.parseDt text).isSome = stamp.isSome := by
  rcases h with ⟨rfl, rfl⟩ | ⟨hsome, d, rfl⟩
  · rfl
  · rw [RedisJobStore.parseDt, if_neg (isoformat_ne_empty d), Datetime.fromisoformat_isoformat,
      hsome]
    rfl

theorem counter_eq {data : Fields} {name : String} {n : ℤ}
    (h : data.text name = some (toString n)) : counter data name = pure n := by
  rw [counter, h]
  simp only [readInt_toString]

theorem snapshotOf_encodes {data : Fields} {job : ImportJob} (h : Encodes data job)
    (errors : List String) : ∃ v, snapshotOf job.jobId data errors = pure (some v) ∧
      Agrees v { job with errors := errors.map PyStr.ofString } := by
  unfold snapshotOf
  simp only [counter_eq h.total, counter_eq h.processed, counter_eq h.succeeded,
    counter_eq h.failed]
  refine ⟨_, rfl, rfl, ?_, rfl, rfl, rfl, rfl, rfl, h.startedAt.parseDt, h.finishedAt.parseDt⟩
  rw [h.state]
  rfl

theorem Encodes.ne_nil {data : Fields} {job : ImportJob} (h : Encodes data job) : data ≠ [] := by
  rintro rfl
  cases h.state

theorem get_of_shows {expiry : ℚ} {s : Server} {job : ImportJob} (h : Shows expiry s job) :
    ∃ v, run (get job.jobId) s = (s, .ok (some v)) ∧ Agrees v job := by
  obtain ⟨data, hdata, henc⟩ := h.hash
  obtain ⟨texts, hlist, htexts⟩ := h.errors
  obtain ⟨v, hv, hagrees⟩ := snapshotOf_encodes henc texts
  rw [get, run_send_bind (exec_hgetall hdata), if_neg henc.ne_nil,
    run_send_bind (exec_lrange hlist), hv]
  rw [← htexts] at hagrees
  exact ⟨v, rfl, hagrees⟩

/-! ### What the methods do to a job -/

theorem StampShown.now (d : Datetime) (t : Time) : StampShown (some d.isoformat) (some t) :=
  .inr ⟨rfl, d, rfl⟩

section encodes
variable {data : Fields} {job : ImportJob}

theorem encodes_new (jobId : UUID) :
    Encodes (Fields.assign [] (newFields { jobId := jobId })) { jobId := jobId } where
  state := by simp [newFields]
  total := by simp [newFields]; rfl
  processed := by simp [newFields]; rfl
  succeeded := by simp [newFields]; rfl
  failed := by simp [newFields]; rfl
  startedAt := .inl ⟨rfl, by simp [newFields]⟩
  finishedAt := .inl ⟨rfl, by simp [newFields]⟩

theorem Encodes.markRunning (h : Encodes data job) (total : ℕ) (d : Datetime) (t : Time) :
    Encodes (data.assign
      [("state", "running"), ("total", toString (total : ℤ)), ("started_at", d.isoformat)])
      (job.markRunning t total) where
  state := by simp [ImportJob.markRunning, JobState.text]
  total := by simp [ImportJob.markRunning]
  processed := by simpa [ImportJob.markRunning] using h.processed
  succeeded := by simpa [ImportJob.markRunning] using h.succeeded
  failed := by simpa [ImportJob.markRunning] using h.failed
  startedAt := by simpa [ImportJob.markRunning] using .now d t
  finishedAt := by simpa [ImportJob.markRunning] using h.finishedAt

theorem Encodes.markFinished (h : Encodes data job) (failed : Bool) (d : Datetime) (t : Time) :
    Encodes (data.assign
      [("state", if failed then "failed" else "completed"), ("finished_at", d.isoformat)])
      (job.markFinished t failed) where
  state := by cases failed <;> simp [ImportJob.markFinished, JobState.text]
  total := by simpa [ImportJob.markFinished] using h.total
  processed := by simpa [ImportJob.markFinished] using h.processed
  succeeded := by simpa [ImportJob.markFinished] using h.succeeded
  failed := by simpa [ImportJob.markFinished] using h.failed
  startedAt := by simpa [ImportJob.markFinished] using h.startedAt
  finishedAt := by simpa [ImportJob.markFinished] using .now d t

/-- The first half of a `record`. -/
def visited (job : ImportJob) : ImportJob := { job with processed := job.processed + 1 }

/-- The second half of a `record`. -/
def scored (success : Bool) (job : ImportJob) : ImportJob :=
  if success then { job with succeeded := job.succeeded + 1 }
  else { job with failed := job.failed + 1 }

theorem Encodes.visited (h : Encodes data job) : Encodes
    (Table.upsert ("processed", toString ((job.processed : ℤ) + 1)) data) (visited job) where
  state := by simpa [RedisJobStore.visited] using h.state
  total := by simpa [RedisJobStore.visited] using h.total
  processed := by simp [RedisJobStore.visited]
  succeeded := by simpa [RedisJobStore.visited] using h.succeeded
  failed := by simpa [RedisJobStore.visited] using h.failed
  startedAt := by simpa [RedisJobStore.visited] using h.startedAt
  finishedAt := by simpa [RedisJobStore.visited] using h.finishedAt

def outcomeCount (success : Bool) (job : ImportJob) : ℕ := if success then job.succeeded else job.failed

theorem Encodes.outcome (h : Encodes data job) (success : Bool) :
    data.text (outcomeField success) = some (toString (outcomeCount success job : ℤ)) := by
  cases success
  · exact h.failed
  · exact h.succeeded

theorem Encodes.scored (h : Encodes data job) (success : Bool) : Encodes
    (Table.upsert (outcomeField success, toString ((outcomeCount success job : ℤ) + 1)) data)
    (scored success job) where
  state := by cases success <;> simpa [outcomeField, RedisJobStore.scored] using h.state
  total := by cases success <;> simpa [outcomeField, RedisJobStore.scored] using h.total
  processed := by cases success <;> simpa [outcomeField, RedisJobStore.scored] using h.processed
  succeeded := by
    cases success
    · simpa [outcomeField, RedisJobStore.scored] using h.succeeded
    · simp [outcomeField, outcomeCount, RedisJobStore.scored]
  failed := by
    cases success
    · simp [outcomeField, outcomeCount, RedisJobStore.scored]
    · simpa [outcomeField, RedisJobStore.scored] using h.failed
  startedAt := by cases success <;> simpa [outcomeField, RedisJobStore.scored] using h.startedAt
  finishedAt := by cases success <;> simpa [outcomeField, RedisJobStore.scored] using h.finishedAt

end encodes

/-! ### What the commands do to the keys of a job -/

/-- Between `s` and `s'` nothing but the two keys of the job has changed. -/
structure Within (jobId : UUID) (s s' : Server) : Prop where
  clock : s'.clock = s.clock
  keys : ∀ key, key ≠ hashKey jobId → key ≠ errorsKey jobId → s'.keys key = s.keys key

theorem within_hash (jobId : UUID) (s : Server) (e : Option Redis.Entry) :
    Within jobId s (s.set (hashKey jobId) e) :=
  ⟨rfl, fun _ hh _ => s.set_of_ne e hh⟩

theorem within_errors (jobId : UUID) (s : Server) (e : Option Redis.Entry) :
    Within jobId s (s.set (errorsKey jobId) e) :=
  ⟨rfl, fun _ _ he => s.set_of_ne e he⟩

theorem Within.trans {jobId : UUID} {s s' s'' : Server} (h : Within jobId s s')
    (h' : Within jobId s' s'') : Within jobId s s'' :=
  ⟨h'.clock.trans h.clock, fun key hh he => (h'.keys key hh he).trans (h.keys key hh he)⟩

section shows
variable {expiry : ℚ} {s s' : Server} {job job' : ImportJob}

theorem Shows.of_keys (h : Shows expiry s job)
    (hhash : s'.keys (hashKey job.jobId) = s.keys (hashKey job.jobId))
    (herrors : s'.keys (errorsKey job.jobId) = s.keys (errorsKey job.jobId)) :
    Shows expiry s' job :=
  ⟨hhash ▸ h.hash, by simpa [ListAt, herrors] using h.errors, herrors ▸ h.errorsDeadline, h.cap⟩

/-- The other jobs do not notice. -/
theorem Shows.within (h : Shows expiry s job) {jobId : UUID} (hw : Within jobId s s')
    (hne : job.jobId ≠ jobId) : Shows expiry s' job := by
  have hhash : s'.keys (hashKey job.jobId) = s.keys (hashKey job.jobId) :=
    hw.keys _ (fun he => hne (hashKey_injective he)) (hashKey_ne_errorsKey _ _)
  have herrors : s'.keys (errorsKey job.jobId) = s.keys (errorsKey job.jobId) :=
    hw.keys _ (Ne.symm (hashKey_ne_errorsKey _ _)) (fun he => hne (errorsKey_injective he))
  exact h.of_keys hhash herrors

/-- Time passes, but less than until the job expires. -/
theorem Shows.tick (h : Shows expiry s job) {dt : ℚ} (hlive : s.clock + dt < expiry) :
    Shows expiry (s.tick dt) job := by
  refine h.of_keys (Redis.tick_keys fun e d he hd => ?_) (Redis.tick_keys fun e d he hd => ?_)
  · obtain ⟨data, hdata, -⟩ := h.hash
    rw [hdata] at he
    cases he
    cases hd
    exact hlive
  · have := h.errorsDeadline e d he hd
    linarith

/-- New fields in the hash of a job. -/
theorem Shows.setHash (h : Shows expiry s job) {data : Fields} (henc : Encodes data job')
    (hid : job'.jobId = job.jobId) (herrors : job'.errors = job.errors) :
    Shows expiry (s.set (hashKey job.jobId) (some ⟨.hash data, some expiry⟩)) job' := by
  have hkeep : (s.set (hashKey job.jobId) (some ⟨.hash data, some expiry⟩)).keys
      (errorsKey job.jobId) = s.keys (errorsKey job.jobId) :=
    s.set_of_ne _ (Ne.symm (hashKey_ne_errorsKey _ _))
  refine ⟨⟨data, hid ▸ s.set_same _ _, henc⟩, ?_, ?_, herrors ▸ h.cap⟩
  · obtain ⟨texts, hlist, htexts⟩ := h.errors
    rw [hid]
    exact ⟨texts, by simpa [ListAt, hkeep] using hlist, herrors.trans htexts⟩
  · rw [hid, hkeep]
    exact h.errorsDeadline

theorem Shows.hset (h : Shows expiry s job) {mapping : Fields}
    (henc : ∀ data, Encodes data job → Encodes (data.assign mapping) job')
    (hid : job'.jobId = job.jobId) (herrors : job'.errors = job.errors) :
    ∃ s', exec s (.hset (hashKey job.jobId) mapping) = (s', .ok ()) ∧ Shows expiry s' job' ∧
      Within job.jobId s s' := by
  obtain ⟨data, hdata, hold⟩ := h.hash
  exact ⟨_, exec_hset hdata mapping, h.setHash (henc data hold) hid herrors, within_hash _ _ _⟩

theorem Shows.visit (h : Shows expiry s job) :
    ∃ s' n, exec s (.hincrby (hashKey job.jobId) "processed" 1) = (s', .ok n) ∧
      Shows expiry s' (visited job) ∧ Within job.jobId s s' := by
  obtain ⟨data, hdata, hold⟩ := h.hash
  exact ⟨_, _, exec_hincrby hdata hold.processed 1, h.setHash hold.visited rfl rfl,
    within_hash _ _ _⟩

theorem scored_jobId (success : Bool) (job : ImportJob) : (scored success job).jobId = job.jobId := by
  cases success <;> rfl

theorem scored_errors (success : Bool) (job : ImportJob) :
    (scored success job).errors = job.errors := by
  cases success <;> rfl

theorem Shows.score (h : Shows expiry s job) (success : Bool) :
    ∃ s' n, exec s (.hincrby (hashKey job.jobId) (outcomeField success) 1) = (s', .ok n) ∧
      Shows expiry s' (scored success job) ∧ Within job.jobId s s' := by
  obtain ⟨data, hdata, hold⟩ := h.hash
  exact ⟨_, _, exec_hincrby hdata (hold.outcome success) 1, h.setHash (hold.scored success)
    (scored_jobId success job) (scored_errors success job), within_hash _ _ _⟩

/-- The list of errors keeps its first hundred, as `addError` does. -/
theorem take_errors (h : job.errors.length ≤ errorCap) (msg : PyStr) :
    (job.errors ++ [msg]).take errorCap = (job.addError msg).errors := by
  unfold ImportJob.addError
  split_ifs with hlt
  · have hlength : (job.errors ++ [msg]).length = job.errors.length + 1 := List.length_append
    exact List.take_of_length_le (by omega)
  · have hfull : job.errors.length = errorCap := by omega
    rw [List.take_append_of_le_length (by omega), List.take_of_length_le h]

theorem addError_eq (h : job.errors.length ≤ errorCap) (msg : PyStr) :
    job.addError msg = { job with errors := (job.errors ++ [msg]).take errorCap } := by
  rw [take_errors h]
  unfold ImportJob.addError
  split_ifs <;> rfl

theorem take_append_take {α : Type} (items more : List α) (n : ℕ) :
    (items.take n ++ more).take n = (items ++ more).take n := by
  simp only [List.take_append, List.take_take, min_self, List.length_take]
  rcases le_or_gt n items.length with h | h
  · rw [min_eq_left h, Nat.sub_self, Nat.sub_eq_zero_of_le h]
  · rw [min_eq_right h.le]

theorem Encodes.addError {data : Fields} (h : Encodes data job) (msg : PyStr) :
    Encodes data (job.addError msg) := by
  unfold ImportJob.addError
  split_ifs
  · exact ⟨h.state, h.total, h.processed, h.succeeded, h.failed, h.startedAt, h.finishedAt⟩
  · exact h

theorem Shows.push (h : Shows expiry s job) {S : RedisJobStore} (hpos : 0 < S.ttl)
    (hsoon : expiry ≤ s.clock + S.ttl) (text : String) :
    ∃ s', exec s (.multi (S.pushQueue job.jobId text)) = (s', .ok ()) ∧
      Shows expiry s' (job.addError text) ∧ Within job.jobId s s' := by
  obtain ⟨data, hdata, henc⟩ := h.hash
  obtain ⟨texts, hlist, htexts⟩ := h.errors
  refine ⟨_, exec_push hlist text (errorCap - 1) hpos, ?_, within_errors _ _ _⟩
  have hpushed : (job.addError text).errors =
      ((texts ++ [text]).take errorCap).map PyStr.ofString := by
    rw [← take_errors h.cap, htexts, List.map_take, List.map_append]
    rfl
  have hne : (texts ++ [text]).take errorCap ≠ [] := by
    cases texts <;> simp [errorCap]
  constructor
  · rw [ImportJob.addError_jobId, Server.set_of_ne _ _ (hashKey_ne_errorsKey _ _)]
    exact ⟨data, hdata, henc.addError text⟩
  · rw [ImportJob.addError_jobId]
    refine ⟨_, .inr ⟨hne, some (s.clock + S.ttl), ?_⟩, hpushed⟩
    rw [Server.set_same]
    rfl
  · intro e d he hd
    rw [ImportJob.addError_jobId, Server.set_same] at he
    cases he
    cases hd
    exact hsoon
  · exact ImportJob.addError_cap h.cap text

/-! ### What the methods do to the keys of a job -/

theorem create_shows {S : RedisJobStore} (hpos : 0 < S.ttl) {jobId : UUID}
    (hhash : s.keys (hashKey jobId) = none) (herrors : s.keys (errorsKey jobId) = none) :
    ∃ s', run (S.create jobId) s = (s', .ok { jobId := jobId }) ∧
      Shows (s.clock + S.ttl) s' { jobId := jobId } ∧ Within jobId s s' := by
  set key := hashKey jobId with hkey
  have hset := exec_hset_new hhash (newFields { jobId := jobId })
  have hexpire := exec_expire (s.set_same key
    (some ⟨.hash (Fields.assign [] (newFields { jobId := jobId })), none⟩)) hpos
  rw [Server.set_set] at hexpire
  have herr := (s.set_of_ne (some ⟨.hash (Fields.assign [] (newFields { jobId := jobId })),
    some (s.clock + S.ttl)⟩) (Ne.symm (hashKey_ne_errorsKey jobId jobId))).trans herrors
  refine ⟨_, (run_send_bind hset _).trans (run_send_bind hexpire _), ⟨?_, ?_, ?_, ?_⟩, ?_⟩
  · exact ⟨_, s.set_same _ _, encodes_new jobId⟩
  · exact ⟨[], .inl ⟨rfl, herr⟩, rfl⟩
  · intro e d he
    cases herr.symm.trans he
  · exact Nat.zero_le _
  · exact within_hash _ _ _

theorem markRunning_shows (h : Shows expiry s job) (total : ℕ) (d : Datetime) (t : Time) :
    ∃ s', run (markRunning job.jobId total d) s = (s', .ok ()) ∧
      Shows expiry s' (job.markRunning t total) ∧ Within job.jobId s s' := by
  obtain ⟨s', hexec, hshows⟩ := h.hset (fun _ henc => henc.markRunning total d t) rfl rfl
  exact ⟨s', run_send hexec, hshows⟩

theorem markFinished_shows (h : Shows expiry s job) (failed : Bool) (d : Datetime) (t : Time) :
    ∃ s', run (markFinished job.jobId failed d) s = (s', .ok ()) ∧
      Shows expiry s' (job.markFinished t failed) ∧ Within job.jobId s s' := by
  obtain ⟨s', hexec, hshows⟩ := h.hset (fun _ henc => henc.markFinished failed d t) rfl rfl
  exact ⟨s', run_send hexec, hshows⟩

/-- What an `add_error` makes of the job that is shown. -/
def pushed (msg : PyStr) (job : ImportJob) : ImportJob :=
  if msg.isEncodable then job.addError msg else job

/-- The error of a `record` as far as it is pushed. -/
def sent (error : Option PyStr) : Option PyStr := error.filter PyStr.isEncodable

/-- A message that cannot be encoded raises, and nothing is sent. -/
theorem run_pushError_error {S : RedisJobStore} {jobId : UUID} {msg : PyStr}
    (hmsg : ¬ msg.isEncodable) (s : Server) :
    run (S.pushError jobId msg) s = (s, .error (.unicodeEncodeError msg)) := by
  rw [pushError, PyStr.isEncodable_eq_false.1 hmsg]
  rfl

theorem addError_shows (h : Shows expiry s job) {S : RedisJobStore} (hpos : 0 < S.ttl)
    (hsoon : expiry ≤ s.clock + S.ttl) (msg : PyStr) :
    ∃ s' r, run (S.addError job.jobId msg) s = (s', r) ∧ Shows expiry s' (pushed msg job) ∧
      Within job.jobId s s' := by
  unfold pushed
  by_cases hmsg : msg.isEncodable
  · obtain ⟨text, rfl⟩ := PyStr.isEncodable_eq_true.1 hmsg
    obtain ⟨s', hexec, hshows, hw⟩ := h.push hpos hsoon text
    rw [if_pos hmsg, addError, pushError, PyStr.encode_ofString]
    exact ⟨s', .ok (), run_send hexec, hshows, hw⟩
  · rw [if_neg hmsg]
    exact ⟨s, _, run_pushError_error hmsg s, h, ⟨rfl, fun _ _ _ => rfl⟩⟩

theorem record_shows (h : Shows expiry s job) {S : RedisJobStore} (hpos : 0 < S.ttl)
    (hsoon : expiry ≤ s.clock + S.ttl) (success : Bool) (error : Option PyStr) :
    ∃ s' r, run (S.record job.jobId success error) s = (s', r) ∧
      Shows expiry s' (job.record success (sent error)) ∧ Within job.jobId s s' := by
  obtain ⟨s₁, n₁, hvisit, h₁, hw₁⟩ := h.visit
  obtain ⟨s₂, n₂, hscore, h₂, hw₂⟩ := h₁.score success
  have hw := hw₁.trans hw₂
  unfold record
  rw [run_send_bind hvisit]
  have hscore' : exec s₁ (.hincrby (hashKey job.jobId) (outcomeField success) 1) =
      (s₂, .ok n₂) := hscore
  rw [run_send_bind hscore']
  cases error with
  | none => exact ⟨s₂, _, rfl, h₂, hw⟩
  | some msg =>
    by_cases hmsg : msg = ""
    · subst hmsg
      exact ⟨s₂, _, rfl, h₂, hw⟩
    · have hid := scored_jobId success (visited job)
      have hclock : expiry ≤ s₂.clock + S.ttl := by rwa [hw.clock]
      obtain ⟨s₃, r, hpush, h₃, hw₃⟩ := addError_shows h₂ hpos hclock msg
      rw [hid] at hpush hw₃
      have hrecord : job.record success (sent (some msg)) =
          pushed msg (scored success (visited job)) := by
        by_cases hencodable : msg.isEncodable
        · rw [sent, Option.filter_some_pos hencodable, pushed, if_pos hencodable]
          exact if_pos hmsg
        · rw [sent, Option.filter_some_neg (by simpa using hencodable), pushed, if_neg hencodable]
          rfl
      dsimp only
      rw [if_pos hmsg, hrecord]
      exact ⟨s₃, r, hpush, h₃, hw.trans hw₃⟩

end shows

end RedisJobStore

end FaceRecognition.Services
