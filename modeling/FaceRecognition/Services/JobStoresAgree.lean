import FaceRecognition.Lib.Run
import FaceRecognition.Services.RedisJobStore

/-!
# The Redis job store refines the in-process one

The same calls run on both stores, each call one after the other, on any number of jobs. While no
key expires, every created job is shown by its keys as the in-process store holds it, but for the
messages that cannot be encoded (`Refines`). So `get` returns the same from both exactly as long as
none of these is among the first hundred messages of the job (`redis_refines_iff`).
-/

namespace FaceRecognition.Services

open Relational Db Client
open Redis (Server)
open RedisJobStore

/-- A call of a method. Each store reads its own clock: `now` is what the in-process store keeps,
`nowUtc` what the Redis store writes. -/
inductive StoreCall where
  | create (jobId : UUID)
  | get (jobId : UUID)
  | markRunning (jobId : UUID) (total : ℕ) (now : Time) (nowUtc : Datetime)
  | markFinished (jobId : UUID) (failed : Bool) (now : Time) (nowUtc : Datetime)
  | record (jobId : UUID) (success : Bool) (error : Option PyStr)
  | addError (jobId : UUID) (msg : PyStr)
  deriving DecidableEq

namespace StoreCall

def jobId : StoreCall → UUID
  | .create id | .get id | .markRunning id _ _ _ | .markFinished id _ _ _ | .record id _ _
  | .addError id _ => id

def isCreate : StoreCall → Bool
  | .create _ => true
  | _ => false

/-- What a call on an existing job does to it. -/
def act : StoreCall → ImportJob → ImportJob
  | .create _, job => job
  | .get _, job => job
  | .markRunning _ total now _, job => job.markRunning now total
  | .markFinished _ failed now _, job => job.markFinished now failed
  | .record _ success error, job => job.record success error
  | .addError _ msg, job => job.addError msg

/-- The message of a call; an empty error of a `record` is none. -/
def message : StoreCall → Option PyStr
  | .record _ _ error => error.filter fun msg => msg ≠ ""
  | .addError _ msg => some msg
  | .create _ | .get _ | .markRunning _ _ _ _ | .markFinished _ _ _ _ => none

/-- What a call does to a job apart from its message. -/
def counted : StoreCall → ImportJob → ImportJob
  | .record _ success _, job => job.record success none
  | .addError _ _, job => job
  | call, job => call.act job

/-- What a call on a job makes of its keys. -/
def shown (call : StoreCall) (job : ImportJob) : ImportJob :=
  (sent call.message).elim (call.counted job) fun msg => (call.counted job).addError msg

theorem act_jobId (call : StoreCall) (job : ImportJob) : (call.act job).jobId = job.jobId := by
  cases call with
  | record _ success error => exact job.record_jobId success error
  | addError _ msg => exact job.addError_jobId msg
  | _ => rfl

theorem message_record {msg : PyStr} (h : msg ≠ "") (jobId : UUID) (success : Bool) :
    (record jobId success (some msg)).message = some msg := by
  simp [message, h]

theorem act_eq (call : StoreCall) (job : ImportJob) : call.act job =
    call.message.elim (call.counted job) fun msg => (call.counted job).addError msg := by
  cases call with
  | record _ success error =>
    cases error with
    | none => rfl
    | some msg =>
      by_cases hmsg : msg = ""
      · subst hmsg
        rfl
      · rw [message_record hmsg]
        exact if_pos hmsg
  | _ => rfl

/-- The call is shown as a `record` of what is pushed. -/
theorem shown_record (jobId : UUID) (success : Bool) (error : Option PyStr) (job : ImportJob) :
    (record jobId success error).shown job = job.record success (sent error) := by
  cases error with
  | none => rfl
  | some msg =>
    by_cases hmsg : msg = ""
    · subst hmsg
      rfl
    · rw [shown, message_record hmsg]
      by_cases hencodable : msg.isEncodable
      · rw [sent, Option.filter_some_pos hencodable]
        exact (if_pos hmsg).symm
      · rw [sent, Option.filter_some_neg (by simpa using hencodable)]
        rfl

theorem shown_addError (jobId : UUID) (msg : PyStr) (job : ImportJob) :
    (addError jobId msg).shown job = pushed msg job := by
  unfold pushed
  by_cases hencodable : msg.isEncodable
  · rw [if_pos hencodable, shown, message, sent, Option.filter_some_pos hencodable]
    rfl
  · rw [if_neg hencodable, shown, message, sent,
      Option.filter_some_neg (by simpa using hencodable)]
    rfl

theorem shown_jobId (call : StoreCall) (job : ImportJob) : (call.shown job).jobId = job.jobId := by
  cases call with
  | record id success error =>
    rw [shown_record]
    exact job.record_jobId success (sent error)
  | addError id msg =>
    rw [shown_addError]
    unfold pushed
    split_ifs
    · exact job.addError_jobId msg
    · rfl
  | _ => rfl

/-! What a call does with a list of errors. -/

theorem counted_errors (call : StoreCall) (job : ImportJob) :
    (call.counted job).errors = job.errors := by
  cases call with
  | record _ success _ => cases success <;> rfl
  | _ => rfl

theorem counted_withErrors (call : StoreCall) (job : ImportJob) (errors : List PyStr) :
    call.counted { job with errors := errors } = { call.counted job with errors := errors } := by
  cases call with
  | record _ success _ => cases success <;> rfl
  | _ => rfl

theorem elim_addError {job : ImportJob} (h : job.errors.length ≤ errorCap) (msg : Option PyStr) :
    msg.elim job (fun msg => job.addError msg) =
      { job with errors := (job.errors ++ msg.toList).take errorCap } := by
  cases msg with
  | none =>
    rw [Option.toList_none, List.append_nil, List.take_of_length_le h]
    rfl
  | some msg => exact addError_eq h msg

/-- A job with the first hundred of `msgs`. -/
def logging (msgs : List PyStr) (job : ImportJob) : ImportJob :=
  { job with errors := msgs.take errorCap }

theorem elim_logging (call : StoreCall) (job : ImportJob) (msgs : List PyStr)
    (msg : Option PyStr) :
    msg.elim (call.counted (logging msgs job)) (fun msg =>
        (call.counted (logging msgs job)).addError msg) =
      logging (msgs ++ msg.toList) (call.counted job) := by
  have hcap : (call.counted (logging msgs job)).errors.length ≤ errorCap := by
    rw [counted_errors]
    exact List.length_take_le _ _
  rw [elim_addError hcap, counted_errors, logging, take_append_take, counted_withErrors]
  rfl

theorem act_logging (call : StoreCall) (job : ImportJob) (msgs : List PyStr) :
    call.act (logging msgs job) =
      logging (msgs ++ call.message.toList) (call.counted job) := by
  rw [act_eq, elim_logging]

theorem shown_logging (call : StoreCall) (job : ImportJob) (msgs : List PyStr) :
    call.shown (logging msgs job) =
      logging (msgs ++ (sent call.message).toList) (call.counted job) :=
  elim_logging call job msgs _

end StoreCall

def InProcessJobStore.perform (jobs : InProcessJobStore) : StoreCall → InProcessJobStore
  | .create id => jobs.create id
  | .get _ => jobs
  | .markRunning id total now _ => jobs.update id (ImportJob.markRunning now total)
  | .markFinished id failed now _ => jobs.update id (ImportJob.markFinished now failed)
  | .record id success error => jobs.update id (ImportJob.record success error)
  | .addError id msg => jobs.update id (ImportJob.addError msg)

/-- `get` changes nothing, the other calls on existing jobs act on the job they name. -/
theorem InProcessJobStore.perform_eq (jobs : InProcessJobStore) {call : StoreCall}
    (hold : call.isCreate = false) :
    jobs.perform call = jobs.update call.jobId call.act ∨
      (jobs.perform call = jobs ∧ ∀ job, call.act job = job) := by
  cases call with
  | create id => cases hold
  | get id => exact .inr ⟨rfl, fun _ => rfl⟩
  | markRunning id total now nowUtc => exact .inl rfl
  | markFinished id failed now nowUtc => exact .inl rfl
  | record id success error => exact .inl rfl
  | addError id msg => exact .inl rfl

theorem InProcessJobStore.get?_perform {jobs : InProcessJobStore} {call : StoreCall}
    (hold : call.isCreate = false) {job : ImportJob} (h : jobs.get? call.jobId = some job) :
    (jobs.perform call).get? call.jobId = some (call.act job) := by
  rcases jobs.perform_eq hold with he | ⟨he, hact⟩
  · rw [he]
    exact get?_update call.act_jobId h
  · rw [he, hact, h]

theorem InProcessJobStore.get?_perform_of_ne {jobs : InProcessJobStore} {call : StoreCall}
    (hold : call.isCreate = false) {id : UUID} (h : id ≠ call.jobId) :
    (jobs.perform call).get? id = jobs.get? id := by
  rcases jobs.perform_eq hold with he | ⟨he, -⟩
  · rw [he]
    exact get?_update_of_ne call.act_jobId h
  · rw [he]

namespace RedisJobStore

/-- A call, with what `get` returns. -/
def perform (S : RedisJobStore) : StoreCall → StoreM (Option JobSnapshot)
  | .create id => do
    let _ ← S.create id
    return none
  | .get id => get id
  | .markRunning id total _ nowUtc => do
    markRunning id total nowUtc
    return none
  | .markFinished id failed _ nowUtc => do
    markFinished id failed nowUtc
    return none
  | .record id success error => do
    S.record id success error
    return none
  | .addError id msg => do
    S.addError id msg
    return none

theorem run_bind {α β : Type} {m : StoreM α} {s s' : Server} {a : α}
    (h : run m s = (s', .ok a)) (k : α → StoreM β) : run (m >>= k) s = run (k a) s' := by
  have hbind := Prog.eval_bind Redis.Collections.exec s m.run (ExceptT.bindCont k)
  have h' : m.run.eval Redis.Collections.exec s = (s', .ok a) := h
  rw [h'] at hbind
  exact hbind

section
variable {S : RedisJobStore} {expiry : ℚ} {s : Server} {job : ImportJob}

theorem run_andNone {α : Type} {m : StoreM α} {s s' : Server} {a : α} (h : run m s = (s', .ok a)) :
    run (m >>= fun _ => (return none : StoreM (Option JobSnapshot))) s = (s', .ok none) :=
  run_bind h _

theorem run_andNone_server {α : Type} (m : StoreM α) (s : Server) :
    (run (m >>= fun _ => (return none : StoreM (Option JobSnapshot))) s).1 = (run m s).1 := by
  have hbind := Prog.eval_bind Redis.Collections.exec s m.run
    (ExceptT.bindCont fun _ => (return none : StoreM (Option JobSnapshot)))
  refine (congrArg Prod.fst hbind).trans ?_
  unfold run
  cases (m.run.eval Redis.Collections.exec s).2 <;> rfl

/-- A call on a job that is shown: the keys show what the call makes of them. -/
theorem perform_shows (h : Shows expiry s job) (hpos : 0 < S.ttl)
    (hsoon : expiry ≤ s.clock + S.ttl) {call : StoreCall} (hid : call.jobId = job.jobId)
    (hold : call.isCreate = false) :
    Shows expiry (run (S.perform call) s).1 (call.shown job) ∧
      Within job.jobId s (run (S.perform call) s).1 ∧
      (call = .get job.jobId → ∃ v, (run (S.perform call) s).2 = .ok (some v) ∧ Agrees v job) := by
  cases call with
  | create id => cases hold
  | get id =>
    obtain rfl : id = job.jobId := hid
    obtain ⟨v, hrun, hv⟩ := get_of_shows h
    have hrun : run (S.perform (.get job.jobId)) s = (s, .ok (some v)) := hrun
    rw [hrun]
    exact ⟨h, ⟨rfl, fun _ _ _ => rfl⟩, fun _ => ⟨v, rfl, hv⟩⟩
  | markRunning id total now nowUtc =>
    obtain rfl : id = job.jobId := hid
    obtain ⟨s', hrun, hshows, hw⟩ := markRunning_shows h total nowUtc now
    rw [perform, run_andNone_server, hrun]
    exact ⟨hshows, hw, fun he => by cases he⟩
  | markFinished id failed now nowUtc =>
    obtain rfl : id = job.jobId := hid
    obtain ⟨s', hrun, hshows, hw⟩ := markFinished_shows h failed nowUtc now
    rw [perform, run_andNone_server, hrun]
    exact ⟨hshows, hw, fun he => by cases he⟩
  | record id success error =>
    obtain rfl : id = job.jobId := hid
    obtain ⟨s', r, hrun, hshows, hw⟩ := record_shows h hpos hsoon success error
    rw [perform, run_andNone_server, hrun, StoreCall.shown_record]
    exact ⟨hshows, hw, fun he => by cases he⟩
  | addError id msg =>
    obtain rfl : id = job.jobId := hid
    obtain ⟨s', r, hrun, hshows, hw⟩ := addError_shows h hpos hsoon msg
    rw [perform, run_andNone_server, hrun, StoreCall.shown_addError]
    exact ⟨hshows, hw, fun he => by cases he⟩

/-! ### Runs -/

/-- Some time passes, then a call is made. -/
abbrev Timed := ℚ × StoreCall

def step (S : RedisJobStore) (s : Server) (e : Timed) : Option Server :=
  if 0 ≤ e.1 then some (run (S.perform e.2) (s.tick e.1)).1 else none

/-- No key expires before the call. -/
def NoExpiry (s : Server) (e : Timed) : Prop := (s.tick e.1).keys = s.keys

end
end RedisJobStore

/-- The ids of the jobs that the calls create. -/
def createdBy (calls : List StoreCall) : List UUID :=
  (calls.filter StoreCall.isCreate).map StoreCall.jobId

theorem createdBy_create (id : UUID) (calls : List StoreCall) :
    createdBy (.create id :: calls) = id :: createdBy calls := rfl

theorem createdBy_old {call : StoreCall} (hold : call.isCreate = false) (calls : List StoreCall) :
    createdBy (call :: calls) = createdBy calls := by
  simp [createdBy, hold]

/-- `create` draws a new id; the other calls name an id that `create` has returned. -/
def Addressed (created : List UUID) : List StoreCall → Prop
  | [] => True
  | call :: calls =>
    if call.isCreate then call.jobId ∉ created ∧ Addressed (call.jobId :: created) calls
    else call.jobId ∈ created ∧ Addressed created calls

theorem Addressed.take {created : List UUID} {pre calls : List StoreCall}
    (h : Addressed created calls) (hpre : pre <+: calls) : Addressed created pre := by
  induction pre generalizing created calls with
  | nil => trivial
  | cons call pre ih =>
    obtain ⟨post, rfl⟩ := hpre
    rw [List.cons_append, Addressed] at h
    rw [Addressed]
    split_ifs at h ⊢
    · exact ⟨h.1, ih h.2 (List.prefix_append _ _)⟩
    · exact ⟨h.1, ih h.2 (List.prefix_append _ _)⟩

/-- The messages of the calls on a job, in their order. -/
def messagesOf (id : UUID) (calls : List StoreCall) : List PyStr :=
  (calls.filter fun call => call.jobId = id).flatMap fun call => call.message.toList

theorem messagesOf_append (id : UUID) (calls calls' : List StoreCall) :
    messagesOf id (calls ++ calls') = messagesOf id calls ++ messagesOf id calls' := by
  simp [messagesOf]

theorem messagesOf_cons (id : UUID) (call : StoreCall) (calls : List StoreCall) :
    messagesOf id (call :: calls) = messagesOf id [call] ++ messagesOf id calls :=
  messagesOf_append id [call] calls

theorem messagesOf_self (call : StoreCall) :
    messagesOf call.jobId [call] = call.message.toList := by
  simp [messagesOf]

theorem messagesOf_of_ne {id : UUID} {call : StoreCall} (h : id ≠ call.jobId) :
    messagesOf id [call] = [] := by
  simp [messagesOf, Ne.symm h]

/-- What a capped list keeps is in both cases the same, when all that is kept passes the filter. -/
theorem take_filter_eq_iff {α : Type} {p : α → Bool} {items : List α} {n : ℕ} :
    (items.filter p).take n = items.take n ↔ ∀ item ∈ items.take n, p item := by
  constructor
  · intro h item hitem
    rw [← h] at hitem
    exact List.of_mem_filter (List.mem_of_mem_take hitem)
  · intro h
    have hsplit : items.filter p = items.take n ++ (items.drop n).filter p := by
      nth_rewrite 1 [← List.take_append_drop n items]
      rw [List.filter_append, List.filter_eq_self.2 h]
    rcases le_or_gt n items.length with hn | hn
    · rw [hsplit, List.take_append_of_le_length (by rw [List.length_take_of_le hn]),
        List.take_take, min_self]
    · rw [List.drop_eq_nil_of_le hn.le, List.filter_nil, List.append_nil] at hsplit
      rw [hsplit, List.take_take, min_self]

/-- The in-process store holds of each created job the first hundred of its messages, its keys show
the first hundred that can be encoded. Other jobs have no keys and no messages. -/
structure Refines (S : RedisJobStore) (created : List UUID) (log : UUID → List PyStr) (s : Server)
    (jobs : InProcessJobStore) : Prop where
  held : ∀ id ∈ created, ∃ job expiry, jobs.get? id = some (StoreCall.logging (log id) job) ∧
    Shows expiry s (StoreCall.logging ((log id).filter PyStr.isEncodable) job) ∧
    expiry ≤ s.clock + S.ttl
  free : ∀ id, id ∉ created →
    s.keys (hashKey id) = none ∧ s.keys (errorsKey id) = none ∧ log id = []

section refinement
variable {S : RedisJobStore} {created : List UUID} {log : UUID → List PyStr} {s : Server}
  {jobs : InProcessJobStore}

theorem Refines.tick (h : Refines S created log s jobs) {dt : ℚ} (hdt : 0 ≤ dt)
    (hlive : (s.tick dt).keys = s.keys) : Refines S created log (s.tick dt) jobs where
  held id hid := by
    obtain ⟨job, expiry, hjob, hshows, hsoon⟩ := h.held id hid
    refine ⟨job, expiry, hjob, hshows.of_keys (by rw [hlive]) (by rw [hlive]), ?_⟩
    simp only [Server.tick]
    linarith
  free id hid := by
    rw [hlive]
    exact h.free id hid

/-- A step on the keys of one job leaves the others as they are. -/
theorem Refines.others (h : Refines S created log s jobs) {s' : Server} {id jobId : UUID}
    (hw : Within jobId s s') (hne : id ≠ jobId) :
    (id ∈ created → ∃ job expiry, jobs.get? id = some (StoreCall.logging (log id) job) ∧
      Shows expiry s' (StoreCall.logging ((log id).filter PyStr.isEncodable) job) ∧
      expiry ≤ s'.clock + S.ttl) ∧
    (id ∉ created → s'.keys (hashKey id) = none ∧ s'.keys (errorsKey id) = none ∧ log id = []) := by
  constructor
  · intro hid
    obtain ⟨job, expiry, hjob, hshows, hsoon⟩ := h.held id hid
    have hjobId : job.jobId = id := Table.pk_of_get? hjob
    exact ⟨job, expiry, hjob, hshows.within hw (hjobId.trans_ne hne), by rwa [hw.clock]⟩
  · intro hid
    obtain ⟨hhash, herrors, hlog⟩ := h.free id hid
    have hkeyHash : hashKey id ≠ hashKey jobId := fun heq => hne (hashKey_injective heq)
    have hkeyErrors : errorsKey id ≠ errorsKey jobId := fun heq => hne (errorsKey_injective heq)
    refine ⟨?_, ?_, hlog⟩
    · rwa [hw.keys _ hkeyHash (hashKey_ne_errorsKey _ _)]
    · rwa [hw.keys _ (Ne.symm (hashKey_ne_errorsKey _ _)) hkeyErrors]

theorem Refines.create (h : Refines S created log s jobs) (hpos : 0 < S.ttl) {id : UUID}
    (hnew : id ∉ created) :
    Refines S (id :: created) log (run (S.perform (.create id)) s).1 (jobs.create id) := by
  obtain ⟨hhash, herrors, hlog⟩ := h.free id hnew
  obtain ⟨s', hrun, hshows, hw⟩ := create_shows hpos hhash herrors
  have hrun' : run (S.perform (.create id)) s = (s', .ok none) := run_andNone hrun
  rw [hrun']
  constructor
  · intro id' hid'
    rcases List.mem_cons.1 hid' with rfl | hid'
    · refine ⟨{ jobId := id' }, _, ?_, ?_, by rw [hw.clock]⟩
      · rw [hlog]
        exact Table.get?_put_self _ _
      · rw [hlog]
        exact hshows
    · have hne : id' ≠ id := fun he => hnew (he ▸ hid')
      obtain ⟨job, expiry, hjob, hkept⟩ := (h.others hw hne).1 hid'
      exact ⟨job, expiry, (Table.get?_put_of_ne _ (Ne.symm hne)).trans hjob, hkept⟩
  · intro id' hid'
    obtain ⟨hne, hold⟩ : id' ≠ id ∧ id' ∉ created := by simpa using hid'
    exact (h.others hw hne).2 hold

theorem Refines.call (h : Refines S created log s jobs) (hpos : 0 < S.ttl) {call : StoreCall}
    (hold : call.isCreate = false) (hid : call.jobId ∈ created) :
    Refines S created (fun id => log id ++ messagesOf id [call])
      (run (S.perform call) s).1 (jobs.perform call) := by
  obtain ⟨job, expiry, hjob, hshows, hsoon⟩ := h.held call.jobId hid
  have hjobId : job.jobId = call.jobId := Table.pk_of_get? hjob
  obtain ⟨hshows', hw, -⟩ := perform_shows hshows hpos hsoon hjobId.symm hold
  have hw : Within call.jobId s (run (S.perform call) s).1 := hjobId ▸ hw
  constructor
  · intro id' hid'
    by_cases he : id' = call.jobId
    · subst he
      refine ⟨call.counted job, expiry, ?_, ?_, by rwa [hw.clock]⟩
      · rw [messagesOf_self, ← StoreCall.act_logging]
        exact InProcessJobStore.get?_perform hold hjob
      · rw [messagesOf_self, List.filter_append, ← Option.toList_filter]
        rwa [StoreCall.shown_logging] at hshows'
    · obtain ⟨job', expiry', hjob', hkept⟩ := (h.others hw he).1 hid'
      rw [messagesOf_of_ne he, List.append_nil]
      exact ⟨job', expiry', (InProcessJobStore.get?_perform_of_ne hold he).trans hjob', hkept⟩
  · intro id' hid'
    have hne : id' ≠ call.jobId := fun he => hid' (he ▸ hid)
    rw [messagesOf_of_ne hne, List.append_nil]
    exact (h.others hw hne).2 hid'

/-- A run of calls keeps the refinement. -/
theorem Refines.exec (hpos : 0 < S.ttl) {events : List Timed} {s' : Server}
    (h : Refines S created log s jobs) (haddr : Addressed created (events.map Prod.snd))
    (hlive : Run.Guarded S.step NoExpiry s events) (hrun : Run.exec S.step s events = some s') :
    ∃ created', (∀ id ∈ created ++ createdBy (events.map Prod.snd), id ∈ created') ∧
      Refines S created' (fun id => log id ++ messagesOf id (events.map Prod.snd)) s'
        ((events.map Prod.snd).foldl InProcessJobStore.perform jobs) := by
  induction events generalizing s jobs created log with
  | nil =>
    cases hrun
    have hlog : (fun id => log id ++ messagesOf id []) = log :=
      funext fun id => List.append_nil _
    refine ⟨created, by simp [createdBy], ?_⟩
    rw [List.map_nil, hlog]
    exact h
  | cons e events ih =>
    obtain ⟨dt, call⟩ := e
    obtain ⟨t, ht, hrest⟩ := Run.exec_cons.1 hrun
    have hlive' := hlive.2 t ht
    unfold RedisJobStore.step at ht
    split_ifs at ht with hdt
    obtain rfl := Option.some.inj ht
    have htick := h.tick hdt hlive.1
    have hlog : (fun id => log id ++ messagesOf id (call :: events.map Prod.snd)) =
        fun id => (log id ++ messagesOf id [call]) ++ messagesOf id (events.map Prod.snd) :=
      funext fun id => by rw [messagesOf_cons, List.append_assoc]
    rw [List.map_cons, List.foldl_cons, hlog]
    rw [List.map_cons, Addressed] at haddr
    cases hcreate : call.isCreate with
    | true =>
      obtain ⟨id, rfl⟩ : ∃ id, call = .create id := by
        cases call with
        | create id => exact ⟨id, rfl⟩
        | _ => cases hcreate
      have haddr : id ∉ created ∧ Addressed (id :: created) (events.map Prod.snd) := haddr
      have hquiet : ∀ id', log id' ++ messagesOf id' [.create id] = log id' := fun id' => by
        by_cases he : id = id' <;> simp [messagesOf, StoreCall.jobId, StoreCall.message, he]
      simp only [hquiet]
      obtain ⟨created', hsub, hrefines⟩ := ih (htick.create hpos haddr.1) haddr.2 hlive' hrest
      refine ⟨created', fun id' hid' => hsub id' ?_, hrefines⟩
      rw [createdBy_create] at hid'
      simp only [List.mem_append, List.mem_cons] at hid' ⊢
      rcases hid' with hid' | hid' | hid'
      · exact .inl (.inr hid')
      · exact .inl (.inl hid')
      · exact .inr hid'
    | false =>
      rw [if_neg (by simp [hcreate])] at haddr
      obtain ⟨created', hsub, hrefines⟩ := ih (htick.call hpos hcreate haddr.1) haddr.2 hlive' hrest
      refine ⟨created', fun id' hid' => hsub id' ?_, hrefines⟩
      rwa [createdBy_old hcreate] at hid'

/-- `get` returns the same from both stores. -/
def SameGet (s : Server) (jobs : InProcessJobStore) (id : UUID) : Prop :=
  ∃ v job, run (get id) s = (s, .ok (some v)) ∧ jobs.get? id = some job ∧ Agrees v job

theorem Refines.sameGet_iff (h : Refines S created log s jobs) {id : UUID} (hid : id ∈ created) :
    SameGet s jobs id ↔ ∀ msg ∈ (log id).take errorCap, msg.isEncodable := by
  obtain ⟨job, expiry, hjob, hshows, -⟩ := h.held id hid
  obtain rfl : job.jobId = id := Table.pk_of_get? hjob
  obtain ⟨v, hget, hv⟩ := get_of_shows hshows
  have hget : run (get job.jobId) s = (s, .ok (some v)) := hget
  rw [← take_filter_eq_iff]
  constructor
  · rintro ⟨v', job', hget', hjob', hv'⟩
    obtain rfl : v' = v := by
      rw [hget] at hget'
      exact (Option.some.inj (Except.ok.inj (congrArg Prod.snd hget'))).symm
    obtain rfl := Option.some.inj (hjob.symm.trans hjob')
    exact hv.errors.symm.trans hv'.errors
  · intro hsame
    have hlogging : StoreCall.logging ((log job.jobId).filter PyStr.isEncodable) job =
        StoreCall.logging (log job.jobId) job := by
      rw [StoreCall.logging, hsame, StoreCall.logging]
    exact ⟨v, _, hget, hjob, hlogging ▸ hv⟩

/-- `get` after a run of calls. -/
theorem sameGet_iff {s₀ : Server} {events : List Timed} (hpos : 0 < S.ttl)
    (hempty : ∀ id, s₀.keys (hashKey id) = none ∧ s₀.keys (errorsKey id) = none)
    (haddr : Addressed [] (events.map Prod.snd)) (hlive : Run.Guarded S.step NoExpiry s₀ events)
    (hrun : Run.exec S.step s₀ events = some s) {id : UUID}
    (hid : id ∈ createdBy (events.map Prod.snd)) :
    SameGet s ((events.map Prod.snd).foldl InProcessJobStore.perform Table.empty) id ↔
      ∀ msg ∈ (messagesOf id (events.map Prod.snd)).take errorCap, msg.isEncodable := by
  have hstart : Refines S [] (fun _ => []) s₀ Table.empty :=
    ⟨by simp, fun id _ => ⟨(hempty id).1, (hempty id).2, rfl⟩⟩
  obtain ⟨created, hcreated, hrefines⟩ := hstart.exec hpos haddr hlive hrun
  exact hrefines.sameGet_iff (hcreated id (by simpa using hid))

/-- **When the stores agree on live jobs.** Calls on created jobs, one after another, with no key
expiring in between: after every prefix of the calls `get` returns the same from both stores, for
every created job, iff no created job has a message that cannot be encoded among its first
hundred. -/
theorem redis_refines_iff (S : RedisJobStore) (hpos : 0 < S.ttl) (s₀ s : Server)
    (events : List Timed)
    (hempty : ∀ id, s₀.keys (hashKey id) = none ∧ s₀.keys (errorsKey id) = none)
    (haddr : Addressed [] (events.map Prod.snd)) (hlive : Run.Guarded S.step NoExpiry s₀ events)
    (hrun : Run.exec S.step s₀ events = some s) :
    (∀ pre, pre <+: events → ∀ t, Run.exec S.step s₀ pre = some t →
      ∀ id ∈ createdBy (pre.map Prod.snd),
        SameGet t ((pre.map Prod.snd).foldl InProcessJobStore.perform Table.empty) id) ↔
      ∀ id ∈ createdBy (events.map Prod.snd),
        ∀ msg ∈ (messagesOf id (events.map Prod.snd)).take errorCap, msg.isEncodable := by
  constructor
  · intro h id hid
    exact (sameGet_iff hpos hempty haddr hlive hrun hid).1
      (h events (List.prefix_refl _) s hrun id hid)
  · intro h pre hpre t ht id hid
    refine (sameGet_iff hpos hempty (haddr.take (hpre.map Prod.snd)) (hlive.take hpre) ht hid).2 ?_
    obtain ⟨post, rfl⟩ := hpre
    intro msg hmsg
    refine h id ?_ msg ?_
    · rw [List.map_append, createdBy, List.filter_append, List.map_append]
      exact List.mem_append_left _ hid
    · rw [List.map_append, messagesOf_append, List.take_append]
      exact List.mem_append_left _ hmsg

/-- A job is created, and one image fails. -/
def oneImage (msg : PyStr) : List Timed := [(0, .create 1), (0, .record 1 false (some msg))]

theorem oneImage_addressed (msg : PyStr) : Addressed [] ((oneImage msg).map Prod.snd) := by
  simp [oneImage, Addressed, StoreCall.isCreate, StoreCall.jobId]

theorem oneImage_live (msg : PyStr) :
    Run.Guarded (step {}) NoExpiry ⟨0, fun _ => none⟩ (oneImage msg) := by
  refine Run.guarded_cons rfl rfl (Run.guarded_cons ?_ rfl trivial)
  funext key
  refine Redis.tick_keys fun e d he hd => ?_
  have hcreated : (((Server.tick ⟨0, fun _ => none⟩ 0).set (hashKey 1) _).set (hashKey 1)
      (some ⟨_, some (0 + 0 + 86400)⟩)).keys key = some e := he
  by_cases hkey : key = hashKey 1
  · rw [hkey, Server.set_same] at hcreated
    cases hcreated
    cases hd
    show (0 : ℚ) + 0 + 0 < 0 + 0 + 86400
    norm_num
  · rw [Server.set_of_ne _ _ hkey, Server.set_of_ne _ _ hkey] at hcreated
    cases hcreated

theorem redis_refines_iff_one_image :
    ∃ s, Run.exec (step {}) ⟨0, fun _ => none⟩ (oneImage "1.jpg: no face") = some s ∧
      SameGet s (((oneImage "1.jpg: no face").map Prod.snd).foldl
        InProcessJobStore.perform Table.empty) 1 := by
  obtain ⟨s, hrun⟩ : ∃ s, Run.exec (step {}) ⟨0, fun _ => none⟩ (oneImage "1.jpg: no face") =
      some s := ⟨_, rfl⟩
  have hencodable : ∀ id ∈ createdBy ((oneImage "1.jpg: no face").map Prod.snd),
      ∀ msg ∈ (messagesOf id ((oneImage "1.jpg: no face").map Prod.snd)).take errorCap,
        msg.isEncodable := by decide +kernel
  have hsame := (redis_refines_iff {} (by decide) ⟨0, fun _ => none⟩ s _ (fun _ => ⟨rfl, rfl⟩)
    (oneImage_addressed _) (oneImage_live _) hrun).2 hencodable
  exact ⟨s, hrun, hsame _ (List.prefix_refl _) s hrun 1 (by decide)⟩

/-- The message of an image that is not decoded, its name the byte 0xff and ".jpg". -/
def undecodableName : PyStr :=
  ⟨"photos/Ada/".toList.map .scalar ++
    .surrogate 0x4ff :: ".jpg: could not decode image".toList.map .scalar⟩

theorem surrogate_not_pushed :
    ∃ s, Run.exec (step {}) ⟨0, fun _ => none⟩ (oneImage undecodableName) = some s ∧
      Addressed [] ((oneImage undecodableName).map Prod.snd) ∧
      Run.Guarded (step {}) NoExpiry ⟨0, fun _ => none⟩ (oneImage undecodableName) ∧
      1 ∈ createdBy ((oneImage undecodableName).map Prod.snd) ∧
      ¬ SameGet s (((oneImage undecodableName).map Prod.snd).foldl
        InProcessJobStore.perform Table.empty) 1 := by
  obtain ⟨s, hrun⟩ : ∃ s, Run.exec (step {}) ⟨0, fun _ => none⟩ (oneImage undecodableName) =
      some s := ⟨_, rfl⟩
  refine ⟨s, hrun, oneImage_addressed _, oneImage_live _, by decide, fun hsame => ?_⟩
  have hencodable := (sameGet_iff (by decide) (fun _ => ⟨rfl, rfl⟩) (oneImage_addressed _)
    (oneImage_live _) hrun (by decide)).1 hsame undecodableName (by decide +kernel)
  exact absurd hencodable (by decide +kernel)

end refinement

end FaceRecognition.Services
