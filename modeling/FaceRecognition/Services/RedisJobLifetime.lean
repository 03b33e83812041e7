import FaceRecognition.Services.JobStoresAgree

/-!
# The lifetime of the keys of a job

Only `create` gives the hash of a job a deadline, and no later call renews it. Until then what the
calls of `get` return goes forward with the calls between them (`progress_forward`); a job that is
read later is gone, or starts again from nothing.

`HSET` and `HINCRBY` create a missing hash, without a deadline. So every key of the store has one,
and every job that can be read was created, exactly as long as each `mark_running`, `mark_finished`
and `record` finds the hash of its job (`keys_bounded_iff`).
-/

namespace FaceRecognition.Services.RedisJobStore

open Relational Db Client
open Redis (Server)
open Redis.Collections

/-! ### Progress goes forward while the job lives -/

abbrev Outcome := Except Error (Option JobSnapshot)

/-- The calls of a run, each with what it returned. -/
def trace (S : RedisJobStore) (s : Server) : List Timed → List (StoreCall × Outcome)
  | [] => []
  | (dt, call) :: events =>
    let out := run (S.perform call) (s.tick dt)
    (call, out.2) :: S.trace out.1 events

/-- What the calls make of a job that is shown. -/
def replay (job : ImportJob) (calls : List (StoreCall × Outcome)) : ImportJob :=
  calls.foldl (fun job c => c.1.shown job) job

/-- A `get` is made before `expiry`. -/
def ReadBefore (expiry : ℚ) (s : Server) (e : Timed) : Prop :=
  ∀ id, e.2 = .get id → s.clock + e.1 < expiry

/-- Every `get` finds the job, and what a later one returns is further on. The total is changed by
`mark_running` alone. -/
structure GoesForward (tr : List (StoreCall × Outcome)) : Prop where
  known : ∀ pre post id r, tr = pre ++ (.get id, r) :: post → ∃ v, r = .ok (some v)
  counters : ∀ pre mid post id id' v v',
    tr = pre ++ (.get id, .ok (some v)) :: (mid ++ (.get id', .ok (some v')) :: post) →
    v.processed ≤ v'.processed ∧ v.succeeded ≤ v'.succeeded ∧ v.failed ≤ v'.failed
  total : ∀ pre mid post id id' v v',
    tr = pre ++ (.get id, .ok (some v)) :: (mid ++ (.get id', .ok (some v')) :: post) →
    (∀ c ∈ mid, ∀ jobId (n : ℕ) now nowUtc, c.1 = .markRunning jobId n now nowUtc →
      (n : ℤ) = v.total) →
    v'.total = v.total
  begun : ∀ pre mid post id id' v v',
    tr = pre ++ (.get id, .ok (some v)) :: (mid ++ (.get id', .ok (some v')) :: post) →
    v.state ≠ "pending" → v'.state ≠ "pending"

theorem shown_forward (call : StoreCall) (job : ImportJob) : job.Forward (call.shown job) := by
  cases call with
  | create id => exact .refl job
  | get id => exact .refl job
  | markRunning id total now nowUtc => exact job.forward_markRunning now total
  | markFinished id failed now nowUtc => exact job.forward_markFinished now failed
  | record id success error =>
    rw [StoreCall.shown_record]
    exact job.forward_record success (sent error)
  | addError id msg =>
    rw [StoreCall.shown_addError, pushed]
    split_ifs
    · exact job.forward_addError msg
    · exact .refl job

theorem replay_forward (job : ImportJob) (calls : List (StoreCall × Outcome)) :
    job.Forward (replay job calls) := by
  induction calls generalizing job with
  | nil => exact .refl job
  | cons c calls ih => exact (shown_forward c.1 job).trans (ih _)

theorem shown_total {call : StoreCall} {job : ImportJob}
    (h : ∀ jobId n now nowUtc, call = .markRunning jobId n now nowUtc → n = job.total) :
    (call.shown job).total = job.total := by
  cases call with
  | create id => rfl
  | get id => rfl
  | markRunning id total now nowUtc => exact h id total now nowUtc rfl
  | markFinished id failed now nowUtc => rfl
  | record id success error =>
    rw [StoreCall.shown_record]
    exact (Prod.ext_iff.1 (Prod.ext_iff.1 (job.record_counts success (sent error))).2).1
  | addError id msg =>
    rw [StoreCall.shown_addError, pushed]
    split_ifs
    · exact (Prod.ext_iff.1 (Prod.ext_iff.1 (job.addError_counts msg)).2).1
    · rfl

theorem replay_total (job : ImportJob) (calls : List (StoreCall × Outcome))
    (h : ∀ c ∈ calls, ∀ jobId n now nowUtc, c.1 = .markRunning jobId n now nowUtc →
      n = job.total) : (replay job calls).total = job.total := by
  induction calls generalizing job with
  | nil => rfl
  | cons c calls ih =>
    have hc : (c.1.shown job).total = job.total := shown_total (h c List.mem_cons_self)
    rw [← hc]
    refine ih _ fun c' hc' jobId n now nowUtc he => ?_
    rw [hc]
    exact h c' (List.mem_cons_of_mem _ hc') jobId n now nowUtc he

theorem text_eq_pending {state : JobState} : state.text = "pending" ↔ state = .pending := by
  cases state <;> simp [JobState.text]

section trace
variable {S : RedisJobStore} {expiry : ℚ} {s s' : Server} {job : ImportJob} {events : List Timed}

theorem trace_cons (S : RedisJobStore) (s : Server) (dt : ℚ) (call : StoreCall)
    (events : List Timed) : S.trace s ((dt, call) :: events) =
      (call, (run (S.perform call) (s.tick dt)).2) ::
        S.trace (run (S.perform call) (s.tick dt)).1 events := rfl

theorem run_clock {α : Type} (m : StoreM α) (s : Server) : (run m s).1.clock = s.clock :=
  Prog.eval_inv (I := fun t => t.clock = s.clock) (fun t c h => (exec_clock t c).trans h) m.run rfl

/-- A later `get` that is made before `expiry`. -/
theorem clock_lt_of_read (hrun : Run.exec S.step s events = some s')
    (hlive : Run.Guarded S.step (ReadBefore expiry) s events)
    {pre post : List (StoreCall × Outcome)} {id : UUID} {r : Outcome}
    (htrace : S.trace s events = pre ++ (.get id, r) :: post) : s.clock < expiry := by
  induction events generalizing s pre with
  | nil => cases pre <;> cases htrace
  | cons e events ih =>
    obtain ⟨dt, call⟩ := e
    obtain ⟨t, ht, hrest⟩ := Run.exec_cons.1 hrun
    have hlive' := hlive.2 t ht
    unfold step at ht
    split_ifs at ht with hdt
    obtain rfl := Option.some.inj ht
    have hle : s.clock ≤ s.clock + dt := by
      have : (0 : ℚ) ≤ dt := hdt
      linarith
    cases pre with
    | nil =>
      obtain rfl : call = .get id := congrArg Prod.fst (List.cons.inj htrace).1
      exact hle.trans_lt (hlive.1 id rfl)
    | cons c pre =>
      have hlater := ih hrest hlive' (List.cons.inj htrace).2
      rw [run_clock] at hlater
      exact hle.trans_lt hlater

/-- A `get` that is made before the job expires returns what the calls so far have made of it. -/
theorem get_in_trace (hpos : 0 < S.ttl) (h : Shows expiry s job)
    (hsoon : expiry ≤ s.clock + S.ttl)
    (hcalls : ∀ e ∈ events, e.2.jobId = job.jobId ∧ e.2.isCreate = false)
    (hrun : Run.exec S.step s events = some s')
    (hlive : Run.Guarded S.step (ReadBefore expiry) s events)
    {pre post : List (StoreCall × Outcome)} {id : UUID} {r : Outcome}
    (htrace : S.trace s events = pre ++ (.get id, r) :: post) :
    ∃ v, r = .ok (some v) ∧ Agrees v (replay job pre) := by
  induction events generalizing s job pre with
  | nil => cases pre <;> cases htrace
  | cons e events ih =>
    obtain ⟨dt, call⟩ := e
    obtain ⟨hid, hold⟩ := hcalls _ List.mem_cons_self
    obtain ⟨t, ht, hrest⟩ := Run.exec_cons.1 hrun
    have hlive' := hlive.2 t ht
    unfold step at ht
    split_ifs at ht with hdt
    obtain rfl := Option.some.inj ht
    have hdt' : (0 : ℚ) ≤ dt := hdt
    have hnow : (s.tick dt).clock < expiry := by
      cases pre with
      | nil =>
        obtain rfl : call = .get id := congrArg Prod.fst (List.cons.inj htrace).1
        exact hlive.1 id rfl
      | cons c pre =>
        have hlater := clock_lt_of_read hrest hlive' (List.cons.inj htrace).2
        rwa [run_clock] at hlater
    have hsoon' : expiry ≤ (s.tick dt).clock + S.ttl := by
      simp only [Server.tick]
      linarith
    obtain ⟨hshows, hw, hresult⟩ := perform_shows (h.tick hnow) hpos hsoon' hid hold
    rw [trace_cons] at htrace
    cases pre with
    | nil =>
      obtain ⟨hcall, hr⟩ := Prod.mk.inj (List.cons.inj htrace).1
      subst hcall
      obtain rfl : id = job.jobId := hid
      obtain ⟨v, hv, hagrees⟩ := hresult rfl
      exact ⟨v, hr.symm.trans hv, hagrees⟩
    | cons c pre =>
      obtain ⟨rfl, hpost⟩ := List.cons.inj htrace
      refine ih hshows (by rwa [hw.clock]) (fun e he => ?_) hrest hlive' hpost
      rw [call.shown_jobId]
      exact hcalls e (List.mem_cons_of_mem _ he)

section gets
variable {job : ImportJob} {tr : List (StoreCall × Outcome)}
  (hget : ∀ pre post id r, tr = pre ++ (.get id, r) :: post →
    ∃ v, r = .ok (some v) ∧ Agrees v (replay job pre))
include hget

/-- What two calls of `get` return, the second one after the calls in `mid`. -/
theorem gets_agree {pre mid post : List (StoreCall × Outcome)} {id id' : UUID} {v v' : JobSnapshot}
    (htrace : tr = pre ++ (.get id, .ok (some v)) :: (mid ++ (.get id', .ok (some v')) :: post)) :
    Agrees v (replay job pre) ∧ Agrees v' (replay (replay job pre) mid) := by
  obtain ⟨u, hu, hagrees⟩ := hget _ _ _ _ htrace
  obtain rfl : v = u := Option.some.inj (Except.ok.inj hu)
  have htrace' : tr =
      (pre ++ (.get id, .ok (some v)) :: mid) ++ (.get id', .ok (some v')) :: post := by
    rw [htrace, List.append_assoc]
    rfl
  obtain ⟨u', hu', hagrees'⟩ := hget _ _ _ _ htrace'
  obtain rfl : v' = u' := Option.some.inj (Except.ok.inj hu')
  have hreplay : replay job (pre ++ (.get id, .ok (some v)) :: mid) =
      replay (replay job pre) mid := by
    unfold replay
    rw [List.foldl_append]
    rfl
  exact ⟨hagrees, hreplay ▸ hagrees'⟩

theorem goesForward_of_gets : GoesForward tr := by
  constructor
  · intro pre post id r htrace
    obtain ⟨v, hr, -⟩ := hget pre post id r htrace
    exact ⟨v, hr⟩
  · intro pre mid post id id' v v' htrace
    obtain ⟨h, h'⟩ := gets_agree hget htrace
    have hforward := replay_forward (replay job pre) mid
    rw [h.processed, h'.processed, h.succeeded, h'.succeeded, h.failed, h'.failed]
    exact ⟨by exact_mod_cast hforward.processed, by exact_mod_cast hforward.succeeded,
      by exact_mod_cast hforward.failed⟩
  · intro pre mid post id id' v v' htrace hmid
    obtain ⟨h, h'⟩ := gets_agree hget htrace
    rw [h.total, h'.total, replay_total]
    intro c hc jobId n now nowUtc hcall
    have htotal := hmid c hc jobId n now nowUtc hcall
    rw [h.total] at htotal
    exact_mod_cast htotal
  · intro pre mid post id id' v v' htrace hbegun
    obtain ⟨h, h'⟩ := gets_agree hget htrace
    rw [h.state, ne_eq, text_eq_pending] at hbegun
    rw [h'.state, ne_eq, text_eq_pending]
    exact (replay_forward (replay job pre) mid).begun hbegun

end gets

/-- **Progress goes forward while the job lives.** A job is created and called on, with any time
passing in between; every `get` is made less than the time-to-live after the creation. -/
theorem progress_forward (S : RedisJobStore) (s₀ s₁ s : Server) (job : ImportJob)
    (events : List Timed)
    (hfree : s₀.keys (hashKey job.jobId) = none ∧ s₀.keys (errorsKey job.jobId) = none)
    (hcreate : run (S.create job.jobId) s₀ = (s₁, .ok job))
    (hcalls : ∀ e ∈ events, e.2.jobId = job.jobId ∧ e.2.isCreate = false)
    (hrun : Run.exec S.step s₁ events = some s)
    (hlive : Run.Guarded S.step (ReadBefore (s₀.clock + S.ttl)) s₁ events) :
    GoesForward (S.trace s₁ events) := by
  have hclock : s₁.clock = s₀.clock := by
    rw [← run_clock (S.create job.jobId) s₀, hcreate]
  refine @goesForward_of_gets job _ fun pre post id r htrace => ?_
  have hlt := clock_lt_of_read hrun hlive htrace
  rw [hclock] at hlt
  have hpos : 0 < S.ttl := by exact_mod_cast (by linarith : (0 : ℚ) < S.ttl)
  obtain ⟨s', hcreate', hshows, hw⟩ := create_shows hpos hfree.1 hfree.2
  obtain ⟨rfl, hjob⟩ := Prod.mk.inj (hcreate.symm.trans hcreate')
  rw [← Except.ok.inj hjob] at hshows
  exact get_in_trace hpos hshows (by rw [hclock]) hcalls hrun hlive htrace

/-- A store whose jobs live for ten seconds. -/
def shortLived : RedisJobStore := { ttl := 10 }

def shortLivedJob : Server := (run (shortLived.create 1) ⟨0, fun _ => none⟩).1

/-- Two images are recorded, and the job is read after each of them. -/
def readTwice : List Timed :=
  [(0, .record 1 true none), (3, .get 1), (1, .record 1 false (some "2.jpg: no face")), (2, .get 1)]

theorem progress_forward_six_seconds :
    ∃ v v', shortLived.trace shortLivedJob readTwice =
        [(.record 1 true none, .ok none), (.get 1, .ok (some v)),
          (.record 1 false (some "2.jpg: no face"), .ok none), (.get 1, .ok (some v'))] ∧
      v.processed ≤ v'.processed ∧ v.succeeded ≤ v'.succeeded ∧ v.failed ≤ v'.failed := by
  obtain ⟨s, hrun⟩ : ∃ s, Run.exec shortLived.step shortLivedJob readTwice = some s := ⟨_, rfl⟩
  have hclock : shortLivedJob.clock = 0 := run_clock _ _
  have hlive : Run.Guarded shortLived.step (ReadBefore (0 + (10 : ℤ))) shortLivedJob readTwice := by
    refine Run.guarded_cons (fun id h => by cases h) rfl (Run.guarded_cons (fun id _ => ?_) rfl
      (Run.guarded_cons (fun id h => by cases h) rfl (Run.guarded_cons (fun id _ => ?_) rfl trivial)))
    · simp only [run_clock, Server.tick, hclock]
      norm_num
    · simp only [run_clock, Server.tick, hclock]
      norm_num
  have hforward := progress_forward shortLived ⟨0, fun _ => none⟩ shortLivedJob s { jobId := 1 }
    readTwice ⟨rfl, rfl⟩ rfl (by decide) hrun hlive
  obtain ⟨v, v', htrace⟩ : ∃ v v', shortLived.trace shortLivedJob readTwice =
      [(.record 1 true none, .ok none), (.get 1, .ok (some v)),
        (.record 1 false (some "2.jpg: no face"), .ok none), (.get 1, .ok (some v'))] :=
    ⟨⟨1, "pending", 0, 1, 1, 0, [], none, none⟩,
      ⟨1, "pending", 0, 2, 1, 1, ["2.jpg: no face"], none, none⟩, by decide +kernel⟩
  exact ⟨v, v', htrace, hforward.counters [_] [_] [] 1 1 v v' htrace⟩

/-- The image is counted, and read six seconds after the creation; six seconds later the job is
gone. -/
theorem progress_lost :
    ∃ events s, Run.exec shortLived.step shortLivedJob events = some s ∧
      (∀ e ∈ events, e.1 < shortLived.ttl ∧ e.2.jobId = 1 ∧ e.2.isCreate = false) ∧
      ¬ GoesForward (shortLived.trace shortLivedJob events) := by
  refine ⟨[(0, .record 1 true none), (6, .get 1), (6, .get 1)], _, rfl, by decide +kernel, ?_⟩
  intro h
  have hgone : (shortLived.trace shortLivedJob
      [(0, .record 1 true none), (6, .get 1), (6, .get 1)])[2]?.map Prod.snd = some (.ok none) := by
    decide +kernel
  obtain ⟨v, hv⟩ := h.known [_, _] [] 1 _ rfl
  cases hgone.symm.trans (congrArg some hv)

end trace

/-! ### The commands of the methods -/

/-- A command that writes the hash of the job. -/
inductive Writes (jobId : UUID) : Cmd → Prop where
  | hset (mapping : Fields) : Writes jobId (.hset (hashKey jobId) mapping)
  | hincrby (field : String) (n : ℤ) : Writes jobId (.hincrby (hashKey jobId) field n)

/-- A command that changes one of the keys of the job. -/
inductive Changes (S : RedisJobStore) (jobId : UUID) : Cmd → Prop where
  | write {c : Cmd} (h : Writes jobId c) : Changes S jobId c
  | push (text : String) : Changes S jobId (.multi (S.pushQueue jobId text))

section makes
variable {P : Cmd → Prop} {α β : Type}

theorem makes_send {c : Cmd} (h : P c) : (send c).run.Makes P := ⟨h, fun _ => trivial⟩

theorem makes_bind {m : StoreM α} {k : α → StoreM β} (hm : m.run.Makes P)
    (hk : ∀ a, (k a).run.Makes P) : (m >>= k).run.Makes P :=
  Prog.Makes.bind hm fun r => match r with
    | .ok a => hk a
    | .error _ => trivial

theorem makes_pure (a : α) : (pure a : StoreM α).run.Makes P := trivial

end makes

/-- The calls that write the hash of a job that may be missing. -/
def needsJob : StoreCall → Bool
  | .markRunning _ _ _ _ | .markFinished _ _ _ _ | .record _ _ _ => true
  | .create _ | .get _ | .addError _ _ => false

theorem pushError_makes (S : RedisJobStore) (jobId : UUID) (msg : PyStr) {P : Cmd → Prop}
    (h : ∀ text, P (.multi (S.pushQueue jobId text))) : (S.pushError jobId msg).run.Makes P := by
  unfold pushError
  cases msg.encode with
  | none => trivial
  | some text => exact makes_send (h text)

theorem record_makes (S : RedisJobStore) (jobId : UUID) (success : Bool) (error : Option PyStr) :
    (S.record jobId success error).run.Makes (Changes S jobId) := by
  refine makes_bind (makes_send (.write (.hincrby _ _))) fun _ => ?_
  refine makes_bind (makes_send (.write (.hincrby _ _))) fun _ => ?_
  cases error with
  | none => exact makes_pure ()
  | some msg =>
    by_cases hmsg : msg ≠ ""
    · simp only [if_pos hmsg]
      exact pushError_makes S jobId msg .push
    · simp only [if_neg hmsg]
      exact makes_pure ()

/-- A call that writes the hash of its job writes it first. -/
theorem perform_writes (S : RedisJobStore) {call : StoreCall} (h : needsJob call) :
    ∃ c k, (S.perform call).run = .call c k ∧ Writes call.jobId c ∧
      ∀ r, (k r).Makes (Changes S call.jobId) := by
  cases call with
  | markRunning id total now nowUtc =>
    have hm : (S.perform (.markRunning id total now nowUtc)).run.Makes (Changes S id) :=
      makes_bind (makes_send (.write (.hset _))) fun _ => makes_pure none
    exact ⟨_, _, rfl, .hset _, hm.2⟩
  | markFinished id failed now nowUtc =>
    have hm : (S.perform (.markFinished id failed now nowUtc)).run.Makes (Changes S id) :=
      makes_bind (makes_send (.write (.hset _))) fun _ => makes_pure none
    exact ⟨_, _, rfl, .hset _, hm.2⟩
  | record id success error =>
    have hm : (S.perform (.record id success error)).run.Makes (Changes S id) :=
      makes_bind (record_makes S id success error) fun _ => makes_pure none
    exact ⟨_, _, rfl, .hincrby _ _, hm.2⟩
  | _ => cases h

/-- A command that changes nothing. -/
inductive Reads : Cmd → Prop where
  | hgetall (key : String) : Reads (.hgetall key)
  | lrange (key : String) (start stop : ℤ) : Reads (.lrange key start stop)

theorem counter_makes (P : Cmd → Prop) (data : Fields) (name : String) :
    (counter data name).run.Makes P := by
  unfold counter
  split
  · trivial
  · split <;> trivial

theorem get_server (id : UUID) (s : Server) : (run (get id) s).1 = s := by
  have hmakes : (get id).run.Makes Reads := by
    refine makes_bind (makes_send (.hgetall _)) fun data => ?_
    split_ifs
    · exact makes_pure none
    · refine makes_bind (makes_send (.lrange _ _ _)) fun errors => ?_
      exact makes_bind (counter_makes _ _ _) fun _ => makes_bind (counter_makes _ _ _) fun _ =>
        makes_bind (counter_makes _ _ _) fun _ => makes_bind (counter_makes _ _ _) fun _ =>
          makes_pure _
  exact Prog.eval_inv_of_makes (I := fun t => t = s) (fun t c hc ht => by cases hc <;> exact ht)
    hmakes rfl

/-! ### The keys of the store -/

/-- The keys that begin with `_PREFIX`. -/
def StoreKey (key : String) : Prop := "fr:import:job:".toList <+: key.toList

theorem storeKey_hashKey (jobId : UUID) : StoreKey (hashKey jobId) := by
  unfold StoreKey
  rw [toList_hashKey]
  exact List.prefix_append _ _

/-- Every key of the store expires in time, and only created jobs can be read. -/
structure Clean (S : RedisJobStore) (created : List UUID) (s : Server) : Prop where
  bounded : ∀ key, StoreKey key → Redis.ExpiresWithin s key S.ttl
  unknown : ∀ id, id ∉ created → run (get id) s = (s, .ok none)

/-- A call that writes the hash of its job finds it. -/
def FindsJob (s : Server) (e : Timed) : Prop :=
  needsJob e.2 → ((s.tick e.1).keys (hashKey e.2.jobId)).isSome

/-- What the calls keep: `Clean`, said of the keys. -/
structure Bounded (S : RedisJobStore) (created : List UUID) (s : Server) : Prop where
  bounded : ∀ key, StoreKey key → Redis.ExpiresWithin s key S.ttl
  known : ∀ id, (s.keys (hashKey id)).isSome → id ∈ created

theorem get_of_missing {s : Server} {id : UUID} (h : s.keys (hashKey id) = none) :
    run (get id) s = (s, .ok none) := by
  have hread : exec s (.hgetall (hashKey id)) = (s, .ok []) := by
    simp [exec, hgetall, h]
  rw [get, run_send_bind hread]
  rfl

section bounded
variable {S : RedisJobStore} {created : List UUID} {s s' : Server}

theorem Bounded.clean (h : Bounded S created s) : Clean S created s := by
  refine ⟨h.bounded, fun id hid => get_of_missing ?_⟩
  by_contra hsome
  exact hid (h.known id (Option.isSome_iff_ne_none.2 hsome))

theorem isSome_deadlineOf (s : Server) (key : String) :
    (deadlineOf s key).isSome = (s.keys key).isSome := by
  simp [deadlineOf]

theorem Bounded.tick (h : Bounded S created s) {dt : ℚ} (hdt : 0 ≤ dt) :
    Bounded S created (s.tick dt) where
  bounded key hkey := (h.bounded key hkey).tick hdt
  known id hid := h.known id (by
    have hfilter : ((s.keys (hashKey id)).filter _).isSome := hid
    cases hk : s.keys (hashKey id) with
    | none => simp [hk] at hfilter
    | some e => rfl)

/-- No key is new and no deadline has changed. -/
theorem Bounded.of_deadlineOf (h : Bounded S created s) (hclock : s'.clock = s.clock)
    (hdeadline : ∀ key, deadlineOf s' key = deadlineOf s key) : Bounded S created s' where
  bounded key hkey := expiresWithin_of_deadlineOf (h.bounded key hkey) hclock (hdeadline key)
  known id hid := h.known id (by rwa [← isSome_deadlineOf, ← hdeadline, isSome_deadlineOf])

theorem write_of_ne {jobId : UUID} {c : Cmd} (h : Writes jobId c) (s : Server) {key : String}
    (hkey : key ≠ hashKey jobId) : (exec s c).1.keys key = s.keys key := by
  cases h with
  | hset mapping => exact hset_of_ne s mapping hkey
  | hincrby field n => exact hincrby_of_ne s field n hkey

/-- A write leaves the deadline of the hash alone; a new hash has none. -/
theorem write_deadlineOf {jobId : UUID} {c : Cmd} (h : Writes jobId c) (s : Server) :
    deadlineOf (exec s c).1 (hashKey jobId) = some ((deadlineOf s (hashKey jobId)).getD none) := by
  cases h with
  | hset mapping => exact hset_deadlineOf s _ mapping
  | hincrby field n => exact hincrby_deadlineOf s _ field n

theorem push_of_hash (S : RedisJobStore) (s : Server) (jobId id : UUID) (msg : String) :
    (exec s (.multi (S.pushQueue jobId msg))).1.keys (hashKey id) = s.keys (hashKey id) :=
  push_of_ne s msg 0 _ _ (hashKey_ne_errorsKey id jobId)

theorem Bounded.write (h : Bounded S created s) {jobId : UUID} {c : Cmd} (hc : Writes jobId c)
    (hfound : (s.keys (hashKey jobId)).isSome) : Bounded S created (exec s c).1 := by
  refine h.of_deadlineOf (exec_clock s c) fun key => ?_
  by_cases hkey : key = hashKey jobId
  · obtain ⟨d, hd⟩ := Option.isSome_iff_exists.1 ((isSome_deadlineOf s _).trans hfound)
    rw [hkey, write_deadlineOf hc, hd]
    rfl
  · unfold deadlineOf
    rw [write_of_ne hc s hkey]

theorem Bounded.push (h : Bounded S created s) (jobId : UUID) (msg : String) :
    Bounded S created (exec s (.multi (S.pushQueue jobId msg))).1 where
  bounded key hkey := by
    by_cases he : key = errorsKey jobId
    · rw [he]
      exact push_expiresWithin s _ msg 0 _ _
    · refine expiresWithin_of_deadlineOf (h.bounded key hkey) (exec_clock s _) ?_
      have hkeep : (exec s (.multi (S.pushQueue jobId msg))).1.keys key = s.keys key :=
        push_of_ne s msg 0 _ _ he
      unfold deadlineOf
      rw [hkeep]
  known id hid := h.known id (by rwa [push_of_hash] at hid)

/-- A change to the keys of a job whose hash is there. -/
theorem Bounded.change (h : Bounded S created s) {jobId : UUID} {c : Cmd} (hc : Changes S jobId c)
    (hfound : (s.keys (hashKey jobId)).isSome) :
    Bounded S created (exec s c).1 ∧ ((exec s c).1.keys (hashKey jobId)).isSome := by
  cases hc with
  | write hw =>
    refine ⟨h.write hw hfound, ?_⟩
    rw [← isSome_deadlineOf, write_deadlineOf hw]
    rfl
  | push msg =>
    refine ⟨h.push jobId msg, ?_⟩
    rwa [push_of_hash]

theorem Bounded.create (h : Bounded S created s) (jobId : UUID) :
    Bounded S (jobId :: created) (run (S.perform (.create jobId)) s).1 := by
  have hmore : Bounded S (jobId :: created) s :=
    ⟨h.bounded, fun id hid => List.mem_cons_of_mem _ (h.known id hid)⟩
  have hrun : (run (S.perform (.create jobId)) s).1 = (run (S.create jobId) s).1 :=
    run_andNone_server _ s
  rw [hrun, RedisJobStore.create]
  cases hset : exec s (.hset (hashKey jobId) (newFields { jobId := jobId })) with
  | mk t r =>
    have hclock : t.clock = s.clock := (congrArg (·.1.clock) hset).symm.trans (exec_clock s _)
    have hother : ∀ key, key ≠ hashKey jobId → t.keys key = s.keys key := fun key hkey =>
      (congrArg (·.1.keys key) hset).symm.trans (hset_of_ne s _ hkey)
    cases r with
    | error e =>
      rw [run_send_bind_error hset]
      have hsame : t = s := (congrArg Prod.fst hset).symm.trans (hset_error (congrArg Prod.snd hset))
      rwa [hsame]
    | ok _ =>
      rw [run_send_bind hset, run_send_bind rfl]
      show Bounded S (jobId :: created) (t.expire (hashKey jobId) S.ttl).1
      have hkeys : ∀ key, key ≠ hashKey jobId →
          (t.expire (hashKey jobId) S.ttl).1.keys key = s.keys key := fun key hkey => by
        rw [Redis.expire_of_ne t _ hkey, hother key hkey]
      constructor
      · intro key hkey
        by_cases he : key = hashKey jobId
        · rw [he]
          exact Redis.expire_expiresWithin t _ _
        · refine expiresWithin_of_deadlineOf (h.bounded key hkey) ?_ ?_
          · rw [Redis.expire_clock, hclock]
          · unfold deadlineOf
            rw [hkeys key he]
      · intro id hid
        by_cases he : id = jobId
        · exact he ▸ List.mem_cons_self
        · rw [hkeys _ fun heq => he (hashKey_injective heq)] at hid
          exact hmore.known id hid

/-- The state after a call. -/
theorem Bounded.perform (h : Bounded S created s) {call : StoreCall}
    (hfinds : needsJob call → (s.keys (hashKey call.jobId)).isSome) :
    Bounded S (createdBy [call] ++ created) (run (S.perform call) s).1 := by
  by_cases hneeds : needsJob call
  · obtain ⟨c, k, hprog, hwrites, hrest⟩ := perform_writes S hneeds
    have hmakes : (S.perform call).run.Makes (Changes S call.jobId) := by
      rw [hprog]
      exact ⟨.write hwrites, hrest⟩
    have hnone : createdBy [call] = [] := by cases call <;> first | rfl | cases hneeds
    rw [hnone]
    let I : Server → Prop := fun t =>
      Bounded S created t ∧ (t.keys (hashKey call.jobId)).isSome
    have hchange : ∀ t c, Changes S call.jobId c → I t → I (exec t c).1 :=
      fun t c hc ht => ht.1.change hc ht.2
    exact (Prog.eval_inv_of_makes hchange hmakes ⟨h, hfinds hneeds⟩).1
  · cases call with
    | create id => exact h.create id
    | get id =>
      have hsame : (run (S.perform (.get id)) s).1 = s := get_server id s
      rwa [hsame]
    | addError id msg =>
      have hpush : (S.perform (.addError id msg)).run.Makes
          (fun c => ∃ text, c = .multi (S.pushQueue id text)) :=
        makes_bind (pushError_makes S id msg fun text => ⟨text, rfl⟩) fun _ => makes_pure none
      have hkeep : ∀ t c, (∃ text, c = .multi (S.pushQueue id text)) → Bounded S created t →
          Bounded S created (exec t c).1 := by
        rintro t c ⟨text, rfl⟩ ht
        exact ht.push id text
      exact Prog.eval_inv_of_makes hkeep hpush h
    | _ => exact absurd rfl hneeds

theorem Bounded.mono (h : Bounded S created s) {created' : List UUID}
    (hsub : created ⊆ created') : Bounded S created' s :=
  ⟨h.bounded, fun id hid => hsub (h.known id hid)⟩

theorem createdBy_cons (call : StoreCall) (calls : List StoreCall) :
    createdBy (call :: calls) = createdBy [call] ++ createdBy calls := by
  cases call <;> rfl

theorem Bounded.exec {events : List Timed} (h : Bounded S created s)
    (hfinds : Run.Guarded S.step FindsJob s events) (hrun : Run.exec S.step s events = some s') :
    Bounded S (created ++ createdBy (events.map Prod.snd)) s' := by
  induction events generalizing s created with
  | nil =>
    cases hrun
    exact h.mono (List.subset_append_left _ _)
  | cons e events ih =>
    obtain ⟨dt, call⟩ := e
    obtain ⟨t, ht, hrest⟩ := Run.exec_cons.1 hrun
    have hfinds' := hfinds.2 t ht
    unfold step at ht
    split_ifs at ht with hdt
    obtain rfl := Option.some.inj ht
    have hnext := ih ((h.tick hdt).perform hfinds.1) hfinds' hrest
    refine hnext.mono fun id hid => ?_
    rw [List.map_cons, createdBy_cons]
    simp only [List.mem_append] at hid ⊢
    rcases hid with (hid | hid) | hid
    · exact .inr (.inl hid)
    · exact .inl hid
    · exact .inr (.inr hid)

/-! ### A call that does not find its job -/

theorem change_endless {jobId : UUID} {c : Cmd} (hc : Changes S jobId c)
    (h : deadlineOf s (hashKey jobId) = some none) :
    deadlineOf (exec s c).1 (hashKey jobId) = some none := by
  cases hc with
  | write hw =>
    rw [write_deadlineOf hw, h]
    rfl
  | push msg =>
    unfold deadlineOf at h ⊢
    rwa [push_of_hash]

/-- A call that writes a missing hash leaves one that never expires. -/
theorem perform_endless {call : StoreCall} (hneeds : needsJob call)
    (hmissing : s.keys (hashKey call.jobId) = none) :
    deadlineOf (run (S.perform call) s).1 (hashKey call.jobId) = some none := by
  obtain ⟨c, k, hprog, hwrites, hrest⟩ := perform_writes S hneeds
  have hfirst : deadlineOf (exec s c).1 (hashKey call.jobId) = some none := by
    rw [write_deadlineOf hwrites, deadlineOf, hmissing]
    rfl
  have hkeep : ∀ t c, Changes S call.jobId c → deadlineOf t (hashKey call.jobId) = some none →
      deadlineOf (exec t c).1 (hashKey call.jobId) = some none := fun t c hc => change_endless hc
  rw [run, hprog]
  exact Prog.eval_inv_of_makes hkeep (hrest _) hfirst

theorem not_clean_of_endless {id : UUID} (h : deadlineOf s (hashKey id) = some none) :
    ¬ Clean S created s := by
  intro hclean
  obtain ⟨e, he, hd⟩ := Option.map_eq_some_iff.1 h
  rcases hclean.bounded _ (storeKey_hashKey id) with hnone | ⟨e', d, he', hd', -⟩
  · cases he.symm.trans hnone
  · cases he.symm.trans he'
    cases hd.symm.trans hd'

/-- **When the store leaks nothing.** In a run of calls on any jobs, with any time passing in
between: in every state reached every key of the store expires in time and only created jobs can be
read, exactly when every `mark_running`, `mark_finished` and `record` finds its job. -/
theorem keys_bounded_iff (S : RedisJobStore) (s₀ s : Server) (events : List Timed)
    (hempty : ∀ key, StoreKey key → s₀.keys key = none)
    (hrun : Run.exec S.step s₀ events = some s) :
    (∀ pre, pre <+: events → ∀ t, Run.exec S.step s₀ pre = some t →
      Clean S (createdBy (pre.map Prod.snd)) t) ↔ Run.Guarded S.step FindsJob s₀ events := by
  constructor
  · intro hclean
    refine Run.guarded_iff.2 fun pre e post t hsplit ht hneeds => ?_
    obtain ⟨u, hu⟩ : ∃ u, S.step t e = some u := by
      rw [hsplit, Run.exec_append, ht] at hrun
      obtain ⟨u, hu, -⟩ := Run.exec_cons.1 hrun
      exact ⟨u, hu⟩
    have hexec : Run.exec S.step s₀ (pre ++ [e]) = some u := by
      rw [Run.exec_append, ht]
      exact Run.exec_cons.2 ⟨u, hu, rfl⟩
    have hprefix : pre ++ [e] <+: events := ⟨post, by simp [hsplit]⟩
    by_contra hmissing
    rw [Option.not_isSome_iff_eq_none] at hmissing
    have hend := perform_endless (S := S) hneeds hmissing
    unfold step at hu
    split_ifs at hu with hdt
    cases hu
    exact not_clean_of_endless hend (hclean _ hprefix _ hexec)
  · intro hfinds pre hpre t ht
    have hstart : Bounded S [] s₀ := by
      refine ⟨fun key hkey => .inl (hempty key hkey), fun id hid => ?_⟩
      rw [hempty _ (storeKey_hashKey id)] at hid
      cases hid
    exact (hstart.exec (hfinds.take hpre) ht).clean

theorem keys_bounded_iff_live_record :
    ∃ t, Run.exec shortLived.step ⟨0, fun _ => none⟩
        [(0, .create 1), (6, .record 1 true none)] = some t ∧ Clean shortLived [1] t := by
  obtain ⟨t, hrun⟩ : ∃ t, Run.exec shortLived.step ⟨0, fun _ => none⟩
      [(0, .create 1), (6, .record 1 true none)] = some t := ⟨_, rfl⟩
  have hfinds : Run.Guarded shortLived.step FindsJob ⟨0, fun _ => none⟩
      [(0, .create 1), (6, .record 1 true none)] :=
    Run.guarded_cons (fun h => by cases h) rfl
      (Run.guarded_cons (fun _ => by decide +kernel) rfl trivial)
  have hclean := (keys_bounded_iff shortLived ⟨0, fun _ => none⟩ t _ (fun _ _ => rfl) hrun).2 hfinds
  exact ⟨t, hrun, hclean _ (List.prefix_refl _) t hrun⟩

/-- An image is recorded when its job has expired: the hash is created again and stays. -/
theorem key_leaked :
    ∃ t, Run.exec shortLived.step ⟨0, fun _ => none⟩
        [(0, .create 1), (10, .record 1 true none)] = some t ∧ ¬ Clean shortLived [1] t :=
  ⟨_, rfl, @not_clean_of_endless shortLived [1] _ 1 (by decide +kernel)⟩

end bounded

end FaceRecognition.Services.RedisJobStore
