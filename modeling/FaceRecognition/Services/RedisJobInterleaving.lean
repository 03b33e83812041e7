import Mathlib.Algebra.BigOperators.Group.Finset.Piecewise
import Mathlib.Data.Fintype.Basic
import Mathlib.Tactic.Push
import FaceRecognition.Services.JobStoresAgree

/-!
# The Redis job store under concurrency

Any number of `record`, `add_error` and `get` calls on one job run interleaved, each Redis command
and each pipeline atomic, with time passing in between while the job is not expired. A `record` is
two or three commands: it counts the image, counts its outcome, and pushes its error. A message that
cannot be encoded is not pushed; its call raises when it has counted.

`Phase` says how far a call has come and `share` what it has contributed so far. The keys of the job
always show the sum of the shares (`Tallied`), so nothing is lost (`no_progress_lost`). A `get`
reads the counters with one command; what it returns is consistent exactly when no `record` was
between its two counts at that moment (`snapshots_consistent_iff`).
-/

namespace FaceRecognition.Services.RedisJobStore

open Relational Db Client
open Redis (Server)
open Redis.Collections

/-- A call that is made while others are made on the same job. -/
inductive Request where
  | record (success : Bool) (error : Option PyStr)
  | addError (msg : PyStr)
  | get
  deriving DecidableEq, Repr

def Request.call (jobId : UUID) : Request → StoreCall
  | .record success error => .record jobId success error
  | .addError msg => .addError jobId msg
  | .get => .get jobId

/-- The message of a call; an empty error of a `record` is not pushed. -/
def Request.message : Request → Option PyStr
  | .record _ (some msg) => if msg ≠ "" then some msg else none
  | .record _ none => none
  | .addError msg => some msg
  | .get => none

/-- The text that a call pushes. -/
def Request.text (r : Request) : Option String := r.message.bind PyStr.encode

/-- What a `record` reports. -/
def Request.outcome : Request → Option Bool
  | .record success _ => some success
  | .addError _ => none
  | .get => none

abbrev Program := Redis.Collections.Prog (Except Error (Option JobSnapshot))

variable (S : RedisJobStore) (jobId : UUID)

def Request.program (r : Request) : Program := (S.perform (r.call jobId)).run

/-! ### The phases of a call -/

def afterPush : Except Redis.Error Unit → Program
  | .error e => .pure (.error (.redis e))
  | .ok _ => .pure (.ok none)

/-- The rest of a call that has only its message to push. -/
def pushing : Option PyStr → Program
  | none => .pure (.ok none)
  | some msg =>
    match msg.encode with
    | some text => .call (.multi (S.pushQueue jobId text)) afterPush
    | none => .pure (.error (.unicodeEncodeError msg))

def afterScore (message : Option PyStr) : Except Redis.Error ℤ → Program
  | .error e => .pure (.error (.redis e))
  | .ok _ => pushing S jobId message

def afterVisit (success : Bool) (message : Option PyStr) : Except Redis.Error ℤ → Program
  | .error e => .pure (.error (.redis e))
  | .ok _ => .call (.hincrby (hashKey jobId) (outcomeField success) 1) (afterScore S jobId message)

def afterErrors (data : Fields) : Except Redis.Error (List String) → Program
  | .error e => .pure (.error (.redis e))
  | .ok errors => (snapshotOf jobId data errors).run

def afterHash : Except Redis.Error Fields → Program
  | .error e => .pure (.error (.redis e))
  | .ok data =>
    if data = [] then .pure (.ok none)
    else .call (.lrange (errorsKey jobId) 0 (-1)) (afterErrors jobId data)

/-- The push of a message, and a call that returns nothing. -/
theorem pushError_program (msg : PyStr) :
    (do S.pushError jobId msg; return none : StoreM (Option JobSnapshot)).run =
      pushing S jobId (some msg) := by
  unfold pushError pushing
  dsimp only
  cases msg.encode with
  | none => rfl
  | some text =>
    show Prog.call _ _ = Prog.call _ _
    congr 1
    funext r
    cases r <;> rfl

theorem program_record (success : Bool) (error : Option PyStr) :
    (Request.record success error).program S jobId =
      .call (.hincrby (hashKey jobId) "processed" 1)
        (afterVisit S jobId success (Request.record success error).message) := by
  show Prog.call _ _ = _
  congr 1
  funext r
  cases r with
  | error e => rfl
  | ok n =>
    show Prog.call _ _ = Prog.call _ _
    congr 1
    funext r
    cases r with
    | error e => rfl
    | ok m =>
      cases error with
      | none => rfl
      | some msg =>
        by_cases hmsg : msg = ""
        · subst hmsg
          rfl
        · have hmessage : (Request.record success (some msg)).message = some msg := if_pos hmsg
          rw [hmessage, afterScore, ← pushError_program]
          simp only [Prog.bind, ExceptT.bindCont, Except.mapError, if_pos hmsg]
          rfl

theorem program_addError (msg : PyStr) :
    (Request.addError msg).program S jobId = pushing S jobId (some msg) :=
  pushError_program S jobId msg

theorem program_get :
    Request.get.program S jobId = .call (.hgetall (hashKey jobId)) (afterHash jobId) := by
  show Prog.call _ _ = _
  congr 1
  funext r
  cases r with
  | error e => rfl
  | ok data =>
    by_cases hdata : data = []
    · subst hdata
      rfl
    · rw [afterHash, if_neg hdata]
      simp only [Prog.bind, ExceptT.bindCont, Except.mapError, if_neg hdata]
      show Prog.call _ _ = Prog.call _ _
      congr 1
      funext r
      cases r <;> rfl

theorem counter_pure (data : Fields) (name : String) :
    ∃ r, counter data name = ExceptT.mk (.pure r) := by
  unfold counter
  split
  · exact ⟨.ok 0, rfl⟩
  · split
    · exact ⟨.ok _, rfl⟩
    · exact ⟨.error _, rfl⟩

theorem snapshotOf_pure (data : Fields) (errors : List String) :
    ∃ r, (snapshotOf jobId data errors).run = .pure r := by
  obtain ⟨total, htotal⟩ := counter_pure data "total"
  obtain ⟨processed, hprocessed⟩ := counter_pure data "processed"
  obtain ⟨succeeded, hsucceeded⟩ := counter_pure data "succeeded"
  obtain ⟨failed, hfailed⟩ := counter_pure data "failed"
  unfold snapshotOf
  simp only [htotal, hprocessed, hsucceeded, hfailed]
  cases total with
  | error e => exact ⟨_, rfl⟩
  | ok total =>
    cases processed with
    | error e => exact ⟨_, rfl⟩
    | ok processed =>
      cases succeeded with
      | error e => exact ⟨_, rfl⟩
      | ok succeeded => cases failed <;> exact ⟨_, rfl⟩

/-- How far a call has come. -/
inductive Phase where
  | ready
  | visited
  | scored
  | pushed
  | read (data : Fields)
  | returned

/-- What is left of a call in a phase, all its commands having been answered so far. -/
inductive At : Request → Phase → Program → Prop where
  | ready (r : Request) : At r .ready (r.program S jobId)
  | visited (success : Bool) (error : Option PyStr) (n : ℤ) :
    At (.record success error) .visited
      (afterVisit S jobId success (Request.record success error).message (.ok n))
  | scored (success : Bool) (error : Option PyStr) :
    At (.record success error) .scored (pushing S jobId (Request.record success error).message)
  | pushed (r : Request) (htext : r.text.isSome) : At r .pushed (.pure (.ok none))
  | read (data : Fields) : At .get (.read data) (afterHash jobId (.ok data))
  | returned (r : Except Error (Option JobSnapshot)) : At .get .returned (.pure r)

/-! ### What a call has contributed -/

def visits : Request → Phase → ℕ
  | .record _ _, .visited | .record _ _, .scored | .record _ _, .pushed => 1
  | _, _ => 0

def scores (outcome : Bool) : Request → Phase → ℕ
  | .record success _, .scored | .record success _, .pushed => if success = outcome then 1 else 0
  | _, _ => 0

def pushes : Request → Phase → Multiset String
  | r, .pushed => (r.text.toList : Multiset String)
  | _, _ => 0

/-- The message is pushed, or the call ends without a command. -/
theorem pushing_cases (message : Option PyStr) :
    (∃ text, message.bind PyStr.encode = some text ∧
      pushing S jobId message = .call (.multi (S.pushQueue jobId text)) afterPush) ∨
    (message.bind PyStr.encode = none ∧
      ∃ result, pushing S jobId message = .pure result ∧ ∀ v, result ≠ .ok (some v)) := by
  cases message with
  | none => exact .inr ⟨rfl, _, rfl, fun v hv => by cases hv⟩
  | some msg =>
    rw [Option.bind_some]
    unfold pushing
    dsimp only
    cases msg.encode with
    | none => exact .inr ⟨rfl, _, rfl, fun v hv => by cases hv⟩
    | some text => exact .inl ⟨text, rfl, rfl⟩

/-- The next command of a call. -/
theorem At.next {r : Request} {p : Phase} {prog : Program} (h : At S jobId r p prog) :
    (∃ success error, r = .record success error ∧ p = .ready ∧
        prog = .call (.hincrby (hashKey jobId) "processed" 1)
          (afterVisit S jobId success r.message)) ∨
      (∃ success error, r = .record success error ∧ p = .visited ∧
        prog = .call (.hincrby (hashKey jobId) (outcomeField success) 1)
          (afterScore S jobId r.message)) ∨
      (∃ text, r.text = some text ∧ visits r .pushed = visits r p ∧
        (∀ b, scores b r .pushed = scores b r p) ∧ pushes r p = 0 ∧
        prog = .call (.multi (S.pushQueue jobId text)) afterPush) ∨
      (r = .get ∧ p = .ready ∧ prog = .call (.hgetall (hashKey jobId)) (afterHash jobId)) ∨
      (∃ data, r = .get ∧ p = .read data ∧
        prog = .call (.lrange (errorsKey jobId) 0 (-1)) (afterErrors jobId data)) ∨
      (∃ result, prog = .pure result) := by
  cases h with
  | ready =>
    cases r with
    | record success error => exact .inl ⟨success, error, rfl, rfl, program_record S jobId _ _⟩
    | addError msg =>
      rw [program_addError]
      rcases pushing_cases S jobId (some msg) with ⟨text, htext, hprog⟩ | ⟨-, result, hpure, -⟩
      · exact .inr (.inr (.inl ⟨text, htext, rfl, fun _ => rfl, rfl, hprog⟩))
      · exact .inr (.inr (.inr (.inr (.inr ⟨result, hpure⟩))))
    | get => exact .inr (.inr (.inr (.inl ⟨rfl, rfl, program_get S jobId⟩)))
  | visited success error n => exact .inr (.inl ⟨success, error, rfl, rfl, rfl⟩)
  | scored success error =>
    rcases pushing_cases S jobId (Request.record success error).message with
      ⟨text, htext, hprog⟩ | ⟨-, result, hpure, -⟩
    · exact .inr (.inr (.inl ⟨text, htext, rfl, fun _ => rfl, rfl, hprog⟩))
    · exact .inr (.inr (.inr (.inr (.inr ⟨result, hpure⟩))))
  | pushed => exact .inr (.inr (.inr (.inr (.inr ⟨.ok none, rfl⟩))))
  | read data =>
    by_cases hdata : data = []
    · exact .inr (.inr (.inr (.inr (.inr ⟨.ok none, if_pos hdata⟩))))
    · exact .inr (.inr (.inr (.inr (.inl ⟨data, rfl, rfl, if_neg hdata⟩))))
  | returned r => exact .inr (.inr (.inr (.inr (.inr ⟨r, rfl⟩))))

section tally
variable {ι : Type} [Fintype ι] [DecidableEq ι]

/-- The job with the contributions of the calls, the messages in the order they were pushed. -/
def tally (job : ImportJob) (calls : ι → Request) (phase : ι → Phase) (msgs : List String) :
    ImportJob :=
  { job with
    processed := job.processed + ∑ i, visits (calls i) (phase i)
    succeeded := job.succeeded + ∑ i, scores true (calls i) (phase i)
    failed := job.failed + ∑ i, scores false (calls i) (phase i)
    errors := (job.errors ++ msgs.map PyStr.ofString).take errorCap }

/-- A sum over the calls when one of them moves on. -/
theorem sum_moved {M : Type} [AddCommMonoid M] (f : Request → Phase → M) (calls : ι → Request)
    (phase : ι → Phase) {i : ι} {p : Phase} {d : M}
    (h : f (calls i) p = f (calls i) (phase i) + d) :
    ∑ j, f (calls j) (Function.update phase i p j) = ∑ j, f (calls j) (phase j) + d := by
  have hother : ∀ j ∈ Finset.univ.erase i,
      f (calls j) (Function.update phase i p j) = f (calls j) (phase j) := fun j hj => by
    rw [Function.update_of_ne (Finset.ne_of_mem_erase hj)]
  rw [← Finset.add_sum_erase _ _ (Finset.mem_univ i), Finset.sum_congr rfl hother,
    Function.update_self, h, ← Finset.add_sum_erase _ (fun j => f (calls j) (phase j))
    (Finset.mem_univ i)]
  exact add_right_comm _ _ _

theorem tally_moved (job : ImportJob) (calls : ι → Request) (phase : ι → Phase)
    (msgs : List String) {i : ι} {p : Phase} {d : ℕ} {e : Bool → ℕ}
    (hvisits : visits (calls i) p = visits (calls i) (phase i) + d)
    (hscores : ∀ b, scores b (calls i) p = scores b (calls i) (phase i) + e b) :
    tally job calls (Function.update phase i p) msgs =
      { tally job calls phase msgs with
        processed := (tally job calls phase msgs).processed + d
        succeeded := (tally job calls phase msgs).succeeded + e true
        failed := (tally job calls phase msgs).failed + e false } := by
  unfold tally
  rw [sum_moved visits calls phase hvisits, sum_moved (scores true) calls phase (hscores true),
    sum_moved (scores false) calls phase (hscores false)]
  simp only [Nat.add_assoc]

omit [DecidableEq ι] in
theorem tally_pushed (job : ImportJob) (calls : ι → Request) (phase : ι → Phase)
    (msgs : List String) (msg : String) :
    tally job calls phase (msgs ++ [msg]) = (tally job calls phase msgs).addError msg := by
  have hcap : (tally job calls phase msgs).errors.length ≤ errorCap := by
    simp [tally]
  have htake : (job.errors ++ (msgs ++ [msg]).map PyStr.ofString).take errorCap =
      ((job.errors ++ msgs.map PyStr.ofString).take errorCap ++ [PyStr.ofString msg]).take
        errorCap := by
    rw [take_append_take, List.map_append, List.append_assoc]
    rfl
  rw [addError_eq hcap]
  unfold tally
  rw [htake]

end tally

/-! ### Interleaved calls -/

section world
variable {ι : Type} [DecidableEq ι]

abbrev World (ι : Type) :=
  Client.World Server ι Cmd (fun c => Except Redis.Error c.Reply) (Except Error (Option JobSnapshot))

/-- A client executes its next command, or time passes. -/
abbrev Event (ι : Type) := Client.Event ι Unit ℚ

def tickBy (s : Server) (dt : ℚ) : Option Server := if 0 ≤ dt then some (s.tick dt) else none

def start (s : Server) (calls : ι → Request) : World ι := ⟨s, fun i => (calls i).program S jobId⟩

def interleave (w : World ι) (e : Event ι) : Option (World ι) :=
  Client.step (fun _ => exec) tickBy w e

/-- The message that the event pushes. -/
def pushedMessage (w : World ι) : Event ι → Option String
  | .act i _ =>
    match w.client i with
    | .call (.multi (.rpush _ msg :: _)) _ => some msg
    | _ => none
  | .env _ => none

/-- The messages pushed in a run, in the order their pipelines executed. -/
def pushedMessages (w : World ι) : List (Event ι) → List String
  | [] => []
  | e :: es =>
    match interleave w e with
    | none => []
    | some w' => (pushedMessage w e).toList ++ pushedMessages w' es

theorem interleave_clock {w w' : World ι} {e : Event ι} (hstep : interleave w e = some w') :
    w.server.clock ≤ w'.server.clock := by
  rcases step_cases hstep with ⟨i, m, c, k, -, -, hserver, -⟩ | ⟨dt, -, ha, -⟩
  · rw [hserver]
    exact (exec_clock w.server c).ge
  · unfold tickBy at ha
    split_ifs at ha with hdt
    rw [← Option.some.inj ha]
    simp only [Server.tick]
    linarith

theorem exec_interleave_clock {w w' : World ι} {es : List (Event ι)}
    (hrun : Run.exec interleave w es = some w') :
    w.server.clock ≤ w'.server.clock := by
  have hstep : ∀ (v : World ι) (e : Event ι) (v' : World ι), w.server.clock ≤ v.server.clock →
      interleave v e = some v' → w.server.clock ≤ v'.server.clock :=
    fun v e v' hle h => le_trans hle (interleave_clock h)
  exact Run.exec_inv (I := fun v : World ι => w.server.clock ≤ v.server.clock) hstep
    (le_refl w.server.clock) hrun

variable [Fintype ι]

/-- The calls are in these phases, and the keys of the job show their contributions. -/
structure Tallied (expiry : ℚ) (job : ImportJob) (calls : ι → Request) (w : World ι)
    (phase : ι → Phase) (msgs : List String) : Prop where
  clients : ∀ i, At S job.jobId (calls i) (phase i) (w.client i)
  shows : Shows expiry w.server (tally job calls phase msgs)
  pushed : (msgs : Multiset String) = ∑ i, pushes (calls i) (phase i)
  soon : expiry ≤ w.server.clock + S.ttl
  alive : w.server.clock < expiry

section step
variable {S} {expiry : ℚ} {job : ImportJob} {calls : ι → Request} {w w' : World ι}
  {phase : ι → Phase} {msgs : List String} {e : Event ι}

/-- A call moves on to the phase `p`. -/
theorem Tallied.move (h : Tallied S expiry job calls w phase msgs) {i : ι} {p : Phase}
    {prog : Program} {msgs' : List String} (hclient : w'.client = Function.update w.client i prog)
    (hat : At S job.jobId (calls i) p prog) (hclock : w'.server.clock = w.server.clock)
    (hshows : Shows expiry w'.server (tally job calls (Function.update phase i p) msgs'))
    (hpushed : (msgs' : Multiset String) =
      ∑ j, pushes (calls j) (Function.update phase i p j)) :
    Tallied S expiry job calls w' (Function.update phase i p) msgs' := by
  refine ⟨fun j => ?_, hshows, hpushed, by rw [hclock]; exact h.soon, by rw [hclock]; exact h.alive⟩
  rw [hclient]
  by_cases hj : j = i
  · subst hj
    rwa [Function.update_self, Function.update_self]
  · rw [Function.update_of_ne hj, Function.update_of_ne hj]
    exact h.clients j

/-- A call moves on without pushing anything. -/
theorem Tallied.quiet (h : Tallied S expiry job calls w phase msgs) {i : ι} {p : Phase}
    {prog : Program} (hclient : w'.client = Function.update w.client i prog)
    (hat : At S job.jobId (calls i) p prog) (hclock : w'.server.clock = w.server.clock)
    (hshows : Shows expiry w'.server (tally job calls (Function.update phase i p) msgs))
    (hpushes : pushes (calls i) p = pushes (calls i) (phase i)) :
    Tallied S expiry job calls w' (Function.update phase i p) msgs := by
  refine h.move hclient hat hclock hshows ?_
  rw [sum_moved pushes calls phase (hpushes.trans (add_zero _).symm), add_zero]
  exact h.pushed

/-- The image is counted. -/
theorem Tallied.visit (h : Tallied S expiry job calls w phase msgs) {i : ι} {success : Bool}
    {error : Option PyStr} (hr : calls i = .record success error) (hphase : phase i = .ready)
    (hserver : w'.server = (exec w.server (.hincrby (hashKey job.jobId) "processed" 1)).1)
    (hclient : w'.client = Function.update w.client i
      (afterVisit S job.jobId success (calls i).message
        (exec w.server (.hincrby (hashKey job.jobId) "processed" 1)).2)) :
    Tallied S expiry job calls w' (Function.update phase i .visited) msgs := by
  obtain ⟨s', n, hexec, hshows, hw⟩ := h.shows.visit
  have hexec : exec w.server (.hincrby (hashKey job.jobId) "processed" 1) = (s', .ok n) := hexec
  rw [hexec] at hserver hclient
  have htally := tally_moved job calls phase msgs (i := i) (p := .visited) (d := 1)
    (e := fun _ => 0) (by rw [hr, hphase]; rfl) (fun b => by rw [hr, hphase]; rfl)
  refine h.quiet hclient ?_ (hserver ▸ hw.clock) ?_ ?_
  · rw [hr]
    exact .visited success error n
  · rw [htally, hserver]
    exact hshows
  · rw [hr, hphase]
    rfl

/-- The outcome of the image is counted. -/
theorem Tallied.score (h : Tallied S expiry job calls w phase msgs) {i : ι} {success : Bool}
    {error : Option PyStr} (hr : calls i = .record success error) (hphase : phase i = .visited)
    (hserver : w'.server =
      (exec w.server (.hincrby (hashKey job.jobId) (outcomeField success) 1)).1)
    (hclient : w'.client = Function.update w.client i
      (afterScore S job.jobId (calls i).message
        (exec w.server (.hincrby (hashKey job.jobId) (outcomeField success) 1)).2)) :
    Tallied S expiry job calls w' (Function.update phase i .scored) msgs := by
  obtain ⟨s', n, hexec, hshows, hw⟩ := h.shows.score success
  have hexec : exec w.server (.hincrby (hashKey job.jobId) (outcomeField success) 1) =
      (s', .ok n) := hexec
  rw [hexec] at hserver hclient
  have htally := tally_moved job calls phase msgs (i := i) (p := .scored) (d := 0)
    (e := fun b => if success = b then 1 else 0) (by rw [hr, hphase]; rfl)
    (fun b => by rw [hr, hphase]; simp [scores])
  refine h.quiet hclient ?_ (hserver ▸ hw.clock) ?_ ?_
  · rw [hr]
    exact .scored success error
  · rw [htally, hserver]
    cases success <;> exact hshows
  · rw [hr, hphase]
    rfl

/-- A message is pushed. -/
theorem Tallied.push (h : Tallied S expiry job calls w phase msgs) {i : ι} {msg : String}
    (hmessage : (calls i).text = some msg)
    (hvisits : visits (calls i) .pushed = visits (calls i) (phase i))
    (hscores : ∀ b, scores b (calls i) .pushed = scores b (calls i) (phase i))
    (hpushes : pushes (calls i) (phase i) = 0)
    (hserver : w'.server = (exec w.server (.multi (S.pushQueue job.jobId msg))).1)
    (hclient : w'.client = Function.update w.client i
      (afterPush (exec w.server (.multi (S.pushQueue job.jobId msg))).2)) :
    Tallied S expiry job calls w' (Function.update phase i .pushed) (msgs ++ [msg]) := by
  have hpos : 0 < S.ttl := by
    have hsoon := h.soon
    have halive := h.alive
    exact_mod_cast (by linarith : (0 : ℚ) < S.ttl)
  obtain ⟨s', hexec, hshows, hw⟩ := h.shows.push hpos h.soon msg
  have hexec : exec w.server (.multi (S.pushQueue job.jobId msg)) = (s', .ok ()) := hexec
  rw [hexec] at hserver hclient
  have htally := tally_moved job calls phase (msgs ++ [msg]) (i := i) (p := .pushed) (d := 0)
    (e := fun _ => 0) hvisits hscores
  have htext : (calls i).text.isSome := Option.isSome_iff_exists.2 ⟨msg, hmessage⟩
  refine h.move hclient (.pushed (calls i) htext) (hserver ▸ hw.clock) ?_ ?_
  · rw [hserver]
    rw [← tally_pushed] at hshows
    exact htally ▸ hshows
  · have hnew : pushes (calls i) .pushed = pushes (calls i) (phase i) + {msg} := by
      rw [hpushes]
      simp [pushes, hmessage]
    rw [sum_moved pushes calls phase hnew, ← h.pushed]
    exact (Multiset.coe_add msgs [msg]).symm

/-- The fields are read. -/
theorem Tallied.readFields (h : Tallied S expiry job calls w phase msgs) {i : ι}
    (hr : calls i = .get) (hphase : phase i = .ready)
    (hserver : w'.server = (exec w.server (.hgetall (hashKey job.jobId))).1)
    (hclient : w'.client = Function.update w.client i
      (afterHash job.jobId (exec w.server (.hgetall (hashKey job.jobId))).2)) :
    ∃ data, Tallied S expiry job calls w' (Function.update phase i (.read data)) msgs := by
  obtain ⟨data, hdata, -⟩ := h.shows.hash
  have hexec : exec w.server (.hgetall (hashKey job.jobId)) = (w.server, .ok data) :=
    exec_hgetall hdata
  rw [hexec] at hserver hclient
  have htally := tally_moved job calls phase msgs (i := i) (p := .read data) (d := 0)
    (e := fun _ => 0) (by rw [hr, hphase]; rfl) (fun b => by rw [hr, hphase]; rfl)
  refine ⟨data, h.quiet hclient ?_ (by rw [hserver]) ?_ ?_⟩
  · rw [hr]
    exact .read data
  · rw [htally, hserver]
    exact h.shows
  · rw [hr, hphase]
    rfl

/-- The errors are read. -/
theorem Tallied.readErrors (h : Tallied S expiry job calls w phase msgs) {i : ι} {data : Fields}
    (hr : calls i = .get) (hphase : phase i = .read data)
    (hserver : w'.server = (exec w.server (.lrange (errorsKey job.jobId) 0 (-1))).1)
    (hclient : w'.client = Function.update w.client i
      (afterErrors job.jobId data (exec w.server (.lrange (errorsKey job.jobId) 0 (-1))).2)) :
    Tallied S expiry job calls w' (Function.update phase i .returned) msgs := by
  obtain ⟨texts, hlist, -⟩ := h.shows.errors
  have hexec : exec w.server (.lrange (errorsKey job.jobId) 0 (-1)) = (w.server, .ok texts) :=
    exec_lrange hlist
  rw [hexec] at hserver hclient
  obtain ⟨result, hresult⟩ := snapshotOf_pure job.jobId data texts
  have hafter : afterErrors job.jobId data (.ok texts) = .pure result := hresult
  rw [hafter] at hclient
  have htally := tally_moved job calls phase msgs (i := i) (p := .returned) (d := 0)
    (e := fun _ => 0) (by rw [hr, hphase]; rfl) (fun b => by rw [hr, hphase]; rfl)
  refine h.quiet hclient ?_ (by rw [hserver]) ?_ ?_
  · rw [hr]
    exact .returned result
  · rw [htally, hserver]
    exact h.shows
  · rw [hr, hphase]
    rfl

omit [DecidableEq ι] in
/-- Time passes, and the keys of the job are still there. -/
theorem Tallied.pass (h : Tallied S expiry job calls w phase msgs) {dt : ℚ}
    (hserver : tickBy w.server dt = some w'.server) (hclient : w'.client = w.client)
    (hlive : w'.server.clock < expiry) : Tallied S expiry job calls w' phase msgs := by
  unfold tickBy at hserver
  split_ifs at hserver with hdt
  have hserver : w'.server = w.server.tick dt := (Option.some.inj hserver).symm
  have hclock : w'.server.clock = w.server.clock + dt := by
    rw [hserver]
    rfl
  refine ⟨fun i => hclient ▸ h.clients i, ?_, h.pushed, ?_, hlive⟩
  · rw [hserver]
    exact h.shows.tick (hclock ▸ hlive)
  · have hsoon := h.soon
    linarith

theorem Tallied.step (h : Tallied S expiry job calls w phase msgs)
    (hstep : interleave w e = some w') (hlive : w'.server.clock < expiry) :
    ∃ phase', Tallied S expiry job calls w' phase' (msgs ++ (pushedMessage w e).toList) := by
  rcases step_cases hstep with ⟨i, m, c, k, rfl, hp, hserver, hclient⟩ | ⟨dt, rfl, ha, hclient⟩
  · have hat := h.clients i
    rw [hp] at hat
    rcases hat.next with ⟨success, error, hr, hphase, hprog⟩ | ⟨success, error, hr, hphase, hprog⟩ |
      ⟨msg, hmessage, hvisits, hscores, hpushes, hprog⟩ | ⟨hr, hphase, hprog⟩ |
      ⟨data, hr, hphase, hprog⟩ | ⟨result, hprog⟩ <;> cases hprog
    · simp only [pushedMessage, hp, Option.toList_none, List.append_nil]
      exact ⟨_, h.visit hr hphase hserver hclient⟩
    · simp only [pushedMessage, hp, Option.toList_none, List.append_nil]
      exact ⟨_, h.score hr hphase hserver hclient⟩
    · have hpushed : pushedMessage w (.act i m) = some msg := by simp [pushedMessage, hp, pushQueue]
      rw [hpushed]
      exact ⟨_, h.push hmessage hvisits hscores hpushes hserver hclient⟩
    · simp only [pushedMessage, hp, Option.toList_none, List.append_nil]
      obtain ⟨data, hread⟩ := h.readFields hr hphase hserver hclient
      exact ⟨_, hread⟩
    · simp only [pushedMessage, hp, Option.toList_none, List.append_nil]
      exact ⟨_, h.readErrors hr hphase hserver hclient⟩
  · simp only [pushedMessage, Option.toList_none, List.append_nil]
    exact ⟨phase, h.pass ha hclient hlive⟩

theorem Tallied.exec (h : Tallied S expiry job calls w phase msgs) {es : List (Event ι)}
    (hrun : Run.exec interleave w es = some w') (hlive : w'.server.clock < expiry) :
    ∃ phase', Tallied S expiry job calls w' phase' (msgs ++ pushedMessages w es) := by
  induction es generalizing w phase msgs with
  | nil =>
    cases hrun
    exact ⟨phase, by simpa [pushedMessages] using h⟩
  | cons e es ih =>
    obtain ⟨t, ht, hrest⟩ := Run.exec_cons.1 hrun
    have hclock := exec_interleave_clock hrest
    obtain ⟨phase', h'⟩ := h.step ht (hclock.trans_lt hlive)
    obtain ⟨phase'', h''⟩ := ih h' hrest
    refine ⟨phase'', ?_⟩
    rw [pushedMessages, ht]
    simpa [List.append_assoc] using h''

end step

/-! ### No progress is lost -/

/-- What a call has contributed when it has returned. -/
theorem At.finished {r : Request} {p : Phase} {result : Except Error (Option JobSnapshot)}
    (h : At S jobId r p (.pure result)) :
    visits r p = (if r.outcome.isSome then 1 else 0) ∧
      (∀ b, scores b r p = if r.outcome = some b then 1 else 0) ∧
      pushes r p = (r.text.toList : Multiset String) := by
  generalize hprog : (Prog.pure result : Program) = prog at h
  cases h with
  | ready =>
    cases r with
    | record success error => cases hprog.trans (program_record S jobId success error)
    | addError msg =>
      rw [program_addError] at hprog
      rcases pushing_cases S jobId (some msg) with ⟨text, -, hcall⟩ | ⟨htext, -⟩
      · cases hprog.trans hcall
      · have htext : (Request.addError msg).text = none := htext
        rw [htext]
        exact ⟨rfl, fun _ => rfl, rfl⟩
    | get => cases hprog.trans (program_get S jobId)
  | visited success error n => cases hprog
  | scored success error =>
    rcases pushing_cases S jobId (Request.record success error).message with
      ⟨text, -, hcall⟩ | ⟨htext, -⟩
    · cases hprog.trans hcall
    · have htext : (Request.record success error).text = none := htext
      rw [htext]
      exact ⟨rfl, fun b => by simp [scores, Request.outcome], rfl⟩
  | pushed =>
    refine ⟨?_, fun b => ?_, rfl⟩
    · cases r <;> rfl
    · cases r <;> simp [scores, Request.outcome]
  | read data => exact ⟨rfl, fun _ => rfl, rfl⟩
  | returned => exact ⟨rfl, fun _ => rfl, rfl⟩

/-- A call whose message cannot be encoded does not return. -/
theorem At.raised {r : Request} {p : Phase} {result : Except Error (Option JobSnapshot)}
    {msg : PyStr} (h : At S jobId r p (.pure result)) (hmessage : r.message = some msg)
    (hmsg : msg.encode = none) : result = .error (.unicodeEncodeError msg) := by
  have hpushing : pushing S jobId r.message = .pure (.error (.unicodeEncodeError msg)) := by
    rw [hmessage, pushing, hmsg]
  generalize hprog : (Prog.pure result : Program) = prog at h
  cases h with
  | ready =>
    cases r with
    | record success error => cases hprog.trans (program_record S jobId success error)
    | addError msg' =>
      have hend := (hprog.trans (program_addError S jobId msg')).trans hpushing
      injection hend
    | get => cases hmessage
  | visited success error n => cases hprog
  | scored success error =>
    have hend := hprog.trans hpushing
    injection hend
  | pushed r htext =>
    rw [Request.text, hmessage, Option.bind_some, hmsg] at htext
    cases htext
  | read data => cases hmessage
  | returned => cases hmessage

omit [DecidableEq ι] in
theorem tally_start (job : ImportJob) (hcap : job.errors.length ≤ errorCap) (calls : ι → Request) :
    tally job calls (fun _ => .ready) [] = job := by
  have hvisits : ∀ i, visits (calls i) .ready = 0 := fun i => by cases calls i <;> rfl
  have hscores : ∀ b i, scores b (calls i) .ready = 0 := fun b i => by cases calls i <;> rfl
  simp [tally, hvisits, hscores, List.take_of_length_le hcap]

omit [DecidableEq ι] in
theorem tallied_start {expiry : ℚ} {s : Server} {job : ImportJob} (h : Shows expiry s job)
    (hsoon : expiry ≤ s.clock + S.ttl) (halive : s.clock < expiry) (calls : ι → Request) :
    Tallied S expiry job calls (start S job.jobId s calls) (fun _ => .ready) [] := by
  refine ⟨fun i => .ready (calls i), ?_, ?_, hsoon, halive⟩
  · rwa [tally_start job h.cap]
  · have hpushes : ∀ i, pushes (calls i) .ready = 0 := fun i => by cases calls i <;> rfl
    simp [hpushes]

/-- **No progress is lost.** Whatever the order of the commands of the calls, once they have all
ended the job has counted each of them once, and its errors are the first hundred messages in the
order in which they were pushed, each message of a call that has returned having been pushed once.
Only a call whose message cannot be encoded raises. -/
theorem no_progress_lost (s : Server) (job : ImportJob) (expiry : ℚ) (calls : ι → Request)
    (es : List (Event ι)) (w : World ι) (hshows : Shows expiry s job)
    (hsoon : expiry ≤ s.clock + S.ttl)
    (hrun : Run.exec interleave (start S job.jobId s calls) es = some w)
    (hlive : w.server.clock < expiry) (hdone : ∀ i, ∃ r, w.client i = .pure r) :
    ∃ v, run (get job.jobId) w.server = (w.server, .ok (some v)) ∧
      v.processed = job.processed + (Finset.univ.filter fun i => (calls i).outcome.isSome).card ∧
      v.succeeded = job.succeeded + (Finset.univ.filter fun i => (calls i).outcome = some true).card ∧
      v.failed = job.failed + (Finset.univ.filter fun i => (calls i).outcome = some false).card ∧
      v.errors = (job.errors ++ (pushedMessages (start S job.jobId s calls) es).map
        PyStr.ofString).take errorCap ∧
      (pushedMessages (start S job.jobId s calls) es : Multiset String) =
        ∑ i, ((calls i).text.toList : Multiset String) ∧
      ∀ i msg, (calls i).message = some msg → msg.encode = none →
        w.client i = .pure (.error (.unicodeEncodeError msg)) := by
  have halive := (exec_interleave_clock hrun).trans_lt hlive
  obtain ⟨phase, htallied⟩ := (tallied_start S hshows hsoon halive calls).exec hrun hlive
  obtain ⟨v, hget, hv⟩ := get_of_shows htallied.shows
  have hfinished : ∀ i, visits (calls i) (phase i) = (if (calls i).outcome.isSome then 1 else 0) ∧
      (∀ b, scores b (calls i) (phase i) = if (calls i).outcome = some b then 1 else 0) ∧
      pushes (calls i) (phase i) = ((calls i).text.toList : Multiset String) := by
    intro i
    obtain ⟨r, hr⟩ := hdone i
    exact At.finished S job.jobId (hr ▸ htallied.clients i)
  refine ⟨v, hget, ?_, ?_, ?_, hv.errors, ?_, fun i msg hmessage hmsg => ?_⟩
  · rw [hv.processed, Finset.card_filter, ← Finset.sum_congr rfl fun i _ => (hfinished i).1]
    exact Nat.cast_add _ _
  · rw [hv.succeeded, Finset.card_filter, ← Finset.sum_congr rfl fun i _ => (hfinished i).2.1 true]
    exact Nat.cast_add _ _
  · rw [hv.failed, Finset.card_filter, ← Finset.sum_congr rfl fun i _ => (hfinished i).2.1 false]
    exact Nat.cast_add _ _
  · rw [← Finset.sum_congr rfl fun i _ => (hfinished i).2.2]
    exact htallied.pushed
  · obtain ⟨r, hr⟩ := hdone i
    have hat := htallied.clients i
    rw [hr] at hat
    rw [hr, At.raised S job.jobId hat hmessage hmsg]

/-- A job that has just been created on an empty server. -/
def created : Server := (run (create {} 1) ⟨0, fun _ => none⟩).1

theorem created_shows : Shows 86400 created { jobId := 1 } := by
  obtain ⟨s', hrun, hshows, -⟩ := @create_shows ⟨0, fun _ => none⟩ {} (by decide) 1 rfl rfl
  have hexpiry : (0 : ℚ) + (86400 : ℤ) = 86400 := by norm_num
  unfold created
  rw [hrun]
  exact hexpiry ▸ hshows

theorem created_soon : (86400 : ℚ) ≤ created.clock + (86400 : ℤ) := by
  have hclock : created.clock = 0 := rfl
  rw [hclock]
  norm_num

/-- Two workers record one image each. -/
def twoWorkers (i : Fin 2) : Request :=
  if i = 0 then .record true none else .record false (some "1.jpg: no face")

set_option maxRecDepth 4000 in
theorem no_progress_lost_two_workers :
    ∃ w v, Run.exec interleave (start {} 1 created twoWorkers)
        [.act 0 (), .act 1 (), .act 0 (), .act 1 (), .act 1 ()] = some w ∧
      run (get 1) w.server = (w.server, .ok (some v)) ∧ v.processed = 2 ∧ v.succeeded = 1 ∧
      v.failed = 1 ∧ v.errors = ["1.jpg: no face"] := by
  obtain ⟨w, hrun, hdone, hclock⟩ : ∃ w, Run.exec interleave (start {} 1 created twoWorkers)
      [.act 0 (), .act 1 (), .act 0 (), .act 1 (), .act 1 ()] = some w ∧
      (∀ i, ∃ r, w.client i = .pure r) ∧ w.server.clock = 0 :=
    ⟨_, rfl, Fin.forall_fin_two.2 ⟨⟨_, rfl⟩, ⟨_, rfl⟩⟩, rfl⟩
  obtain ⟨v, hget, hprocessed, hsucceeded, hfailed, herrors, -⟩ :=
    no_progress_lost {} created { jobId := 1 } 86400 twoWorkers _ w created_shows created_soon hrun
      (by rw [hclock]; norm_num) hdone
  exact ⟨w, v, hrun, hget, hprocessed, hsucceeded, hfailed, herrors⟩

/-! ### Consistent snapshots -/

/-- The next command counts the outcome of an image that is already counted. -/
def Midway (prog : Program) : Prop :=
  ∃ success k, prog = .call (.hincrby (hashKey jobId) (outcomeField success) 1) k

def mid : Request → Phase → ℕ
  | .record _ _, .visited => 1
  | _, _ => 0

theorem visits_eq (r : Request) (p : Phase) :
    visits r p = scores true r p + scores false r p + mid r p := by
  cases r with
  | record success error => cases p <;> cases success <;> rfl
  | _ => cases p <;> rfl

theorem pushing_not_midway (message : Option PyStr) :
    ¬ Midway jobId (pushing S jobId message) := by
  rintro ⟨success, k, hprog⟩
  rcases pushing_cases S jobId message with ⟨text, -, hcall⟩ | ⟨-, result, hpure, -⟩
  · cases hprog.symm.trans hcall
  · cases hprog.symm.trans hpure

theorem At.mid_eq_zero {r : Request} {p : Phase} {prog : Program} (h : At S jobId r p prog) :
    mid r p = 0 ↔ ¬ Midway jobId prog := by
  cases h with
  | ready =>
    cases r with
    | record success error =>
      refine iff_of_true rfl ?_
      rintro ⟨outcome, k, hprog⟩
      rw [program_record] at hprog
      have hfield := (Cmd.hincrby.inj (Prog.call.inj hprog).1).2.1
      cases outcome <;> exact absurd hfield (by decide)
    | addError msg =>
      rw [program_addError]
      exact iff_of_true rfl (pushing_not_midway S jobId _)
    | get =>
      refine iff_of_true rfl ?_
      rintro ⟨outcome, k, hprog⟩
      rw [program_get] at hprog
      cases hprog
  | visited success error n =>
    exact iff_of_false (Nat.succ_ne_zero 0) (not_not.2 ⟨success, _, rfl⟩)
  | scored success error => exact iff_of_true rfl (pushing_not_midway S jobId _)
  | pushed =>
    refine iff_of_true (by cases r <;> rfl) ?_
    rintro ⟨outcome, k, hprog⟩
    cases hprog
  | read data =>
    refine iff_of_true rfl ?_
    rintro ⟨outcome, k, hprog⟩
    unfold afterHash at hprog
    dsimp only at hprog
    split_ifs at hprog
    cases hprog
  | returned result =>
    refine iff_of_true rfl ?_
    rintro ⟨outcome, k, hprog⟩
    cases hprog

/-- When the `get` of client `g` reads the fields, no `record` is midway. -/
def CleanRead (g : ι) (w : World ι) (e : Event ι) : Prop :=
  e = .act g () → (∃ k, w.client g = .call (.hgetall (hashKey jobId)) k) →
    ∀ i, ¬ Midway jobId (w.client i)

/-! The `get` that has read the fields. -/

/-- What is left of a `get` once it has read the fields. -/
inductive Reading (data : Fields) : Program → Prop where
  | read : Reading data (afterHash jobId (.ok data))
  | built (errors : List String) : Reading data (snapshotOf jobId data errors).run
  | raised (e : Error) : Reading data (.pure (.error e))

theorem Reading.next {data : Fields} {prog : Program} (h : Reading jobId data prog) {c : Cmd}
    {k : Except Redis.Error c.Reply → Program} (hprog : prog = .call c k) :
    (∀ r, Reading jobId data (k r)) ∧ ¬ ∃ key, c = .hgetall key := by
  cases h with
  | read =>
    unfold afterHash at hprog
    dsimp only at hprog
    split_ifs at hprog
    cases hprog
    refine ⟨fun r => ?_, fun ⟨key, hc⟩ => by cases hc⟩
    cases r with
    | error e => exact .raised (.redis e)
    | ok errors => exact .built errors
  | built errors =>
    obtain ⟨r, hr⟩ := snapshotOf_pure jobId data errors
    rw [hr] at hprog
    cases hprog
  | raised e => cases hprog

omit [Fintype ι] in
theorem Reading.step {data : Fields} {g : ι} {w w' : World ι} {e : Event ι}
    (h : Reading jobId data (w.client g)) (hstep : interleave w e = some w') :
    Reading jobId data (w'.client g) := by
  rcases step_cases hstep with ⟨i, m, c, k, -, hp, -, hclient⟩ | ⟨dt, -, -, hclient⟩
  · rw [hclient]
    by_cases hg : g = i
    · subst hg
      rw [Function.update_self]
      exact (h.next jobId hp).1 _
    · rwa [Function.update_of_ne hg]
  · rwa [hclient]

omit [Fintype ι] in
/-- The fields are read once. -/
theorem Reading.guarded {data : Fields} {g : ι} {w : World ι}
    (h : Reading jobId data (w.client g)) (es : List (Event ι)) :
    Run.Guarded interleave (CleanRead jobId g) w es := by
  refine Run.guarded_of_inv (I := fun w => Reading jobId data (w.client g)) ?_
    (fun _ _ _ h hstep => h.step jobId hstep) h es
  rintro v e hv - ⟨k, hk⟩
  exact absurd ⟨_, rfl⟩ (hv.next jobId hk).2

/-- The counters of a snapshot are those of the fields that were read. -/
theorem Reading.returned {job : ImportJob} {data : Fields} (henc : Encodes data job)
    {v : JobSnapshot} (h : Reading job.jobId data (.pure (.ok (some v)))) :
    v.processed = job.processed ∧ v.succeeded = job.succeeded ∧ v.failed = job.failed := by
  generalize hprog : (Prog.pure (.ok (some v)) : Program) = prog at h
  cases h with
  | read =>
    rw [afterHash, if_neg henc.ne_nil] at hprog
    cases hprog
  | built errors =>
    obtain ⟨v', hv', hagrees⟩ := snapshotOf_encodes henc errors
    rw [hv'] at hprog
    cases hprog
    exact ⟨hagrees.processed, hagrees.succeeded, hagrees.failed⟩
  | raised e => cases hprog

omit [DecidableEq ι] in
/-- The counters are consistent unless a `record` is midway. -/
theorem tally_consistent (job : ImportJob) (hsum : job.processed = job.succeeded + job.failed)
    (calls : ι → Request) (phase : ι → Phase) (msgs : List String) :
    (tally job calls phase msgs).processed =
        (tally job calls phase msgs).succeeded + (tally job calls phase msgs).failed ↔
      ∀ i, mid (calls i) (phase i) = 0 := by
  have hvisits : ∑ i, visits (calls i) (phase i) = ∑ i, scores true (calls i) (phase i) +
      ∑ i, scores false (calls i) (phase i) + ∑ i, mid (calls i) (phase i) := by
    rw [← Finset.sum_add_distrib, ← Finset.sum_add_distrib]
    exact Finset.sum_congr rfl fun i _ => visits_eq _ _
  have hmid : ∑ i, mid (calls i) (phase i) = 0 ↔ ∀ i, mid (calls i) (phase i) = 0 := by
    simp
  rw [← hmid]
  unfold tally
  dsimp only
  omega

theorem pushing_not_snapshot (message : Option PyStr) (v : JobSnapshot) :
    pushing S jobId message ≠ .pure (.ok (some v)) := by
  intro hprog
  rcases pushing_cases S jobId message with ⟨text, -, hcall⟩ | ⟨-, result, hpure, hresult⟩
  · cases hcall.symm.trans hprog
  · cases hpure.symm.trans hprog
    exact hresult v rfl

/-- Only a `get` returns a snapshot. -/
theorem At.returns_snapshot {r : Request} {p : Phase} {v : JobSnapshot}
    (h : At S jobId r p (.pure (.ok (some v)))) : r = .get := by
  generalize hprog : (Prog.pure (.ok (some v)) : Program) = prog at h
  cases h with
  | ready =>
    cases r with
    | record success error => cases hprog.trans (program_record S jobId success error)
    | addError msg =>
      cases (pushing_not_snapshot S jobId _ v) ((program_addError S jobId msg).symm.trans hprog.symm)
    | get => rfl
  | visited success error n => cases hprog
  | scored success error => cases (pushing_not_snapshot S jobId _ v) hprog.symm
  | pushed => cases hprog
  | read data => rfl
  | returned result => rfl

/-- A `get` that has not begun returns a consistent snapshot iff it reads the fields while no
`record` is midway. -/
theorem snapshot_consistent_iff {S : RedisJobStore} {expiry : ℚ} {job : ImportJob} {calls : ι → Request}
    {w w' : World ι} {phase : ι → Phase} {msgs : List String} {es : List (Event ι)} {g : ι}
    {v : JobSnapshot} (h : Tallied S expiry job calls w phase msgs)
    (hsum : job.processed = job.succeeded + job.failed)
    (hget : w.client g = .call (.hgetall (hashKey job.jobId)) (afterHash job.jobId))
    (hrun : Run.exec interleave w es = some w') (hlive : w'.server.clock < expiry)
    (hv : w'.client g = .pure (.ok (some v))) :
    v.processed = v.succeeded + v.failed ↔
      Run.Guarded interleave (CleanRead job.jobId g) w es := by
  induction es generalizing w phase msgs with
  | nil =>
    cases hrun
    cases hget.symm.trans hv
  | cons e es ih =>
    obtain ⟨t, ht, hrest⟩ := Run.exec_cons.1 hrun
    obtain ⟨phase', h'⟩ := h.step ht ((exec_interleave_clock hrest).trans_lt hlive)
    by_cases he : e = .act g ()
    · -- the fields are read in this step
      obtain ⟨data, hdata, henc⟩ := h.shows.hash
      have hexec : exec w.server (.hgetall (hashKey job.jobId)) = (w.server, .ok data) :=
        exec_hgetall hdata
      have hreading : Reading job.jobId data (t.client g) := by
        rcases step_cases ht with ⟨i, m, c, k, he', hp, -, hclient⟩ | ⟨dt, he', -, -⟩
        · cases he.symm.trans he'
          cases hget.symm.trans hp
          rw [hclient, Function.update_self, hexec]
          exact .read
        · cases he.symm.trans he'
      have hfinal : Reading job.jobId data (w'.client g) :=
        Run.exec_inv (I := fun w => Reading job.jobId data (w.client g))
          (fun _ _ _ hr hstep => hr.step job.jobId hstep) hreading hrest
      rw [hv] at hfinal
      obtain ⟨hprocessed, hsucceeded, hfailed⟩ := hfinal.returned henc
      have hclean : Run.Guarded interleave (CleanRead job.jobId g) w (e :: es) ↔
          ∀ i, ¬ Midway job.jobId (w.client i) := by
        refine ⟨fun hg => hg.1 he ⟨_, hget⟩, fun hmid => ?_⟩
        exact Run.guarded_cons (fun _ _ => hmid) ht (hreading.guarded job.jobId es)
      have hmid : (∀ i, mid (calls i) (phase i) = 0) ↔ ∀ i, ¬ Midway job.jobId (w.client i) :=
        forall_congr' fun i => At.mid_eq_zero S job.jobId (h.clients i)
      rw [hclean, ← hmid, ← tally_consistent job hsum calls phase msgs, hprocessed, hsucceeded,
        hfailed]
      exact_mod_cast Iff.rfl
    · have hstill : t.client g = w.client g := by
        rcases step_cases ht with ⟨i, m, c, k, he', -, -, hclient⟩ | ⟨dt, -, -, hclient⟩
        · have hne : g ≠ i := fun hi => he (hi ▸ he')
          rw [hclient, Function.update_of_ne hne]
        · rw [hclient]
      rw [ih h' (hstill.trans hget) hrest]
      exact ⟨fun hg => Run.guarded_cons (fun he' => absurd he' he) ht hg, fun hg => hg.2 t ht⟩

/-- **When the snapshots are consistent.** In a run of calls on a job whose counters are
consistent, every returned snapshot is consistent iff each of those `get` calls read the fields
while no `record` had counted its image and not yet its outcome. -/
theorem snapshots_consistent_iff (s : Server) (job : ImportJob) (expiry : ℚ) (calls : ι → Request)
    (es : List (Event ι)) (w : World ι) (hsum : job.processed = job.succeeded + job.failed)
    (hshows : Shows expiry s job) (hsoon : expiry ≤ s.clock + S.ttl)
    (hrun : Run.exec interleave (start S job.jobId s calls) es = some w)
    (hlive : w.server.clock < expiry) :
    (∀ g v, w.client g = .pure (.ok (some v)) → v.processed = v.succeeded + v.failed) ↔
      ∀ g v, w.client g = .pure (.ok (some v)) →
        Run.Guarded interleave (CleanRead job.jobId g) (start S job.jobId s calls) es := by
  have hstart := tallied_start S hshows hsoon ((exec_interleave_clock hrun).trans_lt hlive) calls
  obtain ⟨phase, hend⟩ := hstart.exec hrun hlive
  refine forall_congr' fun g => forall_congr' fun v => forall_congr' fun hv => ?_
  have hcall : calls g = .get := At.returns_snapshot S job.jobId (hv ▸ hend.clients g)
  have hget : (start S job.jobId s calls).client g =
      .call (.hgetall (hashKey job.jobId)) (afterHash job.jobId) := by
    show (calls g).program S job.jobId = _
    rw [hcall, program_get]
  exact snapshot_consistent_iff hstart hsum hget hrun hlive hv

/-- One worker records an image while the job is read. -/
def recordAndGet (i : Fin 2) : Request := if i = 0 then .record true none else .get

/-- The job is read between the two counts of the `record`. -/
def tornRun : List (Event (Fin 2)) := [.act 0 (), .act 1 (), .act 1 (), .act 0 ()]

theorem torn_snapshot :
    ∃ w v, Run.exec interleave (start {} 1 created recordAndGet) tornRun = some w ∧
      w.client 1 = .pure (.ok (some v)) ∧ ¬ v.processed = v.succeeded + v.failed :=
  ⟨_, _, rfl, rfl, by decide⟩

theorem snapshots_consistent_iff_torn :
    ∃ w, Run.exec interleave (start {} 1 created recordAndGet) tornRun = some w ∧
      ∃ g v, w.client g = .pure (.ok (some v)) ∧
        ¬ Run.Guarded interleave (CleanRead 1 g) (start {} 1 created recordAndGet) tornRun := by
  obtain ⟨w, v, hrun, hv, htorn, hclock⟩ :
      ∃ w v, Run.exec interleave (start {} 1 created recordAndGet) tornRun = some w ∧
        w.client 1 = .pure (.ok (some v)) ∧ ¬ v.processed = v.succeeded + v.failed ∧
        w.server.clock = 0 := ⟨_, _, rfl, rfl, by decide, rfl⟩
  have hiff := snapshots_consistent_iff {} created { jobId := 1 } 86400 recordAndGet tornRun w rfl
    created_shows created_soon hrun (by rw [hclock]; norm_num)
  refine ⟨w, hrun, ?_⟩
  by_contra hclean
  push Not at hclean
  exact htorn (hiff.2 hclean 1 v hv)

end world

end FaceRecognition.Services.RedisJobStore
