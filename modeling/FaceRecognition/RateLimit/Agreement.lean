import FaceRecognition.Core.IntText
import FaceRecognition.RateLimit.InProcess
import FaceRecognition.RateLimit.Redis

/-!
# The two rate limiters agree

`parse_rate` turns a spec such as `"10/minute"` into a limit and a window. For such a pair, the
in-process limiter and the Redis limiter are asked about one key at the same times. One counts the
granted calls and compares before it counts, the other counts every call and compares afterwards;
one keeps the start of the window, the other a key that expires at its end (`Tracks`).

They give the same answers exactly when the limit is positive (`backends_agree_iff`): the first
call of a window is granted by the in-process limiter without looking at the limit.
-/

namespace FaceRecognition.RateLimit

open Redis Client

/-! ### The spec -/

/-- `spec.partition("/")`, without the separator -/
def partitionSlash (spec : String) : String × String :=
  let cs := spec.toList
  (String.ofList (cs.takeWhile (· ≠ '/')), String.ofList ((cs.dropWhile (· ≠ '/')).drop 1))

/-- The window of a period; per minute when it is none of the known ones. -/
def windowOf (period : String) : ℚ :=
  if period = "second" then 1
  else if period = "minute" then 60
  else if period = "hour" then 3600
  else 60

/-- `parse_rate` -/
def parseRate (spec : String) : ℤ × ℚ :=
  match int (strip (partitionSlash spec).1) with
  | none => (60, 60)
  | some limit => (limit, windowOf (lower (strip (partitionSlash spec).2)))

example :
    (parseRate "10/minute", parseRate " 5 / Hour", parseRate "0/second", parseRate "ten/hour") =
    ((10, 60), (5, 3600), (0, 1), (60, 60)) := by decide +kernel

theorem expirySeconds_windowOf (period : String) :
    (RedisKeyRateLimiter.expirySeconds (windowOf period) : ℚ) = windowOf period := by
  unfold windowOf
  split_ifs <;> norm_num [RedisKeyRateLimiter.expirySeconds, truncInt]

/-- The key expires when the window ends: `max(1, int(window))` is the window itself. -/
theorem expirySeconds_parseRate (spec : String) :
    (RedisKeyRateLimiter.expirySeconds (parseRate spec).2 : ℚ) = (parseRate spec).2 := by
  unfold parseRate
  split
  · norm_num [RedisKeyRateLimiter.expirySeconds, truncInt]
  · dsimp only
    exact expirySeconds_windowOf (lower (strip (partitionSlash spec).2))

/-! ### Runs of calls of one key -/

namespace InProcessKeyRateLimiter

/-- What a new limiter answers to calls of `key` at `times`, one after another. -/
def decisions (limit : ℤ) (window : ℚ) (key : String) (times : List ℚ) : List Bool :=
  (answers limit window (times.map fun now => (key, now)) key).map fun e => e.granted

theorem ofKey_map (key : String) (times : List ℚ) :
    Keyed.ofKey key (times.map fun now => (key, now)) = times := by
  induction times with
  | nil => rfl
  | cons now times ih => rw [List.map_cons, Keyed.ofKey_cons, if_pos rfl, ih]

theorem decisions_eq_served (limit : ℤ) (window : ℚ) (key : String) (times : List ℚ) :
    decisions limit window key times =
      (served limit window none times).map fun e => e.granted := by
  rw [decisions, answers_eq_served, ofKey_map]

end InProcessKeyRateLimiter

namespace RedisKeyRateLimiter

/-- A call at the time `now`, none of its commands failing. -/
def callAt (c : Call) (s : Server) (now : ℚ) : Server × Bool :=
  (allow c.key c.limit c.window).eval Server.exec (s.tick (now - s.clock))

/-- What calls at `times` are answered, one after another. -/
def decisions (c : Call) (s : Server) (times : List ℚ) : List Bool :=
  Keyed.runOne (callAt c) s times

/-- The first call of a window. -/
theorem eval_allow_of_missing {c : Call} {s : Server} (h : s.keys (bucketOf c.key) = none) :
    (allow c.key c.limit c.window).eval Server.exec s =
      (s.set (bucketOf c.key) (some ⟨.int 1, some (s.clock + expirySeconds c.window)⟩),
        decide (1 ≤ c.limit)) := by
  have hincr : s.exec (.incr (bucketOf c.key)) =
      (s.set (bucketOf c.key) (some ⟨.int 1, none⟩), .ok 1) := by
    simp [Server.exec, Server.incr, h]
  have hpos : ¬ expirySeconds c.window ≤ 0 := not_le.2 (expirySeconds_pos _)
  rw [allow_eq, Prog.eval, hincr, afterIncr, if_pos rfl, Prog.eval]
  simp [Server.exec, Server.expire, hpos, afterExpire, Prog.eval, Server.set]

/-- A later call. -/
theorem eval_allow_of_open {c : Call} {s : Server} {n : ℤ} {d : ℚ} (hn : 1 ≤ n)
    (h : s.keys (bucketOf c.key) = some ⟨.int n, some d⟩) :
    (allow c.key c.limit c.window).eval Server.exec s =
      (s.set (bucketOf c.key) (some ⟨.int (n + 1), some d⟩), decide (n + 1 ≤ c.limit)) := by
  have hincr : s.exec (.incr (bucketOf c.key)) =
      (s.set (bucketOf c.key) (some ⟨.int (n + 1), some d⟩), .ok (n + 1)) := by
    simp [Server.exec, Server.incr, h]
  have hne : n + 1 ≠ 1 := by omega
  have hleft : ¬ (s.set (bucketOf c.key) (some ⟨.int (n + 1), some d⟩)).ttl (bucketOf c.key) < 0 :=
    not_lt.2 (ttl_of_deadline (s.set_same _ _) rfl)
  rw [allow_eq, Prog.eval, hincr]
  simp only [afterIncr, if_neg hne, Prog.eval, Server.exec, afterTtl, if_neg hleft]

end RedisKeyRateLimiter

/-! ### The simulation -/

section simulation
variable {limit : ℤ} {window : ℚ} {key : String} {s : Server} {bucket : Option Bucket}

/-- What the two limiters remember of a key: no window is open, or the key counts the calls since
`windowStart` and expires with the window, while the bucket stops counting at the limit. -/
def Tracks (limit : ℤ) (window : ℚ) (key : String) (s : Server) (bucket : Option Bucket) : Prop :=
  (s.keys (RedisKeyRateLimiter.bucketOf key) = none ∧
      ∀ b, bucket = some b → window ≤ s.clock - b.windowStart) ∨
    ∃ b n, bucket = some b ∧ s.clock - b.windowStart < window ∧ 1 ≤ n ∧ b.count = min n limit ∧
      s.keys (RedisKeyRateLimiter.bucketOf key) = some ⟨.int n, some (b.windowStart + window)⟩

theorem Tracks.tick (h : Tracks limit window key s bucket) {dt : ℚ} (hdt : 0 ≤ dt) :
    Tracks limit window key (s.tick dt) bucket := by
  rcases h with ⟨hk, hb⟩ | ⟨b, n, rfl, hopen, hn, hc, hk⟩
  · refine .inl ⟨by simp [Server.tick, hk], fun b h => ?_⟩
    have := hb b h
    simp only [Server.tick]
    linarith
  · rcases lt_or_ge (s.clock + dt) (b.windowStart + window) with hlt | hge
    · refine .inr ⟨b, n, rfl, ?_, hn, hc, by simp [Server.tick, hk, hlt]⟩
      simp only [Server.tick]
      linarith
    · refine .inl ⟨by simp [Server.tick, hk, hge], fun b' h => ?_⟩
      obtain rfl : b = b' := Option.some.inj h
      simp only [Server.tick]
      linarith

/-- A call that finds no open window opens one on both sides. -/
theorem serve_of_closed (h : ∀ b, bucket = some b → window ≤ s.clock - b.windowStart) :
    InProcessKeyRateLimiter.serve limit window bucket s.clock =
      (some ⟨s.clock, 1⟩, ⟨s.clock, true, true⟩) := by
  cases bucket with
  | none => rfl
  | some b => exact InProcessKeyRateLimiter.serve_opens (h b rfl)

theorem Tracks.call (hlimit : 1 ≤ limit)
    (hwindow : (RedisKeyRateLimiter.expirySeconds window : ℚ) = window)
    (h : Tracks limit window key s bucket) :
    ((RedisKeyRateLimiter.allow key limit window).eval Server.exec s).2 =
        (InProcessKeyRateLimiter.serve limit window bucket s.clock).2.granted ∧
      Tracks limit window key ((RedisKeyRateLimiter.allow key limit window).eval Server.exec s).1
        (InProcessKeyRateLimiter.serve limit window bucket s.clock).1 := by
  have hpos : 0 < window := by
    rw [← hwindow]
    exact_mod_cast RedisKeyRateLimiter.expirySeconds_pos window
  rcases h with ⟨hk, hb⟩ | ⟨b, n, rfl, hopen, hn, hc, hk⟩
  · rw [RedisKeyRateLimiter.eval_allow_of_missing (c := ⟨key, limit, window⟩) hk,
      serve_of_closed hb]
    refine ⟨by simpa using hlimit, .inr ⟨_, 1, rfl, ?_, le_rfl, ?_, ?_⟩⟩
    · simpa [Server.set] using hpos
    · simp [hlimit]
    · simp [hwindow]
  · rw [RedisKeyRateLimiter.eval_allow_of_open (c := ⟨key, limit, window⟩) hn hk]
    rcases le_or_gt limit b.count with hfull | hfree
    · rw [InProcessKeyRateLimiter.serve_denies hopen hfull]
      refine ⟨decide_eq_false (by simp only; omega), .inr ⟨b, n + 1, rfl, hopen, ?_, ?_, ?_⟩⟩
      · omega
      · omega
      · simp
    · rw [InProcessKeyRateLimiter.serve_counts hopen hfree]
      refine ⟨decide_eq_true (by simp only; omega), .inr ⟨_, n + 1, rfl, hopen, ?_, ?_, ?_⟩⟩
      · omega
      · simp only
        omega
      · simp

theorem Tracks.decisions_eq (hlimit : 1 ≤ limit)
    (hwindow : (RedisKeyRateLimiter.expirySeconds window : ℚ) = window)
    (h : Tracks limit window key s bucket) {times : List ℚ} (hclock : ∀ t ∈ times, s.clock ≤ t)
    (hmono : times.Pairwise (· ≤ ·)) :
    RedisKeyRateLimiter.decisions ⟨key, limit, window⟩ s times =
      (InProcessKeyRateLimiter.served limit window bucket times).map fun e => e.granted := by
  induction times generalizing s bucket with
  | nil => rfl
  | cons t times ih =>
    obtain ⟨hle, hmono⟩ := List.pairwise_cons.1 hmono
    have hnow : (s.tick (t - s.clock)).clock = t := by simp [Server.tick]
    have hopen := h.tick (sub_nonneg.2 (hclock t (by simp)))
    obtain ⟨hanswer, hnext⟩ := hopen.call hlimit hwindow
    rw [hnow] at hanswer hnext
    have hafter := Prog.eval_inv (I := fun s => s.clock = t)
      (fun s c hs => (exec_clock s c).trans hs) (RedisKeyRateLimiter.allow key limit window) hnow
    have hrest := ih hnext (fun u hu => hafter.le.trans (hle u hu)) hmono
    exact congrArg₂ List.cons hanswer hrest

end simulation

/-- Calls of one key at the same times, on a limiter without buckets and on a server without the
key: the answers are the same exactly when the limit of the spec is positive. -/
theorem backends_agree_iff (spec key : String) (s : Server) (times : List ℚ)
    (hnew : s.keys (RedisKeyRateLimiter.bucketOf key) = none) (hclock : ∀ t ∈ times, s.clock ≤ t)
    (hmono : times.Pairwise (· ≤ ·)) :
    InProcessKeyRateLimiter.decisions (parseRate spec).1 (parseRate spec).2 key times =
        RedisKeyRateLimiter.decisions ⟨key, (parseRate spec).1, (parseRate spec).2⟩ s times ↔
      1 ≤ (parseRate spec).1 ∨ times = [] := by
  have hwindow := expirySeconds_parseRate spec
  generalize (parseRate spec).1 = limit, (parseRate spec).2 = window at *
  rw [InProcessKeyRateLimiter.decisions_eq_served]
  constructor
  · intro h
    cases times with
    | nil => exact .inr rfl
    | cons t times =>
      have hmissing : (s.tick (t - s.clock)).keys (RedisKeyRateLimiter.bucketOf key) = none := by
        simp [Server.tick, hnew]
      have hfirst := RedisKeyRateLimiter.eval_allow_of_missing (c := ⟨key, limit, window⟩) hmissing
      have hanswers := List.head_eq_of_cons_eq h
      have hgranted : decide (1 ≤ limit) = true :=
        (congrArg Prod.snd hfirst).symm.trans hanswers.symm
      exact .inl (of_decide_eq_true hgranted)
  · rintro (hlimit | rfl)
    · exact (Tracks.decisions_eq hlimit hwindow (.inl ⟨hnew, by simp⟩) hclock hmono).symm
    · rfl

/-- Three calls in one minute, with a budget of two. -/
theorem backends_agree_two_per_minute :
    InProcessKeyRateLimiter.decisions (parseRate "2/minute").1 (parseRate "2/minute").2 "ip"
        [0, 1, 59] =
      RedisKeyRateLimiter.decisions ⟨"ip", (parseRate "2/minute").1, (parseRate "2/minute").2⟩
        ⟨0, fun _ => none⟩ [0, 1, 59] :=
  (backends_agree_iff "2/minute" "ip" ⟨0, fun _ => none⟩ [0, 1, 59] rfl (by norm_num)
    (by norm_num)).2 (.inl (by decide +kernel))

/-- A budget of no calls: one backend grants the first one, the other denies it. -/
theorem backends_disagree :
    InProcessKeyRateLimiter.decisions (parseRate "0/minute").1 (parseRate "0/minute").2 "ip" [0] =
        [true] ∧
      RedisKeyRateLimiter.decisions ⟨"ip", (parseRate "0/minute").1, (parseRate "0/minute").2⟩
        ⟨0, fun _ => none⟩ [0] = [false] := by decide +kernel

end FaceRecognition.RateLimit
