import Mathlib.Algebra.Order.Ring.Rat
import Mathlib.Tactic.Linarith
import Mathlib.Tactic.NormNum
import FaceRecognition.Lib.Keyed

/-!
# The in-process rate limiter

`InProcessKeyRateLimiter.allow` keeps one bucket `[window_start, count]` per key. A call of a key
without a bucket, or one at least `window` after the bucket's start, opens a new window and is
granted; a later call is granted while the count is below the limit. Clock readings are rationals,
as every float is. Their difference is exact here; in floats it is rounded when it has no exact
float.

The joint run is a family of independent buckets (`trace_eq_runAll`), so each property of a key is
proved for a single bucket. The sliding bound rests on two facts about the calls of one bucket from
some point on: the grants before the end of the open window are at most `limit - count`
(`granted_le_of_le_start`), and an interval that starts no later than the first of these calls
meets the open window and one more (`granted_le_of_le_all`).
-/

namespace FaceRecognition.RateLimit

/-- The value `[window_start, count]` of one key. -/
structure Bucket where
  windowStart : ℚ
  count : ℤ
  deriving DecidableEq, Repr

/-- `self._buckets`. -/
abbrev Buckets := String → Option Bucket

namespace InProcessKeyRateLimiter

/-- `bucket is None or now - bucket[0] >= window` -/
def expired (bucket : Option Bucket) (window now : ℚ) : Bool :=
  match bucket with
  | none => true
  | some bucket => decide (now - bucket.windowStart ≥ window)

/-- One call of `allow`, with the reading of `time.monotonic()` it makes. -/
def allow (buckets : Buckets) (key : String) (limit : ℤ) (window now : ℚ) : Bool × Buckets :=
  match buckets key with
  | none => (true, Function.update buckets key (some ⟨now, 1⟩))
  | some bucket =>
    if now - bucket.windowStart ≥ window then
      (true, Function.update buckets key (some ⟨now, 1⟩))
    else if bucket.count ≥ limit then (false, buckets)
    else (true, Function.update buckets key (some { bucket with count := bucket.count + 1 }))

/-- What one call did: its clock reading, its answer, and whether it started a window. -/
structure Served where
  now : ℚ
  granted : Bool
  opened : Bool
  deriving DecidableEq, Repr

/-- Calls `(key, now)` executed one after another. -/
def trace (limit : ℤ) (window : ℚ) (buckets : Buckets) :
    List (String × ℚ) → List (String × Served)
  | [] => []
  | (key, now) :: calls =>
    let r := allow buckets key limit window now
    (key, ⟨now, r.1, expired (buckets key) window now⟩) :: trace limit window r.2 calls

/-! ### One bucket -/

/-- What a call does to the bucket of its own key. -/
def serve (limit : ℤ) (window : ℚ) (bucket : Option Bucket) (now : ℚ) : Option Bucket × Served :=
  match bucket with
  | none => (some ⟨now, 1⟩, ⟨now, true, true⟩)
  | some b =>
    if now - b.windowStart ≥ window then (some ⟨now, 1⟩, ⟨now, true, true⟩)
    else if b.count ≥ limit then (some b, ⟨now, false, false⟩)
    else (some { b with count := b.count + 1 }, ⟨now, true, false⟩)

theorem allow_eq_serve (limit : ℤ) (window : ℚ) (buckets : Buckets) (key : String) (now : ℚ) :
    (allow buckets key limit window now).2 =
        Function.update buckets key (serve limit window (buckets key) now).1 ∧
      (⟨now, (allow buckets key limit window now).1, expired (buckets key) window now⟩ : Served) =
        (serve limit window (buckets key) now).2 := by
  unfold allow serve expired
  cases hb : buckets key with
  | none => simp
  | some b =>
    by_cases hw : now - b.windowStart ≥ window
    · simp [hw]
    · by_cases hc : b.count ≥ limit
      · simp only [hw, hc, if_true, if_false, decide_false, and_true]
        rw [← hb, Function.update_eq_self]
      · simp [hw, hc]

theorem trace_eq_runAll (limit : ℤ) (window : ℚ) (buckets : Buckets) (calls : List (String × ℚ)) :
    trace limit window buckets calls = Keyed.runAll (serve limit window) buckets calls := by
  induction calls generalizing buckets with
  | nil => rfl
  | cons c calls ih =>
    obtain ⟨key, now⟩ := c
    obtain ⟨h₁, h₂⟩ := allow_eq_serve limit window buckets key now
    simp only [trace, Keyed.runAll, ih, h₁, h₂]

/-- The calls of one key, as its bucket answers them. -/
abbrev served (limit : ℤ) (window : ℚ) : Option Bucket → List ℚ → List Served :=
  Keyed.runOne (serve limit window)

theorem serve_now (limit : ℤ) (window : ℚ) (bucket : Option Bucket) (t : ℚ) :
    (serve limit window bucket t).2.now = t := by
  unfold serve
  split
  · rfl
  · split_ifs <;> rfl

section bucket
variable {limit : ℤ} {window : ℚ} {b : Bucket} {t : ℚ}

theorem serve_none : serve limit window none t = (some ⟨t, 1⟩, ⟨t, true, true⟩) := rfl

theorem serve_opens (h : window ≤ t - b.windowStart) :
    serve limit window (some b) t = (some ⟨t, 1⟩, ⟨t, true, true⟩) := if_pos h

theorem serve_denies (h : t - b.windowStart < window) (hc : limit ≤ b.count) :
    serve limit window (some b) t = (some b, ⟨t, false, false⟩) := by
  simp [serve, not_le.2 h, hc]

theorem serve_counts (h : t - b.windowStart < window) (hc : b.count < limit) :
    serve limit window (some b) t =
      (some { b with count := b.count + 1 }, ⟨t, true, false⟩) := by
  simp [serve, not_le.2 h, not_le.2 hc]

/-- The three things a call can do to an open bucket. -/
theorem serve_cases (limit : ℤ) (window : ℚ) (b : Bucket) (t : ℚ) :
    (window ≤ t - b.windowStart ∧
        serve limit window (some b) t = (some ⟨t, 1⟩, ⟨t, true, true⟩)) ∨
      (t - b.windowStart < window ∧ limit ≤ b.count ∧
        serve limit window (some b) t = (some b, ⟨t, false, false⟩)) ∨
      (t - b.windowStart < window ∧ b.count < limit ∧
        serve limit window (some b) t =
          (some { b with count := b.count + 1 }, ⟨t, true, false⟩)) := by
  rcases le_or_gt window (t - b.windowStart) with h | h
  · exact .inl ⟨h, serve_opens h⟩
  · rcases le_or_gt limit b.count with hc | hc
    · exact .inr (.inl ⟨h, hc, serve_denies h hc⟩)
    · exact .inr (.inr ⟨h, hc, serve_counts h hc⟩)

end bucket

/-! ### Grants in an interval -/

/-- The grants among the answers whose clock reading lies in `[a, a + window)`. -/
def grantedIn (window a : ℚ) (answers : List Served) : ℕ :=
  (answers.filter fun e => e.granted ∧ a ≤ e.now ∧ e.now < a + window).length

@[simp] theorem grantedIn_nil (window a : ℚ) : grantedIn window a [] = 0 := rfl

theorem grantedIn_cons (window a : ℚ) (e : Served) (l : List Served) :
    grantedIn window a (e :: l) =
      (if e.granted ∧ a ≤ e.now ∧ e.now < a + window then 1 else 0) + grantedIn window a l := by
  unfold grantedIn
  rw [List.filter_cons]
  by_cases h : e.granted ∧ a ≤ e.now ∧ e.now < a + window
  · simp [h, Nat.add_comm]
  · simp [h]

section sliding
variable {limit : ℤ} {window : ℚ}

/-- Calls after the end of the interval add nothing to it. -/
theorem grantedIn_eq_zero (bucket : Option Bucket) {a : ℚ} {ts : List ℚ}
    (hts : ∀ t ∈ ts, a + window ≤ t) : grantedIn window a (served limit window bucket ts) = 0 := by
  induction ts generalizing bucket with
  | nil => rfl
  | cons t ts ih =>
    have ht := hts t (by simp)
    simp only [served, Keyed.runOne] at ih ⊢
    rw [grantedIn_cons, ih _ (fun u hu => hts u (by simp [hu])), if_neg]
    rw [serve_now]
    rintro ⟨-, -, hlt⟩
    linarith

/-- An interval that starts no later than the open window sees at most what is left of it. -/
theorem granted_le_of_le_start (window : ℚ) {b : Bucket} {a : ℚ} {ts : List ℚ}
    (ha : a ≤ b.windowStart) (hc : b.count ≤ limit) (hts : ts.Pairwise (· ≤ ·)) :
    (grantedIn window a (served limit window (some b) ts) : ℤ) ≤ limit - b.count := by
  induction ts generalizing b with
  | nil => simpa [served, Keyed.runOne] using hc
  | cons t ts ih =>
    obtain ⟨hle, hrest⟩ := List.pairwise_cons.1 hts
    rcases serve_cases limit window b t with ⟨hw, hs⟩ | ⟨hw, -, hs⟩ | ⟨hw, hlt, hs⟩
    · -- this call is past the interval, and so are the later ones
      have hpast : ∀ u ∈ t :: ts, a + window ≤ u := by
        intro u hu
        rcases List.mem_cons.1 hu with rfl | hu
        · linarith
        · linarith [hle u hu]
      rw [grantedIn_eq_zero (some b) hpast]
      simp only [Nat.cast_zero]; omega
    · simp only [served, Keyed.runOne, hs] at ih ⊢
      rw [grantedIn_cons]
      simpa using ih ha hc hrest
    · simp only [served, Keyed.runOne, hs] at ih ⊢
      rw [grantedIn_cons]
      have := ih (b := { b with count := b.count + 1 }) ha (Int.add_one_le_of_lt hlt) hrest
      split_ifs <;> push_cast <;> simp only at this <;> omega

/-- An interval that starts no later than the remaining calls meets the open window and one more. -/
theorem granted_le_of_le_all (window : ℚ) {b : Bucket} {a : ℚ} {ts : List ℚ} (hl : 1 ≤ limit)
    (hc : b.count ≤ limit) (hts : ts.Pairwise (· ≤ ·)) (ha : ∀ t ∈ ts, a ≤ t) :
    (grantedIn window a (served limit window (some b) ts) : ℤ) ≤ limit - b.count + limit := by
  induction ts generalizing b with
  | nil => simp only [served, Keyed.runOne, grantedIn_nil, Nat.cast_zero]; omega
  | cons t ts ih =>
    obtain ⟨-, hrest⟩ := List.pairwise_cons.1 hts
    have hrestA : ∀ u ∈ ts, a ≤ u := fun u hu => ha u (by simp [hu])
    rcases serve_cases limit window b t with ⟨-, hs⟩ | ⟨-, -, hs⟩ | ⟨-, hlt, hs⟩
    · have := granted_le_of_le_start window (b := ⟨t, 1⟩) (ha t (by simp)) hl hrest
      simp only [served, Keyed.runOne, hs] at this ⊢
      rw [grantedIn_cons]
      split_ifs <;> push_cast <;> omega
    · simp only [served, Keyed.runOne, hs] at ih ⊢
      rw [grantedIn_cons]
      simpa using ih hc hrest hrestA
    · simp only [served, Keyed.runOne, hs] at ih ⊢
      rw [grantedIn_cons]
      have := ih (b := { b with count := b.count + 1 }) (Int.add_one_le_of_lt hlt) hrest hrestA
      split_ifs <;> push_cast <;> simp only at this <;> omega

/-- The count that the next call compares with the limit, `0` for a key without a bucket. -/
def countOf (bucket : Option Bucket) : ℤ := (bucket.map (·.count)).getD 0

theorem countOf_serve {bucket : Option Bucket} (hl : 1 ≤ limit) (window t : ℚ)
    (h : 0 ≤ countOf bucket ∧ countOf bucket ≤ limit) :
    0 ≤ countOf (serve limit window bucket t).1 ∧
      countOf (serve limit window bucket t).1 ≤ limit := by
  cases bucket with
  | none => simpa [serve_none, countOf] using hl
  | some b =>
    simp only [countOf, Option.map_some, Option.getD_some] at h
    rcases serve_cases limit window b t with ⟨-, hs⟩ | ⟨-, -, hs⟩ | ⟨-, hlt, hs⟩ <;> rw [hs] <;>
      simp only [countOf, Option.map_some, Option.getD_some] <;> omega

/-- **The sliding bound** for one bucket. -/
theorem granted_le_two_mul {bucket : Option Bucket} {ts : List ℚ} (hl : 1 ≤ limit) (a : ℚ)
    (hb : 0 ≤ countOf bucket ∧ countOf bucket ≤ limit) (hts : ts.Pairwise (· ≤ ·)) :
    (grantedIn window a (served limit window bucket ts) : ℤ) ≤ 2 * limit := by
  induction ts generalizing bucket with
  | nil => simp only [served, Keyed.runOne, grantedIn_nil, Nat.cast_zero]; omega
  | cons t ts ih =>
    obtain ⟨hle, hrest⟩ := List.pairwise_cons.1 hts
    rcases le_or_gt a t with ha | ha
    · have hall : ∀ u ∈ t :: ts, a ≤ u := by
        intro u hu
        rcases List.mem_cons.1 hu with rfl | hu
        · exact ha
        · exact ha.trans (hle u hu)
      cases bucket with
      | none =>
        have := granted_le_of_le_start window (b := ⟨t, 1⟩) ha hl hrest
        simp only [served, Keyed.runOne, serve_none] at this ⊢
        rw [grantedIn_cons]
        split_ifs <;> push_cast <;> omega
      | some b =>
        simp only [countOf, Option.map_some, Option.getD_some] at hb
        have := granted_le_of_le_all window hl hb.2 hts hall
        omega
    · have := ih (countOf_serve hl window t hb) hrest
      simp only [served, Keyed.runOne] at this ⊢
      rw [grantedIn_cons, if_neg, Nat.zero_add]
      · exact this
      · rw [serve_now]
        rintro ⟨-, hat, -⟩
        linarith

end sliding

/-! ### The calls of one window -/

section window
variable {limit : ℤ} {window : ℚ}

/-- What follows a prefix of a bucket's answers is a run of the bucket from a later state. -/
theorem served_suffix {bucket : Option Bucket} {ts : List ℚ} {pre rest : List Served}
    (h : served limit window bucket ts = pre ++ rest) :
    ∃ bucket' ts', served limit window bucket' ts' = rest := by
  induction pre generalizing bucket ts with
  | nil => exact ⟨bucket, ts, h⟩
  | cons e pre ih =>
    cases ts with
    | nil => simp [served, Keyed.runOne] at h
    | cons t ts =>
      simp only [served, Keyed.runOne, List.cons_append, List.cons.injEq] at h
      exact ih h.2

/-- A call that starts a window leaves the count at one, whatever the bucket was. -/
theorem serve_of_opened {bucket : Option Bucket} {t : ℚ}
    (h : (serve limit window bucket t).2.opened = true) :
    serve limit window bucket t = (some ⟨t, 1⟩, ⟨t, true, true⟩) := by
  cases bucket with
  | none => rfl
  | some b =>
    rcases serve_cases limit window b t with ⟨-, hs⟩ | ⟨-, -, hs⟩ | ⟨-, -, hs⟩
    · exact hs
    · simp [hs] at h
    · simp [hs] at h

/-- As long as no new window starts, the first `limit - count` calls are granted, the rest not. -/
theorem granted_of_not_opened {b : Bucket} {ts : List ℚ} {mid post : List Served}
    (h : served limit window (some b) ts = mid ++ post) (hmid : ∀ e ∈ mid, e.opened = false) :
    mid.map (·.granted) =
      List.replicate (min mid.length (limit - b.count).toNat) true ++
        List.replicate (mid.length - (limit - b.count).toNat) false := by
  induction mid generalizing b ts with
  | nil => simp
  | cons e mid ih =>
    cases ts with
    | nil => simp [served, Keyed.runOne] at h
    | cons t ts =>
      simp only [served, Keyed.runOne, List.cons_append, List.cons.injEq] at h
      obtain ⟨rfl, hrest⟩ := h
      have hmid' : ∀ e ∈ mid, e.opened = false := fun e he => hmid e (by simp [he])
      rcases serve_cases limit window b t with ⟨-, hs⟩ | ⟨-, hc, hs⟩ | ⟨-, hc, hs⟩
      · have := hmid _ List.mem_cons_self
        simp [hs] at this
      · rw [hs] at hrest
        have hzero : (limit - b.count).toNat = 0 := by omega
        have := ih hrest hmid'
        rw [hzero] at this ⊢
        simp [hs, this, List.replicate_succ]
      · rw [hs] at hrest
        have := ih hrest hmid'
        have hsucc : (limit - b.count).toNat = (limit - (b.count + 1)).toNat + 1 := by omega
        rw [hsucc, List.map_cons, this]
        simp [hs, List.replicate_succ, Nat.succ_min_succ]

end window

/-! ### The budget of a key -/

/-- The answers to a key's calls when the calls `(key, now)` run one after another on an empty
limiter. -/
def answers (limit : ℤ) (window : ℚ) (calls : List (String × ℚ)) (key : String) : List Served :=
  Keyed.ofKey key (trace limit window (fun _ => none) calls)

theorem answers_eq_served (limit : ℤ) (window : ℚ) (calls : List (String × ℚ)) (key : String) :
    answers limit window calls key = served limit window none (Keyed.ofKey key calls) := by
  rw [answers, trace_eq_runAll, Keyed.outputs_of_key]

/-- What a key may spend. -/
structure Budget (limit : ℤ) (window : ℚ) (calls : List (String × ℚ)) (key : String) : Prop where
  /-- Any half-open interval as long as the window holds at most `2 * limit` grants. -/
  sliding : ∀ a, (grantedIn window a (answers limit window calls key) : ℤ) ≤ 2 * limit
  /-- Of the calls from one window start up to the next, exactly the first `limit` are granted. -/
  perWindow : ∀ pre e mid post, answers limit window calls key = pre ++ e :: mid ++ post →
    e.opened = true → (∀ x ∈ mid, x.opened = false) →
    (e :: mid).map (·.granted) =
      List.replicate (min (mid.length + 1) limit.toNat) true ++
        List.replicate (mid.length + 1 - limit.toNat) false
  /-- Calls of other keys do not matter. -/
  independent : answers limit window calls key =
    answers limit window (calls.filter fun c => c.1 = key) key

theorem allow_budget (limit : ℤ) (window : ℚ) (calls : List (String × ℚ)) (key : String)
    (hlimit : 1 ≤ limit) (hclock : (calls.map (·.2)).Pairwise (· ≤ ·)) :
    Budget limit window calls key where
  sliding a := by
    rw [answers_eq_served]
    refine granted_le_two_mul hlimit a ⟨le_refl _, by simp [countOf]; omega⟩ ?_
    exact hclock.sublist (List.filter_sublist.map _)
  perWindow pre e mid post h he hmid := by
    rw [answers_eq_served, List.append_assoc] at h
    obtain ⟨bucket, ts, hserved⟩ := served_suffix h
    cases ts with
    | nil => simp [served, Keyed.runOne] at hserved
    | cons t ts =>
      simp only [served, Keyed.runOne, List.cons_append, List.cons.injEq] at hserved
      obtain ⟨rfl, hrest⟩ := hserved
      rw [serve_of_opened he] at hrest ⊢
      rw [List.map_cons, granted_of_not_opened hrest hmid]
      have hsucc : limit.toNat = (limit - 1).toNat + 1 := by omega
      rw [hsucc]
      simp [List.replicate_succ, Nat.succ_min_succ]
  independent := by
    rw [answers_eq_served, answers_eq_served, Keyed.ofKey_filter]

theorem allow_budget_two_keys :
    Budget 2 60 [("ip", 0), ("ip", 1), ("other-ip", 1), ("ip", 59), ("ip", 60)] "ip" :=
  allow_budget 2 60 _ "ip" (by decide) (by norm_num)

/-- Three calls of one key and one of another, as the limiter's unit test makes them. -/
example : (trace 2 60 (fun _ => none) [("ip", 0), ("ip", 0), ("ip", 0), ("other-ip", 0)]).map
    (fun e => e.2.granted) = [true, true, false, true] := by decide +kernel

end InProcessKeyRateLimiter
end FaceRecognition.RateLimit
