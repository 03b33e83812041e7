import FaceRecognition.Core.Numbers
import FaceRecognition.Redis.Server

/-!
# The Redis rate limiter under concurrency

`RedisKeyRateLimiter.allow` makes two or three commands (`INCR`, then `TTL` unless the count is
one, then `EXPIRE` when the key has no expiry) and fails open when one of them raises. Any number
of calls run interleaved, each command atomic, each possibly failing, with time passing and keys
vanishing in between.

The calls of one lifetime of a bucket read the counts `1, 2, 3, ...` in the order of their `INCR`s
(`lifetime_counts`); what a call answers depends on its count only (`Decides`), so the granted ones
are the first `limit`. A call that denies has either renewed the expiry with its last command or
seen one with it (`denial_leaves_expiry`), and no expiry is ever longer than the window, since only
calls of the same window set it.
-/

namespace FaceRecognition.RateLimit

open Redis Client

namespace RedisKeyRateLimiter

/-- `_PREFIX` -/
def bucketOf (key : String) : String := "fr:ratelimit:" ++ key

/-- The time-to-live set on a bucket: `max(1, int(window))`. -/
def expirySeconds (window : ℚ) : ℤ := max 1 (truncInt window)

/-- The body of the `try`. -/
def attempt (key : String) (limit : ℤ) (window : ℚ) : RedisM Bool := do
  let bucket := bucketOf key
  let current ← command (.incr bucket)
  let renew ← if current = 1 then pure true else (do
    let left ← command (.ttl bucket)
    pure (decide (left < 0)))
  if renew then
    let _ ← command (.expire bucket (expirySeconds window))
  return decide (current ≤ limit)

/-- `allow`: on any Redis error the call is allowed. -/
def allow (key : String) (limit : ℤ) (window : ℚ) : Prog Bool := do
  match ← (attempt key limit window).run with
  | .ok allowed => return allowed
  | .error _ => return true

/-- The arguments of one call. -/
structure Call where
  key : String
  limit : ℤ
  window : ℚ
  deriving DecidableEq, Repr

/-! ### The stages of a call -/

def afterExpire (limit current : ℤ) : Except Redis.Error Bool → Prog Bool
  | .error _ => .pure true
  | .ok _ => .pure (decide (current ≤ limit))

def afterTtl (c : Call) (current : ℤ) : Except Redis.Error ℤ → Prog Bool
  | .error _ => .pure true
  | .ok left =>
    if left < 0 then .call (.expire (bucketOf c.key) (expirySeconds c.window))
      (afterExpire c.limit current)
    else .pure (decide (current ≤ c.limit))

def afterIncr (c : Call) : Except Redis.Error ℤ → Prog Bool
  | .error _ => .pure true
  | .ok current =>
    if current = 1 then .call (.expire (bucketOf c.key) (expirySeconds c.window))
      (afterExpire c.limit current)
    else .call (.ttl (bucketOf c.key)) (afterTtl c current)

theorem allow_eq (c : Call) :
    allow c.key c.limit c.window = .call (.incr (bucketOf c.key)) (afterIncr c) := by
  show Prog.call _ _ = _
  congr 1
  funext r
  cases r with
  | error e => rfl
  | ok current =>
    by_cases h : current = 1
    · subst h
      show Prog.call _ _ = _
      rw [afterIncr, if_pos rfl]
      congr 1
      funext r
      cases r <;> rfl
    · rw [afterIncr, if_neg h]
      simp only [Prog.bind, ExceptT.bindCont, if_neg h]
      show Prog.call _ _ = _
      congr 1
      funext r
      cases r with
      | error e => rfl
      | ok left =>
        by_cases hl : left < 0
        · rw [afterTtl, if_pos hl]
          simp only [Prog.bind, ExceptT.bindCont, hl]
          show Prog.call _ _ = _
          congr 1
          funext r
          cases r <;> rfl
        · rw [afterTtl, if_neg hl]
          simp only [Prog.bind, ExceptT.bindCont, hl]
          rfl

/-- What is left of a call, however its commands were answered so far. -/
inductive Stage (c : Call) : Prog Bool → Prop where
  | start : Stage c (allow c.key c.limit c.window)
  | incremented (r : Except Redis.Error ℤ) : Stage c (afterIncr c r)
  | asked (current : ℤ) (r : Except Redis.Error ℤ) : Stage c (afterTtl c current r)
  | renewed (current : ℤ) (r : Except Redis.Error Bool) : Stage c (afterExpire c.limit current r)

/-- The next command of a call. -/
theorem Stage.next {c : Call} {p : Prog Bool} (h : Stage c p) :
    p = .call (.incr (bucketOf c.key)) (afterIncr c) ∨
      (∃ current, p = .call (.ttl (bucketOf c.key)) (afterTtl c current)) ∨
      (∃ current, p = .call (.expire (bucketOf c.key) (expirySeconds c.window))
        (afterExpire c.limit current)) ∨
      ∃ b, p = .pure b := by
  cases h with
  | start => exact .inl (allow_eq c)
  | incremented r =>
    cases r with
    | error e => exact .inr (.inr (.inr ⟨true, rfl⟩))
    | ok current =>
      simp only [afterIncr]
      split_ifs
      · exact .inr (.inr (.inl ⟨current, rfl⟩))
      · exact .inr (.inl ⟨current, rfl⟩)
  | asked current r =>
    cases r with
    | error e => exact .inr (.inr (.inr ⟨true, rfl⟩))
    | ok left =>
      simp only [afterTtl]
      split_ifs
      · exact .inr (.inr (.inl ⟨current, rfl⟩))
      · exact .inr (.inr (.inr ⟨_, rfl⟩))
  | renewed current r => cases r <;> exact .inr (.inr (.inr ⟨_, rfl⟩))

theorem Stage.reply {c : Call} {cmd : Cmd} {k : Except Redis.Error cmd.Reply → Prog Bool}
    (h : Stage c (.call cmd k)) (r : Except Redis.Error cmd.Reply) : Stage c (k r) := by
  rcases h.next with h | ⟨current, h⟩ | ⟨current, h⟩ | ⟨b, h⟩ <;> cases h
  · exact .incremented r
  · exact .asked current r
  · exact .renewed current r

theorem bucketOf_injective : Function.Injective bucketOf := fun a b h => by
  have := congrArg String.toList h
  exact String.toList_injective (by simpa [bucketOf] using this)

theorem expirySeconds_pos (window : ℚ) : 0 < expirySeconds window := by
  unfold expirySeconds; omega

/-! ### Interleaved calls -/

section world
variable {ι : Type} [DecidableEq ι]

abbrev World (ι : Type) := Client.World Server ι Cmd (fun c => Except Redis.Error c.Reply) Bool

abbrev Event (ι : Type) := Client.Event ι Mode Env

/-- Every call of `calls` is about to start. -/
def start (s : Server) (calls : ι → Call) : World ι where
  server := s
  client i := allow (calls i).key (calls i).limit (calls i).window

/-- Two workers with a budget of one call on the same key, on an empty server. -/
def twoWorkers : World (Fin 2) := start ⟨0, fun _ => none⟩ fun _ => ⟨"ip", 1, 60⟩

def step (w : World ι) (e : Event ι) : Option (World ι) := Client.step serve Server.env w e

theorem step_stage {calls : ι → Call} {w w' : World ι} {e : Event ι}
    (h : ∀ i, Stage (calls i) (w.client i)) (hstep : step w e = some w') :
    ∀ i, Stage (calls i) (w'.client i) :=
  (Client.step_inv serve Server.env (I := fun _ => True) (P := fun i p => Stage (calls i) p)
    (fun _ _ _ _ _ _ hp => ⟨trivial, hp.reply _⟩) (fun _ _ _ _ _ => trivial) trivial h hstep).2

theorem exec_stage {s : Server} {calls : ι → Call} {es : List (Event ι)} {w : World ι}
    (h : Run.exec step (start s calls) es = some w) : ∀ i, Stage (calls i) (w.client i) :=
  Run.exec_inv (I := fun w : World ι => ∀ i, Stage (calls i) (w.client i))
    (fun _ _ _ hs hstep => step_stage hs hstep) (fun _ => .start) h

/-! ### No lock-out -/

theorem exec_deadline {s : Server} {calls : ι → Call} {key : String} {window : ℚ}
    (hwindow : ∀ i, (calls i).key = key → (calls i).window = window)
    (hs : DeadlineWithin s (bucketOf key) (expirySeconds window)) {es : List (Event ι)}
    {w : World ι} (h : Run.exec step (start s calls) es = some w) :
    DeadlineWithin w.server (bucketOf key) (expirySeconds window) := by
  refine (Client.exec_inv serve Server.env
    (I := fun s => DeadlineWithin s (bucketOf key) (expirySeconds window))
    (P := fun i p => Stage (calls i) p) (fun i m s cmd k hI hp => ⟨?_, hp.reply _⟩)
    (fun _ _ _ hI ha => hI.env ha) hs (fun _ => .start) h).1
  refine serve_inv (I := fun s => DeadlineWithin s _ _) m hI ?_
  rcases hp.next with h | ⟨current, h⟩ | ⟨current, h⟩ | ⟨b, h⟩ <;> cases h
  · exact hI.incr
  · exact hI
  · by_cases hkey : (calls i).key = key
    · rw [hkey, hwindow i hkey]
      exact .of_expires (expire_expiresWithin s _ _)
    · have hne : bucketOf key ≠ bucketOf (calls i).key := fun h => hkey (bucketOf_injective h).symm
      intro e d he hd
      simp only [Server.exec] at he ⊢
      rw [expire_of_ne s _ hne] at he
      rw [expire_clock]
      exact hI e d he hd

/-- The last command of a call that denies leaves the bucket absent or with an expiry. -/
theorem denial_leaves_expiry {c : Call} {s : Server} {m : Mode} {cmd : Cmd}
    {k : Except Redis.Error cmd.Reply → Prog Bool} (hstage : Stage c (.call cmd k))
    (hs : DeadlineWithin s (bucketOf c.key) (expirySeconds c.window))
    (hdeny : k (serve m s cmd).2 = .pure false) :
    ExpiresWithin (serve m s cmd).1 (bucketOf c.key) (expirySeconds c.window) := by
  rcases hstage.next with h | ⟨current, h⟩ | ⟨current, h⟩ | ⟨b, h⟩ <;> cases h
  · -- after `INCR` a call either fails open or goes on
    cases hr : (serve m s (.incr (bucketOf c.key))).2 with
    | error e => simp [hr, afterIncr] at hdeny
    | ok current => rw [hr, afterIncr] at hdeny; split_ifs at hdeny
  · cases hr : (serve m s (.ttl (bucketOf c.key))).2 with
    | error e => simp [hr, afterTtl] at hdeny
    | ok left =>
      rw [hr, afterTtl] at hdeny
      split_ifs at hdeny with hleft
      have hserve := serve_ok hr
      rw [hserve] at hr ⊢
      cases hr
      obtain ⟨e, d, he, hd⟩ := ttl_nonneg (not_lt.1 hleft)
      exact .inr ⟨e, d, he, hd, hs e d he hd⟩
  · cases hr : (serve m s (.expire (bucketOf c.key) (expirySeconds c.window))).2 with
    | error e => simp [hr, afterExpire] at hdeny
    | ok renewed =>
      rw [serve_ok hr]
      exact expire_expiresWithin s _ _

/-- **No lock-out.** Whatever was interleaved, lost or crashed before, on a server whose bucket is
missing, without expiry or within the window: right after the last command of a call that answers
`False`, its bucket is absent or expires within the window. -/
theorem denied_bucket_expires (s : Server) (calls : ι → Call) (key : String) (window : ℚ)
    (hwindow : ∀ i, (calls i).key = key → (calls i).window = window)
    (hs : DeadlineWithin s (bucketOf key) (max 1 (truncInt window))) (es : List (Event ι))
    (w w' : World ι) (i : ι) (m : Mode) (hrun : Run.exec step (start s calls) es = some w)
    (hkey : (calls i).key = key) (hstep : step w (.act i m) = some w')
    (hdeny : w'.client i = .pure false) :
    ExpiresWithin w'.server (bucketOf key) (max 1 (truncInt window)) := by
  have hdeadline := exec_deadline hwindow hs hrun
  have hstage := exec_stage hrun i
  rcases Client.step_cases hstep with ⟨i', m', cmd, k, he, hp, hserver, hclient⟩ | ⟨a, he, -⟩
  · cases he
    rw [hclient, Function.update_self] at hdeny
    rw [hserver]
    rw [hp] at hstage
    have := denial_leaves_expiry hstage (by rwa [hkey, hwindow i hkey]) hdeny
    rwa [hkey, hwindow i hkey] at this
  · cases he

/-- Worker `0` stops between `INCR` and `EXPIRE`; worker `1` is denied and renews the expiry. -/
theorem denied_bucket_expires_after_crash :
    ∃ w : World (Fin 2), Run.exec step twoWorkers
        [.act 0 .served, .act 1 .served, .act 1 .served, .act 1 .served] = some w ∧
      w.client 1 = .pure false ∧ ExpiresWithin w.server (bucketOf "ip") (max 1 (truncInt 60)) :=
  ⟨_, rfl, rfl, denied_bucket_expires ⟨0, fun _ => none⟩ (fun _ : Fin 2 => ⟨"ip", 1, 60⟩) "ip" 60
    (fun _ _ => rfl) (fun _ _ he => (by cases he))
    [.act 0 .served, .act 1 .served, .act 1 .served] _ _ 1 .served rfl rfl rfl rfl⟩

/-! ### One lifetime of a bucket -/

/-- The client whose `INCR` of the bucket the event executes. -/
def counts (bucket : String) (w : World ι) : Event ι → Option ι
  | .act i _ =>
    match w.client i with
    | .call (.incr b) _ => if b = bucket then some i else none
    | _ => none
  | .env _ => none

/-- The clients whose `INCR` of the bucket falls into the run, in order. -/
def counted (bucket : String) (w : World ι) : List (Event ι) → List ι
  | [] => []
  | e :: es =>
    match step w e with
    | none => []
    | some w' => (counts bucket w e).toList ++ counted bucket w' es

/-- The event does not leave the bucket missing. -/
def Alive (bucket : String) (w : World ι) (e : Event ι) : Prop :=
  ∀ w', step w e = some w' → (w'.server.keys bucket).isSome

/-- The command that the event executes does not raise. -/
def NoRaise (w : World ι) : Event ι → Prop
  | .act i m => ∀ cmd k, w.client i = .call cmd k → ∃ r, (serve m w.server cmd).2 = .ok r
  | .env _ => True

/-- What is left of a call that read `current` from its `INCR`, no command having raised since. -/
inductive Decides (c : Call) (current : ℤ) : Prog Bool → Prop where
  | incremented : Decides c current (afterIncr c (.ok current))
  | asked (left : ℤ) : Decides c current (afterTtl c current (.ok left))
  | renewed (done : Bool) : Decides c current (afterExpire c.limit current (.ok done))

theorem Decides.next {c : Call} {current : ℤ} {p : Prog Bool} (h : Decides c current p) :
    p = .call (.ttl (bucketOf c.key)) (afterTtl c current) ∨
      p = .call (.expire (bucketOf c.key) (expirySeconds c.window)) (afterExpire c.limit current) ∨
      p = .pure (decide (current ≤ c.limit)) := by
  cases h with
  | incremented => simp only [afterIncr]; split_ifs <;> simp
  | asked left => simp only [afterTtl]; split_ifs <;> simp
  | renewed done => exact .inr (.inr rfl)

theorem Decides.answer {c : Call} {current : ℤ} {b : Bool} (h : Decides c current (.pure b)) :
    b = decide (current ≤ c.limit) := by
  rcases h.next with h | h | h <;> cases h
  rfl

theorem Decides.step {c : Call} {current : ℤ} {w w' : World ι} {i : ι} {e : Event ι}
    (h : Decides c current (w.client i)) (hquiet : NoRaise w e)
    (hstep : RedisKeyRateLimiter.step w e = some w') : Decides c current (w'.client i) := by
  rcases Client.step_cases hstep with ⟨j, m, cmd, k, rfl, hp, -, hclient⟩ | ⟨a, -, -, hclient⟩
  · rw [hclient]
    by_cases hij : i = j
    · subst hij
      rw [Function.update_self]
      obtain ⟨r, hr⟩ := hquiet cmd k hp
      rw [hr]
      rw [hp] at h
      rcases h.next with h | h | h <;> cases h
      · exact .asked r
      · exact .renewed r
    · rwa [Function.update_of_ne hij]
  · rwa [hclient]

theorem Decides.exec {c : Call} {current : ℤ} {w w' : World ι} {i : ι} {es : List (Event ι)}
    (h : Decides c current (w.client i))
    (hquiet : Run.Guarded RedisKeyRateLimiter.step NoRaise w es)
    (hrun : Run.exec RedisKeyRateLimiter.step w es = some w') : Decides c current (w'.client i) :=
  Run.inv_of_guarded (I := fun w : World ι => Decides c current (w.client i))
    (fun _ _ _ h hq hs => Decides.step h hq hs) h hquiet hrun

/-- A call counts once: after its `INCR` it is not counted again. -/
theorem Decides.not_counted {c : Call} {current : ℤ} {bucket : String} {w : World ι} {i : ι}
    {es : List (Event ι)} (h : Decides c current (w.client i))
    (hquiet : Run.Guarded RedisKeyRateLimiter.step NoRaise w es) : i ∉ counted bucket w es := by
  induction es generalizing w with
  | nil => simp [counted]
  | cons e es ih =>
    rw [counted]
    cases hs : RedisKeyRateLimiter.step w e with
    | none => simp
    | some w' =>
      simp only [List.mem_append, Option.mem_toList, not_or]
      refine ⟨?_, ih (h.step hquiet.1 hs) (hquiet.2 w' hs)⟩
      cases e with
      | env a => simp [counts]
      | act j m =>
        intro hmem
        have hj : j = i := by
          simp only [counts] at hmem
          split at hmem
          · split_ifs at hmem; simpa using hmem
          · simp at hmem
        subst hj
        rcases h.next with hp | hp | hp <;> simp [counts, hp] at hmem

/-- The bucket has been counted up to `n` in its present lifetime. -/
def CountedTo (s : Server) (bucket : String) (n : ℕ) : Prop :=
  (n = 0 ∧ s.keys bucket = none) ∨ ∃ dl, s.keys bucket = some ⟨.int n, dl⟩

theorem CountedTo.incr {s : Server} {bucket : String} {n : ℕ} (h : CountedTo s bucket n) :
    (s.incr bucket).2 = .ok (n + 1 : ℤ) ∧ CountedTo (s.incr bucket).1 bucket (n + 1) := by
  unfold Server.incr
  rcases h with ⟨rfl, hk⟩ | ⟨dl, hk⟩
  · simp only [hk]
    exact ⟨by simp, .inr ⟨none, by simp⟩⟩
  · simp only [hk]
    exact ⟨trivial, .inr ⟨dl, by simp⟩⟩

theorem CountedTo.expire {s : Server} {bucket : String} {n : ℕ} (h : CountedTo s bucket n)
    (bucket' : String) {seconds : ℤ} (hpos : 0 < seconds) :
    CountedTo (s.expire bucket' seconds).1 bucket n := by
  by_cases hb : bucket = bucket'
  · subst hb
    unfold Server.expire
    rcases h with ⟨rfl, hk⟩ | ⟨dl, hk⟩
    · simp only [hk]
      exact .inl ⟨rfl, hk⟩
    · simp only [hk, if_neg (not_le.2 hpos)]
      exact .inr ⟨some (s.clock + seconds), by simp⟩
  · simpa [CountedTo, expire_of_ne s _ hb] using h

theorem CountedTo.env {s s' : Server} {bucket : String} {n : ℕ} {a : Env}
    (h : CountedTo s bucket n) (ha : s.env a = some s') (halive : (s'.keys bucket).isSome) :
    CountedTo s' bucket n := by
  obtain ⟨e, he⟩ := Option.isSome_iff_exists.1 halive
  have hkept := (env_kept ha).2 bucket e he
  rcases h with ⟨-, hk⟩ | ⟨dl, hk⟩
  · rw [hk] at hkept; cases hkept
  · exact .inr ⟨dl, by rw [he, ← hkept, hk]⟩

/-- One event of a lifetime: the bucket counts one more, for the client that the event counts, or
it counts as before. -/
theorem lifetime_step {calls : ι → Call} {bucket : String} {w w' : World ι} {e : Event ι} {n : ℕ}
    (hstage : ∀ i, Stage (calls i) (w.client i)) (hn : CountedTo w.server bucket n)
    (halive : Alive bucket w e) (hquiet : NoRaise w e) (hstep : step w e = some w') :
    (∃ i, counts bucket w e = some i ∧ bucketOf (calls i).key = bucket ∧
        CountedTo w'.server bucket (n + 1) ∧ Decides (calls i) (n + 1) (w'.client i)) ∨
      (counts bucket w e = none ∧ CountedTo w'.server bucket n) := by
  have halive' := halive w' hstep
  rcases Client.step_cases hstep with ⟨i, m, cmd, k, rfl, hp, hserver, hclient⟩ | ⟨a, rfl, ha, -⟩
  · have hstage := hstage i
    obtain ⟨r, hr⟩ := hquiet cmd k hp
    rw [hp] at hstage
    rw [hserver, serve_ok hr]
    rcases hstage.next with h | ⟨current, h⟩ | ⟨current, h⟩ | ⟨b, h⟩ <;> cases h
    · by_cases hb : bucketOf (calls i).key = bucket
      · subst hb
        refine .inl ⟨i, by simp [counts, hp], rfl, hn.incr.2, ?_⟩
        have hcount := hn.incr.1
        rw [hclient, Function.update_self, serve_ok hr]
        simp only [Server.exec, hcount]
        exact .incremented
      · exact .inr ⟨by simp [counts, hp, hb], by
          simpa [CountedTo, Server.exec, incr_of_ne _ (Ne.symm hb)] using hn⟩
    · exact .inr ⟨by simp [counts, hp], hn⟩
    · exact .inr ⟨by simp [counts, hp], hn.expire _ (expirySeconds_pos _)⟩
  · exact .inr ⟨rfl, hn.env ha halive'⟩

/-- The calls counted in a lifetime read consecutive counts, each once. -/
theorem lifetime_counts {calls : ι → Call} {bucket : String} {w w' : World ι}
    {es : List (Event ι)} {n : ℕ} (hstage : ∀ i, Stage (calls i) (w.client i))
    (hn : CountedTo w.server bucket n) (halive : Run.Guarded step (Alive bucket) w es)
    (hquiet : Run.Guarded step NoRaise w es) (hrun : Run.exec step w es = some w') :
    (counted bucket w es).Nodup ∧
      ∀ (j : ℕ) (i : ι), (counted bucket w es)[j]? = some i →
        bucketOf (calls i).key = bucket ∧ Decides (calls i) (n + j + 1) (w'.client i) := by
  induction es generalizing w n with
  | nil => simp [counted]
  | cons e es ih =>
    obtain ⟨t, ht, hrest⟩ := Run.exec_cons.1 hrun
    have hstage' := step_stage hstage ht
    have ha := halive.2 t ht
    have hq := hquiet.2 t ht
    rw [counted]
    simp only [ht]
    rcases lifetime_step hstage hn halive.1 hquiet.1 ht with ⟨i, hi, hb, hn', hd⟩ | ⟨hi, hn'⟩
    · obtain ⟨hnodup, hall⟩ := ih hstage' hn' ha hq hrest
      rw [hi]
      refine ⟨List.nodup_cons.2 ⟨hd.not_counted hq, hnodup⟩, fun j i' hj => ?_⟩
      cases j with
      | zero =>
        obtain rfl : i = i' := by simpa using hj
        exact ⟨hb, by simpa using hd.exec hq hrest⟩
      | succ j =>
        obtain ⟨hb', hd'⟩ := hall j i' (by simpa using hj)
        refine ⟨hb', ?_⟩
        have harith : (n + (j + 1 : ℕ) + 1 : ℤ) = ((n + 1 : ℕ) + j + 1 : ℤ) := by push_cast; ring
        rwa [harith]
    · rw [hi]
      exact ih hstage' hn' ha hq hrest

/-- `allow` has returned `True`. -/
def granted (w : World ι) (i : ι) : Bool :=
  match w.client i with
  | .pure b => b
  | .call _ _ => false

omit [DecidableEq ι] in
/-- A predicate that holds of the positions below a bound holds that often. -/
theorem length_filter_start (p : ι → Bool) (l : List ι) (n : ℕ) (limit : ℤ)
    (h : ∀ (j : ℕ) (i : ι), l[j]? = some i → p i = decide ((n + j + 1 : ℤ) ≤ limit)) :
    (l.filter p).length = min l.length (limit - n).toNat := by
  induction l generalizing n with
  | nil => simp
  | cons i l ih =>
    have hi := h 0 i (by simp)
    have hrest := ih (n + 1) fun j i' hj => by
      have := h (j + 1) i' (by simpa using hj)
      rw [this]
      congr 1
      push_cast
      rw [show (n + (j + 1) + 1 : ℤ) = n + 1 + j + 1 by ring]
    by_cases hlimit : (n + 1 : ℤ) ≤ limit
    · have : p i = true := by simpa using hi.trans (by simpa using hlimit)
      rw [List.filter_cons_of_pos this, List.length_cons, hrest, List.length_cons]
      push_cast
      omega
    · have : p i = false := by simpa using hi.trans (by simpa using hlimit)
      rw [List.filter_cons_of_neg (by simp [this]), hrest, List.length_cons]
      push_cast
      omega

/-- **The budget of one lifetime.** From a moment when the bucket is missing, through a run that
never leaves it missing, and on until every call counted in it has returned: exactly the first
`limit` of them return `True`. -/
theorem lifetime_budget (s : Server) (calls : ι → Call) (key : String) (limit : ℤ)
    (hlimit : ∀ i, (calls i).key = key → (calls i).limit = limit)
    (before life after : List (Event ι)) (w₁ w₂ w₃ : World ι)
    (hbefore : Run.exec step (start s calls) before = some w₁)
    (hlife : Run.exec step w₁ life = some w₂) (hafter : Run.exec step w₂ after = some w₃)
    (hnew : w₁.server.keys (bucketOf key) = none)
    (halive : Run.Guarded step (Alive (bucketOf key)) w₁ life)
    (hquiet : Run.Guarded step NoRaise w₁ life) (hquiet' : Run.Guarded step NoRaise w₂ after)
    (hdone : ∀ i ∈ counted (bucketOf key) w₁ life, ∃ b, w₃.client i = .pure b) :
    (counted (bucketOf key) w₁ life).Nodup ∧
      ((counted (bucketOf key) w₁ life).filter (granted w₃)).length =
        min (counted (bucketOf key) w₁ life).length (max limit 0).toNat := by
  obtain ⟨hnodup, hall⟩ := lifetime_counts (exec_stage hbefore) (n := 0) (.inl ⟨rfl, hnew⟩) halive
    hquiet hlife
  refine ⟨hnodup, ?_⟩
  have hanswer : ∀ (j : ℕ) (i : ι), (counted (bucketOf key) w₁ life)[j]? = some i →
      granted w₃ i = decide (((0 : ℕ) + j + 1 : ℤ) ≤ limit) := by
    intro j i hj
    obtain ⟨hb, hd⟩ := hall j i hj
    obtain ⟨b, hret⟩ := hdone i (List.mem_of_getElem? hj)
    have hd' := hd.exec hquiet' hafter
    rw [hret] at hd'
    rw [granted, hret, hd'.answer, hlimit i (bucketOf_injective hb)]
  rw [length_filter_start (granted w₃) _ 0 limit hanswer]
  congr 1
  simp only [Nat.cast_zero]
  omega

/-- The first of two workers spends the budget of one call; its `EXPIRE` comes last. -/
theorem lifetime_budget_two_workers :
    ∃ w₁ w₂ : World (Fin 2), Run.exec step twoWorkers [.act 0 .served, .act 1 .served] = some w₁ ∧
      Run.exec step w₁ [.act 1 .served, .act 1 .served, .act 0 .served] = some w₂ ∧
      ((counted (bucketOf "ip") twoWorkers [.act 0 .served, .act 1 .served]).filter
        (granted w₂)).length = 1 := by
  refine ⟨_, _, rfl, rfl, ?_⟩
  refine (lifetime_budget ⟨0, fun _ => none⟩ (fun _ : Fin 2 => ⟨"ip", 1, 60⟩) "ip" 1
    (fun _ _ => rfl) [] [.act 0 .served, .act 1 .served]
    [.act 1 .served, .act 1 .served, .act 0 .served] _ _ _ rfl rfl rfl rfl ?_ ?_ ?_ ?_).2.trans rfl
  · refine Run.guarded_cons (fun _ h => ?_) rfl (Run.guarded_cons (fun _ h => ?_) rfl trivial) <;>
      cases h <;> rfl
  · refine Run.guarded_cons (fun _ _ h => ?_) rfl
      (Run.guarded_cons (fun _ _ h => ?_) rfl trivial) <;> cases h <;> exact ⟨_, rfl⟩
  · refine Run.guarded_cons (fun _ _ h => ?_) rfl (Run.guarded_cons (fun _ _ h => ?_) rfl
      (Run.guarded_cons (fun _ _ h => ?_) rfl trivial)) <;> cases h <;> exact ⟨_, rfl⟩
  · exact fun i _ => match i with
      | 0 => ⟨true, rfl⟩
      | 1 => ⟨false, rfl⟩

end world

end RedisKeyRateLimiter
end FaceRecognition.RateLimit
