import FaceRecognition.Core.Exceptions
import FaceRecognition.Lib.Threads

/-!
# The shared Redis client

`get_redis` connects once for the whole process, under a lock, and keeps the client in a global. The
flag `_attempted` is set before the client is published, and it is read without the lock. So there
is a time when the flag says that the client can be taken and there is none yet (`Globals.Half`): a
call that reads the global then returns `None` although Redis answers, and nothing else goes wrong
(`every_call_returns_client_iff`). Each statement is atomic, the lock is exclusive.

The globals are only written under the lock (`writes_of_stmt`), so that what a thread knows of them
outside of it is what no other thread undoes (`Pc.Knows.advances`).
-/

namespace FaceRecognition.RedisClient

open Threads

variable {ι C : Type}

/-! ### The function -/

/-- `settings.REDIS_URL`, and the calls of the package as they go for each thread. -/
structure Package (ι C : Type) where
  redisUrl : String
  /-- `import redis` -/
  importRedis : ι → Except Exc Unit
  /-- `redis.Redis.from_url(url, decode_responses=True, socket_connect_timeout=2)` -/
  fromUrl : ι → String → Except Exc C
  ping : ι → C → Except Exc Unit

/-- The globals `_client` and `_attempted`, and who holds `_lock`. -/
structure Globals (ι C : Type) where
  client : Option C
  attempted : Bool
  lock : Option ι

/-- The next statement of a call of `get_redis`. -/
inductive Pc (C : Type) where
  /-- `if not settings.REDIS_URL` -/
  | checkUrl
  /-- `if _attempted`, before the lock -/
  | checkAttempted
  /-- `return _client`, before the lock -/
  | returnClient
  /-- `with _lock` -/
  | acquire
  /-- `if _attempted`, under the lock -/
  | recheckAttempted
  /-- `return _client`, under the lock -/
  | readClient
  /-- `_attempted = True` -/
  | setAttempted
  | importRedis
  | fromUrl
  | ping (client : C)
  /-- `_client = client` -/
  | setClient (client : C)
  | logConnected
  /-- `_client = None` -/
  | dropClient (exc : Exc)
  | logUnavailable (exc : Exc)
  /-- The end of `with _lock`, with what is returned there. -/
  | release (result : Option (Option C))
  /-- `return _client`, after the lock -/
  | returnAfter
  | returned (result : Option C)

/-- One statement of `get_redis` by thread `i`. -/
def stmt (R : Package ι C) (i : ι) : Pc C → Globals ι C → Option (Pc C × Globals ι C)
  | .checkUrl, s => some (if R.redisUrl = "" then .returned none else .checkAttempted, s)
  | .checkAttempted, s => some (if s.attempted then .returnClient else .acquire, s)
  | .returnClient, s => some (.returned s.client, s)
  | .acquire, s =>
    match s.lock with
    | none => some (.recheckAttempted, { s with lock := some i })
    | some _ => none
  | .recheckAttempted, s => some (if s.attempted then .readClient else .setAttempted, s)
  | .readClient, s => some (.release (some s.client), s)
  | .setAttempted, s => some (.importRedis, { s with attempted := true })
  | .importRedis, s =>
    match R.importRedis i with
    | .ok () => some (.fromUrl, s)
    | .error exc => some (.dropClient exc, s)
  | .fromUrl, s =>
    match R.fromUrl i R.redisUrl with
    | .ok client => some (.ping client, s)
    | .error exc => some (.dropClient exc, s)
  | .ping client, s =>
    match R.ping i client with
    | .ok () => some (.setClient client, s)
    | .error exc => some (.dropClient exc, s)
  | .setClient client, s => some (.logConnected, { s with client := some client })
  | .logConnected, s => some (.release none, s)
  | .dropClient exc, s => some (.logUnavailable exc, { s with client := none })
  | .logUnavailable _, s => some (.release none, s)
  | .release (some result), s => some (.returned result, { s with lock := none })
  | .release none, s => some (.returnAfter, { s with lock := none })
  | .returnAfter, s => some (.returned s.client, s)
  | .returned _, _ => none

/-- Every thread is about to call `get_redis`, for the first time in the process. -/
def start : World ι (Pc C) (Globals ι C) := ⟨fun _ => .checkUrl, ⟨none, false, none⟩⟩

/-- Redis answers every thread. -/
structure Package.Answers (R : Package ι C) : Prop where
  url : R.redisUrl ≠ ""
  importRedis : ∀ i, R.importRedis i = .ok ()
  fromUrl : ∀ i, ∃ client, R.fromUrl i R.redisUrl = .ok client
  ping : ∀ i client, R.ping i client = .ok ()

/-- A client of some thread that Redis has answered. -/
def Package.Connected (R : Package ι C) (client : C) : Prop :=
  ∃ i, R.fromUrl i R.redisUrl = .ok client ∧ R.ping i client = .ok ()

/-! ### The proof outline -/

namespace Globals

/-- Nobody has tried yet. -/
def Fresh (s : Globals ι C) : Prop := s.attempted = false ∧ s.client = none

/-- The flag is set and the client is not. -/
def Half (s : Globals ι C) : Prop := s.attempted = true ∧ s.client = none

/-- The client is published. -/
def Ready (R : Package ι C) (s : Globals ι C) : Prop :=
  s.attempted = true ∧ ∃ client, s.client = some client ∧ R.Connected client

theorem Fresh.not_half {s : Globals ι C} (h : s.Fresh) : ¬ s.Half := fun hhalf => by
  cases h.1.symm.trans hhalf.1

theorem Ready.not_half {R : Package ι C} {s : Globals ι C} (h : s.Ready R) : ¬ s.Half :=
  fun hhalf => by
    obtain ⟨-, client, hclient, -⟩ := h
    cases hhalf.2.symm.trans hclient

/-- Only the holder of the lock leaves the client half published. -/
def Inv (R : Package ι C) (s : Globals ι C) : Prop :=
  s.Fresh ∨ s.Half ∧ s.lock ≠ none ∨ s.Ready R

end Globals

namespace Pc

/-- In the block of the lock. -/
def Locked : Pc C → Prop
  | .recheckAttempted | .readClient | .setAttempted | .importRedis | .fromUrl | .ping _
  | .setClient _ | .logConnected | .dropClient _ | .logUnavailable _ | .release _ => True
  | .checkUrl | .checkAttempted | .returnClient | .acquire | .returnAfter | .returned _ => False

/-- Between `_attempted = True` and `_client = client`. -/
def Connecting : Pc C → Prop
  | .importRedis | .fromUrl | .ping _ | .setClient _ => True
  | _ => False

/-- The read of `_client` without the lock. -/
def Takes : Pc C → Prop
  | .returnClient => True
  | _ => False

/-- How many statements there are left, at most. -/
def rank : Pc C → ℕ
  | .checkUrl => 12
  | .checkAttempted => 11
  | .acquire => 10
  | .recheckAttempted => 9
  | .setAttempted => 8
  | .importRedis => 7
  | .fromUrl => 6
  | .ping _ => 5
  | .setClient _ | .dropClient _ => 4
  | .logConnected | .logUnavailable _ | .readClient => 3
  | .release _ => 2
  | .returnClient | .returnAfter => 1
  | .returned _ => 0

/-- What thread `i` knows of the globals. -/
def Knows (R : Package ι C) (i : ι) : Pc C → Globals ι C → Prop
  | .checkUrl, _ | .checkAttempted, _ | .acquire, _ | .returned _, _ => True
  | .returnClient, s => s.attempted = true
  | .recheckAttempted, s => s.Fresh ∨ s.Ready R
  | .readClient, s | .logConnected, s | .returnAfter, s => s.Ready R
  | .setAttempted, s => s.Fresh
  | .importRedis, s | .fromUrl, s => s.Half
  | .ping client, s => s.Half ∧ R.fromUrl i R.redisUrl = .ok client
  | .setClient client, s => s.Half ∧ R.Connected client
  | .release result, s => s.Ready R ∧ ∀ r ∈ result, r = s.client
  | .dropClient _, _ | .logUnavailable _, _ => False

/-- The assertion of thread `i` at a control point. -/
def At (R : Package ι C) (i : ι) (p : Pc C) (s : Globals ι C) : Prop :=
  (s.lock = some i ↔ p.Locked) ∧ p.Knows R i s

end Pc

section
variable {R : Package ι C} {i j : ι} {p p' q : Pc C} {s s' : Globals ι C}

/-- What the holder of the lock does to the globals. -/
structure Advances (i : ι) (s s' : Globals ι C) : Prop where
  attempted : s.attempted = true → s'.attempted = true
  client : ∀ client, s.client = some client → s'.client = some client
  lock : s'.lock = some i ∨ s'.lock = none

/-- The globals are only written under the lock. -/
theorem writes_of_stmt (hA : p.At R i s) (h : stmt R i p s = some (p', s')) :
    s' = s ∨ s.lock = none ∧ s' = { s with lock := some i } ∨
      s.lock = some i ∧ Advances i s s' := by
  obtain ⟨hlock, hknows⟩ := hA
  have hrelease : Advances i s { s with lock := none } := ⟨fun h => h, fun _ h => h, .inr rfl⟩
  cases p with
  | acquire =>
    cases hfree : s.lock with
    | none =>
      simp only [stmt, hfree] at h
      cases h
      exact .inr (.inl ⟨rfl, rfl⟩)
    | some j =>
      simp only [stmt, hfree] at h
      cases h
  | setAttempted =>
    cases h
    have hheld := hlock.2 trivial
    exact .inr (.inr ⟨hheld, fun _ => rfl, fun _ h => h, .inl hheld⟩)
  | setClient client =>
    cases h
    have hheld := hlock.2 trivial
    refine .inr (.inr ⟨hheld, fun h => h, fun c hc => ?_, .inl hheld⟩)
    rw [hknows.1.2] at hc
    cases hc
  | release result =>
    have hheld := hlock.2 trivial
    cases result <;> cases h <;> exact .inr (.inr ⟨hheld, hrelease⟩)
  | dropClient exc => exact hknows.elim
  | returned result => cases h
  | importRedis | fromUrl | ping client =>
    simp only [stmt] at h
    split at h <;> cases h <;> exact .inl rfl
  | checkUrl | checkAttempted | returnClient | recheckAttempted | readClient | logConnected
  | logUnavailable exc | returnAfter =>
    cases h
    exact .inl rfl

theorem Globals.Ready.advances (hs : s.Ready R) (h : Advances i s s') : s'.Ready R := by
  obtain ⟨hattempted, client, hclient, hconnected⟩ := hs
  exact ⟨h.attempted hattempted, client, h.client client hclient, hconnected⟩

/-- What a thread outside of the lock knows is not undone. -/
theorem Pc.Knows.advances (hq : ¬ q.Locked) (h : q.Knows R j s) (hs : Advances i s s') :
    q.Knows R j s' := by
  cases q with
  | checkUrl | checkAttempted | acquire | returned result => trivial
  | returnClient => exact hs.attempted h
  | returnAfter => exact h.advances hs
  | recheckAttempted | readClient | setAttempted | importRedis | fromUrl | ping client
  | setClient client | logConnected | dropClient exc | logUnavailable exc | release result =>
    exact (hq trivial).elim

theorem Pc.Connecting.locked (h : p.Connecting) : p.Locked := by
  cases p with
  | importRedis | fromUrl | ping client | setClient client => trivial
  | _ => exact h.elim

/-- Under the lock, the client is half published where the thread connects. -/
theorem Pc.Knows.half_iff (hp : p.Locked) (h : p.Knows R i s) : s.Half ↔ p.Connecting := by
  cases p with
  | importRedis | fromUrl => exact iff_of_true h trivial
  | ping client | setClient client => exact iff_of_true h.1 trivial
  | recheckAttempted => exact iff_of_false (h.elim (·.not_half) (·.not_half)) fun h => h
  | setAttempted => exact iff_of_false h.not_half fun h => h
  | readClient | logConnected => exact iff_of_false h.not_half fun h => h
  | release result => exact iff_of_false h.1.not_half fun h => h
  | dropClient exc | logUnavailable exc => exact h.elim
  | checkUrl | checkAttempted | acquire | returnClient | returnAfter | returned result =>
    exact hp.elim

theorem at_of_stmt (hij : j ≠ i) (hA : p.At R i s) (hq : q.At R j s)
    (h : stmt R i p s = some (p', s')) : q.At R j s' := by
  rcases writes_of_stmt hA h with rfl | ⟨hfree, rfl⟩ | ⟨hheld, hs⟩
  · exact hq
  · have hout : ¬ q.Locked := fun hlocked => by
      rw [hq.1.2 hlocked] at hfree
      cases hfree
    refine ⟨iff_of_false (fun heq => hij (Option.some.inj heq).symm) hout, ?_⟩
    exact hq.2.advances (i := i) hout ⟨fun h => h, fun _ h => h, .inl rfl⟩
  · have hout : ¬ q.Locked := fun hlocked =>
      hij (Option.some.inj ((hq.1.2 hlocked).symm.trans hheld))
    refine ⟨iff_of_false (fun heq => ?_) hout, hq.2.advances hout hs⟩
    rcases hs.lock with hlock | hlock <;> rw [hlock] at heq <;> cases heq
    exact hij rfl

/-- A statement leaves its thread with what it has to know next. -/
theorem keeps_of_stmt (hR : R.Answers) (hI : s.Inv R) (hA : p.At R i s)
    (h : stmt R i p s = some (p', s')) : s'.Inv R ∧ p'.At R i s' := by
  obtain ⟨hlock, hknows⟩ := hA
  cases p with
  | checkUrl =>
    rw [stmt, if_neg hR.url] at h
    cases h
    exact ⟨hI, hlock, trivial⟩
  | checkAttempted =>
    simp only [stmt] at h
    split_ifs at h with hattempted <;> cases h
    · exact ⟨hI, hlock, hattempted⟩
    · exact ⟨hI, hlock, trivial⟩
  | returnClient | returnAfter =>
    cases h
    exact ⟨hI, hlock, trivial⟩
  | acquire =>
    cases hfree : s.lock with
    | some j =>
      simp only [stmt, hfree] at h
      cases h
    | none =>
      simp only [stmt, hfree] at h
      cases h
      rcases hI with hfresh | ⟨-, hheld⟩ | hready
      · exact ⟨.inl hfresh, iff_of_true rfl trivial, .inl hfresh⟩
      · exact (hheld hfree).elim
      · exact ⟨.inr (.inr hready), iff_of_true rfl trivial, .inr hready⟩
  | recheckAttempted =>
    simp only [stmt] at h
    rcases hknows with hfresh | hready
    · rw [hfresh.1] at h
      cases h
      exact ⟨hI, hlock, hfresh⟩
    · rw [hready.1] at h
      cases h
      exact ⟨hI, hlock, hready⟩
  | readClient =>
    cases h
    refine ⟨hI, hlock, hknows, fun r hr => ?_⟩
    cases hr
    rfl
  | setAttempted =>
    cases h
    have hheld : s.lock ≠ none := fun hfree => by
      rw [hlock.2 trivial] at hfree
      cases hfree
    exact ⟨.inr (.inl ⟨⟨rfl, hknows.2⟩, hheld⟩), hlock, rfl, hknows.2⟩
  | importRedis =>
    simp only [stmt, hR.importRedis] at h
    cases h
    exact ⟨hI, hlock, hknows⟩
  | fromUrl =>
    obtain ⟨client, hclient⟩ := hR.fromUrl i
    simp only [stmt, hclient] at h
    cases h
    exact ⟨hI, hlock, hknows, hclient⟩
  | ping client =>
    simp only [stmt, hR.ping] at h
    cases h
    exact ⟨hI, hlock, hknows.1, i, hknows.2, hR.ping i client⟩
  | setClient client =>
    cases h
    have hready : Globals.Ready R { s with client := some client } :=
      ⟨hknows.1.1, client, rfl, hknows.2⟩
    exact ⟨.inr (.inr hready), hlock, hready⟩
  | logConnected =>
    cases h
    refine ⟨hI, hlock, hknows, fun r hr => ?_⟩
    cases hr
  | dropClient exc | logUnavailable exc => exact hknows.elim
  | release result =>
    cases result <;> cases h
    · exact ⟨.inr (.inr hknows.1), iff_of_false (fun heq => by cases heq) (fun h => h), hknows.1⟩
    · exact ⟨.inr (.inr hknows.1), iff_of_false (fun heq => by cases heq) (fun h => h), trivial⟩
  | returned result => cases h

theorem outline (hR : R.Answers) : Outline (stmt R) (Globals.Inv R) (Pc.At R) where
  keeps := keeps_of_stmt hR
  free hij _ hA hq h := at_of_stmt hij hA hq h

/-! ### Progress -/

theorem rank_lt (h : stmt R i p s = some (p', s')) : p'.rank < p.rank := by
  cases p with
  | returned result => cases h
  | checkUrl | checkAttempted | recheckAttempted =>
    simp only [stmt, Option.some.injEq, Prod.mk.injEq] at h
    obtain ⟨rfl, -⟩ := h
    split_ifs <;> simp [Pc.rank]
  | acquire | importRedis | fromUrl | ping client =>
    simp only [stmt] at h
    split at h <;> cases h <;> simp [Pc.rank]
  | release result => cases result <;> cases h <;> simp [Pc.rank]
  | _ =>
    cases h
    simp [Pc.rank]

/-- The holder of the lock does not wait. -/
theorem locked_runs (hp : p.Locked) : stmt R i p s ≠ none := by
  cases p with
  | checkUrl | checkAttempted | acquire | returnClient | returnAfter | returned result =>
    exact hp.elim
  | importRedis | fromUrl | ping client =>
    simp only [stmt]
    split <;> exact Option.some_ne_none _
  | release result => cases result <;> exact Option.some_ne_none _
  | _ => exact Option.some_ne_none _

theorem returned_of_stuck (hfree : s.lock = none) (h : stmt R i p s = none) :
    ∃ result, p = .returned result := by
  cases p with
  | returned result => exact ⟨result, rfl⟩
  | acquire =>
    rw [stmt, hfree] at h
    cases h
  | importRedis | fromUrl | ping client =>
    simp only [stmt] at h
    split at h <;> cases h
  | release result => cases result <;> cases h
  | _ => cases h

/-! ### What is returned -/

theorem client_of_stmt (hA : p.At R i s) (h : stmt R i p s = some (p', s')) {client : C}
    (hclient : s.client = some client) : s'.client = some client := by
  rcases writes_of_stmt hA h with rfl | ⟨-, rfl⟩ | ⟨-, hs⟩
  · exact hclient
  · exact hclient
  · exact hs.client client hclient

/-- Only the read without the lock can return something else than the published client. -/
theorem returned_of_stmt (hR : R.Answers) (hA : p.At R i s) {result : Option C}
    (h : stmt R i p s = some (.returned result, s')) :
    result = s.client ∧ (p = .returnClient ∨ s.Ready R) := by
  obtain ⟨-, hknows⟩ := hA
  cases p with
  | checkUrl =>
    rw [stmt, if_neg hR.url] at h
    cases h
  | returnClient =>
    cases h
    exact ⟨rfl, .inl rfl⟩
  | returnAfter =>
    cases h
    exact ⟨rfl, .inr hknows⟩
  | release r =>
    cases r <;> cases h
    exact ⟨hknows.2 result rfl, .inr hknows.1⟩
  | checkAttempted | acquire | recheckAttempted | importRedis | fromUrl | ping client =>
    simp only [stmt] at h
    split at h <;> cases h
  | readClient | setAttempted | setClient client | logConnected | dropClient exc
  | logUnavailable exc | returned result' => cases h

end

section
variable {R : Package ι C} {w w' : World ι (Pc C) (Globals ι C)} {i : ι}

/-- The outline holds of every thread. -/
def Sound (R : Package ι C) (w : World ι (Pc C) (Globals ι C)) : Prop :=
  w.shared.Inv R ∧ ∀ i, (w.pc i).At R i w.shared

theorem sound_start : Sound R start :=
  ⟨.inl ⟨rfl, rfl⟩, fun _ => ⟨iff_of_false (fun h => by cases h) (fun h => h), trivial⟩⟩

/-- The client is half published while a thread connects. -/
theorem half_iff (h : Sound R w) : w.shared.Half ↔ ∃ i, (w.pc i).Connecting := by
  constructor
  · intro hhalf
    rcases h.1 with hfresh | ⟨-, hheld⟩ | hready
    · exact (hfresh.not_half hhalf).elim
    · obtain ⟨i, hi⟩ := Option.ne_none_iff_exists'.1 hheld
      obtain ⟨hlock, hknows⟩ := h.2 i
      exact ⟨i, (hknows.half_iff (hlock.1 hi)).1 hhalf⟩
    · exact (hready.not_half hhalf).elim
  · rintro ⟨i, hi⟩
    exact ((h.2 i).2.half_iff hi.locked).2 hi

/-- A thread does not take the client, without the lock, while another one connects. -/
def TakesPublished (w : World ι (Pc C) (Globals ι C)) (i : ι) : Prop :=
  (w.pc i).Takes → ∀ j, ¬ (w.pc j).Connecting

/-- The calls that have returned gave the one client, which is connected. -/
def ReturnsClient (R : Package ι C) (w : World ι (Pc C) (Globals ι C)) : Prop :=
  ∀ i result, w.pc i = .returned result →
    ∃ client, result = some client ∧ w.shared.client = some client ∧ R.Connected client

variable [DecidableEq ι]

theorem sound_exec (hR : R.Answers) {is : List ι} (h : Sound R w)
    (hrun : Run.exec (step (stmt R)) w is = some w') : Sound R w' :=
  (outline hR).exec_inv h hrun

theorem returnsClient_step (hR : R.Answers) (h : Sound R w) (hreturns : ReturnsClient R w)
    (htakes : TakesPublished w i) (hstep : step (stmt R) w i = some w') : ReturnsClient R w' := by
  obtain ⟨p, hstmt, hpc⟩ := step_eq_some.1 hstep
  intro j result hj
  rw [hpc] at hj
  by_cases hij : j = i
  · subst hij
    rw [Function.update_self] at hj
    subst hj
    obtain ⟨rfl, hready⟩ := returned_of_stmt hR (h.2 j) hstmt
    have hready : w.shared.Ready R := by
      rcases hready with hp | hready
      · have hattempted : w.shared.attempted = true := by
          have hknows := (h.2 j).2
          rwa [hp] at hknows
        rcases h.1 with hfresh | ⟨hhalf, -⟩ | hready
        · rw [hfresh.1] at hattempted
          cases hattempted
        · obtain ⟨k, hk⟩ := (half_iff h).1 hhalf
          exact (htakes (hp ▸ trivial) k hk).elim
        · exact hready
      · exact hready
    obtain ⟨-, client, hclient, hconnected⟩ := hready
    exact ⟨client, hclient, client_of_stmt (h.2 j) hstmt hclient, hconnected⟩
  · rw [Function.update_of_ne hij] at hj
    obtain ⟨client, hresult, hclient, hconnected⟩ := hreturns j result hj
    exact ⟨client, hresult, client_of_stmt (h.2 i) hstmt hclient, hconnected⟩

/-- The read in between returns `None`. -/
theorem takes_none {j : ι} (h : Sound R w) (htakes : (w.pc i).Takes) (hj : (w.pc j).Connecting)
    (hstep : step (stmt R) w i = some w') : w'.pc i = .returned none := by
  obtain ⟨p, hstmt, hpc⟩ := step_eq_some.1 hstep
  have hclient := ((half_iff h).2 ⟨j, hj⟩).2
  cases hp : w.pc i with
  | returnClient =>
    rw [hp, stmt, hclient, Option.some.injEq, Prod.mk.injEq] at hstmt
    rw [hpc, Function.update_self, hstmt.1]
  | _ =>
    rw [hp] at htakes
    exact htakes.elim

/-- When no thread can go on, every call has returned. -/
theorem all_returned (h : Sound R w) (hstuck : ∀ i, step (stmt R) w i = none) (i : ι) :
    ∃ result, w.pc i = .returned result := by
  have hfree : w.shared.lock = none := by
    by_contra hheld
    obtain ⟨j, hj⟩ := Option.ne_none_iff_exists'.1 hheld
    exact locked_runs ((h.2 j).1.1 hj) (step_eq_none.1 (hstuck j))
  exact returned_of_stuck hfree (step_eq_none.1 (hstuck i))

/-- **The Redis client is published once and completely** iff no thread takes it, without the lock,
while another one connects. Every call takes at most twelve statements, and some call can go on
until all have returned. -/
theorem every_call_returns_client_iff (R : Package ι C) (hR : R.Answers) (is : List ι)
    (hrun : Run.exec (step (stmt R)) start is = some w) :
    (ReturnsClient R w ↔ Run.Guarded (step (stmt R)) TakesPublished start is) ∧
      (∀ i, is.count i ≤ 12) ∧
      ((∀ i, step (stmt R) w i = none) → ∀ i, ∃ result, w.pc i = .returned result) := by
  refine ⟨⟨fun hreturns => ?_, fun hguarded => ?_⟩, fun i => ?_, all_returned ?_⟩
  · refine Run.guarded_iff.2 fun pre i post t hsplit hpre htakes j hj => ?_
    have ht := sound_exec hR sound_start hpre
    rw [hsplit, Run.exec_append, hpre] at hrun
    obtain ⟨u, hu, hrest⟩ := Run.exec_cons.1 hrun
    have hnone := exec_finished (fun _ => rfl) (takes_none ht htakes hj hu) hrest
    obtain ⟨client, hclient, -⟩ := hreturns i none hnone
    cases hclient
  · refine (Run.inv_of_guarded (I := fun w => Sound R w ∧ ReturnsClient R w)
      (fun w i w' h hC hstep => ?_) ⟨sound_start, fun i result h => by cases h⟩ hguarded hrun).2
    exact ⟨(outline hR).step_inv h.1 hstep, returnsClient_step hR h.1 h.2 hC hstep⟩
  · exact Nat.le_trans (Nat.le_add_right _ _) (count_le_rank (i := i) rank_lt hrun)
  · exact sound_exec hR sound_start hrun

end

/-- A server that answers two threads. -/
def localRedis : Package Bool ℕ where
  redisUrl := "redis://localhost:6379/0"
  importRedis _ := .ok ()
  fromUrl i _ := .ok i.toNat
  ping _ _ := .ok ()

theorem localRedis_answers : localRedis.Answers where
  url := by decide
  importRedis _ := rfl
  fromUrl i := ⟨i.toNat, rfl⟩
  ping _ _ := rfl

/-- The second thread calls after the first one has returned. -/
theorem second_call_takes_client : ∃ w, Run.exec (step (stmt localRedis)) start
      (List.replicate 12 false ++ List.replicate 3 true) = some w ∧ ReturnsClient localRedis w := by
  refine ⟨_, rfl, ((every_call_returns_client_iff localRedis localRedis_answers
    (List.replicate 12 false ++ List.replicate 3 true) rfl).1.2 ?_)⟩
  iterate 14 refine Run.guarded_cons (fun h => h.elim) rfl ?_
  exact Run.guarded_cons (fun _ j => by cases j <;> exact fun h => h) rfl trivial

/-- The second thread calls while the first one connects, and gets no client. -/
theorem none_while_connecting : localRedis.Answers ∧ ∃ w, Run.exec (step (stmt localRedis)) start
      (List.replicate 5 false ++ List.replicate 3 true) = some w ∧ w.pc true = .returned none :=
  ⟨localRedis_answers, _, rfl, rfl⟩

end FaceRecognition.RedisClient
