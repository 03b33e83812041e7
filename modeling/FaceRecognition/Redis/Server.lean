import Mathlib.Data.Rat.Floor
import Mathlib.Tactic.Linarith
import FaceRecognition.Lib.Client

/-!
# The Redis server

Keys hold a value and, once `EXPIRE` was applied, a deadline. Commands are atomic and act on the
keys whose deadline lies in the future: time passes by `tick`, which deletes the keys it overtakes,
so an expired key is as if deleted. `drop` lets a key vanish at any other moment. A command may
also fail on the way: the client gets an error and the server may or may not have executed it.
-/

namespace FaceRecognition.Redis

/-- What the client library raises. -/
inductive Error where
  | wrongType
  | connection
  deriving DecidableEq, Repr

inductive Value where
  | int (n : ℤ)
  | hash (fields : List (String × String))
  | list (items : List String)
  deriving DecidableEq, Repr

structure Entry where
  value : Value
  deadline : Option ℚ
  deriving DecidableEq, Repr

structure Server where
  clock : ℚ
  keys : String → Option Entry

namespace Server

def set (s : Server) (key : String) (e : Option Entry) : Server :=
  { s with keys := Function.update s.keys key e }

@[simp] theorem set_same (s : Server) (key : String) (e : Option Entry) :
    (s.set key e).keys key = e := Function.update_self ..

@[simp] theorem set_of_ne (s : Server) {key key' : String} (e : Option Entry) (h : key' ≠ key) :
    (s.set key e).keys key' = s.keys key' := Function.update_of_ne h ..

@[simp] theorem set_set (s : Server) (key : String) (e e' : Option Entry) :
    (s.set key e).set key e' = s.set key e' := by
  simp [set]

end Server

inductive Cmd where
  | incr (key : String)
  | ttl (key : String)
  | expire (key : String) (seconds : ℤ)
  deriving DecidableEq, Repr

abbrev Cmd.Reply : Cmd → Type
  | .incr _ => ℤ
  | .ttl _ => ℤ
  | .expire _ _ => Bool

/-- `INCR`: a missing key counts from zero and gets no deadline; a deadline that is there stays. -/
def Server.incr (s : Server) (key : String) : Server × Except Error ℤ :=
  match s.keys key with
  | none => (s.set key (some ⟨.int 1, none⟩), .ok 1)
  | some e =>
    match e.value with
    | .int n => (s.set key (some { e with value := .int (n + 1) }), .ok (n + 1))
    | _ => (s, .error .wrongType)

/-- `TTL`: `-2` for a missing key, `-1` for one without deadline, else the rest in seconds. -/
def Server.ttl (s : Server) (key : String) : ℤ :=
  match s.keys key with
  | none => -2
  | some e =>
    match e.deadline with
    | none => -1
    | some d => ⌊max 0 (d - s.clock) + 1 / 2⌋

/-- `EXPIRE`: nothing on a missing key, deletion when the time is not positive. -/
def Server.expire (s : Server) (key : String) (seconds : ℤ) : Server × Bool :=
  match s.keys key with
  | none => (s, false)
  | some e =>
    if seconds ≤ 0 then (s.set key none, true)
    else (s.set key (some { e with deadline := some (s.clock + seconds) }), true)

def Server.exec (s : Server) : (c : Cmd) → Server × Except Error c.Reply
  | .incr key => s.incr key
  | .ttl key => (s, .ok (s.ttl key))
  | .expire key seconds => ((s.expire key seconds).1, .ok (s.expire key seconds).2)

/-- How a command ends: answered, or with an error before or after the server executed it. -/
inductive Mode where
  | served
  | lost (executed : Bool)
  deriving DecidableEq, Repr

def serve (m : Mode) (s : Server) (c : Cmd) : Server × Except Error c.Reply :=
  match m with
  | .served => s.exec c
  | .lost true => ((s.exec c).1, .error .connection)
  | .lost false => (s, .error .connection)

/-- Time passes, or a key vanishes. -/
inductive Env where
  | tick (dt : ℚ)
  | drop (key : String)

def Server.tick (s : Server) (dt : ℚ) : Server where
  clock := s.clock + dt
  keys key := (s.keys key).filter fun e => e.deadline.all fun d => s.clock + dt < d

def Server.env (s : Server) : Env → Option Server
  | .tick dt => if 0 ≤ dt then some (s.tick dt) else none
  | .drop key => some (s.set key none)

/-- A program of Redis commands, each of which may raise. -/
abbrev Prog := Client.Prog Cmd fun c => Except Error c.Reply

abbrev RedisM := ExceptT Error Prog

def command (c : Cmd) : RedisM c.Reply := ExceptT.mk (Client.Prog.request c)

/-! ### Facts about the commands -/

/-- Keys that expire later do not notice that time passes. -/
theorem tick_keys {s : Server} {dt : ℚ} {key : String}
    (h : ∀ e d, s.keys key = some e → e.deadline = some d → s.clock + dt < d) :
    (s.tick dt).keys key = s.keys key := by
  show (s.keys key).filter _ = s.keys key
  cases hk : s.keys key with
  | none => rfl
  | some e =>
    cases hd : e.deadline with
    | none => simp [hd]
    | some d => simpa [hd] using h e d hk hd

/-- A property of servers kept by a command is kept however the command ends. -/
theorem serve_inv {I : Server → Prop} {s : Server} {c : Cmd} (m : Mode) (h : I s)
    (hexec : I (s.exec c).1) : I (serve m s c).1 := by
  match m with
  | .served => exact hexec
  | .lost true => exact hexec
  | .lost false => exact h

/-- A reply is one the server gave. -/
theorem serve_ok {s : Server} {c : Cmd} {m : Mode} {r : c.Reply} (h : (serve m s c).2 = .ok r) :
    serve m s c = s.exec c := by
  match m with
  | .served => rfl
  | .lost true => cases h
  | .lost false => cases h

theorem ttl_nonneg {s : Server} {key : String} (h : 0 ≤ s.ttl key) :
    ∃ e d, s.keys key = some e ∧ e.deadline = some d := by
  unfold Server.ttl at h
  cases hk : s.keys key with
  | none => simp [hk] at h
  | some e =>
    cases hd : e.deadline with
    | none => simp [hk, hd] at h
    | some d => exact ⟨e, d, rfl, hd⟩

theorem ttl_of_deadline {s : Server} {key : String} {e : Entry} {d : ℚ} (hk : s.keys key = some e)
    (hd : e.deadline = some d) : 0 ≤ s.ttl key := by
  simp only [Server.ttl, hk, hd]
  have : (0 : ℚ) ≤ max 0 (d - s.clock) := le_max_left _ _
  exact Int.floor_nonneg.2 (by linarith)

/-- If the key has a deadline, at most `seconds` are left of it. -/
def DeadlineWithin (s : Server) (key : String) (seconds : ℤ) : Prop :=
  ∀ e d, s.keys key = some e → e.deadline = some d → d ≤ s.clock + seconds

/-- The key is absent or has a time-to-live of at most `seconds`. -/
def ExpiresWithin (s : Server) (key : String) (seconds : ℤ) : Prop :=
  s.keys key = none ∨ ∃ e d, s.keys key = some e ∧ e.deadline = some d ∧ d ≤ s.clock + seconds

theorem expire_expiresWithin (s : Server) (key : String) (seconds : ℤ) :
    ExpiresWithin (s.expire key seconds).1 key seconds := by
  unfold Server.expire
  cases hk : s.keys key with
  | none => exact .inl hk
  | some e =>
    dsimp only
    split_ifs with hpos
    · exact .inl (s.set_same _ _)
    · exact .inr ⟨_, _, s.set_same _ _, rfl, le_refl _⟩

theorem DeadlineWithin.of_expires {s : Server} {key : String} {seconds : ℤ}
    (h : ExpiresWithin s key seconds) : DeadlineWithin s key seconds := by
  intro e d hk hd
  rcases h with h | ⟨e', d', hk', hd', hle⟩
  · simp [h] at hk
  · rw [hk] at hk'
    cases hk'
    rw [hd] at hd'
    cases hd'
    exact hle

theorem ExpiresWithin.tick {s : Server} {key : String} {seconds : ℤ}
    (h : ExpiresWithin s key seconds) {dt : ℚ} (hdt : 0 ≤ dt) :
    ExpiresWithin (s.tick dt) key seconds := by
  rcases h with h | ⟨e, d, he, hd, hle⟩
  · left
    show (s.keys key).filter _ = none
    rw [h]
    rfl
  · by_cases hlive : s.clock + dt < d
    · refine .inr ⟨e, d, ?_, hd, ?_⟩
      · show (s.keys key).filter _ = some e
        simp [he, hd, hlive]
      · simp only [Server.tick]
        linarith
    · left
      show (s.keys key).filter _ = none
      simp [he, hd, hlive]

theorem incr_of_ne (s : Server) {key key' : String} (h : key ≠ key') :
    (s.incr key').1.keys key = s.keys key := by
  unfold Server.incr
  split
  · exact s.set_of_ne _ h
  · split
    · exact s.set_of_ne _ h
    · rfl

theorem incr_clock (s : Server) (key : String) : (s.incr key).1.clock = s.clock := by
  unfold Server.incr
  split
  · rfl
  · split <;> rfl

theorem DeadlineWithin.incr {s : Server} {key key' : String} {seconds : ℤ}
    (h : DeadlineWithin s key seconds) : DeadlineWithin (s.incr key').1 key seconds := by
  by_cases hkey : key = key'
  · subst hkey
    unfold Server.incr
    cases hk : s.keys key with
    | none =>
      intro e d he hd
      simp only [Server.set_same, Option.some.injEq] at he
      subst he
      simp at hd
    | some e =>
      obtain ⟨v, dl⟩ := e
      cases v with
      | int n =>
        intro e' d he hd
        simp only [Server.set_same, Option.some.injEq] at he
        subst he
        exact h _ _ hk hd
      | _ => exact h
  · intro e d he hd
    rw [incr_of_ne s hkey] at he
    rw [incr_clock]
    exact h e d he hd

theorem expire_of_ne (s : Server) {key key' : String} (seconds : ℤ) (h : key ≠ key') :
    (s.expire key' seconds).1.keys key = s.keys key := by
  unfold Server.expire
  split
  · rfl
  · split_ifs <;> exact s.set_of_ne _ h

theorem expire_clock (s : Server) (key : String) (seconds : ℤ) :
    (s.expire key seconds).1.clock = s.clock := by
  unfold Server.expire
  split
  · rfl
  · split_ifs <;> rfl

theorem exec_clock (s : Server) (c : Cmd) : (s.exec c).1.clock = s.clock := by
  cases c with
  | incr key => exact incr_clock s key
  | ttl key => rfl
  | expire key seconds => exact expire_clock s key seconds

/-- The environment adds no key and changes none: what is there afterwards was there before. -/
theorem env_kept {s s' : Server} {a : Env} (ha : s.env a = some s') :
    s.clock ≤ s'.clock ∧ ∀ key e, s'.keys key = some e → s.keys key = some e := by
  cases a with
  | tick dt =>
    obtain ⟨hdt, rfl⟩ : 0 ≤ dt ∧ s.tick dt = s' := by simpa [Server.env] using ha
    refine ⟨?_, fun key e he => (Option.filter_eq_some_iff.1 he).1⟩
    simp only [Server.tick]
    linarith
  | drop key' =>
    obtain rfl : s.set key' none = s' := by simpa [Server.env] using ha
    refine ⟨le_refl _, fun key e he => ?_⟩
    by_cases hkey : key = key'
    · subst hkey
      simp at he
    · rwa [s.set_of_ne _ hkey] at he

theorem DeadlineWithin.env {s s' : Server} {key : String} {seconds : ℤ} {a : Env}
    (h : DeadlineWithin s key seconds) (ha : s.env a = some s') :
    DeadlineWithin s' key seconds := by
  obtain ⟨hclock, hkept⟩ := env_kept ha
  intro e d he hd
  have := h e d (hkept key e he) hd
  linarith

end FaceRecognition.Redis
