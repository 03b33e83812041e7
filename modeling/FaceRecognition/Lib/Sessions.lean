import FaceRecognition.Lib.Client
import FaceRecognition.Lib.ReadCommitted
import FaceRecognition.Lib.UnitOfWork

/-!
# Sessions on a READ COMMITTED database

Clients of one database, interleaved at the granularity of statements. A client is a program over
session calls; an event executes the next call of one client, which the environment may let fail. A
call that fails aborts the transaction, and until the rollback every later one fails too. A
statement that would write a locked row waits: it is not enabled.

`Served` says once what a call can do. A client sees the engine as a session of its own, with the
committed database and the one its transaction sees (`Sees`): every call answers it as the session
does, and leaves it what the session becomes (`sees_serve`). So a client that is left alone runs its
program on a session (`turns_alone`).
-/

namespace ReadCommitted

open Relational UnitOfWork

/-- `A`: queries, `Q`: statements that write. -/
inductive Call (A Q : Type) where
  | begin
  | query (a : A)
  | flush (q : Q)
  | commit
  | rollback
  | close

variable {T Db W R A Q V Ex α : Type}

namespace Call

abbrev Answer (V : Type) : Call A Q → Type
  | .query _ => V
  | .begin | .flush _ | .commit | .rollback | .close => Unit

abbrev Reply (V Ex : Type) (c : Call A Q) : Type := Except Ex (c.Answer V)

/-- The session goes on with a new transaction. -/
def Renews : Call A Q → Prop
  | .begin | .rollback | .close => True
  | .query _ | .flush _ | .commit => False

end Call

structure Dbms (Db W R A Q V Ex : Type) where
  engine : Engine Db W R
  look : A → Db → V
  run : Q → Db → Except Ex (List W)
  /-- What a call raises after another one has failed. -/
  pending : Ex

variable [DecidableEq T]

namespace State

/-- The transaction of `t` is a new one. -/
def renew (s : State T Db W) (t : T) : State T Db W := { s with txns := s.txns.put ⟨t, []⟩ }

def abort (s : State T Db W) (t : T) : State T Db W := { s with txns := s.txns.erase t }

def wrote (s : State T Db W) (x : Txn T W) (ws : List W) : State T Db W :=
  { s with txns := s.txns.put ⟨x.id, x.writes ++ ws⟩ }

def publish (s : State T Db W) (E : Engine Db W R) (x : Txn T W) : State T Db W :=
  ⟨view E s x, s.txns.put ⟨x.id, []⟩⟩

@[simp] theorem get?_renew (s : State T Db W) (t : T) :
    (s.renew t).txns.get? t = some ⟨t, []⟩ :=
  Table.get?_put_self s.txns ⟨t, []⟩

@[simp] theorem get?_abort (s : State T Db W) (t : T) : (s.abort t).txns.get? t = none :=
  (Table.get?_erase s.txns t t).trans (if_pos rfl)

@[simp] theorem get?_wrote (s : State T Db W) (x : Txn T W) (ws : List W) :
    (s.wrote x ws).txns.get? x.id = some ⟨x.id, x.writes ++ ws⟩ :=
  Table.get?_put_self s.txns ⟨x.id, x.writes ++ ws⟩

@[simp] theorem get?_publish (s : State T Db W) (E : Engine Db W R) (x : Txn T W) :
    (s.publish E x).txns.get? x.id = some ⟨x.id, []⟩ :=
  Table.get?_put_self s.txns ⟨x.id, []⟩

end State

variable [DecidableEq R] (D : Dbms Db W R A Q V Ex)

/-- The call of `t`, which fails with `fault` when there is one. -/
def serve (t : T) (fault : Option Ex) (s : State T Db W) :
    (c : Call A Q) → Option (State T Db W × c.Reply V Ex)
  | .begin => some (s.renew t, .ok ())
  | .query a =>
    match s.txns.get? t with
    | none => some (s, .error D.pending)
    | some x =>
      match attempt fault (.ok (D.look a (view D.engine s x))) with
      | .error e => some (s.abort t, .error e)
      | .ok v => some (s, .ok v)
  | .flush q =>
    match s.txns.get? t with
    | none => some (s, .error D.pending)
    | some x =>
      match attempt fault (D.run q (view D.engine s x)) with
      | .error e => some (s.abort t, .error e)
      | .ok ws => if unlocked D.engine s t ws then some (s.wrote x ws, .ok ()) else none
  | .commit =>
    match s.txns.get? t with
    | none => some (s, .error D.pending)
    | some x =>
      match attempt fault (.ok ()) with
      | .error e => some (s.abort t, .error e)
      | .ok () => some (s.publish D.engine x, .ok ())
  | .rollback =>
    match attempt fault (.ok ()) with
    | .error e => some (s, .error e)
    | .ok () => some (s.renew t, .ok ())
  | .close => some (s.renew t, attempt fault (.ok ()))

/-- What a call of `t` can do to the engine, with its reply. -/
inductive Served (t : T) (s : State T Db W) :
    Option Ex → (c : Call A Q) → State T Db W → c.Reply V Ex → Prop where
  | renewed (fault : Option Ex) (c : Call A Q) (r : c.Reply V Ex) (hc : c.Renews) :
    Served t s fault c (s.renew t) r
  | failed (fault : Option Ex) (c : Call A Q) (e : Ex)
    (hfail : s.txns.get? t = none ∨ fault ≠ none) : Served t s fault c s (.error e)
  | aborted (fault : Option Ex) (c : Call A Q) (e : Ex)
    (hfail : fault ≠ none ∨ ∃ q, c = .flush q) : Served t s fault c (s.abort t) (.error e)
  | queried (a : A) (x : Txn T W) (hx : s.txns.get? t = some x) :
    Served t s none (.query a) s (.ok (D.look a (view D.engine s x)))
  | flushed (q : Q) (x : Txn T W) (ws : List W) (hx : s.txns.get? t = some x)
    (hrun : D.run q (view D.engine s x) = .ok ws) (hu : unlocked D.engine s t ws = true) :
    Served t s none (.flush q) (s.wrote x ws) (.ok ())
  | committed (x : Txn T W) (hx : s.txns.get? t = some x) :
    Served t s none .commit (s.publish D.engine x) (.ok ())

variable {D} {t : T} {s s' : State T Db W} {fault : Option Ex}

theorem served_of_serve {c : Call A Q} {r : c.Reply V Ex}
    (h : serve D t fault s c = some (s', r)) : Served D t s fault c s' r := by
  cases c with
  | begin =>
    cases h
    exact .renewed _ _ _ trivial
  | query a =>
    simp only [serve] at h
    split at h
    next hx =>
      cases h
      exact .failed _ _ _ (.inl hx)
    next x hx =>
      split at h
      next e he =>
        cases h
        exact .aborted _ _ _ (.inl (fault_of_attempt he))
      next v hv =>
        cases h
        obtain ⟨rfl, hv⟩ := attempt_eq_ok.1 hv
        cases hv
        exact .queried a x hx
  | flush q =>
    simp only [serve] at h
    split at h
    next hx =>
      cases h
      exact .failed _ _ _ (.inl hx)
    next x hx =>
      split at h
      next e he =>
        cases h
        exact .aborted _ _ _ (.inr ⟨q, rfl⟩)
      next ws hws =>
        split_ifs at h with hu
        cases h
        obtain ⟨rfl, hrun⟩ := attempt_eq_ok.1 hws
        exact .flushed q x ws hx hrun hu
  | commit =>
    simp only [serve] at h
    split at h
    next hx =>
      cases h
      exact .failed _ _ _ (.inl hx)
    next x hx =>
      split at h
      next e he =>
        cases h
        exact .aborted _ _ _ (.inl (fault_of_attempt he))
      next hok =>
        cases h
        obtain ⟨rfl, -⟩ := attempt_eq_ok.1 hok
        exact .committed x hx
  | rollback =>
    simp only [serve] at h
    split at h
    next e he =>
      cases h
      exact .failed _ _ _ (.inr (fault_of_attempt he))
    · cases h
      exact .renewed _ _ _ trivial
  | close =>
    cases h
    exact .renewed _ _ _ trivial

theorem Served.get?_of_ne {c : Call A Q} {r : c.Reply V Ex} (h : Served D t s fault c s' r) {u : T}
    (hu : u ≠ t) : s'.txns.get? u = s.txns.get? u := by
  have hput : ∀ ws : List W, (s.txns.put ⟨t, ws⟩).get? u = s.txns.get? u := fun ws =>
    Table.get?_put_of_ne s.txns (Ne.symm hu)
  cases h with
  | renewed => exact hput []
  | failed => rfl
  | aborted => exact (Table.get?_erase s.txns t u).trans (if_neg hu)
  | queried => rfl
  | flushed q x ws hx =>
    obtain rfl : x.id = t := Table.pk_of_get? hx
    exact hput _
  | committed x hx =>
    obtain rfl : x.id = t := Table.pk_of_get? hx
    exact hput _

/-- Only a commit changes what is committed. -/
theorem Served.committed_cases {c : Call A Q} {r : c.Reply V Ex} (h : Served D t s fault c s' r) :
    s'.committed = s.committed ∨ ∃ x, c = .commit ∧ fault = none ∧ s.txns.get? t = some x ∧
      s'.committed = view D.engine s x := by
  cases h with
  | renewed => exact .inl rfl
  | failed => exact .inl rfl
  | aborted => exact .inl rfl
  | queried => exact .inl rfl
  | flushed => exact .inl rfl
  | committed x hx => exact .inr ⟨x, rfl, rfl, hx, rfl⟩

/-! ### Locks -/

omit [DecidableEq T] [DecidableEq R] in
theorem LocksDisjoint.of_fewer {E : Engine Db W R} (h : LocksDisjoint E s)
    (hfewer : ∀ x ∈ s'.txns.rows, ∀ w ∈ x.writes, ∃ y ∈ s.txns.rows, y.id = x.id ∧ w ∈ y.writes) :
    LocksDisjoint E s' := by
  intro x hx y hy hne w hw w' hw'
  obtain ⟨x₀, hx₀, hidx, hw₀⟩ := hfewer x hx w hw
  obtain ⟨y₀, hy₀, hidy, hw₀'⟩ := hfewer y hy w' hw'
  exact h x₀ hx₀ y₀ hy₀ (by rwa [hidx, hidy]) w hw₀ w' hw₀'

theorem locksDisjoint_served {c : Call A Q} {r : c.Reply V Ex} (hl : LocksDisjoint D.engine s)
    (h : Served D t s fault c s' r) : LocksDisjoint D.engine s' := by
  have hrenew : ∀ (u : T) (db : Db), LocksDisjoint D.engine ⟨db, s.txns.put ⟨u, []⟩⟩ := by
    intro u db
    refine hl.of_fewer fun x hx w hw => ?_
    rcases Table.mem_put.1 hx with rfl | ⟨hx, -⟩
    · cases hw
    · exact ⟨x, hx, rfl, hw⟩
  cases h with
  | renewed => exact hrenew t s.committed
  | failed => exact hl
  | aborted => exact hl.of_fewer fun x hx w hw => ⟨x, (Table.mem_erase.1 hx).1, rfl, hw⟩
  | queried => exact hl
  | flushed q x ws hx hrun hu =>
    obtain rfl : x.id = t := Table.pk_of_get? hx
    have hstep : step D.engine (fun q db => (D.run q db).toOption) s (.exec x.id q) =
        some (s.wrote x ws) := by
      simp [step, hx, hrun, hu, Except.toOption, State.wrote]
    exact locksDisjoint_step hl hstep
  | committed x hx => exact hrenew x.id _

/-! ### The session a client sees -/

/-- The call on a session. -/
def answer (D : Dbms Db W R A Q V Ex) (fault : Option Ex) (sess : Session Db) :
    (c : Call A Q) → Session Db × c.Reply V Ex
  | .begin => (.begin sess.committed, .ok ())
  | .query a => (exec (query D.pending fault fun db => .ok (D.look a db)) sess).swap
  | .flush q =>
    (exec (flush D.pending fault fun db => (D.run q db).map (D.engine.applyAll db)) sess).swap
  | .commit => (exec (UnitOfWork.commit D.pending fault) sess).swap
  | .rollback => (exec (UnitOfWork.rollback fault) sess).swap
  | .close => (.begin sess.committed, attempt fault (.ok ()))

/-- What the engine shows to `t`. -/
structure Sees (E : Engine Db W R) (t : T) (s : State T Db W) (sess : Session Db) : Prop where
  committed : sess.committed = s.committed
  broken : s.txns.get? t = none → sess.broken = true
  work : ∀ x, s.txns.get? t = some x → sess.broken = false ∧ sess.work = view E s x

section sees
variable {E : Engine Db W R} {sess : Session Db}

omit [DecidableEq R] in
theorem sees_put (db : Db) (txns : Table (Txn T W)) (ws : List W) :
    Sees E t ⟨db, txns.put ⟨t, ws⟩⟩ ⟨db, E.applyAll db ws, false⟩ := by
  have hget : (txns.put ⟨t, ws⟩).get? t = some ⟨t, ws⟩ := Table.get?_put_self txns ⟨t, ws⟩
  refine ⟨rfl, fun h => ?_, fun x hx => ?_⟩
  · exact absurd (hget.symm.trans h) (by simp)
  · obtain rfl : ⟨t, ws⟩ = x := Option.some.inj (hget.symm.trans hx)
    exact ⟨rfl, rfl⟩

omit [DecidableEq R] in
theorem sees_abort (work : Db) : Sees E t (s.abort t) ⟨s.committed, work, true⟩ := by
  refine ⟨rfl, fun _ => rfl, fun x hx => ?_⟩
  rw [State.get?_abort] at hx
  cases hx

variable {x : Txn T W} (hx : s.txns.get? t = some x)
include hx

omit [DecidableEq R] in
theorem sees_open : Sees E t s ⟨s.committed, view E s x, false⟩ := by
  refine ⟨rfl, fun h => ?_, fun y hy => ?_⟩
  · cases hx.symm.trans h
  · obtain rfl := Option.some.inj (hx.symm.trans hy)
    exact ⟨rfl, rfl⟩

omit [DecidableEq R] in
theorem sees_wrote (ws : List W) :
    Sees E t (s.wrote x ws) ⟨s.committed, E.applyAll (view E s x) ws, false⟩ := by
  obtain rfl : x.id = t := Table.pk_of_get? hx
  rw [view, ← E.applyAll_append]
  exact sees_put s.committed s.txns (x.writes ++ ws)

omit [DecidableEq R] in
theorem sees_publish : Sees E t (s.publish E x) ⟨view E s x, view E s x, false⟩ := by
  obtain rfl : x.id = t := Table.pk_of_get? hx
  exact sees_put (view E s x) s.txns []

end sees

/-- A call in an open transaction. -/
theorem sees_serve_open {c : Call A Q} {r : c.Reply V Ex} {x : Txn T W}
    (hx : s.txns.get? t = some x) (h : serve D t fault s c = some (s', r)) :
    (answer D fault ⟨s.committed, view D.engine s x, false⟩ c).2 = r ∧
      Sees D.engine t s' (answer D fault ⟨s.committed, view D.engine s x, false⟩ c).1 := by
  cases c with
  | begin =>
    cases h
    exact ⟨rfl, sees_put s.committed s.txns []⟩
  | query a =>
    simp only [serve, hx] at h
    rw [answer, exec_query]
    cases hr : attempt fault (.ok (D.look a (view D.engine s x)) : Except Ex V) with
    | error e =>
      rw [hr] at h
      cases h
      exact ⟨rfl, sees_abort _⟩
    | ok v =>
      rw [hr] at h
      cases h
      exact ⟨rfl, sees_open hx⟩
  | flush q =>
    simp only [serve, hx] at h
    rw [answer, exec_flush, attempt_map]
    cases hr : attempt fault (D.run q (view D.engine s x)) with
    | error e =>
      rw [hr] at h
      cases h
      exact ⟨rfl, sees_abort _⟩
    | ok ws =>
      rw [hr] at h
      simp only at h
      split_ifs at h
      cases h
      exact ⟨rfl, sees_wrote hx ws⟩
  | commit =>
    simp only [serve, hx] at h
    cases fault with
    | some e =>
      cases h
      exact ⟨rfl, sees_abort _⟩
    | none =>
      cases h
      exact ⟨rfl, sees_publish hx⟩
  | rollback =>
    cases fault with
    | some e =>
      cases h
      exact ⟨rfl, sees_open hx⟩
    | none =>
      cases h
      exact ⟨rfl, sees_put s.committed s.txns []⟩
  | close =>
    cases h
    exact ⟨rfl, sees_put s.committed s.txns []⟩

/-- A call after another one has failed. -/
theorem sees_serve_closed {c : Call A Q} {r : c.Reply V Ex} {work : Db}
    (hx : s.txns.get? t = none) (h : serve D t fault s c = some (s', r)) :
    (answer D fault ⟨s.committed, work, true⟩ c).2 = r ∧
      Sees D.engine t s' (answer D fault ⟨s.committed, work, true⟩ c).1 := by
  have hclosed : Sees D.engine t s ⟨s.committed, work, true⟩ :=
    ⟨rfl, fun _ => rfl, fun x hx' => by cases hx.symm.trans hx'⟩
  cases c with
  | begin =>
    cases h
    exact ⟨rfl, sees_put s.committed s.txns []⟩
  | query a =>
    simp only [serve, hx] at h
    cases h
    exact ⟨rfl, hclosed⟩
  | flush q =>
    simp only [serve, hx] at h
    cases h
    exact ⟨rfl, hclosed⟩
  | commit =>
    simp only [serve, hx] at h
    cases h
    exact ⟨rfl, hclosed⟩
  | rollback =>
    cases fault with
    | some e =>
      cases h
      exact ⟨rfl, hclosed⟩
    | none =>
      cases h
      exact ⟨rfl, sees_put s.committed s.txns []⟩
  | close =>
    cases h
    exact ⟨rfl, sees_put s.committed s.txns []⟩

theorem sees_serve {sess : Session Db} {c : Call A Q} {r : c.Reply V Ex}
    (hsees : Sees D.engine t s sess) (h : serve D t fault s c = some (s', r)) :
    (answer D fault sess c).2 = r ∧ Sees D.engine t s' (answer D fault sess c).1 := by
  obtain ⟨committed, work, broken⟩ := sess
  obtain rfl : committed = s.committed := hsees.committed
  cases hx : s.txns.get? t with
  | none =>
    obtain rfl : broken = true := hsees.broken hx
    exact sees_serve_closed hx h
  | some x =>
    obtain ⟨rfl, rfl⟩ : broken = false ∧ work = view D.engine s x := hsees.work x hx
    exact sees_serve_open hx h

/-! ### Interleaved clients -/

abbrev World (T Db W A Q V Ex α : Type) : Type :=
  Client.World (State T Db W) T (Call A Q) (Call.Reply V Ex) α

/-- The next call of the client `l.1`, which fails with `l.2` when that is an exception. -/
def turn (D : Dbms Db W R A Q V Ex) (w : World T Db W A Q V Ex α) (l : T × Option Ex) :
    Option (World T Db W A Q V Ex α) :=
  match w.client l.1 with
  | .pure _ => none
  | .call c next => (serve D l.1 l.2 w.server c).map fun sr =>
      ⟨sr.1, Function.update w.client l.1 (next sr.2)⟩

theorem turn_cases {w w' : World T Db W A Q V Ex α} (h : turn D w (t, fault) = some w') :
    ∃ c next r, w.client t = .call c next ∧ Served D t w.server fault c w'.server r ∧
      w'.client = Function.update w.client t (next r) := by
  rw [turn] at h
  split at h
  · cases h
  next c next hclient =>
    obtain ⟨⟨s', r⟩, hserve, rfl⟩ := Option.map_eq_some_iff.1 h
    exact ⟨c, next, r, hclient, served_of_serve hserve, rfl⟩

theorem turn_call {w w' : World T Db W A Q V Ex α} {c : Call A Q}
    {next : c.Reply V Ex → Client.Prog (Call A Q) (Call.Reply V Ex) α}
    (hclient : w.client t = .call c next) (h : turn D w (t, fault) = some w') :
    ∃ s' r, serve D t fault w.server c = some (s', r) ∧
      w' = ⟨s', Function.update w.client t (next r)⟩ := by
  rw [turn] at h
  dsimp only at h
  rw [hclient] at h
  obtain ⟨⟨s', r⟩, hserve, rfl⟩ := Option.map_eq_some_iff.1 h
  exact ⟨s', r, hserve, rfl⟩

/-- Only a statement waits, for the transaction that has a lock on a row that it would write. -/
theorem serve_eq_none {c : Call A Q} (h : serve D t fault s c = none) :
    ∃ q x ws, c = .flush q ∧ s.txns.get? t = some x ∧ D.run q (view D.engine s x) = .ok ws ∧
      ∃ y ∈ s.txns.rows, y.id ≠ t ∧
        ∃ w' ∈ y.writes, ∃ w ∈ ws, D.engine.row w' = D.engine.row w := by
  cases c with
  | flush q =>
    simp only [serve] at h
    split at h
    · cases h
    next x hx =>
      split at h
      · cases h
      next ws hws =>
        split_ifs at h with hu
        refine ⟨q, x, ws, rfl, hx, (attempt_eq_ok.1 hws).2, ?_⟩
        rw [unlocked_iff] at hu
        push Not at hu
        exact hu
  | query a =>
    simp only [serve] at h
    split at h
    · cases h
    · split at h <;> cases h
  | commit =>
    simp only [serve] at h
    split at h
    · cases h
    · split at h <;> cases h
  | rollback =>
    simp only [serve] at h
    split at h <;> cases h
  | begin | close => cases h

/-- A client that cannot go on has finished, or waits for a lock. -/
theorem turn_eq_none {w : World T Db W A Q V Ex α} (h : turn D w (t, fault) = none) :
    (∃ a, w.client t = .pure a) ∨ ∃ q next x ws, w.client t = .call (.flush q) next ∧
      w.server.txns.get? t = some x ∧ D.run q (view D.engine w.server x) = .ok ws ∧
      ∃ y ∈ w.server.txns.rows, y.id ≠ t ∧
        ∃ v ∈ y.writes, ∃ u ∈ ws, D.engine.row v = D.engine.row u := by
  rw [turn] at h
  split at h
  · exact .inl ⟨_, ‹_›⟩
  next c next hclient =>
    obtain ⟨q, x, ws, rfl, hx, hrun, hlock⟩ := serve_eq_none (Option.map_eq_none_iff.1 h)
    exact .inr ⟨q, next, x, ws, hclient, hx, hrun, hlock⟩

/-- A client that takes all the turns and meets no failure does what its program does on the session
it sees. -/
theorem turns_alone {w w' : World T Db W A Q V Ex α} {sess : Session Db} {n : ℕ} {a : α}
    (hsees : Sees D.engine t w.server sess)
    (hrun : Run.exec (turn D) w (List.replicate n (t, none)) = some w')
    (hdone : w'.client t = .pure a) :
    ((w.client t).eval (answer D none) sess).2 = a ∧
      Sees D.engine t w'.server ((w.client t).eval (answer D none) sess).1 := by
  induction n generalizing w sess with
  | zero =>
    cases hrun
    rw [hdone]
    exact ⟨rfl, hsees⟩
  | succ n ih =>
    obtain ⟨v, hv, hrest⟩ := Run.exec_cons.1 hrun
    rw [turn] at hv
    split at hv
    · cases hv
    next c next hclient =>
      obtain ⟨⟨s', r⟩, hserve, rfl⟩ := Option.map_eq_some_iff.1 hv
      obtain ⟨hr, hsees'⟩ := sees_serve hsees hserve
      have hnext := ih hsees' hrest
      have hclient : w.client t = .call c next := hclient
      have hupdate : Function.update w.client t (next r) t = next r := Function.update_self ..
      have heval : (Client.Prog.call c next).eval (answer D none) sess =
          (next r).eval (answer D none) (answer D none sess c).1 := by
        rw [Client.Prog.eval, hr]
      simp only [hupdate] at hnext
      rw [hclient, heval]
      exact hnext

end ReadCommitted
