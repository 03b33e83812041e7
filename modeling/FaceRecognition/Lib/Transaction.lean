import FaceRecognition.Lib.UnitOfWork

/-!
# One transaction around a unit of work

A unit of work calls the database and leaves the commit to its caller: what is committed is the same
before and after it (`Preserves Session.committed`). `transact` commits when the unit returns and
rolls back when the unit or the commit raises, so that either all of the work is committed or none
(`exec_transact`). The unit may see a part of the database only (`onPart`), and there may be memory
beside the session, which no rollback restores (`beside`).
-/

namespace UnitOfWork

variable {E σ Db Db' M δ α β : Type}

/-! ### What an action leaves alone -/

def Preserves (f : σ → δ) (m : Action E σ α) : Prop := ∀ s, f (exec m s).2 = f s

section
variable {f : σ → δ} {m : Action E σ α}

theorem preserves_pure (a : α) : Preserves f (pure a : Action E σ α) := fun _ => rfl

theorem preserves_throw (e : E) : Preserves f (throw e : Action E σ α) := fun _ => rfl

theorem preserves_lift (r : Except E α) : Preserves f (lift r : Action E σ α) := fun _ => rfl

theorem preserves_bind {k : α → Action E σ β} (hm : Preserves f m)
    (hk : ∀ a, Preserves f (k a)) : Preserves f (m >>= k) := by
  intro s
  have hs := hm s
  rw [exec_bind]
  rcases hexec : exec m s with ⟨e | a, t⟩ <;> rw [hexec] at hs
  · exact hs
  · exact (hk a t).trans hs

end

theorem preserves_call {pending : E} {fault : Option E} {f : Db → Except E (α × Db)} :
    Preserves Session.committed (call pending fault f) := by
  rintro ⟨committed, work, broken⟩
  simp only [exec, call, ExceptT.run, StateT.run]
  cases broken with
  | true => rfl
  | false =>
    cases fault with
    | some e => rfl
    | none => cases f work <;> rfl

theorem preserves_query {pending : E} {fault : Option E} {f : Db → Except E α} :
    Preserves Session.committed (query pending fault f) := preserves_call

theorem preserves_flush {pending : E} {fault : Option E} {f : Db → Except E Db} :
    Preserves Session.committed (flush pending fault f) := preserves_call

/-! ### Memory beside the session -/

def beside (m : Action E σ α) : Action E (σ × M) α := fun s =>
  ((exec m s.1).1, ((exec m s.1).2, s.2))

theorem exec_beside (m : Action E σ α) (s : σ × M) :
    exec (beside m) s = ((exec m s.1).1, ((exec m s.1).2, s.2)) := rfl

theorem exec_beside_eq_ok {m : Action E σ α} {s s' : σ × M} {a : α} :
    exec (beside m) s = (.ok a, s') ↔ exec m s.1 = (.ok a, s'.1) ∧ s'.2 = s.2 := by
  rw [exec_beside]
  simp [Prod.ext_iff, and_assoc, eq_comm]

theorem preserves_beside {f : σ → δ} {m : Action E σ α} (h : Preserves f m) :
    Preserves (fun s : σ × M => f s.1) (beside m) := fun s => h s.1

/-! ### A part of the database -/

structure Part (Db Db' : Type) where
  get : Db → Db'
  put : Db → Db' → Db
  get_put : ∀ db part, get (put db part) = part
  put_get : ∀ db, put db (get db) = db

namespace Part

variable (P : Part Db Db')

def session (s : Session Db) : Session Db' := ⟨P.get s.committed, P.get s.work, s.broken⟩

/-- The rest is that of `s`. -/
def restore (s : Session Db) (t : Session Db') : Session Db :=
  ⟨P.put s.committed t.committed, P.put s.work t.work, t.broken⟩

end Part

variable (P : Part Db Db')

def onPart (m : Action E (Session Db') α) : Action E (Session Db) α := fun s =>
  ((exec m (P.session s)).1, P.restore s (exec m (P.session s)).2)

theorem exec_onPart (m : Action E (Session Db') α) (s : Session Db) :
    exec (onPart P m) s = ((exec m (P.session s)).1, P.restore s (exec m (P.session s)).2) := rfl

theorem exec_onPart_eq_ok {m : Action E (Session Db') α} {s s' : Session Db} {a : α} :
    exec (onPart P m) s = (.ok a, s') ↔
      ∃ t, exec m (P.session s) = (.ok a, t) ∧ s' = P.restore s t := by
  rw [exec_onPart]
  constructor
  · intro h
    obtain ⟨hr, ht⟩ := Prod.ext_iff.1 h
    exact ⟨_, Prod.ext hr rfl, ht.symm⟩
  · rintro ⟨t, h, rfl⟩
    rw [h]

variable {P}

theorem preserves_onPart {m : Action E (Session Db') α} (h : Preserves Session.committed m) :
    Preserves Session.committed (onPart P m) := fun s => by
  show P.put s.committed (exec m (P.session s)).2.committed = s.committed
  rw [h]
  exact P.put_get s.committed

/-! ### The transaction -/

def transact (pending : E) (commitFault rollbackFault : Option E)
    (m : Action E (Session Db × M) α) : Action E (Session Db × M) α :=
  tryCatch
    (do
      let a ← m
      beside (commit pending commitFault)
      return a)
    fun e => do
      beside (rollback rollbackFault)
      throw e

section
variable (pending : E) (commitFault rollbackFault : Option E)

variable (α) in
/-- The handler of `transact`. -/
theorem exec_recover (e : E) (s : Session Db × M) :
    ∃ e' t, exec (do beside (rollback rollbackFault); throw e : Action E (Session Db × M) α) s =
      (.error e', t) ∧ t.1.committed = s.1.committed ∧ t.2 = s.2 := by
  rw [exec_bind, exec_beside]
  cases rollbackFault with
  | some e' => exact ⟨e', s, rfl, rfl, rfl⟩
  | none => exact ⟨e, ({ s.1 with work := s.1.committed, broken := false }, s.2), rfl, rfl, rfl⟩

theorem exec_commit (s : Session Db) :
    (∃ e t, exec (commit pending commitFault) s = (.error e, t) ∧ t.committed = s.committed) ∨
      exec (commit pending commitFault) s = (.ok (), { s with committed := s.work }) := by
  obtain ⟨committed, work, broken⟩ := s
  cases broken with
  | true => exact .inl ⟨pending, _, rfl, rfl⟩
  | false =>
    cases commitFault with
    | some e => exact .inl ⟨e, _, rfl, rfl⟩
    | none => exact .inr rfl

variable {m : Action E (Session Db × M) α}

/-- All of the work is committed, or nothing. The memory is what the unit of work has left. -/
theorem exec_transact (hm : Preserves (fun s => s.1.committed) m) (s : Session Db × M) :
    ∃ r t, exec (transact pending commitFault rollbackFault m) s = (r, t) ∧
      t.2 = (exec m s).2.2 ∧ ((∃ e, r = .error e) ∧ t.1.committed = s.1.committed ∨
        ∃ a u, r = .ok a ∧ exec m s = (.ok a, u) ∧ t.1.committed = u.1.work) := by
  have hkept : (exec m s).2.1.committed = s.1.committed := hm s
  rw [transact, exec_tryCatch, exec_bind]
  rcases hexec : exec m s with ⟨e | a, u⟩ <;> rw [hexec] at hkept
  · obtain ⟨e', t, hrecover, hcommitted, hmemory⟩ :=
      exec_recover α rollbackFault e u
    exact ⟨_, t, hrecover, hmemory, .inl ⟨⟨e', rfl⟩, hcommitted.trans hkept⟩⟩
  · dsimp only
    rw [exec_bind, exec_beside]
    rcases exec_commit pending commitFault u.1 with ⟨e, v, hcommit, hv⟩ | hcommit <;>
      rw [hcommit]
    · obtain ⟨e', t, hrecover, hcommitted, hmemory⟩ :=
        exec_recover α rollbackFault e (v, u.2)
      exact ⟨_, t, hrecover, hmemory, .inl ⟨⟨e', rfl⟩, hcommitted.trans (hv.trans hkept)⟩⟩
    · exact ⟨_, _, rfl, rfl, .inr ⟨a, u, rfl, rfl, rfl⟩⟩

/-- A commit succeeds in a session in which nothing has failed. -/
theorem exec_commit_eq_ok {s s' : Session Db} {u : Unit} :
    exec (commit pending commitFault) s = (.ok u, s') ↔
      s.broken = false ∧ commitFault = none ∧ s' = { s with committed := s.work } := by
  obtain ⟨committed, work, broken⟩ := s
  cases broken with
  | true => simp [exec, commit, ExceptT.run, StateT.run]
  | false => cases commitFault <;> simp [exec, commit, ExceptT.run, StateT.run, eq_comm]

/-- The transaction returns when the unit of work does and the commit succeeds. -/
theorem exec_transact_eq_ok {s t : Session Db × M} {a : α} :
    exec (transact pending commitFault rollbackFault m) s = (.ok a, t) ↔
      ∃ u, exec m s = (.ok a, u) ∧ u.1.broken = false ∧ commitFault = none ∧
        t = ({ u.1 with committed := u.1.work }, u.2) := by
  have hbody : exec (transact pending commitFault rollbackFault m) s = (.ok a, t) ↔
      exec (do let a ← m; beside (commit pending commitFault); return a) s = (.ok a, t) := by
    rw [transact, exec_tryCatch]
    rcases exec (do let a ← m; beside (commit pending commitFault); return a) s with ⟨e | b, u⟩
    · obtain ⟨e', v, hrecover, -⟩ := exec_recover α rollbackFault e u
      dsimp only
      rw [hrecover]
      exact iff_of_false (fun h => by cases h) fun h => by cases h
    · exact Iff.rfl
  rw [hbody]
  simp only [exec_bind_eq_ok, exec_beside_eq_ok, exec_commit_eq_ok, exec_pure_eq_ok]
  constructor
  · rintro ⟨b, u, hu, _, v, ⟨⟨hbroken, hfault, hv⟩, hmemory⟩, rfl, rfl⟩
    exact ⟨u, hu, hbroken, hfault, Prod.ext hv hmemory⟩
  · rintro ⟨u, hu, hbroken, hfault, rfl⟩
    exact ⟨a, u, hu, (), ({ u.1 with committed := u.1.work }, u.2), ⟨⟨hbroken, hfault, rfl⟩, rfl⟩,
      rfl, rfl⟩

end

/-! ### Invariants -/

section
variable {I : Db → Prop} {m : Action E (Session Db × M) α}

theorem keeps_beside {J : σ → Prop} {m : Action E σ α} (h : Keeps J m) :
    Keeps (fun s : σ × M => J s.1) (beside m) := fun s hs => h s.1 hs

theorem keeps_transact {pending : E} {commitFault rollbackFault : Option E}
    (h : Keeps (fun s => Both I s.1) m) :
    Keeps (fun s => Both I s.1) (transact pending commitFault rollbackFault m) := by
  refine keeps_tryCatch ?_ fun e => ?_
  · exact keeps_bind h fun _ => keeps_bind (keeps_beside keeps_commit) fun _ => keeps_pure _
  · exact keeps_bind (keeps_beside keeps_rollback) fun _ => keeps_throw _

end

/-! ### Simulation -/

section
variable {τ : Type}

/-- Seen through `f`, `w` is `m`. -/
def Simulates (f : σ → τ) (w : Action E σ α) (m : Action E τ α) : Prop :=
  ∀ s, (exec w s).1 = (exec m (f s)).1 ∧ f (exec w s).2 = (exec m (f s)).2

variable {f : σ → τ} {w : Action E σ α} {m : Action E τ α}

theorem simulates_pure (a : α) : Simulates f (pure a : Action E σ α) (pure a) :=
  fun _ => ⟨rfl, rfl⟩

theorem simulates_throw (e : E) : Simulates f (throw e : Action E σ α) (throw e) :=
  fun _ => ⟨rfl, rfl⟩

theorem simulates_bind {k : α → Action E σ β} {l : α → Action E τ β} (h : Simulates f w m)
    (hk : ∀ a, Simulates f (k a) (l a)) : Simulates f (w >>= k) (m >>= l) := by
  intro s
  obtain ⟨hr, ht⟩ := h s
  rw [exec_bind, exec_bind]
  rcases hexec : exec w s with ⟨r, t⟩
  rcases hexec' : exec m (f s) with ⟨r', t'⟩
  rw [hexec, hexec'] at hr ht
  cases hr
  cases ht
  cases r with
  | error e => exact ⟨rfl, rfl⟩
  | ok a => exact hk a t

theorem simulates_tryCatch {handler : E → Action E σ α} {handler' : E → Action E τ α}
    (h : Simulates f w m) (hh : ∀ e, Simulates f (handler e) (handler' e)) :
    Simulates f (tryCatch w handler) (tryCatch m handler') := by
  intro s
  obtain ⟨hr, ht⟩ := h s
  rw [exec_tryCatch, exec_tryCatch]
  rcases hexec : exec w s with ⟨r, t⟩
  rcases hexec' : exec m (f s) with ⟨r', t'⟩
  rw [hexec, hexec'] at hr ht
  cases hr
  cases ht
  cases r with
  | error e => exact hh e t
  | ok a => exact ⟨rfl, rfl⟩

end

/-- The part of the session, without the memory. -/
def Part.seen (P : Part Db Db') (s : Session Db × M) : Session Db' := P.session s.1

theorem simulates_onPart (m : Action E (Session Db') α) :
    Simulates (P.seen (M := M)) (beside (onPart P m)) m := fun s => by
  refine ⟨rfl, ?_⟩
  show P.session (P.restore s.1 _) = _
  rw [Part.session, Part.restore, P.get_put, P.get_put]
  rfl

theorem simulates_commit (pending : E) (fault : Option E) :
    Simulates (P.seen (M := M)) (beside (commit pending fault)) (commit pending fault) := by
  rintro ⟨⟨committed, work, broken⟩, memory⟩
  cases broken with
  | true => exact ⟨rfl, rfl⟩
  | false => cases fault <;> exact ⟨rfl, rfl⟩

theorem simulates_rollback (fault : Option E) :
    Simulates (P.seen (M := M)) (beside (rollback fault)) (rollback fault) := by
  intro s
  cases fault <;> exact ⟨rfl, rfl⟩

/-- A transaction around a unit of work on a part is one on that part. -/
theorem simulates_transact (pending : E) (commitFault rollbackFault : Option E)
    (m : Action E (Session Db') α) :
    Simulates (P.seen (M := M))
      (transact pending commitFault rollbackFault (beside (onPart P m)))
      (tryCatch (do
          let a ← m
          commit pending commitFault
          return a)
        fun e => do
          rollback rollbackFault
          throw e) :=
  simulates_tryCatch
    (simulates_bind (simulates_onPart m) fun a =>
      simulates_bind (simulates_commit pending commitFault) fun _ => simulates_pure a)
    fun e => simulates_bind (simulates_rollback rollbackFault) fun _ => simulates_throw e

/-- All of the database. -/
def Part.whole : Part Db Db where
  get db := db
  put _ part := part
  get_put _ _ := rfl
  put_get _ := rfl

/-- The same on a session alone. -/
theorem committed_cases {m : Action E (Session Db) α} (hm : Preserves Session.committed m)
    (pending : E) (commitFault rollbackFault : Option E) (s : Session Db) :
    ∃ t, (exec (tryCatch (do
          let a ← m
          commit pending commitFault
          return a)
        fun e => do
          rollback rollbackFault
          throw e) s).2 = t ∧
      (t.committed = s.committed ∨ ∃ a u, exec m s = (.ok a, u) ∧ t.committed = u.work) := by
  have hsim := (simulates_transact pending commitFault rollbackFault (P := Part.whole) m (s, ())).2
  obtain ⟨r, t, hexec, -, hcases⟩ := exec_transact pending commitFault rollbackFault
    (preserves_beside (M := Unit) (preserves_onPart (P := Part.whole) hm)) (s, ())
  rw [hexec] at hsim
  refine ⟨t.1, hsim.symm, ?_⟩
  rcases hcases with ⟨-, hcommitted⟩ | ⟨a, u, -, hrun, hcommitted⟩
  · exact .inl hcommitted
  · obtain ⟨hpart, -⟩ := exec_beside_eq_ok.1 hrun
    obtain ⟨v, hm, hu⟩ := (exec_onPart_eq_ok Part.whole).1 hpart
    refine .inr ⟨a, v, hm, ?_⟩
    rw [hcommitted, hu]
    rfl

/-- How a session has ended: with an exception and nothing committed, or with all of the work. -/
inductive Ended (m : Action E (Session Db) α) (db : Db) : Except E α → Db → Prop
  | failed (e : E) : Ended m db (.error e) db
  | returned (a : α) (s : Session Db) (hrun : exec m (Session.begin db) = (.ok a, s)) :
    Ended m db (.ok a) s.work

theorem ended_transact {m : Action E (Session Db) α} (hm : Preserves Session.committed m)
    {pending : E} {commitFault rollbackFault : Option E} {db : Db} :
    let out := exec (tryCatch (do
          let a ← m
          commit pending commitFault
          return a)
        fun e => do
          rollback rollbackFault
          throw e) (Session.begin db)
    Ended m db out.1 out.2.committed := by
  have hsim := simulates_transact pending commitFault rollbackFault (P := Part.whole) m
    (Session.begin db, ())
  obtain ⟨r, t, hexec, -, hcases⟩ := exec_transact pending commitFault rollbackFault
    (preserves_beside (M := Unit) (preserves_onPart (P := Part.whole) hm)) (Session.begin db, ())
  rw [hexec] at hsim
  obtain ⟨hr, ht⟩ := hsim
  intro out
  have hout : out = (r, t.1) := Prod.ext hr.symm ht.symm
  rw [hout]
  rcases hcases with ⟨⟨e, rfl⟩, hcommitted⟩ | ⟨a, u, rfl, hrun, hcommitted⟩
  · dsimp only
    rw [hcommitted]
    exact .failed e
  · obtain ⟨hpart, -⟩ := exec_beside_eq_ok.1 hrun
    obtain ⟨v, hm, hu⟩ := (exec_onPart_eq_ok Part.whole).1 hpart
    dsimp only
    rw [hcommitted, hu]
    exact .returned a v hm

end UnitOfWork
