import Mathlib.Logic.Basic

/-!
# Units of work on a database

Code that may fail and changes a state runs in `Action`. A session holds the committed database and
the one its transaction sees; after a call to the database has failed every later one fails until
the rollback. `Keeps J m` says that `m` takes states with `J` to states with `J`, whether it
returns or raises; it composes along binds and handlers, and a session keeps an invariant of both
its databases when every call does (`keeps_call`).
-/

namespace UnitOfWork

/-- Computations that change a state and may raise; what was changed before stays. -/
abbrev Action (E σ : Type) := ExceptT E (StateM σ)

variable {E σ Db α β : Type}

/-- What comes out when `m` runs from `s`, and the state then. -/
def exec (m : Action E σ α) (s : σ) : Except E α × σ := m.run.run s

@[simp] theorem exec_pure (a : α) (s : σ) : exec (pure a : Action E σ α) s = (.ok a, s) := rfl

@[simp] theorem exec_throw (e : E) (s : σ) :
    exec (throw e : Action E σ α) s = (.error e, s) := rfl

theorem exec_bind (m : Action E σ α) (k : α → Action E σ β) (s : σ) :
    exec (m >>= k) s = match exec m s with
      | (.ok a, s') => exec (k a) s'
      | (.error e, s') => (.error e, s') := by
  show (match exec m s with
    | (r, s') => (ExceptT.bindCont k r : StateM σ (Except E β)) s') = _
  rcases exec m s with ⟨r | a, s'⟩ <;> rfl

theorem exec_bind_ok {m : Action E σ α} {k : α → Action E σ β} {s s' : σ} {a : α}
    (h : exec m s = (.ok a, s')) : exec (m >>= k) s = exec (k a) s' := by
  rw [exec_bind, h]

theorem exec_bind_error {m : Action E σ α} {k : α → Action E σ β} {s s' : σ} {e : E}
    (h : exec m s = (.error e, s')) : exec (m >>= k) s = (.error e, s') := by
  rw [exec_bind, h]

theorem exec_bind_eq_ok {m : Action E σ α} {k : α → Action E σ β} {s s' : σ} {b : β} :
    exec (m >>= k) s = (.ok b, s') ↔
      ∃ a t, exec m s = (.ok a, t) ∧ exec (k a) t = (.ok b, s') := by
  rw [exec_bind]
  rcases hres : exec m s with ⟨e | a, t⟩
  · simp
  · constructor
    · exact fun h => ⟨a, t, rfl, h⟩
    · rintro ⟨a', t', heq, h⟩
      cases heq
      exact h

theorem exec_tryCatch (m : Action E σ α) (handler : E → Action E σ α) (s : σ) :
    exec (tryCatch m handler) s = match exec m s with
      | (.ok a, s') => (.ok a, s')
      | (.error e, s') => exec (handler e) s' := by
  show (match exec m s with
    | (r, s') => ((match r with
      | .ok a => pure (.ok a)
      | .error e => (handler e).run : StateM σ (Except E α))) s') = _
  rcases exec m s with ⟨r | a, s'⟩ <;> rfl

/-- A value or an exception that came from elsewhere. -/
def lift (r : Except E α) : Action E σ α := fun s => (r, s)

@[simp] theorem exec_lift (r : Except E α) (s : σ) : exec (lift r) s = (r, s) := rfl

theorem exec_pure_eq_ok {a b : α} {s s' : σ} :
    exec (pure a : Action E σ α) s = (.ok b, s') ↔ b = a ∧ s' = s := by
  simp [Prod.ext_iff, eq_comm]

theorem exec_lift_eq_ok {r : Except E α} {a : α} {s s' : σ} :
    exec (lift r) s = (.ok a, s') ↔ r = .ok a ∧ s' = s := by
  simp [Prod.ext_iff, eq_comm]

/-- Run from `s`, `m` does not raise. -/
def Returns (m : Action E σ α) (s : σ) : Prop := ∃ a s', exec m s = (.ok a, s')

theorem returns_pure (a : α) (s : σ) : Returns (pure a : Action E σ α) s := ⟨a, s, rfl⟩

theorem returns_bind {m : Action E σ α} {k : α → Action E σ β} {s t : σ} {a : α}
    (h : exec m s = (.ok a, t)) (hk : Returns (k a) t) : Returns (m >>= k) s := by
  obtain ⟨b, s', hk⟩ := hk
  exact ⟨b, s', (exec_bind_ok h).trans hk⟩

theorem Returns.bind {m : Action E σ α} {k : α → Action E σ β} {s : σ} (h : Returns m s)
    (hk : ∀ a t, Returns (k a) t) : Returns (m >>= k) s := by
  obtain ⟨a, t, h⟩ := h
  exact returns_bind h (hk a t)

/-! ### Invariants -/

def Keeps (J : σ → Prop) (m : Action E σ α) : Prop := ∀ s, J s → J (exec m s).2

section
variable {J : σ → Prop} {m : Action E σ α}

theorem keeps_pure (a : α) : Keeps J (pure a : Action E σ α) := fun _ h => h

theorem keeps_throw (e : E) : Keeps J (throw e : Action E σ α) := fun _ h => h

theorem keeps_lift (r : Except E α) : Keeps J (lift r : Action E σ α) := fun _ h => h

theorem keeps_bind {k : α → Action E σ β} (hm : Keeps J m) (hk : ∀ a, Keeps J (k a)) :
    Keeps J (m >>= k) := by
  intro s hs
  have hm := hm s hs
  rw [exec_bind]
  rcases hres : exec m s with ⟨e | a, s'⟩ <;> rw [hres] at hm
  · exact hm
  · exact hk a s' hm

theorem keeps_lift_bind {r : Except E β} {k : β → Action E σ α}
    (hk : ∀ b, r = .ok b → Keeps J (k b)) : Keeps J (lift r >>= k) := by
  intro s hs
  rw [exec_bind, exec_lift]
  cases r with
  | error e => exact hs
  | ok b => exact hk b rfl s hs

theorem keeps_tryCatch {handler : E → Action E σ α} (hm : Keeps J m)
    (hh : ∀ e, Keeps J (handler e)) : Keeps J (tryCatch m handler) := by
  intro s hs
  have hm := hm s hs
  rw [exec_tryCatch]
  rcases hres : exec m s with ⟨e | a, s'⟩ <;> rw [hres] at hm
  · exact hh e s' hm
  · exact hm

theorem keeps_forM {l : List α} {k : α → Action E σ PUnit} (hk : ∀ a ∈ l, Keeps J (k a)) :
    Keeps J (l.forM k) := by
  induction l with
  | nil => exact keeps_pure _
  | cons a l ih =>
    exact keeps_bind (hk a (by simp)) fun _ => ih fun b hb => hk b (by simp [hb])

end

/-! ### Triples -/

/-- From a state with `P`, `m` returns in one with `Q` or raises in one with `R`. -/
def Triple (P : σ → Prop) (m : Action E σ α) (Q R : σ → Prop) : Prop :=
  ∀ s, P s → (∀ a t, exec m s = (.ok a, t) → Q t) ∧ (∀ e t, exec m s = (.error e, t) → R t)

section
variable {P P' Q Q' R R' : σ → Prop} {m : Action E σ α}

theorem triple_of_forall (h : ∀ s, P s → Q (exec m s).2) : Triple P m Q Q := by
  intro s hs
  have hend := h s hs
  constructor
  · intro a t ht
    rwa [ht] at hend
  · intro e t ht
    rwa [ht] at hend

theorem triple_pure (a : α) : Triple P (pure a : Action E σ α) P R := by
  intro s hs
  constructor
  · intro b t ht
    obtain ⟨-, rfl⟩ := exec_pure_eq_ok.1 ht
    exact hs
  · intro e t ht
    cases ht

theorem triple_lift (r : Except E α) : Triple P (lift r : Action E σ α) P P :=
  triple_of_forall fun _ hs => hs

theorem triple_bind {k : α → Action E σ β} (hm : Triple P m Q R)
    (hk : ∀ a, Triple Q (k a) Q' R) : Triple P (m >>= k) Q' R := by
  intro s hs
  obtain ⟨hok, herror⟩ := hm s hs
  cases hexec : exec m s with
  | mk r t =>
    cases r with
    | error e =>
      rw [exec_bind_error hexec]
      refine ⟨fun b u hu => (by cases hu), fun e' u hu => ?_⟩
      cases hu
      exact herror e t hexec
    | ok a =>
      rw [exec_bind_ok hexec]
      exact hk a t (hok a t hexec)

theorem triple_tryCatch {handler : E → Action E σ α} (hm : Triple P m Q R)
    (hh : ∀ e, Triple R (handler e) Q R') : Triple P (tryCatch m handler) Q R' := by
  intro s hs
  obtain ⟨hok, herror⟩ := hm s hs
  rw [exec_tryCatch]
  cases hexec : exec m s with
  | mk r t =>
    cases r with
    | error e => exact hh e t (herror e t hexec)
    | ok a =>
      refine ⟨fun b u hu => ?_, fun e u hu => (by cases hu)⟩
      cases hu
      exact hok a t hexec

theorem triple_mono (h : Triple P m Q R) (hP : ∀ s, P' s → P s) (hQ : ∀ s, Q s → Q' s)
    (hR : ∀ s, R s → R' s) : Triple P' m Q' R' := fun s hs =>
  ⟨fun a t ht => hQ t ((h s (hP s hs)).1 a t ht), fun e t ht => hR t ((h s (hP s hs)).2 e t ht)⟩

end

/-! ### Histories -/

section
variable {ω : Type}

/-- `m` on a state that has a history besides. -/
def quiet (m : Action E σ α) : Action E (σ × List ω) α := fun s =>
  ((exec m s.1).1, ((exec m s.1).2, s.2))

/-- The same, with what is seen of the state afterwards noted. -/
def noted (seen : σ → List ω) (m : Action E σ α) : Action E (σ × List ω) α := fun s =>
  ((exec m s.1).1, ((exec m s.1).2, s.2 ++ seen (exec m s.1).2))

/-- Without the history, `w` is `m`. -/
def Erases (w : Action E (σ × List ω) α) (m : Action E σ α) : Prop :=
  ∀ s, (exec w s).1 = (exec m s.1).1 ∧ (exec w s).2.1 = (exec m s.1).2

theorem erases_quiet (m : Action E σ α) : Erases (quiet m : Action E (σ × List ω) α) m :=
  fun _ => ⟨rfl, rfl⟩

theorem erases_noted (seen : σ → List ω) (m : Action E σ α) : Erases (noted seen m) m :=
  fun _ => ⟨rfl, rfl⟩

theorem erases_pure (a : α) : Erases (pure a : Action E (σ × List ω) α) (pure a) :=
  fun _ => ⟨rfl, rfl⟩

theorem erases_lift (r : Except E α) :
    Erases (lift r : Action E (σ × List ω) α) (lift r) := fun _ => ⟨rfl, rfl⟩

theorem erases_bind {w : Action E (σ × List ω) α} {m : Action E σ α}
    {k : α → Action E (σ × List ω) β} {l : α → Action E σ β} (h : Erases w m)
    (hk : ∀ a, Erases (k a) (l a)) : Erases (w >>= k) (m >>= l) := by
  intro s
  obtain ⟨hr, ht⟩ := h s
  rw [exec_bind, exec_bind]
  rcases hexec : exec w s with ⟨r, t⟩
  rcases hexec' : exec m s.1 with ⟨r', t'⟩
  rw [hexec, hexec'] at hr ht
  cases hr
  cases ht
  cases r with
  | error e => exact ⟨rfl, rfl⟩
  | ok a => exact hk a t

theorem erases_tryCatch {w : Action E (σ × List ω) α} {m : Action E σ α}
    {handler : E → Action E (σ × List ω) α} {handler' : E → Action E σ α} (h : Erases w m)
    (hh : ∀ e, Erases (handler e) (handler' e)) :
    Erases (tryCatch w handler) (tryCatch m handler') := by
  intro s
  obtain ⟨hr, ht⟩ := h s
  rw [exec_tryCatch, exec_tryCatch]
  rcases hexec : exec w s with ⟨r, t⟩
  rcases hexec' : exec m s.1 with ⟨r', t'⟩
  rw [hexec, hexec'] at hr ht
  cases hr
  cases ht
  cases r with
  | error e => exact hh e t
  | ok a => exact ⟨rfl, rfl⟩

theorem erases_forM {γ : Type} {l : List γ} {w : γ → Action E (σ × List ω) PUnit}
    {m : γ → Action E σ PUnit} (h : ∀ a ∈ l, Erases (w a) (m a)) :
    Erases (l.forM w) (l.forM m) := by
  induction l with
  | nil => exact erases_pure _
  | cons a l ih =>
    exact erases_bind (h a (by simp)) fun _ => ih fun b hb => h b (by simp [hb])

end

/-! ### Sessions -/

structure Session (Db : Type) where
  committed : Db
  work : Db
  /-- A call has failed and there was no rollback since. -/
  broken : Bool

def Session.begin (db : Db) : Session Db := ⟨db, db, false⟩

/-- A call to the database. `pending` is what a broken session raises, `fault` the failure of the
call itself when it has one. -/
def call (pending : E) (fault : Option E) (f : Db → Except E (α × Db)) :
    Action E (Session Db) α := fun s =>
  if s.broken then (.error pending, s)
  else match fault with
    | some e => (.error e, { s with broken := true })
    | none => match f s.work with
      | .error e => (.error e, { s with broken := true })
      | .ok (a, db) => (.ok a, { s with work := db })

def query (pending : E) (fault : Option E) (f : Db → Except E α) : Action E (Session Db) α :=
  call pending fault fun db => (f db).map fun a => (a, db)

def flush (pending : E) (fault : Option E) (f : Db → Except E Db) : Action E (Session Db) Unit :=
  call pending fault fun db => (f db).map fun db' => ((), db')

def commit (pending : E) (fault : Option E) : Action E (Session Db) Unit := fun s =>
  if s.broken then (.error pending, s)
  else match fault with
    | some e => (.error e, { s with broken := true })
    | none => (.ok (), { s with committed := s.work })

def rollback (fault : Option E) : Action E (Session Db) Unit := fun s =>
  match fault with
  | some e => (.error e, s)
  | none => (.ok (), { s with work := s.committed, broken := false })

/-- The result of a call unless it fails from outside. -/
def attempt (fault : Option E) (r : Except E α) : Except E α :=
  match fault with
  | some e => .error e
  | none => r

@[simp] theorem attempt_none (r : Except E α) : attempt none r = r := rfl

theorem attempt_map (fault : Option E) (f : α → β) (r : Except E α) :
    attempt fault (r.map f) = (attempt fault r).map f := by
  cases fault <;> rfl

section
variable {pending : E} {fault : Option E} {s s' : Session Db}

theorem exec_query (f : Db → Except E α) (committed work : Db) :
    exec (query pending fault f) ⟨committed, work, false⟩ =
      match attempt fault (f work) with
      | .error e => (.error e, ⟨committed, work, true⟩)
      | .ok a => (.ok a, ⟨committed, work, false⟩) := by
  cases fault with
  | some e => rfl
  | none =>
    cases h : f work <;>
      simp [exec, query, call, attempt, ExceptT.run, StateT.run, h, Except.map]

theorem exec_flush (f : Db → Except E Db) (committed work : Db) :
    exec (flush pending fault f) ⟨committed, work, false⟩ =
      match attempt fault (f work) with
      | .error e => (.error e, ⟨committed, work, true⟩)
      | .ok work' => (.ok (), ⟨committed, work', false⟩) := by
  cases fault with
  | some e => rfl
  | none =>
    cases h : f work <;>
      simp [exec, flush, call, attempt, ExceptT.run, StateT.run, h, Except.map]

theorem attempt_eq_ok {r : Except E α} {a : α} :
    attempt fault r = .ok a ↔ fault = none ∧ r = .ok a := by
  cases fault <;> simp [attempt]

/-- What cannot fail by itself fails with the fault. -/
theorem fault_of_attempt {a : α} {e : E} (h : attempt fault (.ok a) = .error e) :
    fault ≠ none := by
  rintro rfl
  cases h

/-- Both succeed, with related values, or both fail. -/
inductive Alike (R : α → β → Prop) : Except E α → Except E β → Prop
  | error (e e' : E) : Alike R (.error e) (.error e')
  | ok {a : α} {b : β} (h : R a b) : Alike R (.ok a) (.ok b)

theorem Alike.attempt {R : α → β → Prop} {r : Except E α} {r' : Except E β} (h : Alike R r r') :
    Alike R (attempt fault r) (attempt fault r') := by
  cases fault with
  | some e => exact .error e e
  | none => exact h

theorem Alike.map {α' β' : Type} {R : α → β → Prop} {R' : α' → β' → Prop} {r : Except E α}
    {r' : Except E β} {f : α → α'} {g : β → β'} (h : Alike R r r')
    (hR : ∀ a b, R a b → R' (f a) (g b)) : Alike R' (r.map f) (r'.map g) := by
  cases h with
  | error e e' => exact .error e e'
  | ok h => exact .ok (hR _ _ h)

theorem Alike.mono {R R' : α → β → Prop} {r : Except E α} {r' : Except E β} (h : Alike R r r')
    (hR : ∀ a b, R a b → R' a b) : Alike R' r r' := by
  cases h with
  | error e e' => exact .error e e'
  | ok h => exact .ok (hR _ _ h)

theorem exec_call_eq_ok {f : Db → Except E (α × Db)} {a : α} :
    exec (call pending fault f) s = (.ok a, s') ↔ s.broken = false ∧ fault = none ∧
      ∃ db, f s.work = .ok (a, db) ∧ s' = { s with work := db } := by
  rcases s with ⟨c, w, broken⟩
  simp only [exec, call, ExceptT.run, StateT.run]
  cases broken with
  | true => simp
  | false =>
    cases fault with
    | some e => simp
    | none =>
      cases hf : f w with
      | error e => simp
      | ok r => simp [Prod.ext_iff, eq_comm, and_comm, and_assoc]

theorem exec_query_eq_ok {f : Db → Except E α} {a : α} :
    exec (query pending fault f) s = (.ok a, s') ↔
      s.broken = false ∧ fault = none ∧ f s.work = .ok a ∧ s' = s := by
  rw [query, exec_call_eq_ok]
  cases hf : f s.work with
  | error e => simp [Except.map]
  | ok r =>
    simp only [Except.map, Except.ok.injEq, Prod.mk.injEq]
    constructor
    · rintro ⟨hb, hfault, db, ⟨hr, rfl⟩, rfl⟩
      exact ⟨hb, hfault, hr, rfl⟩
    · rintro ⟨hb, hfault, hr, rfl⟩
      exact ⟨hb, hfault, s'.work, ⟨hr, rfl⟩, rfl⟩

theorem exec_flush_eq_ok {f : Db → Except E Db} {u : Unit} :
    exec (flush pending fault f) s = (.ok u, s') ↔
      s.broken = false ∧ fault = none ∧ ∃ db, f s.work = .ok db ∧ s' = { s with work := db } := by
  rw [flush, exec_call_eq_ok]
  cases hf : f s.work with
  | error e => simp [Except.map]
  | ok r => simp [Except.map]

end

/-- Both databases of the session satisfy `I`. -/
def Both (I : Db → Prop) (s : Session Db) : Prop := I s.committed ∧ I s.work

section
variable {I : Db → Prop} {pending : E} {fault : Option E}

theorem both_begin {db : Db} (h : I db) : Both I (Session.begin db) := ⟨h, h⟩

theorem keeps_call {f : Db → Except E (α × Db)}
    (hf : ∀ db a db', I db → f db = .ok (a, db') → I db') :
    Keeps (Both I) (call pending fault f) := by
  rintro ⟨c, w, broken⟩ ⟨hc, hw⟩
  show Both I (exec (call pending fault f) ⟨c, w, broken⟩).2
  simp only [exec, call, ExceptT.run, StateT.run]
  cases broken with
  | true => exact ⟨hc, hw⟩
  | false =>
    cases fault with
    | some e => exact ⟨hc, hw⟩
    | none =>
      cases hfw : f w with
      | error e => simpa [hfw] using ⟨hc, hw⟩
      | ok r => simpa [hfw] using ⟨hc, hf w r.1 r.2 hw hfw⟩

theorem keeps_query {f : Db → Except E α} : Keeps (Both I) (query pending fault f) := by
  refine keeps_call fun db a db' h hf => ?_
  cases hfd : f db with
  | error e => simp [hfd, Except.map] at hf
  | ok a' =>
    simp only [hfd, Except.map, Except.ok.injEq, Prod.mk.injEq] at hf
    exact hf.2 ▸ h

theorem keeps_flush {f : Db → Except E Db} (hf : ∀ db db', I db → f db = .ok db' → I db') :
    Keeps (Both I) (flush pending fault f) := by
  refine keeps_call fun db a db' h hfm => ?_
  cases hfd : f db with
  | error e => simp [hfd, Except.map] at hfm
  | ok db'' =>
    simp only [hfd, Except.map, Except.ok.injEq, Prod.mk.injEq, true_and] at hfm
    exact hfm ▸ hf db db'' h hfd

theorem keeps_commit : Keeps (Both I) (commit pending fault) := by
  rintro ⟨c, w, broken⟩ ⟨hc, hw⟩
  cases broken with
  | true => exact ⟨hc, hw⟩
  | false =>
    cases fault with
    | some e => exact ⟨hc, hw⟩
    | none => exact ⟨hw, hw⟩

theorem keeps_rollback : Keeps (Both I) (rollback fault : Action E (Session Db) Unit) := by
  rintro ⟨c, w, broken⟩ ⟨hc, hw⟩
  cases fault with
  | some e => exact ⟨hc, hw⟩
  | none => exact ⟨hc, hc⟩

end

end UnitOfWork
