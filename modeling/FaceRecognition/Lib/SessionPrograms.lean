import FaceRecognition.Lib.Sessions

/-!
# Programs over sessions

Programs that make session calls, may raise and keep a local state. Two ways to reason about them
by their structure: `Denotes` says that a program alone on a session does what an action on the
session does, and `Lawful` that wherever it is interleaved it keeps to a protocol, a rule on which
calls are allowed to one who has had the replies so far.
-/

namespace ReadCommitted

open UnitOfWork Client

variable {Db W R A Q V Ex σ α β : Type}

abbrev ProgramM (A Q V Ex σ : Type) :=
  ExceptT Ex (StateT σ (Prog (Call A Q) (Call.Reply V Ex)))

abbrev Outcome (A Q V Ex σ α : Type) := Prog (Call A Q) (Call.Reply V Ex) (Except Ex α × σ)

/-- The calls of a program that starts with the local state `l`. -/
def go (p : ProgramM A Q V Ex σ α) (l : σ) : Outcome A Q V Ex σ α := p.run.run l

def ask (c : Call A Q) : ProgramM A Q V Ex σ (c.Answer V) := fun l => .call c fun r => .pure (r, l)

def raised (r : Except Ex α) : ProgramM A Q V Ex σ α := fun l => .pure (r, l)

theorem go_bind (p : ProgramM A Q V Ex σ α) (f : α → ProgramM A Q V Ex σ β) (l : σ) :
    go (p >>= f) l = (go p l).bind fun out => match out.1 with
      | .ok a => go (f a) out.2
      | .error e => .pure (.error e, out.2) := by
  show (p l).bind _ = (p l).bind _
  congr 1
  funext out
  obtain ⟨r | a, l'⟩ := out
  · rfl
  · rfl

theorem go_tryCatch (p : ProgramM A Q V Ex σ α) (handler : Ex → ProgramM A Q V Ex σ α) (l : σ) :
    go (tryCatch p handler) l = (go p l).bind fun out => match out.1 with
      | .ok a => .pure (.ok a, out.2)
      | .error e => go (handler e) out.2 := by
  show (p l).bind _ = (p l).bind _
  congr 1
  funext out
  obtain ⟨r | a, l'⟩ := out
  · rfl
  · rfl

/-! ### A program alone -/

/-- Alone on a session, with no failing call, `p` does what the action `m` does. -/
def Denotes {τ : Type} (D : Dbms Db W R A Q V Ex) (join : Session Db → σ → τ)
    (p : ProgramM A Q V Ex σ α) (m : Action Ex τ α) : Prop :=
  ∀ (sess : Session Db) (l : σ), ∃ r sess' l',
    (go p l).eval (answer D none) sess = (sess', (r, l')) ∧
      exec m (join sess l) = (r, join sess' l')

section denotes
variable {D : Dbms Db W R A Q V Ex} {τ : Type} {join : Session Db → σ → τ}
  {p : ProgramM A Q V Ex σ α} {m : Action Ex τ α}

theorem denotes_pure (a : α) :
    Denotes D join (pure a : ProgramM A Q V Ex σ α) (pure a : Action Ex τ α) :=
  fun sess l => ⟨_, sess, l, rfl, rfl⟩

theorem denotes_throw (e : Ex) :
    Denotes D join (throw e : ProgramM A Q V Ex σ α) (throw e : Action Ex τ α) :=
  fun sess l => ⟨_, sess, l, rfl, rfl⟩

theorem denotes_raised (r : Except Ex α) :
    Denotes D join (raised r : ProgramM A Q V Ex σ α) (lift r : Action Ex τ α) :=
  fun sess l => ⟨r, sess, l, rfl, rfl⟩

theorem denotes_bind {f : α → ProgramM A Q V Ex σ β} {g : α → Action Ex τ β}
    (h : Denotes D join p m) (hf : ∀ a, Denotes D join (f a) (g a)) :
    Denotes D join (p >>= f) (m >>= g) := by
  intro sess l
  obtain ⟨r, sess', l', heval, hexec⟩ := h sess l
  rw [go_bind, Prog.eval_bind, heval]
  cases r with
  | error e => exact ⟨.error e, sess', l', rfl, exec_bind_error hexec⟩
  | ok a =>
    rw [exec_bind_ok hexec]
    exact hf a sess' l'

theorem denotes_tryCatch {handler : Ex → ProgramM A Q V Ex σ α} {handler' : Ex → Action Ex τ α}
    (h : Denotes D join p m) (hh : ∀ e, Denotes D join (handler e) (handler' e)) :
    Denotes D join (tryCatch p handler) (tryCatch m handler') := by
  intro sess l
  obtain ⟨r, sess', l', heval, hexec⟩ := h sess l
  rw [go_tryCatch, Prog.eval_bind, heval, exec_tryCatch, hexec]
  cases r with
  | error e => exact hh e sess' l'
  | ok a => exact ⟨.ok a, sess', l', rfl, rfl⟩

theorem denotes_forM {γ : Type} {xs : List γ} {f : γ → ProgramM A Q V Ex σ PUnit}
    {g : γ → Action Ex τ PUnit} (h : ∀ x ∈ xs, Denotes D join (f x) (g x)) :
    Denotes D join (xs.forM f) (xs.forM g) := by
  induction xs with
  | nil => exact denotes_pure _
  | cons x xs ih =>
    exact denotes_bind (h x (by simp)) fun _ => ih fun y hy => h y (by simp [hy])

end denotes

/-! ### Protocols of programs -/

/-- From `P`, `p` makes calls that are allowed, and returns with `post` or raises with `J`. -/
def Lawful {K : Type} (allowed : K → Call A Q → Prop)
    (learn : K → (c : Call A Q) → c.Reply V Ex → K) (J P : K → σ → Prop)
    (p : ProgramM A Q V Ex σ α) (post : α → K → σ → Prop) : Prop :=
  ∀ k l, P k l → (go p l).Obeys allowed learn k fun k' out => match out.1 with
    | .ok a => post a k' out.2
    | .error _ => J k' out.2

section lawful
variable {K : Type} {allowed : K → Call A Q → Prop}
  {learn : K → (c : Call A Q) → c.Reply V Ex → K} {J P : K → σ → Prop}
  {p : ProgramM A Q V Ex σ α} {post : α → K → σ → Prop}

theorem lawful_pure {a : α} (h : ∀ k l, P k l → post a k l) :
    Lawful allowed learn J P (pure a : ProgramM A Q V Ex σ α) post := h

theorem lawful_throw {e : Ex} (h : ∀ k l, P k l → J k l) :
    Lawful allowed learn J P (throw e : ProgramM A Q V Ex σ α) post := h

theorem lawful_raised {r : Except Ex α} (hok : ∀ a k l, P k l → post a k l)
    (herror : ∀ k l, P k l → J k l) :
    Lawful allowed learn J P (raised r : ProgramM A Q V Ex σ α) post := by
  intro k l h
  cases r with
  | error e => exact herror k l h
  | ok a => exact hok a k l h

theorem lawful_ask {c : Call A Q} {post : c.Answer V → K → σ → Prop}
    (hallowed : ∀ k l, P k l → allowed k c)
    (hok : ∀ a k l, P k l → post a (learn k c (.ok a)) l)
    (herror : ∀ e k l, P k l → J (learn k c (.error e)) l) :
    Lawful allowed learn J P (ask c) post := by
  intro k l h
  refine ⟨hallowed k l h, fun r => ?_⟩
  cases r with
  | error e => exact herror e k l h
  | ok a => exact hok a k l h

theorem lawful_bind {f : α → ProgramM A Q V Ex σ β} {post' : β → K → σ → Prop}
    (h : Lawful allowed learn J P p post)
    (hf : ∀ a, Lawful allowed learn J (post a) (f a) post') :
    Lawful allowed learn J P (p >>= f) post' := by
  intro k l hP
  rw [go_bind]
  refine (h k l hP).bind fun k' out hout => ?_
  obtain ⟨r | a, l'⟩ := out
  · exact hout
  · exact hf a k' l' hout

theorem lawful_tryCatch {handler : Ex → ProgramM A Q V Ex σ α}
    (h : Lawful allowed learn J P p post) (hh : ∀ e, Lawful allowed learn J J (handler e) post) :
    Lawful allowed learn J P (tryCatch p handler) post := by
  intro k l hP
  rw [go_tryCatch]
  refine (h k l hP).bind fun k' out hout => ?_
  obtain ⟨e | a, l'⟩ := out
  · exact hh e k' l' hout
  · exact hout

theorem lawful_forM {γ : Type} {xs : List γ} {f : γ → ProgramM A Q V Ex σ PUnit}
    (h : ∀ x ∈ xs, Lawful allowed learn J P (f x) fun _ => P) :
    Lawful allowed learn J P (xs.forM f) fun _ => P := by
  induction xs with
  | nil => exact lawful_pure fun _ _ hP => hP
  | cons x xs ih =>
    exact lawful_bind (h x (by simp)) fun _ => ih fun y hy => h y (by simp [hy])

end lawful

end ReadCommitted
