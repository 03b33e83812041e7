import Mathlib.Logic.Function.Basic
import FaceRecognition.Lib.Run

/-!
# Concurrent clients of an atomic server

A client is a program that makes calls and goes on with the reply (`Prog`). Calls are atomic: in a
world of one server and any number of clients, an event executes the next call of one client, in a
mode the environment chooses (served, lost before or after it took effect, ...), or lets the
environment change the server. Runs are all interleavings; a client that crashes is one that no
later event schedules.

`exec_inv` is the rule for such worlds: an invariant of the server and one of each client's
remaining program hold in every reachable world once every call a client may be about to make, and
every change of the environment, keeps them.
-/

namespace Client

/-- A program over calls `c : C` with replies in `R c`. -/
inductive Prog (C : Type) (R : C → Type) (α : Type) where
  | pure (a : α)
  | call (c : C) (k : R c → Prog C R α)

namespace Prog
variable {C : Type} {R : C → Type} {α β : Type}

def bind (p : Prog C R α) (f : α → Prog C R β) : Prog C R β :=
  match p with
  | .pure a => f a
  | .call c k => .call c fun r => (k r).bind f

instance : Monad (Prog C R) where
  pure := .pure
  bind := .bind

/-- The call `c` on its own. -/
def request (c : C) : Prog C R (R c) := .call c .pure

def finished : Prog C R α → Bool
  | .pure _ => true
  | .call _ _ => false

/-- The program run alone on a server that executes its calls by `exec`. -/
def eval {S : Type} (exec : S → (c : C) → S × R c) (s : S) : Prog C R α → S × α
  | .pure a => (s, a)
  | .call c k => (k (exec s c).2).eval exec (exec s c).1

theorem eval_bind {S : Type} (exec : S → (c : C) → S × R c) (s : S) (p : Prog C R α)
    (f : α → Prog C R β) :
    (p.bind f).eval exec s = (f (p.eval exec s).2).eval exec (p.eval exec s).1 := by
  induction p generalizing s with
  | pure a => rfl
  | call c k ih => exact ih _ _

theorem eval_inv {S : Type} {exec : S → (c : C) → S × R c} {I : S → Prop}
    (hexec : ∀ s c, I s → I (exec s c).1) (p : Prog C R α) {s : S} (h : I s) :
    I (p.eval exec s).1 := by
  induction p generalizing s with
  | pure a => exact h
  | call c k ih => exact ih _ (hexec s c h)

theorem bind_assoc {γ : Type} (p : Prog C R α) (f : α → Prog C R β) (g : β → Prog C R γ) :
    (p.bind f).bind g = p.bind fun a => (f a).bind g := by
  induction p with
  | pure a => rfl
  | call c k ih => exact congrArg (Prog.call c) (funext ih)

/-- Every call that the program can make meets `P`. -/
def Makes (P : C → Prop) : Prog C R α → Prop
  | .pure _ => True
  | .call c k => P c ∧ ∀ r, (k r).Makes P

theorem Makes.bind {P : C → Prop} {p : Prog C R α} {f : α → Prog C R β} (hp : p.Makes P)
    (hf : ∀ a, (f a).Makes P) : (p.bind f).Makes P := by
  induction p with
  | pure a => exact hf a
  | call c k ih => exact ⟨hp.1, fun r => ih r (hp.2 r)⟩

theorem eval_inv_of_makes {S : Type} {exec : S → (c : C) → S × R c} {I : S → Prop} {P : C → Prop}
    (hexec : ∀ s c, P c → I s → I (exec s c).1) {p : Prog C R α} (hp : p.Makes P) {s : S}
    (h : I s) : I (p.eval exec s).1 := by
  induction p generalizing s with
  | pure a => exact h
  | call c k ih => exact ih _ (hp.2 _) (hexec s c hp.1 h)

/-! ### Protocols -/

/-- Knowing `k`, the program only makes calls that `allowed` permits to what it knows then, where it
learns from each reply, and what it returns meets `post`. -/
def Obeys {K : Type} (allowed : K → C → Prop) (learn : K → (c : C) → R c → K) (k : K) :
    Prog C R α → (K → α → Prop) → Prop
  | .pure a, post => post k a
  | .call c next, post =>
    allowed k c ∧ ∀ r, Obeys allowed learn (learn k c r) (next r) post

section obeys
variable {K : Type} {allowed : K → C → Prop} {learn : K → (c : C) → R c → K} {k : K}
  {p : Prog C R α}

theorem Obeys.mono {post post' : K → α → Prop} (h : Obeys allowed learn k p post)
    (hpost : ∀ k a, post k a → post' k a) : Obeys allowed learn k p post' := by
  induction p generalizing k with
  | pure a => exact hpost k a h
  | call c next ih => exact ⟨h.1, fun r => ih r (h.2 r)⟩

theorem Obeys.bind {f : α → Prog C R β} {mid : K → α → Prop} {post : K → β → Prop}
    (h : Obeys allowed learn k p mid) (hf : ∀ k a, mid k a → Obeys allowed learn k (f a) post) :
    Obeys allowed learn k (p.bind f) post := by
  induction p generalizing k with
  | pure a => exact hf k a h
  | call c next ih => exact ⟨h.1, fun r => ih r (h.2 r)⟩

end obeys

end Prog

structure World (S ι C : Type) (R : C → Type) (α : Type) where
  server : S
  client : ι → Prog C R α

/-- `act i m`: client `i` executes its next call in mode `m`; `env e`: the environment acts. -/
inductive Event (ι M E : Type) where
  | act (i : ι) (m : M)
  | env (e : E)

variable {S ι C : Type} {R : C → Type} {α M E : Type} [DecidableEq ι]
  {serve : M → S → (c : C) → S × R c} {env : S → E → Option S}

def step (serve : M → S → (c : C) → S × R c) (env : S → E → Option S) (w : World S ι C R α) :
    Event ι M E → Option (World S ι C R α)
  | .act i m =>
    match w.client i with
    | .pure _ => none
    | .call c k =>
      some ⟨(serve m w.server c).1, Function.update w.client i (k (serve m w.server c).2)⟩
  | .env e => (env w.server e).map fun s => ⟨s, w.client⟩

/-- What an event does to a world. -/
theorem step_cases {w w' : World S ι C R α} {e : Event ι M E} (h : step serve env w e = some w') :
    (∃ i m c k, e = .act i m ∧ w.client i = .call c k ∧ w'.server = (serve m w.server c).1 ∧
        w'.client = Function.update w.client i (k (serve m w.server c).2)) ∨
      (∃ a, e = .env a ∧ env w.server a = some w'.server ∧ w'.client = w.client) := by
  cases e with
  | act i m =>
    left
    simp only [step] at h
    cases hp : w.client i with
    | pure a => simp [hp] at h
    | call c k =>
      rw [hp] at h
      cases h
      exact ⟨i, m, c, k, rfl, hp, rfl, rfl⟩
  | env a =>
    right
    obtain ⟨s, hs, rfl⟩ := Option.map_eq_some_iff.1 h
    exact ⟨a, rfl, hs, rfl⟩

section invariant
variable (serve env) {I : S → Prop} {P : ι → Prog C R α → Prop}
  (hact : ∀ i m s c k, I s → P i (.call c k) → I (serve m s c).1 ∧ P i (k (serve m s c).2))
  (henv : ∀ s a s', I s → env s a = some s' → I s')
include hact henv

theorem step_inv {w w' : World S ι C R α} {e : Event ι M E} (hI : I w.server)
    (hP : ∀ i, P i (w.client i)) (h : step serve env w e = some w') :
    I w'.server ∧ ∀ i, P i (w'.client i) := by
  rcases step_cases h with ⟨i, m, c, k, -, hp, hs, hc⟩ | ⟨a, -, ha, hc⟩
  · obtain ⟨h₁, h₂⟩ := hact i m w.server c k hI (hp ▸ hP i)
    refine ⟨hs ▸ h₁, fun j => ?_⟩
    rw [hc]
    by_cases hj : j = i
    · subst hj
      rwa [Function.update_self]
    · rw [Function.update_of_ne hj]
      exact hP j
  · exact ⟨henv _ _ _ hI ha, hc ▸ hP⟩

theorem exec_inv {w w' : World S ι C R α} {es : List (Event ι M E)} (hI : I w.server)
    (hP : ∀ i, P i (w.client i)) (h : Run.exec (step serve env) w es = some w') :
    I w'.server ∧ ∀ i, P i (w'.client i) :=
  Run.exec_inv (I := fun w => I w.server ∧ ∀ i, P i (w.client i))
    (fun _ _ _ hw hstep => step_inv serve env hact henv hw.1 hw.2 hstep) ⟨hI, hP⟩ h

end invariant

end Client
