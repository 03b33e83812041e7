import Mathlib.Data.List.Count
import Mathlib.Logic.Function.Basic
import FaceRecognition.Lib.Run

/-!
# Threads that share memory

Threads `i : ι`, each at a control point in `P`, share a memory in `S`. `stmt i p s` is the
statement of thread `i` at the point `p`: where it leaves the thread, and the memory. It is `none`
when the thread has finished or has to wait. An event executes one statement of one thread, so that
the runs are all interleavings.

A proof outline asserts something of the memory at every control point. It is enough that a
statement keeps the assertion of its own thread and does not interfere with those of the others
(`Outline.exec_inv`). A rank of the control points that every statement lowers bounds the statements
of a thread (`count_le_rank`).
-/

namespace Threads

structure World (ι P S : Type) where
  pc : ι → P
  shared : S

variable {ι P S : Type} [DecidableEq ι] (stmt : ι → P → S → Option (P × S))

def step (w : World ι P S) (i : ι) : Option (World ι P S) :=
  (stmt i (w.pc i) w.shared).map fun r => ⟨Function.update w.pc i r.1, r.2⟩

variable {stmt} {w w' : World ι P S} {i : ι}

theorem step_eq_some : step stmt w i = some w' ↔
    ∃ p, stmt i (w.pc i) w.shared = some (p, w'.shared) ∧ w'.pc = Function.update w.pc i p := by
  constructor
  · intro h
    obtain ⟨⟨p, s⟩, hstmt, rfl⟩ := Option.map_eq_some_iff.1 h
    exact ⟨p, hstmt, rfl⟩
  · rintro ⟨p, hstmt, hpc⟩
    cases w'
    cases hpc
    rw [step, hstmt]
    rfl

theorem step_eq_none : step stmt w i = none ↔ stmt i (w.pc i) w.shared = none :=
  Option.map_eq_none_iff

/-! ### Proof outlines -/

/-- `I` holds of the memory at all times, `A i p` when thread `i` is at `p`. -/
structure Outline (stmt : ι → P → S → Option (P × S)) (I : S → Prop) (A : ι → P → S → Prop) :
    Prop where
  keeps : ∀ {i p s p' s'}, I s → A i p s → stmt i p s = some (p', s') → I s' ∧ A i p' s'
  free : ∀ {i j p q s p' s'}, j ≠ i → I s → A i p s → A j q s → stmt i p s = some (p', s') →
    A j q s'

variable {I : S → Prop} {A : ι → P → S → Prop}

theorem Outline.step_inv (h : Outline stmt I A) (hw : I w.shared ∧ ∀ j, A j (w.pc j) w.shared)
    (hstep : step stmt w i = some w') : I w'.shared ∧ ∀ j, A j (w'.pc j) w'.shared := by
  obtain ⟨p, hstmt, hpc⟩ := step_eq_some.1 hstep
  obtain ⟨hI, hA⟩ := h.keeps hw.1 (hw.2 i) hstmt
  refine ⟨hI, fun j => ?_⟩
  rw [hpc]
  by_cases hj : j = i
  · subst hj
    rwa [Function.update_self]
  · rw [Function.update_of_ne hj]
    exact h.free hj hw.1 (hw.2 i) (hw.2 j) hstmt

theorem Outline.exec_inv (h : Outline stmt I A) {is : List ι}
    (hw : I w.shared ∧ ∀ j, A j (w.pc j) w.shared) (hrun : Run.exec (step stmt) w is = some w') :
    I w'.shared ∧ ∀ j, A j (w'.pc j) w'.shared :=
  Run.exec_inv (I := fun w => I w.shared ∧ ∀ j, A j (w.pc j) w.shared)
    (fun _ _ _ hw hstep => h.step_inv hw hstep) hw hrun

/-! ### Finished threads -/

/-- A thread with no statement left stays where it is. -/
theorem exec_finished {p : P} (hfinal : ∀ s, stmt i p s = none) {is : List ι} (hp : w.pc i = p)
    (hrun : Run.exec (step stmt) w is = some w') : w'.pc i = p := by
  refine Run.exec_inv (I := fun w => w.pc i = p) (fun w j w' hp hstep => ?_) hp hrun
  obtain ⟨q, hstmt, hpc⟩ := step_eq_some.1 hstep
  by_cases hij : i = j
  · subst hij
    rw [hp, hfinal] at hstmt
    cases hstmt
  · rw [hpc, Function.update_of_ne hij]
    exact hp

theorem count_le_rank {rank : P → ℕ}
    (hrank : ∀ {i p s p' s'}, stmt i p s = some (p', s') → rank p' < rank p) {is : List ι}
    (hrun : Run.exec (step stmt) w is = some w') : is.count i + rank (w'.pc i) ≤ rank (w.pc i) := by
  induction is generalizing w with
  | nil =>
    cases hrun
    simp
  | cons j is ih =>
    obtain ⟨t, ht, hrest⟩ := Run.exec_cons.1 hrun
    obtain ⟨p, hstmt, hpc⟩ := step_eq_some.1 ht
    have hle := ih hrest
    rw [hpc] at hle
    by_cases hij : i = j
    · subst hij
      have hlt := hrank hstmt
      rw [Function.update_self] at hle
      rw [List.count_cons_self]
      omega
    · rw [Function.update_of_ne hij] at hle
      rwa [List.count_cons_of_ne (Ne.symm hij)]

end Threads
