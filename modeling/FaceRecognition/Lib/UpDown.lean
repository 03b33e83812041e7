import Mathlib.Data.List.Induction
import Mathlib.Data.Nat.Notation
import FaceRecognition.Lib.Run

/-!
# Steps that can be undone

A system moves up and down, and a step down undoes a step up. A step up need not undo a step down:
what the lower state cannot hold is lost. Every run ends where the run ends that goes down first, as
far as it goes below its start, and then up (`exec_reduce`). So it loses what the lowest state it
visits cannot hold, and nothing else.
-/

namespace UpDown

inductive Move where
  | up
  | down
  deriving DecidableEq, Repr

/-- Some moves down, then some up. -/
structure Route where
  descent : ℕ
  ascent : ℕ
  deriving DecidableEq, Repr

namespace Route

def moves (r : Route) : List Move :=
  List.replicate r.descent .down ++ List.replicate r.ascent .up

/-- The route that ends like `r` and a move after it. -/
def follow (r : Route) : Move → Route
  | .up => { r with ascent := r.ascent + 1 }
  | .down =>
    match r.ascent with
    | 0 => ⟨r.descent + 1, 0⟩
    | ascent + 1 => { r with ascent := ascent }

end Route

def reduce (ms : List Move) : Route := ms.foldl Route.follow ⟨0, 0⟩

theorem reduce_concat (ms : List Move) (m : Move) : reduce (ms ++ [m]) = (reduce ms).follow m := by
  rw [reduce, List.foldl_append]
  rfl

/-! ### How far a run goes -/

theorem height_follow (r : Route) (m : Move) :
    (r.follow m).ascent + r.descent + [m].count .down =
      (r.follow m).descent + r.ascent + [m].count .up := by
  obtain ⟨descent, ascent⟩ := r
  cases m with
  | up => simp [Route.follow]; omega
  | down =>
    cases ascent with
    | zero => simp [Route.follow]
    | succ ascent => simp [Route.follow]; omega

/-- Where the moves end, against their start. -/
theorem height_reduce (ms : List Move) :
    (reduce ms).ascent + ms.count .down = (reduce ms).descent + ms.count .up := by
  induction ms using List.reverseRecOn with
  | nil => rfl
  | append_singleton ms m ih =>
    rw [reduce_concat, List.count_append, List.count_append]
    have hstep := height_follow (reduce ms) m
    omega

theorem descent_follow (r : Route) (m : Move) : r.descent ≤ (r.follow m).descent := by
  obtain ⟨descent, ascent⟩ := r
  cases m with
  | up => exact Nat.le_refl _
  | down =>
    cases ascent with
    | zero => exact Nat.le_succ _
    | succ ascent => exact Nat.le_refl _

/-- Only a move down from the lowest state is a new lowest one. -/
theorem ascent_of_descent {r : Route} {m : Move} (h : (r.follow m).descent ≠ r.descent) :
    (r.follow m).ascent = 0 := by
  obtain ⟨descent, ascent⟩ := r
  cases m with
  | up => exact absurd rfl h
  | down =>
    cases ascent with
    | zero => rfl
    | succ ascent => exact absurd rfl h

/-- No state is further below the start than the descent. -/
theorem descent_le {pre ms : List Move} (h : pre <+: ms) :
    pre.count .down ≤ (reduce ms).descent + pre.count .up := by
  have hmono : (reduce pre).descent ≤ (reduce ms).descent := by
    obtain ⟨post, rfl⟩ := h
    induction post using List.reverseRecOn with
    | nil => simp
    | append_singleton post m ih =>
      rw [← List.append_assoc, reduce_concat]
      exact Nat.le_trans ih (descent_follow _ _)
  have hheight := height_reduce pre
  omega

/-- Some state is that far below the start. -/
theorem exists_lowest (ms : List Move) :
    ∃ pre, pre <+: ms ∧ pre.count .down = (reduce ms).descent + pre.count .up := by
  induction ms using List.reverseRecOn with
  | nil => exact ⟨[], List.prefix_rfl, rfl⟩
  | append_singleton ms m ih =>
    by_cases hsame : (reduce (ms ++ [m])).descent = (reduce ms).descent
    · obtain ⟨pre, hpre, hcount⟩ := ih
      exact ⟨pre, hpre.trans (List.prefix_append ms [m]), by rw [hcount, hsame]⟩
    · refine ⟨ms ++ [m], List.prefix_rfl, ?_⟩
      have hheight := height_reduce (ms ++ [m])
      rw [reduce_concat] at hsame hheight ⊢
      rw [ascent_of_descent hsame, Nat.zero_add] at hheight
      exact hheight

/-! ### Runs -/

section
variable {σ : Type} {step : σ → Move → Option σ}
  (hundo : ∀ s t, step s .up = some t → step t .down = some s)
include hundo

/-- A move after a route. -/
theorem exec_follow {s t t' : σ} {r : Route} {m : Move} (h : Run.exec step s r.moves = some t)
    (hm : step t m = some t') : Run.exec step s (r.follow m).moves = some t' := by
  obtain ⟨descent, ascent⟩ := r
  have hrun : Run.exec step s (Route.moves ⟨descent, ascent⟩ ++ [m]) = some t' := by
    rw [Run.exec_append, h]
    exact Run.exec_cons.2 ⟨t', hm, rfl⟩
  cases m with
  | up =>
    rw [Route.moves, List.append_assoc, ← List.replicate_succ'] at hrun
    exact hrun
  | down =>
    cases ascent with
    | zero =>
      rw [Route.moves, List.replicate_zero, List.append_nil, ← List.replicate_succ'] at hrun
      rw [Route.follow, Route.moves, List.replicate_zero, List.append_nil]
      exact hrun
    | succ ascent =>
      -- the last move up is undone
      rw [Route.moves, List.replicate_succ', ← List.append_assoc, Run.exec_append] at h
      obtain ⟨u, hu, hup⟩ := Option.bind_eq_some_iff.1 h
      obtain ⟨_, hup, hend⟩ := Run.exec_cons.1 hup
      cases hend
      obtain rfl : u = t' := Option.some.inj ((hundo u t hup).symm.trans hm)
      exact hu

/-- **A run ends where going down to its lowest state and up again ends.** -/
theorem exec_reduce {s t : σ} {ms : List Move} (h : Run.exec step s ms = some t) :
    Run.exec step s (reduce ms).moves = some t := by
  induction ms using List.reverseRecOn generalizing t with
  | nil => exact h
  | append_singleton ms m ih =>
    rw [Run.exec_append] at h
    obtain ⟨u, hu, hm⟩ := Option.bind_eq_some_iff.1 h
    obtain ⟨_, hm, hend⟩ := Run.exec_cons.1 hm
    cases hend
    rw [reduce_concat]
    exact exec_follow hundo (ih hu) hm

/-- Moves up are undone one by one. -/
theorem exec_downs {s t : σ} {n : ℕ} (h : Run.exec step s (List.replicate n .up) = some t) :
    Run.exec step t (List.replicate n .down) = some s := by
  induction n generalizing s with
  | zero => exact congrArg some (Option.some.inj h).symm
  | succ n ih =>
    obtain ⟨u, hup, hrest⟩ := Run.exec_cons.1 h
    rw [List.replicate_succ', Run.exec_append, ih hrest]
    exact Run.exec_cons.2 ⟨s, hundo s u hup, rfl⟩

end

end UpDown
