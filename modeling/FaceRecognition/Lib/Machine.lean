import Mathlib.Data.List.Basic

/-!
# Machines that answer

`step : σ → ι → σ × ω` answers every input. `outputs` lists the inputs of a run with their answers.
What holds of an answer is proved by an invariant of the history, the inputs to come and the state
(`history_inv`). Inputs do not matter to the others when the run without them gives these the same
answers (`outputs_filter`).
-/

namespace Machine

variable {σ ι ω : Type} {step : σ → ι → σ × ω}

def outputs (step : σ → ι → σ × ω) (s : σ) : List ι → List (ι × ω)
  | [] => []
  | i :: is => (i, (step s i).2) :: outputs step (step s i).1 is

/-- A run is known by its answers. -/
theorem outputs_eq_zip (s : σ) (is : List ι) :
    outputs step s is = is.zip ((outputs step s is).map Prod.snd) := by
  induction is generalizing s with
  | nil => rfl
  | cons i is ih =>
    rw [outputs, List.map_cons, List.zip_cons_cons, ← ih]

/-- The state in which an input was answered. -/
theorem history_inv {J : List (ι × ω) → List ι → σ → Prop}
    (hstep : ∀ past i rest s, J past (i :: rest) s →
      J (past ++ [(i, (step s i).2)]) rest (step s i).1)
    {s : σ} {is : List ι} (h : J [] is s) {past future : List (ι × ω)} {i : ι} {o : ω}
    (hrun : outputs step s is = past ++ (i, o) :: future) :
    ∃ t rest, J past (i :: rest) t ∧ o = (step t i).2 := by
  have hfrom : ∀ (is : List ι) (before past : List (ι × ω)) (s : σ), J before is s →
      outputs step s is = past ++ (i, o) :: future →
        ∃ t rest, J (before ++ past) (i :: rest) t ∧ o = (step t i).2 := by
    intro is
    induction is with
    | nil =>
      intro before past s h hrun
      cases past <;> cases hrun
    | cons j is ih =>
      intro before past s h hrun
      cases past with
      | nil =>
        cases hrun
        rw [List.append_nil]
        exact ⟨s, is, h, rfl⟩
      | cons e past =>
        obtain ⟨rfl, hrest⟩ := List.cons.inj hrun
        rw [List.append_cons]
        exact ih _ past _ (hstep before j is s h) hrest
  exact hfrom is [] past s h hrun

/-- The state after the inputs. -/
def final (step : σ → ι → σ × ω) (s : σ) : List ι → σ
  | [] => s
  | i :: is => final step (step s i).1 is

/-- What each step does that meets a condition, a run of such steps does. -/
theorem final_rel {R : σ → σ → Prop} {C : ι × ω → Prop} (hrefl : ∀ s, R s s)
    (htrans : ∀ s t u, R s t → R t u → R s u)
    (hstep : ∀ s i, C (i, (step s i).2) → R s (step s i).1) {s : σ} {is : List ι}
    (h : ∀ e ∈ outputs step s is, C e) : R s (final step s is) := by
  induction is generalizing s with
  | nil => exact hrefl s
  | cons i is ih =>
    refine htrans s _ _ (hstep s i (h _ List.mem_cons_self)) (ih fun e he => ?_)
    exact h e (List.mem_cons_of_mem _ he)

/-- An invariant of the past and the state. -/
theorem final_inv {J : List (ι × ω) → σ → Prop}
    (hstep : ∀ past i s, J past s → J (past ++ [(i, (step s i).2)]) (step s i).1) {s : σ}
    {is : List ι} (h : J [] s) : J (outputs step s is) (final step s is) := by
  have hfrom : ∀ (is : List ι) (past : List (ι × ω)) (s : σ), J past s →
      J (past ++ outputs step s is) (final step s is) := by
    intro is
    induction is with
    | nil =>
      intro past s h
      rwa [outputs, List.append_nil]
    | cons i is ih =>
      intro past s h
      rw [outputs, List.append_cons]
      exact ih _ _ (hstep past i s h)
  exact hfrom is [] s h

/-- `R` relates the state of the run, with the inputs to come, to that of the run without the inputs
that are dropped. -/
theorem outputs_filter {R : List ι → σ → σ → Prop} {keep : ι → Bool}
    (hkeep : ∀ i is s t, keep i = true → R (i :: is) s t →
      (step s i).2 = (step t i).2 ∧ R is (step s i).1 (step t i).1)
    (hdrop : ∀ i is s t, keep i = false → R (i :: is) s t → R is (step s i).1 t)
    {is : List ι} {s t : σ} (h : R is s t) :
    outputs step t (is.filter keep) = (outputs step s is).filter fun e => keep e.1 := by
  induction is generalizing s t with
  | nil => rfl
  | cons i is ih =>
    cases hi : keep i with
    | true =>
      obtain ⟨hanswer, hR⟩ := hkeep i is s t hi h
      rw [List.filter_cons_of_pos hi, outputs, outputs, List.filter_cons_of_pos (by simpa using hi),
        hanswer, ih hR]
    | false =>
      rw [List.filter_cons_of_neg (by simp [hi]), outputs,
        List.filter_cons_of_neg (by simp [hi])]
      exact ih (hdrop i is s t hi h)

end Machine
