import Mathlib.Logic.Basic

/-!
# Runs of a partial step function

A system is a step function `σ → ℓ → Option σ`: `none` says that the label is not enabled. `exec` is
the state after a list of labels. An invariant is proved once for a step and holds after every run
(`exec_inv`); when it is only kept by the steps that meet a condition, it holds after every run all
of whose steps meet it (`inv_of_guarded`). `trace_inv` is the rule for properties of a whole run: an
invariant of the state and of the steps that have led to it.
-/

namespace Run

variable {σ ℓ : Type} {step : σ → ℓ → Option σ}

/-- The state after the labels, `none` when one of them is not enabled. -/
def exec (step : σ → ℓ → Option σ) (s : σ) : List ℓ → Option σ
  | [] => some s
  | l :: ls => (step s l).bind fun s' => exec step s' ls

theorem exec_cons {s s' : σ} {l : ℓ} {ls : List ℓ} :
    exec step s (l :: ls) = some s' ↔ ∃ t, step s l = some t ∧ exec step t ls = some s' := by
  simp [exec, Option.bind_eq_some_iff]

theorem exec_append {s : σ} {pre post : List ℓ} :
    exec step s (pre ++ post) = (exec step s pre).bind fun t => exec step t post := by
  induction pre generalizing s with
  | nil => rfl
  | cons l pre ih =>
    show (step s l).bind _ = ((step s l).bind _).bind _
    rw [Option.bind_assoc]
    exact congrArg _ (funext fun t => ih)

theorem exec_inv {I : σ → Prop} (hstep : ∀ s l s', I s → step s l = some s' → I s') {s s' : σ}
    {ls : List ℓ} (h : I s) (hrun : exec step s ls = some s') : I s' := by
  induction ls generalizing s with
  | nil => cases hrun; exact h
  | cons l ls ih =>
    obtain ⟨t, ht, hrest⟩ := exec_cons.1 hrun
    exact ih (hstep s l t h ht) hrest

/-- Every step of the run meets the condition `C`, asked in the state before it. -/
def Guarded (step : σ → ℓ → Option σ) (C : σ → ℓ → Prop) (s : σ) : List ℓ → Prop
  | [] => True
  | l :: ls => C s l ∧ ∀ s', step s l = some s' → Guarded step C s' ls

theorem guarded_cons {C : σ → ℓ → Prop} {s t : σ} {l : ℓ} {ls : List ℓ} (hC : C s l)
    (hstep : step s l = some t) (hrest : Guarded step C t ls) : Guarded step C s (l :: ls) :=
  ⟨hC, fun s' hs' => by
    obtain rfl : t = s' := Option.some.inj (hstep.symm.trans hs')
    exact hrest⟩

/-- The condition is asked in the state that the labels before lead to. -/
theorem guarded_iff {C : σ → ℓ → Prop} {s : σ} {ls : List ℓ} : Guarded step C s ls ↔
    ∀ pre l post t, ls = pre ++ l :: post → exec step s pre = some t → C t l := by
  induction ls generalizing s with
  | nil => exact iff_of_true trivial fun pre l post t h => by cases pre <;> cases h
  | cons l ls ih =>
    constructor
    · intro hg pre l' post t h hrun
      cases pre with
      | nil =>
        cases h
        cases hrun
        exact hg.1
      | cons l₀ pre =>
        cases h
        obtain ⟨u, hu, hrest⟩ := exec_cons.1 hrun
        exact ih.1 (hg.2 u hu) pre l' post t rfl hrest
    · intro hC
      refine ⟨hC [] l ls s rfl rfl, fun s' hs' => ih.2 fun pre l' post t h hrun => ?_⟩
      exact hC (l :: pre) l' post t (h ▸ rfl) (exec_cons.2 ⟨s', hs', hrun⟩)

theorem Guarded.take {C : σ → ℓ → Prop} {s : σ} {pre ls : List ℓ} (h : Guarded step C s ls)
    (hpre : pre <+: ls) : Guarded step C s pre := by
  obtain ⟨post, rfl⟩ := hpre
  refine guarded_iff.2 fun pre' l post' t hsplit hrun => ?_
  exact guarded_iff.1 h pre' l (post' ++ post) t (by rw [hsplit, List.append_assoc]; rfl) hrun

/-- A condition that is met in every state. -/
theorem guarded_of_forall {C : σ → ℓ → Prop} {s : σ} {ls : List ℓ}
    (h : ∀ l ∈ ls, ∀ t, C t l) : Guarded step C s ls := by
  induction ls generalizing s with
  | nil => trivial
  | cons l ls ih =>
    exact ⟨h l List.mem_cons_self s, fun _ _ => ih fun l' hl' => h l' (List.mem_cons_of_mem l hl')⟩

/-- An invariant that implies the condition. -/
theorem guarded_of_inv {I : σ → Prop} {C : σ → ℓ → Prop} (hC : ∀ s l, I s → C s l)
    (hstep : ∀ s l s', I s → step s l = some s' → I s') {s : σ} (h : I s) (ls : List ℓ) :
    Guarded step C s ls := by
  induction ls generalizing s with
  | nil => trivial
  | cons l ls ih => exact ⟨hC s l h, fun s' hs' => ih (hstep s l s' h hs')⟩

theorem inv_of_guarded {I : σ → Prop} {C : σ → ℓ → Prop}
    (hstep : ∀ s l s', I s → C s l → step s l = some s' → I s') {s s' : σ} {ls : List ℓ}
    (h : I s) (hg : Guarded step C s ls) (hrun : exec step s ls = some s') : I s' := by
  induction ls generalizing s with
  | nil => cases hrun; exact h
  | cons l ls ih =>
    obtain ⟨t, ht, hrest⟩ := exec_cons.1 hrun
    exact ih (hstep s l t h hg.1 ht) (hg.2 t ht) hrest

/-! ### Traces -/

/-- The labels of a run, each with the state it was executed in. -/
def trace (step : σ → ℓ → Option σ) (s : σ) : List ℓ → List (σ × ℓ)
  | [] => []
  | l :: ls =>
    (s, l) :: match step s l with
      | none => []
      | some t => trace step t ls

theorem trace_cons {s t : σ} {l : ℓ} {ls : List ℓ} (h : step s l = some t) :
    trace step s (l :: ls) = (s, l) :: trace step t ls := by
  rw [trace, h]

theorem trace_labels {s s' : σ} {ls : List ℓ} (hrun : exec step s ls = some s') :
    (trace step s ls).map Prod.snd = ls := by
  induction ls generalizing s with
  | nil => rfl
  | cons l ls ih =>
    obtain ⟨t, ht, hrest⟩ := exec_cons.1 hrun
    rw [trace_cons ht, List.map_cons, ih hrest]

/-- A step of the run, between the run that has led to it and the run that goes on from it. -/
theorem trace_split {s s' : σ} {ls : List ℓ} (hrun : exec step s ls = some s')
    {pre post : List (σ × ℓ)} {l : σ × ℓ} (htrace : trace step s ls = pre ++ l :: post) :
    exec step s (pre.map Prod.snd) = some l.1 ∧ trace step s (pre.map Prod.snd) = pre ∧
      ∃ t, step l.1 l.2 = some t ∧ exec step t (post.map Prod.snd) = some s' ∧
        trace step t (post.map Prod.snd) = post := by
  induction pre generalizing s ls with
  | nil =>
    cases ls with
    | nil => cases htrace
    | cons l₀ ls =>
      obtain ⟨t, ht, hrest⟩ := exec_cons.1 hrun
      rw [trace_cons ht] at htrace
      obtain ⟨rfl, rfl⟩ := List.cons.inj htrace
      rw [trace_labels hrest]
      exact ⟨rfl, rfl, t, ht, hrest, rfl⟩
  | cons l₁ pre ih =>
    cases ls with
    | nil => cases htrace
    | cons l₀ ls =>
      obtain ⟨t₀, ht₀, hrest⟩ := exec_cons.1 hrun
      rw [trace_cons ht₀] at htrace
      obtain ⟨rfl, hrests⟩ := List.cons.inj htrace
      obtain ⟨hpre, hprefix, hpost⟩ := ih hrest hrests
      refine ⟨exec_cons.2 ⟨t₀, ht₀, hpre⟩, ?_, hpost⟩
      rw [List.map_cons, trace_cons ht₀, hprefix]

/-- An invariant of the state and the trace that has led to it. -/
theorem trace_inv {J : List (σ × ℓ) → σ → Prop}
    (hstep : ∀ tr s l s', J tr s → step s l = some s' → J (tr ++ [(s, l)]) s') {s s' : σ}
    {ls : List ℓ} (h : J [] s) (hrun : exec step s ls = some s') : J (trace step s ls) s' := by
  have hfrom : ∀ (ls : List ℓ) (tr : List (σ × ℓ)) (s : σ), J tr s → exec step s ls = some s' →
      J (tr ++ trace step s ls) s' := by
    intro ls
    induction ls with
    | nil =>
      intro tr s h hrun
      cases hrun
      rwa [trace, List.append_nil]
    | cons l ls ih =>
      intro tr s h hrun
      obtain ⟨t, ht, hrest⟩ := exec_cons.1 hrun
      rw [trace_cons ht, List.append_cons]
      exact ih _ t (hstep tr s l t h ht) hrest
  exact hfrom ls [] s h hrun

end Run
