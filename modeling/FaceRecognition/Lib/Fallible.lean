import Mathlib.Data.List.Basic

/-!
# Fallible calls

What follows a call that returns, and one that raises. A call that never raises is a function, and
`mapM` of it is `map` of that function.
-/

namespace Fallible

variable {ε α β : Type}

theorem ok_bind (a : α) (k : α → Except ε β) : (.ok a >>= k) = k a := rfl

theorem error_bind (e : ε) (k : α → Except ε β) : (.error e >>= k) = .error e := rfl

theorem bind_eq_ok {x : Except ε α} {k : α → Except ε β} {b : β} :
    (x >>= k) = .ok b ↔ ∃ a, x = .ok a ∧ k a = .ok b := by
  cases x with
  | error e => exact iff_of_false (fun h => by cases h) fun ⟨_, h, _⟩ => by cases h
  | ok a => exact ⟨fun h => ⟨a, rfl, h⟩, fun ⟨_, h, hk⟩ => by cases h; exact hk⟩

theorem mapM_ok {f : α → Except ε β} {g : α → β} {l : List α} (h : ∀ a ∈ l, f a = .ok (g a)) :
    l.mapM f = .ok (l.map g) := by
  induction l with
  | nil => rfl
  | cons a l ih =>
    have hrest := ih fun b hb => h b (List.mem_cons_of_mem a hb)
    rw [List.mapM_cons, h a List.mem_cons_self, hrest]
    rfl

theorem mem_of_mapM {f : α → Except ε β} {l : List α} {bs : List β} (h : l.mapM f = .ok bs)
    {b : β} : b ∈ bs ↔ ∃ a ∈ l, f a = .ok b := by
  induction l generalizing bs with
  | nil =>
    cases h
    simp
  | cons a l ih =>
    rw [List.mapM_cons, bind_eq_ok] at h
    obtain ⟨c, hc, h⟩ := h
    obtain ⟨cs, hcs, h⟩ := bind_eq_ok.1 h
    cases h
    simp only [List.mem_cons, ih hcs, exists_eq_or_imp, hc, Except.ok.injEq, @eq_comm _ b]

theorem mapM_returns {f : α → Except ε β} {l : List α} (h : ∀ a ∈ l, ∃ b, f a = .ok b) :
    ∃ bs, l.mapM f = .ok bs := by
  induction l with
  | nil => exact ⟨[], rfl⟩
  | cons a l ih =>
    obtain ⟨b, hb⟩ := h a List.mem_cons_self
    obtain ⟨bs, hbs⟩ := ih fun c hc => h c (List.mem_cons_of_mem a hc)
    refine ⟨b :: bs, ?_⟩
    rw [List.mapM_cons, hb, hbs]
    rfl

theorem mem_of_filterAuxM {p : α → Except ε Bool} {l acc as : List α}
    (h : l.filterAuxM p acc = .ok as) {a : α} : a ∈ as ↔ a ∈ acc ∨ a ∈ l ∧ p a = .ok true := by
  induction l generalizing acc with
  | nil =>
    cases h
    simp
  | cons b l ih =>
    rw [List.filterAuxM, bind_eq_ok] at h
    obtain ⟨keep, hkeep, h⟩ := h
    rw [ih h, List.mem_cons, or_and_right]
    cases keep with
    | false =>
      have hdropped : ¬ (a = b ∧ p a = .ok true) := by
        rintro ⟨rfl, hp⟩
        cases hkeep.symm.trans hp
      rw [cond_false, or_iff_right hdropped]
    | true =>
      have hkept : a = b ∧ p a = .ok true ↔ a = b :=
        and_iff_left_of_imp fun hab => hab ▸ hkeep
      rw [cond_true, List.mem_cons, hkept, or_assoc, or_left_comm]

/-- `[a for a in l if p(a)]` -/
theorem mem_of_filterM {p : α → Except ε Bool} {l as : List α} (h : l.filterM p = .ok as)
    {a : α} : a ∈ as ↔ a ∈ l ∧ p a = .ok true := by
  rw [List.filterM, bind_eq_ok] at h
  obtain ⟨reversed, hreversed, h⟩ := h
  obtain rfl := Except.ok.inj h
  simp [mem_of_filterAuxM hreversed]

theorem getElem?_of_mapM {f : α → Except ε β} {l : List α} {bs : List β} (h : l.mapM f = .ok bs)
    {i : ℕ} {a : α} (ha : l[i]? = some a) : ∃ b, f a = .ok b ∧ bs[i]? = some b := by
  induction l generalizing bs i with
  | nil => cases ha
  | cons c l ih =>
    rw [List.mapM_cons, bind_eq_ok] at h
    obtain ⟨b, hb, h⟩ := h
    obtain ⟨cs, hcs, h⟩ := bind_eq_ok.1 h
    cases h
    cases i with
    | zero =>
      obtain rfl := Option.some.inj ha
      exact ⟨b, hb, rfl⟩
    | succ i => exact ih hcs ha

theorem returns_of_mapM {f : α → Except ε β} {l : List α} {bs : List β} (h : l.mapM f = .ok bs) :
    ∀ a ∈ l, ∃ b, f a = .ok b := by
  induction l generalizing bs with
  | nil => simp
  | cons a l ih =>
    rw [List.mapM_cons, bind_eq_ok] at h
    obtain ⟨b, hb, h⟩ := h
    obtain ⟨cs, hcs, -⟩ := bind_eq_ok.1 h
    exact List.forall_mem_cons.2 ⟨⟨b, hb⟩, ih hcs⟩

theorem returns_of_filterAuxM {p : α → Except ε Bool} {l acc as : List α}
    (h : l.filterAuxM p acc = .ok as) : ∀ a ∈ l, ∃ b, p a = .ok b := by
  induction l generalizing acc with
  | nil => simp
  | cons a l ih =>
    rw [List.filterAuxM, bind_eq_ok] at h
    obtain ⟨keep, hkeep, h⟩ := h
    exact List.forall_mem_cons.2 ⟨⟨keep, hkeep⟩, ih h⟩

theorem returns_of_filterM {p : α → Except ε Bool} {l as : List α} (h : l.filterM p = .ok as) :
    ∀ a ∈ l, ∃ b, p a = .ok b := by
  rw [List.filterM, bind_eq_ok] at h
  obtain ⟨reversed, hreversed, -⟩ := h
  exact returns_of_filterAuxM hreversed

theorem filterAuxM_returns {p : α → Except ε Bool} {l : List α} (acc : List α)
    (h : ∀ a ∈ l, ∃ b, p a = .ok b) : ∃ as, l.filterAuxM p acc = .ok as := by
  induction l generalizing acc with
  | nil => exact ⟨acc, rfl⟩
  | cons a l ih =>
    obtain ⟨b, hb⟩ := h a List.mem_cons_self
    obtain ⟨as, has⟩ := ih (cond b (a :: acc) acc) fun c hc => h c (List.mem_cons_of_mem a hc)
    exact ⟨as, by rw [List.filterAuxM, hb, ok_bind, has]⟩

theorem filterM_returns {p : α → Except ε Bool} {l : List α} (h : ∀ a ∈ l, ∃ b, p a = .ok b) :
    ∃ as, l.filterM p = .ok as := by
  obtain ⟨as, has⟩ := filterAuxM_returns [] h
  exact ⟨as.reverse, by rw [List.filterM, has]; rfl⟩

/-- `[f(i, a) for i, a in enumerate(l)]` -/
theorem mapM_zipIdx_ok {f : α × ℕ → Except ε β} {g : α → β} {l : List α}
    (h : ∀ a i, l[i]? = some a → f (a, i) = .ok (g a)) : l.zipIdx.mapM f = .ok (l.map g) := by
  rw [mapM_ok (g := g ∘ Prod.fst) fun x hx => h x.1 x.2 (List.mem_zipIdx_iff_getElem?.1 hx),
    ← List.map_map, List.zipIdx_map_fst]

end Fallible
