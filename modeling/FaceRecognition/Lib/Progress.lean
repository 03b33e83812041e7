import Mathlib.Algebra.Order.BigOperators.Group.Finset
import FaceRecognition.Lib.Requests

/-!
# Requests that write once

A client that executes one statement at most holds no lock when it waits for one, and does not wait
any more once it holds one. So the holder of a lock can always go on (`waits_for_writer`), and there
is no deadlock. With a bound on the calls of each program (`turns_le`) every run of finitely many
clients can be continued until all of them have finished (`completes`).
-/

namespace Client.Prog

variable {C : Type} {R : C → Type} {α β : Type} {p : Prog C R α} {n m : ℕ}

/-- The program makes at most `n` calls, whatever the replies are. -/
def AtMost : ℕ → Prog C R α → Prop
  | _, .pure _ => True
  | 0, .call _ _ => False
  | n + 1, .call _ next => ∀ r, (next r).AtMost n

@[simp] theorem atMost_pure (a : α) : (.pure a : Prog C R α).AtMost n := by
  cases n <;> trivial

theorem AtMost.mono (h : p.AtMost n) (hnm : n ≤ m) : p.AtMost m := by
  induction p generalizing n m with
  | pure a => exact atMost_pure a
  | call c next ih =>
    cases n with
    | zero => exact h.elim
    | succ n =>
      obtain ⟨m, rfl⟩ : ∃ m', m = m' + 1 := ⟨m - 1, by omega⟩
      exact fun r => ih r (h r) (Nat.le_of_succ_le_succ hnm)

theorem AtMost.bind {f : α → Prog C R β} (h : p.AtMost n) (hf : ∀ a, (f a).AtMost m) :
    (p.bind f).AtMost (n + m) := by
  induction p generalizing n with
  | pure a => exact (hf a).mono (Nat.le_add_left m n)
  | call c next ih =>
    cases n with
    | zero => exact h.elim
    | succ n =>
      rw [Nat.add_right_comm]
      exact fun r => ih r (h r)

end Client.Prog

namespace ReadCommitted

open Relational Client

variable {T Db W R A Q V Ex σ α β : Type}

/-! ### Programs with a bound -/

def AtMost (n : ℕ) (p : ProgramM A Q V Ex σ α) : Prop := ∀ l, (go p l).AtMost n

section
variable {n m : ℕ} {p : ProgramM A Q V Ex σ α}

theorem AtMost.mono (h : AtMost n p) (hnm : n ≤ m) : AtMost m p := fun l => (h l).mono hnm

theorem atMost_pure (a : α) : AtMost n (pure a : ProgramM A Q V Ex σ α) :=
  fun l => Prog.atMost_pure (Except.ok a, l)

theorem atMost_throw (e : Ex) : AtMost n (throw e : ProgramM A Q V Ex σ α) :=
  fun l => Prog.atMost_pure (Except.error e, l)

theorem atMost_raised (r : Except Ex α) : AtMost n (raised r : ProgramM A Q V Ex σ α) :=
  fun l => Prog.atMost_pure (r, l)

theorem atMost_ask (c : Call A Q) :
    AtMost 1 (ask c : ProgramM A Q V Ex σ (c.Answer V)) := fun l r => Prog.atMost_pure (r, l)

theorem atMost_bind {f : α → ProgramM A Q V Ex σ β} (h : AtMost n p) (hf : ∀ a, AtMost m (f a)) :
    AtMost (n + m) (p >>= f) := by
  intro l
  rw [go_bind]
  refine (h l).bind fun out => ?_
  obtain ⟨e | a, l'⟩ := out
  · exact Prog.atMost_pure _
  · exact hf a l'

/-- The session and its transaction take four calls. -/
theorem atMost_asRequest (h : AtMost n p) : AtMost (n + 4) (asRequest p) := by
  have hclosing : ∀ (r : Except Ex α) (l : σ),
      (closing r l : Outcome A Q V Ex σ α).AtMost 1 := fun r l answer => Prog.atMost_pure _
  have hrollingBack : ∀ (e : Ex) (l : σ),
      (rollingBack e l : Outcome A Q V Ex σ α).AtMost 2 := fun e l answer => by
    cases answer <;> exact hclosing _ l
  intro l
  rw [go_asRequest]
  intro r
  obtain e | _ := r
  · exact Prog.atMost_pure _
  · refine (h l).bind fun out => ?_
    obtain ⟨e | a, l'⟩ := out
    · exact (hrollingBack e l').mono (by decide)
    · intro answer
      obtain e | _ := answer
      · exact hrollingBack e l'
      · exact (hclosing _ l').mono (by decide)

end

/-! ### Turns -/

section
variable [DecidableEq T] [DecidableEq R] {D : Dbms Db W R A Q V Ex} {db : Db}
  {client : T → Prog (Call A Q) (Call.Reply V Ex) α} {ls : List (T × Option Ex)}
  {w : World T Db W A Q V Ex α}

/-- A client takes no more turns than its program makes calls. -/
theorem turns_le {n : ℕ} (hclient : ∀ t, (client t).AtMost n)
    (hrun : Run.exec (turn D) ⟨⟨db, Table.empty⟩, client⟩ ls = some w) (t : T) :
    ls.countP (fun l => l.1 = t) ≤ n := by
  have hrest : ∃ m, (w.client t).AtMost m ∧ (Run.trace (turn D) ⟨⟨db, Table.empty⟩, client⟩
      ls).countP (fun l => l.2.1 = t) + m = n := by
    refine Run.trace_inv (J := fun tr w => ∃ m, (w.client t).AtMost m ∧
      tr.countP (fun l => l.2.1 = t) + m = n) (fun tr w l w' h hturn => ?_)
      ⟨n, hclient t, Nat.zero_add n⟩ hrun
    obtain ⟨m, hm, hcount⟩ := h
    obtain ⟨u, fault⟩ := l
    obtain ⟨c, next, r, hcall, -, hclient'⟩ := turn_cases hturn
    by_cases hu : u = t
    · subst hu
      rw [hcall] at hm
      cases m with
      | zero => exact hm.elim
      | succ m =>
        refine ⟨m, ?_, ?_⟩
        · rw [hclient', Function.update_self]
          exact hm r
        · rw [List.countP_append, List.countP_singleton, if_pos (by simp)]
          omega
    · refine ⟨m, ?_, ?_⟩
      · rw [hclient', Function.update_of_ne (Ne.symm hu)]
        exact hm
      · rw [List.countP_append, List.countP_singleton, if_neg (by simp [hu])]
        exact hcount
  obtain ⟨m, -, hcount⟩ := hrest
  rw [← Run.trace_labels hrun, List.countP_map]
  exact hcount ▸ Nat.le_add_right _ m

theorem length_le [Fintype T] {n : ℕ} (hclient : ∀ t, (client t).AtMost n)
    (hrun : Run.exec (turn D) ⟨⟨db, Table.empty⟩, client⟩ ls = some w) :
    ls.length ≤ Fintype.card T * n := by
  have hcount : ∀ t ∈ (ls.map Prod.fst).toFinset, (ls.map Prod.fst).count t ≤ n := fun t _ => by
    refine le_trans (le_of_eq ?_) (turns_le hclient hrun t)
    rw [List.count, List.countP_map]
    rfl
  have hlength := Finset.sum_le_card_nsmul _ _ n hcount
  rw [List.sum_toFinset_count_eq_length, List.length_map] at hlength
  exact hlength.trans (Nat.mul_le_mul_right n (Finset.card_le_univ _))

/-- **When some client can always go on, every run can be brought to its end**, with no call
failing. -/
theorem completes [Fintype T] {n : ℕ} (hclient : ∀ t, (client t).AtMost n)
    (hmoves : ∀ {ls w}, Run.exec (turn D) ⟨⟨db, Table.empty⟩, client⟩ ls = some w → ∀ {t},
      turn D w (t, none) = none →
        (∃ a, w.client t = .pure a) ∨ ∃ u w', turn D w (u, none) = some w')
    (hrun : Run.exec (turn D) ⟨⟨db, Table.empty⟩, client⟩ ls = some w) :
    ∃ (us : List T) (w' : World T Db W A Q V Ex α),
      Run.exec (turn D) w (us.map fun u => (u, none)) = some w' ∧
        ∀ t, ∃ a, w'.client t = .pure a := by
  suffices ∀ k (ls : List (T × Option Ex)) w, Fintype.card T * n < ls.length + k →
      Run.exec (turn D) ⟨⟨db, Table.empty⟩, client⟩ ls = some w →
      ∃ (us : List T) (w' : World T Db W A Q V Ex α),
        Run.exec (turn D) w (us.map fun u => (u, none)) = some w' ∧
          ∀ t, ∃ a, w'.client t = .pure a from
    this (Fintype.card T * n + 1) ls w (by omega) hrun
  intro k
  induction k with
  | zero =>
    intro ls w hk hrun
    exact absurd (length_le hclient hrun) (Nat.not_le.2 hk)
  | succ k ih =>
    intro ls w hk hrun
    by_cases hdone : ∀ t, ∃ a, w.client t = .pure a
    · exact ⟨[], w, rfl, hdone⟩
    · obtain ⟨t, ht⟩ := not_forall.1 hdone
      obtain ⟨u, w₁, hturn⟩ : ∃ u w₁, turn D w (u, none) = some w₁ := by
        cases hturn : turn D w (t, none) with
        | some w₁ => exact ⟨t, w₁, hturn⟩
        | none => exact (hmoves hrun hturn).resolve_left ht
      have hrun₁ : Run.exec (turn D) ⟨⟨db, Table.empty⟩, client⟩ (ls ++ [(u, none)]) = some w₁ := by
        rw [Run.exec_append, hrun]
        exact Run.exec_cons.2 ⟨w₁, hturn, rfl⟩
      obtain ⟨us, w', hrest, hend⟩ := ih _ w₁ (by rw [List.length_append]; simp; omega) hrun₁
      exact ⟨u :: us, w', Run.exec_cons.2 ⟨w₁, hturn, hrest⟩, hend⟩

/-! ### Locks -/

/-- A statement was executed, and the session is open. -/
structure Writing (h : List (Entry A Q V Ex)) : Prop where
  executed : ∃ q, ⟨.flush q, .ok ()⟩ ∈ h
  unclosed : ∀ h' r, h ≠ h' ++ [⟨.close, r⟩]

omit [DecidableEq T] [DecidableEq R] in
theorem Writing.record {h : List (Entry A Q V Ex)} (hh : Writing h) {c : Call A Q}
    (hc : c ≠ .close) (r : c.Reply V Ex) : Writing (record h c r) where
  executed := hh.executed.imp fun _ hq => List.mem_append_left _ hq
  unclosed h' r' heq := by
    have hlast := List.singleton_inj.1 (List.append_inj' heq rfl).2
    exact hc (congrArg Sigma.fst hlast)

/-- Only a statement writes, and the end of a session leaves nothing. -/
theorem serve_writes {s s' : State T Db W} {t : T} {fault : Option Ex} {c : Call A Q}
    {r : c.Reply V Ex} (hserve : serve D t fault s c = some (s', r)) {x : Txn T W}
    (hx : s'.txns.get? t = some x) (hwrites : x.writes ≠ []) :
    (∃ q, (⟨c, r⟩ : Entry A Q V Ex) = ⟨.flush q, .ok ()⟩) ∨
      c ≠ .close ∧ ∃ y, s.txns.get? t = some y ∧ y.writes ≠ [] := by
  have hrenewed : (s.renew t).txns.get? t = some x → False := fun h => by
    rw [State.get?_renew] at h
    cases h
    exact hwrites rfl
  have haborted : (s.abort t).txns.get? t = some x → False := fun h => by
    rw [State.get?_abort] at h
    cases h
  cases c with
  | begin =>
    cases hserve
    exact (hrenewed hx).elim
  | close =>
    cases hserve
    exact (hrenewed hx).elim
  | rollback =>
    simp only [serve] at hserve
    split at hserve <;> cases hserve
    · exact .inr ⟨by simp, x, hx, hwrites⟩
    · exact (hrenewed hx).elim
  | query a =>
    simp only [serve] at hserve
    split at hserve
    · cases hserve
      exact .inr ⟨by simp, x, hx, hwrites⟩
    · split at hserve <;> cases hserve
      · exact (haborted hx).elim
      · exact .inr ⟨by simp, x, hx, hwrites⟩
  | flush q =>
    simp only [serve] at hserve
    split at hserve
    · cases hserve
      exact .inr ⟨by simp, x, hx, hwrites⟩
    · split at hserve
      · cases hserve
        exact (haborted hx).elim
      · split_ifs at hserve
        cases hserve
        exact .inl ⟨q, rfl⟩
  | commit =>
    simp only [serve] at hserve
    split at hserve
    · cases hserve
      exact .inr ⟨by simp, x, hx, hwrites⟩
    next y hy =>
      split at hserve <;> cases hserve
      · exact (haborted hx).elim
      · obtain rfl : y.id = t := Table.pk_of_get? hy
        rw [State.get?_publish] at hx
        cases hx
        exact (hwrites rfl).elim

/-- Whoever holds a lock has executed a statement, and has not closed its session. -/
theorem writing_of_writes (hrun : Run.exec (turn D) ⟨⟨db, Table.empty⟩, client⟩ ls = some w) {t : T}
    {x : Txn T W} (hx : w.server.txns.get? t = some x) (hwrites : x.writes ≠ []) :
    Writing (transcript D t (Run.trace (turn D) ⟨⟨db, Table.empty⟩, client⟩ ls)) := by
  refine Run.trace_inv (J := fun tr w => ∀ x, w.server.txns.get? t = some x → x.writes ≠ [] →
    Writing (transcript D t tr)) (fun tr w l w' ih hturn x hx hwrites => ?_) (fun x hx => ?_) hrun x
    hx hwrites
  · obtain ⟨u, fault⟩ := l
    obtain ⟨c, next, r, hclient, hserved, -⟩ := turn_cases hturn
    by_cases hu : u = t
    · subst hu
      obtain ⟨r, hserve, hentry, -⟩ := entry_turn hclient hturn
      rw [transcript_concat_self hentry]
      rcases serve_writes hserve hx hwrites with ⟨q, heq⟩ | ⟨hc, y, hy, hne⟩
      · rw [heq]
        refine ⟨⟨q, by simp⟩, fun h' r' hlast => ?_⟩
        cases List.singleton_inj.1 (List.append_inj' hlast rfl).2
      · exact (ih y hy hne).record hc r
    · rw [transcript_concat_of_ne hu]
      rw [hserved.get?_of_ne (Ne.symm hu)] at hx
      exact ih x hx hwrites
  · cases hx

variable (D) in
/-- The statement `q` of `t` would write a row that `u` has written. -/
def Blocks (w : World T Db W A Q V Ex α) (u t : T) (q : Q) : Prop :=
  ∃ x ws y, w.server.txns.get? t = some x ∧ D.run q (view D.engine w.server x) = .ok ws ∧
    w.server.txns.get? u = some y ∧ ∃ v ∈ y.writes, ∃ v' ∈ ws, D.engine.row v = D.engine.row v'

/-- **No deadlock**: a client that cannot go on has finished, or waits for one that can. -/
theorem waits_for_writer {allowed : T → List (Entry A Q V Ex) → Call A Q → Prop}
    {post : T → List (Entry A Q V Ex) → α → Prop}
    (honce : WritesOnce allowed)
    (hpost : ∀ t h a, post t h a → ¬ Writing h)
    (hrun : Run.exec (turn D) ⟨⟨db, Table.empty⟩, client⟩ ls = some w)
    (hobeys : ∀ t, Obedient D allowed post
      (Run.trace (turn D) ⟨⟨db, Table.empty⟩, client⟩ ls) w t)
    {t : T} (hstuck : turn D w (t, none) = none) :
    (∃ a, w.client t = .pure a) ∨ ∃ u q next, w.client t = .call (.flush q) next ∧ u ≠ t ∧
      Blocks D w u t q ∧ ∃ w', turn D w (u, none) = some w' := by
  rcases turn_eq_none hstuck with
    hdone | ⟨q, next, x, ws, hclient, hx, hws, y, hy, hne, v, hv, v', hv', hrow⟩
  · exact .inl hdone
  · have hopen : w.server.txns.get? y.id = some y := Table.get?_eq_some.2 ⟨hy, rfl⟩
    have hwriting := writing_of_writes hrun hopen (List.ne_nil_of_mem hv)
    have hrest := (hobeys y.id).rest
    refine .inr ⟨y.id, q, next, hclient, hne, ⟨x, ws, y, hx, hws, hopen, v, hv, v', hv', hrow⟩, ?_⟩
    refine Option.ne_none_iff_exists'.1 fun hnone => ?_
    -- the holder has had its statement, so it neither has finished nor waits
    rcases turn_eq_none hnone with ⟨a, ha⟩ | ⟨q', next', _, _, hclient', -⟩
    · rw [ha] at hrest
      exact hpost _ _ _ hrest hwriting
    · rw [hclient'] at hrest
      obtain ⟨q'', hq⟩ := hwriting.executed
      exact honce _ _ _ hrest.1 _ hq q'' rfl

end

theorem Concluded.not_writing {tells : List (Entry A Q V Ex) → Except Ex α → Prop}
    {h : List (Entry A Q V Ex)} {r : Except Ex α} (hc : Concluded tells h r) : ¬ Writing h := by
  intro hw
  cases hc with
  | unopened e =>
    obtain ⟨q, hq⟩ := hw.executed
    cases List.mem_singleton.1 hq
  | returned h a => exact hw.unclosed (h ++ [⟨.commit, .ok ()⟩]) _ (List.append_cons ..)
  | unclosed h a e => exact hw.unclosed (h ++ [⟨.commit, .ok ()⟩]) _ (List.append_cons ..)
  | refused h a e r r' =>
    exact hw.unclosed (h ++ [⟨.commit, .error e⟩, ⟨.rollback, r⟩]) r' (by simp)
  | raised h e r r' => exact hw.unclosed (h ++ [⟨.rollback, r⟩]) r' (by simp)

end ReadCommitted
