import FaceRecognition.Lib.Histories

/-!
# Requests that execute one statement

A request with one statement that makes one change stands in the history once at most
(`published_nodup`), with a change that it was allowed to make (`published_of_client`).
-/

namespace ReadCommitted

open Relational Client

variable {T Db W R A Q V Ex κ σ α : Type} [DecidableEq T] [DecidableEq R]
  {D : Dbms Db W R A Q V Ex} {changes : Q → Db → List (Change κ σ)} {t : T}
  {db : Db} {client : T → Prog (Call A Q) (Call.Reply V Ex) α} {ls : List (T × Option Ex)}
  {w : World T Db W A Q V Ex α} {allowed : T → List (Entry A Q V Ex) → Call A Q → Prop}
  {post : T → List (Entry A Q V Ex) → α → Prop}

/-- What `t` has said allowed it a statement that makes the change `c`. -/
def MayMake (allowed : T → List (Entry A Q V Ex) → Call A Q → Prop)
    (changes : Q → Db → List (Change κ σ)) (t : T) (h : List (Entry A Q V Ex)) (c : Change κ σ) :
    Prop :=
  ∃ pre q db', pre <+: h ∧ allowed t pre (.flush q) ∧ c ∈ changes q db'

section
variable (honce : WritesOnce allowed)
  (hobeys : Obedient D allowed post (Run.trace (turn D) ⟨⟨db, Table.empty⟩, client⟩ ls) w t)
include honce hobeys

/-- The statement that a request has executed, and what it had said before. -/
theorem one_statement {rs rest : List (Entry A Q V Ex × List (Change κ σ))}
    (hrs : remarks D changes t (Run.trace (turn D) ⟨⟨db, Table.empty⟩, client⟩ ls) = rs ++ rest)
    {q : Q} (hq : ⟨.flush q, .ok ()⟩ ∈ rs.map Prod.fst) :
    ∃ pre m suf, rs = pre ++ m :: suf ∧ m.1 = ⟨.flush q, .ok ()⟩ ∧ pre.flatMap flushed = [] ∧
      rs.flatMap flushed = m.2 ∧ allowed t (pre.map Prod.fst) (.flush q) := by
  have hcalls : transcript D t (Run.trace (turn D) ⟨⟨db, Table.empty⟩, client⟩ ls) =
      rs.map Prod.fst ++ rest.map Prod.fst := by
    rw [← List.map_append, ← hrs, map_fst_remarks]
  have hallowed : ∀ pre e suf, rs.map Prod.fst = pre ++ e :: suf → allowed t pre e.1 := by
    intro pre e suf h
    refine hobeys.past pre e (suf ++ rest.map Prod.fst) ?_
    rw [hcalls, h, List.append_assoc]
    rfl
  obtain ⟨pre, m, suf, rfl, hm, hpre, hown⟩ := flatMap_flushed (fun pre e suf h q' hq' => by
    have hallows := hallowed pre e suf h
    rw [hq'] at hallows
    exact honce t pre q' hallows) hq
  refine ⟨pre, m, suf, rfl, hm, hpre, hown, ?_⟩
  have hallows := hallowed (pre.map Prod.fst) m.1 (suf.map Prod.fst) (by simp)
  rw [hm] at hallows
  exact hallows

end

section
variable (hrun : Run.exec (turn D) ⟨⟨db, Table.empty⟩, client⟩ ls = some w)
include hrun

/-- A statement has been executed on what its transaction saw. -/
theorem executed {pre rest : List (Entry A Q V Ex × List (Change κ σ))}
    {m : Entry A Q V Ex × List (Change κ σ)} {q : Q} (hrs : remarks D changes t
      (Run.trace (turn D) ⟨⟨db, Table.empty⟩, client⟩ ls) = pre ++ m :: rest)
    (hm : m.1 = ⟨.flush q, .ok ()⟩) : ∃ db', m.2 = changes q db' := by
  obtain ⟨ls₁, w₁, fault, w₂, post, -, -, -, hentry, hmade, -⟩ := placed hrun hrs
  rw [hm] at hentry
  obtain ⟨x, -, heq⟩ := made_of_entry changes hentry
  exact ⟨_, hmade.trans heq⟩

variable (honce : WritesOnce allowed)
  (hsingle : ∀ q db', changes q db' = [] ∨ ∃ c, changes q db' = [c])
include honce hsingle

/-- What a request has made. -/
theorem made_cases
    (hobeys : Obedient D allowed post (Run.trace (turn D) ⟨⟨db, Table.empty⟩, client⟩ ls) w t) :
    (remarks D changes t (Run.trace (turn D) ⟨⟨db, Table.empty⟩, client⟩ ls)).flatMap flushed = [] ∨
      ∃ c, (remarks D changes t (Run.trace (turn D) ⟨⟨db, Table.empty⟩, client⟩ ls)).flatMap
        flushed = [c] ∧ MayMake allowed changes t
          (transcript D t (Run.trace (turn D) ⟨⟨db, Table.empty⟩, client⟩ ls)) c := by
  by_cases h : ∃ q, ⟨.flush q, .ok ()⟩ ∈
      (remarks D changes t (Run.trace (turn D) ⟨⟨db, Table.empty⟩, client⟩ ls)).map Prod.fst
  · obtain ⟨q, hq⟩ := h
    obtain ⟨pre, m, suf, hrs, hm, -, hown, hallows⟩ :=
      one_statement honce hobeys (List.append_nil _).symm hq
    obtain ⟨db', hmade⟩ := executed hrun hrs hm
    have hearlier : pre.map Prod.fst <+:
        transcript D t (Run.trace (turn D) ⟨⟨db, Table.empty⟩, client⟩ ls) := by
      rw [← map_fst_remarks changes, hrs, List.map_append]
      exact List.prefix_append _ _
    rw [hown, hmade]
    rcases hsingle q db' with hnil | ⟨c, hc⟩
    · exact .inl hnil
    · exact .inr ⟨c, hc, _, q, db', hearlier, hallows, hc ▸ List.mem_singleton_self c⟩
  · exact .inl (flatMap_flushed_nil fun q hq => h ⟨q, hq⟩)

theorem mayMake_of_made
    (hobeys : Obedient D allowed post (Run.trace (turn D) ⟨⟨db, Table.empty⟩, client⟩ ls) w t)
    {c : Change κ σ} (hmem : c ∈ (remarks D changes t
      (Run.trace (turn D) ⟨⟨db, Table.empty⟩, client⟩ ls)).flatMap flushed) :
    MayMake allowed changes t
      (transcript D t (Run.trace (turn D) ⟨⟨db, Table.empty⟩, client⟩ ls)) c := by
  rcases made_cases hrun honce hsingle hobeys with hnil | ⟨c', hone, hc⟩
  · rw [hnil] at hmem
    cases hmem
  · rw [hone] at hmem
    cases List.mem_singleton.1 hmem
    exact hc

/-- What the history has of a request. -/
theorem published_of_client
    (hobeys : Obedient D allowed post (Run.trace (turn D) ⟨⟨db, Table.empty⟩, client⟩ ls) w t) :
    (journal D changes (Run.trace (turn D) ⟨⟨db, Table.empty⟩, client⟩ ls)).published.filter
        (fun e => e.1 = t) = [] ∨
      ∃ c, (journal D changes (Run.trace (turn D) ⟨⟨db, Table.empty⟩, client⟩ ls)).published.filter
        (fun e => e.1 = t) = [(t, c)] ∧ MayMake allowed changes t
          (transcript D t (Run.trace (turn D) ⟨⟨db, Table.empty⟩, client⟩ ls)) c := by
  have hsub := (List.sublist_append_left _ _).trans
    (settled_sublist (remarks D changes t (Run.trace (turn D) ⟨⟨db, Table.empty⟩, client⟩ ls)))
  rw [filter_history hrun]
  rcases made_cases hrun honce hsingle hobeys with hnil | ⟨c, hone, hc⟩
  · rw [hnil] at hsub
    rw [List.sublist_nil.1 hsub]
    exact .inl rfl
  · rw [hone] at hsub
    rcases List.sublist_singleton.1 hsub with hnil | hown
    · rw [hnil]
      exact .inl rfl
    · rw [hown]
      exact .inr ⟨c, rfl, hc⟩

variable (hobeys : ∀ t,
  Obedient D allowed post (Run.trace (turn D) ⟨⟨db, Table.empty⟩, client⟩ ls) w t)
include hobeys

theorem mayMake_of_published {c : Change κ σ} (hmem : (t, c) ∈
      (journal D changes (Run.trace (turn D) ⟨⟨db, Table.empty⟩, client⟩ ls)).published) :
    MayMake allowed changes t
      (transcript D t (Run.trace (turn D) ⟨⟨db, Table.empty⟩, client⟩ ls)) c := by
  have hown : (t, c) ∈ (journal D changes (Run.trace (turn D) ⟨⟨db, Table.empty⟩, client⟩
      ls)).published.filter (fun e => e.1 = t) :=
    List.mem_filter.2 ⟨hmem, decide_eq_true rfl⟩
  rcases published_of_client hrun honce hsingle (hobeys t) with hnil | ⟨c', hone, hc⟩
  · rw [hnil] at hown
    cases hown
  · rw [hone] at hown
    cases List.mem_singleton.1 hown
    exact hc

theorem published_nodup :
    ((journal D changes (Run.trace (turn D) ⟨⟨db, Table.empty⟩, client⟩ ls)).published.map
      Prod.fst).Nodup := by
  refine List.nodup_iff_count_le_one.2 fun t => ?_
  have hcount : ((journal D changes (Run.trace (turn D) ⟨⟨db, Table.empty⟩, client⟩
      ls)).published.map Prod.fst).count t = ((journal D changes (Run.trace (turn D)
        ⟨⟨db, Table.empty⟩, client⟩ ls)).published.filter (fun e => e.1 = t)).length := by
    rw [List.count, List.countP_map, List.countP_eq_length_filter]
    congr 1
  rw [hcount]
  rcases published_of_client hrun honce hsingle (hobeys t) with hnil | ⟨c, hone, -⟩
  · rw [hnil]
    exact Nat.zero_le 1
  · rw [hone]
    exact Nat.le_refl 1

end

end ReadCommitted
