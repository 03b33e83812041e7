import Mathlib.Logic.Function.Basic
import FaceRecognition.Lib.Sessions

/-!
# A unique index over rows that change

Rows are inserted, changed and deleted. A statement checks the index against what its transaction
sees, and holds the entries of the keys in the rows it writes until the transaction ends. What
others have not committed it does not see, and yet no interleaving commits two rows with one key
(`indexed_run`): of two transactions that would write it only one can hold the entry.
-/

namespace ReadCommitted

open Relational

variable {T Db W R A Q V Ex κ ρ ε α : Type}

/-- No two rows share a key. Rows that have none never collide. -/
def UniqueKeys (key : ρ → Option ε) (f : κ → Option ρ) : Prop :=
  ∀ k k' r r' e, f k = some r → f k' = some r' → key r = some e → key r' = some e → k = k'

/-- A row that is put under `k`, when no other one has its key. -/
theorem UniqueKeys.update [DecidableEq κ] {key : ρ → Option ε} {f : κ → Option ρ}
    (h : UniqueKeys key f) {k : κ} {v : Option ρ}
    (hfree : ∀ r e, v = some r → key r = some e → ∀ k' r', k' ≠ k → f k' = some r' →
      key r' ≠ some e) : UniqueKeys key (Function.update f k v) := by
  intro k₁ k₂ r₁ r₂ e h₁ h₂ he₁ he₂
  by_cases hk₁ : k₁ = k <;> by_cases hk₂ : k₂ = k
  · rw [hk₁, hk₂]
  · subst hk₁
    rw [Function.update_self] at h₁
    rw [Function.update_of_ne hk₂] at h₂
    exact absurd he₂ (hfree r₁ e h₁ he₁ k₂ r₂ hk₂ h₂)
  · subst hk₂
    rw [Function.update_of_ne hk₁] at h₁
    rw [Function.update_self] at h₂
    exact absurd he₁ (hfree r₂ e h₂ he₂ k₁ r₁ hk₁ h₁)
  · rw [Function.update_of_ne hk₁] at h₁
    rw [Function.update_of_ne hk₂] at h₂
    exact h k₁ k₂ r₁ r₂ e h₁ h₂ he₁ he₂

/-- With the rows that they leave, the writes hold the entries of their keys. -/
def HoldsEntries (E : Engine Db W R) (look : Db → κ → Option ρ) (lock : κ → R)
    (key : ρ → Option ε) (entry : ε → R) (db : Db) (ws : List W) : Prop :=
  ∀ k r e, (∃ w ∈ ws, E.row w = lock k) → look (E.applyAll db ws) k = some r → key r = some e →
    ∃ w ∈ ws, E.row w = entry e

/-- A statement that succeeds has checked the index, and holds the entries of what it writes. -/
structure Checks (D : Dbms Db W R A Q V Ex) (look : Db → κ → Option ρ) (lock : κ → R)
    (key : ρ → Option ε) (entry : ε → R) : Prop where
  reads : ∀ k, Reads D.engine (fun db => look db k) (lock k)
  run : ∀ q db ws, D.run q db = .ok ws → UniqueKeys key (look db) →
    UniqueKeys key (look (D.engine.applyAll db ws))
  held : ∀ q db ws, D.run q db = .ok ws → HoldsEntries D.engine look lock key entry db ws

section
variable {E : Engine Db W R} {look : Db → κ → Option ρ} {lock : κ → R} {key : ρ → Option ε}
  {entry : ε → R} (hreads : ∀ k, Reads E (fun db => look db k) (lock k))
include hreads

/-- A row is as the first writes have left it, or one of those that follow has written it. -/
theorem HoldsEntries.append {db : Db} {ws ws' : List W}
    (h : HoldsEntries E look lock key entry db ws)
    (h' : HoldsEntries E look lock key entry (E.applyAll db ws) ws') :
    HoldsEntries E look lock key entry db (ws ++ ws') := by
  intro k r e hwritten hr he
  rw [E.applyAll_append] at hr
  by_cases hlast : ∃ w ∈ ws', E.row w = lock k
  · obtain ⟨w, hw, hrow⟩ := h' k r e hlast hr he
    exact ⟨w, List.mem_append_right ws hw, hrow⟩
  · have hbefore : ∃ w ∈ ws, E.row w = lock k := by
      obtain ⟨w, hw, hrow⟩ := hwritten
      exact ⟨w, (List.mem_append.1 hw).resolve_right fun hw' => hlast ⟨w, hw', hrow⟩, hrow⟩
    have hsame : look (E.applyAll (E.applyAll db ws) ws') k = look (E.applyAll db ws) k :=
      (hreads k).of_unwritten fun w hw hrow => hlast ⟨w, hw, hrow⟩
    obtain ⟨w, hw, hrow⟩ := h k r e hbefore (hsame.symm.trans hr) he
    exact ⟨w, List.mem_append_left ws' hw, hrow⟩

/-- What the writes leave of the rows they write does not depend on the database. -/
theorem HoldsEntries.of_other {db : Db} {ws : List W}
    (h : HoldsEntries E look lock key entry db ws) (db' : Db) :
    HoldsEntries E look lock key entry db' ws := fun k r e hwritten hr he =>
  h k r e hwritten (((hreads k).of_written hwritten).trans hr) he

/-- Writes of two transactions on one database, when their locks are apart: a row of the first one
and a row of the second one have different keys. -/
theorem uniqueKeys_applyAll {db : Db} {ws ws' : List W}
    (hunique : UniqueKeys key (look (E.applyAll db ws)))
    (hunique' : UniqueKeys key (look (E.applyAll db ws')))
    (hheld : HoldsEntries E look lock key entry db ws)
    (hheld' : HoldsEntries E look lock key entry db ws')
    (hapart : ∀ w ∈ ws, ∀ w' ∈ ws', E.row w ≠ E.row w') :
    UniqueKeys key (look (E.applyAll (E.applyAll db ws) ws')) := by
  -- a row that `ws'` has written next to one that it has not
  have hmixed : ∀ k k' r r' e, (∃ w ∈ ws', E.row w = lock k) →
      (∀ w ∈ ws', E.row w ≠ lock k') → look (E.applyAll (E.applyAll db ws) ws') k = some r →
      look (E.applyAll (E.applyAll db ws) ws') k' = some r' → key r = some e →
      key r' = some e → k = k' := by
    intro k k' r r' e hk hk' hr hr' he he'
    have hseen : look (E.applyAll db ws') k = some r := ((hreads k).of_written hk).trans hr
    have hkept : look (E.applyAll db ws) k' = some r' :=
      ((hreads k').of_unwritten hk').symm.trans hr'
    by_cases hfirst : ∃ w ∈ ws, E.row w = lock k'
    · obtain ⟨w, hw, hrow⟩ := hheld k' r' e hfirst hkept he'
      obtain ⟨w', hw', hrow'⟩ := hheld' k r e hk hseen he
      exact absurd (hrow.trans hrow'.symm) (hapart w hw w' hw')
    · have hcommitted : look db k' = some r' :=
        ((hreads k').of_unwritten fun w hw hrow => hfirst ⟨w, hw, hrow⟩).symm.trans hkept
      have hseen' : look (E.applyAll db ws') k' = some r' :=
        ((hreads k').of_unwritten hk').trans hcommitted
      exact hunique' k k' r r' e hseen hseen' he he'
  intro k k' r r' e hr hr' he he'
  by_cases hk : ∃ w ∈ ws', E.row w = lock k
  · by_cases hk' : ∃ w ∈ ws', E.row w = lock k'
    · exact hunique' k k' r r' e (((hreads k).of_written hk).trans hr)
        (((hreads k').of_written hk').trans hr') he he'
    · exact hmixed k k' r r' e hk (fun w hw hrow => hk' ⟨w, hw, hrow⟩) hr hr' he he'
  · have hk : ∀ w ∈ ws', E.row w ≠ lock k := fun w hw hrow => hk ⟨w, hw, hrow⟩
    by_cases hk' : ∃ w ∈ ws', E.row w = lock k'
    · exact (hmixed k' k r' r e hk' hk hr' hr he' he).symm
    · have hk' : ∀ w ∈ ws', E.row w ≠ lock k' := fun w hw hrow => hk' ⟨w, hw, hrow⟩
      exact hunique k k' r r' e (((hreads k).of_unwritten hk).symm.trans hr)
        (((hreads k').of_unwritten hk').symm.trans hr') he he'

end

/-! ### The invariant -/

structure Indexing (E : Engine Db W R) (look : Db → κ → Option ρ) (lock : κ → R)
    (key : ρ → Option ε) (entry : ε → R) (s : State T Db W) : Prop where
  locks : LocksDisjoint E s
  committed : UniqueKeys key (look s.committed)
  views : ∀ x ∈ s.txns.rows, UniqueKeys key (look (view E s x))
  held : ∀ x ∈ s.txns.rows, HoldsEntries E look lock key entry s.committed x.writes

section
variable {D : Dbms Db W R A Q V Ex} {look : Db → κ → Option ρ} {lock : κ → R}
  {key : ρ → Option ε} {entry : ε → R} {s s' : State T Db W} {x : Txn T W}

namespace Indexing

theorem start {db : Db} (h : UniqueKeys key (look db)) :
    Indexing D.engine look lock key entry (⟨db, Table.empty⟩ : State T Db W) where
  locks _ hx := by cases hx
  committed := h
  views _ hx := by cases hx
  held _ hx := by cases hx

/-- Transactions that are as before, or have written nothing. -/
theorem of_fewer (h : Indexing D.engine look lock key entry s)
    (hcommitted : s'.committed = s.committed)
    (htxns : ∀ x ∈ s'.txns.rows, x.writes = [] ∨ x ∈ s.txns.rows) :
    Indexing D.engine look lock key entry s' := by
  constructor
  · refine h.locks.of_fewer fun x hx w hw => ?_
    rcases htxns x hx with hnil | hx'
    · rw [hnil] at hw
      cases hw
    · exact ⟨x, hx', rfl, hw⟩
  · exact hcommitted ▸ h.committed
  · intro x hx
    rw [view, hcommitted]
    rcases htxns x hx with hnil | hx'
    · rw [hnil]
      exact h.committed
    · exact h.views x hx'
  · intro x hx
    rw [hcommitted]
    rcases htxns x hx with hnil | hx'
    · rw [hnil]
      rintro k r e ⟨w, hw, -⟩
      cases hw
    · exact h.held x hx'

variable [DecidableEq T]

theorem wrote (hD : Checks D look lock key entry) (h : Indexing D.engine look lock key entry s)
    (hx : s.txns.get? x.id = some x) {q : Q} {ws : List W}
    (hrun : D.run q (view D.engine s x) = .ok ws)
    (hlocks : LocksDisjoint D.engine (s.wrote x ws)) :
    Indexing D.engine look lock key entry (s.wrote x ws) := by
  have hmem : x ∈ s.txns.rows := (Table.get?_eq_some.1 hx).1
  refine ⟨hlocks, h.committed, fun y hy => ?_, fun y hy => ?_⟩
  · rcases Table.mem_put.1 hy with rfl | ⟨hy, -⟩
    · rw [view, D.engine.applyAll_append]
      exact hD.run q _ ws hrun (h.views x hmem)
    · exact h.views y hy
  · rcases Table.mem_put.1 hy with rfl | ⟨hy, -⟩
    · exact (h.held x hmem).append hD.reads (hD.held q _ ws hrun)
    · exact h.held y hy

theorem publish (hD : Checks D look lock key entry) (h : Indexing D.engine look lock key entry s)
    (hx : s.txns.get? x.id = some x) :
    Indexing D.engine look lock key entry (s.publish D.engine x) := by
  have hmem : x ∈ s.txns.rows := (Table.get?_eq_some.1 hx).1
  constructor
  · refine h.locks.of_fewer fun y hy w hw => ?_
    rcases Table.mem_put.1 hy with rfl | ⟨hy, -⟩
    · cases hw
    · exact ⟨y, hy, rfl, hw⟩
  · exact h.views x hmem
  · intro y hy
    rcases Table.mem_put.1 hy with rfl | ⟨hy, hne⟩
    · exact h.views x hmem
    · exact uniqueKeys_applyAll hD.reads (h.views x hmem) (h.views y hy) (h.held x hmem)
        (h.held y hy) (h.locks x hmem y hy hne)
  · intro y hy
    rcases Table.mem_put.1 hy with rfl | ⟨hy, -⟩
    · rintro k r e ⟨w, hw, -⟩
      cases hw
    · exact (h.held y hy).of_other hD.reads _

/-- Every call keeps the index. -/
theorem served [DecidableEq R] (hD : Checks D look lock key entry)
    (h : Indexing D.engine look lock key entry s) {t : T} {fault : Option Ex} {c : Call A Q}
    {r : c.Reply V Ex} (hserved : Served D t s fault c s' r) :
    Indexing D.engine look lock key entry s' := by
  have hlocks := locksDisjoint_served h.locks hserved
  cases hserved with
  | renewed =>
    exact h.of_fewer rfl fun x hx => (Table.mem_put.1 hx).imp (fun he => by rw [he]) And.left
  | failed => exact h
  | aborted => exact h.of_fewer rfl fun x hx => .inr (Table.mem_erase.1 hx).1
  | queried => exact h
  | flushed q x ws hx hrun =>
    obtain rfl : x.id = t := Table.pk_of_get? hx
    exact h.wrote hD hx hrun hlocks
  | committed x hx =>
    obtain rfl : x.id = t := Table.pk_of_get? hx
    exact h.publish hD hx

end Indexing

variable [DecidableEq T] [DecidableEq R]

/-- **The index holds after every run.** -/
theorem indexed_run (hD : Checks D look lock key entry) {db : Db} (hdb : UniqueKeys key (look db))
    {client : T → Client.Prog (Call A Q) (Call.Reply V Ex) α} {ls : List (T × Option Ex)}
    {w : World T Db W A Q V Ex α}
    (hrun : Run.exec (turn D) ⟨⟨db, Table.empty⟩, client⟩ ls = some w) :
    Indexing D.engine look lock key entry w.server := by
  refine Run.exec_inv (I := fun w => Indexing D.engine look lock key entry w.server)
    (fun w l w' h hturn => ?_) (Indexing.start hdb) hrun
  obtain ⟨c, next, r, -, hserved, -⟩ := turn_cases hturn
  exact h.served hD hserved

end

end ReadCommitted
