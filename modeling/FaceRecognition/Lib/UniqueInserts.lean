import FaceRecognition.Lib.Sessions

/-!
# A unique index under READ COMMITTED

Rows are only inserted. An INSERT checks the index against the rows that its transaction sees, and
holds the lock on the key until the transaction ends; what others have not committed it does not
see. That is enough: however the transactions are interleaved, no two committed rows share a key,
and no open transaction holds a row whose key is committed or held by another one (`Indexed`, kept
by every call, `indexed_served`).
-/

namespace ReadCommitted

open Relational UnitOfWork

variable {T ρ κ R A Q V Ex : Type} [DecidableEq κ] [PrimaryKey ρ κ]

/-- The row can be inserted. -/
structure Free (key : ρ → R) (table : Table ρ) (r : ρ) : Prop where
  pk : table.get? (pk r) = none
  key : ∀ x ∈ table.rows, key x ≠ key r

/-- The engine of a table whose rows are locked by a key. -/
def keyed (key : ρ → R) : Engine (Table ρ) ρ R := ⟨Table.put, key⟩

/-- The statements are INSERTs of one row that check the index. -/
structure Inserts (D : Dbms (Table ρ) ρ R A Q V Ex) (key : ρ → R) : Prop where
  engine : D.engine = keyed key
  run : ∀ q table ws, D.run q table = .ok ws → ∃ r, ws = [r] ∧ Free key table r

/-! ### Rows that are new -/

section
variable {key : ρ → R} {table : Table ρ} {ws : List ρ}

theorem rows_applyAll (hnew : ∀ r ∈ ws, table.get? (pk r) = none)
    (hapart : ws.Pairwise fun r r' => pk r ≠ pk r') :
    ((keyed key).applyAll table ws).rows = table.rows ++ ws := by
  induction ws generalizing table with
  | nil => exact (List.append_nil _).symm
  | cons r ws ih =>
    have hput : (table.put r).rows = table.rows ++ [r] :=
      Table.rows_put_of_new (hnew r List.mem_cons_self)
    obtain ⟨hne, hrest⟩ := List.pairwise_cons.1 hapart
    have hnew' : ∀ x ∈ ws, (table.put r).get? (pk x) = none := fun x hx => by
      rw [Table.get?_put_of_ne table (hne x hx)]
      exact hnew x (List.mem_cons_of_mem r hx)
    show ((keyed key).applyAll (table.put r) ws).rows = _
    rw [ih hnew' hrest, hput, List.append_assoc]
    rfl

theorem Free.of_rows {table' : Table ρ} {r : ρ} (h : Free key table' r)
    (hrows : ∀ x ∈ table.rows, x ∈ table'.rows) : Free key table r :=
  ⟨Table.get?_eq_none.2 fun x hx => Table.get?_eq_none.1 h.pk x (hrows x hx),
    fun x hx => h.key x (hrows x hx)⟩

/-- A row is free next to more rows that differ from it. -/
theorem Free.append {table' : Table ρ} {r : ρ} (h : Free key table r)
    (hrows : table'.rows = table.rows ++ ws) (hpk : ∀ w ∈ ws, PrimaryKey.pk w ≠ PrimaryKey.pk r)
    (hkey : ∀ w ∈ ws, key w ≠ key r) : Free key table' r := by
  refine ⟨Table.get?_eq_none.2 fun x hx => ?_, fun x hx => ?_⟩ <;> rw [hrows] at hx
  · exact (List.mem_append.1 hx).elim (Table.get?_eq_none.1 h.pk x) (hpk x)
  · exact (List.mem_append.1 hx).elim (h.key x) (hkey x)

end

/-! ### The index -/

/-- No key is committed twice, or held by an open transaction and also committed or held by another
one. The ids of new rows are drawn by the clients, each from ids that are its own. -/
structure Indexed (key : ρ → R) (owns : T → κ → Prop) (s : State T (Table ρ) ρ) : Prop where
  unique : s.committed.rows.Pairwise fun r r' => key r ≠ key r'
  free : ∀ x ∈ s.txns.rows, ∀ r ∈ x.writes, Free key s.committed r
  apart : ∀ x ∈ s.txns.rows, x.writes.Pairwise fun r r' => pk r ≠ pk r' ∧ key r ≠ key r'
  owned : ∀ x ∈ s.txns.rows, ∀ r ∈ x.writes, owns x.id (pk r)
  locks : LocksDisjoint (keyed key) s

variable {key : ρ → R} {owns : T → κ → Prop} {s s' : State T (Table ρ) ρ} {x : Txn T ρ}

namespace Indexed

theorem start {table : Table ρ} (h : table.rows.Pairwise fun r r' => key r ≠ key r') :
    Indexed key owns (⟨table, Table.empty⟩ : State T (Table ρ) ρ) where
  unique := h
  free _ hx := by cases hx
  apart _ hx := by cases hx
  owned _ hx := by cases hx
  locks _ hx := by cases hx

/-- What a transaction sees. -/
theorem rows_view (h : Indexed key owns s) (hx : x ∈ s.txns.rows) :
    (view (keyed key) s x).rows = s.committed.rows ++ x.writes :=
  rows_applyAll (fun r hr => (h.free x hx r hr).pk) ((h.apart x hx).imp And.left)

theorem unique_view (h : Indexed key owns s) (hx : x ∈ s.txns.rows) :
    (view (keyed key) s x).rows.Pairwise fun r r' => key r ≠ key r' := by
  rw [h.rows_view hx, List.pairwise_append]
  exact ⟨h.unique, (h.apart x hx).imp And.right, fun r hr w hw => (h.free x hx w hw).key r hr⟩

/-- Committed rows that keep each write in its transaction. -/
theorem of_fewer (h : Indexed key owns s) (hcommitted : s'.committed = s.committed)
    (hfewer : ∀ x ∈ s'.txns.rows, x.writes = [] ∨ x ∈ s.txns.rows) : Indexed key owns s' := by
  constructor
  · exact hcommitted ▸ h.unique
  · intro x hx r hr
    rcases hfewer x hx with hnil | hx'
    · rw [hnil] at hr
      cases hr
    · exact hcommitted ▸ h.free x hx' r hr
  · intro x hx
    rcases hfewer x hx with hnil | hx'
    · rw [hnil]
      exact .nil
    · exact h.apart x hx'
  · intro x hx r hr
    rcases hfewer x hx with hnil | hx'
    · rw [hnil] at hr
      cases hr
    · exact h.owned x hx' r hr
  · refine h.locks.of_fewer fun x hx r hr => ?_
    rcases hfewer x hx with hnil | hx'
    · rw [hnil] at hr
      cases hr
    · exact ⟨x, hx', rfl, hr⟩

variable [DecidableEq T]

/-- A row that the transaction of `x` inserts. -/
theorem wrote [DecidableEq R] (h : Indexed key owns s) (hx : s.txns.get? x.id = some x) {r : ρ}
    (hfree : Free key (view (keyed key) s x) r) (hown : owns x.id (pk r))
    (hlocks : LocksDisjoint (keyed key) (s.wrote x [r])) : Indexed key owns (s.wrote x [r]) := by
  have hmem : x ∈ s.txns.rows := (Table.get?_eq_some.1 hx).1
  have hrows := h.rows_view hmem
  constructor
  · exact h.unique
  · intro y hy w hw
    rcases Table.mem_put.1 hy with rfl | ⟨hy, -⟩
    · rcases List.mem_append.1 hw with hw | hw
      · exact h.free x hmem w hw
      · obtain rfl := List.mem_singleton.1 hw
        exact hfree.of_rows fun y hy => hrows ▸ List.mem_append_left _ hy
    · exact h.free y hy w hw
  · intro y hy
    rcases Table.mem_put.1 hy with rfl | ⟨hy, -⟩
    · refine List.pairwise_append.2 ⟨h.apart x hmem, List.pairwise_singleton .., ?_⟩
      intro w hw w' hw'
      obtain rfl := List.mem_singleton.1 hw'
      have hseen : w ∈ (view (keyed key) s x).rows := hrows ▸ List.mem_append_right _ hw
      exact ⟨Table.get?_eq_none.1 hfree.pk w hseen, hfree.key w hseen⟩
    · exact h.apart y hy
  · intro y hy w hw
    rcases Table.mem_put.1 hy with rfl | ⟨hy, -⟩
    · rcases List.mem_append.1 hw with hw | hw
      · exact h.owned x hmem w hw
      · exact List.mem_singleton.1 hw ▸ hown
    · exact h.owned y hy w hw
  · exact hlocks

/-- A commit: the keys of the others' rows are still free, as they hold the locks. -/
theorem publish (h : Indexed key owns s)
    (hdistinct : ∀ t u k, owns t k → owns u k → t = u) (hx : s.txns.get? x.id = some x) :
    Indexed key owns (s.publish (keyed key) x) := by
  have hmem : x ∈ s.txns.rows := (Table.get?_eq_some.1 hx).1
  have hsub : ∀ y ∈ (s.publish (keyed key) x).txns.rows,
      y.writes = [] ∨ y ∈ s.txns.rows ∧ x.id ≠ y.id := fun y hy =>
    (Table.mem_put.1 hy).imp (fun he => by rw [he]) id
  have hrest : Indexed key owns ⟨s.committed, (s.publish (keyed key) x).txns⟩ :=
    h.of_fewer rfl fun y hy => (hsub y hy).imp_right And.left
  refine ⟨h.unique_view hmem, fun y hy w hw => ?_, hrest.apart, hrest.owned, hrest.locks⟩
  rcases hsub y hy with hnil | ⟨hy', hne⟩
  · rw [hnil] at hw
    cases hw
  · refine (h.free y hy' w hw).append (h.rows_view hmem) (fun r hr hpk => ?_) fun r hr => ?_
    · exact hne (hdistinct _ _ _ (h.owned x hmem r hr) (hpk ▸ h.owned y hy' w hw))
    · exact h.locks x hmem y hy' hne r hr w hw

end Indexed

variable [DecidableEq T] [DecidableEq R] {D : Dbms (Table ρ) ρ R A Q V Ex} {t : T}
  {fault : Option Ex} {c : Call A Q} {r : c.Reply V Ex}

/-- **Every call keeps the index**, whoever makes it and whatever fails. -/
theorem indexed_served (hD : Inserts D key) (hdistinct : ∀ t u k, owns t k → owns u k → t = u)
    (hown : ∀ q table r, c = .flush q → D.run q table = .ok [r] → owns t (pk r))
    (h : Indexed key owns s) (hserved : Served D t s fault c s' r) : Indexed key owns s' := by
  have hlocks : LocksDisjoint (keyed key) s' :=
    hD.engine ▸ locksDisjoint_served (hD.engine.symm ▸ h.locks) hserved
  cases hserved with
  | renewed =>
    exact h.of_fewer rfl fun x hx => (Table.mem_put.1 hx).imp (fun he => by rw [he]) And.left
  | failed => exact h
  | aborted => exact h.of_fewer rfl fun x hx => .inr (Table.mem_erase.1 hx).1
  | queried => exact h
  | flushed q x ws hx hrun =>
    obtain rfl : x.id = t := Table.pk_of_get? hx
    obtain ⟨r, rfl, hfree⟩ := hD.run q _ ws hrun
    exact h.wrote hx (hD.engine ▸ hfree) (hown q _ r rfl hrun) hlocks
  | committed x hx =>
    obtain rfl : x.id = t := Table.pk_of_get? hx
    rw [hD.engine]
    exact h.publish hdistinct hx

end ReadCommitted
