import FaceRecognition.Lib.Run
import FaceRecognition.Lib.Table

/-!
# Transactions under READ COMMITTED

An engine applies writes to a database, each write to one row. An open transaction holds the writes
it made; its statements see the committed database overlaid with these writes (`view`), and its
rows are locked until it ends: a statement that would write a row some other open transaction has
written is not enabled. Commit applies the writes, rollback drops them.

What is generic about such systems: the writes of two open transactions never meet
(`LocksDisjoint`, kept by every step), and a reading of a single row is decided by the last write
to it (`Reads.of_written`), or by the committed database when there is none (`Reads.of_unwritten`).
-/

namespace ReadCommitted

open Relational

structure Engine (Db W R : Type) where
  apply : Db → W → Db
  row : W → R

/-- An open transaction and its writes, oldest first. -/
structure Txn (T W : Type) where
  id : T
  writes : List W

instance {T W : Type} : PrimaryKey (Txn T W) T := ⟨Txn.id⟩

structure State (T Db W : Type) where
  committed : Db
  txns : Table (Txn T W)

inductive Act (T Q : Type) where
  | begin (t : T)
  | exec (t : T) (q : Q)
  | commit (t : T)
  | rollback (t : T)

variable {T Db W R Q V : Type}

def Engine.applyAll (E : Engine Db W R) (db : Db) (ws : List W) : Db := ws.foldl E.apply db

theorem Engine.applyAll_append (E : Engine Db W R) (db : Db) (ws ws' : List W) :
    E.applyAll db (ws ++ ws') = E.applyAll (E.applyAll db ws) ws' := List.foldl_append ..

/-- What a transaction with these writes sees. -/
def view (E : Engine Db W R) (s : State T Db W) (x : Txn T W) : Db :=
  E.applyAll s.committed x.writes

/-! ### Readings of one row -/

/-- `look` reads row `r` and nothing else. -/
structure Reads (E : Engine Db W R) (look : Db → V) (r : R) : Prop where
  other : ∀ db w, E.row w ≠ r → look (E.apply db w) = look db
  own : ∀ db db' w, E.row w = r → look (E.apply db w) = look (E.apply db' w)

theorem Reads.comp {U : Type} {E : Engine Db W R} {look : Db → V} {r : R} (h : Reads E look r)
    (g : V → U) : Reads E (fun db => g (look db)) r where
  other db w hw := congrArg g (h.other db w hw)
  own db db' w hw := congrArg g (h.own db db' w hw)

theorem Reads.of_unwritten {E : Engine Db W R} {look : Db → V} {r : R} (h : Reads E look r)
    {db : Db} {ws : List W} (hws : ∀ w ∈ ws, E.row w ≠ r) : look (E.applyAll db ws) = look db := by
  induction ws generalizing db with
  | nil => rfl
  | cons w ws ih =>
    rw [show E.applyAll db (w :: ws) = E.applyAll (E.apply db w) ws from rfl,
      ih fun w' hw' => hws w' (by simp [hw']), h.other _ _ (hws w (by simp))]

theorem last_write {E : Engine Db W R} {r : R} {ws : List W} (h : ∃ w ∈ ws, E.row w = r) :
    ∃ before w after, ws = before ++ w :: after ∧ E.row w = r ∧ ∀ w' ∈ after, E.row w' ≠ r := by
  induction ws with
  | nil => simp at h
  | cons w ws ih =>
    by_cases hrest : ∃ w' ∈ ws, E.row w' = r
    · obtain ⟨before, w', after, rfl, hw', hafter⟩ := ih hrest
      exact ⟨w :: before, w', after, rfl, hw', hafter⟩
    · obtain ⟨w', hw', he⟩ := h
      rcases List.mem_cons.1 hw' with rfl | hw'
      · exact ⟨[], w', ws, rfl, he, fun v hv hr => hrest ⟨v, hv, hr⟩⟩
      · exact absurd ⟨w', hw', he⟩ hrest

theorem Reads.of_written {E : Engine Db W R} {look : Db → V} {r : R} (h : Reads E look r)
    {db db' : Db} {ws : List W} (hws : ∃ w ∈ ws, E.row w = r) :
    look (E.applyAll db ws) = look (E.applyAll db' ws) := by
  obtain ⟨before, w, after, rfl, hw, hafter⟩ := last_write hws
  have hlast : ∀ db, look (E.applyAll db (before ++ w :: after)) =
      look (E.apply (E.applyAll db before) w) := by
    intro db
    rw [E.applyAll_append]
    exact h.of_unwritten hafter
  rw [hlast, hlast]
  exact h.own _ _ w hw

/-! ### Steps -/

variable [DecidableEq T] [DecidableEq R]

/-- No other open transaction has written a row of `ws`. -/
def unlocked (E : Engine Db W R) (s : State T Db W) (t : T) (ws : List W) : Bool :=
  s.txns.rows.all fun y => y.id = t || y.writes.all fun w' => ws.all fun w => E.row w' ≠ E.row w

def step (E : Engine Db W R) (run : Q → Db → Option (List W)) (s : State T Db W) :
    Act T Q → Option (State T Db W)
  | .begin t =>
    match s.txns.get? t with
    | none => some { s with txns := s.txns.put ⟨t, []⟩ }
    | some _ => none
  | .exec t q =>
    match s.txns.get? t with
    | none => none
    | some x =>
      match run q (view E s x) with
      | none => none
      | some ws =>
        if unlocked E s t ws then some { s with txns := s.txns.put ⟨t, x.writes ++ ws⟩ } else none
  | .commit t =>
    match s.txns.get? t with
    | none => none
    | some x => some ⟨view E s x, s.txns.erase t⟩
  | .rollback t =>
    match s.txns.get? t with
    | none => none
    | some _ => some { s with txns := s.txns.erase t }

section
variable {E : Engine Db W R} {run : Q → Db → Option (List W)} {s s' : State T Db W}

theorem step_begin {t : T} (h : step E run s (.begin t) = some s') :
    s.txns.get? t = none ∧ s' = { s with txns := s.txns.put ⟨t, []⟩ } := by
  simp only [step] at h
  split at h
  · exact ⟨‹_›, (Option.some.inj h).symm⟩
  · cases h

theorem step_exec {t : T} {q : Q} (h : step E run s (.exec t q) = some s') :
    ∃ x ws, s.txns.get? t = some x ∧ run q (view E s x) = some ws ∧ unlocked E s t ws = true ∧
      s' = { s with txns := s.txns.put ⟨t, x.writes ++ ws⟩ } := by
  simp only [step] at h
  split at h
  · cases h
  · split at h
    · cases h
    · split_ifs at h with hu
      exact ⟨_, _, ‹_›, ‹_›, hu, (Option.some.inj h).symm⟩

theorem step_commit {t : T} (h : step E run s (.commit t) = some s') :
    ∃ x, s.txns.get? t = some x ∧ s' = ⟨view E s x, s.txns.erase t⟩ := by
  simp only [step] at h
  split at h
  · cases h
  · exact ⟨_, ‹_›, (Option.some.inj h).symm⟩

theorem step_rollback {t : T} (h : step E run s (.rollback t) = some s') :
    ∃ x, s.txns.get? t = some x ∧ s' = { s with txns := s.txns.erase t } := by
  simp only [step] at h
  split at h
  · cases h
  · exact ⟨_, ‹_›, (Option.some.inj h).symm⟩

end

/-! ### Locks -/

/-- No row has been written by two open transactions. -/
def LocksDisjoint (E : Engine Db W R) (s : State T Db W) : Prop :=
  ∀ x ∈ s.txns.rows, ∀ y ∈ s.txns.rows, x.id ≠ y.id →
    ∀ w ∈ x.writes, ∀ w' ∈ y.writes, E.row w ≠ E.row w'

theorem unlocked_iff {E : Engine Db W R} {s : State T Db W} {t : T} {ws : List W} :
    unlocked E s t ws = true ↔ ∀ y ∈ s.txns.rows, y.id ≠ t →
      ∀ w' ∈ y.writes, ∀ w ∈ ws, E.row w' ≠ E.row w := by
  simp [unlocked, or_iff_not_imp_left]

theorem locksDisjoint_step {E : Engine Db W R} {run : Q → Db → Option (List W)}
    {s s' : State T Db W} {a : Act T Q} (hl : LocksDisjoint E s)
    (h : step E run s a = some s') : LocksDisjoint E s' := by
  cases a with
  | begin t =>
    obtain ⟨-, rfl⟩ := step_begin h
    intro x hx y hy hne w hw w' hw'
    rcases Table.mem_put.1 hx with rfl | ⟨hx, -⟩
    · cases hw
    · rcases Table.mem_put.1 hy with rfl | ⟨hy, -⟩
      · cases hw'
      · exact hl x hx y hy hne w hw w' hw'
  | exec t q =>
    obtain ⟨z, ws, hz, -, hu, rfl⟩ := step_exec h
    obtain ⟨hzmem, rfl⟩ := Table.get?_eq_some.1 hz
    rw [unlocked_iff] at hu
    intro x hx y hy hne w hw w' hw'
    rcases Table.mem_put.1 hx with rfl | ⟨hx, hxz⟩
    · rcases Table.mem_put.1 hy with rfl | ⟨hy, -⟩
      · exact absurd rfl hne
      · rcases List.mem_append.1 hw with hw | hw
        · exact hl z hzmem y hy hne w hw w' hw'
        · exact (hu y hy (Ne.symm hne) w' hw' w hw).symm
    · rcases Table.mem_put.1 hy with rfl | ⟨hy, -⟩
      · rcases List.mem_append.1 hw' with hw' | hw'
        · exact hl x hx z hzmem hne w hw w' hw'
        · exact hu x hx hne w hw w' hw'
      · exact hl x hx y hy hne w hw w' hw'
  | commit t =>
    obtain ⟨z, -, rfl⟩ := step_commit h
    intro x hx y hy
    exact hl x (Table.mem_erase.1 hx).1 y (Table.mem_erase.1 hy).1
  | rollback t =>
    obtain ⟨z, -, rfl⟩ := step_rollback h
    intro x hx y hy
    exact hl x (Table.mem_erase.1 hx).1 y (Table.mem_erase.1 hy).1

end ReadCommitted
