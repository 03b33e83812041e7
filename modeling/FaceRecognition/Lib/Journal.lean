import Mathlib.Data.List.Induction
import FaceRecognition.Lib.Sessions

/-!
# The journal of a database

Statements that change each row by a function of this row alone, and lock the rows they change.
READ COMMITTED then loses nothing of what they do: however the transactions are interleaved, the
committed rows are the initial ones with the changes of the committed transactions played one after
another, in the order of the commits (`replay`). The journal is the list of these changes, each with
the client that made it.
-/

namespace ReadCommitted

open Relational UnitOfWork

variable {T Db W R A Q V Ex κ σ α : Type}

/-! ### Changes -/

/-- A change of what is stored under one key. -/
structure Change (κ σ : Type) where
  key : κ
  new : σ → σ

section play
variable [DecidableEq κ] {f g : κ → σ} {cs : List (Change κ σ)} {k : κ}

def Change.on (f : κ → σ) (c : Change κ σ) : κ → σ := Function.update f c.key (c.new (f c.key))

/-- The changes, one after another. -/
def play (f : κ → σ) (cs : List (Change κ σ)) : κ → σ := cs.foldl Change.on f

theorem play_append (f : κ → σ) (cs ds : List (Change κ σ)) :
    play f (cs ++ ds) = play (play f cs) ds := List.foldl_append ..

theorem play_congr (h : f k = g k) : play f cs k = play g cs k := by
  induction cs generalizing f g with
  | nil => exact h
  | cons c cs ih =>
    refine ih ?_
    by_cases hk : k = c.key
    · subst hk
      simp [Change.on, h]
    · simp [Change.on, hk, h]

theorem play_of_ne (h : ∀ c ∈ cs, c.key ≠ k) : play f cs k = f k := by
  induction cs generalizing f with
  | nil => rfl
  | cons c cs ih =>
    have hk : k ≠ c.key := (h c List.mem_cons_self).symm
    exact (ih fun d hd => h d (List.mem_cons_of_mem c hd)).trans (Function.update_of_ne hk _ f)

/-- What the last change of `k` that matters for `g` has left. The other ones do not change it. -/
theorem last_change {α β : Type} {g : σ → β} {P : α × Change κ σ → Prop} (f : κ → σ) (k : κ)
    (h : List (α × Change κ σ))
    (hkeep : ∀ e ∈ h, e.2.key = k → ¬ P e → ∀ s, g (e.2.new s) = g s) :
    (∃ before e after s, h = before ++ e :: after ∧ e.2.key = k ∧ P e ∧
        g (play f (h.map Prod.snd) k) = g (e.2.new s) ∧ ∀ e' ∈ after, e'.2.key = k → ¬ P e') ∨
      (g (play f (h.map Prod.snd) k) = g (f k) ∧ ∀ e ∈ h, e.2.key = k → ¬ P e) := by
  induction h using List.reverseRecOn with
  | nil => exact .inr ⟨rfl, fun _ he => by cases he⟩
  | append_singleton h e ih =>
    have hplay : play f ((h ++ [e]).map Prod.snd) = e.2.on (play f (h.map Prod.snd)) := by
      rw [List.map_append, play_append]
      rfl
    rw [hplay]
    by_cases hP : e.2.key = k ∧ P e
    · obtain ⟨rfl, hP⟩ := hP
      exact .inl ⟨h, e, [], _, rfl, rfl, hP, by rw [Change.on, Function.update_self],
        fun _ he => by cases he⟩
    · have hsame : g (e.2.on (play f (h.map Prod.snd)) k) = g (play f (h.map Prod.snd) k) := by
        by_cases hk : e.2.key = k
        · subst hk
          rw [Change.on, Function.update_self]
          exact hkeep e (by simp) rfl (fun h => hP ⟨rfl, h⟩) _
        · rw [Change.on, Function.update_of_ne (Ne.symm hk)]
      have hlast : ∀ e' ∈ [e], e'.2.key = k → ¬ P e' := fun e' he' hk h => by
        obtain rfl := List.mem_singleton.1 he'
        exact hP ⟨hk, h⟩
      rw [hsame]
      rcases ih fun e' he' => hkeep e' (List.mem_append_left _ he') with
        ⟨before, e', after, s, rfl, hk, hP', heq, hafter⟩ | ⟨heq, hnone⟩
      · refine .inl ⟨before, e', after ++ [e], s, by simp, hk, hP', heq, fun e'' he'' => ?_⟩
        exact (List.mem_append.1 he'').elim (hafter e'') (hlast e'')
      · refine .inr ⟨heq, fun e' he' => ?_⟩
        exact (List.mem_append.1 he').elim (hnone e') (hlast e')

end play

/-- A statement that succeeds makes `changes`, and each of them writes the row of its key. -/
structure Rowwise [DecidableEq κ] (D : Dbms Db W R A Q V Ex) (look : Db → κ → σ) (lock : κ → R)
    (changes : Q → Db → List (Change κ σ)) : Prop where
  reads : ∀ k, Reads D.engine (fun db => look db k) (lock k)
  run : ∀ q db ws, D.run q db = .ok ws →
    look (D.engine.applyAll db ws) = play (look db) (changes q db)
  locked : ∀ q db ws, D.run q db = .ok ws → ∀ c ∈ changes q db, ∃ w ∈ ws, D.engine.row w = lock c.key

/-! ### The journal -/

structure Journal (T κ σ : Type) where
  /-- The changes of the committed transactions, in the order of the commits. -/
  published : List (T × Change κ σ)
  /-- The changes of the open transaction of each client. -/
  pending : T → List (Change κ σ)

namespace Journal
variable [DecidableEq T]

def empty : Journal T κ σ := ⟨[], fun _ => []⟩

def clear (j : Journal T κ σ) (t : T) : Journal T κ σ :=
  { j with pending := Function.update j.pending t [] }

def add (j : Journal T κ σ) (t : T) (cs : List (Change κ σ)) : Journal T κ σ :=
  { j with pending := Function.update j.pending t (j.pending t ++ cs) }

def publish (j : Journal T κ σ) (t : T) : Journal T κ σ where
  published := j.published ++ (j.pending t).map fun c => (t, c)
  pending := Function.update j.pending t []

section
variable (j : Journal T κ σ) (t : T) (cs : List (Change κ σ)) {u : T}

@[simp] theorem pending_clear_self : (j.clear t).pending t = [] := Function.update_self ..

@[simp] theorem pending_add_self : (j.add t cs).pending t = j.pending t ++ cs :=
  Function.update_self ..

@[simp] theorem pending_publish_self : (j.publish t).pending t = [] := Function.update_self ..

theorem pending_clear_of_ne (hu : u ≠ t) : (j.clear t).pending u = j.pending u :=
  Function.update_of_ne hu ..

theorem pending_add_of_ne (hu : u ≠ t) : (j.add t cs).pending u = j.pending u :=
  Function.update_of_ne hu ..

theorem pending_publish_of_ne (hu : u ≠ t) : (j.publish t).pending u = j.pending u :=
  Function.update_of_ne hu ..

end

variable (D : Dbms Db W R A Q V Ex) (changes : Q → Db → List (Change κ σ))

/-- What a call of `t` in the state `s` adds to the journal. -/
def note (j : Journal T κ σ) (t : T) (fault : Option Ex) (s : State T Db W) :
    Call A Q → Journal T κ σ
  | .begin | .close => j.clear t
  | .rollback => if fault.isNone then j.clear t else j
  | .query _ => j
  | .flush q =>
    match s.txns.get? t with
    | none => j
    | some x =>
      match attempt fault (D.run q (view D.engine s x)) with
      | .error _ => j
      | .ok _ => j.add t (changes q (view D.engine s x))
  | .commit => if fault.isNone && (s.txns.get? t).isSome then j.publish t else j

def event (j : Journal T κ σ) (l : World T Db W A Q V Ex α × (T × Option Ex)) : Journal T κ σ :=
  match l.1.client l.2.1 with
  | .pure _ => j
  | .call c _ => j.note D changes l.2.1 l.2.2 l.1.server c

end Journal

/-- The journal of the events. -/
def journal [DecidableEq T] (D : Dbms Db W R A Q V Ex) (changes : Q → Db → List (Change κ σ))
    (tr : List (World T Db W A Q V Ex α × (T × Option Ex))) : Journal T κ σ :=
  tr.foldl (Journal.event D changes) .empty

/-! ### What the journal says of the database -/

section serial
variable [DecidableEq κ] {D : Dbms Db W R A Q V Ex} {look : Db → κ → σ} {lock : κ → R}
  {changes : Q → Db → List (Change κ σ)} {f : κ → σ}

/-- The committed rows are those after the published changes, and a transaction sees its pending
changes on top of them, whose rows it holds. -/
structure Serial (D : Dbms Db W R A Q V Ex) (look : Db → κ → σ) (lock : κ → R) (f : κ → σ)
    (s : State T Db W) (j : Journal T κ σ) : Prop where
  locks : LocksDisjoint D.engine s
  committed : look s.committed = play f (j.published.map Prod.snd)
  view : ∀ x ∈ s.txns.rows, look (view D.engine s x) = play (look s.committed) (j.pending x.id)
  locked : ∀ x ∈ s.txns.rows, ∀ c ∈ j.pending x.id, ∃ w ∈ x.writes, D.engine.row w = lock c.key

/-- The transactions after one of them has been written. -/
theorem mem_put_txn [DecidableEq T] {txns : Table (Txn T W)} {t : T} {ws : List W} {y : Txn T W}
    (h : y ∈ (txns.put ⟨t, ws⟩).rows) : y = ⟨t, ws⟩ ∨ y ∈ txns.rows ∧ y.id ≠ t :=
  (Table.mem_put.1 h).imp_right (And.imp_right Ne.symm)

namespace Serial
variable {s s' : State T Db W} {j j' : Journal T κ σ} {x : Txn T W}

theorem start (db : Db) :
    Serial D look lock (look db) (⟨db, Table.empty⟩ : State T Db W) (⟨[], fun _ => []⟩) where
  locks _ hx := by cases hx
  committed := rfl
  view _ hx := by cases hx
  locked _ hx := by cases hx

/-- Transactions that are as before, or new. -/
theorem of_fewer (h : Serial D look lock f s j) (hcommitted : s'.committed = s.committed)
    (hpublished : j'.published = j.published)
    (htxns : ∀ x ∈ s'.txns.rows, x.writes = [] ∧ j'.pending x.id = [] ∨
      x ∈ s.txns.rows ∧ j'.pending x.id = j.pending x.id) : Serial D look lock f s' j' := by
  constructor
  · refine h.locks.of_fewer fun x hx w hw => ?_
    rcases htxns x hx with ⟨hnil, -⟩ | ⟨hx', -⟩
    · rw [hnil] at hw
      cases hw
    · exact ⟨x, hx', rfl, hw⟩
  · rw [hcommitted, hpublished, h.committed]
  · intro x hx
    rcases htxns x hx with ⟨hnil, hpending⟩ | ⟨hx', hpending⟩
    · rw [ReadCommitted.view, hnil, hpending]
      rfl
    · rw [hpending, hcommitted, ← h.view x hx', ReadCommitted.view, hcommitted]
      rfl
  · intro x hx c hc
    rcases htxns x hx with ⟨-, hpending⟩ | ⟨hx', hpending⟩ <;> rw [hpending] at hc
    · cases hc
    · exact h.locked x hx' c hc

variable [DecidableEq T]

theorem renew (h : Serial D look lock f s j) (t : T) :
    Serial D look lock f (s.renew t) (j.clear t) := by
  refine h.of_fewer rfl rfl fun x hx => ?_
  rcases mem_put_txn hx with rfl | ⟨hx, hne⟩
  · exact .inl ⟨rfl, j.pending_clear_self t⟩
  · exact .inr ⟨hx, j.pending_clear_of_ne t hne⟩

theorem abort (h : Serial D look lock f s j) (t : T) : Serial D look lock f (s.abort t) j :=
  h.of_fewer rfl rfl fun _ hx => .inr ⟨(Table.mem_erase.1 hx).1, rfl⟩

/-- A statement of the transaction `x`. -/
theorem wrote [DecidableEq R] (hD : Rowwise D look lock changes) (h : Serial D look lock f s j)
    (hx : s.txns.get? x.id = some x) {q : Q} {ws : List W}
    (hrun : D.run q (ReadCommitted.view D.engine s x) = .ok ws)
    (hlocks : LocksDisjoint D.engine (s.wrote x ws)) :
    Serial D look lock f (s.wrote x ws)
      (j.add x.id (changes q (ReadCommitted.view D.engine s x))) := by
  have hmem : x ∈ s.txns.rows := (Table.get?_eq_some.1 hx).1
  refine ⟨hlocks, h.committed, fun y hy => ?_, fun y hy c hc => ?_⟩
  · rcases mem_put_txn hy with rfl | ⟨hy, hne⟩
    · show look (D.engine.applyAll s.committed (x.writes ++ ws)) = play (look s.committed) _
      rw [Journal.pending_add_self, play_append, ← h.view x hmem, ← hD.run q _ ws hrun,
        D.engine.applyAll_append]
      rfl
    · rw [Journal.pending_add_of_ne _ _ _ hne]
      exact h.view y hy
  · rcases mem_put_txn hy with rfl | ⟨hy, hne⟩
    · rw [Journal.pending_add_self] at hc
      rcases List.mem_append.1 hc with hc | hc
      · obtain ⟨w, hw, hrow⟩ := h.locked x hmem c hc
        exact ⟨w, List.mem_append_left ws hw, hrow⟩
      · obtain ⟨w, hw, hrow⟩ := hD.locked q _ ws hrun c hc
        exact ⟨w, List.mem_append_right x.writes hw, hrow⟩
    · rw [Journal.pending_add_of_ne _ _ _ hne] at hc
      exact h.locked y hy c hc

/-- A commit. What the others see of a row they hold was not changed by it, and of the other rows
they see what it has changed. -/
theorem publish (hD : Rowwise D look lock changes) (h : Serial D look lock f s j)
    (hx : s.txns.get? x.id = some x) :
    Serial D look lock f (s.publish D.engine x) (j.publish x.id) := by
  have hmem : x ∈ s.txns.rows := (Table.get?_eq_some.1 hx).1
  constructor
  · refine h.locks.of_fewer fun y hy w hw => ?_
    rcases mem_put_txn hy with rfl | ⟨hy, -⟩
    · cases hw
    · exact ⟨y, hy, rfl, hw⟩
  · show look (ReadCommitted.view D.engine s x) = play f ((j.publish x.id).published.map Prod.snd)
    rw [h.view x hmem, h.committed, ← play_append, Journal.publish, List.map_append, List.map_map]
    congr 2
    exact (List.map_id _).symm
  · intro y hy
    rcases mem_put_txn hy with rfl | ⟨hy, hne⟩
    · rw [Journal.pending_publish_self]
      rfl
    · rw [Journal.pending_publish_of_ne _ _ hne]
      funext k
      have hview := congrFun (h.view y hy) k
      show look (D.engine.applyAll (ReadCommitted.view D.engine s x) y.writes) k =
        play (look (ReadCommitted.view D.engine s x)) (j.pending y.id) k
      by_cases hheld : ∃ w ∈ y.writes, D.engine.row w = lock k
      · have hsame : look (ReadCommitted.view D.engine s x) k = look s.committed k := by
          refine (hD.reads k).of_unwritten fun w hw hrow => ?_
          obtain ⟨w', hw', hrow'⟩ := hheld
          exact h.locks x hmem y hy (Ne.symm hne) w hw w' hw' (hrow.trans hrow'.symm)
        rw [play_congr hsame, ← hview]
        exact (hD.reads k).of_written hheld
      · have hfree : ∀ c ∈ j.pending y.id, c.key ≠ k := fun c hc hk =>
          hheld (hk ▸ h.locked y hy c hc)
        rw [play_of_ne hfree]
        exact (hD.reads k).of_unwritten fun w hw hrow => hheld ⟨w, hw, hrow⟩
  · intro y hy c hc
    rcases mem_put_txn hy with rfl | ⟨hy, hne⟩
    · rw [Journal.pending_publish_self] at hc
      cases hc
    · rw [Journal.pending_publish_of_ne _ _ hne] at hc
      exact h.locked y hy c hc

/-- **Every call keeps the journal true.** -/
theorem serve [DecidableEq R] (hD : Rowwise D look lock changes) (h : Serial D look lock f s j)
    {t : T} {fault : Option Ex} {c : Call A Q} {r : c.Reply V Ex}
    (hserve : ReadCommitted.serve D t fault s c = some (s', r)) :
    Serial D look lock f s' (j.note D changes t fault s c) := by
  have hlocks := locksDisjoint_served h.locks (served_of_serve hserve)
  cases c with
  | begin =>
    cases hserve
    exact h.renew t
  | close =>
    cases hserve
    exact h.renew t
  | rollback =>
    cases fault with
    | some e =>
      cases hserve
      exact h
    | none =>
      cases hserve
      exact h.renew t
  | query a =>
    simp only [ReadCommitted.serve] at hserve
    split at hserve
    · cases hserve
      exact h
    · split at hserve <;> cases hserve
      · exact h.abort t
      · exact h
  | flush q =>
    simp only [ReadCommitted.serve] at hserve
    rw [Journal.note]
    cases hx : s.txns.get? t with
    | none =>
      rw [hx] at hserve
      cases hserve
      exact h
    | some x =>
      rw [hx] at hserve
      dsimp only at hserve ⊢
      cases hrun : attempt fault (D.run q (ReadCommitted.view D.engine s x)) with
      | error e =>
        rw [hrun] at hserve
        cases hserve
        exact h.abort t
      | ok ws =>
        rw [hrun] at hserve
        dsimp only at hserve
        split_ifs at hserve
        cases hserve
        obtain rfl : x.id = t := Table.pk_of_get? hx
        exact h.wrote hD hx (attempt_eq_ok.1 hrun).2 hlocks
  | commit =>
    simp only [ReadCommitted.serve] at hserve
    rw [Journal.note]
    cases hx : s.txns.get? t with
    | none =>
      rw [hx] at hserve
      cases hserve
      rw [Option.isSome_none, Bool.and_false]
      exact h
    | some x =>
      rw [hx] at hserve
      cases fault with
      | some e =>
        cases hserve
        exact h.abort t
      | none =>
        cases hserve
        obtain rfl : x.id = t := Table.pk_of_get? hx
        exact h.publish hD hx

end Serial

variable [DecidableEq T] [DecidableEq R]

theorem serial_turn (hD : Rowwise D look lock changes) {w w' : World T Db W A Q V Ex α}
    {j : Journal T κ σ} {l : T × Option Ex} (h : Serial D look lock f w.server j)
    (hturn : turn D w l = some w') :
    Serial D look lock f w'.server (j.event D changes (w, l)) := by
  obtain ⟨t, fault⟩ := l
  rw [Journal.event]
  cases hclient : w.client t with
  | pure a =>
    rw [turn] at hturn
    dsimp only at hturn
    rw [hclient] at hturn
    cases hturn
  | call c next =>
    obtain ⟨s', r, hserve, rfl⟩ := turn_call hclient hturn
    exact h.serve hD hserve

/-- **Nothing is lost.** The committed rows are the initial ones with the changes of the committed
transactions, in the order of the commits. -/
theorem replay (hD : Rowwise D look lock changes) {db : Db}
    {client : T → Client.Prog (Call A Q) (Call.Reply V Ex) α} {ls : List (T × Option Ex)}
    {w : World T Db W A Q V Ex α}
    (hrun : Run.exec (turn D) ⟨⟨db, Table.empty⟩, client⟩ ls = some w) :
    Serial D look lock (look db) w.server
      (journal D changes (Run.trace (turn D) ⟨⟨db, Table.empty⟩, client⟩ ls)) := by
  refine Run.trace_inv (J := fun tr w => Serial D look lock (look db) w.server (journal D changes tr))
    (fun tr w l w' h hturn => ?_) (Serial.start db) hrun
  rw [journal, List.foldl_append]
  exact serial_turn hD h hturn

end serial

end ReadCommitted
