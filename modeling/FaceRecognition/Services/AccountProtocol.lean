import Mathlib.Data.List.Pairwise
import FaceRecognition.Lib.UniqueInserts
import FaceRecognition.Services.AccountRequests

/-!
# The protocol of account creation

Any number of the requests run interleaved, statement by statement, under READ COMMITTED. A client
is at a point of its program, and the writes of its transaction are those of the point
(`turn_code`). `Known` is what a client has been told there, by events of the run; `Decided` sums
up what its answer rests on, the users committed when it looked its username up and when it
inserted.
-/

namespace FaceRecognition.Services.AccountRaces

open Relational Db UnitOfWork ReadCommitted Security AuthService

variable {T : Type}

section
variable [DecidableEq T]

/-- The transaction of a client that is at `p`. -/
structure Stands (s : State T Users User) (t : T) (p : Point) : Prop where
  opened : p.isOpen = true → s.txns.get? t = some ⟨t, p.writes⟩
  writes : ∀ x, s.txns.get? t = some x → x.writes = p.writes

theorem stands_open {s : State T Users User} {t : T} {p : Point}
    (h : s.txns.get? t = some ⟨t, p.writes⟩) : Stands s t p :=
  ⟨fun _ => h, fun x hx => by rw [Option.some.inj (hx.symm.trans h)]⟩

theorem Stands.of_same {s s' : State T Users User} {t : T} {p : Point} (h : Stands s t p)
    (hsame : s'.txns.get? t = s.txns.get? t) : Stands s' t p :=
  ⟨fun hp => hsame.trans (h.opened hp), fun x hx => h.writes x (hsame.symm.trans hx)⟩

theorem stands_none {s : State T Users User} {t : T} {p : Point} (hp : p.isOpen = false)
    (h : s.txns.get? t = none) : Stands s t p :=
  ⟨fun hopen => (Bool.false_ne_true (hp.symm.trans hopen)).elim,
    fun _ hx => (Option.some_ne_none _ (hx.symm.trans h)).elim⟩

variable {task : Task} {w w' : World T} {t : T} {fault : Option Exc} {p : Point}

theorem not_isOpen_fail (e : Exc) : (task.fail e).isOpen = false := by
  cases task <;> rfl

theorem writes_fail (e : Exc) : (task.fail e).writes = [] := by
  cases task <;> rfl

variable (task) in
theorem writes_looked (found : Option User) : (task.looked found).writes = [] := by
  cases found with
  | some u =>
    dsimp only [Task.looked]
    cases task.taken with
    | error e => exact writes_fail e
    | ok a => rfl
  | none =>
    dsimp only [Task.looked]
    cases task.row with
    | error e => exact writes_fail e
    | ok u => rfl

/-- What a turn does. -/
theorem turn_code (hcode : w.client t = task.code p) (hstands : Stands w.server t p)
    (h : turn usersDbms w (t, fault) = some w') :
    w'.client = Function.update w.client t
        (task.code (task.advance fault w.server.committed p)) ∧
      Stands w'.server t (task.advance fault w.server.committed p) ∧
      w'.server.committed = usersEngine.applyAll w.server.committed (p.publishes fault) := by
  have hfailed : ∀ e, Stands (w.server.abort t) t (task.fail e) := fun e =>
    stands_none (not_isOpen_fail e) (State.get?_abort ..)
  have hfailing : ∀ e, Function.update w.client t (task.failing e) =
      Function.update w.client t (task.code (task.fail e)) := fun e =>
    congrArg (Function.update w.client t) (task.code_fail e).symm
  cases p with
  | begin =>
    obtain ⟨s', r, hserve, rfl⟩ := turn_call (hcode.trans task.code_begin) h
    cases hserve
    exact ⟨rfl, stands_open (State.get?_renew ..), by cases fault <;> rfl⟩
  | lookup =>
    obtain ⟨s', r, hserve, rfl⟩ := turn_call hcode h
    simp only [serve, hstands.opened rfl] at hserve
    cases fault with
    | some e =>
      cases hserve
      exact ⟨hfailing e, hfailed e, rfl⟩
    | none =>
      cases hserve
      have hwrites := writes_looked task (findUser task.username w.server.committed)
      refine ⟨congrArg (Function.update w.client t) ?_, stands_open ?_, rfl⟩
      · show _ = task.code (task.looked (findUser task.username w.server.committed))
        rw [task.code_looked, show usersDbms.look task.username (view usersDbms.engine w.server ⟨t, _⟩) =
          findUser task.username w.server.committed from rfl]
        cases findUser task.username w.server.committed <;> rfl
      · exact (hstands.opened rfl).trans (by rw [Task.advance, attempt_none, hwrites]; rfl)
  | insert u =>
    obtain ⟨s', r, hserve, rfl⟩ := turn_call hcode h
    simp only [serve, hstands.opened rfl] at hserve
    cases fault with
    | some e =>
      cases hserve
      exact ⟨hfailing e, hfailed e, rfl⟩
    | none =>
      rw [attempt_none, show usersDbms.run u (view usersDbms.engine w.server ⟨t, _⟩) =
        insertUser u w.server.committed from rfl] at hserve
      simp only [Task.advance, attempt_none]
      cases hinsert : insertUser u w.server.committed with
      | error e =>
        rw [hinsert] at hserve
        cases hserve
        exact ⟨hfailing e, hfailed e, rfl⟩
      | ok ws =>
        obtain ⟨-, -, rfl⟩ := insertUser_ok hinsert
        rw [hinsert] at hserve
        simp only at hserve
        split_ifs at hserve
        cases hserve
        exact ⟨rfl, stands_open (State.get?_wrote ..), rfl⟩
  | commit wrote =>
    obtain ⟨s', r, hserve, rfl⟩ := turn_call hcode h
    simp only [serve, hstands.opened rfl] at hserve
    cases fault with
    | some e =>
      cases hserve
      exact ⟨hfailing e, hfailed e, rfl⟩
    | none =>
      cases hserve
      exact ⟨rfl, stands_open (State.get?_publish ..), rfl⟩
  | rollback e =>
    obtain ⟨s', r, hserve, rfl⟩ := turn_call hcode h
    cases fault with
    | some e' =>
      cases hserve
      exact ⟨rfl, ⟨fun hopen => (Bool.false_ne_true hopen).elim, hstands.writes⟩, rfl⟩
    | none =>
      cases hserve
      exact ⟨rfl, stands_open (State.get?_renew ..), rfl⟩
  | close r =>
    obtain ⟨s', answer, hserve, rfl⟩ := turn_call hcode h
    cases hserve
    refine ⟨?_, stands_open (State.get?_renew ..), by cases fault <;> rfl⟩
    cases fault <;> rfl
  | done r =>
    rw [turn] at h
    dsimp only at h
    rw [hcode] at h
    cases h

end

/-! ### What a client has been told -/

section
variable (tasks : T → Task) (db : Users)

/-- `uuid4()` gives each client an id of its own, which no user has. -/
structure Fresh : Prop where
  new : ∀ t, db.get? (tasks t).userId = none
  distinct : ∀ t u, (tasks t).userId = (tasks u).userId → t = u

end

abbrev Event (T : Type) := World T × (T × Option Exc)

/-- The event is the call `c` of `t`, and it is served. -/
def Makes (l : Event T) (t : T) (c : Call String User) : Prop :=
  l.2 = (t, none) ∧ ∃ next, l.1.client t = .call c next

def Faulted (tr : List (Event T)) (t : T) : Prop := ∃ v e, (v, (t, some e)) ∈ tr

section
variable (tasks : T → Task) (tr : List (Event T)) (t : T)

/-- The username of `t` was free when it looked it up, and the row that it inserts is `u`. -/
structure Missed (l : Event T) : Prop where
  mem : l ∈ tr
  makes : Makes l t (.query (tasks t).username)
  free : findUser (tasks t).username l.1.server.committed = none

/-- What the committed users at its look up and at its INSERT say the client gets. -/
inductive Decided : Except Exc (Option User) → Prop where
  | taken (l : Event T) (hl : l ∈ tr) (hmakes : Makes l t (.query (tasks t).username))
    (hfound : findUser (tasks t).username l.1.server.committed ≠ none) : Decided (tasks t).taken
  | unhashed (l : Event T) (hl : Missed tasks tr t l) (e : Exc) (hrow : (tasks t).row = .error e) :
    Decided (.error e)
  | refused (l l' : Event T) (hl : Missed tasks tr t l) (hsub : [l, l'].Sublist tr) (u : User)
    (hrow : (tasks t).row = .ok u) (hmakes : Makes l' t (.flush u)) (e : Exc)
    (hid : l'.1.server.committed.get? u.id = none)
    (hinsert : insertUser u l'.1.server.committed = .error e) : Decided (.error e)
  | created (l l' : Event T) (hl : Missed tasks tr t l) (hsub : [l, l'].Sublist tr) (u : User)
    (hrow : (tasks t).row = .ok u) (hmakes : Makes l' t (.flush u))
    (hinsert : insertUser u l'.1.server.committed = .ok [u]) :
    Decided (.ok ((tasks t).created u))

/-- The username is one of a user, and the user that is returned is a row. -/
structure Stored (users : Users) (answer : Option User) : Prop where
  present : ∃ v ∈ users.rows, v.username = (tasks t).username
  row : ∀ u, answer = some u → (tasks t).row = .ok u ∧ u ∈ users.rows

/-- No user has the id that `t` draws. -/
def Absent (users : Users) : Prop := ∀ v ∈ users.rows, v.id ≠ (tasks t).userId

/-- What is known of a client that is at a point. -/
def Known (users : Users) : Point → Prop
  | .begin | .lookup => Absent tasks t users
  | .insert u => Absent tasks t users ∧ (tasks t).row = .ok u ∧ ∃ l, Missed tasks tr t l
  | .commit (some u) => Absent tasks t users ∧ (tasks t).row = .ok u ∧
      Decided tasks tr t (.ok ((tasks t).created u))
  | .commit none => Decided tasks tr t (.ok none) ∧ Stored tasks t users none
  | .rollback e | .close (.error e) | .done (.error e) =>
    Faulted tr t ∨ Decided tasks tr t (.error e) ∧ Absent tasks t users
  | .close (.ok answer) | .done (.ok answer) =>
    Decided tasks tr t (.ok answer) ∧ Stored tasks t users answer

end

variable {tasks : T → Task} {tr tr' : List (Event T)} {t : T} {users users' : Users} {p : Point}

theorem Faulted.mono (h : Faulted tr t) (hsub : tr.Sublist tr') : Faulted tr' t := by
  obtain ⟨v, e, hmem⟩ := h
  exact ⟨v, e, hsub.subset hmem⟩

theorem Missed.mono {l : Event T} (h : Missed tasks tr t l) (hsub : tr.Sublist tr') :
    Missed tasks tr' t l := ⟨hsub.subset h.mem, h.makes, h.free⟩

theorem Decided.mono {r : Except Exc (Option User)} (h : Decided tasks tr t r)
    (hsub : tr.Sublist tr') : Decided tasks tr' t r := by
  cases h with
  | taken l hl hmakes hfound => exact .taken l (hsub.subset hl) hmakes hfound
  | unhashed l hl e hrow => exact .unhashed l (hl.mono hsub) e hrow
  | refused l l' hl hpair u hrow hmakes e hid hinsert =>
    exact .refused l l' (hl.mono hsub) (hpair.trans hsub) u hrow hmakes e hid hinsert
  | created l l' hl hpair u hrow hmakes hinsert =>
    exact .created l l' (hl.mono hsub) (hpair.trans hsub) u hrow hmakes hinsert

theorem Stored.mono {answer : Option User} (h : Stored tasks t users answer)
    (hrows : users.rows ⊆ users'.rows) : Stored tasks t users' answer := by
  obtain ⟨v, hv, hname⟩ := h.present
  exact ⟨⟨v, hrows hv, hname⟩, fun u hu => (h.row u hu).imp_right fun hmem => hrows hmem⟩

/-- What others do. -/
theorem Known.mono (h : Known tasks tr t users p) (hsub : tr.Sublist tr')
    (hrows : users.rows ⊆ users'.rows)
    (hothers : ∀ v ∈ users'.rows, v ∈ users.rows ∨ v.id ≠ (tasks t).userId) :
    Known tasks tr' t users' p := by
  have hnew (hid : Absent tasks t users) : Absent tasks t users' := fun v hv =>
    (hothers v hv).elim (hid v) id
  have hfailed {e : Exc}
      (h : Faulted tr t ∨ Decided tasks tr t (.error e) ∧ Absent tasks t users) :
      Faulted tr' t ∨ Decided tasks tr' t (.error e) ∧ Absent tasks t users' :=
    h.imp (·.mono hsub) (And.imp (·.mono hsub) hnew)
  have hanswered {answer : Option User}
      (h : Decided tasks tr t (.ok answer) ∧ Stored tasks t users answer) :
      Decided tasks tr' t (.ok answer) ∧ Stored tasks t users' answer :=
    h.imp (·.mono hsub) (·.mono hrows)
  match p, h with
  | .begin, h | .lookup, h => exact hnew h
  | .insert u, ⟨hid, hrow, l, hl⟩ => exact ⟨hnew hid, hrow, l, hl.mono hsub⟩
  | .commit (some u), ⟨hid, hrow, hdecided⟩ => exact ⟨hnew hid, hrow, hdecided.mono hsub⟩
  | .commit none, h => exact hanswered h
  | .rollback e, h | .close (.error e), h | .done (.error e), h => exact hfailed h
  | .close (.ok answer), h | .done (.ok answer), h => exact hanswered h

theorem known_fail {e : Exc}
    (h : Faulted tr t ∨ Decided tasks tr t (.error e) ∧ Absent tasks t users) :
    Known tasks tr t users ((tasks t).fail e) := by
  have hfail : (tasks t).fail e = .rollback e ∨ (tasks t).fail e = .close (.error e) := by
    cases tasks t with
    | createUser => exact .inl rfl
    | bootstrap => exact .inr rfl
  rcases hfail with hfail | hfail <;> rw [hfail]
  · exact h
  · exact h

section
variable {w : World T} {fault : Option Exc}

theorem faulted_append (e : Exc) : Faulted (tr ++ [(w, (t, some e))]) t :=
  ⟨w, e, List.mem_append_right _ List.mem_cons_self⟩

/-- The look up. -/
theorem Known.looked (h : Absent tasks t w.server.committed)
    (hcode : w.client t = (tasks t).code .lookup) :
    Known tasks (tr ++ [(w, (t, none))]) t w.server.committed
      ((tasks t).looked (findUser (tasks t).username w.server.committed)) := by
  have hmem : (w, (t, none)) ∈ tr ++ [(w, (t, none))] := List.mem_append_right _ List.mem_cons_self
  have hmakes : Makes (w, (t, none)) t (.query (tasks t).username) := ⟨rfl, _, hcode⟩
  cases hfind : findUser (tasks t).username w.server.committed with
  | some v =>
    have htaken : Decided tasks (tr ++ [(w, (t, none))]) t (tasks t).taken :=
      .taken _ hmem hmakes fun hnone => by cases hfind.symm.trans hnone
    rw [Task.looked]
    cases hanswer : (tasks t).taken with
    | error e => exact known_fail (.inr ⟨hanswer ▸ htaken, h⟩)
    | ok answer =>
      obtain rfl := taken_eq_ok hanswer
      exact ⟨hanswer ▸ htaken, ⟨v, findUser_mem hfind⟩, fun u hu => by cases hu⟩
  | none =>
    have hmissed : Missed tasks (tr ++ [(w, (t, none))]) t (w, (t, none)) := ⟨hmem, hmakes, hfind⟩
    rw [Task.looked]
    cases hrow : (tasks t).row with
    | error e => exact known_fail (.inr ⟨.unhashed _ hmissed e hrow, h⟩)
    | ok u => exact ⟨h, hrow, _, hmissed⟩

/-- A turn of the client. -/
theorem Known.advance (h : Known tasks tr t w.server.committed p)
    (hcode : w.client t = (tasks t).code p) :
    Known tasks (tr ++ [(w, (t, fault))]) t
      (usersEngine.applyAll w.server.committed (p.publishes fault))
      ((tasks t).advance fault w.server.committed p) := by
  have hsub : tr.Sublist (tr ++ [(w, (t, fault))]) := List.sublist_append_left ..
  have hstay : ∀ {q}, Known tasks tr t w.server.committed q →
      Known tasks (tr ++ [(w, (t, fault))]) t w.server.committed q := fun h =>
    h.mono hsub (List.Subset.refl _) fun v hv => .inl hv
  match p, fault, h with
  | .begin, none, h | .begin, some _, h => exact hstay h
  | .lookup, some e, _ => exact known_fail (.inl (faulted_append e))
  | .lookup, none, h => exact Known.looked h hcode
  | .insert u, some e, _ => exact known_fail (.inl (faulted_append e))
  | .insert u, none, ⟨hid, hrow, l, hl⟩ =>
    have hmakes : Makes (w, (t, none)) t (.flush u) := ⟨rfl, _, hcode⟩
    have hpair : [l, (w, (t, none))].Sublist (tr ++ [(w, (t, none))]) :=
      (List.singleton_sublist.2 hl.mem).append (List.Sublist.refl [(w, (t, none))])
    have hnew : w.server.committed.get? u.id = none :=
      Table.get?_eq_none.2 fun v hv => (row_eq hrow).1 ▸ hid v hv
    simp only [Task.advance, attempt_none]
    cases hinsert : insertUser u w.server.committed with
    | error e =>
      exact known_fail
        (.inr ⟨.refused l _ (hl.mono hsub) hpair u hrow hmakes e hnew hinsert, hid⟩)
    | ok ws =>
      obtain ⟨-, -, rfl⟩ := insertUser_ok hinsert
      exact ⟨hid, hrow, .created l _ (hl.mono hsub) hpair u hrow hmakes hinsert⟩
  | .commit (some u), some e, _ | .commit none, some e, _ =>
    exact known_fail (.inl (faulted_append e))
  | .commit (some u), none, ⟨hid, hrow, hdecided⟩ =>
    have hmem : u ∈ (w.server.committed.put u).rows := Table.mem_put.2 (.inl rfl)
    refine ⟨hdecided.mono hsub, ⟨u, hmem, (row_eq hrow).2⟩, fun v hv => ?_⟩
    obtain rfl := created_eq hv
    exact ⟨hrow, hmem⟩
  | .commit none, none, h => exact hstay (q := .close (.ok none)) h
  | .rollback e, none, h => exact hstay (q := .close (.error e)) h
  | .rollback e, some e', _ => exact .inl (faulted_append e')
  | .close (.error e), none, h => exact hstay (q := .done (.error e)) h
  | .close (.ok answer), none, h => exact hstay (q := .done (.ok answer)) h
  | .close (.error _), some e, _ | .close (.ok _), some e, _ => exact .inl (faulted_append e)
  | .done (.error e), none, h | .done (.error e), some _, h => exact hstay (q := .done (.error e)) h
  | .done (.ok answer), none, h | .done (.ok answer), some _, h =>
    exact hstay (q := .done (.ok answer)) h

end

/-! ### Turns -/

section
variable [DecidableEq T] {w w' : World T} {fault : Option Exc}

/-- Every client is at a point of its task, and each event is further on in it than the client's
events before. -/
structure Paced (tasks : T → Task) (tr : List (Event T)) (w : World T) : Prop where
  client : ∀ t, ∃ p, w.client t = (tasks t).code p ∧ Stands w.server t p ∧
    ∀ u, p.row = some u → (tasks t).row = .ok u
  spent : ∀ l ∈ tr, turnsLeft (w.client l.2.1) < turnsLeft (l.1.client l.2.1)
  order : tr.Pairwise fun l l' => l.2.1 = l'.2.1 →
    turnsLeft (l'.1.client l'.2.1) < turnsLeft (l.1.client l.2.1)
  count : ∀ t, tr.countP (fun l => l.2.1 = t) + turnsLeft (w.client t) ≤ 6

theorem paced_start (tasks : T → Task) (db : Users) : Paced tasks [] (start tasks db) where
  client t := ⟨.begin, rfl, stands_none rfl rfl, fun u hu => by cases hu⟩
  spent _ hl := by cases hl
  order := .nil
  count t := ((Nat.zero_add _).trans (turnsLeft_code (tasks t) .begin)).le

theorem Paced.turnsLeft_turn (h : Paced tasks tr w)
    (hturn : turn usersDbms w (t, fault) = some w') :
    turnsLeft (w'.client t) < turnsLeft (w.client t) ∧
      ∀ u, u ≠ t → w'.client u = w.client u := by
  obtain ⟨p, hcode, hstands, -⟩ := h.client t
  obtain ⟨hclient, -, -⟩ := turn_code hcode hstands hturn
  have hpos : 0 < p.turnsLeft := by
    refine Nat.pos_of_ne_zero fun hzero => ?_
    cases p <;> cases hzero
    rw [turn] at hturn
    dsimp only at hturn
    rw [hcode] at hturn
    cases hturn
  refine ⟨?_, fun u hu => ?_⟩
  · rw [hclient, Function.update_self, hcode, turnsLeft_code, turnsLeft_code]
    exact turnsLeft_advance (tasks t) fault _ p hpos
  · rw [hclient, Function.update_of_ne hu]

theorem Paced.step (h : Paced tasks tr w) (hturn : turn usersDbms w (t, fault) = some w') :
    Paced tasks (tr ++ [(w, (t, fault))]) w' := by
  obtain ⟨hless, hothers⟩ := h.turnsLeft_turn hturn
  constructor
  · intro u
    by_cases hu : u = t
    · subst hu
      obtain ⟨p, hcode, hstands, hrow⟩ := h.client u
      obtain ⟨hclient, hstands', -⟩ := turn_code hcode hstands hturn
      exact ⟨_, by rw [hclient, Function.update_self], hstands',
        fun v => row_advance (tasks u) fault w.server.committed hrow⟩
    · obtain ⟨p, hcode, hstands, hrow⟩ := h.client u
      obtain ⟨c, next, r, -, hserved, -⟩ := turn_cases hturn
      exact ⟨p, (hothers u hu).trans hcode, hstands.of_same (hserved.get?_of_ne hu), hrow⟩
  · intro l hl
    rcases List.mem_append.1 hl with hl | hl
    · by_cases hu : l.2.1 = t
      · exact (hu ▸ hless).trans (h.spent l hl)
      · rw [hothers _ hu]
        exact h.spent l hl
    · obtain rfl := List.mem_singleton.1 hl
      exact hless
  · refine List.pairwise_append.2 ⟨h.order, List.pairwise_singleton .., fun l hl l' hl' hsame => ?_⟩
    obtain rfl := List.mem_singleton.1 hl'
    exact hsame ▸ h.spent l hl
  · intro u
    rw [List.countP_append, List.countP_singleton]
    have hcount := h.count u
    by_cases hu : u = t
    · subst hu
      simp only [decide_true, if_true]
      omega
    · rw [hothers u hu]
      simpa [Ne.symm hu] using hcount

/-! ### The invariant -/

theorem inserts_users : Inserts usersDbms User.username where
  engine := rfl
  run q users ws h := by
    obtain ⟨hid, hname, rfl⟩ := insertUser_ok h
    exact ⟨q, rfl, hid, findUser_eq_none.1 hname⟩

/-- The id is the one that `t` draws. -/
def Owns (tasks : T → Task) (t : T) (id : UUID) : Prop := id = (tasks t).userId

structure Inv (tasks : T → Task) (db : Users) (tr : List (Event T)) (w : World T) : Prop where
  paced : Paced tasks tr w
  index : Indexed User.username (Owns tasks) w.server
  client : ∀ t, ∃ p, w.client t = (tasks t).code p ∧ Stands w.server t p ∧
    Known tasks tr t w.server.committed p
  rows : ∃ new, w.server.committed.rows = db.rows ++ new ∧ ∀ u ∈ new, ∃ t, (tasks t).row = .ok u
  grown : ∀ l ∈ tr, l.1.server.committed.rows ⊆ w.server.committed.rows

variable {db : Users}

theorem pairwise_of_unique {users : Users} (h : UniqueUsernames users) :
    users.rows.Pairwise fun u v => u.username ≠ v.username :=
  (users.nodup.of_map (f := pk)).imp_of_mem fun hu hv hne hname => hne (h _ hu _ hv hname)

theorem unique_of_pairwise {users : Users}
    (h : users.rows.Pairwise fun u v => u.username ≠ v.username) : UniqueUsernames users := by
  have hsymm : Std.Symm fun u v : User => u.username ≠ v.username := ⟨fun _ _ => Ne.symm⟩
  intro u hu v hv hname
  by_contra hne
  exact h.forall hu hv hne hname

theorem inv_start (hdb : UniqueUsernames db) (hfresh : Fresh tasks db) :
    Inv tasks db [] (start tasks db) where
  paced := paced_start tasks db
  index := Indexed.start (pairwise_of_unique hdb)
  client t := ⟨.begin, rfl, stands_none rfl rfl, Table.get?_eq_none.1 (hfresh.new t)⟩
  rows := ⟨[], (List.append_nil _).symm, fun u hu => by cases hu⟩
  grown _ hl := by cases hl

omit [DecidableEq T] in
/-- A turn commits at most the row of its client. -/
theorem Known.rows (h : Known tasks tr t users p) (fault : Option Exc) :
    ∃ new, (usersEngine.applyAll users (p.publishes fault)).rows = users.rows ++ new ∧
      ∀ u ∈ new, (tasks t).row = .ok u := by
  match p, fault, h with
  | .commit (some u), none, ⟨hid, hrow, _⟩ =>
    have hnew : users.get? u.id = none :=
      Table.get?_eq_none.2 fun v hv => (row_eq hrow).1 ▸ hid v hv
    exact ⟨[u], Table.rows_put_of_new hnew, fun v hv => List.mem_singleton.1 hv ▸ hrow⟩
  | .begin, none, _ | .lookup, none, _ | .insert _, none, _ | .commit none, none, _
  | .rollback _, none, _ | .close _, none, _ | .done _, none, _ | _, some _, _ =>
    exact ⟨[], (List.append_nil _).symm, fun u hu => by cases hu⟩

theorem Inv.step (hfresh : Fresh tasks db) (h : Inv tasks db tr w)
    (hturn : turn usersDbms w (t, fault) = some w') :
    Inv tasks db (tr ++ [(w, (t, fault))]) w' := by
  obtain ⟨p, hcode, hstands, hknown⟩ := h.client t
  obtain ⟨hclient, hstands', hcommitted⟩ := turn_code hcode hstands hturn
  obtain ⟨new, hrows, hrow⟩ := hknown.rows fault
  obtain ⟨c, next, r, hcall, hserved, -⟩ := turn_cases hturn
  rw [← hcommitted] at hrows
  have hmore : w.server.committed.rows ⊆ w'.server.committed.rows :=
    hrows ▸ List.subset_append_left ..
  refine ⟨h.paced.step hturn, ?_, fun u => ?_, ?_, fun l hl => ?_⟩
  · refine indexed_served inserts_users ?_ ?_ h.index hserved
    · exact fun t u k ht hu => hfresh.distinct t u (ht.symm.trans hu)
    · rintro q users u rfl hrun
      obtain ⟨-, -, hws⟩ := insertUser_ok hrun
      obtain rfl := List.singleton_inj.1 hws
      obtain rfl := eq_insert (hcode.symm.trans hcall)
      exact (row_eq hknown.2.1).1
  · by_cases hu : u = t
    · subst hu
      exact ⟨_, by rw [hclient, Function.update_self], hstands', hcommitted ▸ hknown.advance hcode⟩
    · obtain ⟨q, hcode', hstands', hknown'⟩ := h.client u
      have hsame := hserved.get?_of_ne hu
      refine ⟨q, by rw [hclient, Function.update_of_ne hu, hcode'], ?_, ?_⟩
      · exact ⟨fun hq => hsame.trans (hstands'.opened hq),
          fun x hx => hstands'.writes x (hsame.symm.trans hx)⟩
      · refine hknown'.mono (List.sublist_append_left ..) hmore fun v hv => ?_
        rw [hrows] at hv
        refine (List.mem_append.1 hv).imp_right fun hv hid => hu ?_
        exact hfresh.distinct u t (hid.symm.trans (row_eq (hrow v hv)).1)
  · obtain ⟨before, hbefore, hwho⟩ := h.rows
    refine ⟨before ++ new, by rw [hrows, hbefore, List.append_assoc], fun u hu => ?_⟩
    exact (List.mem_append.1 hu).elim (hwho u) fun hu => ⟨t, hrow u hu⟩

  · rcases List.mem_append.1 hl with hl | hl
    · exact fun u hu => hmore (h.grown l hl hu)
    · obtain rfl := List.mem_singleton.1 hl
      exact hmore

/-! ### Runs -/

/-- The events of a run. -/
def events (tasks : T → Task) (db : Users) (ls : List (T × Option Exc)) : List (Event T) :=
  Run.trace (turn usersDbms) (start tasks db) ls

theorem paced_run {ls : List (T × Option Exc)}
    (hrun : Run.exec (turn usersDbms) (start tasks db) ls = some w) :
    Paced tasks (events tasks db ls) w :=
  Run.trace_inv (J := Paced tasks) (fun _ _ _ _ h hturn => h.step hturn) (paced_start tasks db) hrun

theorem inv_run {ls : List (T × Option Exc)} (hdb : UniqueUsernames db) (hfresh : Fresh tasks db)
    (hrun : Run.exec (turn usersDbms) (start tasks db) ls = some w) :
    Inv tasks db (events tasks db ls) w :=
  Run.trace_inv (J := Inv tasks db) (fun _ _ _ _ h hturn => h.step hfresh hturn)
    (inv_start hdb hfresh) hrun

theorem Inv.finished (h : Inv tasks db tr w) {r : Except Exc (Option User)}
    (hdone : w.client t = .pure (r, ())) : Known tasks tr t w.server.committed (.done r) := by
  obtain ⟨p, hcode, -, hknown⟩ := h.client t
  have hleft : p.turnsLeft = 0 := by
    rw [← turnsLeft_code (tasks t), ← hcode, hdone]
    rfl
  cases p with
  | done r' =>
    obtain rfl : r = r' := congrArg Prod.fst (Client.Prog.pure.inj (hdone.symm.trans hcode))
    exact hknown
  | begin | lookup | insert | commit | rollback | close => cases hleft

theorem Inv.decided (h : Inv tasks db tr w) {r : Except Exc (Option User)}
    (hdone : w.client t = .pure (r, ())) (hquiet : ¬ Faulted tr t) : Decided tasks tr t r := by
  have hknown := h.finished hdone
  cases r with
  | error e => exact (hknown.resolve_left hquiet).1
  | ok answer => exact hknown.1

/-- The events are not calls of one kind that one client makes. -/
def Apart (l l' : Event T) : Prop :=
  l.2.1 = l'.2.1 → turnsLeft (l.1.client l.2.1) ≠ turnsLeft (l'.1.client l'.2.1)

omit [DecidableEq T] in
theorem turnsLeft_makes {l : Event T} {c : Call String User} (h : Makes l t c) :
    l.2.1 = t ∧ ∃ next, turnsLeft (l.1.client l.2.1) = turnsLeft (.call c next) := by
  obtain ⟨hl, next, hnext⟩ := h
  exact ⟨by rw [hl], next, by rw [hl, hnext]⟩

/-- A client looks a username up once and inserts once. -/
theorem Paced.makes_unique (h : Paced tasks tr w) {l l' : Event T} (hl : l ∈ tr) (hl' : l' ∈ tr)
    {c c' : Call String User} (hmakes : Makes l t c) (hmakes' : Makes l' t c')
    (hkind : ∀ next next', turnsLeft (.call c next) = turnsLeft (.call c' next')) : l = l' := by
  have hsymm : Std.Symm (Apart (T := T)) := ⟨fun _ _ hR hclient => (hR hclient.symm).symm⟩
  have horder : tr.Pairwise Apart := h.order.imp fun hless hclient => (hless hclient).ne'
  obtain ⟨hclient, next, hnext⟩ := turnsLeft_makes hmakes
  obtain ⟨hclient', next', hnext'⟩ := turnsLeft_makes hmakes'
  by_contra hne
  refine horder.forall hl hl' hne (hclient.trans hclient'.symm) ?_
  rw [hnext, hnext']
  exact hkind next next'

end

end FaceRecognition.Services.AccountRaces
