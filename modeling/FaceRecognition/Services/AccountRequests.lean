import FaceRecognition.Lib.Requests
import FaceRecognition.Services.Auth

/-!
# Accounts created statement by statement

Requests that create users and workers that start, each of which makes sure that the first admin
exists, as programs over session calls. `code` lists the points that such a program goes through,
and `advance` says where a call takes it. Left alone, a request returns and commits what the
sequential code does (`createUser_alone`, `bootstrap_alone`).
-/

namespace FaceRecognition.Services.AccountRaces

open Relational Db UnitOfWork ReadCommitted Security AuthService

abbrev AccountM := ProgramM String User (Option User) Exc Unit

abbrev Program := Outcome String User (Option User) Exc Unit (Option User)

/-! ### The programs -/

/-- `async with AsyncSessionFactory()` -/
def withSession {α : Type} (body : AccountM α) : AccountM α := inSession body

/-- `get_db` around a handler. -/
def getDb {α : Type} (handler : AccountM α) : AccountM α := asRequest handler

def getByUsername (username : String) : AccountM (Option User) := ask (.query username)

def add (user : User) : AccountM User := do
  ask (.flush user)
  return user

section
variable (cfg : AuthSettings) (c : UserContext)

def createUser (payload : UserCreate) : AccountM User := do
  match ← getByUsername payload.username with
  | some _ => throw (usernameExists payload.username)
  | none =>
    let hashed ← raised (hashPassword cfg.passwords c.salt payload.password)
    add (newUser c payload.username hashed payload.role)

def ensureBootstrapAdmin (username password : String) : AccountM Unit := do
  match ← getByUsername username with
  | some _ => return ()
  | none =>
    let hashed ← raised (hashPassword cfg.passwords c.salt password)
    let _ ← add (newUser c username hashed .admin)
    return ()

end

/-- What a client is there for. -/
inductive Task where
  | createUser (cfg : AuthSettings) (c : UserContext) (payload : UserCreate)
  | bootstrap (cfg : AuthSettings) (c : UserContext) (username password : String)

namespace Task

/-- A request returns the user that it has created. The other task is what `lifespan` and
`create_admin` do. -/
def program : Task → Program
  | .createUser cfg c payload => go (getDb do
      let user ← AccountRaces.createUser cfg c payload
      return some user) ()
  | .bootstrap cfg c username password => go (withSession do
      ensureBootstrapAdmin cfg c username password
      ask .commit
      return none) ()

def username : Task → String
  | .createUser _ _ payload => payload.username
  | .bootstrap _ _ username _ => username

def userId : Task → UUID
  | .createUser _ c _ => c.userId
  | .bootstrap _ c _ _ => c.userId

/-- The row that it inserts when its password can be hashed. -/
def row : Task → Except Exc User
  | .createUser cfg c payload =>
    (hashPassword cfg.passwords c.salt payload.password).map fun hashed =>
      newUser c payload.username hashed payload.role
  | .bootstrap cfg c username password =>
    (hashPassword cfg.passwords c.salt password).map fun hashed =>
      newUser c username hashed .admin

/-- What it returns when the username is taken. -/
def taken : Task → Except Exc (Option User)
  | .createUser _ _ payload => .error (usernameExists payload.username)
  | .bootstrap .. => .ok none

/-- What it returns when it has inserted `u`. -/
def created (u : User) : Task → Option User
  | .createUser .. => some u
  | .bootstrap .. => none

end Task

/-! ### Where a client is -/

inductive Point where
  | begin
  | lookup
  | insert (u : User)
  /-- With the row it has inserted, if any. -/
  | commit (wrote : Option User)
  | rollback (e : Exc)
  | close (r : Except Exc (Option User))
  | done (r : Except Exc (Option User))

namespace Task

variable (task : Task)

def fail (e : Exc) : Point :=
  match task with
  | .createUser .. => .rollback e
  | .bootstrap .. => .close (.error e)

/-- After the look up. -/
def looked : Option User → Point
  | some _ =>
    match task.taken with
    | .error e => task.fail e
    | .ok _ => .commit none
  | none =>
    match task.row with
    | .error e => task.fail e
    | .ok u => .insert u

def failing (e : Exc) : Program :=
  match task with
  | .createUser .. => rollingBack e ()
  | .bootstrap .. => closing (.error e) ()

def committing (wrote : Option User) : Program :=
  .call .commit fun
    | .ok _ => closing (.ok (wrote.bind fun u => task.created u)) ()
    | .error e => task.failing e

def inserting (u : User) : Program :=
  .call (.flush u) fun
    | .ok _ => task.committing (some u)
    | .error e => task.failing e

/-- What the client still does. -/
def code : Point → Program
  | .begin => task.program
  | .lookup => .call (.query task.username) fun
      | .error e => task.failing e
      | .ok (some _) =>
        match task.taken with
        | .error e => task.failing e
        | .ok _ => task.committing none
      | .ok none =>
        match task.row with
        | .error e => task.failing e
        | .ok u => task.inserting u
  | .insert u => task.inserting u
  | .commit wrote => task.committing wrote
  | .rollback e => rollingBack e ()
  | .close r => closing r ()
  | .done r => .pure (r, ())

theorem code_begin : task.code .begin = .call .begin fun
    | .ok _ => task.code .lookup
    | .error e => .pure (.error e, ()) := by
  cases task with
  | createUser cfg c payload =>
    show go (getDb _) () = _
    rw [getDb, go_asRequest]
    refine congrArg (Client.Prog.call Call.begin) (funext fun r => ?_)
    obtain e | _ := r
    · rfl
    · refine congrArg (Client.Prog.call (Call.query payload.username)) (funext fun r => ?_)
      obtain e | _ | u := r
      · rfl
      · dsimp only [row, failing, inserting, committing]
        cases hashPassword cfg.passwords c.salt payload.password with
        | error e => rfl
        | ok hashed =>
          refine congrArg (Client.Prog.call (Call.flush _)) (funext fun r => ?_)
          obtain e | _ := r
          · rfl
          · refine congrArg (Client.Prog.call Call.commit) (funext fun r => ?_)
            cases r <;> rfl
      · rfl
  | bootstrap cfg c username password =>
    show go (withSession _) () = _
    rw [withSession, go_inSession]
    refine congrArg (Client.Prog.call Call.begin) (funext fun r => ?_)
    obtain e | _ := r
    · rfl
    · refine congrArg (Client.Prog.call (Call.query username)) (funext fun r => ?_)
      obtain e | _ | u := r
      · rfl
      · dsimp only [row, failing, inserting, committing]
        cases hashPassword cfg.passwords c.salt password with
        | error e => rfl
        | ok hashed =>
          refine congrArg (Client.Prog.call (Call.flush _)) (funext fun r => ?_)
          obtain e | _ := r
          · rfl
          · refine congrArg (Client.Prog.call Call.commit) (funext fun r => ?_)
            cases r <;> rfl
      · refine congrArg (Client.Prog.call Call.commit) (funext fun r => ?_)
        cases r <;> rfl

/-- Where a call that fails with `fault` or not at all takes a client, when `users` is what it
sees. -/
def advance (fault : Option Exc) (users : Users) : Point → Point
  | .begin => .lookup
  | .lookup =>
    match attempt fault (.ok (findUser task.username users)) with
    | .error e => task.fail e
    | .ok found => task.looked found
  | .insert u =>
    match attempt fault (insertUser u users) with
    | .error e => task.fail e
    | .ok _ => .commit (some u)
  | .commit wrote =>
    match attempt fault (.ok ()) with
    | .error e => task.fail e
    | .ok () => .close (.ok (wrote.bind fun u => task.created u))
  | .rollback e => .close (.error (fault.getD e))
  | .close r => .done (attempt fault r)
  | .done r => .done r

theorem code_fail (e : Exc) : task.code (task.fail e) = task.failing e := by
  cases task <;> rfl

theorem code_looked (found : Option User) : task.code (task.looked found) =
    match found with
    | some _ =>
      match task.taken with
      | .error e => task.failing e
      | .ok _ => task.committing none
    | none =>
      match task.row with
      | .error e => task.failing e
      | .ok u => task.inserting u := by
  cases found with
  | some u =>
    dsimp only [looked]
    cases task.taken with
    | error e => exact task.code_fail e
    | ok a => rfl
  | none =>
    dsimp only [looked]
    cases task.row with
    | error e => exact task.code_fail e
    | ok u => rfl

end Task

namespace Point

/-- The client has a transaction. -/
def isOpen : Point → Bool
  | .lookup | .insert _ | .commit _ => true
  | .begin | .rollback _ | .close _ | .done _ => false

/-- The row that the client is about to insert or has inserted. -/
def row : Point → Option User
  | .insert u => some u
  | .commit wrote => wrote
  | .begin | .lookup | .rollback _ | .close _ | .done _ => none

/-- What the client has written and not committed. -/
def writes : Point → List User
  | .commit (some u) => [u]
  | .commit none | .begin | .lookup | .insert _ | .rollback _ | .close _ | .done _ => []

/-- What its next call commits. -/
def publishes (p : Point) : Option Exc → List User
  | none => p.writes
  | some _ => []

end Point

/-! ### Rows and answers -/

theorem row_eq {task : Task} {u : User} (h : task.row = .ok u) :
    u.id = task.userId ∧ u.username = task.username := by
  cases task with
  | createUser cfg c payload =>
    rw [Task.row] at h
    cases hhash : hashPassword cfg.passwords c.salt payload.password with
    | error e =>
      rw [hhash] at h
      cases h
    | ok hashed =>
      rw [hhash] at h
      cases h
      exact ⟨rfl, rfl⟩
  | bootstrap cfg c username password =>
    rw [Task.row] at h
    cases hhash : hashPassword cfg.passwords c.salt password with
    | error e =>
      rw [hhash] at h
      cases h
    | ok hashed =>
      rw [hhash] at h
      cases h
      exact ⟨rfl, rfl⟩

theorem taken_eq_ok {task : Task} {answer : Option User} (h : task.taken = .ok answer) :
    answer = none := by
  cases task <;> cases h
  rfl

theorem created_eq {task : Task} {u v : User} (h : task.created u = some v) : v = u := by
  cases task <;> cases h
  rfl

/-! ### Turns -/

/-- What a client can still do, counted in turns. -/
def turnsLeft : Program → ℕ
  | .pure _ => 0
  | .call .close _ => 1
  | .call .rollback _ => 2
  | .call .commit _ => 3
  | .call (.flush _) _ => 4
  | .call (.query _) _ => 5
  | .call .begin _ => 6

def Point.turnsLeft : Point → ℕ
  | .done _ => 0
  | .close _ => 1
  | .rollback _ => 2
  | .commit _ => 3
  | .insert _ => 4
  | .lookup => 5
  | .begin => 6

theorem turnsLeft_code (task : Task) (p : Point) : turnsLeft (task.code p) = p.turnsLeft := by
  cases p with
  | begin => rw [task.code_begin]; rfl
  | lookup | insert | commit | rollback | close | done => rfl

/-- The point of a client that is about to insert. -/
theorem eq_insert {task : Task} {p : Point} {u : User} {next : Except Exc Unit → Program}
    (hcode : task.code p = .call (.flush u) next) : p = .insert u := by
  have hleft : p.turnsLeft = 4 := by
    rw [← turnsLeft_code task, hcode]
    rfl
  cases p with
  | insert v =>
    obtain ⟨hcall, -⟩ := Client.Prog.call.inj hcode
    rw [Call.flush.inj hcall]
  | begin | lookup | commit | rollback | close | done => cases hleft

theorem eq_commit {p : Point} {u : User} (h : u ∈ p.writes) : p = .commit (some u) := by
  match p, h with
  | .commit (some v), h => rw [List.mem_singleton.1 h]

theorem turnsLeft_fail (task : Task) (e : Exc) : (task.fail e).turnsLeft ≤ 2 := by
  cases task <;> simp [Task.fail, Point.turnsLeft]

theorem turnsLeft_looked (task : Task) (found : Option User) :
    (task.looked found).turnsLeft ≤ 4 := by
  have hfail := turnsLeft_fail task
  cases found with
  | some u =>
    dsimp only [Task.looked]
    cases task.taken with
    | error e => exact (hfail e).trans (by decide)
    | ok a => exact Nat.le_succ 3
  | none =>
    dsimp only [Task.looked]
    cases task.row with
    | error e => exact (hfail e).trans (by decide)
    | ok u => exact Nat.le_refl 4

theorem row_fail (task : Task) (e : Exc) : (task.fail e).row = none := by
  cases task <;> rfl

theorem row_looked (task : Task) (found : Option User) {u : User}
    (h : (task.looked found).row = some u) : task.row = .ok u := by
  have hfail := row_fail task
  cases found with
  | some v =>
    dsimp only [Task.looked] at h
    cases htaken : task.taken with
    | error e =>
      rw [htaken] at h
      cases (hfail e).symm.trans h
    | ok a =>
      rw [htaken] at h
      cases h
  | none =>
    dsimp only [Task.looked] at h
    cases hrow : task.row with
    | error e =>
      rw [hrow] at h
      cases (hfail e).symm.trans h
    | ok v =>
      rw [hrow] at h
      cases h
      rfl

/-- Clients insert their own rows. -/
theorem row_advance (task : Task) (fault : Option Exc) (users : Users) {p : Point}
    (hp : ∀ u, p.row = some u → task.row = .ok u) {u : User}
    (h : (task.advance fault users p).row = some u) : task.row = .ok u := by
  have hfail := row_fail task
  cases p with
  | begin => cases h
  | lookup =>
    rw [Task.advance] at h
    cases hattempt : attempt fault (.ok (findUser task.username users)) with
    | error e =>
      rw [hattempt] at h
      cases (hfail e).symm.trans h
    | ok found =>
      rw [hattempt] at h
      exact row_looked task found h
  | insert v =>
    rw [Task.advance] at h
    cases hattempt : attempt fault (insertUser v users) with
    | error e =>
      rw [hattempt] at h
      cases (hfail e).symm.trans h
    | ok ws =>
      rw [hattempt] at h
      exact hp u h
  | commit wrote =>
    rw [Task.advance] at h
    cases hattempt : attempt fault (.ok ()) with
    | error e =>
      rw [hattempt] at h
      cases (hfail e).symm.trans h
    | ok _ =>
      rw [hattempt] at h
      cases h
  | rollback | close | done => cases h

theorem turnsLeft_advance (task : Task) (fault : Option Exc) (users : Users) (p : Point)
    (hp : 0 < p.turnsLeft) : (task.advance fault users p).turnsLeft < p.turnsLeft := by
  have hfail : ∀ e, (task.fail e).turnsLeft < 3 := fun e =>
    Nat.lt_succ_of_le (turnsLeft_fail task e)
  cases p with
  | begin => exact Nat.lt_succ_self 5
  | lookup =>
    rw [Task.advance]
    cases attempt fault (.ok (findUser task.username users)) with
    | error e => exact (hfail e).trans (by decide)
    | ok found => exact Nat.lt_succ_of_le (turnsLeft_looked task found)
  | insert u =>
    rw [Task.advance]
    cases attempt fault (insertUser u users) with
    | error e => exact (hfail e).trans (Nat.lt_succ_self 3)
    | ok ws => exact Nat.lt_succ_self 3
  | commit wrote =>
    rw [Task.advance]
    cases attempt fault (.ok ()) with
    | error e => exact hfail e
    | ok _ => exact Nat.lt_succ_of_lt (Nat.lt_succ_self 1)
  | rollback e => exact Nat.lt_succ_self 1
  | close r => exact Nat.lt_succ_self 0
  | done r => exact absurd hp (Nat.lt_irrefl 0)

/-! ### Clients -/

abbrev World (T : Type) :=
  ReadCommitted.World T Users User String User (Option User) Exc (Except Exc (Option User) × Unit)

variable {T : Type}

def start (tasks : T → Task) (db : Users) : World T :=
  ⟨⟨db, Table.empty⟩, fun t => (tasks t).program⟩

section
variable [DecidableEq T] {tasks : T → Task} {db : Users} {t : T} {w : World T}

/-! ### A request that is left alone -/

/-- No call fails. -/
structure Quiet (c : UserContext) : Prop where
  fault : ∀ site, c.fault site = none
  userFault : ∀ site, c.userFault site = none

/-- What a task returns and leaves when nothing comes in between. -/
def Task.alone (task : Task) (users : Users) : Except Exc (Option User) × Users :=
  match findUser task.username users with
  | some _ => (task.taken, users)
  | none =>
    match task.row with
    | .error e => (.error e, users)
    | .ok u =>
      match insertUser u users with
      | .error e => (.error e, users)
      | .ok _ => (.ok (task.created u), users.put u)

omit [DecidableEq T] in
theorem eval_failing (task : Task) (e : Exc) (sess : Session Users) :
    (task.failing e).eval (answer usersDbms none) sess =
      (.begin sess.committed, (.error e, ())) := by
  cases task <;> rfl

omit [DecidableEq T] in
theorem eval_inserting (task : Task) (u : User) (users : Users) :
    (task.inserting u).eval (answer usersDbms none) (.begin users) =
      match insertUser u users with
      | .error e => (.begin users, (.error e, ()))
      | .ok _ => (.begin (users.put u), (.ok (task.created u), ())) := by
  have hanswer : answer usersDbms none (.begin users) (.flush u) =
      (exec (flush pendingRollback none fun db => (insertUser u db).map (usersEngine.applyAll db))
        ⟨users, users, false⟩).swap := rfl
  rw [exec_flush, attempt_none] at hanswer
  rw [Task.inserting, Client.Prog.eval, hanswer]
  cases hinsert : insertUser u users with
  | error e => exact eval_failing task e _
  | ok ws =>
    obtain ⟨-, -, rfl⟩ := insertUser_ok hinsert
    rfl

omit [DecidableEq T] in
theorem eval_program (task : Task) (sess : Session Users) :
    task.program.eval (answer usersDbms none) sess =
      (.begin (task.alone sess.committed).2, ((task.alone sess.committed).1, ())) := by
  have hbegin : task.program.eval (answer usersDbms none) sess =
      (task.code .lookup).eval (answer usersDbms none) (.begin sess.committed) :=
    congrArg (Client.Prog.eval (answer usersDbms none) sess) task.code_begin
  have hlook : ∀ next : Except Exc (Option User) → Program,
      Client.Prog.eval (answer usersDbms none) (.begin sess.committed)
        (.call (.query task.username) next) =
          (next (.ok (findUser task.username sess.committed))).eval (answer usersDbms none)
            (.begin sess.committed) := fun _ => rfl
  rw [hbegin, Task.code, hlook, Task.alone]
  cases findUser task.username sess.committed with
  | some v =>
    dsimp only
    cases htaken : task.taken with
    | error e => exact eval_failing task e _
    | ok answer =>
      obtain rfl := taken_eq_ok htaken
      rfl
  | none =>
    dsimp only
    cases task.row with
    | error e => exact eval_failing task e _
    | ok u =>
      dsimp only
      rw [eval_inserting]
      cases insertUser u sess.committed <;> rfl

omit [DecidableEq T] in
theorem exec_add {c : UserContext} (hc : Quiet c) (u : User) (users : Users) :
    exec (UserRepository.add c u) (Session.begin users) =
      match insertUser u users with
      | .error e => (.error e, ⟨users, users, true⟩)
      | .ok _ => (.ok u, ⟨users, users.put u, false⟩) := by
  rw [UserRepository.add, exec_bind, Session.begin, exec_flush, hc.userFault, attempt_none]
  cases hinsert : insertUser u users with
  | error e => rfl
  | ok ws =>
    obtain ⟨-, -, rfl⟩ := insertUser_ok hinsert
    rfl

omit [DecidableEq T] in
theorem alone_createUser (cfg : AuthSettings) {c : UserContext} (hc : Quiet c)
    (payload : UserCreate) (users : Users) :
    ∃ r s, exec (withUsers c (AuthService.createUser cfg c payload)) (Session.begin users) =
        (r, s) ∧
      (Task.createUser cfg c payload).alone users = (r.map some, s.committed) := by
  have hrollback : ∀ (e : Exc) (s : Session Users), exec (do
      rollback (c.fault .rollback)
      throw e : UserSessionM User) s = (.error e, .begin s.committed) := fun e s => by
    rw [hc.fault]
    rfl
  rw [withUsers, exec_tryCatch, exec_bind, AuthService.createUser, exec_bind,
    UserRepository.getByUsername, Session.begin, exec_query, hc.userFault, attempt_none]
  dsimp only [Task.alone, Task.username]
  cases findUser payload.username users with
  | some v => exact ⟨_, _, hrollback _ _, rfl⟩
  | none =>
    dsimp only [Task.row]
    rw [exec_bind, exec_lift]
    cases hashPassword cfg.passwords c.salt payload.password with
    | error e => exact ⟨_, _, hrollback _ _, rfl⟩
    | ok hashed =>
      dsimp only [Except.map]
      have hadd := exec_add hc (newUser c payload.username hashed payload.role) users
      rw [Session.begin] at hadd
      rw [hadd]
      cases insertUser (newUser c payload.username hashed payload.role) users with
      | error e => exact ⟨_, _, hrollback _ _, rfl⟩
      | ok ws =>
        rw [hc.fault]
        exact ⟨_, _, rfl, rfl⟩

omit [DecidableEq T] in
theorem alone_bootstrap (cfg : AuthSettings) {c : UserContext} (hc : Quiet c)
    (username password : String) (users : Users) :
    ∃ r s, exec (Services.bootstrap cfg c username password) (Session.begin users) = (r, s) ∧
      (Task.bootstrap cfg c username password).alone users =
        (r.map fun _ => none, s.committed) := by
  rw [Services.bootstrap, exec_bind, AuthService.ensureBootstrapAdmin, exec_bind,
    UserRepository.getByUsername, Session.begin, exec_query, hc.userFault, attempt_none]
  dsimp only [Task.alone, Task.username]
  cases findUser username users with
  | some v =>
    rw [hc.fault]
    exact ⟨_, _, rfl, rfl⟩
  | none =>
    dsimp only [Task.row]
    rw [exec_bind, exec_lift]
    cases hashPassword cfg.passwords c.salt password with
    | error e => exact ⟨_, _, rfl, rfl⟩
    | ok hashed =>
      dsimp only [Except.map]
      have hadd := exec_add hc (newUser c username hashed .admin) users
      rw [Session.begin] at hadd
      rw [exec_bind, hadd]
      cases insertUser (newUser c username hashed .admin) users with
      | error e => exact ⟨_, _, rfl, rfl⟩
      | ok ws =>
        rw [hc.fault]
        exact ⟨_, _, rfl, rfl⟩

/-- What a request that nobody comes in between returns and commits. -/
theorem alone_of_run {n : ℕ} {r : Except Exc (Option User)}
    (hrun : Run.exec (turn usersDbms) (start tasks db) (List.replicate n (t, none)) = some w)
    (hdone : w.client t = .pure (r, ())) : (tasks t).alone db = (r, w.server.committed) := by
  have hclosed : Sees usersEngine t (start tasks db : World T).server ⟨db, db, true⟩ :=
    ⟨rfl, fun _ => rfl, fun x hx => by cases hx⟩
  obtain ⟨hresult, hsees⟩ := turns_alone hclosed hrun hdone
  have hprogram : (start tasks db).client t = (tasks t).program := rfl
  rw [hprogram, eval_program] at hresult hsees
  have hanswer : ((tasks t).alone db).1 = r := congrArg Prod.fst hresult
  have hcommitted : ((tasks t).alone db).2 = w.server.committed := hsees.committed
  rw [← hanswer, ← hcommitted]

/-- A request that is left alone does what the sequential one does. -/
theorem createUser_alone {cfg : AuthSettings} {c : UserContext} (hc : Quiet c)
    {payload : UserCreate} (htask : tasks t = .createUser cfg c payload) {n : ℕ}
    {r : Except Exc (Option User)}
    (hrun : Run.exec (turn usersDbms) (start tasks db) (List.replicate n (t, none)) = some w)
    (hdone : w.client t = .pure (r, ())) :
    ∃ r' s, exec (withUsers c (AuthService.createUser cfg c payload)) (Session.begin db) = (r', s) ∧
      r = r'.map some ∧ w.server.committed = s.committed := by
  obtain ⟨r', s, hexec, halone⟩ := alone_createUser cfg hc payload db
  rw [← htask, alone_of_run hrun hdone] at halone
  exact ⟨r', s, hexec, congrArg Prod.fst halone, congrArg Prod.snd halone⟩

theorem bootstrap_alone {cfg : AuthSettings} {c : UserContext} (hc : Quiet c)
    {username password : String} (htask : tasks t = .bootstrap cfg c username password) {n : ℕ}
    {r : Except Exc (Option User)}
    (hrun : Run.exec (turn usersDbms) (start tasks db) (List.replicate n (t, none)) = some w)
    (hdone : w.client t = .pure (r, ())) :
    ∃ r' s, exec (Services.bootstrap cfg c username password) (Session.begin db) = (r', s) ∧
      r = r'.map (fun _ => none) ∧ w.server.committed = s.committed := by
  obtain ⟨r', s, hexec, halone⟩ := alone_bootstrap cfg hc username password db
  rw [← htask, alone_of_run hrun hdone] at halone
  exact ⟨r', s, hexec, congrArg Prod.fst halone, congrArg Prod.snd halone⟩

end

end FaceRecognition.Services.AccountRaces
