import FaceRecognition.Db.Users
import FaceRecognition.Lib.Transaction

/-!
# AuthService

Logins, the creation of users and that of the first admin. A login writes nothing; each of the
others inserts at most one row, and only a username that is not in the table (`createUser_ok`,
`ensureBootstrapAdmin_ok`).
-/

namespace FaceRecognition.Services

open Relational Db UnitOfWork Security

structure UserCreate where
  username : String
  password : String
  role : Role := .viewer
  username_length : 3 ≤ username.length ∧ username.length ≤ 128
  password_length : 8 ≤ password.length ∧ password.length ≤ 128

structure Token where
  accessToken : String
  tokenType : String := "bearer"
  /-- Seconds until expiry. -/
  expiresIn : ℤ
  deriving DecidableEq, Repr

structure AuthSettings extends TokenSettings where
  /-- `_pwd_context` -/
  passwords : CryptContext

namespace AuthService

variable (cfg : AuthSettings) (c : UserContext)

def incorrectPassword : Exc := ⟨.authenticationError, "Incorrect username or password", []⟩

def userDisabled : Exc := ⟨.authenticationError, "User is disabled", []⟩

def usernameExists (username : String) : Exc :=
  ⟨.entityConflictError, "Username '" ++ username ++ "' already exists", []⟩

/-- `create_access_token(subject=user.username, role=user.role)` in its response. -/
def tokenFor (user : User) : Token where
  accessToken := createAccessToken cfg.toTokenSettings user.username user.role none c.utcNow
  expiresIn := cfg.accessTokenExpireMinutes * 60

def authenticate (username password : String) : UserSessionM Token := do
  match ← UserRepository.getByUsername c username with
  | none => throw incorrectPassword
  | some user =>
    if ← lift (verifyPassword cfg.passwords password user.hashedPassword) then
      if user.isActive then return tokenFor cfg c user else throw userDisabled
    else throw incorrectPassword

def newUser (username hashedPassword : String) (role : Role) : User where
  id := c.userId
  username := username
  hashedPassword := hashedPassword
  role := role
  isActive := true
  createdAt := c.now
  updatedAt := c.now

def createUser (payload : UserCreate) : UserSessionM User := do
  match ← UserRepository.getByUsername c payload.username with
  | some _ => throw (usernameExists payload.username)
  | none =>
    let hashed ← lift (hashPassword cfg.passwords c.salt payload.password)
    UserRepository.add c (newUser c payload.username hashed payload.role)

def ensureBootstrapAdmin (username password : String) : UserSessionM Unit := do
  match ← UserRepository.getByUsername c username with
  | some _ => return ()
  | none =>
    let hashed ← lift (hashPassword cfg.passwords c.salt password)
    let _ ← UserRepository.add c (newUser c username hashed .admin)
    return ()

end AuthService

/-- The handler within `get_db`. -/
def withUsers {α : Type} (c : UserContext) (handler : UserSessionM α) : UserSessionM α :=
  tryCatch
    (do
      let response ← handler
      commit pendingRollback (c.fault .commit)
      return response)
    fun exc => do
      rollback (c.fault .rollback)
      throw exc

/-- `async with AsyncSessionFactory() as session`, which ends in a commit. -/
def bootstrap (cfg : AuthSettings) (c : UserContext) (username password : String) :
    UserSessionM Unit := do
  AuthService.ensureBootstrapAdmin cfg c username password
  commit pendingRollback (c.fault .commit)

/-! ### What an operation has done -/

namespace AuthService

variable {cfg : AuthSettings} {c : UserContext} {s s' : Session Users}

variable (cfg c) in
theorem preserves_authenticate (username password : String) :
    Preserves Session.committed (authenticate cfg c username password) := by
  refine preserves_bind preserves_query fun user => ?_
  cases user with
  | none => exact preserves_throw _
  | some user =>
    refine preserves_bind (preserves_lift _) fun ok => ?_
    split_ifs
    · exact preserves_pure _
    · exact preserves_throw _
    · exact preserves_throw _

theorem preserves_add (u : User) : Preserves Session.committed (UserRepository.add c u) :=
  preserves_bind preserves_flush fun _ => preserves_pure _

variable (cfg c) in
theorem preserves_createUser (payload : UserCreate) :
    Preserves Session.committed (createUser cfg c payload) := by
  refine preserves_bind preserves_query fun user => ?_
  cases user with
  | some user => exact preserves_throw _
  | none => exact preserves_bind (preserves_lift _) fun _ => preserves_add _

variable (cfg c) in
theorem preserves_ensureBootstrapAdmin (username password : String) :
    Preserves Session.committed (ensureBootstrapAdmin cfg c username password) := by
  refine preserves_bind preserves_query fun user => ?_
  cases user with
  | some user => exact preserves_pure _
  | none =>
    exact preserves_bind (preserves_lift _) fun _ => preserves_bind (preserves_add _) fun _ =>
      preserves_pure _

/-- A login has found an active user whose password verifies, and writes nothing. -/
theorem authenticate_ok {username password : String} {token : Token}
    (h : exec (authenticate cfg c username password) s = (.ok token, s')) :
    ∃ user, findUser username s.work = some user ∧
      verifyPassword cfg.passwords password user.hashedPassword = .ok true ∧
      user.isActive = true ∧ token = tokenFor cfg c user ∧ s' = s := by
  obtain ⟨user, t, hget, h⟩ := exec_bind_eq_ok.1 h
  obtain ⟨-, -, hfind, rfl⟩ := exec_query_eq_ok.1 hget
  have hfind := Except.ok.inj hfind
  cases user with
  | none => simp [Prod.ext_iff] at h
  | some user =>
    obtain ⟨ok, v, hlift, h⟩ := exec_bind_eq_ok.1 h
    obtain ⟨hverify, hv⟩ := exec_lift_eq_ok.1 hlift
    rw [hv] at h
    cases ok with
    | false => simp [Prod.ext_iff] at h
    | true =>
      simp only [if_true] at h
      split_ifs at h with hactive
      · obtain ⟨rfl, rfl⟩ := exec_pure_eq_ok.1 h
        exact ⟨user, hfind, hverify, hactive, rfl, rfl⟩
      · simp [Prod.ext_iff] at h

/-- A row has been inserted for a username that was free. -/
structure Added (c : UserContext) (users users' : Users) (username hashedPassword : String)
    (role : Role) : Prop where
  id_new : users.get? c.userId = none
  free : findUser username users = none
  put : users' = users.put (newUser c username hashedPassword role)

theorem add_ok {username hashedPassword : String} {role : Role} {u : User}
    (h : exec (UserRepository.add c (newUser c username hashedPassword role)) s = (.ok u, s')) :
    u = newUser c username hashedPassword role ∧
      Added c s.work s'.work username hashedPassword role := by
  obtain ⟨_, t, hflush, h⟩ := exec_bind_eq_ok.1 h
  obtain ⟨rfl, rfl⟩ := exec_pure_eq_ok.1 h
  obtain ⟨-, -, users, hrun, rfl⟩ := exec_flush_eq_ok.1 hflush
  cases hinsert : insertUser (newUser c username hashedPassword role) s.work with
  | error e =>
    rw [hinsert] at hrun
    cases hrun
  | ok ws =>
    obtain ⟨hid, hname, rfl⟩ := insertUser_ok hinsert
    rw [hinsert] at hrun
    exact ⟨rfl, hid, hname, (Except.ok.inj hrun).symm⟩

theorem createUser_ok {payload : UserCreate} {u : User}
    (h : exec (createUser cfg c payload) s = (.ok u, s')) :
    ∃ hashed, hashPassword cfg.passwords c.salt payload.password = .ok hashed ∧
      u = newUser c payload.username hashed payload.role ∧
      Added c s.work s'.work payload.username hashed payload.role := by
  obtain ⟨user, t, hget, h⟩ := exec_bind_eq_ok.1 h
  obtain ⟨-, -, -, rfl⟩ := exec_query_eq_ok.1 hget
  cases user with
  | some user => simp [Prod.ext_iff] at h
  | none =>
    obtain ⟨hashed, v, hlift, h⟩ := exec_bind_eq_ok.1 h
    obtain ⟨hhash, hv⟩ := exec_lift_eq_ok.1 hlift
    rw [hv] at h
    exact ⟨hashed, hhash, add_ok h⟩

/-- The username was in the table, or is inserted. -/
theorem ensureBootstrapAdmin_ok {username password : String} {u : Unit}
    (h : exec (ensureBootstrapAdmin cfg c username password) s = (.ok u, s')) :
    (∃ user, findUser username s.work = some user) ∧ s' = s ∨
      ∃ hashed, hashPassword cfg.passwords c.salt password = .ok hashed ∧
        Added c s.work s'.work username hashed .admin := by
  obtain ⟨user, t, hget, h⟩ := exec_bind_eq_ok.1 h
  obtain ⟨-, -, hfind, rfl⟩ := exec_query_eq_ok.1 hget
  cases user with
  | some user =>
    obtain ⟨-, rfl⟩ := exec_pure_eq_ok.1 h
    exact .inl ⟨⟨user, Except.ok.inj hfind⟩, rfl⟩
  | none =>
    obtain ⟨hashed, v, hlift, h⟩ := exec_bind_eq_ok.1 h
    obtain ⟨hhash, hv⟩ := exec_lift_eq_ok.1 hlift
    rw [hv] at h
    obtain ⟨_, w, hadd, hend⟩ := exec_bind_eq_ok.1 h
    obtain ⟨-, rfl⟩ := exec_pure_eq_ok.1 hend
    exact .inr ⟨hashed, hhash, (add_ok hadd).2⟩

end AuthService

/-! ### What is committed -/

section
variable (c : UserContext) (users : Users)

theorem ended_withUsers {α : Type} {handler : UserSessionM α}
    (h : Preserves Session.committed handler) :
    Ended handler users (exec (withUsers c handler) (Session.begin users)).1
      (exec (withUsers c handler) (Session.begin users)).2.committed := ended_transact h

theorem ended_bootstrap (cfg : AuthSettings) (username password : String) :
    Ended (AuthService.ensureBootstrapAdmin cfg c username password) users
      (exec (bootstrap cfg c username password) (Session.begin users)).1
      (exec (bootstrap cfg c username password) (Session.begin users)).2.committed := by
  have hkept := AuthService.preserves_ensureBootstrapAdmin cfg c username password
    (Session.begin users)
  rw [bootstrap, exec_bind]
  cases hrun : exec (AuthService.ensureBootstrapAdmin cfg c username password)
      (Session.begin users) with
  | mk r s =>
    rw [hrun] at hkept
    cases r with
    | error e =>
      dsimp only at hkept ⊢
      rw [hkept]
      exact .failed e
    | ok u =>
      dsimp only at hkept ⊢
      rcases exec_commit pendingRollback (c.fault .commit) s with ⟨e, t, hcommit, ht⟩ | hcommit
      · rw [hcommit]
        dsimp only
        rw [ht, hkept]
        exact .failed e
      · rw [hcommit]
        exact .returned u s hrun

end

/-! ### Logins when the database does not fail -/

/-- What `authenticate` says of the row it has found. -/
def AuthService.verdict (cfg : AuthSettings) (c : UserContext) (password : String) :
    Option User → Except Exc Token
  | none => .error incorrectPassword
  | some user =>
    match verifyPassword cfg.passwords password user.hashedPassword with
    | .error e => .error e
    | .ok false => .error incorrectPassword
    | .ok true => if user.isActive then .ok (tokenFor cfg c user) else .error userDisabled

theorem exec_login {cfg : AuthSettings} {c : UserContext} {users : Users}
    (hquery : c.userFault .getByUsername = none) (hcommit : c.fault .commit = none)
    (hrollback : c.fault .rollback = none) (username password : String) :
    (exec (withUsers c (AuthService.authenticate cfg c username password))
      (Session.begin users)).1 =
        AuthService.verdict cfg c password (findUser username users) := by
  rw [withUsers, exec_tryCatch, exec_bind, AuthService.authenticate, exec_bind,
    UserRepository.getByUsername, Session.begin, exec_query, hquery, attempt_none]
  dsimp only
  cases findUser username users with
  | none =>
    rw [hrollback]
    rfl
  | some user =>
    dsimp only
    rw [exec_bind, exec_lift, AuthService.verdict]
    cases verifyPassword cfg.passwords password user.hashedPassword with
    | error e =>
      rw [hrollback]
      rfl
    | ok ok =>
      cases ok with
      | false =>
        rw [hrollback]
        rfl
      | true =>
        by_cases hactive : user.isActive = true
        · simp only [hactive, if_true, exec_pure, hcommit]
          rfl
        · simp only [hactive, if_true, hrollback]
          rfl

end FaceRecognition.Services
