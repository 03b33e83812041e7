import FaceRecognition.Api.Application

/-!
# Accounts

The abstract side of the table `users`: the past of a worker says which accounts there are, by the
first event that has credited each username (`account`). The rows of the table are these accounts
(`Agrees`, kept by every operation), so what a login answers is decided by the past alone.
-/

namespace FaceRecognition.Api

open Relational Recognition Db UnitOfWork Services Security

abbrev AppEvent := AppOp × AppAnswer

structure Account where
  username : String
  /-- What is left of the password. -/
  password : Bytes
  role : Role
  deriving DecidableEq, Repr

/-- The account that an event leaves behind when there is none with the username. -/
def credited : AppEvent → Option Account
  | (.startup _ username password, .bootstrapped (.ok _)) =>
    if username.getD "" = "" ∨ password.getD "" = "" then none
    else some ⟨username.getD "", truncateSecret (password.getD ""), .admin⟩
  | (.createAdmin _ username password, .bootstrapped (.ok _)) =>
    some ⟨username, truncateSecret password, .admin⟩
  | (.request _ (.createUser _ payload), .served _ (.ok _)) =>
    some ⟨payload.username, truncateSecret payload.password, payload.role⟩
  | _ => none

theorem credited_refused (op : AppOp) (refusal : Refusal) :
    credited (op, .refused refusal) = none := by
  cases op with
  | request http route => cases route <;> rfl
  | login | startup | createAdmin | external => rfl

/-- The account of a username. -/
def account (past : List AppEvent) (username : String) : Option Account :=
  (past.filterMap credited).find? fun a => a.username = username

theorem account_concat (past : List AppEvent) (e : AppEvent) (username : String) :
    account (past ++ [e]) username =
      (account past username).or ((credited e).filter fun a => a.username = username) := by
  rw [account, List.filterMap_append, List.find?_append, account]
  cases hcredited : credited e with
  | none => simp [hcredited]
  | some a =>
    rw [List.filterMap_cons_some hcredited, List.filterMap_nil, List.find?_singleton,
      Option.filter_some]

/-- The event that has left the account behind. -/
theorem account_eq_some {past : List AppEvent} {username : String} {a : Account}
    (h : account past username = some a) :
    a.username = username ∧ ∃ pre e post, past = pre ++ e :: post ∧ credited e = some a := by
  obtain ⟨e, he, hcredited⟩ := List.mem_filterMap.1 (List.mem_of_find?_eq_some h)
  obtain ⟨pre, post, hpast⟩ := List.append_of_mem he
  exact ⟨by simpa using List.find?_some h, pre, e, post, hpast, hcredited⟩

/-! ### The rows of the accounts -/

/-- The row of the account. -/
structure Stored (cfg : AppSettings) (a : Account) (u : User) : Prop where
  username : u.username = a.username
  role : u.role = a.role
  active : u.isActive = true
  length : a.password.length ≤ bcryptMaxBytes
  hash : ∃ salt, cfg.auth.passwords.hash salt a.password = .ok u.hashedPassword

/-- The table holds the accounts and nothing else. -/
def Agrees (cfg : AppSettings) (past : List AppEvent) (users : Users) : Prop :=
  ∀ username, Option.Rel (Stored cfg) (account past username) (findUser username users)

theorem agrees_empty (cfg : AppSettings) : Agrees cfg [] Table.empty := fun _ => .none

/-- What an operation does to the table of users: an event that credits an account finds its
username there, or inserts its row. -/
inductive UsersAfter (cfg : AppSettings) (users : Users) (e : AppEvent) : Users → Prop
  | kept (h : credited e = none) : UsersAfter cfg users e users
  | found (a : Account) (h : credited e = some a) (u : User)
    (hfound : findUser a.username users = some u) : UsersAfter cfg users e users
  | added (a : Account) (h : credited e = some a) (u : User) (hu : Stored cfg a u)
    (hid : users.get? u.id = none) (hfree : findUser a.username users = none) :
    UsersAfter cfg users e (users.put u)

section
variable {cfg : AppSettings} {w : AppWorld} {c : UserContext}

theorem usersAfter_added {users users' : Users} {e : AppEvent} {username password hashed : String}
    {role : Role} (h : credited e = some ⟨username, truncateSecret password, role⟩)
    (hhash : hashPassword cfg.auth.passwords c.salt password = .ok hashed)
    (hadded : AuthService.Added c users users' username hashed role) :
    UsersAfter cfg users e users' := by
  rw [hadded.put]
  exact .added _ h _ ⟨rfl, rfl, rfl, truncateSecret_length password, c.salt, hhash⟩ hadded.id_new
    hadded.free

/-- A worker's start or the script. -/
theorem usersAfter_bootstrap {op : AppOp} {username password : String} {answer : AppAnswer}
    (hanswer : answer = .bootstrapped (onUsers (bootstrap cfg.auth c username password) w).2)
    (hnone : ∀ e, credited (op, .bootstrapped (.error e)) = none)
    (hsome : credited (op, .bootstrapped (.ok ())) =
      some ⟨username, truncateSecret password, .admin⟩) :
    UsersAfter cfg w.users (op, answer)
      (onUsers (bootstrap cfg.auth c username password) w).1.users := by
  have hended := ended_bootstrap c w.users cfg.auth username password
  subst hanswer
  dsimp only [onUsers]
  generalize (exec (bootstrap cfg.auth c username password) (Session.begin w.users)).1 = r at *
  generalize (exec (bootstrap cfg.auth c username password)
    (Session.begin w.users)).2.committed = users' at *
  cases hended with
  | failed e => exact .kept (hnone e)
  | returned _ s hrun =>
    rcases AuthService.ensureBootstrapAdmin_ok hrun with
      ⟨⟨u, hfound⟩, rfl⟩ | ⟨hashed, hhash, hadded⟩
    · exact .found _ hsome u hfound
    · exact usersAfter_added hsome hhash hadded

theorem usersAfter_createUser {http : Http} {user : TokenPayload} {payload : UserCreate} :
    UsersAfter cfg w.users (.request http (.createUser c payload),
        .served user (handle cfg user http w (.createUser c payload)).2)
      (handle cfg user http w (.createUser c payload)).1.users := by
  have hended := ended_withUsers c w.users (AuthService.preserves_createUser cfg.auth c payload)
  dsimp only [handle, onUsers]
  generalize (exec (withUsers c (AuthService.createUser cfg.auth c payload))
    (Session.begin w.users)).1 = r at *
  generalize (exec (withUsers c (AuthService.createUser cfg.auth c payload))
    (Session.begin w.users)).2.committed = users' at *
  cases hended with
  | failed e => exact .kept rfl
  | returned u s hrun =>
    obtain ⟨hashed, hhash, -, hadded⟩ := AuthService.createUser_ok hrun
    exact usersAfter_added rfl hhash hadded

theorem users_withinEnrollLimit {http : Http} {handler : AppWorld → AppWorld × Except Exc Unit}
    (h : ∀ w, (handler w).1.users = w.users) :
    (withinEnrollLimit cfg http handler w).1.users = w.users := by
  rw [withinEnrollLimit]
  split_ifs
  · exact h _
  · rfl

/-- **Only the creation of users writes to their table.** -/
theorem usersAfter_serve (cfg : AppSettings) (w : AppWorld) (op : AppOp) :
    UsersAfter cfg w.users (op, (serve cfg w op).2) (serve cfg w op).1.users := by
  cases op with
  | login c username password =>
    have hended := ended_withUsers c w.users
      (AuthService.preserves_authenticate cfg.auth c username password)
    dsimp only [serve, onUsers]
    generalize (exec (withUsers c (AuthService.authenticate cfg.auth c username password))
      (Session.begin w.users)).1 = r at *
    generalize (exec (withUsers c (AuthService.authenticate cfg.auth c username password))
      (Session.begin w.users)).2.committed = users' at *
    cases hended with
    | failed e => exact .kept rfl
    | returned token s hrun =>
      obtain ⟨-, -, -, -, -, rfl⟩ := AuthService.authenticate_ok hrun
      exact .kept rfl
  | startup c username password =>
    by_cases hempty : username.getD "" = "" ∨ password.getD "" = ""
    · rw [serve, if_pos hempty]
      exact .kept (if_pos hempty)
    · rw [serve, if_neg hempty]
      exact usersAfter_bootstrap rfl (fun e => rfl) (if_neg hempty)
  | createAdmin c username password => exact usersAfter_bootstrap rfl (fun e => rfl) rfl
  | request http route =>
    rw [serve]
    cases guard cfg.auth.toTokenSettings route.minimum http with
    | error refusal => exact .kept (credited_refused _ refusal)
    | ok user =>
      cases route with
      | createUser c payload => exact usersAfter_createUser
      | enrollByName c personName image =>
        have husers : (handle cfg user http w (.enrollByName c personName image)).1.users =
            w.users := users_withinEnrollLimit fun _ => rfl
        rw [husers]
        exact .kept rfl
      | read c fault what => exact .kept rfl
      | createPerson c payload => exact .kept rfl
      | updatePerson c personId payload => exact .kept rfl
      | deletePerson c personId => exact .kept rfl
      | registerFace c personId image => exact .kept rfl
      | replaceFaceImage c faceId image => exact .kept rfl
      | deleteFace c faceId => exact .kept rfl
      | verifyFace c personId image => exact .kept rfl
      | searchFaces c image topK => exact .kept rfl
      | bulkImport env jobId rootPath => exact .kept rfl
      | createKey c name => exact .kept rfl
      | revokeKey c keyId => exact .kept rfl
  | external c http image key => exact .kept rfl

end

/-! ### Every operation keeps the agreement -/

theorem Agrees.step {cfg : AppSettings} {past : List AppEvent} {users users' : Users} {e : AppEvent}
    (h : Agrees cfg past users) (hafter : UsersAfter cfg users e users') :
    Agrees cfg (past ++ [e]) users' := by
  intro username
  rw [account_concat]
  cases hafter with
  | kept hnone =>
    rw [hnone, Option.filter_none, Option.or_none]
    exact h username
  | found a hsome u hfound =>
    have ha := h a.username
    rw [hfound] at ha
    cases hfirst : account past username with
    | some b =>
      rw [Option.some_or, ← hfirst]
      exact h username
    | none =>
      have hne : a.username ≠ username := by
        rintro rfl
        rw [hfirst] at ha
        cases ha
      rw [hsome, Option.none_or, Option.filter_some, if_neg (by simpa using hne), ← hfirst]
      exact h username
  | added a hsome u hu hid hfree =>
    have hrel := h username
    rw [findUser_put hid, hu.username, hsome]
    by_cases hname : a.username = username
    · subst hname
      rw [hfree] at hrel ⊢
      cases hacc : account past a.username with
      | some b =>
        rw [hacc] at hrel
        cases hrel
      | none =>
        rw [Option.filter_some, if_pos (by simp), if_pos rfl]
        exact .some hu
    · rw [Option.filter_some, if_neg (by simpa using hname), if_neg hname, Option.or_none,
        Option.or_none]
      exact hrel

end FaceRecognition.Api
