import FaceRecognition.Core.Security
import FaceRecognition.Db.Repositories
import FaceRecognition.Lib.Sessions

/-!
# Users

The table `users` and its repository. No operation changes or removes a row; an insert needs a
username of its own (`insertUser_ok`), so no two rows ever share one (`UniqueUsernames`).
-/

namespace FaceRecognition.Db

open Relational UnitOfWork ReadCommitted Security

structure User where
  id : UUID
  username : String
  hashedPassword : String
  role : Role
  isActive : Bool
  createdAt : Time
  updatedAt : Time
  deriving DecidableEq, Repr

instance : PrimaryKey User UUID := ⟨User.id⟩

@[simp] theorem pk_user (u : User) : pk u = u.id := rfl

abbrev Users := Table User

/-- `user_repo.get_by_username` -/
def findUser (username : String) (users : Users) : Option User :=
  users.rows.find? fun u => u.username = username

/-- An INSERT: the row it writes. -/
def insertUser (u : User) (users : Users) : Except Exc (List User) := do
  require (fits 128 (some u.username)) (valueTooLong 128)
  require (fits 255 (some u.hashedPassword)) (valueTooLong 255)
  require (users.get? u.id).isNone (uniqueViolation "users_pkey")
  require (findUser u.username users).isNone (uniqueViolation "ix_users_username")
  return [u]

/-- An INSERT holds the entry of its username in the unique index until its transaction ends. -/
def usersEngine : Engine Users User String := ⟨Table.put, User.username⟩

/-- The look ups and the inserts of users. -/
def usersDbms : Dbms Users User String String User (Option User) Exc where
  engine := usersEngine
  look := findUser
  run := insertUser
  pending := pendingRollback

/-! ### Look ups and inserts -/

theorem findUser_eq_none {username : String} {users : Users} :
    findUser username users = none ↔ ∀ u ∈ users.rows, u.username ≠ username := by
  simp [findUser, List.find?_eq_none]

theorem findUser_mem {username : String} {users : Users} {u : User}
    (h : findUser username users = some u) : u ∈ users.rows ∧ u.username = username :=
  ⟨List.mem_of_find?_eq_some h, by simpa using List.find?_some h⟩

theorem insertUser_ok {u : User} {users : Users} {ws : List User}
    (h : insertUser u users = .ok ws) :
    users.get? u.id = none ∧ findUser u.username users = none ∧ ws = [u] := by
  simp only [insertUser, require_bind, pure, Except.pure, Except.ok.injEq] at h
  obtain ⟨-, -, hid, hname, rfl⟩ := h
  exact ⟨by simpa using hid, by simpa using hname, rfl⟩

def UniqueUsernames (users : Users) : Prop :=
  ∀ u ∈ users.rows, ∀ v ∈ users.rows, u.username = v.username → u = v

/-- What a look up finds after an insert. -/
theorem findUser_put {users : Users} {u : User} (hid : users.get? u.id = none) (username : String) :
    findUser username (users.put u) =
      (findUser username users).or (if u.username = username then some u else none) := by
  rw [findUser, Table.rows_put_of_new hid, List.find?_append, List.find?_singleton, findUser]
  simp only [decide_eq_true_eq]

/-! ### UserRepository -/

inductive UserSite where
  | getByUsername
  | add
  deriving DecidableEq, Repr

/-- What a call gets from outside. -/
structure UserContext extends Context where
  /-- `uuid4()` for a new user -/
  userId : UUID
  /-- The salt a password is hashed with. -/
  salt : ℕ
  /-- `datetime.now(UTC)` -/
  utcNow : Time
  userFault : UserSite → Option Exc := fun _ => none

abbrev UserSessionM := Action Exc (Session Users)

namespace UserRepository

variable (c : UserContext)

def getByUsername (username : String) : UserSessionM (Option User) :=
  query pendingRollback (c.userFault .getByUsername) fun users => .ok (findUser username users)

def add (u : User) : UserSessionM User := do
  flush pendingRollback (c.userFault .add) fun users =>
    (insertUser u users).map (usersEngine.applyAll users)
  return u

end UserRepository

end FaceRecognition.Db
