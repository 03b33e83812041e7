import FaceRecognition.Db.Repositories
import FaceRecognition.Lib.Transaction

/-!
# The keys of third parties

The table `api_keys` beside the other three, and its repository. Only the hash of a key is stored,
and no two rows share it.
-/

namespace FaceRecognition.Db

open Relational UnitOfWork

structure ApiKey where
  id : UUID
  name : String
  keyHash : String
  /-- the column `prefix` -/
  displayPrefix : String
  isActive : Bool
  createdBy : Option String
  lastUsedAt : Option Time
  createdAt : Time
  updatedAt : Time
  deriving DecidableEq, Repr

instance : PrimaryKey ApiKey UUID := ⟨ApiKey.id⟩

structure FullDatabase extends Database where
  apiKeys : Table ApiKey

/-- The tables that the services other than the one for keys use. -/
def tables : Part FullDatabase Database where
  get db := db.toDatabase
  put db part := { db with toDatabase := part }
  get_put _ _ := rfl
  put_get _ := rfl

/-! ### Statements -/

def insertApiKey (k : ApiKey) (db : FullDatabase) : Except Exc FullDatabase := do
  require (fits 128 (some k.name)) (valueTooLong 128)
  require (fits 64 (some k.keyHash)) (valueTooLong 64)
  require (fits 16 (some k.displayPrefix)) (valueTooLong 16)
  require (fits 255 k.createdBy) (valueTooLong 255)
  require (db.apiKeys.get? k.id).isNone (uniqueViolation "api_keys_pkey")
  require (db.apiKeys.rows.all fun q => q.keyHash ≠ k.keyHash)
    (uniqueViolation "ix_api_keys_key_hash")
  return { db with apiKeys := db.apiKeys.put k }

/-- An UPDATE that finds no row is none. `updated_at` has `onupdate=func.now()`. -/
def touchApiKey (id : UUID) (lastUsedAt now : Time) (db : FullDatabase) :
    Except Exc FullDatabase :=
  match db.apiKeys.get? id with
  | none => .ok db
  | some k =>
    .ok { db with
      apiKeys := db.apiKeys.put { k with lastUsedAt := some lastUsedAt, updatedAt := now } }

def deleteApiKey (id : UUID) (db : FullDatabase) : Except Exc FullDatabase :=
  .ok { db with apiKeys := db.apiKeys.erase id }

theorem insertApiKey_ok {k : ApiKey} {db db' : FullDatabase} (h : insertApiKey k db = .ok db') :
    db.apiKeys.get? k.id = none ∧ (∀ q ∈ db.apiKeys.rows, q.keyHash ≠ k.keyHash) ∧
      db' = { db with apiKeys := db.apiKeys.put k } := by
  simp only [insertApiKey, require_bind, pure, Except.pure, Except.ok.injEq] at h
  obtain ⟨-, -, -, -, hid, hhash, rfl⟩ := h
  exact ⟨by simpa using hid, by simpa using hhash, rfl⟩

/-! ### ApiKeyRepository -/

/-- The calls to the table that can fail. -/
inductive KeySite where
  | getActiveByHash
  | touch
  | get
  | add
  | delete
  deriving DecidableEq, Repr

/-- What a call gets from outside, with the clocks and the fresh values for keys. -/
structure KeyContext extends Context where
  /-- `uuid4()` for a new key -/
  keyId : UUID
  /-- `secrets.token_urlsafe(32)` -/
  token : String
  /-- `datetime.now(UTC)` -/
  utcNow : Time
  /-- `time.monotonic()` -/
  monotonic : ℚ
  keyFault : KeySite → Option Exc := fun _ => none

/-- No call to the table of keys fails. -/
def KeyContext.reliable (c : KeyContext) : KeyContext := { c with keyFault := fun _ => none }

abbrev KeySessionM := Action Exc (Session FullDatabase)

namespace ApiKeyRepository

variable (c : KeyContext)

def getActiveByHash (keyHash : String) : KeySessionM (Option ApiKey) :=
  query pendingRollback (c.keyFault .getActiveByHash) fun db =>
    .ok (db.apiKeys.rows.find? fun k => k.keyHash = keyHash ∧ k.isActive)

def touch (keyId : UUID) (lastUsedAt : Time) : KeySessionM Unit :=
  flush pendingRollback (c.keyFault .touch) (touchApiKey keyId lastUsedAt c.now)

def get (id : UUID) : KeySessionM (Option ApiKey) :=
  query pendingRollback (c.keyFault .get) fun db => .ok (db.apiKeys.get? id)

def add (k : ApiKey) : KeySessionM ApiKey := do
  flush pendingRollback (c.keyFault .add) (insertApiKey k)
  return k

def delete (k : ApiKey) : KeySessionM Unit :=
  flush pendingRollback (c.keyFault .delete) (deleteApiKey k.id)

end ApiKeyRepository

end FaceRecognition.Db
