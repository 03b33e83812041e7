import FaceRecognition.Core.Json
import FaceRecognition.Lib.ReadCommitted
import FaceRecognition.Recognition.Types

/-!
# The tables

The rows of `persons`, `faces` and `recognition_logs`, the database made of the three tables, and
the writes a statement can have. A face row extends the columns it had before revision 0004 by
`is_active`. The lemmas say what each table holds after a write.
-/

namespace FaceRecognition.Db

open Relational Recognition

/-- UUIDs are compared for equality only. -/
abbrev UUID := ℕ

abbrev Time := ℚ

structure Person where
  id : UUID
  externalId : Option String
  fullName : String
  metadata : Json
  isActive : Bool
  createdAt : Time
  updatedAt : Time
  deriving DecidableEq, Repr

/-- The columns of `faces` before revision 0004. -/
structure FaceBase where
  id : UUID
  personId : UUID
  embedding : Embedding
  detScore : ℚ
  quality : Option ℚ
  imagePath : Option String
  bbox : Option BBox
  thumbnail : Option Bytes
  createdAt : Time
  updatedAt : Time

structure Face extends FaceBase where
  isActive : Bool

inductive RecognitionAction where
  | register
  | verify
  | search
  | «import»
  deriving DecidableEq, Repr

structure RecognitionLog where
  id : UUID
  action : RecognitionAction
  personId : Option UUID
  matchedFaceId : Option UUID
  similarity : Option ℚ
  success : Bool
  userId : Option String
  clientIp : Option String
  message : Option String
  createdAt : Time
  updatedAt : Time
  deriving DecidableEq, Repr

instance : PrimaryKey Person UUID := ⟨Person.id⟩
instance : PrimaryKey FaceBase UUID := ⟨FaceBase.id⟩
instance : PrimaryKey Face UUID := ⟨fun f => f.id⟩
instance : PrimaryKey RecognitionLog UUID := ⟨RecognitionLog.id⟩

@[simp] theorem pk_person (p : Person) : pk p = p.id := rfl
@[simp] theorem pk_face (f : Face) : pk f = f.id := rfl

structure Database where
  persons : Table Person
  faces : Table Face
  logs : Table RecognitionLog

def Database.empty : Database := ⟨Table.empty, Table.empty, Table.empty⟩

/-! ### Writes -/

inductive Write where
  | putPerson (p : Person)
  | dropPerson (id : UUID)
  | putFace (f : Face)
  | dropFace (id : UUID)
  | putLog (l : RecognitionLog)

inductive RowId where
  | person (id : UUID)
  | face (id : UUID)
  | log (id : UUID)
  deriving DecidableEq, Repr

def Write.row : Write → RowId
  | .putPerson p => .person p.id
  | .dropPerson id => .person id
  | .putFace f => .face f.id
  | .dropFace id => .face id
  | .putLog l => .log l.id

def apply (db : Database) : Write → Database
  | .putPerson p => { db with persons := db.persons.put p }
  | .dropPerson id => { db with persons := db.persons.erase id }
  | .putFace f => { db with faces := db.faces.put f }
  | .dropFace id => { db with faces := db.faces.erase id }
  | .putLog l => { db with logs := db.logs.put l }

def engine : ReadCommitted.Engine Database Write RowId := ⟨apply, Write.row⟩

abbrev applyAll (db : Database) (ws : List Write) : Database := engine.applyAll db ws

@[simp] theorem applyAll_nil (db : Database) : applyAll db [] = db := rfl

@[simp] theorem applyAll_cons (db : Database) (w : Write) (ws : List Write) :
    applyAll db (w :: ws) = applyAll (apply db w) ws := rfl

/-- The `is_active` of a person, `none` when there is no such person. -/
def flag (db : Database) (p : UUID) : Option Bool := (db.persons.get? p).map Person.isActive

theorem reads_person (id : UUID) :
    ReadCommitted.Reads engine (fun db => db.persons.get? id) (.person id) where
  other db w h := by
    cases w with
    | putPerson p => exact Table.get?_put_of_ne _ fun he => h (congrArg RowId.person he)
    | dropPerson id' =>
      refine (Table.get?_erase _ _ _).trans (if_neg fun he => h (congrArg RowId.person he.symm))
    | putFace f => rfl
    | dropFace id' => rfl
    | putLog l => rfl
  own db db' w h := by
    cases w with
    | putPerson p =>
      have hp : pk p = id := RowId.person.inj h
      show (db.persons.put p).get? id = (db'.persons.put p).get? id
      rw [Table.get?_put, Table.get?_put, if_pos hp, if_pos hp]
    | dropPerson id' =>
      have hid : id = id' := (RowId.person.inj h).symm
      show (db.persons.erase id').get? id = (db'.persons.erase id').get? id
      rw [Table.get?_erase, Table.get?_erase, if_pos hid, if_pos hid]
    | putFace f => cases h
    | dropFace id' => cases h
    | putLog l => cases h

theorem reads_face (id : UUID) :
    ReadCommitted.Reads engine (fun db => db.faces.get? id) (.face id) where
  other db w h := by
    cases w with
    | putFace f => exact Table.get?_put_of_ne _ fun he => h (congrArg RowId.face he)
    | dropFace id' =>
      refine (Table.get?_erase _ _ _).trans (if_neg fun he => h (congrArg RowId.face he.symm))
    | putPerson p => rfl
    | dropPerson id' => rfl
    | putLog l => rfl
  own db db' w h := by
    cases w with
    | putFace f =>
      have hf : pk f = id := RowId.face.inj h
      show (db.faces.put f).get? id = (db'.faces.put f).get? id
      rw [Table.get?_put, Table.get?_put, if_pos hf, if_pos hf]
    | dropFace id' =>
      have hid : id = id' := (RowId.face.inj h).symm
      show (db.faces.erase id').get? id = (db'.faces.erase id').get? id
      rw [Table.get?_erase, Table.get?_erase, if_pos hid, if_pos hid]
    | putPerson p => cases h
    | dropPerson id' => cases h
    | putLog l => cases h

end FaceRecognition.Db
