import FaceRecognition.Core.Exceptions
import FaceRecognition.Db.Schema

/-!
# The statements of a flush

Each statement the ORM emits, with the constraints of the schema and the triggers of revision 0004:
run on the database its transaction sees, it fails or gives the writes it makes. The `..._ok`
lemmas say once what a statement that succeeds has checked and written; nothing later unfolds a
statement.
-/

namespace FaceRecognition.Db

open Relational Recognition

def valueTooLong (n : ℕ) : Exc :=
  ⟨.dataError, "value too long for type character varying(" ++ toString n ++ ")", []⟩

def uniqueViolation (index : String) : Exc :=
  ⟨.integrityError, "duplicate key value violates unique constraint " ++ index, []⟩

def notNullViolation (column : String) : Exc :=
  ⟨.integrityError, "null value in column " ++ column ++ " violates not-null constraint", []⟩

def staleData (table : String) : Exc :=
  ⟨.staleDataError, "UPDATE statement on table " ++ table ++
    " expected to update 1 row(s); 0 were matched.", []⟩

def require (c : Bool) (e : Exc) : Except Exc Unit := if c then .ok () else .error e

@[simp] theorem require_bind {α : Type} {c : Bool} {e : Exc} {k : Unit → Except Exc α} {r : α} :
    (require c e >>= k) = .ok r ↔ c = true ∧ k () = .ok r := by
  cases c
  · exact ⟨fun h => (by cases h), fun h => (by cases h.1)⟩
  · exact ⟨fun h => ⟨rfl, h⟩, fun h => h.2⟩

theorem require_bind_error {α : Type} {c : Bool} {e e' : Exc} {k : Unit → Except Exc α} :
    (require c e >>= k) = .error e' ↔ c = false ∧ e = e' ∨ c = true ∧ k () = .error e' := by
  cases c with
  | false =>
    constructor
    · exact fun h => .inl ⟨rfl, Except.error.inj h⟩
    · rintro (⟨-, rfl⟩ | ⟨h, -⟩)
      · rfl
      · cases h
  | true =>
    constructor
    · exact fun h => .inr ⟨rfl, h⟩
    · rintro (⟨h, -⟩ | ⟨-, h⟩)
      · cases h
      · exact h

theorem map_require_bind {α β : Type} (c : Bool) (e : Exc) (k : Unit → Except Exc α) (f : α → β) :
    (require c e >>= k).map f = require c e >>= fun u => (k u).map f := by
  cases c <;> rfl

/-- `VARCHAR(n)` -/
def fits (n : ℕ) (s : Option String) : Bool := (s.getD "").length ≤ n

/-- No other person has this external id; NULLs never collide. -/
def externalIdFree (db : Database) (id : UUID) (externalId : Option String) : Bool :=
  externalId.isNone || db.persons.rows.all fun q => q.id = id || q.externalId ≠ externalId

/-! ### Persons -/

def insertPerson (p : Person) (db : Database) : Except Exc (List Write) := do
  require (fits 128 p.externalId) (valueTooLong 128)
  require (fits 255 (some p.fullName)) (valueTooLong 255)
  require (db.persons.get? p.id).isNone (uniqueViolation "persons_pkey")
  require (externalIdFree db p.id p.externalId) (uniqueViolation "ix_persons_external_id")
  return [.putPerson p]

/-- The SET clause of an UPDATE of one person: a column is there when it is not `none`, and its
value may be NULL. -/
structure PersonSet where
  externalId : Option (Option String) := none
  fullName : Option (Option String) := none
  metadata : Option Json := none
  isActive : Option (Option Bool) := none
  deriving DecidableEq, Repr

def PersonSet.isEmpty (s : PersonSet) : Bool :=
  s.externalId.isNone && s.fullName.isNone && s.metadata.isNone && s.isActive.isNone

/-- `persons_propagate_is_active`, after an UPDATE OF is_active. -/
def personsPropagateIsActive (old new : Person) (db : Database) : List Write :=
  if new.isActive ≠ old.isActive then
    (db.faces.rows.filter fun f => f.personId = new.id).map fun f =>
      .putFace { f with isActive := new.isActive }
  else []

def updatePerson (id : UUID) (s : PersonSet) (now : Time) (db : Database) :
    Except Exc (List Write) :=
  match db.persons.get? id with
  | none => .error (staleData "persons")
  | some old => do
    let externalId := s.externalId.getD old.externalId
    require (fits 128 externalId) (valueTooLong 128)
    require (fits 255 (s.fullName.getD (some old.fullName))) (valueTooLong 255)
    require (s.fullName ≠ some none) (notNullViolation "full_name")
    require (s.isActive ≠ some none) (notNullViolation "is_active")
    require (externalIdFree db id externalId) (uniqueViolation "ix_persons_external_id")
    let new : Person :=
      { old with
        externalId := externalId
        fullName := (s.fullName.getD none).getD old.fullName
        metadata := s.metadata.getD old.metadata
        isActive := (s.isActive.getD none).getD old.isActive
        updatedAt := now }
    return .putPerson new :: personsPropagateIsActive old new db

/-- DELETE of one person; `ON DELETE CASCADE` takes its faces. -/
def deletePerson (id : UUID) (db : Database) : Except Exc (List Write) :=
  .ok (((db.faces.rows.filter fun f => f.personId = id).map fun f => .dropFace f.id) ++
    [.dropPerson id])

/-! ### Faces -/

/-- `faces_set_is_active`, before an INSERT: `NEW.is_active` is NULL when no person is found. -/
def facesSetIsActive (new : Face) (db : Database) : Option Face :=
  (db.persons.get? new.personId).map fun p => { new with isActive := p.isActive }

def insertFace (f : Face) (db : Database) : Except Exc (List Write) := do
  require (fits 1024 f.imagePath) (valueTooLong 1024)
  match facesSetIsActive f db with
  | none => .error (notNullViolation "is_active")
  | some new =>
    require (db.faces.get? new.id).isNone (uniqueViolation "faces_pkey")
    return [.putFace new]

/-- The SET clause of an image replacement. It names neither `person_id` nor `is_active`. -/
structure FaceSet where
  embedding : Embedding
  detScore : ℚ
  quality : Option ℚ
  bbox : Option BBox
  thumbnail : Option Bytes
  imagePath : Option String

def updateFace (id : UUID) (s : FaceSet) (now : Time) (db : Database) : Except Exc (List Write) :=
  match db.faces.get? id with
  | none => .error (staleData "faces")
  | some old => do
    require (fits 1024 (s.imagePath <|> old.imagePath)) (valueTooLong 1024)
    return [.putFace
      { old with
        embedding := s.embedding
        detScore := s.detScore
        quality := s.quality
        bbox := s.bbox
        thumbnail := s.thumbnail
        imagePath := s.imagePath <|> old.imagePath
        updatedAt := now }]

def deleteFace (id : UUID) (_ : Database) : Except Exc (List Write) := .ok [.dropFace id]

/-! ### Logs -/

def insertLog (l : RecognitionLog) (db : Database) : Except Exc (List Write) := do
  require (fits 255 l.userId) (valueTooLong 255)
  require (fits 64 l.clientIp) (valueTooLong 64)
  require (fits 512 l.message) (valueTooLong 512)
  require (db.logs.get? l.id).isNone (uniqueViolation "recognition_logs_pkey")
  return [.putLog l]

/-! ### All statements -/

inductive Statement where
  | insertPerson (p : Person)
  | updatePerson (id : UUID) (s : PersonSet) (now : Time)
  | deletePerson (id : UUID)
  | insertFace (f : Face)
  | updateFace (id : UUID) (s : FaceSet) (now : Time)
  | deleteFace (id : UUID)
  | insertLog (l : RecognitionLog)

def Statement.run : Statement → Database → Except Exc (List Write)
  | .insertPerson p => Db.insertPerson p
  | .updatePerson id s now => Db.updatePerson id s now
  | .deletePerson id => Db.deletePerson id
  | .insertFace f => Db.insertFace f
  | .updateFace id s now => Db.updateFace id s now
  | .deleteFace id => Db.deleteFace id
  | .insertLog l => Db.insertLog l

/-! ### What a statement that succeeds has done -/

section
variable {db : Database} {ws : List Write}

theorem insertPerson_eq_ok {p : Person} : insertPerson p db = .ok ws ↔
    (fits 128 p.externalId = true ∧ fits 255 (some p.fullName) = true ∧
      db.persons.get? p.id = none ∧ externalIdFree db p.id p.externalId = true) ∧
      ws = [.putPerson p] := by
  simp only [insertPerson, require_bind, pure, Except.pure, Except.ok.injEq,
    Option.isNone_iff_eq_none, and_assoc, @eq_comm _ _ ws]

theorem insertPerson_ok {p : Person} (h : insertPerson p db = .ok ws) :
    flag db p.id = none ∧ ws = [.putPerson p] := by
  obtain ⟨⟨-, -, hnew, -⟩, rfl⟩ := insertPerson_eq_ok.1 h
  exact ⟨congrArg (Option.map Person.isActive) hnew, rfl⟩

/-- The row after the UPDATE. -/
def PersonSet.applyTo (s : PersonSet) (now : Time) (old : Person) : Person :=
  { old with
    externalId := s.externalId.getD old.externalId
    fullName := (s.fullName.getD none).getD old.fullName
    metadata := s.metadata.getD old.metadata
    isActive := (s.isActive.getD none).getD old.isActive
    updatedAt := now }

/-- The row of an UPDATE passes the constraints of the table. -/
structure PersonSet.Admissible (s : PersonSet) (old : Person) (db : Database) : Prop where
  externalId_fits : fits 128 (s.externalId.getD old.externalId) = true
  fullName_fits : fits 255 (s.fullName.getD (some old.fullName)) = true
  fullName_notNull : s.fullName ≠ some none
  isActive_notNull : s.isActive ≠ some none
  externalId_free : externalIdFree db old.id (s.externalId.getD old.externalId) = true

theorem updatePerson_eq_ok {id : UUID} {s : PersonSet} {now : Time} :
    updatePerson id s now db = .ok ws ↔ ∃ old, db.persons.get? id = some old ∧
      s.Admissible old db ∧ ws = .putPerson (s.applyTo now old) ::
        personsPropagateIsActive old (s.applyTo now old) db := by
  rw [updatePerson]
  cases hold : db.persons.get? id with
  | none => simp
  | some old =>
    obtain rfl : old.id = id := Table.pk_of_get? hold
    simp only [require_bind, pure, Except.pure, Except.ok.injEq, decide_eq_true_eq]
    constructor
    · rintro ⟨h₁, h₂, h₃, h₄, h₅, rfl⟩
      exact ⟨old, rfl, ⟨h₁, h₂, h₃, h₄, h₅⟩, rfl⟩
    · rintro ⟨_, ⟨⟩, h, rfl⟩
      exact ⟨h.externalId_fits, h.fullName_fits, h.fullName_notNull, h.isActive_notNull,
        h.externalId_free, rfl⟩

/-- Why the INSERT of a person fails. -/
theorem insertPerson_error {p : Person} {e : Exc} (h : insertPerson p db = .error e) :
    fits 128 p.externalId = false ∧ e = valueTooLong 128 ∨ e = valueTooLong 255 ∨
      e = uniqueViolation "persons_pkey" ∨
      externalIdFree db p.id p.externalId = false ∧ e = uniqueViolation "ix_persons_external_id" := by
  simp only [insertPerson, require_bind_error] at h
  rcases h with ⟨hid, rfl⟩ | ⟨-, ⟨-, rfl⟩ | ⟨-, ⟨-, rfl⟩ | ⟨-, ⟨hfree, rfl⟩ | ⟨-, h⟩⟩⟩⟩
  · exact .inl ⟨hid, rfl⟩
  · exact .inr (.inl rfl)
  · exact .inr (.inr (.inl rfl))
  · exact .inr (.inr (.inr ⟨hfree, rfl⟩))
  · cases h

/-- Why the UPDATE of a stored person fails. -/
theorem updatePerson_error {id : UUID} {s : PersonSet} {now : Time} {old : Person} {e : Exc}
    (hold : db.persons.get? id = some old) (h : updatePerson id s now db = .error e) :
    fits 128 (s.externalId.getD old.externalId) = false ∧ e = valueTooLong 128 ∨
      e = valueTooLong 255 ∨ e = notNullViolation "full_name" ∨ e = notNullViolation "is_active" ∨
      externalIdFree db id (s.externalId.getD old.externalId) = false ∧
        e = uniqueViolation "ix_persons_external_id" := by
  simp only [updatePerson, hold, require_bind_error] at h
  rcases h with ⟨hid, rfl⟩ | ⟨-, ⟨-, rfl⟩ | ⟨-, ⟨-, rfl⟩ | ⟨-, ⟨-, rfl⟩ | ⟨-, ⟨hfree, rfl⟩ | ⟨-, h⟩⟩⟩⟩⟩
  · exact .inl ⟨hid, rfl⟩
  · exact .inr (.inl rfl)
  · exact .inr (.inr (.inl rfl))
  · exact .inr (.inr (.inr (.inl rfl)))
  · exact .inr (.inr (.inr (.inr ⟨hfree, rfl⟩)))
  · cases h

theorem updatePerson_ok {id : UUID} {s : PersonSet} {now : Time}
    (h : updatePerson id s now db = .ok ws) :
    ∃ old new, db.persons.get? id = some old ∧ new.id = id ∧
      new.isActive = (s.isActive.getD none).getD old.isActive ∧
      ws = .putPerson new :: personsPropagateIsActive old new db := by
  obtain ⟨old, hold, -, rfl⟩ := updatePerson_eq_ok.1 h
  have hid : (s.applyTo now old).id = id := Table.pk_of_get? hold
  exact ⟨old, s.applyTo now old, hold, hid, rfl, rfl⟩

theorem insertFace_ok {f : Face} (h : insertFace f db = .ok ws) :
    ∃ p, db.persons.get? f.personId = some p ∧ db.faces.get? f.id = none ∧
      ws = [.putFace { f with isActive := p.isActive }] := by
  simp only [insertFace, facesSetIsActive, require_bind] at h
  obtain ⟨-, h⟩ := h
  cases hp : db.persons.get? f.personId with
  | none => simp [hp] at h
  | some p =>
    simp only [hp, Option.map_some, require_bind, pure, Except.pure, Except.ok.injEq] at h
    obtain ⟨hnew, rfl⟩ := h
    exact ⟨p, rfl, by simpa using hnew, rfl⟩

/-- The row after an image replacement. -/
def FaceSet.applyTo (s : FaceSet) (now : Time) (old : Face) : Face :=
  { old with
    embedding := s.embedding
    detScore := s.detScore
    quality := s.quality
    bbox := s.bbox
    thumbnail := s.thumbnail
    imagePath := s.imagePath <|> old.imagePath
    updatedAt := now }

theorem updateFace_eq_ok {id : UUID} {s : FaceSet} {now : Time} :
    updateFace id s now db = .ok ws ↔ ∃ old, db.faces.get? id = some old ∧
      fits 1024 (s.imagePath <|> old.imagePath) = true ∧ ws = [.putFace (s.applyTo now old)] := by
  rw [updateFace]
  cases db.faces.get? id with
  | none => simp
  | some old =>
    simp only [require_bind, pure, Except.pure, Except.ok.injEq, Option.some.injEq,
      exists_eq_left', @eq_comm _ _ ws]
    rfl

theorem updateFace_ok {id : UUID} {s : FaceSet} {now : Time}
    (h : updateFace id s now db = .ok ws) :
    ∃ old new, db.faces.get? id = some old ∧ new.id = id ∧ new.personId = old.personId ∧
      new.isActive = old.isActive ∧ ws = [.putFace new] := by
  obtain ⟨old, hold, -, rfl⟩ := updateFace_eq_ok.1 h
  have hid : (s.applyTo now old).id = id := Table.pk_of_get? hold
  exact ⟨old, s.applyTo now old, hold, hid, rfl, rfl, rfl⟩

/-- An INSERT of a face succeeds when its path fits, its person is there and its id is new. -/
theorem insertFace_succeeds_iff {f : Face} : (∃ ws, insertFace f db = .ok ws) ↔
    fits 1024 f.imagePath = true ∧ (db.persons.get? f.personId).isSome ∧
      (db.faces.get? f.id).isNone := by
  simp only [insertFace, facesSetIsActive, require_bind]
  cases hp : db.persons.get? f.personId with
  | none => simp
  | some p =>
    simp only [Option.map_some, require_bind, Option.isSome_some, true_and]
    constructor
    · rintro ⟨ws, hpath, hnew, -⟩
      exact ⟨hpath, hnew⟩
    · rintro ⟨hpath, hnew⟩
      exact ⟨_, hpath, hnew, rfl⟩

theorem insertLog_succeeds_iff {l : RecognitionLog} : (∃ ws, insertLog l db = .ok ws) ↔
    fits 255 l.userId = true ∧ fits 64 l.clientIp = true ∧ fits 512 l.message = true ∧
      db.logs.get? l.id = none := by
  simp only [insertLog, require_bind, pure, Except.pure, Except.ok.injEq,
    Option.isNone_iff_eq_none]
  constructor
  · rintro ⟨ws, hu, hi, hm, hnew, -⟩
    exact ⟨hu, hi, hm, hnew⟩
  · rintro ⟨hu, hi, hm, hnew⟩
    exact ⟨_, hu, hi, hm, hnew, rfl⟩

theorem insertLog_ok {l : RecognitionLog} (h : insertLog l db = .ok ws) : ws = [.putLog l] := by
  simp only [insertLog, require_bind, pure, Except.pure, Except.ok.injEq] at h
  exact h.2.2.2.2.symm

theorem insertLog_new {l : RecognitionLog} (h : insertLog l db = .ok ws) :
    db.logs.get? l.id = none := by
  simp only [insertLog, require_bind] at h
  simpa using h.2.2.2.1

/-! ### What an INSERT reads -/

theorem insertPerson_congr {db' : Database} (h : db.persons = db'.persons) (p : Person) :
    insertPerson p db = insertPerson p db' := by
  simp only [insertPerson, externalIdFree, h]

theorem insertLog_congr {db' : Database} (h : db.logs = db'.logs) (l : RecognitionLog) :
    insertLog l db = insertLog l db' := by
  simp only [insertLog, h]

end

end FaceRecognition.Db
