import FaceRecognition.Core.Numbers
import FaceRecognition.Db.Mirror
import FaceRecognition.Lib.Ranking
import FaceRecognition.Lib.UnitOfWork

/-!
# Repositories

The database calls of the services, on a session. A `Context` holds what a call gets from outside:
the time of the transaction, the fresh ids, the persons other clients have committed so far, and
the failure of each call when it has one. When nobody else writes, a call keeps what its statement
keeps (`keeps_keptBy`).
-/

namespace FaceRecognition.Db

open Relational Recognition UnitOfWork

/-- The calls to the database that can fail, and the rendering of the response. -/
inductive Site where
  | getPerson
  | getByName
  | getByExternalId
  | addPerson
  | flushPerson
  | deletePerson
  | getFace
  | searchFaces
  | addFace
  | flushFace
  | deleteFace
  | addLog
  | commit
  | rollback
  | respond
  deriving DecidableEq, Repr

structure Context where
  /-- `now()` of the transaction -/
  now : Time
  /-- `uuid4()` for a new person -/
  personId : UUID
  faceId : UUID
  logId : UUID
  /-- Persons other clients have committed since the session began. -/
  others : List Person := []
  fault : Site → Option Exc := fun _ => none

/-- The same without other clients. -/
def Context.alone (c : Context) : Context := { c with others := [] }

def addMissing (t : Table Person) (p : Person) : Table Person :=
  match t.get? p.id with
  | some _ => t
  | none => t.put p

/-- What a statement sees: the own transaction's database and what others have committed. -/
def Context.view (c : Context) (db : Database) : Database :=
  { db with persons := c.others.foldl addMissing db.persons }

theorem Context.view_of_alone {c : Context} (h : c.others = []) (db : Database) :
    c.view db = db := by
  rw [view, h]
  rfl

theorem get?_addMissing (t : Table Person) (p : Person) (id : UUID) :
    (addMissing t p).get? id = (t.get? id).or (if p.id = id then some p else none) := by
  rw [addMissing]
  cases hp : t.get? p.id with
  | some q =>
    by_cases h : p.id = id
    · simp [← h, hp]
    · simp [h]
  | none =>
    rw [Table.get?_put, pk_person]
    by_cases h : p.id = id
    · simp [← h, hp]
    · simp [h]

/-- The own row, or the first one that others have committed. -/
theorem get?_view (c : Context) (db : Database) (id : UUID) :
    (c.view db).persons.get? id = (db.persons.get? id).or (c.others.find? fun p => p.id = id) := by
  show (c.others.foldl addMissing db.persons).get? id = _
  generalize db.persons = t
  induction c.others generalizing t with
  | nil => simp
  | cons p others ih =>
    rw [List.foldl_cons, ih, get?_addMissing, Option.or_assoc, List.find?_cons]
    by_cases h : p.id = id <;> simp [h]

abbrev SessionM := Action Exc (Session Database)

def pendingRollback : Exc :=
  ⟨.pendingRollbackError, "This Session's transaction has been rolled back due to a previous " ++
    "exception during flush.", []⟩

def select {α : Type} (c : Context) (site : Site) (f : Database → α) : SessionM α :=
  query pendingRollback (c.fault site) fun db => .ok (f (c.view db))

/-- A statement on what the transaction sees, its writes to the own database. -/
def execute (c : Context) (q : Statement) (db : Database) : Except Exc Database :=
  (q.run (c.view db)).map (applyAll db)

def flushStatement (c : Context) (site : Site) (q : Statement) : SessionM Unit :=
  flush pendingRollback (c.fault site) (execute c q)

theorem exec_select {α : Type} (c : Context) (site : Site) (f : Database → α)
    (committed work : Database) :
    exec (select c site f) ⟨committed, work, false⟩ =
      match attempt (c.fault site) (.ok (f (c.view work))) with
      | .error e => (.error e, ⟨committed, work, true⟩)
      | .ok a => (.ok a, ⟨committed, work, false⟩) := by
  rw [select, exec_query]
  cases attempt (c.fault site) (.ok (f (c.view work)) : Except Exc α) <;> rfl

theorem exec_flushStatement (c : Context) (site : Site) (q : Statement)
    (committed work : Database) :
    exec (flushStatement c site q) ⟨committed, work, false⟩ =
      match attempt (c.fault site) (execute c q work) with
      | .error e => (.error e, ⟨committed, work, true⟩)
      | .ok work' => (.ok (), ⟨committed, work', false⟩) := by
  rw [flushStatement, exec_flush]
  cases attempt (c.fault site) (execute c q work) <;> rfl

theorem execute_eq_ok {c : Context} {q : Statement} {db db' : Database} :
    execute c q db = .ok db' ↔ ∃ ws, q.run (c.view db) = .ok ws ∧ db' = applyAll db ws := by
  rw [execute]
  cases q.run (c.view db) with
  | error e => simp [Except.map]
  | ok ws => simp [Except.map, eq_comm]

/-- A statement that succeeds leads from `I` to `I`. -/
def KeptBy (I : Database → Prop) (q : Statement) : Prop :=
  ∀ db ws, I db → q.run db = .ok ws → I (applyAll db ws)

theorem mirror_keptBy (q : Statement) : KeptBy Mirror q := fun _ _ hm h => mirror_run hm h

theorem keeps_select {α : Type} {I : Database → Prop} {c : Context} {site : Site}
    {f : Database → α} : Keeps (Both I) (select c site f) :=
  keeps_query

theorem keeps_keptBy {I : Database → Prop} {c : Context} (hc : c.others = []) {site : Site}
    {q : Statement} (hq : KeptBy I q) : Keeps (Both I) (flushStatement c site q) := by
  refine keeps_flush fun db db' hdb h => ?_
  obtain ⟨ws, hrun, rfl⟩ := execute_eq_ok.1 h
  rw [Context.view_of_alone hc] at hrun
  exact hq db ws hdb hrun

theorem exec_select_eq_ok {α : Type} {c : Context} {site : Site} {f : Database → α}
    {s s' : Session Database} {a : α} (h : exec (select c site f) s = (.ok a, s')) :
    a = f (c.view s.work) ∧ s' = s := by
  obtain ⟨-, -, ha, rfl⟩ := exec_query_eq_ok.1 h
  exact ⟨(Except.ok.inj ha).symm, rfl⟩

theorem select_eq_ok {α : Type} {c : Context} (hc : c.others = []) {site : Site}
    {f : Database → α} {s s' : Session Database} {a : α}
    (h : exec (select c site f) s = (.ok a, s')) : a = f s.work ∧ s' = s := by
  obtain ⟨ha, rfl⟩ := exec_select_eq_ok h
  rw [Context.view_of_alone hc] at ha
  exact ⟨ha, rfl⟩

/-- The writes of the statement, on the database of the transaction. -/
theorem exec_flushStatement_eq_ok {c : Context} {site : Site} {q : Statement}
    {s s' : Session Database} {u : Unit} (h : exec (flushStatement c site q) s = (.ok u, s')) :
    ∃ ws, q.run (c.view s.work) = .ok ws ∧ s' = { s with work := applyAll s.work ws } := by
  obtain ⟨-, -, db, hdb, rfl⟩ := exec_flush_eq_ok.1 h
  obtain ⟨ws, hrun, rfl⟩ := execute_eq_ok.1 hdb
  exact ⟨ws, hrun, rfl⟩

/-! ### PersonRepository -/

namespace PersonRepository

def get (c : Context) (id : UUID) : SessionM (Option Person) :=
  select c .getPerson fun db => db.persons.get? id

def getByName (c : Context) (fullName : String) : SessionM (Option Person) :=
  select c .getByName fun db => db.persons.rows.find? fun p => p.fullName = fullName

def getByExternalId (c : Context) (externalId : String) : SessionM (Option Person) :=
  select c .getByExternalId fun db => db.persons.rows.find? fun p => p.externalId = some externalId

/-- A new row with the column defaults. -/
def newPerson (c : Context) (fullName : String) (externalId : Option String) (metadata : Json) :
    Person where
  id := c.personId
  externalId := externalId
  fullName := fullName
  metadata := metadata
  isActive := true
  createdAt := c.now
  updatedAt := c.now

def add (c : Context) (person : Person) : SessionM Person := do
  flushStatement c .addPerson (.insertPerson person)
  return person

theorem exec_add (c : Context) (person : Person) (committed work : Database) :
    exec (add c person) ⟨committed, work, false⟩ =
      match attempt (c.fault .addPerson) (execute c (.insertPerson person) work) with
      | .error e => (.error e, ⟨committed, work, true⟩)
      | .ok work' => (.ok person, ⟨committed, work', false⟩) := by
  rw [add, exec_bind, exec_flushStatement]
  cases attempt (c.fault .addPerson) (execute c (.insertPerson person) work) <;> rfl

theorem keeps_add {I : Database → Prop} {c : Context} (hc : c.others = []) {person : Person}
    (hI : KeptBy I (.insertPerson person)) : Keeps (Both I) (add c person) :=
  keeps_bind (keeps_keptBy hc hI) fun _ => keeps_pure _

def delete (c : Context) (person : Person) : SessionM Unit :=
  flushStatement c .deletePerson (.deletePerson person.id)

end PersonRepository

/-! ### FaceRepository -/

/-- `embedding <=> query_vec`, and the order in which rows at the same distance come. -/
structure Gallery where
  distance : Embedding → Embedding → ℚ
  tie : UUID → ℕ

structure SearchRow where
  faceId : UUID
  personId : UUID
  fullName : String
  similarity : ℚ
  deriving DecidableEq, Repr

namespace Gallery

/-- `ORDER BY f.embedding <=> :query_vec` -/
def Before (G : Gallery) (queryVec : Embedding) (f f' : Face) : Prop :=
  G.distance f.embedding queryVec < G.distance f'.embedding queryVec ∨
    G.distance f.embedding queryVec = G.distance f'.embedding queryVec ∧ G.tie f.id ≤ G.tie f'.id

instance (G : Gallery) (q : Embedding) : DecidableRel (G.Before q) :=
  fun _ _ => inferInstanceAs (Decidable (_ ∨ _))

theorem Before.total (G : Gallery) (q : Embedding) (f f' : Face) :
    G.Before q f f' ∨ G.Before q f' f := by
  rcases lt_trichotomy (G.distance f.embedding q) (G.distance f'.embedding q) with h | h | h
  · exact .inl (.inl h)
  · rcases le_total (G.tie f.id) (G.tie f'.id) with ht | ht
    · exact .inl (.inr ⟨h, ht⟩)
    · exact .inr (.inr ⟨h.symm, ht⟩)
  · exact .inr (.inl h)

theorem Before.trans {G : Gallery} {q : Embedding} {f f' f'' : Face} (h : G.Before q f f')
    (h' : G.Before q f' f'') : G.Before q f f'' := by
  rcases h with h | ⟨h, ht⟩ <;> rcases h' with h' | ⟨h', ht'⟩
  · exact .inl (h.trans h')
  · exact .inl (h' ▸ h)
  · exact .inl (h ▸ h')
  · exact .inr ⟨h.trans h', ht.trans ht'⟩

instance (G : Gallery) (q : Embedding) : Std.Total (G.Before q) := ⟨Before.total G q⟩

instance (G : Gallery) (q : Embedding) : IsTrans Face (G.Before q) := ⟨fun _ _ _ h h' => h.trans h'⟩

instance (G : Gallery) (q : Embedding) :
    Std.Total fun r r' : Face × Person => G.Before q r.1 r'.1 :=
  ⟨fun r r' => Before.total G q r.1 r'.1⟩

instance (G : Gallery) (q : Embedding) :
    IsTrans (Face × Person) fun r r' => G.Before q r.1 r'.1 :=
  ⟨fun _ _ _ h h' => h.trans h'⟩

theorem Before.distance_le {G : Gallery} {q : Embedding} {f f' : Face} (h : G.Before q f f') :
    G.distance f.embedding q ≤ G.distance f'.embedding q := by
  rcases h with h | ⟨h, -⟩
  · exact h.le
  · exact h.le

/-- `1 - (f.embedding <=> :query_vec)` -/
def similarity (G : Gallery) (queryVec : Embedding) (f : Face) : ℚ :=
  1 - G.distance f.embedding queryVec

end Gallery

namespace FaceRepository

/-- The bracketed literal with eight decimals that the queries send. -/
def queryVec (embedding : Embedding) : Embedding := fun i => roundDigits 8 (embedding i)

/-- `faces f JOIN persons p ON p.id = f.person_id` -/
def joined (db : Database) : List (Face × Person) :=
  db.faces.rows.filterMap fun f => (db.persons.get? f.personId).map fun p => (f, p)

def toSearchRow (G : Gallery) (q : Embedding) (row : Face × Person) : SearchRow :=
  ⟨row.1.id, row.1.personId, row.2.fullName, G.similarity q row.1⟩

/-- The rows of the query, for any clause on the joined rows. -/
def searchRows (G : Gallery) (clause : Face × Person → Bool) (q : Embedding) (topK : ℕ)
    (db : Database) : List SearchRow :=
  ((((joined db).filter clause).insertionSort fun r r' => G.Before q r.1 r'.1).take topK).map
    (toSearchRow G q)

/-- The query with any clause in place of the active one. -/
def searchWhere (G : Gallery) (c : Context) (clause : Face × Person → Bool)
    (embedding : Embedding) (topK : ℤ) : SessionM (List SearchRow) :=
  query pendingRollback (c.fault .searchFaces) fun db =>
    if topK < 0 then .error ⟨.dataError, "LIMIT must not be negative", []⟩
    else .ok (searchRows G clause (queryVec embedding) topK.toNat (c.view db))

def search (G : Gallery) (c : Context) (embedding : Embedding) (topK : ℤ)
    (onlyActive : Bool := true) : SessionM (List SearchRow) :=
  searchWhere G c (fun row => if onlyActive then row.1.isActive else true) embedding topK

def bestOfPerson (G : Gallery) (personId : UUID) (q : Embedding) (db : Database) :
    Option (UUID × ℚ) :=
  ((db.faces.rows.filter fun f => f.personId = personId).insertionSort (G.Before q)).head?.map
    fun f => (f.id, G.similarity q f)

def bestMatchForPerson (G : Gallery) (c : Context) (personId : UUID) (embedding : Embedding) :
    SessionM (Option (UUID × ℚ)) :=
  select c .searchFaces fun db => bestOfPerson G personId (queryVec embedding) (c.view db)

def get (c : Context) (id : UUID) : SessionM (Option Face) :=
  select c .getFace fun db => db.faces.get? id

def add (c : Context) (face : Face) : SessionM Face := do
  flushStatement c .addFace (.insertFace face)
  return face

theorem exec_add (c : Context) (face : Face) (committed work : Database) :
    exec (add c face) ⟨committed, work, false⟩ =
      match attempt (c.fault .addFace) (execute c (.insertFace face) work) with
      | .error e => (.error e, ⟨committed, work, true⟩)
      | .ok work' => (.ok face, ⟨committed, work', false⟩) := by
  rw [add, exec_bind, exec_flushStatement]
  cases attempt (c.fault .addFace) (execute c (.insertFace face) work) <;> rfl

theorem keeps_add {I : Database → Prop} {c : Context} (hc : c.others = []) {face : Face}
    (hI : KeptBy I (.insertFace face)) : Keeps (Both I) (add c face) :=
  keeps_bind (keeps_keptBy hc hI) fun _ => keeps_pure _

def delete (c : Context) (face : Face) : SessionM Unit :=
  flushStatement c .deleteFace (.deleteFace face.id)

end FaceRepository

/-! ### RecognitionLogRepository -/

/-- The fields a caller of `record` gives. -/
structure LogFields where
  action : RecognitionAction
  personId : Option UUID := none
  matchedFaceId : Option UUID := none
  similarity : Option ℚ := none
  success : Bool
  userId : Option String := none
  clientIp : Option String := none
  message : Option String := none

def newLog (c : Context) (l : LogFields) : RecognitionLog where
  id := c.logId
  action := l.action
  personId := l.personId
  matchedFaceId := l.matchedFaceId
  similarity := l.similarity
  success := l.success
  userId := l.userId
  clientIp := l.clientIp
  message := l.message
  createdAt := c.now
  updatedAt := c.now

def RecognitionLogRepository.record (c : Context) (l : LogFields) : SessionM Unit :=
  flushStatement c .addLog (.insertLog (newLog c l))

end FaceRecognition.Db
