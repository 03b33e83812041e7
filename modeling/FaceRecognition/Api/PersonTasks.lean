import FaceRecognition.Api.PersonOutcomes
import FaceRecognition.Lib.Histories
import FaceRecognition.Lib.UniqueIndex

/-!
# The person endpoints statement by statement

Create, update and delete as programs over session calls, each written as its sequential version.
Left alone, such a request is the sequential one (`request_alone`). Next to the rows it writes, a
statement holds the entries that it makes or takes away in the index on the external ids.
-/

namespace FaceRecognition.Api.PersonTasks

open Relational Db UnitOfWork ReadCommitted
open Services.RecognitionService (personNotFound)
open Services.Statementwise (Quiet)

/-! ### The database -/

inductive PersonQuery where
  | get (id : UUID)
  | getByExternalId (externalId : String)

inductive PersonStatement where
  | insert (person : Person)
  | update (id : UUID) (changes : PersonSet) (now : Time)
  | delete (id : UUID)

namespace PersonStatement

/-- A DELETE of a row that is gone deletes nothing. -/
def run : PersonStatement → Database → Except Exc (List Write)
  | .insert person => insertPerson person
  | .update id changes now => Db.updatePerson id changes now
  | .delete id => fun db =>
    match db.persons.get? id with
    | none => .ok []
    | some _ => Db.deletePerson id db

/-- The entries of the unique index that the statement holds until its transaction ends: those of
the row that it replaces and of the row that it makes. -/
def entries : PersonStatement → Database → List String
  | .insert person => fun _ => person.externalId.toList
  | .update id changes _ => fun db =>
    match db.persons.get? id with
    | none => []
    | some old => old.externalId.toList ++ (changes.externalId.getD old.externalId).toList
  | .delete id => fun db => ((db.persons.get? id).bind Person.externalId).toList

/-- What the statement does to the rows. -/
def changes : PersonStatement → Database → List (Change UUID (Option Person))
  | .insert person => fun _ => [⟨person.id, fun _ => some person⟩]
  | .update id changes now => fun _ => [⟨id, Option.map (changes.applyTo now)⟩]
  | .delete id => fun db =>
    match db.persons.get? id with
    | none => []
    | some _ => [⟨id, fun _ => none⟩]

end PersonStatement

/-- A write of a row, or an entry of the index that is held. -/
abbrev IndexedWrite := Write ⊕ String

abbrev IndexedRow := RowId ⊕ String

def indexedEngine : Engine Database IndexedWrite IndexedRow where
  apply db
    | .inl w => apply db w
    | .inr _ => db
  row
    | .inl w => .inl w.row
    | .inr externalId => .inr externalId

def personsDbms :
    Dbms Database IndexedWrite IndexedRow PersonQuery PersonStatement (Option Person) Exc where
  engine := indexedEngine
  look
    | .get id => fun db => db.persons.get? id
    | .getByExternalId externalId => fun db =>
      db.persons.rows.find? fun p => p.externalId = some externalId
  run q db := (q.run db).map fun ws => ws.map .inl ++ (q.entries db).map .inr
  pending := pendingRollback

/-! ### The programs -/

abbrev PersonM := ProgramM PersonQuery PersonStatement (Option Person) Exc Unit

abbrev Program := Outcome PersonQuery PersonStatement (Option Person) Exc Unit (Option Person)

def get (id : UUID) : PersonM (Option Person) := ask (.query (.get id))

def getByExternalId (externalId : String) : PersonM (Option Person) :=
  ask (.query (.getByExternalId externalId))

def raiseIfTaken (externalId : Option String) : PersonM Unit :=
  match externalId with
  | none => pure ()
  | some externalId =>
    if externalId = "" then pure ()
    else do
      match ← getByExternalId externalId with
      | some _ => throw (externalIdExists externalId)
      | none => return ()

def add (person : Person) : PersonM Person := do
  ask (.flush (.insert person))
  return person

def createPerson (c : Context) (payload : PersonCreate) : PersonM Person := do
  raiseIfTaken payload.externalId
  let person ← add (payload.row c)
  raised (personRead c payload.metadata person)

/-- The pending changes of a person, when there are any. -/
def flushPerson (c : Context) (id : UUID) (changes : PersonSet) : PersonM Unit :=
  if changes.isEmpty then pure ()
  else ask (.flush (.update id changes c.now))

def updatePerson (c : Context) (personId : UUID) (payload : PersonUpdate) : PersonM Person := do
  match ← get personId with
  | none => throw (personNotFound personId)
  | some person =>
    let changes := payload.changes person
    raiseIfTaken (changes.externalId.getD none)
    flushPerson c personId changes
    match ← get personId with
    | none => throw couldNotRefresh
    | some person => raised (personRead c person.metadata.reloaded person)

def deletePerson (personId : UUID) : PersonM Unit := do
  match ← get personId with
  | none => throw (personNotFound personId)
  | some _ => ask (.flush (.delete personId))

/-- A request, after its guard. -/
inductive Task where
  | create (c : Context) (payload : PersonCreate)
  | patch (c : Context) (personId : UUID) (payload : PersonUpdate)
  | delete (c : Context) (personId : UUID)

namespace Task

/-- What it answers with: the person, or nothing after a DELETE. -/
def handler : Task → PersonM (Option Person)
  | .create c payload => do
    let person ← PersonTasks.createPerson c payload
    return some person
  | .patch c personId payload => do
    let person ← PersonTasks.updatePerson c personId payload
    return some person
  | .delete _ personId => do
    PersonTasks.deletePerson personId
    return none

def program (task : Task) : Program := go (asRequest task.handler) ()

/-- The person that it is about. -/
def person : Task → UUID
  | .create c _ => c.personId
  | .patch _ personId _ | .delete _ personId => personId

def context : Task → Context
  | .create c _ | .patch c _ _ | .delete c _ => c

/-- The endpoint on a session. -/
def action : Task → SessionM (Option Person)
  | .create c payload => do
    let person ← Api.createPerson c payload
    return some person
  | .patch c personId payload => do
    let person ← Api.updatePerson c personId payload
    return some person
  | .delete c personId => do
    Api.deletePerson c personId
    return none

end Task

/-! ### A request alone -/

theorem applyAll_indexed (db : Database) (ws : List Write) (externalIds : List String) :
    indexedEngine.applyAll db (ws.map .inl ++ externalIds.map .inr) = applyAll db ws := by
  rw [Engine.applyAll_append]
  have hrows : indexedEngine.applyAll db (ws.map .inl) = applyAll db ws := by
    induction ws generalizing db with
    | nil => rfl
    | cons w ws ih => exact ih (apply db w)
  have hentries : ∀ db, indexedEngine.applyAll db (externalIds.map .inr) = db := by
    intro db
    induction externalIds with
    | nil => rfl
    | cons externalId externalIds ih => exact ih
  rw [hrows, hentries]

abbrev DoesAs {α : Type} (p : PersonM α) (m : SessionM α) : Prop :=
  Denotes personsDbms (fun sess _ => sess) p m

section
variable {c : Context} (hc : Quiet c)
include hc

theorem query_denotes (site : Site) (a : PersonQuery) :
    DoesAs (ask (.query a)) (select c site (personsDbms.look a)) := by
  intro sess l
  have hview : c.view = id := funext (Context.view_of_alone hc.others)
  refine ⟨(answer personsDbms none sess (.query a)).2, (answer personsDbms none sess (.query a)).1, l,
    rfl, ?_⟩
  rw [select, hc.fault, hview]
  rfl

theorem exec_flush_indexed (site : Site) {q : PersonStatement} {s : Statement}
    (sess : Session Database) (hrun : q.run sess.work = s.run sess.work) :
    exec (flushStatement c site s) sess = (answer personsDbms none sess (.flush q)).swap := by
  obtain ⟨committed, work, broken⟩ := sess
  cases broken with
  | true => rfl
  | false =>
    have hwrites : (personsDbms.run q work).map (personsDbms.engine.applyAll work) =
        execute c s work := by
      rw [execute, Context.view_of_alone hc.others, ← hrun, personsDbms]
      dsimp only
      cases q.run work with
      | error e => rfl
      | ok ws => exact congrArg Except.ok (applyAll_indexed work ws _)
    rw [exec_flushStatement, hc.fault, answer, exec_flush, hwrites]
    cases execute c s work <;> rfl

theorem flush_denotes (site : Site) {q : PersonStatement} {s : Statement}
    (hrun : ∀ db, q.run db = s.run db) : DoesAs (ask (.flush q)) (flushStatement c site s) :=
  fun sess l => ⟨(answer personsDbms none sess (.flush q)).2,
    (answer personsDbms none sess (.flush q)).1, l, rfl,
    exec_flush_indexed hc site sess (hrun sess.work)⟩

theorem raiseIfTaken_denotes (externalId : Option String) :
    DoesAs (raiseIfTaken externalId) (Api.raiseIfTaken c externalId) := by
  cases externalId with
  | none => exact denotes_pure ()
  | some externalId =>
    rw [raiseIfTaken, Api.raiseIfTaken]
    split_ifs
    · exact denotes_pure ()
    · refine denotes_bind (query_denotes hc _ (.getByExternalId externalId)) fun found => ?_
      cases found with
      | none => exact denotes_pure ()
      | some person => exact denotes_throw _

theorem createPerson_denotes (payload : PersonCreate) :
    DoesAs (createPerson c payload) (Api.createPerson c payload) := by
  refine denotes_bind (raiseIfTaken_denotes hc _) fun _ => ?_
  have hadd : DoesAs (add (payload.row c)) (PersonRepository.add c (payload.row c)) :=
    denotes_bind (flush_denotes hc .addPerson fun _ => rfl) fun _ => denotes_pure _
  exact denotes_bind hadd fun person => denotes_raised (personRead c payload.metadata person)

theorem flushPerson_denotes (id : UUID) (changes : PersonSet) :
    DoesAs (flushPerson c id changes) (Api.flushPerson c id changes) := by
  rw [flushPerson, Api.flushPerson]
  split_ifs
  · exact denotes_pure ()
  · exact flush_denotes hc .flushPerson fun _ => rfl

theorem updatePerson_denotes (personId : UUID) (payload : PersonUpdate) :
    DoesAs (updatePerson c personId payload) (Api.updatePerson c personId payload) := by
  refine denotes_bind (query_denotes hc .getPerson (.get personId)) fun found => ?_
  cases found with
  | none => exact denotes_throw _
  | some person =>
    refine denotes_bind (raiseIfTaken_denotes hc _) fun _ => denotes_bind (flushPerson_denotes hc _ _)
      fun _ => denotes_bind (query_denotes hc .getPerson (.get personId)) fun found => ?_
    cases found with
    | none => exact denotes_throw _
    | some person => exact denotes_raised _

/-- The row that was loaded is the one that the DELETE finds. -/
theorem deletePerson_denotes (personId : UUID) :
    DoesAs (deletePerson personId) (Api.deletePerson c personId) := by
  intro sess l
  obtain ⟨r, sess', l', heval, hexec⟩ :=
    query_denotes hc .getPerson (.get personId) sess l
  rw [deletePerson, go_bind, Client.Prog.eval_bind, get, heval]
  cases r with
  | error e => exact ⟨.error e, sess', l', rfl, exec_bind_error hexec⟩
  | ok found =>
    obtain ⟨hfound, rfl⟩ := select_eq_ok hc.others hexec
    have hget : exec (PersonRepository.get c personId) sess' = (.ok found, sess') := hexec
    dsimp only at hfound ⊢
    rw [Api.deletePerson, exec_bind_ok hget]
    cases found with
    | none => exact ⟨_, _, l', rfl, rfl⟩
    | some person =>
      obtain rfl : person.id = personId := Table.pk_of_get? hfound.symm
      have hrun : (PersonStatement.delete person.id).run sess'.work =
          (Statement.deletePerson person.id).run sess'.work := by
        have hstored : sess'.work.persons.get? person.id = some person := hfound.symm
        simp only [PersonStatement.run, Statement.run, hstored]
      exact ⟨_, _, l', rfl, exec_flush_indexed hc .deletePerson sess' hrun⟩

end

/-- **Left alone, a request is the endpoint** in its transaction. -/
theorem request_alone {task : Task} (hc : Quiet task.context) (sess : Session Database) :
    ∃ r sess', task.program.eval (answer personsDbms none) sess = (sess', (r, ())) ∧
      exec (getDb task.context task.action) (.begin sess.committed) = (r, sess') := by
  have hhandler : DoesAs task.handler task.action := by
    cases task with
    | create c payload =>
      exact denotes_bind (createPerson_denotes hc payload) fun _ => denotes_pure _
    | patch c personId payload =>
      exact denotes_bind (updatePerson_denotes hc personId payload) fun _ => denotes_pure _
    | delete c personId =>
      exact denotes_bind (deletePerson_denotes hc personId) fun _ => denotes_pure _
  rw [getDb_of_fault hc.fault]
  exact asRequest_alone hhandler sess

end FaceRecognition.Api.PersonTasks
