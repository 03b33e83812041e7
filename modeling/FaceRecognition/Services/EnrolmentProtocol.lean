import FaceRecognition.Db.Concurrent
import FaceRecognition.Services.Statementwise

/-!
# The protocol of enrolment by name

Any number of `register_by_name` requests and imports run interleaved, statement by statement, under
READ COMMITTED. Each keeps to a protocol (`program_obeys`): it creates a person only for a name that
its last call has looked up in vain, and enrols a face only for a person that it has found or
created under the face's name. Left alone, a request commits what the sequential code does
(`registration_alone`, `bulkImport_alone`).

`Inv` is what follows for the database and for the writes of every open transaction: persons are
only added, with ids of their own, a transaction adds at most one with a given name, and a face
belongs to a person with the name it was enrolled under. One call keeps it (`inv_served`).
-/

namespace FaceRecognition.Services.FindOrCreate

open Relational Recognition Db UnitOfWork ReadCommitted Statementwise
open Db.Concurrent (IsPut)

/-- An image to enrol: its person's name, and the ids it gets for a new person and its face. -/
structure Drawn where
  name : String
  personId : UUID
  faceId : UUID

inductive Request where
  | registerByName (S : RecognitionService) (c : Context) (fullName : String) (imageBytes : Bytes)
    (imagePath : Option String)
  | bulkImport (env : ImportEnv) (jobId : UUID) (pairs : List Pair)

namespace Request

abbrev Program := Client.Prog Command (Call.Reply (Option Person) Exc) Unit

def program : Request → Program
  | .registerByName S c fullName imageBytes imagePath =>
    (go (getDb (Statementwise.registerByName S c fullName imageBytes imagePath)) ()).bind
      fun _ => .pure ()
  | .bulkImport env jobId pairs =>
    (go (importPairs env jobId pairs)
      ⟨fun _ => none, InProcessJobStore.create Table.empty jobId⟩).bind fun _ => .pure ()

def drawn : Request → List Drawn
  | .registerByName _ c fullName _ _ => [⟨strip fullName, c.personId, c.faceId⟩]
  | .bulkImport env _ pairs => pairs.map fun pair =>
      ⟨pair.1, (env.imageContext pair.2).personId, (env.imageContext pair.2).faceId⟩

end Request

abbrev World (T : Type) :=
  ReadCommitted.World T Database Write String Statement (Option Person) Exc Unit

variable {T : Type}

def start (db : Database) (requests : T → Request) : World T :=
  ⟨⟨db, Table.empty⟩, fun t => (requests t).program⟩

/-! ### A request that is left alone -/

section alone
variable [DecidableEq T] {requests : T → Request} {db : Database} {t : T} {n : ℕ} {w : World T}
  (hrun : Run.exec (turn postgres) (start db requests) (List.replicate n (t, none)) = some w)
  (hdone : w.client t = .pure ())
include hrun hdone

theorem committed_alone :
    w.server.committed =
      ((requests t).program.eval (answer postgres none) ⟨db, db, true⟩).1.committed := by
  have hclosed : Sees engine t (start db requests : World T).server ⟨db, db, true⟩ :=
    ⟨rfl, fun _ => rfl, fun x hx => by cases hx⟩
  exact (turns_alone hclosed hrun hdone).2.committed.symm

/-- It commits what the sequential request does. -/
theorem registration_alone {S : RecognitionService} {c : Context} (hc : Quiet c)
    {fullName : String} {imageBytes : Bytes} {imagePath : Option String}
    (hrequest : requests t = .registerByName S c fullName imageBytes imagePath) :
    w.server.committed =
      Api.afterRequest c (S.registerByName c fullName imageBytes imagePath) db := by
  obtain ⟨r, sess', heval, hexec⟩ :=
    registration_denotes hc fullName imageBytes imagePath ⟨db, db, true⟩
  rw [committed_alone hrun hdone, hrequest, Request.program, Client.Prog.eval_bind, heval,
    Api.afterRequest, hexec]
  rfl

theorem bulkImport_alone {env : ImportEnv} (henv : QuietImport env) {jobId : UUID}
    {pairs : List Pair} (hrequest : requests t = .bulkImport env jobId pairs) :
    w.server.committed = (exec (BulkImportService.importPairs env jobId pairs)
      ⟨⟨db, db, true⟩, fun _ => none,
        InProcessJobStore.create Table.empty jobId⟩).2.session.committed := by
  obtain ⟨r, sess', l', heval, hexec⟩ := importPairs_denotes jobId henv pairs ⟨db, db, true⟩
    ⟨fun _ => none, InProcessJobStore.create Table.empty jobId⟩
  have hexec : exec (BulkImportService.importPairs env jobId pairs)
      ⟨⟨db, db, true⟩, fun _ => none, InProcessJobStore.create Table.empty jobId⟩ =
        (r, importing.join sess' l') := hexec
  rw [committed_alone hrun hdone, hrequest, Request.program, Client.Prog.eval_bind, heval, hexec]
  rfl

end alone

/-! ### What is drawn for a name -/

section
variable (requests : T → Request)

def PersonIdOf (name : String) (id : UUID) : Prop :=
  ∃ t, ∃ d ∈ (requests t).drawn, d.name = name ∧ d.personId = id

def FaceIdOf (name : String) (id : UUID) : Prop :=
  ∃ t, ∃ d ∈ (requests t).drawn, d.name = name ∧ d.faceId = id

/-- `uuid4()` gives ids that are new, and never the same one for two names. -/
structure Fresh (db : Database) : Prop where
  personNew : ∀ name id, PersonIdOf requests name id → db.persons.get? id = none
  faceNew : ∀ name id, FaceIdOf requests name id → db.faces.get? id = none
  person : ∀ name name' id, PersonIdOf requests name id → PersonIdOf requests name' id →
    name = name'
  face : ∀ name name' id, FaceIdOf requests name id → FaceIdOf requests name' id → name = name'

/-- At most one person has the name, and the faces enrolled under it are that person's. -/
structure CreatedOnce (name : String) (db : Database) : Prop where
  once : ∀ p ∈ db.persons.rows, ∀ q ∈ db.persons.rows, p.fullName = name → q.fullName = name → p = q
  faces : ∀ f ∈ db.faces.rows, FaceIdOf requests name f.id →
    ∃ p ∈ db.persons.rows, p.fullName = name ∧ f.personId = p.id

/-! ### The writes of an open transaction -/

/-- What the uncommitted writes of a transaction are like. -/
structure Pending (db : Database) (ws : List Write) : Prop where
  puts : ∀ w ∈ ws, IsPut w
  ids : ∀ p, .putPerson p ∈ ws → PersonIdOf requests p.fullName p.id
  new : ∀ p, .putPerson p ∈ ws → db.persons.get? p.id = none
  seen : ∀ p, .putPerson p ∈ ws → (applyAll db ws).persons.get? p.id = some p
  single : ∀ p q, .putPerson p ∈ ws → .putPerson q ∈ ws → p.fullName = q.fullName → p = q
  faces : ∀ f, .putFace f ∈ ws → ∀ name, FaceIdOf requests name f.id →
    ∃ p, (applyAll db ws).persons.get? f.personId = some p ∧ p.fullName = name

/-- What is committed. -/
structure Stored (db₀ db : Database) : Prop where
  persons : ∀ id p, db.persons.get? id = some p →
    db₀.persons.get? id = some p ∨ PersonIdOf requests p.fullName id
  faces : ∀ f ∈ db.faces.rows, ∀ name, FaceIdOf requests name f.id →
    ∃ p, db.persons.get? f.personId = some p ∧ p.fullName = name

/-- The id is that of a person with the name, or of one that was not committed. -/
def Resolved (db : Database) (name : String) (id : UUID) : Prop :=
  (∃ p, db.persons.get? id = some p ∧ p.fullName = name) ∨ PersonIdOf requests name id

end

theorem person_of_applyAll {db : Database} {ws : List Write} {id : UUID} {p : Person}
    (h : (applyAll db ws).persons.get? id = some p) :
    db.persons.get? id = some p ∨ .putPerson p ∈ ws ∧ p.id = id := by
  induction ws generalizing db with
  | nil => exact .inl h
  | cons w ws ih =>
    rcases ih h with h | ⟨hw, hid⟩
    · cases w with
      | putPerson q =>
        have h : (db.persons.put q).get? id = some p := h
        rw [Table.get?_put] at h
        split_ifs at h with hq
        · obtain rfl := Option.some.inj h
          exact .inr ⟨List.mem_cons_self, hq⟩
        · exact .inl h
      | dropPerson id' =>
        have h : (db.persons.erase id').get? id = some p := h
        rw [Table.get?_erase] at h
        split_ifs at h
        exact .inl h
      | putFace f => exact .inl h
      | dropFace id' => exact .inl h
      | putLog l => exact .inl h
    · exact .inr ⟨List.mem_cons_of_mem _ hw, hid⟩

theorem face_of_applyAll {db : Database} {ws : List Write} {f : Face}
    (h : f ∈ (applyAll db ws).faces.rows) : f ∈ db.faces.rows ∨ .putFace f ∈ ws := by
  induction ws generalizing db with
  | nil => exact .inl h
  | cons w ws ih =>
    rcases ih h with h | hw
    · cases w with
      | putFace g =>
        rcases Table.mem_put.1 h with rfl | ⟨h, -⟩
        · exact .inr List.mem_cons_self
        · exact .inl h
      | dropFace id' => exact .inl (Table.mem_erase.1 h).1
      | putPerson q => exact .inl h
      | dropPerson id' => exact .inl h
      | putLog l => exact .inl h
    · exact .inr (List.mem_cons_of_mem _ hw)

section
variable {requests : T → Request} {db db₀ : Database} {ws : List Write}

theorem Pending.nil : Pending requests db [] := by
  constructor <;> simp

/-- No open transaction writes a committed person. -/
theorem Pending.unwritten (h : Pending requests db ws) {id : UUID} {p : Person}
    (hp : db.persons.get? id = some p) : ∀ w ∈ ws, w.row ≠ .person id := by
  intro w hw hrow
  have hput := h.puts w hw
  cases w with
  | putPerson q =>
    obtain rfl : q.id = id := RowId.person.inj hrow
    exact absurd ((h.new q hw).symm.trans hp) (by simp)
  | dropPerson id' => exact hput
  | putFace f => cases hrow
  | dropFace id' => exact hput
  | putLog l => cases hrow

theorem Pending.keeps (h : Pending requests db ws) {id : UUID} {p : Person}
    (hp : db.persons.get? id = some p) : (applyAll db ws).persons.get? id = some p :=
  ((reads_person id).of_unwritten (h.unwritten hp)).trans hp

theorem Pending.person_iff (h : Pending requests db ws) {id : UUID} {p : Person} :
    (applyAll db ws).persons.get? id = some p ↔
      db.persons.get? id = some p ∨ .putPerson p ∈ ws ∧ p.id = id := by
  refine ⟨person_of_applyAll, ?_⟩
  rintro (hp | ⟨hp, rfl⟩)
  · exact h.keeps hp
  · exact h.seen p hp

theorem Pending.putPerson (h : Pending requests db ws) {p : Person}
    (hid : PersonIdOf requests p.fullName p.id)
    (hnew : (applyAll db ws).persons.get? p.id = none)
    (hname : ∀ q, .putPerson q ∈ ws → q.fullName ≠ p.fullName) :
    Pending requests db (ws ++ [.putPerson p]) := by
  have hview : applyAll db (ws ++ [.putPerson p]) = apply (applyAll db ws) (.putPerson p) :=
    engine.applyAll_append db ws _
  have hother : ∀ id q, (applyAll db ws).persons.get? id = some q →
      (applyAll db (ws ++ [.putPerson p])).persons.get? id = some q := by
    intro id q hq
    have hne : p.id ≠ id := by
      rintro rfl
      exact absurd (hnew.symm.trans hq) (by simp)
    rw [hview, apply, Table.get?_put_of_ne _ hne, hq]
  have hmem : ∀ q, .putPerson q ∈ ws ++ [.putPerson p] → .putPerson q ∈ ws ∨ q = p := by
    intro q hq
    simpa using hq
  constructor
  · intro w hw
    rcases List.mem_append.1 hw with hw | hw
    · exact h.puts w hw
    · obtain rfl := List.mem_singleton.1 hw
      trivial
  · intro q hq
    rcases hmem q hq with hq | rfl
    · exact h.ids q hq
    · exact hid
  · intro q hq
    rcases hmem q hq with hq | rfl
    · exact h.new q hq
    · by_contra hsome
      obtain ⟨r, hr⟩ := Option.ne_none_iff_exists'.1 hsome
      exact absurd (hnew.symm.trans (h.keeps hr)) (by simp)
  · intro q hq
    rcases hmem q hq with hq | rfl
    · exact hother _ _ (h.seen q hq)
    · rw [hview]
      exact Table.get?_put_self _ q
  · intro q r hq hr hname'
    rcases hmem q hq with hq' | rfl
    · rcases hmem r hr with hr' | rfl
      · exact h.single q r hq' hr' hname'
      · exact absurd hname' (hname q hq')
    · rcases hmem r hr with hr' | rfl
      · exact absurd hname'.symm (hname r hr')
      · rfl
  · intro f hf name hface
    obtain ⟨q, hq, hqname⟩ := h.faces f (by simpa using hf) name hface
    exact ⟨q, hother _ _ hq, hqname⟩

/-- A write that is not of a person. -/
theorem Pending.append (h : Pending requests db ws) {w : Write} (hput : IsPut w)
    (hperson : ∀ p, w ≠ .putPerson p)
    (hface : ∀ f, w = .putFace f → ∀ name, FaceIdOf requests name f.id →
      ∃ p, (applyAll db ws).persons.get? f.personId = some p ∧ p.fullName = name) :
    Pending requests db (ws ++ [w]) := by
  have hview : (applyAll db (ws ++ [w])).persons = (applyAll db ws).persons := by
    show (engine.applyAll db (ws ++ [w])).persons = _
    rw [engine.applyAll_append]
    cases w with
    | putPerson p => exact absurd rfl (hperson p)
    | putFace f => rfl
    | putLog l => rfl
    | dropPerson id => exact hput.elim
    | dropFace id => exact hput.elim
  have hmem : ∀ q, .putPerson q ∈ ws ++ [w] → .putPerson q ∈ ws := by
    intro q hq
    rcases List.mem_append.1 hq with hq | hq
    · exact hq
    · exact absurd (List.mem_singleton.1 hq).symm (hperson q)
  constructor
  · intro w' hw'
    rcases List.mem_append.1 hw' with hw' | hw'
    · exact h.puts w' hw'
    · obtain rfl := List.mem_singleton.1 hw'
      exact hput
  · exact fun q hq => h.ids q (hmem q hq)
  · exact fun q hq => h.new q (hmem q hq)
  · intro q hq
    rw [hview]
    exact h.seen q (hmem q hq)
  · exact fun q r hq hr => h.single q r (hmem q hq) (hmem r hr)
  · intro f hf name hid
    rw [hview]
    rcases List.mem_append.1 hf with hf | hf
    · exact h.faces f hf name hid
    · exact hface f (List.mem_singleton.1 hf).symm name hid

/-- The writes of one transaction after the commit of another one. -/
theorem Pending.after (h : Pending requests db ws) {ws' : List Write}
    (h' : Pending requests db ws') (hdisj : ∀ w ∈ ws, ∀ w' ∈ ws', w.row ≠ w'.row) :
    Pending requests (applyAll db ws') ws := by
  have hnew : ∀ p, .putPerson p ∈ ws → (applyAll db ws').persons.get? p.id = none := by
    intro p hp
    by_contra hsome
    obtain ⟨q, hq⟩ := Option.ne_none_iff_exists'.1 hsome
    rcases h'.person_iff.1 hq with hq | ⟨hq, hid⟩
    · exact absurd ((h.new p hp).symm.trans hq) (by simp)
    · exact hdisj _ hp _ hq (congrArg RowId.person hid.symm)
  have hseen : ∀ p, .putPerson p ∈ ws →
      (applyAll (applyAll db ws') ws).persons.get? p.id = some p := fun p hp =>
    ((reads_person p.id).of_written ⟨_, hp, rfl⟩).trans (h.seen p hp)
  refine ⟨h.puts, h.ids, hnew, hseen, h.single, fun f hf name hid => ?_⟩
  obtain ⟨p, hp, hname⟩ := h.faces f hf name hid
  refine ⟨p, ?_, hname⟩
  rcases h.person_iff.1 hp with hp | ⟨hp, hpid⟩
  · exact ((reads_person f.personId).of_unwritten (h.unwritten hp)).trans (h'.keeps hp)
  · rw [← hpid]
    exact hseen p hp

theorem Stored.publish (h : Stored requests db₀ db) (hw : Pending requests db ws) :
    Stored requests db₀ (applyAll db ws) := by
  constructor
  · intro id p hp
    rcases hw.person_iff.1 hp with hold | ⟨hput, rfl⟩
    · exact h.persons id p hold
    · exact .inr (hw.ids p hput)
  · intro f hf name hid
    rcases face_of_applyAll hf with hf | hf
    · obtain ⟨p, hp, hname⟩ := h.faces f hf name hid
      exact ⟨p, hw.keeps hp, hname⟩
    · exact hw.faces f hf name hid

theorem Resolved.publish {name : String} {id : UUID} (h : Resolved requests db name id)
    (hw : Pending requests db ws) : Resolved requests (applyAll db ws) name id := by
  rcases h with ⟨p, hp, hname⟩ | hid
  · exact .inl ⟨p, hw.keeps hp, hname⟩
  · exact .inr hid

/-- The person a transaction sees under a resolved id has the name. -/
theorem Resolved.fullName {name : String} {id : UUID} {p : Person}
    (h : Resolved requests db name id) (hfresh : Fresh requests db₀)
    (hs : Stored requests db₀ db) (hw : Pending requests db ws)
    (hp : (applyAll db ws).persons.get? id = some p) : p.fullName = name := by
  rcases hw.person_iff.1 hp with hp | ⟨hput, rfl⟩
  · rcases h with ⟨q, hq, hname⟩ | hid
    · obtain rfl := Option.some.inj (hq.symm.trans hp)
      exact hname
    · rcases hs.persons id p hp with hold | hid'
      · exact absurd ((hfresh.personNew name id hid).symm.trans hold) (by simp)
      · exact hfresh.person _ _ id hid' hid
  · rcases h with ⟨q, hq, -⟩ | hid
    · exact absurd ((hw.new p hput).symm.trans hq) (by simp)
    · exact hfresh.person _ _ p.id (hw.ids p hput) hid

end

/-! ### What a client knows -/

/-- The ids a client has found or created for a name, and the name its last call has looked up in
vain. -/
structure Knowledge where
  resolved : String → UUID → Prop
  missed : Option String

def Knowledge.none : Knowledge := ⟨fun _ _ => False, .none⟩

def learn (k : Knowledge) : (c : Command) → Call.Reply (Option Person) Exc c → Knowledge
  | .query name, .ok (some p) => ⟨fun n id => k.resolved n id ∨ n = name ∧ id = p.id, .none⟩
  | .query name, .ok .none => ⟨k.resolved, some name⟩
  | .flush (.insertPerson p), .ok () =>
    ⟨fun n id => k.resolved n id ∨ n = p.fullName ∧ id = p.id, .none⟩
  | _, _ => ⟨k.resolved, .none⟩

/-- A person is created for a name that has just been looked up in vain, a face is enrolled for a
person that the name was resolved to. -/
def Allowed (ds : List Drawn) (k : Knowledge) : Command → Prop
  | .flush (.insertPerson p) =>
    k.missed = some p.fullName ∧ ∃ d ∈ ds, d.name = p.fullName ∧ d.personId = p.id
  | .flush (.insertFace f) => ∃ d ∈ ds, k.resolved d.name f.personId ∧ d.faceId = f.id
  | .flush (.updatePerson _ _ _) | .flush (.deletePerson _) | .flush (.updateFace _ _ _)
  | .flush (.deleteFace _) => False
  | .flush (.insertLog _) | .begin | .query _ | .commit | .rollback | .close => True

theorem learn_resolved {k : Knowledge} {c : Command} {r : Call.Reply (Option Person) Exc c}
    {name : String} {id : UUID} (h : k.resolved name id) : (learn k c r).resolved name id := by
  unfold learn
  split
  · exact .inl h
  · exact h
  · exact .inl h
  · exact h

/-! ### The programs keep to it -/

section
variable {σ α : Type} {ds : List Drawn} {J : Knowledge → σ → Prop}
  (hJ : ∀ k c (r : Call.Reply (Option Person) Exc c) l, J k l → J (learn k c r) l)
include hJ

abbrev Keeping (ds : List Drawn) (J P : Knowledge → σ → Prop) (p : ClientM σ α)
    (post : α → Knowledge → σ → Prop) : Prop :=
  Lawful (Allowed ds) learn J P p post

theorem keeping_ask {c : Command} (hc : ∀ k, Allowed ds k c) :
    Keeping ds J J (ask c) fun _ => J :=
  lawful_ask (fun k _ _ => hc k) (fun _ k l h => hJ k c _ l h) fun _ k l h => hJ k c _ l h

theorem keeping_getByName (name : String) :
    Keeping ds J J (getByName name) fun found k l => J k l ∧ match found with
      | some p => k.resolved name p.id
      | .none => k.missed = some name := by
  refine lawful_ask (fun _ _ _ => trivial) (fun found k l h => ⟨hJ k _ _ l h, ?_⟩)
    fun _ k l h => hJ k _ _ l h
  cases found with
  | none => rfl
  | some p => exact .inr ⟨rfl, rfl⟩

theorem keeping_addPerson (p : Person)
    (hp : ∃ d ∈ ds, d.name = p.fullName ∧ d.personId = p.id) :
    Keeping ds J (fun k l => J k l ∧ k.missed = some p.fullName) (addPerson p) fun q k l =>
      J k l ∧ k.resolved p.fullName q.id := by
  refine lawful_bind (lawful_ask (fun _ _ h => ⟨h.2, hp⟩) (fun _ k l h => ?_)
    fun _ k l h => hJ k _ _ l h.1) fun _ => lawful_pure fun _ _ h => h
  exact ⟨hJ k _ _ l h.1, .inr ⟨rfl, rfl⟩⟩

theorem keeping_addFace (f : Face) {d : Drawn} (hd : d ∈ ds)
    (hid : d.faceId = f.id) :
    Keeping ds J (fun k l => J k l ∧ k.resolved d.name f.personId) (addFace f) fun _ => J :=
  lawful_bind (lawful_ask (fun _ _ h => ⟨d, hd, h.2, hid⟩) (fun _ k l h => hJ k _ _ l h.1)
    fun _ k l h => hJ k _ _ l h.1) fun _ => lawful_pure fun _ _ h => h

theorem keeping_withSession {p : ClientM σ α} (h : Keeping ds J J p fun _ => J) :
    Keeping ds J J (withSession p) fun _ => J := by
  refine lawful_bind (keeping_ask hJ fun _ => trivial) fun _ => lawful_bind (lawful_tryCatch h
    fun exc => ?_) fun a => ?_
  · exact lawful_bind (keeping_ask hJ fun _ => trivial) fun _ => lawful_throw fun _ _ h => h
  · exact lawful_bind (keeping_ask hJ fun _ => trivial) fun _ => lawful_pure fun _ _ h => h

theorem keeping_enroll {S : RecognitionService} {c : Context} {name : String}
    (hd : ⟨name, c.personId, c.faceId⟩ ∈ ds) (person : Person) (imageBytes : Bytes)
    (imagePath : Option String) :
    Keeping ds J (fun k l => J k l ∧ k.resolved name person.id)
      (enroll S c person imageBytes imagePath) fun _ => J := by
  refine lawful_bind (lawful_raised (fun _ _ _ h => h) fun _ _ h => h.1) fun image => ?_
  refine lawful_bind (lawful_raised (fun _ _ _ h => h) fun _ _ h => h.1) fun result => ?_
  refine lawful_bind (lawful_raised (fun _ _ _ h => h) fun _ _ h => h.1) fun thumbnail => ?_
  refine lawful_bind (keeping_addFace hJ (RecognitionService.newFace c person.id result imagePath
    (some result.detection.bbox) thumbnail) hd rfl) fun face => ?_
  exact lawful_bind (keeping_ask hJ fun _ => trivial) fun _ => lawful_pure fun _ _ h => h

theorem keeping_registerByName {S : RecognitionService} {c : Context} {fullName : String}
    (hd : ⟨strip fullName, c.personId, c.faceId⟩ ∈ ds) (imageBytes : Bytes)
    (imagePath : Option String) :
    Keeping ds J J (registerByName S c fullName imageBytes imagePath) fun _ => J := by
  refine lawful_bind (keeping_getByName hJ (strip fullName)) fun found => ?_
  cases found with
  | some person => exact keeping_enroll hJ hd person imageBytes imagePath
  | none =>
    refine lawful_bind (keeping_addPerson hJ
      (PersonRepository.newPerson c (strip fullName) none .emptyObject) ⟨_, hd, rfl, rfl⟩)
        fun person => ?_
    exact keeping_enroll hJ hd person imageBytes imagePath

theorem keeping_getDb {handler : ClientM σ α} (h : Keeping ds J J handler fun _ => J) :
    Keeping ds J J (getDb handler) fun _ => J := by
  refine keeping_withSession hJ (lawful_tryCatch (lawful_bind h fun response => ?_) fun exc => ?_)
  · exact lawful_bind (keeping_ask hJ fun _ => trivial) fun _ => lawful_pure fun _ _ h => h
  · exact lawful_bind (keeping_ask hJ fun _ => trivial) fun _ => lawful_throw fun _ _ h => h

end

/-- Every id in the cache of an import is one it has found or created for the name. -/
def CacheKnown (k : Knowledge) (l : ImportLocal) : Prop :=
  ∀ name id, l.personCache name = some id → k.resolved name id

theorem cacheKnown_learn (k : Knowledge) (c : Command) (r : Call.Reply (Option Person) Exc c)
    (l : ImportLocal) (h : CacheKnown k l) : CacheKnown (learn k c r) l :=
  fun name id hid => learn_resolved (h name id hid)

section
variable {ds : List Drawn} {env : ImportEnv} {c : Context} {name : String}

theorem keeping_onJob (jobId : UUID) (f : ImportJob → ImportJob) :
    Keeping ds CacheKnown CacheKnown (Statementwise.onJob jobId f) fun _ => CacheKnown :=
  fun _ _ h => h

theorem keeping_findOrAdd (hd : ⟨name, c.personId, c.faceId⟩ ∈ ds) :
    Keeping ds CacheKnown CacheKnown (findOrAdd c name) fun id k l =>
      CacheKnown k l ∧ k.resolved name id := by
  have hremember : ∀ existing : Person, Keeping ds CacheKnown
      (fun k l => CacheKnown k l ∧ k.resolved name existing.id)
      (do
        modify fun l =>
          { l with personCache := Function.update l.personCache name (some existing.id) }
        return existing.id : ImportClient UUID)
      fun id k l => CacheKnown k l ∧ k.resolved name id := by
    rintro existing k l ⟨h, hid⟩
    refine ⟨fun name' id' hcache => ?_, hid⟩
    have hcache : Function.update l.personCache name (some existing.id) name' = some id' := hcache
    by_cases hname : name' = name
    · obtain rfl := hname
      rw [Function.update_self] at hcache
      obtain rfl := Option.some.inj hcache
      exact hid
    · rw [Function.update_of_ne hname] at hcache
      exact h name' id' hcache
  refine lawful_bind (keeping_getByName cacheKnown_learn name) fun found => ?_
  cases found with
  | some person => exact lawful_bind (lawful_pure fun _ _ h => h) hremember
  | none =>
    exact lawful_bind (keeping_addPerson cacheKnown_learn
      (PersonRepository.newPerson c name none .emptyObject) ⟨_, hd, rfl, rfl⟩) hremember

theorem keeping_resolvePerson (hd : ⟨name, c.personId, c.faceId⟩ ∈ ds) :
    Keeping ds CacheKnown CacheKnown (resolvePerson c name) fun id k l =>
      CacheKnown k l ∧ k.resolved name id := by
  intro k l h
  cases hcache : l.personCache name with
  | some id =>
    rw [resolvePerson_cached hcache]
    exact ⟨h, h name id hcache⟩
  | none =>
    rw [resolvePerson_new hcache]
    exact keeping_findOrAdd hd k l h

theorem keeping_processOne (hd : ⟨name, c.personId, c.faceId⟩ ∈ ds) (jobId : UUID)
    (imgPath : Path) :
    Keeping ds CacheKnown CacheKnown (processOne env c jobId name imgPath)
      fun _ => CacheKnown := by
  refine lawful_tryCatch (lawful_bind (lawful_raised (fun _ _ _ h => h) fun _ _ h => h)
    fun analysed => lawful_bind (keeping_resolvePerson hd) fun personId => ?_) fun exc => ?_
  · refine lawful_bind (lawful_raised (fun _ _ _ h => h) fun _ _ h => h.1) fun thumbnail => ?_
    exact lawful_bind (keeping_addFace cacheKnown_learn
      (BulkImportService.newFace c personId imgPath analysed.2 thumbnail) hd rfl) fun _ =>
        keeping_onJob jobId _
  · exact lawful_bind (keeping_onJob jobId _) fun _ => keeping_ask cacheKnown_learn fun _ => trivial

theorem keeping_processBatch (jobId : UUID) {batch : Batch}
    (hd : ∀ pair ∈ batch,
      ⟨pair.1, (env.imageContext pair.2).personId, (env.imageContext pair.2).faceId⟩ ∈ ds) :
    Keeping ds CacheKnown CacheKnown (processBatch env jobId batch) fun _ => CacheKnown := by
  have himages : Keeping ds CacheKnown CacheKnown
      (batch.forM fun pair =>
        processOne env (BulkImportService.contextOf env batch pair.2) jobId pair.1 pair.2)
      fun _ => CacheKnown := by
    refine lawful_forM fun pair hpair => ?_
    have hdrawn : ⟨pair.1, (BulkImportService.contextOf env batch pair.2).personId,
        (BulkImportService.contextOf env batch pair.2).faceId⟩ ∈ ds := hd pair hpair
    exact keeping_processOne hdrawn jobId pair.2
  refine keeping_withSession cacheKnown_learn (lawful_tryCatch (lawful_bind himages fun _ => ?_)
    fun exc => ?_)
  · exact keeping_ask cacheKnown_learn fun _ => trivial
  · exact lawful_bind (keeping_ask cacheKnown_learn fun _ => trivial) fun _ => keeping_onJob jobId _

theorem keeping_batchLoop (jobId : UUID) {batch : Batch} {pairs : List Pair}
    (hd : ∀ pair ∈ batch ++ pairs,
      ⟨pair.1, (env.imageContext pair.2).personId, (env.imageContext pair.2).faceId⟩ ∈ ds) :
    Keeping ds CacheKnown CacheKnown (batchLoop env jobId batch pairs) fun _ => CacheKnown := by
  induction pairs generalizing batch with
  | nil =>
    rw [batchLoop]
    split_ifs
    · exact lawful_pure fun _ _ h => h
    · exact keeping_processBatch jobId (by simpa using hd)
  | cons pair pairs ih =>
    rw [batchLoop]
    split_ifs
    · refine lawful_bind (keeping_processBatch jobId fun p hp => hd p ?_) fun _ =>
        ih fun p hp => hd p ?_
      · rw [List.append_cons]
        exact List.mem_append_left _ hp
      · rw [List.append_cons]
        exact List.mem_append_right _ hp
    · exact ih (by simpa using hd)

end

theorem program_obeys (r : Request) :
    r.program.Obeys (Allowed r.drawn) learn .none fun _ _ => True := by
  cases r with
  | registerByName S c fullName imageBytes imagePath =>
    have hkeeping : Keeping [⟨strip fullName, c.personId, c.faceId⟩] (fun _ (_ : Unit) => True)
        (fun _ _ => True) (getDb (registerByName S c fullName imageBytes imagePath))
        fun _ _ _ => True :=
      keeping_getDb (fun _ _ _ _ _ => trivial) (keeping_registerByName (fun _ _ _ _ _ => trivial)
        (List.mem_singleton.2 rfl) imageBytes imagePath)
    exact (hkeeping .none () trivial).bind fun _ _ _ => trivial
  | bulkImport env jobId pairs =>
    have hloop : Keeping (Request.bulkImport env jobId pairs).drawn CacheKnown CacheKnown
        (batchLoop env jobId [] pairs) fun _ => CacheKnown :=
      keeping_batchLoop jobId fun pair hpair => List.mem_map.2 ⟨pair, hpair, rfl⟩
    have hkeeping : Keeping (Request.bulkImport env jobId pairs).drawn CacheKnown CacheKnown
        (importPairs env jobId pairs) fun _ => CacheKnown := by
      refine lawful_bind (keeping_onJob jobId _) fun _ => lawful_bind ?_ fun _ =>
        lawful_bind hloop fun _ => keeping_onJob jobId _
      exact fun k l _ name id hid => absurd hid (by simp)
    refine (hkeeping .none _ ?_).bind fun _ _ _ => trivial
    exact fun name id hid => absurd hid (by simp)

/-! ### What holds in every state -/

theorem learn_error (k : Knowledge) (c : Command) (e : Exc) :
    learn k c (.error e) = ⟨k.resolved, .none⟩ := by
  cases c with
  | flush q => cases q <;> rfl
  | _ => rfl

theorem learn_renews {k : Knowledge} {c : Command} (hc : c.Renews)
    (r : Call.Reply (Option Person) Exc c) : learn k c r = ⟨k.resolved, .none⟩ := by
  cases c with
  | begin => rfl
  | rollback => rfl
  | close => rfl
  | query a => exact hc.elim
  | flush q => exact hc.elim
  | commit => exact hc.elim

@[simp] theorem missed_learn_flush (k : Knowledge) (q : Statement)
    (r : Call.Reply (Option Person) Exc (.flush q : Command)) :
    (learn k (.flush q) r).missed = .none := by
  unfold learn
  split <;> simp_all

theorem nobody_seen {db : Database} {name : String} (h : postgres.look name db = none) {id : UUID}
    {p : Person} (hp : db.persons.get? id = some p) : p.fullName ≠ name := by
  simpa using List.find?_eq_none.1 h p (Table.get?_eq_some.1 hp).1

/-- A statement that a client may make and that succeeds. -/
theorem allowed_run {ds : List Drawn} {k : Knowledge} {q : Statement} {db : Database}
    {ws : List Write} (hq : Allowed ds k (.flush q)) (hrun : q.run db = .ok ws) :
    (∃ p, q = .insertPerson p ∧ db.persons.get? p.id = none ∧ ws = [.putPerson p]) ∨
    (∃ f p, q = .insertFace f ∧ db.persons.get? f.personId = some p ∧
      ws = [.putFace { f with isActive := p.isActive }]) ∨
    ∃ l, q = .insertLog l ∧ ws = [.putLog l] := by
  cases q with
  | insertPerson p =>
    obtain ⟨hnew, rfl⟩ := insertPerson_ok hrun
    exact .inl ⟨p, rfl, by simpa [flag] using hnew, rfl⟩
  | insertFace f =>
    obtain ⟨p, hp, -, rfl⟩ := insertFace_ok hrun
    exact .inr (.inl ⟨f, p, rfl, hp, rfl⟩)
  | insertLog l =>
    obtain rfl := insertLog_ok hrun
    exact .inr (.inr ⟨l, rfl, rfl⟩)
  | updatePerson id s now => exact hq.elim
  | deletePerson id => exact hq.elim
  | updateFace id s now => exact hq.elim
  | deleteFace id => exact hq.elim

/-- A person is only written for a name that has just been looked up in vain. -/
theorem missed_of_put {ds : List Drawn} {k : Knowledge} {q : Statement} {db : Database}
    {ws : List Write} {p : Person} (hq : Allowed ds k (.flush q)) (hrun : q.run db = .ok ws)
    (hp : .putPerson p ∈ ws) : k.missed = some p.fullName := by
  rcases allowed_run hq hrun with ⟨p', rfl, -, rfl⟩ | ⟨f, p', rfl, -, rfl⟩ | ⟨l, rfl, rfl⟩
  · obtain rfl := Write.putPerson.inj (List.mem_singleton.1 hp)
    exact hq.1
  · cases List.mem_singleton.1 hp
  · cases List.mem_singleton.1 hp

structure Inv (requests : T → Request) (db₀ : Database) (s : State T Database Write)
    (client : T → Request.Program) (K : T → Knowledge) : Prop where
  stored : Stored requests db₀ s.committed
  pending : ∀ x ∈ s.txns.rows, Pending requests s.committed x.writes
  locks : LocksDisjoint engine s
  obeys : ∀ t, (client t).Obeys (Allowed (requests t).drawn) learn (K t) fun _ _ => True
  resolved : ∀ t name id, (K t).resolved name id → Resolved requests s.committed name id

variable [DecidableEq T]

/-- A client that has just looked a name up in vain has created nobody with it. -/
def Missed (s : State T Database Write) (K : T → Knowledge) : Prop :=
  ∀ t name x, (K t).missed = some name → s.txns.get? t = some x →
    ∀ p, .putPerson p ∈ x.writes → p.fullName ≠ name

section step
variable {requests : T → Request} {db₀ : Database} {s s' : State T Database Write}
  {client : T → Request.Program} {K : T → Knowledge} {t : T} {fault : Option Exc} {c : Command}
  {r : Call.Reply (Option Person) Exc c}

/-- The call of a client that has just looked a name up in vain. -/
theorem queried_of_missed {k : Knowledge} {name : String} (h : Served postgres t s fault c s' r)
    (hmissed : (learn k c r).missed = some name) :
    s' = s ∧ fault = none ∧ c = .query name ∧ ∃ x, s.txns.get? t = some x ∧
      postgres.look name (view engine s x) = none := by
  cases h with
  | renewed _ c r hc =>
    rw [learn_renews hc] at hmissed
    cases hmissed
  | failed _ c e =>
    rw [learn_error] at hmissed
    cases hmissed
  | aborted _ c e =>
    rw [learn_error] at hmissed
    cases hmissed
  | queried looked x hx =>
    cases hfound : postgres.look looked (view engine s x) with
    | some p =>
      rw [postgres_engine, hfound] at hmissed
      cases hmissed
    | none =>
      rw [postgres_engine, hfound] at hmissed
      obtain rfl := Option.some.inj hmissed
      exact ⟨rfl, rfl, rfl, x, hx, hfound⟩
  | flushed q =>
    rw [missed_learn_flush] at hmissed
    cases hmissed
  | committed => cases hmissed

/-- A person among the writes of a client after its call: it was there, or its name had just been
looked up in vain. -/
theorem missed_of_written {ds : List Drawn} {k : Knowledge} (hallowed : Allowed ds k c)
    (h : Served postgres t s fault c s' r) {y : Txn T Write} {p : Person}
    (hy : s'.txns.get? t = some y) (hput : .putPerson p ∈ y.writes) :
    s'.committed = s.committed ∧ (k.missed = some p.fullName ∨
      ∃ x, s.txns.get? t = some x ∧ .putPerson p ∈ x.writes) := by
  cases h with
  | renewed =>
    obtain rfl := Option.some.inj ((State.get?_renew _ _).symm.trans hy)
    cases hput
  | failed => exact ⟨rfl, .inr ⟨y, hy, hput⟩⟩
  | aborted => cases (State.get?_abort _ _).symm.trans hy
  | queried => exact ⟨rfl, .inr ⟨y, hy, hput⟩⟩
  | flushed q x ws hx hrun =>
    obtain rfl : x.id = t := Table.pk_of_get? hx
    obtain rfl := Option.some.inj ((State.get?_wrote _ _ _).symm.trans hy)
    rcases List.mem_append.1 hput with hput | hput
    · exact ⟨rfl, .inr ⟨x, hx, hput⟩⟩
    · exact ⟨rfl, .inl (missed_of_put hallowed hrun hput)⟩
  | committed x hx =>
    obtain rfl : x.id = t := Table.pk_of_get? hx
    obtain rfl := Option.some.inj ((State.get?_publish _ _ _).symm.trans hy)
    cases hput

variable (hi : Inv requests db₀ s client K)
include hi

theorem stored_served (h : Served postgres t s fault c s' r) :
    Stored requests db₀ s'.committed := by
  rcases h.committed_cases with hsame | ⟨x, -, -, hx, hview⟩
  · rw [hsame]
    exact hi.stored
  · rw [hview]
    exact hi.stored.publish (hi.pending x (Table.get?_eq_some.1 hx).1)

theorem pending_flushed (hfresh : Fresh requests db₀) (hmissed : Missed s K) {q : Statement}
    {x : Txn T Write} {ws : List Write} (hx : s.txns.get? t = some x)
    (hq : Allowed (requests t).drawn (K t) (.flush q)) (hrun : q.run (view engine s x) = .ok ws) :
    Pending requests s.committed (x.writes ++ ws) := by
  have hp := hi.pending x (Table.get?_eq_some.1 hx).1
  rcases allowed_run hq hrun with ⟨p, rfl, hnew, rfl⟩ | ⟨f, p, rfl, hperson, rfl⟩ | ⟨l, rfl, rfl⟩
  · obtain ⟨hlooked, d, hd, hname, hid⟩ := hq
    exact hp.putPerson ⟨t, d, hd, hname, hid⟩ hnew (hmissed t _ x hlooked hx)
  · obtain ⟨d, hd, hresolved, hid⟩ := hq
    have hname : p.fullName = d.name :=
      (hi.resolved t _ _ hresolved).fullName hfresh hi.stored hp hperson
    refine hp.append trivial (fun _ h => by cases h) fun g hg name hface => ?_
    obtain rfl := Write.putFace.inj hg
    exact ⟨p, hperson, hname.trans (hfresh.face _ _ _ ⟨t, d, hd, rfl, hid⟩ hface)⟩
  · exact hp.append trivial (fun _ h => by cases h) fun _ h => by cases h

theorem pending_served (hfresh : Fresh requests db₀) (hmissed : Missed s K)
    (hallowed : Allowed (requests t).drawn (K t) c) (h : Served postgres t s fault c s' r) :
    ∀ x ∈ s'.txns.rows, Pending requests s'.committed x.writes := by
  cases h with
  | renewed =>
    intro x hx
    rcases Table.mem_put.1 hx with rfl | ⟨hx, -⟩
    · exact .nil
    · exact hi.pending x hx
  | failed => exact hi.pending
  | aborted => exact fun x hx => hi.pending x (Table.mem_erase.1 hx).1
  | queried => exact hi.pending
  | flushed q y ws hy hrun hu =>
    intro x hx
    rcases Table.mem_put.1 hx with rfl | ⟨hx, -⟩
    · exact pending_flushed hi hfresh hmissed hy hallowed hrun
    · exact hi.pending x hx
  | committed y hy =>
    intro x hx
    have hymem := (Table.get?_eq_some.1 hy).1
    rcases Table.mem_put.1 hx with rfl | ⟨hx, hne⟩
    · exact .nil
    · exact (hi.pending x hx).after (hi.pending y hymem) (hi.locks x hx y hymem (Ne.symm hne))

theorem resolved_mono (h : Served postgres t s fault c s' r) {name : String} {id : UUID}
    (hr : Resolved requests s.committed name id) : Resolved requests s'.committed name id := by
  rcases h.committed_cases with hsame | ⟨x, -, -, hx, hview⟩
  · rwa [hsame]
  · rw [hview]
    exact hr.publish (hi.pending x (Table.get?_eq_some.1 hx).1)

theorem resolved_served (hallowed : Allowed (requests t).drawn (K t) c)
    (h : Served postgres t s fault c s' r) {name : String} {id : UUID}
    (hr : (learn (K t) c r).resolved name id) : Resolved requests s'.committed name id := by
  have hold : (K t).resolved name id → Resolved requests s'.committed name id :=
    fun hr => resolved_mono hi h (hi.resolved t name id hr)
  cases h with
  | renewed _ c r hc =>
    rw [learn_renews hc] at hr
    exact hold hr
  | failed _ c e =>
    rw [learn_error] at hr
    exact hold hr
  | aborted _ c e =>
    rw [learn_error] at hr
    exact hold hr
  | queried looked x hx =>
    cases hfound : postgres.look looked (view engine s x) with
    | none =>
      rw [postgres_engine, hfound] at hr
      exact hold hr
    | some p =>
      rw [postgres_engine, hfound] at hr
      rcases hr with hr | ⟨rfl, rfl⟩
      · exact hold hr
      · have hname : p.fullName = name := by simpa using List.find?_some hfound
        have hseen : (view engine s x).persons.get? p.id = some p :=
          Table.mem_iff_get?.1 (List.mem_of_find?_eq_some hfound)
        have hp := hi.pending x (Table.get?_eq_some.1 hx).1
        rcases hp.person_iff.1 hseen with hcommitted | ⟨hput, -⟩
        · exact .inl ⟨p, hcommitted, hname⟩
        · exact .inr (hname ▸ hp.ids p hput)
  | flushed q x ws hx hrun hu =>
    rcases allowed_run hallowed hrun with ⟨p, rfl, -, -⟩ | ⟨f, p, rfl, -, -⟩ | ⟨l, rfl, -⟩
    · obtain ⟨-, d, hd, hname, hid⟩ := hallowed
      rcases hr with hr | ⟨rfl, rfl⟩
      · exact hold hr
      · exact .inr ⟨t, d, hd, hname, hid⟩
    · exact hold hr
    · exact hold hr
  | committed x hx => exact hold hr

theorem missed_served (hmissed : Missed s K) (h : Served postgres t s fault c s' r) :
    Missed s' (Function.update K t (learn (K t) c r)) := by
  intro u name x hlooked hx p hput
  by_cases hu : u = t
  · obtain rfl := hu
    rw [Function.update_self] at hlooked
    obtain ⟨rfl, -, -, y, hy, hfound⟩ := queried_of_missed h hlooked
    obtain rfl := Option.some.inj (hy.symm.trans hx)
    exact nobody_seen hfound ((hi.pending y (Table.get?_eq_some.1 hy).1).seen p hput)
  · rw [Function.update_of_ne hu] at hlooked
    rw [h.get?_of_ne hu] at hx
    exact hmissed u name x hlooked hx p hput

/-- One call of a client. -/
theorem inv_served (hfresh : Fresh requests db₀) (hmissed : Missed s K)
    {next : Call.Reply (Option Person) Exc c → Request.Program} (hclient : client t = .call c next)
    (h : Served postgres t s fault c s' r) :
    Inv requests db₀ s' (Function.update client t (next r))
      (Function.update K t (learn (K t) c r)) := by
  have hobeys := hi.obeys t
  rw [hclient] at hobeys
  obtain ⟨hallowed, hnext⟩ := hobeys
  refine ⟨stored_served hi h, pending_served hi hfresh hmissed hallowed h,
    locksDisjoint_served (D := postgres) hi.locks h, fun u => ?_, fun u name id hr => ?_⟩
  · by_cases hu : u = t
    · obtain rfl := hu
      rw [Function.update_self, Function.update_self]
      exact hnext r
    · rw [Function.update_of_ne hu, Function.update_of_ne hu]
      exact hi.obeys u
  · by_cases hu : u = t
    · obtain rfl := hu
      rw [Function.update_self] at hr
      exact resolved_served hi hallowed h hr
    · rw [Function.update_of_ne hu] at hr
      exact resolved_mono hi h (hi.resolved u name id hr)

end step

end FaceRecognition.Services.FindOrCreate
