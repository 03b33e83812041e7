import FaceRecognition.Api.Faces
import FaceRecognition.Api.Persons
import FaceRecognition.Lib.Run
import FaceRecognition.Services.BulkImport
import FaceRecognition.Services.Ranking

/-!
# Runs of requests and imports

The requests that write to the three tables, and the folder import, one after the other. The
database is mirrored after the upgrade to revision 0004 and every operation keeps it so, whether it
succeeds or fails half-way; so in every reachable database the partial index on `faces.is_active`
holds the faces of the active persons.
-/

namespace FaceRecognition.Api

open Relational Recognition Db UnitOfWork Services

structure World where
  db : Database
  jobs : InProcessJobStore

/-- An operation, with what it gets from outside. -/
inductive Op where
  | createPerson (c : Context) (payload : PersonCreate)
  | updatePerson (c : Context) (personId : UUID) (payload : PersonUpdate)
  | deletePerson (c : Context) (personId : UUID)
  | registerFace (S : RecognitionService) (c : Context) (personId : UUID) (image : Upload)
  | enrollByName (S : RecognitionService) (c : Context) (personName : String) (image : Upload)
  | replaceFaceImage (S : RecognitionService) (c : Context) (faceId : UUID) (image : Upload)
  | deleteFace (c : Context) (faceId : UUID)
  | verifyFace (S : RecognitionService) (c : Context) (personId : UUID) (image : Upload)
  | searchFaces (S : RecognitionService) (c : Context) (image : Upload) (topK : Option ℤ)
  | externalSearch (S : RecognitionService) (c : Context) (image : Upload)
  | bulkImport (env : ImportEnv) (jobId : UUID) (rootPath : Path)

def request {α : Type} (c : Context) (handler : Context → SessionM α) (w : World) : World :=
  { w with db := afterRequest c.alone (handler c.alone) w.db }

/-- Without other clients. -/
def aloneEnv (env : ImportEnv) : ImportEnv :=
  { env with imageContext := fun path => (env.imageContext path).alone }

/-- The background task of `POST /faces/import`. -/
def bulkImport (env : ImportEnv) (jobId : UUID) (rootPath : Path) (w : World) : World :=
  let st := (exec (BulkImportService.run (aloneEnv env) jobId rootPath)
    ⟨Session.begin w.db, fun _ => none, w.jobs.create jobId⟩).2
  ⟨st.session.committed, st.jobs⟩

/-- A job has a fresh id. -/
def step (w : World) : Op → Option World
  | .createPerson c payload => some (request c (fun c => createPerson c payload) w)
  | .updatePerson c personId payload =>
    some (request c (fun c => updatePerson c personId payload) w)
  | .deletePerson c personId => some (request c (fun c => deletePerson c personId) w)
  | .registerFace S c personId image =>
    some (request c (fun c => registerFace S c personId image) w)
  | .enrollByName S c personName image =>
    some (request c (fun c => enrollByName S c personName image) w)
  | .replaceFaceImage S c faceId image =>
    some (request c (fun c => replaceFaceImage S c faceId image) w)
  | .deleteFace c faceId => some (request c (fun c => deleteFace c faceId) w)
  | .verifyFace S c personId image => some (request c (fun c => verifyFace S c personId image) w)
  | .searchFaces S c image topK => some (request c (fun c => searchFaces S c image topK) w)
  | .externalSearch S c image => some (request c (fun c => externalSearch S c image) w)
  | .bulkImport env jobId rootPath =>
    if (w.jobs.get? jobId).isNone then some (bulkImport env jobId rootPath w) else none

/-- The worlds that operations lead to from the upgrade of a database of revision 0003. -/
def Reachable (pre : Database0003) (w : World) : Prop :=
  ∃ ops, Run.exec step ⟨upgrade0004 pre, Table.empty⟩ ops = some w

/-! ### What an operation writes -/

/-- The statements an operation may send, besides those that write the log. -/
inductive Sends : Op → Statement → Prop
  | createPerson {c : Context} {payload : PersonCreate} : Sends (.createPerson c payload)
      (.insertPerson
        (PersonRepository.newPerson c payload.fullName payload.externalId payload.metadata))
  | updatePerson {c : Context} {personId : UUID} {payload : PersonUpdate} (person : Person)
      (now : Time) : Sends (.updatePerson c personId payload)
      (.updatePerson personId (payload.changes person) now)
  | deletePerson {c : Context} {personId : UUID} (id : UUID) :
      Sends (.deletePerson c personId) (.deletePerson id)
  | registerFace {S : RecognitionService} {c : Context} {personId : UUID} {image : Upload} {f : Face}
      (h : S.EnrolledAs image.data f.embedding) :
      Sends (.registerFace S c personId image) (.insertFace f)
  | newPerson {S : RecognitionService} {c : Context} {personName : String} {image : Upload} :
      Sends (.enrollByName S c personName image)
        (.insertPerson (PersonRepository.newPerson c (strip personName) none .emptyObject))
  | enrollByName {S : RecognitionService} {c : Context} {personName : String} {image : Upload}
      {f : Face} (h : S.EnrolledAs image.data f.embedding) :
      Sends (.enrollByName S c personName image) (.insertFace f)
  | replaceFaceImage {S : RecognitionService} {c : Context} {faceId : UUID} {image : Upload}
      (id : UUID) {s : FaceSet} (now : Time) (h : S.EnrolledAs image.data s.embedding) :
      Sends (.replaceFaceImage S c faceId image) (.updateFace id s now)
  | deleteFace {c : Context} {faceId : UUID} (id : UUID) :
      Sends (.deleteFace c faceId) (.deleteFace id)
  | importPerson {env : ImportEnv} {jobId : UUID} {rootPath : Path} {pair : Pair} (c : Context)
      (hpair : pair ∈ BulkImportService.importsOf env rootPath) :
      Sends (.bulkImport env jobId rootPath)
        (.insertPerson (PersonRepository.newPerson c pair.1 none .emptyObject))
  | importFace {env : ImportEnv} {jobId : UUID} {rootPath : Path} {pair : Pair} {f : Face}
      (hpair : pair ∈ BulkImportService.importsOf env rootPath)
      (h : BulkImportService.ImportedAs env pair.2 f.embedding) :
      Sends (.bulkImport env jobId rootPath) (.insertFace f)

/-- The rows an operation may write to the log. -/
inductive Records : Op → RecognitionLog → Prop
  | registerFace {S : RecognitionService} {c : Context} {personId : UUID} {image : Upload}
      {l : RecognitionLog} (h : S.Signed l) : Records (.registerFace S c personId image) l
  | enrollByName {S : RecognitionService} {c : Context} {personName : String} {image : Upload}
      {l : RecognitionLog} (h : S.Signed l) : Records (.enrollByName S c personName image) l
  | replaceFaceImage {S : RecognitionService} {c : Context} {faceId : UUID} {image : Upload}
      {l : RecognitionLog} (h : S.Signed l) : Records (.replaceFaceImage S c faceId image) l
  | verifyFace {S : RecognitionService} {c : Context} {personId : UUID} {image : Upload}
      {l : RecognitionLog} (h : S.Signed l) : Records (.verifyFace S c personId image) l
  | searchFaces {S : RecognitionService} {c : Context} {image : Upload} {topK : Option ℤ}
      {l : RecognitionLog} (h : S.Signed l) : Records (.searchFaces S c image topK) l
  | externalSearch {S : RecognitionService} {c : Context} {image : Upload}
      {l : RecognitionLog} (h : S.Signed l) : Records (.externalSearch S c image) l
  | bulkImport {env : ImportEnv} {jobId : UUID} {rootPath : Path} {l : RecognitionLog}
      (h : BulkImportService.Failure l) : Records (.bulkImport env jobId rootPath) l

theorem bulkImport_keeps {I : Database → Prop} {w : World} {env : ImportEnv} {jobId : UUID}
    {rootPath : Path}
    (hlog : ∀ l, Records (.bulkImport env jobId rootPath) l → KeptBy I (.insertLog l))
    (hI : ∀ q, Sends (.bulkImport env jobId rootPath) q → KeptBy I q) (hw : I w.db) :
    I (bulkImport env jobId rootPath w).db := by
  have henv : ∀ path, ((aloneEnv env).imageContext path).others = [] := fun _ => rfl
  have hst : BulkImportService.BothOf I
      ⟨Session.begin w.db, fun _ => none, w.jobs.create jobId⟩ := both_begin hw
  have hpairs : BulkImportService.KeptByImport I (aloneEnv env)
      (BulkImportService.importsOf (aloneEnv env) rootPath) :=
    ⟨fun pair hpair c => hI _ (.importPerson c hpair),
      fun pair hpair f hf => hI _ (.importFace hpair hf), fun l hl => hlog l (.bulkImport hl)⟩
  exact (BulkImportService.keeps_run henv jobId hpairs _ hst).1

/-- What the statements of an operation keep, the operation keeps. -/
theorem step_keeps {I : Database → Prop} {w w' : World} {op : Op}
    (hlog : ∀ l, Records op l → KeptBy I (.insertLog l)) (hI : ∀ q, Sends op q → KeptBy I q)
    (hw : I w.db) (h : step w op = some w') : I w'.db := by
  have hc : ∀ c : Context, c.alone.others = [] := fun _ => rfl
  cases op with
  | createPerson c payload =>
    cases h
    exact afterRequest_keeps (keeps_createPerson (hc c) (hI _ .createPerson)) hw
  | updatePerson c personId payload =>
    cases h
    exact afterRequest_keeps
      (keeps_updatePerson (hc c) fun person now => hI _ (.updatePerson person now)) hw
  | deletePerson c personId =>
    cases h
    exact afterRequest_keeps (keeps_deletePerson (hc c) fun id => hI _ (.deletePerson id)) hw
  | registerFace S c personId image =>
    cases h
    exact afterRequest_keeps (keeps_upload (RecognitionService.keeps_register (hc c)
      (fun l hl => hlog l (.registerFace hl)) (fun f hf => hI _ (.registerFace hf)) personId
      image.filename)) hw
  | enrollByName S c personName image =>
    cases h
    exact afterRequest_keeps (keeps_upload (RecognitionService.keeps_registerByName (hc c)
      (fun l hl => hlog l (.enrollByName hl)) (hI _ .newPerson)
      (fun f hf => hI _ (.enrollByName hf)) image.filename)) hw
  | replaceFaceImage S c faceId image =>
    cases h
    exact afterRequest_keeps (keeps_upload (RecognitionService.keeps_replaceFaceImage (hc c)
      (fun l hl => hlog l (.replaceFaceImage hl))
      (fun id s now hs => hI _ (.replaceFaceImage id now hs)) faceId image.filename)) hw
  | deleteFace c faceId =>
    cases h
    exact afterRequest_keeps (keeps_deleteFace (hc c) fun id => hI _ (.deleteFace id)) hw
  | verifyFace S c personId image =>
    cases h
    exact afterRequest_keeps (keeps_upload (RecognitionService.keeps_verify (hc c)
      (fun l hl => hlog l (.verifyFace hl)) personId)) hw
  | searchFaces S c image topK =>
    cases h
    exact afterRequest_keeps (keeps_upload (RecognitionService.keeps_search (hc c)
      (fun l hl => hlog l (.searchFaces hl)) topK)) hw
  | externalSearch S c image =>
    cases h
    exact afterRequest_keeps (keeps_upload (RecognitionService.keeps_identifyTop1 (hc c)
      fun l hl => hlog l (.externalSearch hl))) hw
  | bulkImport env jobId rootPath =>
    rw [step] at h
    split_ifs at h
    cases h
    exact bulkImport_keeps hlog hI hw

/-- What the statements of all operations of a run keep holds after it. -/
theorem run_keeps {I : Database → Prop} (hlog : ∀ l, KeptBy I (.insertLog l)) {w w' : World}
    {ops : List Op} (hI : ∀ op ∈ ops, ∀ q, Sends op q → KeptBy I q) (hw : I w.db)
    (hrun : Run.exec step w ops = some w') : I w'.db :=
  Run.inv_of_guarded (I := fun w => I w.db) (C := fun _ op => ∀ q, Sends op q → KeptBy I q)
    (fun _ _ _ hw hop hstep => step_keeps (fun l _ => hlog l) hop hw hstep) hw
    (Run.guarded_of_forall fun op hop _ => hI op hop) hrun

/-! ### Every reachable database is mirrored -/

theorem mirror_reachable {pre : Database0003} {w : World} (h : Reachable pre w) : Mirror w.db := by
  obtain ⟨ops, hrun⟩ := h
  exact run_keeps (fun _ => mirror_keptBy _) (fun _ _ q _ => mirror_keptBy q) (mirror_upgrade pre)
    hrun

/-- The clause on the mirrored flag selects the rows that the clause on the joined person does. -/
theorem search_eq_joined {pre : Database0003} {w : World} (h : Reachable pre w) (G : Gallery)
    (c : Context) (embedding : Embedding) (topK : ℤ) :
    exec (FaceRepository.search G c.alone embedding topK) (Session.begin w.db) =
      exec (FaceRepository.searchWhere G c.alone (fun row => row.2.isActive) embedding topK)
        (Session.begin w.db) := by
  have hrows : ∀ (q : Embedding) (k : ℕ),
      FaceRepository.searchRows G (fun row => row.1.isActive) q k w.db =
        FaceRepository.searchRows G (fun row => row.2.isActive) q k w.db := by
    intro q k
    rw [FaceRepository.searchRows, FaceRepository.searchRows,
      RecognitionService.filter_active (mirror_reachable h)]
  have hclause : (fun row : Face × Person => if true then row.1.isActive else true) =
      fun row => row.1.isActive := rfl
  rw [FaceRepository.search, FaceRepository.searchWhere, FaceRepository.searchWhere, hclause,
    Session.begin, exec_query, exec_query, Context.view_of_alone rfl, hrows]

/-! ### Alice is deactivated -/

def aliceBefore : Database0003 where
  persons := Table.empty.put alice
  faces := Table.empty.put aliceFace.toFaceBase
  logs := Table.empty
  hasPerson := by decide +kernel

def deactivate : PersonUpdate where
  isActive := some (some false)
  fullName_length := by simp
  externalId_length := by simp
  metadata_object := by simp

def atNoon : Context := ⟨12, 2, 8, 9, [], fun _ => none⟩

def aliceDeactivated : World :=
  request atNoon (fun c => updatePerson c 1 deactivate) ⟨upgrade0004 aliceBefore, Table.empty⟩

theorem reachable_aliceDeactivated : Reachable aliceBefore aliceDeactivated :=
  ⟨[.updatePerson atNoon 1 deactivate], rfl⟩

theorem search_eq_joined_aliceDeactivated :
    exec (FaceRepository.search RecognitionService.oneFaceService.gallery atNoon.alone
        (fun _ => 0) 5) (Session.begin aliceDeactivated.db) =
      exec (FaceRepository.searchWhere RecognitionService.oneFaceService.gallery atNoon.alone
        (fun row => row.2.isActive) (fun _ => 0) 5) (Session.begin aliceDeactivated.db) :=
  search_eq_joined reachable_aliceDeactivated _ atNoon _ 5

end FaceRecognition.Api
