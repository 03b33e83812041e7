import FaceRecognition.Api.Runs
import FaceRecognition.Services.Trail

/-!
# Runs and the audit trail

A request that enrols a face writes the row of the log in the same transaction, and none of the
others leaves a face without its row. So in every run whose imports store nothing all faces have a
trail (`trail_of_guarded`). An import that stores a face leaves it without one.
-/

namespace FaceRecognition.Api

open Relational Recognition Db UnitOfWork Services BulkImportService

/-- The operation is no import, or an import that stores nothing. -/
def ImportsNothing (w : World) : Op → Prop
  | .bulkImport env _ rootPath =>
    StoresNothing (aloneEnv env) (importBatches (aloneEnv env) rootPath) ⟨w.db, fun _ => none⟩
  | _ => True

section
variable {S : RecognitionService} {c : Context} {db : Database}

/-- A request with an upload whose handler writes a row for every face it writes. -/
theorem trail_afterUpload {α : Type} {image : Upload} {k : Bytes → SessionM α}
    (hkept : ∀ data, Preserves Session.committed (k data))
    (hwrites : ∀ data a s, exec (k data) (Session.begin db) = (.ok a, s) →
      ∃ w, Wrote (Session.begin db) s w ∧ ∀ f, w.face = some f → ∃ a, Enrolled a f w.log)
    (h : Trail db) : Trail (afterRequest c (lift (readImage image) >>= k) db) := by
  have hhandler : Preserves Session.committed (lift (readImage image) >>= k) :=
    preserves_bind (preserves_lift _) hkept
  rcases afterRequest_cases hhandler db with hsame | ⟨a, s, hrun, hwork⟩
  · rwa [hsame]
  · obtain ⟨data, t, hread, hk⟩ := exec_bind_eq_ok.1 hrun
    obtain ⟨-, rfl⟩ := exec_lift_eq_ok.1 hread
    obtain ⟨w, hwrote, hface⟩ := hwrites data a s hk
    rw [hwork]
    exact trail_wrote h hwrote hface

theorem trail_registerFace (h : Trail db) (personId : UUID) (image : Upload) :
    Trail (afterRequest c (registerFace S c personId image) db) := by
  refine trail_afterUpload (fun data => RecognitionService.preserves_register S c personId data
    image.filename) (fun data a s hrun => ?_) h
  obtain ⟨f, log, henrolled, -, -, hwrote⟩ := RecognitionService.register_writes hrun
  exact ⟨_, hwrote, fun g hg => ⟨a, Option.some.inj hg ▸ henrolled⟩⟩

theorem trail_enrollByName (h : Trail db) (personName : String) (image : Upload) :
    Trail (afterRequest c (enrollByName S c personName image) db) := by
  refine trail_afterUpload (fun data => RecognitionService.preserves_registerByName S c personName
    data image.filename) (fun data a s hrun => ?_) h
  obtain ⟨p, f, log, henrolled, -, -, hwrote⟩ := RecognitionService.registerByName_writes hrun
  exact ⟨_, hwrote, fun g hg => ⟨a, Option.some.inj hg ▸ henrolled⟩⟩

theorem trail_replaceFaceImage (h : Trail db) (faceId : UUID) (image : Upload) :
    Trail (afterRequest c (replaceFaceImage S c faceId image) db) := by
  refine trail_afterUpload (fun data => RecognitionService.preserves_replaceFaceImage S c faceId
    data image.filename) (fun data a s hrun => ?_) h
  obtain ⟨old, f, log, henrolled, -, -, -, hwrote⟩ :=
    RecognitionService.replaceFaceImage_writes hrun
  exact ⟨_, hwrote, fun g hg => ⟨a, Option.some.inj hg ▸ henrolled⟩⟩

theorem trail_verifyFace (h : Trail db) (personId : UUID) (image : Upload) :
    Trail (afterRequest c (verifyFace S c personId image) db) := by
  refine trail_afterUpload (fun data => RecognitionService.preserves_verify S c personId data)
    (fun data a s hrun => ?_) h
  obtain ⟨result, log, -, -, -, -, hwrote⟩ := RecognitionService.verify_writes hrun
  exact ⟨_, hwrote, fun f hf => by cases hf⟩

theorem trail_searchFaces (h : Trail db) (image : Upload) (topK : Option ℤ) :
    Trail (afterRequest c (searchFaces S c image topK) db) := by
  refine trail_afterUpload (fun data => RecognitionService.preserves_search S c data topK)
    (fun data a s hrun => ?_) h
  obtain ⟨log, -, hwrote⟩ := RecognitionService.search_writes hrun
  exact ⟨_, hwrote, fun f hf => by cases hf⟩

theorem trail_externalSearch (h : Trail db) (image : Upload) :
    Trail (afterRequest c (externalSearch S c image) db) := by
  refine trail_afterUpload (fun data => RecognitionService.preserves_identifyTop1 S c data)
    (fun data a s hrun => ?_) h
  obtain ⟨result, best, log, -, -, -, -, -, hwrote⟩ :=
    RecognitionService.identifyTop1_writes hrun
  exact ⟨_, hwrote, fun f hf => by cases hf⟩

end

theorem trail_step {w w' : World} {op : Op} (h : Trail w.db) (hop : ImportsNothing w op)
    (hstep : step w op = some w') : Trail w'.db := by
  have hc : ∀ c : Context, c.alone.others = [] := fun _ => rfl
  cases op with
  | createPerson c payload =>
    cases hstep
    exact afterRequest_keeps (keeps_createPerson (hc c) (trail_insertPerson _)) h
  | updatePerson c personId payload =>
    cases hstep
    exact afterRequest_keeps (keeps_updatePerson (hc c) fun _ => trail_updatePerson _ _) h
  | deletePerson c personId =>
    cases hstep
    exact afterRequest_keeps (keeps_deletePerson (hc c) trail_deletePerson) h
  | registerFace S c personId image =>
    cases hstep
    exact trail_registerFace h personId image
  | enrollByName S c personName image =>
    cases hstep
    exact trail_enrollByName h personName image
  | replaceFaceImage S c faceId image =>
    cases hstep
    exact trail_replaceFaceImage h faceId image
  | deleteFace c faceId =>
    cases hstep
    exact afterRequest_keeps (keeps_deleteFace (hc c) trail_deleteFace) h
  | verifyFace S c personId image =>
    cases hstep
    exact trail_verifyFace h personId image
  | searchFaces S c image topK =>
    cases hstep
    exact trail_searchFaces h image topK
  | externalSearch S c image =>
    cases hstep
    exact trail_externalSearch h image
  | bulkImport env jobId rootPath =>
    rw [step] at hstep
    split_ifs at hstep
    cases hstep
    exact trail_run jobId rootPath _ h hop

/-- **Every stored face has an audit trail** in every run whose imports store nothing. -/
theorem trail_of_guarded {ops : List Op} {w : World}
    (hguarded : Run.Guarded step ImportsNothing ⟨Database.empty, Table.empty⟩ ops)
    (hrun : Run.exec step ⟨Database.empty, Table.empty⟩ ops = some w) : Trail w.db :=
  Run.inv_of_guarded (I := fun w => Trail w.db)
    (fun _ _ _ h hop hstep => trail_step h hop hstep) trail_empty hguarded hrun

/-! ### Alice is enrolled, and imported -/

def aliceForm : PersonCreate where
  fullName := "Alice"
  fullName_length := by decide
  externalId_length := by simp
  metadata_object := by decide

def alicePhotoUpload : Upload := ⟨none, [255], none⟩

/-- Alice is created and a photo registered; then a folder is imported that is not there. -/
def enrolAlice : List Op :=
  [.createPerson ⟨0, 1, 0, 0, [], fun _ => none⟩ aliceForm,
    .registerFace RecognitionService.oneFaceService ⟨1, 2, 3, 4, [], fun _ => none⟩ 1
      alicePhotoUpload,
    .bulkImport (photosEnv (fun _ => []) 32 fun _ => none) 3 photos]

theorem guarded_enrolAlice :
    Run.Guarded step ImportsNothing ⟨Database.empty, Table.empty⟩ enrolAlice :=
  ⟨trivial, fun _ _ => ⟨trivial, fun _ _ => ⟨trivial, fun _ _ => trivial⟩⟩⟩

def aliceEnrolledWorld : World :=
  bulkImport (photosEnv (fun _ => []) 32 fun _ => none) 3 photos
    (request ⟨1, 2, 3, 4, [], fun _ => none⟩
      (fun c => registerFace RecognitionService.oneFaceService c 1 alicePhotoUpload)
      (request ⟨0, 1, 0, 0, [], fun _ => none⟩ (fun c => createPerson c aliceForm)
        ⟨Database.empty, Table.empty⟩))

theorem trail_of_guarded_enrolAlice :
    aliceEnrolledWorld.db.faces.rows.length = 1 ∧ Trail aliceEnrolledWorld.db :=
  ⟨by decide +kernel, trail_of_guarded guarded_enrolAlice rfl⟩

/-- One photo of Alice is imported: her face is stored, and the log is empty. -/
def aliceImported : World :=
  bulkImport (oneImageEnv none) 3 photos ⟨Database.empty, Table.empty⟩

theorem imported_without_trail :
    Run.exec step ⟨Database.empty, Table.empty⟩ [.bulkImport (oneImageEnv none) 3 photos] =
        some aliceImported ∧
      aliceImported.db.faces.rows.length = 1 ∧ aliceImported.db.logs.rows = [] ∧
        ¬ Trail aliceImported.db :=
  ⟨rfl, by decide +kernel, by decide +kernel, by decide +kernel⟩

end FaceRecognition.Api
