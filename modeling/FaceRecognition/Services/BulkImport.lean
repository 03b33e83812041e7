import FaceRecognition.Lib.Fallible
import FaceRecognition.Services.JobStore
import FaceRecognition.Services.Recognition

/-!
# BulkImportService

`run` walks a folder tree and enrols every image, a batch of `IMPORT_BATCH_SIZE` images per
transaction. What the code gets from outside is an `ImportEnv`: the file system, the pipeline, and
for every image the fresh ids, the rows other clients have committed so far and the database calls
that fail. When nobody else writes, a run keeps what its statements keep (`keeps_run`).
-/

namespace FaceRecognition.Services

open Relational Recognition Db UnitOfWork

/-- An absolute path, by its parts. -/
structure Path where
  parts : List String
  deriving DecidableEq, Repr

namespace Path

def str (p : Path) : String := "/" ++ "/".intercalate p.parts

def name (p : Path) : String := p.parts.getLast?.getD ""

/-- The part of the name from its last dot on, when there is something on both sides of it. -/
def suffix (p : Path) : String :=
  let reversed := p.name.toList.reverse
  let ext := reversed.takeWhile (· ≠ '.')
  if ext ≠ [] ∧ ext.length + 1 < reversed.length then "." ++ String.ofList ext.reverse else ""

end Path

/-- A discovered image: the person's name and the file. -/
abbrev Pair := String × Path

abbrev Batch := List Pair

abbrev PersonCache := String → Option UUID

structure ImportEnv where
  isDir : Path → Except Exc Bool
  iterdir : Path → Except Exc (List Path)
  /-- `cv2.imdecode(np.fromfile(path))` -/
  readImage : Path → Except Exc (Option Image)
  pipeline : Pipeline
  makeFaceThumbnail : Image → BBox → Except Exc (Option Bytes)
  /-- `IMPORT_BATCH_SIZE` -/
  batchSize : ℤ
  /-- ids, rows of other clients and failing calls while an image is processed -/
  imageContext : Path → Context
  /-- `now()` of the transaction of a batch -/
  batchTime : Batch → Time
  commitFault : Batch → Option Exc
  rollbackFault : Batch → Option Exc
  /-- leaving `async with AsyncSessionFactory()` -/
  closeFault : Batch → Option Exc
  startedAt : Time
  finishedAt : Time

structure ImportState where
  session : Session Database
  personCache : PersonCache
  jobs : InProcessJobStore

abbrev ImportM := Action Exc ImportState

def onSession {α : Type} (m : SessionM α) : ImportM α := fun st =>
  let (r, s) := exec m st.session
  (r, { st with session := s })

def onJob (jobId : UUID) (f : ImportJob → ImportJob) : ImportM Unit := fun st =>
  (.ok (), { st with jobs := st.jobs.update jobId f })

namespace BulkImportService

/-! ### Discovery -/

/-- `_IMAGE_SUFFIXES` -/
def imageSuffixes : List String := [".jpg", ".jpeg", ".png", ".bmp", ".webp"]

/-- `sorted` on paths -/
def sortedPaths (ps : List Path) : List Path := ps.insertionSort fun p q => ¬ q.parts < p.parts

def discover (env : ImportEnv) (root : Path) : Except Exc (List Pair) := do
  let entries ← env.iterdir root
  let dirs ← entries.filterM env.isDir
  let perDir ← (sortedPaths dirs).mapM fun personDir => do
    let files ← env.iterdir personDir
    return ((sortedPaths files).filter fun img => lower img.suffix ∈ imageSuffixes).map
      fun img => (personDir.name, img)
  return perDir.flatten

theorem mem_sortedPaths {p : Path} {ps : List Path} : p ∈ sortedPaths ps ↔ p ∈ ps :=
  List.mem_insertionSort _

/-- The images of the folders of the root, each with the name of its folder. -/
theorem mem_discover {env : ImportEnv} {root : Path} {entries : List Path} {pairs : List Pair}
    (hentries : env.iterdir root = .ok entries) (h : discover env root = .ok pairs) {pair : Pair} :
    pair ∈ pairs ↔ ∃ personDir ∈ entries, env.isDir personDir = .ok true ∧
      ∃ files, env.iterdir personDir = .ok files ∧ pair.2 ∈ files ∧
        lower pair.2.suffix ∈ imageSuffixes ∧ personDir.name = pair.1 := by
  rw [discover, hentries, Fallible.ok_bind, Fallible.bind_eq_ok] at h
  obtain ⟨dirs, hdirs, h⟩ := h
  obtain ⟨perDir, hperDir, h⟩ := Fallible.bind_eq_ok.1 h
  obtain rfl := Except.ok.inj h
  simp only [List.mem_flatten, Fallible.mem_of_mapM hperDir, mem_sortedPaths,
    Fallible.mem_of_filterM hdirs, Fallible.bind_eq_ok]
  constructor
  · rintro ⟨images, ⟨personDir, ⟨hentry, hdir⟩, files, hfiles, himages⟩, hpair⟩
    obtain rfl := Except.ok.inj himages
    obtain ⟨img, himg, rfl⟩ := List.mem_map.1 hpair
    obtain ⟨hmem, hsuffix⟩ := List.mem_filter.1 himg
    exact ⟨personDir, hentry, hdir, files, hfiles, mem_sortedPaths.1 hmem,
      of_decide_eq_true hsuffix, rfl⟩
  · rintro ⟨personDir, hentry, hdir, files, hfiles, hmem, hsuffix, hname⟩
    refine ⟨_, ⟨personDir, ⟨hentry, hdir⟩, files, hfiles, rfl⟩, List.mem_map.2 ⟨pair.2, ?_, ?_⟩⟩
    · exact List.mem_filter.2 ⟨mem_sortedPaths.2 hmem, decide_eq_true hsuffix⟩
    · rw [hname]

/-- The discovery raises unless the root can be listed, each entry can be asked whether it is a
folder, and the folders can be listed. -/
theorem discover_returns_iff {env : ImportEnv} {root : Path} :
    (∃ pairs, discover env root = .ok pairs) ↔
      ∃ entries, env.iterdir root = .ok entries ∧ ∀ p ∈ entries, env.isDir p = .ok false ∨
        (env.isDir p = .ok true ∧ ∃ files, env.iterdir p = .ok files) := by
  constructor
  · rintro ⟨pairs, h⟩
    rw [discover, Fallible.bind_eq_ok] at h
    obtain ⟨entries, hentries, h⟩ := h
    obtain ⟨dirs, hdirs, h⟩ := Fallible.bind_eq_ok.1 h
    obtain ⟨perDir, hperDir, -⟩ := Fallible.bind_eq_ok.1 h
    refine ⟨entries, hentries, fun p hp => ?_⟩
    obtain ⟨isDir, hisDir⟩ := Fallible.returns_of_filterM hdirs p hp
    cases isDir with
    | false => exact .inl hisDir
    | true =>
      have hmem := mem_sortedPaths.2 ((Fallible.mem_of_filterM hdirs).2 ⟨hp, hisDir⟩)
      obtain ⟨images, himages⟩ := Fallible.returns_of_mapM hperDir p hmem
      obtain ⟨files, hfiles, -⟩ := Fallible.bind_eq_ok.1 himages
      exact .inr ⟨hisDir, files, hfiles⟩
  · rintro ⟨entries, hentries, h⟩
    obtain ⟨dirs, hdirs⟩ := Fallible.filterM_returns fun p hp =>
      (h p hp).elim (fun hfile => ⟨false, hfile⟩) fun hdir => ⟨true, hdir.1⟩
    have hlisted : ∀ p ∈ sortedPaths dirs, ∃ files, env.iterdir p = .ok files := fun p hp => by
      obtain ⟨hp, hdir⟩ := (Fallible.mem_of_filterM hdirs).1 (mem_sortedPaths.1 hp)
      rcases h p hp with hfile | ⟨-, hfiles⟩
      · cases hdir.symm.trans hfile
      · exact hfiles
    obtain ⟨perDir, hperDir⟩ := Fallible.mapM_returns (l := sortedPaths dirs)
      (f := fun personDir => do
        let files ← env.iterdir personDir
        return ((sortedPaths files).filter fun img => lower img.suffix ∈ imageSuffixes).map
          fun img => (personDir.name, img)) fun p hp => by
        obtain ⟨files, hfiles⟩ := hlisted p hp
        exact ⟨_, by rw [hfiles]; rfl⟩
    refine ⟨perDir.flatten, ?_⟩
    rw [discover, hentries, Fallible.ok_bind, hdirs, Fallible.ok_bind, hperDir]
    rfl

/-! ### One image -/

/-- Reading, decoding, detection and embedding. -/
def analyse (env : ImportEnv) (imgPath : Path) : Except Exc (Image × FaceResult) := do
  match ← env.readImage imgPath with
  | none => .error ⟨.valueError, "could not decode image", []⟩
  | some image =>
    let result ← env.pipeline.processLargest image
    return (image, result)

/-- The id of the person, from the cache, from the table or of a new row. -/
def resolvePerson (c : Context) (personName : String) : ImportM UUID := do
  match (← get).personCache personName with
  | some personId => return personId
  | none =>
    let existing ← match ← onSession (PersonRepository.getByName c personName) with
      | some person => pure person
      | none =>
        onSession (PersonRepository.add c
          (PersonRepository.newPerson c personName none .emptyObject))
    modify fun st =>
      { st with personCache := Function.update st.personCache personName (some existing.id) }
    return existing.id

def newFace (c : Context) (personId : UUID) (imgPath : Path) (result : FaceResult)
    (thumbnail : Option Bytes) : Face :=
  RecognitionService.newFace c personId result (some imgPath.str) none thumbnail

def importFailure (imgPath : Path) (exc : Exc) : LogFields where
  action := .import
  success := false
  message := some (truncate 512 (imgPath.name ++ ": " ++ exc.message))

/-- The handler of `processOne`. -/
def recordFailure (c : Context) (jobId : UUID) (imgPath : Path) (exc : Exc) : ImportM Unit := do
  onJob jobId (ImportJob.record false (some (imgPath.str ++ ": " ++ exc.message)))
  onSession (RecognitionLogRepository.record c (importFailure imgPath exc))

def processOne (env : ImportEnv) (c : Context) (jobId : UUID) (personName : String)
    (imgPath : Path) : ImportM Unit :=
  tryCatch
    (do
      let (image, result) ← lift (analyse env imgPath)
      let personId ← resolvePerson c personName
      let thumbnail ← lift (env.makeFaceThumbnail image result.detection.bbox)
      let _ ← onSession (FaceRepository.add c (newFace c personId imgPath result thumbnail))
      onJob jobId (ImportJob.record true none))
    (recordFailure c jobId imgPath)

/-! ### Batches -/

def contextOf (env : ImportEnv) (batch : Batch) (imgPath : Path) : Context :=
  { env.imageContext imgPath with now := env.batchTime batch }

/-- The body of the `try` in `processBatch`. -/
def batchBody (env : ImportEnv) (jobId : UUID) (batch : Batch) : ImportM Unit := do
  batch.forM fun pair => processOne env (contextOf env batch pair.2) jobId pair.1 pair.2
  onSession (commit pendingRollback (env.commitFault batch))

/-- The handler of `processBatch`. -/
def abandonBatch (env : ImportEnv) (jobId : UUID) (batch : Batch) (exc : Exc) : ImportM Unit := do
  onSession (rollback (env.rollbackFault batch))
  onJob jobId (ImportJob.addError ("Batch failed: " ++ exc.message))

def processBatch (env : ImportEnv) (jobId : UUID) (batch : Batch) : ImportM Unit := do
  modify fun st => { st with session := Session.begin st.session.committed }
  tryCatch (batchBody env jobId batch) (abandonBatch env jobId batch)
  lift (match env.closeFault batch with
    | some exc => .error exc
    | none => .ok ())

/-- The loop of `run` over the pairs, with the batch collected so far. -/
def batchLoop (env : ImportEnv) (jobId : UUID) (batch : Batch) : List Pair → ImportM Unit
  | [] => if batch = [] then pure () else processBatch env jobId batch
  | pair :: pairs => do
    let batch := batch ++ [pair]
    if env.batchSize ≤ batch.length then
      processBatch env jobId batch
      batchLoop env jobId [] pairs
    else batchLoop env jobId batch pairs

/-- `run` after the discovery. -/
def importPairs (env : ImportEnv) (jobId : UUID) (pairs : List Pair) : ImportM Unit := do
  onJob jobId (ImportJob.markRunning env.startedAt pairs.length)
  modify fun st => { st with personCache := fun _ => none }
  batchLoop env jobId [] pairs
  onJob jobId (ImportJob.markFinished env.finishedAt false)

def run (env : ImportEnv) (jobId : UUID) (root : Path) : ImportM Unit := do
  if ← lift (env.isDir root) then
    let pairs ← lift (discover env root)
    importPairs env jobId pairs
  else
    onJob jobId (ImportJob.addError ("Root path not found or not a directory: " ++ root.str))
    onJob jobId (ImportJob.markFinished env.finishedAt true)

/-! ### An import keeps what its statements do -/

/-- The images an import visits; none when the folder cannot be read. -/
def importsOf (env : ImportEnv) (root : Path) : List Pair :=
  match env.isDir root with
  | .ok true => (discover env root).toOption.getD []
  | _ => []

theorem exec_run_of_isDir {env : ImportEnv} {root : Path} (hdir : env.isDir root = .ok true)
    (jobId : UUID) (st : ImportState) :
    exec (run env jobId root) st =
      exec (lift (discover env root) >>= importPairs env jobId) st := by
  rw [run, exec_bind_ok (by rw [exec_lift, hdir])]
  rfl

/-- What a run does: it raises before the job is running, it fails the job of a missing root, or it
imports what it has discovered. -/
theorem run_cases {env : ImportEnv} {jobId : UUID} {root : Path} {st st' : ImportState}
    {r : Except Exc Unit} (h : exec (run env jobId root) st = (r, st')) :
    (∃ e, env.isDir root = .error e ∧ r = .error e ∧ st' = st) ∨
    (env.isDir root = .ok false ∧ r = .ok () ∧ st' = { st with
      jobs := (st.jobs.update jobId (ImportJob.addError
        ("Root path not found or not a directory: " ++ root.str))).update jobId
          (ImportJob.markFinished env.finishedAt true) }) ∨
    (∃ e, env.isDir root = .ok true ∧ discover env root = .error e ∧ r = .error e ∧ st' = st) ∨
    (∃ pairs, env.isDir root = .ok true ∧ discover env root = .ok pairs ∧
      exec (importPairs env jobId pairs) st = (r, st')) := by
  cases hdir : env.isDir root with
  | error e =>
    rw [run, exec_bind_error (by rw [exec_lift, hdir])] at h
    cases h
    exact .inl ⟨e, rfl, rfl, rfl⟩
  | ok isDir =>
    cases isDir with
    | false =>
      rw [run, exec_bind_ok (by rw [exec_lift, hdir])] at h
      cases h
      exact .inr (.inl ⟨rfl, rfl, rfl⟩)
    | true =>
      rw [exec_run_of_isDir hdir] at h
      cases hdisc : discover env root with
      | error e =>
        rw [hdisc, exec_bind_error (by rw [exec_lift])] at h
        cases h
        exact .inr (.inr (.inl ⟨e, rfl, rfl, rfl, rfl⟩))
      | ok pairs =>
        rw [hdisc, exec_bind_ok (by rw [exec_lift])] at h
        exact .inr (.inr (.inr ⟨pairs, rfl, rfl, h⟩))

/-- The embedding of the face of an image. -/
def ImportedAs (env : ImportEnv) (imgPath : Path) (embedding : Embedding) : Prop :=
  ∃ image result, analyse env imgPath = .ok (image, result) ∧ result.embedding = embedding

/-- The row that an import writes for an image. -/
structure Failure (l : RecognitionLog) : Prop where
  action : l.action = .import
  success : l.success = false
  userId : l.userId = none

/-- The statements of an import of the pairs lead from `I` to `I`. -/
structure KeptByImport (I : Database → Prop) (env : ImportEnv) (pairs : List Pair) : Prop where
  person : ∀ pair ∈ pairs, ∀ c,
    KeptBy I (.insertPerson (PersonRepository.newPerson c pair.1 none .emptyObject))
  face : ∀ pair ∈ pairs, ∀ f, ImportedAs env pair.2 f.embedding → KeptBy I (.insertFace f)
  log : ∀ l, Failure l → KeptBy I (.insertLog l)

/-- A visited image has the name of a listed folder. -/
theorem name_of_importsOf {env : ImportEnv} {root : Path} {pair : Pair}
    (h : pair ∈ importsOf env root) :
    ∃ entries, env.iterdir root = .ok entries ∧ ∃ personDir ∈ entries, personDir.name = pair.1 := by
  rw [importsOf] at h
  split at h
  · cases hdiscover : discover env root with
    | error e =>
      rw [hdiscover] at h
      cases h
    | ok pairs =>
      rw [hdiscover] at h
      have hread := hdiscover
      rw [discover, Fallible.bind_eq_ok] at hread
      obtain ⟨entries, hentries, -⟩ := hread
      obtain ⟨personDir, hentry, -, -, -, -, -, hname⟩ := (mem_discover hentries hdiscover).1 h
      exact ⟨entries, hentries, personDir, hentry, hname⟩
  · cases h

theorem KeptByImport.subset {I : Database → Prop} {env : ImportEnv} {pairs pairs' : List Pair}
    (h : KeptByImport I env pairs) (hsub : pairs' ⊆ pairs) : KeptByImport I env pairs' :=
  ⟨fun pair hpair => h.person pair (hsub hpair), fun pair hpair => h.face pair (hsub hpair), h.log⟩

/-- Both databases of the session satisfy `I`. -/
def BothOf (I : Database → Prop) (st : ImportState) : Prop := Both I st.session

section
variable {I : Database → Prop} {env : ImportEnv} {c : Context}

theorem keeps_onSession {α : Type} {m : SessionM α} (h : Keeps (Both I) m) :
    Keeps (BothOf I) (onSession m) :=
  fun st hst => h st.session hst

theorem keeps_onJob (jobId : UUID) (f : ImportJob → ImportJob) :
    Keeps (BothOf I) (onJob jobId f) :=
  fun _ hst => hst

theorem keeps_cache (f : ImportState → PersonCache) :
    Keeps (BothOf I) (modify fun st => { st with personCache := f st } : ImportM Unit) :=
  fun _ hst => hst

theorem keeps_newSession :
    Keeps (BothOf I) (modify fun st =>
      { st with session := Session.begin st.session.committed } : ImportM Unit) :=
  fun _ hst => both_begin hst.1

theorem keeps_getState : Keeps (BothOf I) (get : ImportM ImportState) :=
  fun _ hst => hst

theorem keeps_resolvePerson (hc : c.others = []) {personName : String}
    (hI : KeptBy I (.insertPerson (PersonRepository.newPerson c personName none .emptyObject))) :
    Keeps (BothOf I) (resolvePerson c personName) := by
  refine keeps_bind keeps_getState fun st => ?_
  cases st.personCache personName with
  | some personId => exact keeps_pure _
  | none =>
    have hremember : ∀ existing : Person, Keeps (BothOf I) (do
        modify fun st => { st with
          personCache := Function.update st.personCache personName (some existing.id) }
        return existing.id : ImportM UUID) :=
      fun existing => keeps_bind (keeps_cache _) fun _ => keeps_pure _
    refine keeps_bind (keeps_onSession keeps_select) fun found => ?_
    cases found with
    | some person => exact keeps_bind (keeps_pure person) hremember
    | none =>
      refine keeps_bind (keeps_onSession ?_) hremember
      exact PersonRepository.keeps_add hc hI

theorem keeps_processOne (hc : c.others = []) (jobId : UUID) {pair : Pair}
    (h : KeptByImport I env [pair]) : Keeps (BothOf I) (processOne env c jobId pair.1 pair.2) := by
  refine keeps_tryCatch ?_ fun exc =>
    keeps_bind (keeps_onJob jobId _) fun _ =>
      keeps_onSession (keeps_keptBy hc (h.log _ ⟨rfl, rfl, rfl⟩))
  refine keeps_lift_bind fun r hr => keeps_bind
    (keeps_resolvePerson hc (h.person pair List.mem_cons_self c)) fun personId =>
      keeps_bind (keeps_lift _) fun thumbnail => keeps_bind ?_ fun face => keeps_onJob jobId _
  exact keeps_onSession (FaceRepository.keeps_add hc
    (h.face pair List.mem_cons_self _ ⟨r.1, r.2, hr, rfl⟩))

section
variable (henv : ∀ path, (env.imageContext path).others = [])
include henv

theorem keeps_processBatch (jobId : UUID) {batch : Batch} (h : KeptByImport I env batch) :
    Keeps (BothOf I) (processBatch env jobId batch) := by
  refine keeps_bind keeps_newSession fun _ => keeps_bind (keeps_tryCatch ?_ fun exc => ?_)
    fun _ => keeps_lift _
  · refine keeps_bind (keeps_forM fun pair hpair => ?_) fun _ => keeps_onSession keeps_commit
    have hc : (contextOf env batch pair.2).others = [] := henv pair.2
    exact keeps_processOne hc jobId (h.subset (by simpa using hpair))
  · exact keeps_bind (keeps_onSession keeps_rollback) fun _ => keeps_onJob jobId _

theorem keeps_batchLoop (jobId : UUID) {batch : Batch} {pairs : List Pair}
    (h : KeptByImport I env (batch ++ pairs)) :
    Keeps (BothOf I) (batchLoop env jobId batch pairs) := by
  induction pairs generalizing batch with
  | nil =>
    rw [batchLoop]
    split_ifs
    · exact keeps_pure _
    · exact keeps_processBatch henv jobId (h.subset (by simp))
  | cons pair pairs ih =>
    rw [List.append_cons] at h
    rw [batchLoop]
    split_ifs
    · exact keeps_bind (keeps_processBatch henv jobId (h.subset (List.subset_append_left _ _)))
        fun _ => ih (h.subset (List.subset_append_right _ _))
    · exact ih h

theorem keeps_run (jobId : UUID) {root : Path} (h : KeptByImport I env (importsOf env root)) :
    Keeps (BothOf I) (run env jobId root) := by
  refine keeps_lift_bind fun isDir hdir => ?_
  cases isDir with
  | true =>
    rw [if_pos rfl]
    refine keeps_lift_bind fun pairs hpairs => keeps_bind (keeps_onJob jobId _) fun _ =>
      keeps_bind (keeps_cache _) fun _ => keeps_bind (keeps_batchLoop henv jobId ?_)
        fun _ => keeps_onJob jobId _
    rwa [importsOf, hdir, hpairs] at h
  | false => exact keeps_bind (keeps_onJob jobId _) fun _ => keeps_onJob jobId _

end
end

/-! ### Folders of photos -/

def photos : Path := ⟨["photos"]⟩

def alicePhotos : Path := ⟨["photos", "Alice"]⟩

def alicePhoto : Path := ⟨["photos", "Alice", "1.jpg"]⟩

def connectionLost : Exc := ⟨.operationalError, "connection lost", []⟩

/-- Every image shows one face; a commit can fail. -/
def photosEnv (folder : Path → List Path) (batchSize : ℤ) (commitFault : Batch → Option Exc) :
    ImportEnv where
  isDir p := .ok (folder p ≠ [])
  iterdir p := .ok (folder p)
  readImage _ := .ok (some ⟨100, 100, []⟩)
  pipeline := RecognitionService.oneFacePipeline
  makeFaceThumbnail _ _ := .ok none
  batchSize := batchSize
  imageContext p := if p = alicePhoto then ⟨0, 1, 1, 1, [], fun _ => none⟩
    else ⟨0, 2, 2, 2, [], fun _ => none⟩
  batchTime _ := 0
  commitFault := commitFault
  rollbackFault _ := none
  closeFault _ := none
  startedAt := 0
  finishedAt := 1

def freshJob : ImportState :=
  ⟨Session.begin Database.empty, fun _ => none, InProcessJobStore.create Table.empty 3⟩

end BulkImportService

end FaceRecognition.Services
