import FaceRecognition.Services.ImportFate

/-!
# What a completed import reports

The counters are bumped image by image, before the batch is committed, and the first failed flush
ends the batch. So a completed job tells the truth exactly when every batch does (`HonestRun`): it
commits, or it has enrolled nothing by the time it fails, and then a failing flush is that of its
last image. For every batch the images visited and enrolled are at most its length, and the faces
committed at most those enrolled; the sums over a run are equal only when all terms are.
-/

namespace FaceRecognition.Services.BulkImportService

open Relational Recognition Db UnitOfWork Chunks

variable (env : ImportEnv)

/-- The rest of a batch, where `enrolled` says whether an image before was enrolled: if the commit
fails nothing was enrolled, and a failed flush is the end of the batch and nothing was enrolled
before. -/
def HonestImages (batch : Batch) : List Pair → Progress → Bool → Prop
  | [], _, enrolled => env.commitFault batch = none ∨ enrolled = false
  | (name, path) :: images, p, enrolled =>
    match fate env (contextOf env batch path) name path p with
    | .enrolled q => HonestImages batch images q true
    | .rejected _ q => HonestImages batch images q enrolled
    | .aborted _ _ _ => enrolled = false ∧ images = []

/-- Every batch of the run, from the committed database and the cache it starts with. -/
def HonestRun : List Batch → Progress → Prop
  | [], _ => True
  | batch :: batches, p => HonestImages env batch batch p false ∧
      HonestRun batches (batchAfter env batch p)

/-- The faces that are committed after a run and were not before. -/
def committedFaces (before after : Database) : List Face :=
  after.faces.rows.filter fun f => (before.faces.get? f.id).isNone

structure TellsTruth (before after : Database) (pairs : List Pair) (job : ImportJob) : Prop where
  processed : job.processed = pairs.length
  total : job.total = pairs.length
  succeeded : job.succeeded = (committedFaces before after).length
  failed : job.failed = job.total - job.succeeded

/-! ### Faces -/

/-- The faces of `db` and `n` more. -/
def Grown (db db' : Database) (n : ℕ) : Prop :=
  ∃ new, db'.faces.rows = db.faces.rows ++ new ∧ new.length = n

theorem grown_of_eq {db db' : Database} (h : db'.faces = db.faces) : Grown db db' 0 :=
  ⟨[], by rw [h, List.append_nil], rfl⟩

theorem Grown.trans {db db' db'' : Database} {n m : ℕ} (h : Grown db db' n)
    (h' : Grown db' db'' m) : Grown db db'' (n + m) := by
  obtain ⟨new, hnew, rfl⟩ := h
  obtain ⟨new', hnew', rfl⟩ := h'
  exact ⟨new ++ new', by rw [hnew', hnew, List.append_assoc], List.length_append⟩

theorem Grown.committedFaces {db db' : Database} {n : ℕ} (h : Grown db db' n) :
    (committedFaces db db').length = n := by
  obtain ⟨new, hrows, rfl⟩ := h
  have hnodup := db'.faces.nodup
  rw [hrows, List.map_append] at hnodup
  have hold : (db.faces.rows.filter fun f => (db.faces.get? f.id).isNone) = [] := by
    rw [List.filter_eq_nil_iff]
    intro f hf
    have hget : db.faces.get? f.id = some f := Table.get?_eq_some.2 ⟨hf, rfl⟩
    simp [hget]
  have hnew : (new.filter fun f => (db.faces.get? f.id).isNone) = new := by
    rw [List.filter_eq_self]
    intro f hf
    rw [Option.isNone_iff_eq_none, Table.get?_eq_none]
    intro g hg he
    exact List.disjoint_of_nodup_append hnodup (List.mem_map_of_mem hg)
      (he ▸ List.mem_map_of_mem hf)
  rw [BulkImportService.committedFaces, hrows, List.filter_append, hold, hnew, List.nil_append]

section
variable {env} {c : Context} {p q : Progress}

theorem execute_faces {s : Statement} {db db' : Database} (h : execute c s db = .ok db')
    (hs : ∀ view ws, s.run view = .ok ws → (applyAll db ws).faces = db.faces) :
    db'.faces = db.faces := by
  obtain ⟨ws, hrun, rfl⟩ := execute_eq_ok.1 h
  exact hs _ ws hrun

theorem execute_insertFace {f : Face} {db db' : Database}
    (h : execute c (.insertFace f) db = .ok db') : Grown db db' 1 := by
  obtain ⟨ws, hrun, rfl⟩ := execute_eq_ok.1 h
  obtain ⟨person, -, hnew, rfl⟩ := insertFace_ok hrun
  exact ⟨[{ f with isActive := person.isActive }], Table.rows_put_of_new hnew, rfl⟩

theorem resolve_faces {name : String} {id : UUID} (h : resolve c name p = .ok (id, q)) :
    q.work.faces = p.work.faces := by
  rw [resolve] at h
  split at h
  · cases h
    rfl
  · split at h
    · cases h
    · cases h
      rfl
    · dsimp only at h
      split at h
      · cases h
      next work hwork =>
        cases h
        refine execute_faces (attempt_eq_ok.1 hwork).2 fun view ws hws => ?_
        obtain ⟨-, rfl⟩ := insertPerson_ok hws
        rfl

theorem reject_faces {path : Path} {exc exc' : Exc} (h : reject c path exc p = .rejected exc' q) :
    q.work.faces = p.work.faces := by
  rw [reject] at h
  split at h
  · cases h
  next work hwork =>
    cases h
    refine execute_faces (attempt_eq_ok.1 hwork).2 fun view ws hws => ?_
    obtain rfl := insertLog_ok hws
    rfl

theorem reject_ne_enrolled {path : Path} {exc : Exc} : reject c path exc p ≠ .enrolled q := by
  rw [reject]
  split <;> simp

/-- An enrolled image adds one face, a rejected one none. -/
def AddsFaces (db : Database) : Fate → Prop
  | .enrolled q => Grown db q.work 1
  | .rejected _ q => Grown db q.work 0
  | .aborted _ _ _ => True

theorem reject_addsFaces {db : Database} (h : p.work.faces = db.faces) (path : Path) (exc : Exc) :
    AddsFaces db (reject c path exc p) := by
  cases hreject : reject c path exc p with
  | enrolled q => exact absurd hreject reject_ne_enrolled
  | rejected _ q => exact grown_of_eq ((reject_faces hreject).trans h)
  | aborted _ _ _ => trivial

theorem fate_addsFaces (env : ImportEnv) (c : Context) (name : String) (path : Path)
    (p : Progress) : AddsFaces p.work (fate env c name path p) := by
  rw [fate]
  cases analyse env path with
  | error exc => exact reject_addsFaces rfl path exc
  | ok r =>
    dsimp only
    cases hres : resolve c name p with
    | error exc => trivial
    | ok r' =>
      obtain ⟨id, p'⟩ := r'
      have hp' := resolve_faces hres
      dsimp only
      cases env.makeFaceThumbnail r.1 r.2.detection.bbox with
      | error exc => exact reject_addsFaces hp' path exc
      | ok thumbnail =>
        dsimp only
        cases hface : attempt (c.fault .addFace)
            (execute c (.insertFace (newFace c id path r.2 thumbnail)) p'.work) with
        | error exc => trivial
        | ok work =>
          have h := (grown_of_eq hp').trans (execute_insertFace (attempt_eq_ok.1 hface).2)
          exact h

end

/-! ### Images visited and enrolled -/

/-- How many images of a batch the loop visits, and how many it enrols. -/
def imagesTally (batch : Batch) : List Pair → Progress → ℕ × ℕ
  | [], _ => (0, 0)
  | (name, path) :: images, p =>
    match fate env (contextOf env batch path) name path p with
    | .enrolled q => ((imagesTally batch images q).1 + 1, (imagesTally batch images q).2 + 1)
    | .rejected _ q => ((imagesTally batch images q).1 + 1, (imagesTally batch images q).2)
    | .aborted _ _ _ => (1, 0)

/-- The counters after `visited` more images, `enrolled` of them with success. -/
def bump (visited enrolled : ℕ) (counts : JobState × ℕ × ℕ × ℕ × ℕ) : JobState × ℕ × ℕ × ℕ × ℕ :=
  (counts.1, counts.2.1, counts.2.2.1 + visited, counts.2.2.2.1 + enrolled,
    counts.2.2.2.2 + (visited - enrolled))

section
variable {env} {jobId : UUID} {batch : Batch}

theorem countsOf_recorded (jobs : InProcessJobStore) (path : Path) (exc : Option Exc) :
    countsOf (recorded jobs jobId path exc) jobId =
      (countsOf jobs jobId).map (bump 1 (if exc.isNone then 1 else 0)) := by
  cases h : jobs.get? jobId with
  | none =>
    have hnone : (recorded jobs jobId path exc).get? jobId = none := by
      cases exc <;> exact InProcessJobStore.get?_update_of_none h
    rw [countsOf, hnone, countsOf, h]
    rfl
  | some job =>
    rw [countsOf, countsOf, h]
    cases exc with
    | none =>
      rw [recorded, InProcessJobStore.get?_update (fun j => j.record_jobId true none) h]
      exact congrArg some (job.record_counts true none)
    | some e =>
      rw [recorded, InProcessJobStore.get?_update (fun j => j.record_jobId false _) h]
      exact congrArg some (job.record_counts false _)

theorem imagesTally_le (images : List Pair) (p : Progress) :
    (imagesTally env batch images p).2 ≤ (imagesTally env batch images p).1 ∧
      (imagesTally env batch images p).1 ≤ images.length := by
  induction images generalizing p with
  | nil => exact ⟨le_rfl, le_rfl⟩
  | cons pair images ih =>
    obtain ⟨name, path⟩ := pair
    rw [imagesTally, List.length_cons]
    cases fate env (contextOf env batch path) name path p with
    | enrolled q => exact ⟨Nat.succ_le_succ (ih q).1, Nat.succ_le_succ (ih q).2⟩
    | rejected _ q => exact ⟨(ih q).1.trans (Nat.le_succ _), Nat.succ_le_succ (ih q).2⟩
    | aborted _ _ _ => exact ⟨Nat.zero_le _, Nat.succ_le_succ (Nat.zero_le _)⟩

theorem bump_bump {v e v' e' : ℕ} (h : e ≤ v) (h' : e' ≤ v')
    (counts : JobState × ℕ × ℕ × ℕ × ℕ) :
    bump v e (bump v' e' counts) = bump (v + v') (e + e') counts := by
  obtain ⟨state, total, processed, succeeded, failed⟩ := counts
  simp only [bump, Prod.mk.injEq, true_and]
  omega

theorem imagesJobs_counts (images : List Pair) (p : Progress) (jobs : InProcessJobStore) :
    countsOf (imagesJobs env batch jobId images p jobs) jobId = (countsOf jobs jobId).map
      (bump (imagesTally env batch images p).1 (imagesTally env batch images p).2) := by
  induction images generalizing p jobs with
  | nil => cases h : countsOf jobs jobId <;> simp [imagesJobs, imagesTally, bump, h]
  | cons pair images ih =>
    obtain ⟨name, path⟩ := pair
    rw [imagesJobs, imagesTally]
    cases fate env (contextOf env batch path) name path p with
    | enrolled q =>
      dsimp only
      rw [ih, countsOf_recorded, Option.map_map]
      congr 1
      funext counts
      exact bump_bump (imagesTally_le images q).1 le_rfl counts
    | rejected exc q =>
      dsimp only
      rw [ih, countsOf_recorded, Option.map_map]
      congr 1
      funext counts
      exact bump_bump (imagesTally_le images q).1 (Nat.zero_le 1) counts
    | aborted exc _ _ => exact countsOf_recorded jobs path (some exc)

theorem imagesFate_faces (images : List Pair) (p : Progress)
    (h : (imagesFate env batch images p).1 = none) :
    (imagesTally env batch images p).1 = images.length ∧
      Grown p.work (imagesFate env batch images p).2.work (imagesTally env batch images p).2 := by
  induction images generalizing p with
  | nil => exact ⟨rfl, grown_of_eq rfl⟩
  | cons pair images ih =>
    obtain ⟨name, path⟩ := pair
    have hfaces := fate_addsFaces env (contextOf env batch path) name path p
    rw [imagesFate] at h ⊢
    rw [imagesTally, List.length_cons]
    cases hfate : fate env (contextOf env batch path) name path p with
    | enrolled q =>
      rw [hfate] at h hfaces
      obtain ⟨hlen, hgrown⟩ := ih q h
      have hboth := Grown.trans hfaces hgrown
      rw [Nat.add_comm] at hboth
      exact ⟨congrArg (· + 1) hlen, hboth⟩
    | rejected _ q =>
      rw [hfate] at h hfaces
      obtain ⟨hlen, hgrown⟩ := ih q h
      have hboth := Grown.trans hfaces hgrown
      rw [Nat.zero_add] at hboth
      exact ⟨congrArg (· + 1) hlen, hboth⟩
    | aborted _ _ _ =>
      rw [hfate] at h
      cases h

theorem honestImages_iff (images : List Pair) (p : Progress) (enrolled : Bool) :
    HonestImages env batch images p enrolled ↔
      if (imagesFate env batch images p).1.isNone then
        env.commitFault batch = none ∨ enrolled = false ∧ (imagesTally env batch images p).2 = 0
      else enrolled = false ∧ (imagesTally env batch images p).2 = 0 ∧
        (imagesTally env batch images p).1 = images.length := by
  induction images generalizing p enrolled with
  | nil => simp [HonestImages, imagesFate, imagesTally]
  | cons pair images ih =>
    obtain ⟨name, path⟩ := pair
    rw [HonestImages, imagesFate, imagesTally, List.length_cons]
    cases fate env (contextOf env batch path) name path p with
    | enrolled q => simp [ih]
    | rejected _ q => simp [ih]
    | aborted _ _ _ => simp

/-- How many faces a batch commits. -/
def batchCommits (env : ImportEnv) (batch : Batch) (p : Progress) : ℕ :=
  if rollsBack env batch p then 0 else (imagesTally env batch batch p).2

theorem batchCommits_le (p : Progress) :
    batchCommits env batch p ≤ (imagesTally env batch batch p).2 := by
  rw [batchCommits]
  split_ifs
  · exact Nat.zero_le _
  · exact le_rfl

theorem batchAfter_faces (p : Progress) :
    Grown p.work (batchAfter env batch p).work (batchCommits env batch p) := by
  rw [batchAfter, batchCommits]
  cases h : rollsBack env batch p with
  | true => exact grown_of_eq rfl
  | false =>
    rw [rollsBack, Bool.or_eq_false_iff, Option.isSome_eq_false_iff, Option.isNone_iff_eq_none] at h
    exact (imagesFate_faces batch p h.1).2

/-- A batch is honest when it has visited all its images and commits all it has enrolled. -/
theorem honest_iff (p : Progress) : HonestImages env batch batch p false ↔
    (imagesTally env batch batch p).1 = batch.length ∧
      batchCommits env batch p = (imagesTally env batch batch p).2 := by
  rw [honestImages_iff, batchCommits, rollsBack]
  cases hfate : (imagesFate env batch batch p).1 with
  | some e => simp [eq_comm, and_comm]
  | none =>
    have hlen := (imagesFate_faces batch p hfate).1
    cases hcommit : env.commitFault batch <;> simp [hlen, eq_comm]

theorem batches_tally (batches : List Batch) (st : ImportState) {p : Progress}
    (hp : p = ⟨st.session.committed, st.personCache⟩) :
    ∃ r st' visited enrolled, exec (batches.forM (processBatch env jobId)) st = (r, st') ∧
      countsOf st'.jobs jobId = (countsOf st.jobs jobId).map (bump visited enrolled) ∧
      enrolled ≤ visited ∧
      (r = .ok () → ∃ committed, Grown st.session.committed st'.session.committed committed ∧
        visited ≤ batches.flatten.length ∧ committed ≤ enrolled ∧
        (HonestRun env batches p ↔ visited = batches.flatten.length ∧ committed = enrolled)) := by
  induction batches generalizing st p with
  | nil =>
    refine ⟨.ok (), st, 0, 0, rfl, ?_, le_rfl, fun _ => ⟨0, grown_of_eq rfl, le_rfl, le_rfl, ?_⟩⟩
    · cases countsOf st.jobs jobId <;> rfl
    · simp [HonestRun]
  | cons batch batches ih =>
    obtain ⟨r, st', hexec, hr, hcommitted, hcache, hcounts⟩ := processBatch_eq batch st hp
    have htally := @imagesTally_le env batch batch p
    rw [imagesJobs_counts] at hcounts
    have hrun : exec ((batch :: batches).forM (processBatch env jobId)) st =
        exec (processBatch env jobId batch >>= fun _ =>
          batches.forM (processBatch env jobId)) st := rfl
    cases r with
    | error e =>
      exact ⟨.error e, st', _, _, hrun.trans (exec_bind_error hexec), hcounts, htally.1,
        fun h => (by cases h)⟩
    | ok u =>
      obtain ⟨r', st'', v, n, hexec', hcounts', hle, hrest⟩ :=
        ih st' (p := batchAfter env batch p) (by rw [hcommitted, hcache])
      refine ⟨r', st'', v + (imagesTally env batch batch p).1,
        n + (imagesTally env batch batch p).2, hrun.trans ((exec_bind_ok hexec).trans hexec'),
        ?_, Nat.add_le_add hle htally.1, fun hok => ?_⟩
      · rw [hcounts', hcounts, Option.map_map]
        congr 1
        funext counts
        exact bump_bump hle htally.1 counts
      · obtain ⟨d, hgrown, hv, hd, hhonest⟩ := hrest hok
        have hfaces : Grown st.session.committed st'.session.committed
            (batchCommits env batch p) := by
          rw [hcommitted]
          exact hp ▸ batchAfter_faces p
        have hcommits := @batchCommits_le env batch p
        refine ⟨batchCommits env batch p + d, hfaces.trans hgrown, ?_, by omega, ?_⟩
        · rw [List.flatten_cons, List.length_append]
          omega
        · rw [HonestRun, honest_iff, hhonest, List.flatten_cons, List.length_append]
          omega

end

/-! ### The report of a completed run -/

section
variable {env} {jobId : UUID} {st st' : ImportState} {job : ImportJob}

/-- A root that is no directory ends the job as failed. -/
theorem job_of_missing_root (root : Path) (hnew : st.jobs.get? jobId = some job) :
    ((st.jobs.update jobId (ImportJob.addError
      ("Root path not found or not a directory: " ++ root.str))).update jobId
        (ImportJob.markFinished env.finishedAt true)).get? jobId =
      some ((job.addError ("Root path not found or not a directory: " ++ root.str)).markFinished
        env.finishedAt true) :=
  InProcessJobStore.get?_update (fun _ => rfl)
    (InProcessJobStore.get?_update (fun j => j.addError_jobId _) hnew)

/-- The run after the discovery, from a freshly created job: the job is completed only when the
loop returns, and then its counters are the sums over the batches. -/
theorem importPairs_report (pairs : List Pair) {r : Except Exc Unit}
    (hnew : st.jobs.get? jobId = some { jobId := jobId })
    (hrun : exec (importPairs env jobId pairs) st = (r, st'))
    (hjob : st'.jobs.get? jobId = some job) (hdone : job.state = .completed) :
    ∃ committed, Grown st.session.committed st'.session.committed committed ∧
      job.total = pairs.length ∧ job.failed = job.processed - job.succeeded ∧
      job.processed ≤ pairs.length ∧ committed ≤ job.succeeded ∧
      (HonestRun env (collect env.batchSize [] pairs) ⟨st.session.committed, fun _ => none⟩ ↔
        job.processed = pairs.length ∧ committed = job.succeeded) := by
  set started : ImportState := ⟨st.session, fun _ => none,
    st.jobs.update jobId (ImportJob.markRunning env.startedAt pairs.length)⟩ with hstarted
  have hstart : countsOf started.jobs jobId = some (.running, pairs.length, 0, 0, 0) := by
    have hget := InProcessJobStore.get?_update
      (f := ImportJob.markRunning env.startedAt pairs.length) (fun _ => rfl) hnew
    exact congrArg (Option.map ImportJob.counts) hget
  obtain ⟨r', st₁, v, n, hloop, hcounts, hle, hok⟩ := @batches_tally env jobId
    (collect env.batchSize [] pairs) started ⟨st.session.committed, fun _ => none⟩ rfl
  rw [hstart, Option.map_some] at hcounts
  obtain ⟨job₁, hjob₁, hcounts₁⟩ := Option.map_eq_some_iff.1 hcounts
  rw [← batchLoop_eq] at hloop
  rw [exec_importPairs] at hrun
  cases r' with
  | error e =>
    rw [exec_bind_error hloop] at hrun
    cases hrun
    obtain rfl : job₁ = job := Option.some.inj (hjob₁.symm.trans hjob)
    have hrunning : job₁.state = .running := congrArg Prod.fst hcounts₁
    rw [hrunning] at hdone
    cases hdone
  | ok u =>
    rw [exec_bind_ok hloop] at hrun
    cases hrun
    have hfinished : job = job₁.markFinished env.finishedAt false :=
      Option.some.inj (hjob.symm.trans (InProcessJobStore.get?_update (fun _ => rfl) hjob₁))
    obtain ⟨d, hgrown, hv, hd, hhonest⟩ := hok rfl
    rw [flatten_collect, List.nil_append] at hv hhonest
    simp only [ImportJob.counts, bump, Prod.mk.injEq, Nat.zero_add] at hcounts₁
    obtain ⟨-, htotal, hprocessed, hsucceeded, hfailed⟩ := hcounts₁
    rw [hfinished]
    refine ⟨d, hgrown, htotal, ?_, ?_, ?_, ?_⟩
    · exact hprocessed ▸ hsucceeded ▸ hfailed
    · exact hprocessed ▸ hv
    · exact hsucceeded ▸ hd
    · exact hprocessed ▸ hsucceeded ▸ hhonest

theorem completed_tells_truth_iff {root : Path} {r : Except Exc Unit}
    (hnew : st.jobs.get? jobId = some { jobId := jobId })
    (hrun : exec (run env jobId root) st = (r, st'))
    (hjob : st'.jobs.get? jobId = some job) (hdone : job.state = .completed) :
    ∃ pairs, discover env root = .ok pairs ∧
      (TellsTruth st.session.committed st'.session.committed pairs job ↔
        HonestRun env (collect env.batchSize [] pairs) ⟨st.session.committed, fun _ => none⟩) := by
  obtain ⟨e, -, rfl, rfl⟩ | ⟨-, rfl, rfl⟩ | ⟨e, -, -, rfl, rfl⟩ | ⟨pairs, -, hdisc, hrun⟩ :=
    run_cases hrun
  · obtain rfl := Option.some.inj (hnew.symm.trans hjob)
    cases hdone
  · obtain rfl := Option.some.inj ((job_of_missing_root root hnew).symm.trans hjob)
    cases hdone
  · obtain rfl := Option.some.inj (hnew.symm.trans hjob)
    cases hdone
  · obtain ⟨d, hgrown, htotal, hfailed, hle, hd, hhonest⟩ :=
      importPairs_report pairs hnew hrun hjob hdone
    refine ⟨pairs, hdisc, ?_⟩
    rw [hhonest]
    constructor
    · rintro ⟨hprocessed, -, hsucceeded, -⟩
      rw [hgrown.committedFaces] at hsucceeded
      exact ⟨hprocessed, hsucceeded.symm⟩
    · rintro ⟨hprocessed, hsucceeded⟩
      refine ⟨hprocessed, htotal, ?_, ?_⟩
      · rw [hgrown.committedFaces, hsucceeded]
      · rw [hfailed, hprocessed, htotal]

end

/-! ### One folder with one image -/

/-- The commit of the only batch fails or not. -/
def oneImageEnv (commitFault : Option Exc) : ImportEnv :=
  photosEnv (fun p => if p = photos then [alicePhotos] else if p = alicePhotos then [alicePhoto]
    else []) 32 fun _ => commitFault

def afterRun (commitFault : Option Exc) : ImportState :=
  (exec (run (oneImageEnv commitFault) 3 photos) freshJob).2

theorem completed_after_failed_commit :
    discover (oneImageEnv (some connectionLost)) photos = .ok [("Alice", alicePhoto)] ∧
      ∃ job, (afterRun (some connectionLost)).jobs.get? 3 = some job ∧ job.state = .completed ∧
        job.succeeded = 1 ∧ committedFaces Database.empty
          (afterRun (some connectionLost)).session.committed = [] ∧
        ¬ TellsTruth Database.empty (afterRun (some connectionLost)).session.committed
          [("Alice", alicePhoto)] job := by
  have hjob : (afterRun (some connectionLost)).jobs.get? 3 =
      some ⟨3, .completed, 1, 1, 1, 0, ["Batch failed: connection lost"], some 0, some 1⟩ := by
    decide +kernel
  have hnone : (committedFaces Database.empty
      (afterRun (some connectionLost)).session.committed).length = 0 := by
    decide +kernel
  refine ⟨rfl, _, hjob, rfl, rfl, List.length_eq_zero_iff.1 hnone, fun h => ?_⟩
  have hsucceeded := h.succeeded
  rw [hnone] at hsucceeded
  cases hsucceeded

theorem completed_after_commit :
    ∃ pairs, discover (oneImageEnv none) photos = .ok pairs ∧
      (TellsTruth Database.empty (afterRun none).session.committed pairs
        ⟨3, .completed, 1, 1, 1, 0, [], some 0, some 1⟩ ↔
        HonestRun (oneImageEnv none) (collect 32 [] pairs) ⟨Database.empty, fun _ => none⟩) := by
  have hjob : (afterRun none).jobs.get? 3 =
      some ⟨3, .completed, 1, 1, 1, 0, [], some 0, some 1⟩ := by
    decide +kernel
  have hnew : freshJob.jobs.get? 3 = some { jobId := 3 } := by decide +kernel
  exact completed_tells_truth_iff hnew rfl hjob rfl

end FaceRecognition.Services.BulkImportService
