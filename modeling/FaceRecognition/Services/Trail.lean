import FaceRecognition.Services.Audit
import FaceRecognition.Services.ImportTruth

/-!
# The audit trail of faces

A face has a trail when a successful row of the log names it and its person. Every statement but the
INSERT of a face keeps the trails, and an enrolment writes the row together with the face. An import
writes rows for failed images only: the faces it commits have no trail (`trail_run_iff`).
-/

namespace FaceRecognition.Services

open Relational Recognition Db UnitOfWork Chunks

/-- A successful row of the log names the face and its person. -/
def Logged (db : Database) (f : Face) : Prop :=
  ∃ l ∈ db.logs.rows, l.success = true ∧ l.matchedFaceId = some f.id ∧ l.personId = some f.personId

def Trail (db : Database) : Prop := ∀ f ∈ db.faces.rows, Logged db f

instance (db : Database) : Decidable (Trail db) :=
  inferInstanceAs (Decidable (∀ f ∈ db.faces.rows, ∃ l ∈ db.logs.rows, _))

theorem trail_empty : Trail Database.empty := fun _ hf => (by cases hf)

theorem Logged.mono {db db' : Database} (h : ∀ l ∈ db.logs.rows, l ∈ db'.logs.rows) {f : Face}
    (hf : Logged db f) : Logged db' f := by
  obtain ⟨l, hl, hnames⟩ := hf
  exact ⟨l, h l hl, hnames⟩

theorem mem_put_log {db : Database} {l l' : RecognitionLog} (hnew : db.logs.get? l.id = none)
    (h : l' ∈ db.logs.rows) : l' ∈ (db.logs.put l).rows :=
  Table.mem_put.2 (.inr ⟨h, fun he => Table.get?_eq_none.1 hnew l' h he.symm⟩)

/-! ### Statements -/

/-- A write that leaves the log alone and no face without a trail. -/
def KeepsTrail (db : Database) : Write → Prop
  | .putFace f => Logged db f
  | .putLog _ => False
  | _ => True

theorem trail_apply {db : Database} {w : Write} (h : Trail db) (hw : KeepsTrail db w) :
    Trail (apply db w) ∧ (apply db w).logs = db.logs := by
  cases w with
  | putPerson p => exact ⟨h, rfl⟩
  | dropPerson id => exact ⟨h, rfl⟩
  | putFace f =>
    refine ⟨fun x hx => ?_, rfl⟩
    rcases Table.mem_put.1 hx with rfl | ⟨hx, -⟩
    · exact hw
    · exact h x hx
  | dropFace id => exact ⟨fun x hx => h x (Table.mem_erase.1 hx).1, rfl⟩
  | putLog l => exact hw.elim

theorem trail_applyAll {ws : List Write} {db : Database} (h : Trail db)
    (hws : ∀ w ∈ ws, KeepsTrail db w) : Trail (applyAll db ws) := by
  induction ws generalizing db with
  | nil => exact h
  | cons w ws ih =>
    obtain ⟨htrail, hlogs⟩ := trail_apply h (hws w List.mem_cons_self)
    refine ih htrail fun w' hw' => ?_
    have hold := hws w' (List.mem_cons_of_mem w hw')
    cases w' with
    | putFace f => exact Logged.mono (fun l hl => hlogs ▸ hl) hold
    | putLog l => exact hold
    | putPerson p => trivial
    | dropPerson id => trivial
    | dropFace id => trivial

theorem trail_insertPerson (p : Person) : KeptBy Trail (.insertPerson p) := by
  intro db ws h hrun
  obtain ⟨-, rfl⟩ := insertPerson_ok hrun
  exact h

theorem trail_updatePerson (id : UUID) (s : PersonSet) (now : Time) :
    KeptBy Trail (.updatePerson id s now) := by
  intro db ws h hrun
  obtain ⟨old, new, -, -, -, rfl⟩ := updatePerson_ok hrun
  refine trail_applyAll h fun w hw => ?_
  rcases List.mem_cons.1 hw with rfl | hw
  · trivial
  · rw [personsPropagateIsActive] at hw
    split_ifs at hw
    · obtain ⟨f, hf, rfl⟩ := List.mem_map.1 hw
      exact h f (List.mem_filter.1 hf).1
    · cases hw

theorem trail_deletePerson (id : UUID) : KeptBy Trail (.deletePerson id) := by
  intro db ws h hrun
  obtain rfl := Except.ok.inj hrun
  refine trail_applyAll h fun w hw => ?_
  rcases List.mem_append.1 hw with hw | hw
  · obtain ⟨f, -, rfl⟩ := List.mem_map.1 hw
    trivial
  · rw [List.mem_singleton.1 hw]
    trivial

theorem trail_deleteFace (id : UUID) : KeptBy Trail (.deleteFace id) := by
  intro db ws h hrun
  obtain rfl := Except.ok.inj hrun
  exact trail_applyAll h fun w hw => by
    rw [List.mem_singleton.1 hw]
    trivial

/-! ### Operations of the service -/

/-- The row of the log is written with the face. -/
theorem trail_wrote {s s' : Session Database} {w : Writes} (h : Trail s.work) (hw : Wrote s s' w)
    (hface : ∀ f, w.face = some f → ∃ a, Enrolled a f w.log) :
    Trail s'.work := by
  rw [hw.work]
  intro f hf
  have hold : ∀ g ∈ s.work.faces.rows, Logged (w.on s.work) g := fun g hg =>
    Logged.mono (fun l hl => mem_put_log hw.newLog hl) (h g hg)
  cases hwf : w.face with
  | none =>
    rw [Writes.on, hwf] at hf
    exact hold f hf
  | some g =>
    rw [Writes.on, hwf] at hf
    rcases Table.mem_put.1 hf with rfl | ⟨hf, -⟩
    · obtain ⟨a, ha⟩ := hface f hwf
      exact ⟨w.log, Table.mem_put.2 (.inl rfl), ha.log.success,
        ha.log.matchedFaceId.trans (congrArg some ha.faceId.symm),
        ha.log.personId.trans (congrArg some ha.personId.symm)⟩
    · exact hold f hf

/-! ### Imports -/

namespace BulkImportService

variable (env : ImportEnv)

/-- Every batch of the run enrols no image or is rolled back. -/
def StoresNothing : List Batch → Progress → Prop
  | [], _ => True
  | batch :: batches, p => (rollsBack env batch p = true ∨ (imagesTally env batch batch p).2 = 0) ∧
      (raises env batch p = false → StoresNothing batches (batchAfter env batch p))

/-- Nothing is removed from the log, and the new rows name no face. -/
def LogsFailures (db db' : Database) : Prop :=
  (∀ l ∈ db.logs.rows, l ∈ db'.logs.rows) ∧
    ∀ l ∈ db'.logs.rows, l ∈ db.logs.rows ∨ l.matchedFaceId = none

theorem LogsFailures.trans {db db' db'' : Database} (h : LogsFailures db db')
    (h' : LogsFailures db' db'') : LogsFailures db db'' := by
  refine ⟨fun l hl => h'.1 l (h.1 l hl), fun l hl => ?_⟩
  rcases h'.2 l hl with hl | hnone
  · exact h.2 l hl
  · exact .inr hnone

theorem logsFailures_of_eq {db db' : Database} (h : db'.logs = db.logs) : LogsFailures db db' := by
  refine ⟨fun l hl => ?_, fun l hl => .inl ?_⟩
  · rwa [h]
  · rwa [← h]

/-- What an image that ends without an abort does to the log. -/
def FateLogs (db : Database) : Fate → Prop
  | .enrolled q => LogsFailures db q.work
  | .rejected _ q => LogsFailures db q.work
  | .aborted _ _ _ => True

section
variable {env} {c : Context} {p q : Progress}

theorem resolve_logs {name : String} {id : UUID} (h : resolve c name p = .ok (id, q)) :
    q.work.logs = p.work.logs := by
  rw [resolve] at h
  split at h
  · cases h
    rfl
  · split at h
    · cases h
    · cases h
      rfl
    · dsimp only at h
      split at h
      · cases h
      next work hwork =>
        cases h
        obtain ⟨ws, hrun, rfl⟩ := execute_eq_ok.1 (attempt_eq_ok.1 hwork).2
        obtain ⟨-, rfl⟩ := insertPerson_ok hrun
        rfl

theorem reject_logs {db : Database} (h : p.work.logs = db.logs) (path : Path) (exc : Exc) :
    FateLogs db (reject c path exc p) := by
  rw [reject]
  cases hwork : attempt (c.fault .addLog)
      (execute c (.insertLog (newLog c (importFailure path exc))) p.work) with
  | error e => trivial
  | ok work =>
    obtain ⟨ws, hrun, rfl⟩ := execute_eq_ok.1 (attempt_eq_ok.1 hwork).2
    have hnew := insertLog_new hrun
    obtain rfl := insertLog_ok hrun
    refine LogsFailures.trans (logsFailures_of_eq h) ⟨fun l hl => mem_put_log hnew hl, fun l hl => ?_⟩
    rcases Table.mem_put.1 hl with rfl | ⟨hl, -⟩
    · exact .inr rfl
    · exact .inl hl

theorem fate_logs (name : String) (path : Path) :
    FateLogs p.work (fate env c name path p) := by
  rw [fate]
  cases analyse env path with
  | error exc => exact reject_logs rfl path exc
  | ok r =>
    dsimp only
    cases hres : resolve c name p with
    | error exc => trivial
    | ok r' =>
      obtain ⟨id, p'⟩ := r'
      have hp' := resolve_logs hres
      dsimp only
      cases env.makeFaceThumbnail r.1 r.2.detection.bbox with
      | error exc => exact reject_logs hp' path exc
      | ok thumbnail =>
        dsimp only
        cases hface : attempt (c.fault .addFace)
            (execute c (.insertFace (newFace c id path r.2 thumbnail)) p'.work) with
        | error exc => trivial
        | ok work =>
          obtain ⟨ws, hrun, rfl⟩ := execute_eq_ok.1 (attempt_eq_ok.1 hface).2
          obtain ⟨person, -, -, rfl⟩ := insertFace_ok hrun
          exact logsFailures_of_eq hp'

end

section
variable {env} {batch : Batch}

theorem imagesFate_logs (images : List Pair) (p : Progress)
    (h : (imagesFate env batch images p).1 = none) :
    LogsFailures p.work (imagesFate env batch images p).2.work := by
  induction images generalizing p with
  | nil => exact logsFailures_of_eq rfl
  | cons pair images ih =>
    obtain ⟨name, path⟩ := pair
    have hlogs := @fate_logs env (contextOf env batch path) p name path
    rw [imagesFate] at h ⊢
    cases hfate : fate env (contextOf env batch path) name path p with
    | enrolled q =>
      rw [hfate] at h hlogs
      exact LogsFailures.trans hlogs (ih q h)
    | rejected _ q =>
      rw [hfate] at h hlogs
      exact LogsFailures.trans hlogs (ih q h)
    | aborted _ _ _ =>
      rw [hfate] at h
      cases h

theorem batchAfter_logs (p : Progress) : LogsFailures p.work (batchAfter env batch p).work := by
  rw [batchAfter]
  cases h : rollsBack env batch p with
  | true => exact logsFailures_of_eq rfl
  | false =>
    rw [rollsBack, Bool.or_eq_false_iff, Option.isSome_eq_false_iff, Option.isNone_iff_eq_none] at h
    exact imagesFate_logs batch p h.1

theorem batchesAfter_logs (batches : List Batch) (p : Progress) :
    LogsFailures p.work (batchesAfter env batches p).work := by
  induction batches generalizing p with
  | nil => exact logsFailures_of_eq rfl
  | cons batch batches ih =>
    rw [batchesAfter]
    split_ifs
    · exact batchAfter_logs p
    · exact (batchAfter_logs p).trans (ih _)

theorem batchCommits_eq_zero_iff (p : Progress) : batchCommits env batch p = 0 ↔
    rollsBack env batch p = true ∨ (imagesTally env batch batch p).2 = 0 := by
  rw [batchCommits]
  cases rollsBack env batch p <;> simp

/-- The faces a run commits, which are none iff it stores nothing. -/
theorem batchesAfter_faces (batches : List Batch) (p : Progress) :
    ∃ n, Grown p.work (batchesAfter env batches p).work n ∧
      (StoresNothing env batches p ↔ n = 0) := by
  induction batches generalizing p with
  | nil => exact ⟨0, grown_of_eq rfl, iff_of_true trivial rfl⟩
  | cons batch batches ih =>
    rw [batchesAfter, StoresNothing, ← batchCommits_eq_zero_iff]
    cases raises env batch p with
    | true => exact ⟨batchCommits env batch p, batchAfter_faces p, by simp⟩
    | false =>
      obtain ⟨n, hgrown, hn⟩ := ih (batchAfter env batch p)
      refine ⟨batchCommits env batch p + n, (batchAfter_faces p).trans hgrown, ?_⟩
      simp [hn]

/-- The images of an import, by batches. -/
def importBatches (env : ImportEnv) (root : Path) : List Batch :=
  collect env.batchSize [] (importsOf env root)

theorem run_committed (jobId : UUID) (root : Path) (st : ImportState) :
    (exec (run env jobId root) st).2.session.committed =
      (batchesAfter env (importBatches env root) ⟨st.session.committed, fun _ => none⟩).work := by
  rw [importBatches, importsOf]
  obtain ⟨e, hdir, -, hst⟩ | ⟨hdir, -, hst⟩ | ⟨e, hdir, hdisc, -, hst⟩ |
    ⟨pairs, hdir, hdisc, hrun⟩ := run_cases (Prod.mk.eta (p := exec (run env jobId root) st)).symm
  · rw [hdir, hst]
    rfl
  · rw [hdir, hst]
    rfl
  · rw [hdir, hdisc, hst]
    rfl
  · have hcommitted := @importPairs_committed env jobId pairs st
    rw [hrun] at hcommitted
    rw [hdir, hdisc]
    exact hcommitted

end

section
variable {db db' : Database}

theorem trail_of_grown (h : Trail db) (hlogs : LogsFailures db db') (hgrown : Grown db db' 0) :
    Trail db' := by
  obtain ⟨new, hrows, hnew⟩ := hgrown
  rw [List.length_eq_zero_iff.1 hnew, List.append_nil] at hrows
  intro f hf
  exact Logged.mono hlogs.1 (h f (hrows ▸ hf))

/-- New faces have no trail when no row of before names them. -/
theorem trail_grown_iff {n : ℕ} (h : Trail db) (hlogs : LogsFailures db db')
    (hgrown : Grown db db' n)
    (hfresh : ∀ f ∈ committedFaces db db', ∀ l ∈ db.logs.rows, l.matchedFaceId ≠ some f.id) :
    Trail db' ↔ n = 0 := by
  constructor
  · intro htrail
    rw [← hgrown.committedFaces, List.length_eq_zero_iff, List.eq_nil_iff_forall_not_mem]
    intro f hf
    obtain ⟨l, hl, -, hface, -⟩ := htrail f (List.mem_filter.1 hf).1
    rcases hlogs.2 l hl with hold | hnone
    · exact hfresh f hf l hold hface
    · rw [hnone] at hface
      cases hface
  · rintro rfl
    exact trail_of_grown h hlogs hgrown

end

section
variable {env : ImportEnv} (jobId : UUID) (root : Path) (st : ImportState)
  (h : Trail st.session.committed)
include h

/-- An import that stores nothing keeps the trails. -/
theorem trail_run (hnothing : StoresNothing env (importBatches env root)
    ⟨st.session.committed, fun _ => none⟩) :
    Trail (exec (run env jobId root) st).2.session.committed := by
  obtain ⟨n, hgrown, hn⟩ := @batchesAfter_faces env (importBatches env root)
    ⟨st.session.committed, fun _ => none⟩
  obtain rfl := hn.1 hnothing
  rw [run_committed]
  exact trail_of_grown h (batchesAfter_logs (importBatches env root) ⟨_, _⟩) hgrown

/-- An import keeps the trails iff it stores nothing, when the ids of new faces are fresh. -/
theorem trail_run_iff (hfresh : ∀ f ∈ committedFaces st.session.committed
      (exec (run env jobId root) st).2.session.committed,
    ∀ l ∈ st.session.committed.logs.rows, l.matchedFaceId ≠ some f.id) :
    Trail (exec (run env jobId root) st).2.session.committed ↔
      StoresNothing env (importBatches env root) ⟨st.session.committed, fun _ => none⟩ := by
  obtain ⟨n, hgrown, hn⟩ := @batchesAfter_faces env (importBatches env root)
    ⟨st.session.committed, fun _ => none⟩
  rw [run_committed] at hfresh ⊢
  rw [hn]
  exact trail_grown_iff h (batchesAfter_logs (importBatches env root) ⟨_, _⟩) hgrown hfresh

end

end BulkImportService

end FaceRecognition.Services
