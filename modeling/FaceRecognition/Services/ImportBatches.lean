import Mathlib.Data.List.Forall2
import FaceRecognition.Services.ImportFate

/-!
# The batch size does not matter

When no call to the database fails, every batch commits, and the batches do together what their
images do one after the other. `Imported` says what that is, without batches and without a cache:
the rows of the accepted images, the log rows of the refused ones, and a person for each new name.
Two runs on the same inputs differ in fresh ids and timestamps only (`batch_size_irrelevant`).
-/

namespace FaceRecognition.Services.BulkImportService

open Relational Recognition Db UnitOfWork Chunks

/-! ### Rows that are added -/

section adds
variable {α ρ : Type} {R R' : α → ρ → Prop} {xs ys : List α} {l l' l'' : List ρ}

/-- A row is added for each item, in their order. -/
def Adds (R : α → ρ → Prop) (items : List α) (before after : List ρ) : Prop :=
  ∃ new, after = before ++ new ∧ List.Forall₂ R items new

theorem Adds.nil (R : α → ρ → Prop) (l : List ρ) : Adds R [] l l :=
  ⟨[], (List.append_nil l).symm, .nil⟩

theorem Adds.single {a : α} {r : ρ} (h : R a r) (l : List ρ) : Adds R [a] l (l ++ [r]) :=
  ⟨[r], rfl, .cons h .nil⟩

theorem Adds.append (h : Adds R xs l l') (h' : Adds R ys l' l'') : Adds R (xs ++ ys) l l'' := by
  obtain ⟨new, rfl, hnew⟩ := h
  obtain ⟨new', rfl, hnew'⟩ := h'
  exact ⟨new ++ new', List.append_assoc _ _ _, List.rel_append hnew hnew'⟩

theorem Adds.imp (h : Adds R xs l l') (hR : ∀ a r, R a r → R' a r) : Adds R' xs l l' := by
  obtain ⟨new, rfl, hnew⟩ := h
  exact ⟨new, rfl, hnew.imp hR⟩

end adds

/-! ### What an import adds -/

/-- The person that a name resolves to. -/
def firstNamed (db : Database) (name : String) : Option Person :=
  db.persons.rows.find? fun q => q.fullName = name

def personNamesOf (db : Database) : List String := db.persons.rows.map Person.fullName

/-- What an image shows and its thumbnail, or why it is refused. -/
def verdict (env : ImportEnv) (path : Path) : Except Exc (FaceResult × Option Bytes) := do
  let (image, result) ← analyse env path
  let thumbnail ← env.makeFaceThumbnail image result.detection.bbox
  return (result, thumbnail)

theorem verdict_of_error {env : ImportEnv} {path : Path} {exc : Exc}
    (h : analyse env path = .error exc) : verdict env path = .error exc := by
  rw [verdict, h]
  rfl

theorem verdict_of_ok {env : ImportEnv} {path : Path} {image : Image} {result : FaceResult}
    (h : analyse env path = .ok (image, result)) : verdict env path =
      (env.makeFaceThumbnail image result.detection.bbox).map fun thumbnail =>
        (result, thumbnail) := by
  rw [verdict, h]
  rfl

def accepted (env : ImportEnv) (pair : Pair) : Option (Pair × FaceResult × Option Bytes) :=
  match verdict env pair.2 with
  | .ok shown => some (pair, shown)
  | .error _ => none

def refused (env : ImportEnv) (pair : Pair) : Option (Path × Exc) :=
  match verdict env pair.2 with
  | .ok _ => none
  | .error exc => some (pair.2, exc)

/-- The names of the images with a face that are not `known`, each once. -/
def newNames (env : ImportEnv) (known : List String) : List Pair → List String
  | [] => []
  | (name, path) :: pairs =>
    if (analyse env path).isOk ∧ name ∉ known then name :: newNames env (known ++ [name]) pairs
    else newNames env known pairs

def PersonOf (name : String) (q : Person) : Prop :=
  ∃ c, q = PersonRepository.newPerson c name none .emptyObject

/-- The face belongs to the person that the name resolves to. -/
def FaceOf (db : Database) (image : Pair × FaceResult × Option Bytes) (f : Face) : Prop :=
  ∃ c q, firstNamed db image.1.1 = some q ∧
    f = { newFace c q.id image.1.2 image.2.1 image.2.2 with isActive := q.isActive }

def LogOf (image : Path × Exc) (l : RecognitionLog) : Prop :=
  ∃ c, l = newLog c (importFailure image.1 image.2)

/-- Each pair is imported once, in order. -/
structure Imported (env : ImportEnv) (pairs : List Pair) (before after : Database) : Prop where
  persons : Adds PersonOf (newNames env (personNamesOf before) pairs) before.persons.rows
    after.persons.rows
  faces : Adds (FaceOf after) (pairs.filterMap (accepted env)) before.faces.rows after.faces.rows
  logs : Adds LogOf (pairs.filterMap (refused env)) before.logs.rows after.logs.rows

section imported
variable {env : ImportEnv} {db db' db'' : Database} {pairs pairs' : List Pair}

theorem newNames_append (known : List String) (pairs pairs' : List Pair) :
    newNames env known (pairs ++ pairs') =
      newNames env known pairs ++ newNames env (known ++ newNames env known pairs) pairs' := by
  induction pairs generalizing known with
  | nil => simp [newNames]
  | cons pair pairs ih =>
    obtain ⟨name, path⟩ := pair
    rw [List.cons_append, newNames, newNames]
    split_ifs
    · rw [ih, List.cons_append, List.append_assoc]
      rfl
    · exact ih known

theorem fullNames_of_personOf {names : List String} {new : List Person}
    (h : List.Forall₂ PersonOf names new) : new.map Person.fullName = names := by
  induction h with
  | nil => rfl
  | cons hq _ ih =>
    obtain ⟨c, rfl⟩ := hq
    exact congrArg _ ih

theorem Adds.personNames {names : List String}
    (h : Adds PersonOf names db.persons.rows db'.persons.rows) :
    personNamesOf db' = personNamesOf db ++ names := by
  obtain ⟨new, hrows, hnew⟩ := h
  rw [personNamesOf, hrows, List.map_append, fullNames_of_personOf hnew]
  rfl

theorem firstNamed_mono {R : String → Person → Prop} {names : List String}
    (h : Adds R names db.persons.rows db'.persons.rows) {name : String} {q : Person}
    (hq : firstNamed db name = some q) : firstNamed db' name = some q := by
  obtain ⟨new, hrows, -⟩ := h
  rw [firstNamed, hrows, List.find?_append]
  rw [firstNamed] at hq
  rw [hq]
  rfl

theorem Imported.refl (env : ImportEnv) (db : Database) : Imported env [] db db :=
  ⟨.nil _ _, .nil _ _, .nil _ _⟩

theorem Imported.trans (h : Imported env pairs db db') (h' : Imported env pairs' db' db'') :
    Imported env (pairs ++ pairs') db db'' where
  persons := by
    have hpersons := h'.persons
    rw [h.persons.personNames] at hpersons
    rw [newNames_append]
    exact h.persons.append hpersons
  faces := by
    rw [List.filterMap_append]
    refine Adds.append (h.faces.imp ?_) h'.faces
    rintro image f ⟨c, q, hq, hf⟩
    exact ⟨c, q, firstNamed_mono h'.persons hq, hf⟩
  logs := by
    rw [List.filterMap_append]
    exact h.logs.append h'.logs

end imported

/-! ### One image -/

/-- A cached id is that of the person the name resolves to. -/
def Faithful (p : Progress) : Prop :=
  ∀ name id, p.cache name = some id → ∃ q, firstNamed p.work name = some q ∧ q.id = id

/-- The names that are not known among at most one. -/
theorem newNames_single (env : ImportEnv) (known : List String) (name : String) (path : Path) :
    newNames env known [(name, path)] =
      if (analyse env path).isOk ∧ name ∉ known then [name] else [] := rfl

section image
variable {env : ImportEnv} {c : Context} {p q : Progress} {name : String} {path : Path}

theorem mem_personNamesOf {db : Database} :
    name ∈ personNamesOf db ↔ ∃ r, firstNamed db name = some r := by
  constructor
  · intro h
    obtain ⟨r, hr, rfl⟩ := List.mem_map.1 h
    have hsome : (firstNamed db r.fullName).isSome := List.find?_isSome.2 ⟨r, hr, by simp⟩
    exact Option.isSome_iff_exists.1 hsome
  · rintro ⟨r, hr⟩
    have hname : r.fullName = name := by simpa using List.find?_some hr
    exact hname ▸ List.mem_map_of_mem (List.mem_of_find?_eq_some hr)

theorem Faithful.update (h : Faithful p) {work : Database}
    (hkept : ∀ n r, firstNamed p.work n = some r → firstNamed work n = some r) {r : Person}
    (hr : firstNamed work name = some r) :
    Faithful ⟨work, Function.update p.cache name (some r.id)⟩ := by
  intro n id hid
  have hid : Function.update p.cache name (some r.id) n = some id := hid
  by_cases hn : n = name
  · subst hn
    rw [Function.update_self] at hid
    cases hid
    exact ⟨r, hr, rfl⟩
  · rw [Function.update_of_ne hn] at hid
    obtain ⟨r', hr', he⟩ := h n id hid
    exact ⟨r', hkept n r' hr', he⟩

theorem Faithful.mono (h : Faithful p) (hcache : q.cache = p.cache)
    (hpersons : q.work.persons = p.work.persons) : Faithful q := by
  intro n id hid
  rw [hcache] at hid
  obtain ⟨r, hr, he⟩ := h n id hid
  rw [firstNamed] at hr ⊢
  exact ⟨r, hpersons ▸ hr, he⟩

theorem execute_insertPerson_eq (hc : c.others = []) {r : Person} {db work : Database}
    (h : execute c (.insertPerson r) db = .ok work) :
    work.persons.rows = db.persons.rows ++ [r] ∧ work.faces = db.faces ∧ work.logs = db.logs := by
  obtain ⟨ws, hrun, rfl⟩ := execute_eq_ok.1 h
  rw [Context.view_of_alone hc] at hrun
  obtain ⟨hnew, rfl⟩ := insertPerson_ok hrun
  exact ⟨Table.rows_put_of_new (by simpa [flag] using hnew), rfl, rfl⟩

/-- The id of an image is that of the person its name resolves to, who is added when nobody has
the name. -/
theorem resolve_adds (hc : c.others = []) (h : Faithful p) {id : UUID}
    (hres : resolve c name p = .ok (id, q)) :
    Faithful q ∧ q.work.faces = p.work.faces ∧ q.work.logs = p.work.logs ∧
      (∃ r, firstNamed q.work name = some r ∧ r.id = id) ∧
      Adds PersonOf (if name ∈ personNamesOf p.work then [] else [name]) p.work.persons.rows
        q.work.persons.rows := by
  rw [resolve] at hres
  split at hres
  next cached hcached =>
    cases hres
    obtain ⟨r, hr, he⟩ := h name id hcached
    rw [if_pos (mem_personNamesOf.2 ⟨r, hr⟩)]
    exact ⟨h, rfl, rfl, ⟨r, hr, he⟩, .nil _ _⟩
  next =>
    rw [Context.view_of_alone hc] at hres
    split at hres
    · cases hres
    next r hr =>
      cases hres
      have hr : firstNamed p.work name = some r := by
        simpa [firstNamed] using (attempt_eq_ok.1 hr).2
      rw [if_pos (mem_personNamesOf.2 ⟨r, hr⟩)]
      exact ⟨h.update (fun _ _ => id) hr, rfl, rfl, ⟨r, hr, rfl⟩, .nil _ _⟩
    next hnone =>
      have hnone : firstNamed p.work name = none := by
        simpa [firstNamed] using (attempt_eq_ok.1 hnone).2
      dsimp only at hres
      split at hres
      · cases hres
      next work hwork =>
        cases hres
        obtain ⟨hrows, hfaces, hlogs⟩ := execute_insertPerson_eq hc (attempt_eq_ok.1 hwork).2
        have hadds : Adds PersonOf [name] p.work.persons.rows work.persons.rows := by
          rw [hrows]
          exact .single ⟨c, rfl⟩ _
        have hfirst : firstNamed work name =
            some (PersonRepository.newPerson c name none .emptyObject) := by
          rw [firstNamed] at hnone ⊢
          rw [hrows, List.find?_append, hnone]
          simp [PersonRepository.newPerson]
        rw [if_neg (by rw [mem_personNamesOf, hnone]; simp)]
        exact ⟨h.update (fun _ _ => firstNamed_mono hadds) hfirst, hfaces, hlogs, ⟨_, hfirst, rfl⟩,
          hadds⟩

/-- A refused image adds its log row. -/
theorem reject_adds (hc : c.others = []) {exc exc' : Exc}
    (h : reject c path exc p = .rejected exc' q) :
    exc' = exc ∧ q.cache = p.cache ∧ q.work.persons = p.work.persons ∧
      q.work.faces = p.work.faces ∧ Adds LogOf [(path, exc)] p.work.logs.rows q.work.logs.rows := by
  rw [reject] at h
  split at h
  · cases h
  next work hwork =>
    cases h
    obtain ⟨ws, hrun, rfl⟩ := execute_eq_ok.1 (attempt_eq_ok.1 hwork).2
    rw [Context.view_of_alone hc] at hrun
    have hnew := insertLog_new hrun
    obtain rfl := insertLog_ok hrun
    refine ⟨rfl, rfl, rfl, rfl, ?_⟩
    have hrows : (p.work.logs.put (newLog c (importFailure path exc))).rows =
        p.work.logs.rows ++ [newLog c (importFailure path exc)] := Table.rows_put_of_new hnew
    show Adds LogOf [(path, exc)] p.work.logs.rows
      (p.work.logs.put (newLog c (importFailure path exc))).rows
    rw [hrows]
    exact .single ⟨c, rfl⟩ _

/-- An enrolled image adds its face, with the flag of its person. -/
theorem insertFace_adds (hc : c.others = []) {r : Person} (shown : FaceResult × Option Bytes)
    (hr : firstNamed p.work name = some r) {work : Database}
    (h : execute c (.insertFace (newFace c r.id path shown.1 shown.2)) p.work = .ok work) :
    work.persons = p.work.persons ∧ work.logs = p.work.logs ∧
      Adds (FaceOf work) [((name, path), shown)] p.work.faces.rows work.faces.rows := by
  obtain ⟨ws, hrun, rfl⟩ := execute_eq_ok.1 h
  rw [Context.view_of_alone hc] at hrun
  obtain ⟨person, hperson, hnew, rfl⟩ := insertFace_ok hrun
  have hmem : r ∈ p.work.persons.rows := List.mem_of_find?_eq_some hr
  have hsame : person = r := by
    obtain ⟨hmem', hid⟩ := Table.get?_eq_some.1 hperson
    exact p.work.persons.eq_of_pk_eq hmem' hmem hid
  subst hsame
  refine ⟨rfl, rfl, ?_⟩
  set f : Face := { newFace c person.id path shown.1 shown.2 with isActive := person.isActive }
  have hrows : (p.work.faces.put f).rows = p.work.faces.rows ++ [f] := Table.rows_put_of_new hnew
  show Adds _ _ p.work.faces.rows (p.work.faces.put f).rows
  rw [hrows]
  exact .single ⟨c, person, hr, rfl⟩ _

/-- What an image adds, by how it ends. -/
def Enters (env : ImportEnv) (name : String) (path : Path) (p : Progress) : Fate → Prop
  | .enrolled q => Faithful q ∧ Imported env [(name, path)] p.work q.work ∧
      ∃ shown, verdict env path = .ok shown
  | .rejected exc q => Faithful q ∧ Imported env [(name, path)] p.work q.work ∧
      verdict env path = .error exc
  | .aborted _ _ _ => True

theorem reject_enters (hc : c.others = []) {exc : Exc} {db : Database} (h : Faithful p)
    (hverdict : verdict env path = .error exc)
    (hpersons : Adds PersonOf (newNames env (personNamesOf db) [(name, path)]) db.persons.rows
      p.work.persons.rows)
    (hfaces : p.work.faces = db.faces) (hlogs : p.work.logs = db.logs) (cache : PersonCache) :
    Enters env name path ⟨db, cache⟩ (reject c path exc p) := by
  cases hreject : reject c path exc p with
  | enrolled q =>
    rw [reject] at hreject
    split at hreject <;> cases hreject
  | rejected exc' q =>
    obtain ⟨rfl, hcache, hpersons', hfaces', hlogs'⟩ := reject_adds hc hreject
    refine ⟨h.mono hcache hpersons', ⟨?_, ?_, ?_⟩, hverdict⟩
    · rwa [hpersons']
    · rw [hfaces', hfaces]
      simpa [accepted, hverdict] using Adds.nil _ _
    · rw [← hlogs]
      simpa [refused, hverdict] using hlogs'
  | aborted exc' raised q => trivial

theorem fate_enters (hc : c.others = []) (h : Faithful p) :
    Enters env name path p (fate env c name path p) := by
  obtain ⟨db, cache⟩ := p
  rw [fate]
  cases hanalyse : analyse env path with
  | error exc =>
    refine reject_enters hc h (verdict_of_error hanalyse) ?_ rfl rfl cache
    rw [newNames_single, hanalyse, if_neg (by simp [Except.isOk, Except.toBool])]
    exact .nil _ _
  | ok r =>
    obtain ⟨image, result⟩ := r
    dsimp only
    cases hres : resolve c name ⟨db, cache⟩ with
    | error exc => trivial
    | ok r =>
      obtain ⟨id, q⟩ := r
      obtain ⟨hfaithful, hfaces, hlogs, ⟨r, hr, hid⟩, hadds⟩ := resolve_adds hc h hres
      have hpersons : Adds PersonOf (newNames env (personNamesOf db) [(name, path)])
          db.persons.rows q.work.persons.rows := by
        rw [newNames_single, hanalyse]
        simpa [Except.isOk, Except.toBool] using hadds
      dsimp only
      cases hthumb : env.makeFaceThumbnail image result.detection.bbox with
      | error exc =>
        have hverdict : verdict env path = .error exc := by
          rw [verdict_of_ok hanalyse, hthumb]
          rfl
        exact reject_enters hc hfaithful hverdict hpersons hfaces hlogs cache
      | ok thumbnail =>
        have hverdict : verdict env path = .ok (result, thumbnail) := by
          rw [verdict_of_ok hanalyse, hthumb]
          rfl
        dsimp only
        cases hface : attempt (c.fault .addFace)
            (execute c (.insertFace (newFace c id path result thumbnail)) q.work) with
        | error exc => trivial
        | ok work =>
          subst hid
          obtain ⟨hpersons', hlogs', hfaces'⟩ := insertFace_adds hc (result, thumbnail) hr
            (attempt_eq_ok.1 hface).2
          refine ⟨hfaithful.mono rfl hpersons', ⟨?_, ?_, ?_⟩, _, hverdict⟩
          · rwa [hpersons']
          · rw [← hfaces]
            simpa [accepted, hverdict] using hfaces'
          · rw [hlogs', hlogs]
            simpa [refused, hverdict] using Adds.nil _ _

end image

/-! ### A run without failures -/

/-- What an image makes of the job. -/
def reportOf (env : ImportEnv) (pair : Pair) (job : ImportJob) : ImportJob :=
  match verdict env pair.2 with
  | .ok _ => job.record true none
  | .error exc => job.record false (some (pair.2.str ++ ": " ++ exc.message))

def reported (env : ImportEnv) (pairs : List Pair) (job : ImportJob) : ImportJob :=
  pairs.foldl (fun job pair => reportOf env pair job) job

theorem reported_append (env : ImportEnv) (pairs pairs' : List Pair) (job : ImportJob) :
    reported env (pairs ++ pairs') job = reported env pairs' (reported env pairs job) := by
  unfold reported
  exact List.foldl_append

theorem reported_cons (env : ImportEnv) (pair : Pair) (pairs : List Pair) (job : ImportJob) :
    reported env (pair :: pairs) job = reported env pairs (reportOf env pair job) := rfl

/-- No call to the database fails: no select and no flush of an image, no commit and no close. -/
def Smooth (env : ImportEnv) : List Batch → Progress → Prop
  | [], _ => True
  | batch :: batches, p =>
    (imagesFate env batch batch p).1 = none ∧ env.commitFault batch = none ∧
      env.closeFault batch = none ∧ Smooth env batches (batchAfter env batch p)

section smooth
variable {env : ImportEnv} {jobId : UUID} {job : ImportJob} {p : Progress}
  (halone : ∀ path, (env.imageContext path).others = [])
include halone

theorem images_import {batch : Batch} {images : List Pair} (h : Faithful p)
    (hnone : (imagesFate env batch images p).1 = none) {jobs : InProcessJobStore}
    (hjob : jobs.get? jobId = some job) :
    Faithful (imagesFate env batch images p).2 ∧
      Imported env images p.work (imagesFate env batch images p).2.work ∧
      (imagesJobs env batch jobId images p jobs).get? jobId = some (reported env images job) := by
  induction images generalizing p jobs job with
  | nil => exact ⟨h, .refl env _, hjob⟩
  | cons pair images ih =>
    obtain ⟨name, path⟩ := pair
    have hc : (contextOf env batch path).others = [] := halone path
    have henters := @fate_enters env _ p name path hc h
    rw [imagesFate] at hnone ⊢
    rw [imagesJobs]
    cases hfate : fate env (contextOf env batch path) name path p with
    | enrolled q =>
      rw [hfate] at henters hnone
      obtain ⟨hq, himported, shown, hverdict⟩ := henters
      have hrecorded : (recorded jobs jobId path none).get? jobId = some (job.record true none) :=
        InProcessJobStore.get?_update (fun j => j.record_jobId true none) hjob
      obtain ⟨hfaithful, hrest, hjobs⟩ := ih hq hnone hrecorded
      refine ⟨hfaithful, himported.trans hrest, ?_⟩
      rw [hjobs, reported_cons, reportOf, hverdict]
    | rejected exc q =>
      rw [hfate] at henters hnone
      obtain ⟨hq, himported, hverdict⟩ := henters
      have hrecorded : (recorded jobs jobId path (some exc)).get? jobId =
          some (job.record false (some (path.str ++ ": " ++ exc.message))) :=
        InProcessJobStore.get?_update (fun j => j.record_jobId false _) hjob
      obtain ⟨hfaithful, hrest, hjobs⟩ := ih hq hnone hrecorded
      refine ⟨hfaithful, himported.trans hrest, ?_⟩
      rw [hjobs, reported_cons, reportOf, hverdict]
    | aborted exc raised q =>
      rw [hfate] at hnone
      cases hnone

theorem batches_import (batches : List Batch) (st : ImportState)
    (hp : p = ⟨st.session.committed, st.personCache⟩) (h : Faithful p)
    (hsmooth : Smooth env batches p) (hjob : st.jobs.get? jobId = some job) :
    ∃ st', exec (batches.forM (processBatch env jobId)) st = (.ok (), st') ∧
      Imported env batches.flatten st.session.committed st'.session.committed ∧
      st'.jobs.get? jobId = some (reported env batches.flatten job) := by
  induction batches generalizing st p job with
  | nil => exact ⟨st, rfl, .refl env _, hjob⟩
  | cons batch batches ih =>
    obtain ⟨hnone, hcommit, hclose, hrest⟩ := hsmooth
    have hroll : rollsBack env batch p = false := by simp [rollsBack, hnone, hcommit]
    obtain ⟨hfaithful, himported, hjobs⟩ := images_import halone h hnone hjob
    set q := (imagesFate env batch batch p).2
    have hopen : exec (modify fun st => { st with session := Session.begin st.session.committed } :
        ImportM Unit) st = (.ok (), openAt p.work p st.jobs) := by
      rw [hp]
      rfl
    have hbatch : exec (processBatch env jobId batch) st =
        (.ok (), openAt q.work q (imagesJobs env batch jobId batch p st.jobs)) := by
      rw [processBatch, exec_bind_ok hopen, exec_bind, exec_tryCatch, batchBody_commits hroll]
      simp only [hclose, exec_lift]
      rfl
    have hafter : batchAfter env batch p = ⟨q.work, q.cache⟩ := by
      rw [batchAfter, hroll]
      rfl
    rw [hafter] at hrest
    obtain ⟨st', hexec, himported', hjob'⟩ := ih (openAt q.work q _) rfl hfaithful hrest hjobs
    refine ⟨st', ?_, ?_, ?_⟩
    · show exec (processBatch env jobId batch >>= fun _ =>
        batches.forM (processBatch env jobId)) st = _
      rw [exec_bind_ok hbatch, hexec]
    · rw [hp] at himported
      exact himported.trans himported'
    · rw [hjob', List.flatten_cons, reported_append]

/-- A run without failures imports every pair once, in order. -/
theorem importPairs_import (pairs : List Pair) (st : ImportState)
    (hsmooth : Smooth env (collect env.batchSize [] pairs) ⟨st.session.committed, fun _ => none⟩)
    (hjob : st.jobs.get? jobId = some job) :
    ∃ st', exec (importPairs env jobId pairs) st = (.ok (), st') ∧
      Imported env pairs st.session.committed st'.session.committed ∧
      st'.jobs.get? jobId = some ((reported env pairs
        (job.markRunning env.startedAt pairs.length)).markFinished env.finishedAt false) := by
  set started : ImportState := ⟨st.session, fun _ => none,
    st.jobs.update jobId (ImportJob.markRunning env.startedAt pairs.length)⟩ with hstarted
  have hrunning : started.jobs.get? jobId =
      some (job.markRunning env.startedAt pairs.length) :=
    InProcessJobStore.get?_update (fun _ => rfl) hjob
  have hfaithful : Faithful ⟨st.session.committed, fun _ => none⟩ := fun name id hid => by cases hid
  obtain ⟨st', hloop, himported, hjob'⟩ :=
    batches_import halone (collect env.batchSize [] pairs) started rfl hfaithful hsmooth hrunning
  rw [← batchLoop_eq] at hloop
  rw [flatten_collect, List.nil_append] at himported hjob'
  have hfinished := InProcessJobStore.get?_update
    (f := ImportJob.markFinished env.finishedAt false) (fun _ => rfl) hjob'
  refine ⟨⟨st'.session, st'.personCache,
    st'.jobs.update jobId (ImportJob.markFinished env.finishedAt false)⟩, ?_, himported, hfinished⟩
  rw [exec_importPairs, exec_bind_ok hloop]
  rfl

end smooth

/-! ### Two runs on the same inputs -/

/-- The same files and the same pipeline. The batch size, the fresh ids and the clock may differ. -/
structure SameInputs (env env' : ImportEnv) : Prop where
  isDir : env'.isDir = env.isDir
  iterdir : env'.iterdir = env.iterdir
  readImage : env'.readImage = env.readImage
  pipeline : env'.pipeline = env.pipeline
  makeFaceThumbnail : env'.makeFaceThumbnail = env.makeFaceThumbnail

/-- The same person under the id `rename` gives it, with other timestamps. -/
def PersonCopy (rename : UUID → UUID) (q q' : Person) : Prop :=
  q' = { q with id := rename q.id, createdAt := q'.createdAt, updatedAt := q'.updatedAt }

/-- The same face of the same person, with another id and other timestamps. -/
def FaceCopy (rename : UUID → UUID) (f f' : Face) : Prop :=
  f' = { f with
    id := f'.id
    personId := rename f.personId
    createdAt := f'.createdAt
    updatedAt := f'.updatedAt }

def LogCopy (l l' : RecognitionLog) : Prop :=
  l' = { l with id := l'.id, createdAt := l'.createdAt, updatedAt := l'.updatedAt }

/-- Both have the rows of `before`, and after them rows that correspond. -/
def Copies {ρ : Type} (R : ρ → ρ → Prop) (before rows rows' : List ρ) : Prop :=
  ∃ new new', rows = before ++ new ∧ rows' = before ++ new' ∧ List.Forall₂ R new new'

/-- The same database up to fresh ids and timestamps. -/
def SameUpToFresh (before after after' : Database) : Prop :=
  ∃ rename : UUID → UUID, (∀ q ∈ before.persons.rows, rename q.id = q.id) ∧
    Copies (PersonCopy rename) before.persons.rows after.persons.rows after'.persons.rows ∧
    Copies (FaceCopy rename) before.faces.rows after.faces.rows after'.faces.rows ∧
    Copies LogCopy before.logs.rows after.logs.rows after'.logs.rows

/-- The same job up to the timestamps. -/
def SameProgress (job job' : ImportJob) : Prop :=
  job' = { job with startedAt := job'.startedAt, finishedAt := job'.finishedAt }

section copies
variable {α ρ : Type} {R R' : α → ρ → Prop} {S : ρ → ρ → Prop}

theorem copies_of_adds {items : List α} {before rows rows' : List ρ} (h : Adds R items before rows)
    (h' : Adds R' items before rows') (hS : ∀ a r r', R a r → R' a r' → S r r') :
    Copies S before rows rows' := by
  obtain ⟨new, hrows, hnew⟩ := h
  obtain ⟨new', hrows', hnew'⟩ := h'
  refine ⟨new, new', hrows, hrows', ?_⟩
  clear hrows hrows'
  induction hnew generalizing new' with
  | nil =>
    cases hnew'
    exact .nil
  | cons ha _ ih =>
    cases hnew' with
    | cons ha' hrest => exact .cons (hS _ _ _ ha ha') (ih _ hrest)

theorem forall₂_of_prefix {l m m' : List ρ} (h : List.Forall₂ S (l ++ m) (l ++ m')) :
    (∀ r ∈ l, S r r) ∧ List.Forall₂ S m m' := by
  induction l with
  | nil => exact ⟨by simp, h⟩
  | cons r l ih =>
    cases h with
    | cons hr hrest =>
      obtain ⟨hl, hm⟩ := ih hrest
      exact ⟨List.forall_mem_cons.2 ⟨hr, hl⟩, hm⟩

theorem find?_of_forall₂ {l l' : List ρ} (h : List.Forall₂ S l l') {P : ρ → Bool}
    (hP : ∀ r r', S r r' → P r = P r') {r r' : ρ} (hr : l.find? P = some r)
    (hr' : l'.find? P = some r') : S r r' := by
  induction h with
  | nil => cases hr
  | cons ha _ ih =>
    rw [List.find?_cons] at hr hr'
    rw [← hP _ _ ha] at hr'
    split at hr
    next htrue =>
      rw [htrue] at hr'
      cases hr
      cases hr'
      exact ha
    next hfalse =>
      rw [hfalse] at hr'
      exact ih hr hr'

end copies

/-- The same person with another id and other timestamps. -/
def PersonLike (q q' : Person) : Prop :=
  q' = { q with id := q'.id, createdAt := q'.createdAt, updatedAt := q'.updatedAt }

/-- The ids of corresponding persons correspond. -/
theorem exists_rename {l l' : List Person} (h : List.Forall₂ PersonLike l l')
    (hnodup : (l.map Person.id).Nodup) :
    ∃ rename : UUID → UUID, List.Forall₂ (PersonCopy rename) l l' := by
  induction h with
  | nil => exact ⟨id, .nil⟩
  | @cons q q' l l' hq hrest ih =>
    rw [List.map_cons, List.nodup_cons] at hnodup
    obtain ⟨rename, hcopies⟩ := ih hnodup.2
    refine ⟨Function.update rename q.id q'.id, .cons ?_ ?_⟩
    · rw [PersonCopy, Function.update_self]
      exact hq
    · have hne : ∀ r ∈ l, r.id ≠ q.id := fun r hr he =>
        hnodup.1 (he ▸ List.mem_map_of_mem hr)
      refine ((List.forall₂_and_left _ _).2 ⟨hne, hcopies⟩).imp ?_
      rintro r r' ⟨hr, hcopy⟩
      rw [PersonCopy, Function.update_of_ne hr]
      exact hcopy

section tworuns
variable {env env' : ImportEnv} {pairs : List Pair} {before after after' : Database}

theorem SameInputs.verdict (h : SameInputs env env') (path : Path) :
    verdict env' path = verdict env path := by
  unfold BulkImportService.verdict analyse
  rw [h.readImage, h.pipeline, h.makeFaceThumbnail]

theorem SameInputs.newNames (h : SameInputs env env') (known : List String) (pairs : List Pair) :
    newNames env' known pairs = newNames env known pairs := by
  induction pairs generalizing known with
  | nil => rfl
  | cons pair pairs ih =>
    have hanalyse : analyse env' pair.2 = analyse env pair.2 := by
      unfold analyse
      rw [h.readImage, h.pipeline]
    rw [BulkImportService.newNames, BulkImportService.newNames, hanalyse, ih, ih]

theorem SameInputs.accepted (h : SameInputs env env') : accepted env' = accepted env := by
  funext pair
  rw [BulkImportService.accepted, BulkImportService.accepted, h.verdict]

theorem SameInputs.refused (h : SameInputs env env') : refused env' = refused env := by
  funext pair
  rw [BulkImportService.refused, BulkImportService.refused, h.verdict]

theorem SameInputs.imported (h : SameInputs env env') (himported : Imported env' pairs before after) :
    Imported env pairs before after where
  persons := h.newNames _ _ ▸ himported.persons
  faces := h.accepted ▸ himported.faces
  logs := h.refused ▸ himported.logs

theorem PersonOf.like {name : String} {q q' : Person} (h : PersonOf name q) (h' : PersonOf name q') :
    PersonLike q q' := by
  obtain ⟨c, rfl⟩ := h
  obtain ⟨c', rfl⟩ := h'
  rfl

/-- What was imported from the same pairs is the same up to fresh ids and timestamps. -/
theorem Imported.same (h : Imported env pairs before after) (h' : Imported env pairs before after') :
    SameUpToFresh before after after' := by
  obtain ⟨new, new', hrows, hrows', hlike⟩ :=
    copies_of_adds h.persons h'.persons fun _ _ _ hq hq' => PersonOf.like hq hq'
  have hbefore : List.Forall₂ PersonLike before.persons.rows before.persons.rows :=
    List.forall₂_same.2 fun _ _ => rfl
  have hall : List.Forall₂ PersonLike after.persons.rows after'.persons.rows := by
    rw [hrows, hrows']
    exact List.rel_append hbefore hlike
  obtain ⟨rename, hcopies⟩ := exists_rename hall after.persons.nodup
  have hsplit := hcopies
  rw [hrows, hrows'] at hsplit
  obtain ⟨hold, hnew⟩ := forall₂_of_prefix hsplit
  refine ⟨rename, fun q hq => (congrArg Person.id (hold q hq)).symm,
    ⟨new, new', hrows, hrows', hnew⟩, ?_, ?_⟩
  · refine copies_of_adds h.faces h'.faces ?_
    rintro image f f' ⟨c, q, hq, rfl⟩ ⟨c', q', hq', rfl⟩
    have hnames : ∀ r r', PersonCopy rename r r' →
        decide (r.fullName = image.1.1) = decide (r'.fullName = image.1.1) := fun r r' hr => by
      rw [hr]
    have hcopy : PersonCopy rename q q' := find?_of_forall₂ hcopies hnames hq hq'
    rw [hcopy]
    rfl
  · refine copies_of_adds h.logs h'.logs ?_
    rintro image l l' ⟨c, rfl⟩ ⟨c', rfl⟩
    rfl

/-! ### The jobs of two runs -/

theorem SameProgress.addError {job job' : ImportJob} (h : SameProgress job job') (msg : PyStr) :
    SameProgress (job.addError msg) (job'.addError msg) := by
  rw [h]
  unfold ImportJob.addError
  dsimp only
  split_ifs <;> rfl

theorem SameProgress.record {job job' : ImportJob} (h : SameProgress job job') (success : Bool)
    (error : Option PyStr) : SameProgress (job.record success error) (job'.record success error) := by
  have hcounts : SameProgress (job.record success none) (job'.record success none) := by
    rw [h]
    cases success <;> rfl
  cases error with
  | none => exact hcounts
  | some msg =>
    rw [ImportJob.record_some, ImportJob.record_some]
    split_ifs
    · exact hcounts.addError msg
    · exact hcounts

theorem SameProgress.reported {job job' : ImportJob} (h : SameProgress job job')
    (env : ImportEnv) (pairs : List Pair) :
    SameProgress (reported env pairs job) (reported env pairs job') := by
  induction pairs generalizing job job' with
  | nil => exact h
  | cons pair pairs ih =>
    rw [reported_cons, reported_cons]
    refine ih ?_
    unfold reportOf
    cases verdict env pair.2 with
    | ok shown => exact h.record true none
    | error exc => exact h.record false _

/-! ### One person for each name -/

theorem not_mem_of_mem_newNames {known : List String} {name : String}
    (h : name ∈ newNames env known pairs) : name ∉ known := by
  induction pairs generalizing known with
  | nil => cases h
  | cons pair pairs ih =>
    rw [BulkImportService.newNames] at h
    split_ifs at h with hnew
    · rcases List.mem_cons.1 h with rfl | h
      · exact hnew.2
      · exact fun hknown => ih h (List.mem_append_left _ hknown)
    · exact ih h

/-- The new faces of a folder belong to one person with its name, and a new person has a name that
nobody had. -/
structure OneEach (pairs : List Pair) (before after : Database) : Prop where
  face : ∀ f ∈ after.faces.rows, f ∉ before.faces.rows → ∃ name path q, (name, path) ∈ pairs ∧
    f.imagePath = some path.str ∧ firstNamed after name = some q ∧ q.fullName = name ∧
    f.personId = q.id
  person : ∀ q ∈ after.persons.rows, q ∉ before.persons.rows → q.fullName ∉ personNamesOf before

theorem exists_of_forall₂ {α ρ : Type} {R : α → ρ → Prop} {items : List α} {new : List ρ}
    (h : List.Forall₂ R items new) {r : ρ} (hr : r ∈ new) : ∃ a ∈ items, R a r := by
  induction h with
  | nil => cases hr
  | cons ha _ ih =>
    rcases List.mem_cons.1 hr with rfl | hr
    · exact ⟨_, List.mem_cons_self, ha⟩
    · obtain ⟨a, hmem, hR⟩ := ih hr
      exact ⟨a, List.mem_cons_of_mem _ hmem, hR⟩

theorem Imported.oneEach (h : Imported env pairs before after) : OneEach pairs before after where
  face f hf hnew := by
    obtain ⟨new, hrows, hall⟩ := h.faces
    rw [hrows] at hf
    have hf := (List.mem_append.1 hf).resolve_left hnew
    obtain ⟨image, himage, c, q, hq, rfl⟩ := exists_of_forall₂ hall hf
    obtain ⟨pair, hpair, haccepted⟩ := List.mem_filterMap.1 himage
    rw [BulkImportService.accepted] at haccepted
    split at haccepted
    · cases haccepted
      exact ⟨pair.1, pair.2, q, hpair, rfl, hq, by simpa using List.find?_some hq, rfl⟩
    · cases haccepted
  person q hq hnew := by
    obtain ⟨new, hrows, hall⟩ := h.persons
    rw [hrows] at hq
    have hq := (List.mem_append.1 hq).resolve_left hnew
    obtain ⟨name, hname, c, rfl⟩ := exists_of_forall₂ hall hq
    exact not_mem_of_mem_newNames hname

/-- **The batch size does not matter.** Two runs over the same pairs, with any batch sizes, when
nobody else writes and no call to the database fails: both import every pair once, in order, and
they end with the same database and the same job up to fresh ids and timestamps. -/
theorem batch_size_irrelevant (hsame : SameInputs env env')
    (halone : ∀ path, (env.imageContext path).others = [])
    (halone' : ∀ path, (env'.imageContext path).others = []) {jobId : UUID} {job : ImportJob}
    (pairs : List Pair) (st : ImportState) (hjob : st.jobs.get? jobId = some job)
    (hsmooth : Smooth env (collect env.batchSize [] pairs) ⟨st.session.committed, fun _ => none⟩)
    (hsmooth' : Smooth env' (collect env'.batchSize [] pairs)
      ⟨st.session.committed, fun _ => none⟩) :
    ∃ st₁ st₂ job₁ job₂,
      exec (importPairs env jobId pairs) st = (.ok (), st₁) ∧
      exec (importPairs env' jobId pairs) st = (.ok (), st₂) ∧
      (∀ root, env.isDir root = .ok true → discover env root = .ok pairs →
        exec (run env jobId root) st = (.ok (), st₁) ∧
        exec (run env' jobId root) st = (.ok (), st₂)) ∧
      Imported env pairs st.session.committed st₁.session.committed ∧
      Imported env pairs st.session.committed st₂.session.committed ∧
      SameUpToFresh st.session.committed st₁.session.committed st₂.session.committed ∧
      OneEach pairs st.session.committed st₁.session.committed ∧
      OneEach pairs st.session.committed st₂.session.committed ∧
      st₁.jobs.get? jobId = some job₁ ∧ st₂.jobs.get? jobId = some job₂ ∧ SameProgress job₁ job₂ ∧
      job₁ = (reported env pairs (job.markRunning env.startedAt pairs.length)).markFinished
        env.finishedAt false := by
  obtain ⟨st₁, hrun₁, himported₁, hjob₁⟩ := importPairs_import halone pairs st hsmooth hjob
  obtain ⟨st₂, hrun₂, himported₂, hjob₂⟩ := importPairs_import halone' pairs st hsmooth' hjob
  have himported₂ := hsame.imported himported₂
  refine ⟨st₁, st₂, _, _, hrun₁, hrun₂, ?_, himported₁, himported₂, himported₁.same himported₂,
    himported₁.oneEach, himported₂.oneEach, hjob₁, hjob₂, ?_, rfl⟩
  · intro root hdir hdisc
    have hdisc' : discover env' root = .ok pairs := by
      rw [← hdisc]
      unfold discover
      rw [hsame.isDir, hsame.iterdir]
    have hdir' : env'.isDir root = .ok true := by rwa [hsame.isDir]
    rw [exec_run_of_isDir hdir, exec_run_of_isDir hdir', exec_bind_ok (by rw [exec_lift, hdisc]),
      exec_bind_ok (by rw [exec_lift, hdisc'])]
    exact ⟨hrun₁, hrun₂⟩
  · have hstart : SameProgress (job.markRunning env.startedAt pairs.length)
        (job.markRunning env'.startedAt pairs.length) := rfl
    have hreported : reported env' pairs = reported env pairs := by
      funext j
      unfold reported reportOf
      simp only [hsame.verdict]
    have hend := hstart.reported env pairs
    rw [hreported]
    rw [hend]
    rfl

end tworuns

/-! ### Two photos of Alice -/

def twoOfAlice : List Pair := [("Alice", alicePhoto), ("Alice", ⟨["photos", "Alice", "2.jpg"]⟩)]

def batchesOf (batchSize : ℤ) : ImportEnv := photosEnv (fun _ => []) batchSize fun _ => none

theorem batch_size_irrelevant_two_photos :
    ∃ st₁ st₂, exec (importPairs (batchesOf 0) 3 twoOfAlice) freshJob = (.ok (), st₁) ∧
      exec (importPairs (batchesOf 32) 3 twoOfAlice) freshJob = (.ok (), st₂) ∧
      SameUpToFresh Database.empty st₁.session.committed st₂.session.committed := by
  have hsmooth : Smooth (batchesOf 0) (collect 0 [] twoOfAlice) ⟨Database.empty, fun _ => none⟩ :=
    ⟨by decide +kernel, rfl, rfl, by decide +kernel, rfl, rfl, trivial⟩
  have hsmooth' : Smooth (batchesOf 32) (collect 32 [] twoOfAlice)
      ⟨Database.empty, fun _ => none⟩ := ⟨by decide +kernel, rfl, rfl, trivial⟩
  have halone : ∀ n path, ((batchesOf n).imageContext path).others = [] := by
    intro n path
    simp only [batchesOf, photosEnv]
    split_ifs <;> rfl
  obtain ⟨st₁, st₂, job₁, job₂, hrun₁, hrun₂, -, -, -, hsame, -⟩ :=
    @batch_size_irrelevant (batchesOf 0) (batchesOf 32) ⟨rfl, rfl, rfl, rfl, rfl⟩ (halone 0)
      (halone 32) 3 { jobId := 3 } twoOfAlice freshJob (by decide +kernel) hsmooth hsmooth'
  exact ⟨st₁, st₂, hrun₁, hrun₂, hsame⟩

end FaceRecognition.Services.BulkImportService
