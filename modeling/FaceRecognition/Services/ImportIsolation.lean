import FaceRecognition.Services.ImportFate

/-!
# A rolled-back batch and the batches after it

The only thing a batch leaves behind when it is rolled back is `person_cache`. Two runs are
compared, one on all batches and one without some that are rolled back; `Agree` relates their
databases and caches. The tables are the same up to the person a face belongs to, who has the same
name. A cached id of the longer run is the one the shorter run has, or that of a person who is there
to stay, or `dead`: drawn for a person by a batch that is taken out. As long as no remaining image
uses a dead id, or is spared a failing SELECT by an entry of such a batch (`Usable`), the relation
is kept by every image, and the two runs commit the same.
-/

namespace FaceRecognition.Services.BulkImportService

open Relational Recognition Db UnitOfWork Chunks

/-- The name of a person, for a client that also sees the rows of others. -/
def nameOf (others : List Person) (persons : Table Person) (id : UUID) : Option String :=
  ((persons.get? id).or (others.find? fun p => p.id = id)).map Person.fullName

/-- Other clients delete and rename nobody between two moments. -/
def Grows (others others' : List Person) : Prop :=
  ∀ id name, nameOf others .empty id = some name → nameOf others' .empty id = some name

/-- Persons by name. -/
def personNames (db : Database) : List String := db.persons.rows.map Person.fullName

/-- Faces by path and person name. -/
def facesByName (others : List Person) (db : Database) : List (Option String × Option String) :=
  db.faces.rows.map fun f => (f.imagePath, nameOf others db.persons f.personId)

/-! ### Persons who stay -/

/-- At all the `moments` to come the person is there under this name, both for a transaction that
starts from `committed` and for one that has come to `work`. -/
def Settled (moments : List (List Person)) (committed work : Table Person) (id : UUID)
    (name : String) : Prop :=
  ∀ others ∈ moments,
    nameOf others committed id = some name ∧ nameOf others work id = some name

section
variable {others : List Person} {moments : List (List Person)} {committed work : Table Person}
  {id : UUID} {name : String}

theorem Settled.mono {moments' : List (List Person)} (h : Settled moments committed work id name)
    (hm : moments' ⊆ moments) : Settled moments' committed work id name :=
  fun others ho => h others (hm ho)

theorem nameOf_of_get? {p : Person} (h : committed.get? id = some p) :
    nameOf others committed id = some p.fullName := by
  rw [nameOf, h]
  rfl

theorem nameOf_of_none (h : committed.get? id = none) :
    nameOf others committed id = nameOf others .empty id := by
  rw [nameOf, h]
  rfl

theorem nameOf_view (c : Context) (db : Database) :
    nameOf c.others db.persons id = ((c.view db).persons.get? id).map Person.fullName := by
  rw [nameOf, get?_view]

theorem settled_of_mem {p : Person} (hc : committed.get? id = some p)
    (hw : work.get? id = some p) : Settled moments committed work id p.fullName :=
  fun _ _ => ⟨nameOf_of_get? hc, nameOf_of_get? hw⟩

theorem settled_of_others {p : Person} (hc : committed.get? id = none) (hw : work.get? id = none)
    (hp : (others.find? fun p => p.id = id) = some p)
    (hgrows : (others :: moments).Pairwise Grows) :
    Settled (others :: moments) committed work id p.fullName := by
  have hnow : nameOf others .empty id = some p.fullName := by
    rw [nameOf, hp]
    rfl
  intro others' ho
  rw [nameOf_of_none hc, nameOf_of_none hw, and_self]
  rcases List.mem_cons.1 ho with rfl | ho
  · exact hnow
  · exact (List.pairwise_cons.1 hgrows).1 others' ho id _ hnow

/-- A rollback takes the transaction back to the committed persons. -/
theorem Settled.rolledBack (h : Settled moments committed work id name) :
    Settled moments committed committed id name :=
  fun others ho => ⟨(h others ho).1, (h others ho).1⟩

/-- A commit publishes what the transaction has come to. -/
theorem Settled.published (h : Settled moments committed work id name) :
    Settled moments work work id name :=
  fun others ho => ⟨(h others ho).2, (h others ho).2⟩

theorem mem_put_of_new {p q : Person} (hq : q ∈ work.rows)
    (hnew : nameOf others work p.id = none) : q ∈ (work.put p).rows := by
  refine Table.mem_put.2 (.inr ⟨hq, fun he => ?_⟩)
  have hget : work.get? p.id = some q := Table.get?_eq_some.2 ⟨hq, he.symm⟩
  rw [nameOf_of_get? hget] at hnew
  cases hnew

/-- A new row has an id that nobody had. -/
theorem Settled.put (h : Settled (others :: moments) committed work id name) {p : Person}
    (hnew : nameOf others work p.id = none) :
    Settled (others :: moments) committed (work.put p) id name := by
  have hne : p.id ≠ id := by
    rintro rfl
    rw [(h others List.mem_cons_self).2] at hnew
    cases hnew
  intro others' ho
  refine ⟨(h others' ho).1, ?_⟩
  rw [nameOf, Table.get?_put_of_ne _ hne]
  exact (h others' ho).2

end

/-! ### Two runs that agree -/

section
variable (S : UUID → String → Prop)

/-- The same person, or two who stay under one name. -/
def SamePerson (i j : UUID) : Prop := i = j ∨ ∃ name, S i name ∧ S j name

structure SameFace (f g : Face) : Prop where
  id : f.id = g.id
  imagePath : f.imagePath = g.imagePath
  person : SamePerson S f.personId g.personId

/-- What the cache of the longer run says about a name; `names` are those of the images of the
batches that are taken out. -/
def SameEntry (dead : List UUID) (names : List String) (name : String)
    (cached cached' : Option UUID) : Prop :=
  (∃ i ∈ dead, cached = some i) ∨ cached = cached' ∨
    ∃ i, cached = some i ∧ S i name ∧ (∀ j, cached' = some j → S j name) ∧
      (cached' = none → name ∈ names)

end

/-- `p` is the progress of the longer run and `p'` that of the shorter one, in a transaction that
started from the persons `committed`. -/
structure Agree (dead : List UUID) (names : List String) (moments : List (List Person))
    (committed : Table Person) (p p' : Progress) : Prop where
  persons : p.work.persons = p'.work.persons
  logs : p.work.logs = p'.work.logs
  faces : p.work.faces.rows.Forall₂ (SameFace (Settled moments committed p.work.persons))
    p'.work.faces.rows
  cache : ∀ name, SameEntry (Settled moments committed p.work.persons) dead names name
    (p.cache name) (p'.cache name)
  /-- The transaction has deleted and renamed nobody. -/
  extends_committed : ∀ q ∈ committed.rows, q ∈ p.work.persons.rows
  /-- Whom it has created is in the cache. -/
  created_cached : ∀ q ∈ p.work.persons.rows, q ∈ committed.rows ∨ p'.cache q.fullName ≠ none

section
variable {env : ImportEnv} {c : Context} {dead : List UUID} {names : List String}
  {moments : List (List Person)} {committed : Table Person} {p p' : Progress} {name : String}

theorem SameEntry.mono {S S' : UUID → String → Prop} {dead' : List UUID} {names' : List String}
    {cached cached' : Option UUID} (h : SameEntry S dead names name cached cached')
    (hS : ∀ i, S i name → S' i name) (hdead : dead ⊆ dead') (hnames : names ⊆ names') :
    SameEntry S' dead' names' name cached cached' := by
  rcases h with ⟨i, hi, he⟩ | he | ⟨i, he, hs, hs', hname⟩
  · exact .inl ⟨i, hdead hi, he⟩
  · exact .inr (.inl he)
  · exact .inr (.inr ⟨i, he, hS i hs, fun j hj => hS j (hs' j hj), fun hj => hnames (hname hj)⟩)

theorem SameEntry.imp {S S' : UUID → String → Prop} {cached cached' : Option UUID}
    (h : SameEntry S dead names name cached cached') (hS : ∀ i, S i name → S' i name) :
    SameEntry S' dead names name cached cached' :=
  h.mono hS (List.Subset.refl _) (List.Subset.refl _)

theorem SameEntry.none {S : UUID → String → Prop} {cached' : Option UUID}
    (h : SameEntry S dead names name none cached') : cached' = none := by
  rcases h with ⟨i, -, he⟩ | he | ⟨i, he, -⟩
  · cases he
  · exact he.symm
  · cases he

theorem SameFace.mono {S S' : UUID → String → Prop} {f g : Face} (h : SameFace S f g)
    (hS : ∀ i name, S i name → S' i name) : SameFace S' f g where
  id := h.id
  imagePath := h.imagePath
  person := h.person.imp_right fun ⟨name, hf, hg⟩ => ⟨name, hS _ _ hf, hS _ _ hg⟩

theorem Agree.mono {moments' : List (List Person)} (h : Agree dead names moments committed p p')
    (hm : moments' ⊆ moments) : Agree dead names moments' committed p p' where
  persons := h.persons
  logs := h.logs
  faces := h.faces.imp fun _ _ hf => hf.mono fun _ _ hs => hs.mono hm
  cache name := (h.cache name).imp fun _ hs => hs.mono hm
  extends_committed := h.extends_committed
  created_cached := h.created_cached

/-- Whom a SELECT finds was created in this transaction or is there to stay. -/
theorem found_settled {db : Database} {q : Person}
    (hq : q ∈ (c.view db).persons.rows)
    (hextends : ∀ q ∈ committed.rows, q ∈ db.persons.rows)
    (hgrows : (c.others :: moments).Pairwise Grows) :
    q ∈ db.persons.rows ∧ q ∉ committed.rows ∨
      Settled (c.others :: moments) committed db.persons q.id q.fullName := by
  have hview : (c.view db).persons.get? q.id = some q := Table.mem_iff_get?.1 hq
  rw [get?_view] at hview
  cases hown : db.persons.get? q.id with
  | some q' =>
    rw [hown] at hview
    obtain rfl : q' = q := Option.some.inj hview
    by_cases hc : q' ∈ committed.rows
    · exact .inr (settled_of_mem (Table.mem_iff_get?.1 hc) hown)
    · exact .inl ⟨(Table.get?_eq_some.1 hown).1, hc⟩
  | none =>
    rw [hown, Option.none_or] at hview
    refine .inr (settled_of_others ?_ hown hview hgrows)
    rw [Table.get?_eq_none] at hown ⊢
    exact fun r hr => hown r (hextends r hr)

theorem resolve_cached {id : UUID} (h : p.cache name = some id) :
    resolve c name p = .ok (id, p) := by
  rw [resolve, h]

theorem resolve_failed {exc : Exc} (hselect : c.fault .getByName = some exc)
    (h : p.cache name = none) : resolve c name p = .error exc := by
  rw [resolve, h, hselect]
  rfl

theorem resolve_found {q : Person} (hselect : c.fault .getByName = none) (h : p.cache name = none)
    (hq : ((c.view p.work).persons.rows.find? fun q => q.fullName = name) = some q) :
    resolve c name p = .ok (q.id, ⟨p.work, Function.update p.cache name (some q.id)⟩) := by
  rw [resolve, h, hselect, hq]
  rfl

theorem resolve_created (hselect : c.fault .getByName = none) (h : p.cache name = none)
    (hq : ((c.view p.work).persons.rows.find? fun q => q.fullName = name) = none) :
    resolve c name p = (attempt (c.fault .addPerson) (execute c (.insertPerson
      (PersonRepository.newPerson c name none .emptyObject)) p.work)).map fun work =>
        (c.personId, ⟨work, Function.update p.cache name (some c.personId)⟩) := by
  rw [resolve, h, hselect, hq]
  simp only [attempt_none]
  cases attempt (c.fault .addPerson) (execute c (.insertPerson
    (PersonRepository.newPerson c name none .emptyObject)) p.work) <;> rfl

/-- A statement that reads the same in two databases makes the same writes to both. -/
theorem execute_alike {s : Statement} {db db' : Database}
    (h : s.run (c.view db) = s.run (c.view db')) :
    Alike (fun new new' => ∃ ws, s.run (c.view db) = .ok ws ∧ new = applyAll db ws ∧
      new' = applyAll db' ws) (execute c s db) (execute c s db') := by
  rw [execute, execute, ← h]
  cases hrun : s.run (c.view db) with
  | error e => exact .error e e
  | ok ws => exact .ok ⟨ws, rfl, rfl, rfl⟩

theorem execute_insertPerson_alike {q : Person} {db db' : Database}
    (h : db.persons = db'.persons) :
    Alike (fun new new' => nameOf c.others db.persons q.id = none ∧
      new = { db with persons := db.persons.put q } ∧
      new' = { db' with persons := db.persons.put q })
      (execute c (.insertPerson q) db) (execute c (.insertPerson q) db') := by
  refine (execute_alike ?_).mono ?_
  · exact insertPerson_congr (by rw [Context.view, Context.view, h]) q
  · rintro - - ⟨ws, hrun, rfl, rfl⟩
    obtain ⟨hnew, rfl⟩ := insertPerson_ok hrun
    refine ⟨?_, rfl, h ▸ rfl⟩
    rw [nameOf_view]
    simpa [flag] using hnew

theorem execute_insertLog_alike {l : RecognitionLog} {db db' : Database} (h : db.logs = db'.logs) :
    Alike (fun new new' => new = { db with logs := db.logs.put l } ∧
      new' = { db' with logs := db.logs.put l })
      (execute c (.insertLog l) db) (execute c (.insertLog l) db') := by
  refine (execute_alike ?_).mono ?_
  · exact insertLog_congr h l
  · rintro - - ⟨ws, hrun, rfl, rfl⟩
    obtain rfl := insertLog_ok hrun
    exact ⟨rfl, h ▸ rfl⟩

theorem find?_name {persons : Table Person} {q : Person}
    (h : (persons.rows.find? fun q => q.fullName = name) = some q) :
    q ∈ persons.rows ∧ q.fullName = name :=
  ⟨List.mem_of_find?_eq_some h, by simpa using List.find?_some h⟩

/-! ### An image of a remaining batch -/

theorem Agree.remember (h : Agree dead names moments committed p p') (name : String) (id : UUID) :
    Agree dead names moments committed ⟨p.work, Function.update p.cache name (some id)⟩
      ⟨p'.work, Function.update p'.cache name (some id)⟩ where
  persons := h.persons
  logs := h.logs
  faces := h.faces
  cache n := by
    by_cases hn : n = name
    · subst hn
      exact .inr (.inl (by simp))
    · simpa [hn] using h.cache n
  extends_committed := h.extends_committed
  created_cached q hq := by
    by_cases hn : q.fullName = name
    · exact .inr (by simp [hn])
    · simpa [hn] using h.created_cached q hq

/-- Only the shorter run has looked the name up. -/
theorem Agree.remember_shorter (h : Agree dead names moments committed p p') {i j : UUID}
    (hcached : p.cache name = some i) (hi : Settled moments committed p.work.persons i name)
    (hj : Settled moments committed p.work.persons j name) :
    Agree dead names moments committed p ⟨p'.work, Function.update p'.cache name (some j)⟩ where
  persons := h.persons
  logs := h.logs
  faces := h.faces
  cache n := by
    by_cases hn : n = name
    · subst hn
      refine .inr (.inr ⟨i, hcached, hi, fun j' hj' => ?_, fun hnone => ?_⟩)
      · obtain rfl : j = j' := by simpa using hj'
        exact hj
      · simp at hnone
    · simpa [hn] using h.cache n
  extends_committed := h.extends_committed
  created_cached q hq := by
    by_cases hn : q.fullName = name
    · exact .inr (by simp [hn])
    · simpa [hn] using h.created_cached q hq

theorem Agree.create (h : Agree dead names (c.others :: moments) committed p p') {q : Person}
    (hnew : nameOf c.others p.work.persons q.id = none) :
    Agree dead names (c.others :: moments) committed
      ⟨{ p.work with persons := p.work.persons.put q },
        Function.update p.cache q.fullName (some q.id)⟩
      ⟨{ p'.work with persons := p.work.persons.put q },
        Function.update p'.cache q.fullName (some q.id)⟩ where
  persons := rfl
  logs := h.logs
  faces := h.faces.imp fun _ _ hf => hf.mono fun _ _ hs => hs.put hnew
  cache n := ((h.remember q.fullName q.id).cache n).imp fun _ hs => hs.put hnew
  extends_committed r hr := mem_put_of_new (h.extends_committed r hr) hnew
  created_cached r hr := by
    rcases Table.mem_put.1 hr with rfl | ⟨hr, -⟩
    · exact .inr (by simp)
    · exact (h.remember q.fullName q.id).created_cached r hr

/-- What the shorter run finds for a name that the longer one has cached. -/
theorem Agree.found (h : Agree dead names (c.others :: moments) committed p p')
    (hgrows : (c.others :: moments).Pairwise Grows) {i : UUID}
    (hi : Settled (c.others :: moments) committed p.work.persons i name)
    (hcache' : p'.cache name = none) :
    ∃ q, ((c.view p'.work).persons.rows.find? fun q => q.fullName = name) = some q ∧
      Settled (c.others :: moments) committed p.work.persons q.id name := by
  have hnow := (hi c.others List.mem_cons_self).2
  rw [h.persons, nameOf_view, Option.map_eq_some_iff] at hnow
  obtain ⟨q₀, hq₀, hname₀⟩ := hnow
  cases hfind : (c.view p'.work).persons.rows.find? fun q => q.fullName = name with
  | none =>
    have := List.find?_eq_none.1 hfind q₀ (Table.get?_eq_some.1 hq₀).1
    simp [hname₀] at this
  | some q =>
    obtain ⟨hq, rfl⟩ := find?_name hfind
    refine ⟨q, rfl, ?_⟩
    have hextends := h.extends_committed
    have hcreated := h.created_cached q
    rw [h.persons] at hextends hcreated ⊢
    rcases found_settled hq hextends hgrows with ⟨hown, hc⟩ | hs
    · exact absurd hcache' ((hcreated hown).resolve_left hc)
    · exact hs

/-- An image can use what `person_cache` says about its name: an id that is not dead, and one that
a batch that is taken out may have put there only where the SELECT would not fail. -/
structure Usable (dead : List UUID) (names : List String) (c : Context) (name : String)
    (p : Progress) : Prop where
  live : ∀ i ∈ dead, p.cache name ≠ some i
  selects : name ∈ names → p.cache name ≠ none → c.fault .getByName = none

theorem resolve_agree (h : Agree dead names (c.others :: moments) committed p p')
    (hgrows : (c.others :: moments).Pairwise Grows) (husable : Usable dead names c name p) :
    Alike (fun r r' =>
      SamePerson (Settled (c.others :: moments) committed r.2.work.persons) r.1 r'.1 ∧
        Agree dead names (c.others :: moments) committed r.2 r'.2)
      (resolve c name p) (resolve c name p') := by
  cases hcache : p.cache name with
  | some i =>
    rw [resolve_cached hcache]
    rcases h.cache name with ⟨j, hj, he⟩ | he | ⟨j, he, hs, hs', hname⟩
    · exact absurd he (husable.live j hj)
    · rw [resolve_cached (he.symm.trans hcache)]
      exact .ok ⟨.inl rfl, h⟩
    · obtain rfl := Option.some.inj (he.symm.trans hcache)
      cases hcache' : p'.cache name with
      | some j' =>
        rw [resolve_cached hcache']
        exact .ok ⟨.inr ⟨name, hs, hs' j' hcache'⟩, h⟩
      | none =>
        have hselect := husable.selects (hname hcache') (by simp [hcache])
        obtain ⟨q, hfind, hq⟩ := h.found hgrows hs hcache'
        rw [resolve_found hselect hcache' hfind]
        exact .ok ⟨.inr ⟨name, hs, hq⟩, h.remember_shorter he hs hq⟩
  | none =>
    have hcache' : p'.cache name = none := by
      have hsame := h.cache name
      rw [hcache] at hsame
      exact hsame.none
    have hview : (c.view p.work).persons = (c.view p'.work).persons := by
      rw [Context.view, Context.view, h.persons]
    cases hselect : c.fault .getByName with
    | some exc =>
      rw [resolve_failed hselect hcache, resolve_failed hselect hcache']
      exact .error exc exc
    | none =>
      cases hfind : (c.view p.work).persons.rows.find? fun q => q.fullName = name with
      | some q =>
        rw [resolve_found hselect hcache hfind, resolve_found hselect hcache' (hview ▸ hfind)]
        exact .ok ⟨.inl rfl, h.remember name q.id⟩
      | none =>
        rw [resolve_created hselect hcache hfind,
          resolve_created hselect hcache' (hview ▸ hfind)]
        refine Alike.map (execute_insertPerson_alike h.persons).attempt ?_
        rintro - - ⟨hnew, rfl, rfl⟩
        exact ⟨.inl rfl, h.create hnew⟩

theorem Agree.face_ids (h : Agree dead names moments committed p p') :
    p.work.faces.rows.map (fun f => f.id) = p'.work.faces.rows.map fun f => f.id := by
  have hfaces := h.faces
  generalize p.work.faces.rows = l at hfaces
  generalize p'.work.faces.rows = l' at hfaces
  induction hfaces with
  | nil => rfl
  | cons hf _ ih => rw [List.map_cons, List.map_cons, hf.id, ih]

theorem Agree.face_absent (h : Agree dead names moments committed p p') (id : UUID) :
    p.work.faces.get? id = none ↔ p'.work.faces.get? id = none := by
  have hmem : ∀ t : Table Face, t.get? id = none ↔ id ∉ t.rows.map fun f => f.id := by
    intro t
    simp [Table.get?_eq_none]
  rw [hmem, hmem, h.face_ids]

/-- The foreign key finds a person in both runs or in neither. -/
theorem Agree.person_present (h : Agree dead names (c.others :: moments) committed p p')
    {i j : UUID} (hij : SamePerson (Settled (c.others :: moments) committed p.work.persons) i j) :
    ((c.view p.work).persons.get? i).isSome = ((c.view p'.work).persons.get? j).isSome := by
  have hview : (c.view p.work).persons = (c.view p'.work).persons := by
    rw [Context.view, Context.view, h.persons]
  rw [← hview]
  have hpresent : ∀ {i name}, Settled (c.others :: moments) committed p.work.persons i name →
      ((c.view p.work).persons.get? i).isSome = true := by
    intro i name hs
    have hnow := (hs c.others List.mem_cons_self).2
    rw [nameOf_view, Option.map_eq_some_iff] at hnow
    obtain ⟨q, hq, -⟩ := hnow
    rw [hq]
    rfl
  rcases hij with rfl | ⟨name, hi, hj⟩
  · rfl
  · rw [hpresent hi, hpresent hj]

theorem insertFace_agree (h : Agree dead names (c.others :: moments) committed p p') {f f' : Face}
    (hf : SameFace (Settled (c.others :: moments) committed p.work.persons) f f') :
    Alike (fun new new' =>
      Agree dead names (c.others :: moments) committed ⟨new, p.cache⟩ ⟨new', p'.cache⟩)
      (execute c (.insertFace f) p.work) (execute c (.insertFace f') p'.work) := by
  have hiff : (∃ ws, insertFace f (c.view p.work) = .ok ws) ↔
      ∃ ws, insertFace f' (c.view p'.work) = .ok ws := by
    rw [insertFace_succeeds_iff, insertFace_succeeds_iff, hf.imagePath,
      h.person_present hf.person, Option.isNone_iff_eq_none, Option.isNone_iff_eq_none, hf.id]
    exact and_congr_right fun _ => and_congr_right fun _ => h.face_absent f'.id
  have hrun : Statement.run (.insertFace f) (c.view p.work) = insertFace f (c.view p.work) := rfl
  have hrun' : Statement.run (.insertFace f') (c.view p'.work) =
      insertFace f' (c.view p'.work) := rfl
  rw [execute, execute, hrun, hrun']
  cases hws : insertFace f (c.view p.work) with
  | error e =>
    cases hws' : insertFace f' (c.view p'.work) with
    | error e' => exact .error e e'
    | ok ws' =>
      obtain ⟨ws, hok⟩ := hiff.2 ⟨ws', hws'⟩
      rw [hws] at hok
      cases hok
  | ok ws =>
    obtain ⟨ws', hws'⟩ := hiff.1 ⟨ws, hws⟩
    rw [hws']
    obtain ⟨person, -, hnew, rfl⟩ := insertFace_ok hws
    obtain ⟨person', -, hnew', rfl⟩ := insertFace_ok hws'
    refine .ok ⟨h.persons, h.logs, ?_, h.cache, h.extends_committed, h.created_cached⟩
    have hrows : (p.work.faces.put { f with isActive := person.isActive }).rows =
        p.work.faces.rows ++ [{ f with isActive := person.isActive }] :=
      Table.rows_put_of_new hnew
    have hrows' : (p'.work.faces.put { f' with isActive := person'.isActive }).rows =
        p'.work.faces.rows ++ [{ f' with isActive := person'.isActive }] :=
      Table.rows_put_of_new hnew'
    show List.Forall₂ _ (p.work.faces.put _).rows (p'.work.faces.put _).rows
    rw [hrows, hrows']
    exact List.rel_append h.faces (.cons ⟨hf.id, hf.imagePath, hf.person⟩ .nil)

/-- Two runs give an image the same fate, and agree after it. -/
inductive SameFate (R : Progress → Progress → Prop) : Fate → Fate → Prop
  | enrolled {q q' : Progress} (h : R q q') : SameFate R (.enrolled q) (.enrolled q')
  | rejected (exc exc' : Exc) {q q' : Progress} (h : R q q') :
    SameFate R (.rejected exc q) (.rejected exc' q')
  | aborted (exc raised exc' raised' : Exc) {q q' : Progress} (h : R q q') :
    SameFate R (.aborted exc raised q) (.aborted exc' raised' q')

theorem reject_agree (h : Agree dead names moments committed p p') (path : Path) (exc : Exc) :
    SameFate (Agree dead names moments committed) (reject c path exc p) (reject c path exc p') := by
  have halike := @execute_insertLog_alike c (newLog c (importFailure path exc)) _ _ h.logs
  replace halike := @Alike.attempt _ _ _ (c.fault .addLog) _ _ _ halike
  rw [reject, reject]
  generalize attempt (c.fault .addLog) (execute c _ p.work) = r at halike ⊢
  generalize attempt (c.fault .addLog) (execute c _ p'.work) = r' at halike ⊢
  obtain ⟨e, e'⟩ | ⟨rfl, rfl⟩ := halike
  · exact .aborted exc e exc e' h
  · refine .rejected exc exc ⟨h.persons, rfl, h.faces, h.cache, h.extends_committed,
      h.created_cached⟩

theorem fate_agree (h : Agree dead names (c.others :: moments) committed p p')
    (hgrows : (c.others :: moments).Pairwise Grows) (path : Path)
    (husable : ∀ r, analyse env path = .ok r → Usable dead names c name p) :
    SameFate (Agree dead names (c.others :: moments) committed) (fate env c name path p)
      (fate env c name path p') := by
  rw [fate, fate]
  cases hanalyse : analyse env path with
  | error exc => exact reject_agree h path exc
  | ok r =>
    obtain ⟨image, result⟩ := r
    have hresolve := resolve_agree h hgrows (husable _ hanalyse)
    dsimp only
    generalize resolve c name p = r at hresolve ⊢
    generalize resolve c name p' = r' at hresolve ⊢
    obtain ⟨e, e'⟩ | @⟨⟨i, q⟩, ⟨j, q'⟩, hperson, hq⟩ := hresolve
    · exact .aborted e pendingRollback e' pendingRollback h
    · dsimp only at hperson hq ⊢
      cases env.makeFaceThumbnail image result.detection.bbox with
      | error exc => exact reject_agree hq path exc
      | ok thumbnail =>
        have hsame : SameFace (Settled (c.others :: moments) committed q.work.persons)
            (newFace c i path result thumbnail) (newFace c j path result thumbnail) :=
          ⟨rfl, rfl, hperson⟩
        have hface := @Alike.attempt _ _ _ (c.fault .addFace) _ _ _ (insertFace_agree hq hsame)
        dsimp only
        generalize attempt (c.fault .addFace) (execute c _ q.work) = r at hface ⊢
        generalize attempt (c.fault .addFace) (execute c _ q'.work) = r' at hface ⊢
        obtain ⟨e, e'⟩ | hq' := hface
        · exact .aborted e pendingRollback e' pendingRollback hq
        · exact .enrolled hq'

end

/-! ### A remaining batch -/

/-- The rows of others while an image is processed. -/
def momentOf (env : ImportEnv) (pair : Pair) : List Person := (env.imageContext pair.2).others

/-- Every image of a batch that comes to resolving its person can use `person_cache`. -/
def UsesLive (env : ImportEnv) (dead : List UUID) (names : List String) (batch : Batch) :
    List Pair → Progress → Prop
  | [], _ => True
  | (name, path) :: images, p =>
    (∀ r, analyse env path = .ok r → Usable dead names (contextOf env batch path) name p) ∧
    match fate env (contextOf env batch path) name path p with
    | .enrolled q => UsesLive env dead names batch images q
    | .rejected _ q => UsesLive env dead names batch images q
    | .aborted _ _ _ => True

section
variable {env : ImportEnv} {dead : List UUID} {names : List String} {moments : List (List Person)}
  {committed : Table Person} {batch : Batch}

theorem images_agree {images : List Pair} {p p' : Progress}
    (h : Agree dead names (images.map (momentOf env) ++ moments) committed p p')
    (hgrows : (images.map (momentOf env) ++ moments).Pairwise Grows)
    (hlive : UsesLive env dead names batch images p) :
    (imagesFate env batch images p).1.isSome = (imagesFate env batch images p').1.isSome ∧
      Agree dead names moments committed (imagesFate env batch images p).2
        (imagesFate env batch images p').2 := by
  induction images generalizing p p' with
  | nil => exact ⟨rfl, h⟩
  | cons pair images ih =>
    obtain ⟨name, path⟩ := pair
    obtain ⟨husable, hlive⟩ := hlive
    have hfate := fate_agree (c := contextOf env batch path) h hgrows path husable
    rw [imagesFate, imagesFate]
    generalize fate env (contextOf env batch path) name path p = r at hfate hlive ⊢
    generalize fate env (contextOf env batch path) name path p' = r' at hfate ⊢
    have hsub : images.map (momentOf env) ++ moments ⊆
        (((name, path) :: images).map (momentOf env)) ++ moments :=
      List.subset_cons_self _ _
    have hrest := (List.pairwise_cons.1 hgrows).2
    cases hfate with
    | enrolled hq => exact ih (hq.mono hsub) hrest hlive
    | rejected _ _ hq => exact ih (hq.mono hsub) hrest hlive
    | aborted _ _ _ _ hq =>
      exact ⟨rfl, hq.mono (List.Subset.trans (List.subset_append_right _ _) hsub)⟩

theorem batch_agree {p p' : Progress}
    (h : Agree dead names (batch.map (momentOf env) ++ moments) p.work.persons p p')
    (hgrows : (batch.map (momentOf env) ++ moments).Pairwise Grows)
    (hlive : UsesLive env dead names batch batch p) :
    raises env batch p = raises env batch p' ∧
      Agree dead names moments (batchAfter env batch p).work.persons (batchAfter env batch p)
        (batchAfter env batch p') := by
  obtain ⟨hfails, hq⟩ := images_agree h hgrows hlive
  have hrolls : rollsBack env batch p = rollsBack env batch p' := by
    rw [rollsBack, rollsBack, hfails]
  refine ⟨by rw [raises, raises, hrolls], ?_⟩
  rw [batchAfter, batchAfter, ← hrolls]
  cases rollsBack env batch p with
  | true =>
    exact
      { persons := h.persons
        logs := h.logs
        faces := h.faces.imp fun _ _ hf => hf.mono fun _ _ hs =>
          hs.mono (List.subset_append_right _ _)
        cache := fun name => (hq.cache name).imp fun _ hs => hs.rolledBack
        extends_committed := fun _ hq => hq
        created_cached := fun _ hq => .inl hq }
  | false =>
    exact
      { persons := hq.persons
        logs := hq.logs
        faces := hq.faces.imp fun _ _ hf => hf.mono fun _ _ hs => hs.published
        cache := fun name => (hq.cache name).imp fun _ hs => hs.published
        extends_committed := fun _ hq => hq
        created_cached := fun _ hq => .inl hq }

end

/-! ### A batch that is taken out -/

/-- The ids the images of a batch draw for new persons. -/
def drawn (env : ImportEnv) (batch : Batch) : List UUID :=
  batch.map fun pair => (env.imageContext pair.2).personId

/-- The longer run within a batch that will be rolled back, the shorter one has the cache
`cache'`. -/
structure Doomed (dead : List UUID) (names : List String) (moments : List (List Person))
    (committed : Table Person) (cache' : PersonCache) (p : Progress) : Prop where
  cache : ∀ name, SameEntry (Settled moments committed committed) dead names name (p.cache name)
    (cache' name)
  extends_committed : ∀ q ∈ committed.rows, q ∈ p.work.persons.rows
  created_dead : ∀ q ∈ p.work.persons.rows, q ∈ committed.rows ∨ q.id ∈ dead

def Fate.after : Fate → Progress
  | .enrolled q => q
  | .rejected _ q => q
  | .aborted _ _ q => q

section
variable {env : ImportEnv} {c : Context} {dead : List UUID} {names : List String}
  {moments : List (List Person)} {committed : Table Person} {cache' : PersonCache}
  {p q : Progress} {name : String}

theorem Doomed.mono {moments' : List (List Person)}
    (h : Doomed dead names moments committed cache' p) (hm : moments' ⊆ moments) :
    Doomed dead names moments' committed cache' p :=
  ⟨fun name => (h.cache name).imp fun _ hs => hs.mono hm, h.extends_committed, h.created_dead⟩

theorem Doomed.of_eq (h : Doomed dead names moments committed cache' p)
    (hpersons : q.work.persons = p.work.persons) (hcache : q.cache = p.cache) :
    Doomed dead names moments committed cache' q :=
  ⟨hcache ▸ h.cache, hpersons ▸ h.extends_committed, hpersons ▸ h.created_dead⟩

/-- The longer run puts an id into the cache that is dead or stays. -/
theorem Doomed.remember (h : Doomed dead names moments committed cache' p)
    (hcache : p.cache name = none) (hname : name ∈ names) {id : UUID}
    (hid : id ∈ dead ∨ Settled moments committed committed id name) :
    Doomed dead names moments committed cache'
      ⟨p.work, Function.update p.cache name (some id)⟩ where
  cache n := by
    by_cases hn : n = name
    · subst hn
      have hnone : cache' n = none := by
        have hsame := h.cache n
        rw [hcache] at hsame
        exact hsame.none
      show SameEntry _ dead names n (Function.update p.cache n (some id) n) (cache' n)
      rw [Function.update_self, hnone]
      rcases hid with hid | hid
      · exact .inl ⟨id, hid, rfl⟩
      · exact .inr (.inr ⟨id, rfl, hid, fun j hj => (by cases hj), fun _ => hname⟩)
    · simpa [hn] using h.cache n
  extends_committed := h.extends_committed
  created_dead := h.created_dead

theorem Doomed.create (h : Doomed dead names moments committed cache' p) {r : Person}
    (hdead : r.id ∈ dead) {others : List Person}
    (hnew : nameOf others p.work.persons r.id = none) :
    Doomed dead names moments committed cache'
      ⟨{ p.work with persons := p.work.persons.put r }, p.cache⟩ where
  cache := h.cache
  extends_committed q hq := mem_put_of_new (h.extends_committed q hq) hnew
  created_dead q hq := by
    rcases Table.mem_put.1 hq with rfl | ⟨hq, -⟩
    · exact .inr hdead
    · exact h.created_dead q hq

theorem resolve_doomed (h : Doomed dead names (c.others :: moments) committed cache' p)
    (hgrows : (c.others :: moments).Pairwise Grows) (hdead : c.personId ∈ dead)
    (hname : name ∈ names) {id : UUID} (hresolve : resolve c name p = .ok (id, q)) :
    Doomed dead names (c.others :: moments) committed cache' q := by
  rw [resolve] at hresolve
  split at hresolve
  · cases hresolve
    exact h
  next hcache =>
    split at hresolve
    · cases hresolve
    next r hfound =>
      cases hresolve
      obtain ⟨hr, rfl⟩ := find?_name (Except.ok.inj (attempt_eq_ok.1 hfound).2)
      refine h.remember hcache hname ?_
      rcases found_settled hr h.extends_committed hgrows with ⟨hown, hc⟩ | hs
      · exact .inl ((h.created_dead r hown).resolve_left hc)
      · exact .inr hs.rolledBack
    · dsimp only at hresolve
      split at hresolve
      · cases hresolve
      next work hwork =>
        cases hresolve
        have halike := @execute_insertPerson_alike c
          (PersonRepository.newPerson c name none .emptyObject) p.work p.work rfl
        rw [(attempt_eq_ok.1 hwork).2] at halike
        obtain - | ⟨hnew, rfl, -⟩ := halike
        exact (h.remember hcache hname (.inl hdead)).create hdead hnew

theorem reject_after (path : Path) (exc : Exc) :
    (reject c path exc p).after.work.persons = p.work.persons ∧
      (reject c path exc p).after.cache = p.cache := by
  have halike := @execute_insertLog_alike c (newLog c (importFailure path exc)) p.work p.work rfl
  replace halike := @Alike.attempt _ _ _ (c.fault .addLog) _ _ _ halike
  rw [reject]
  generalize attempt (c.fault .addLog) (execute c _ p.work) = r at halike ⊢
  obtain ⟨e, e'⟩ | ⟨rfl, -⟩ := halike
  · exact ⟨rfl, rfl⟩
  · exact ⟨rfl, rfl⟩

theorem execute_insertFace_persons {f : Face} {db db' : Database}
    (h : execute c (.insertFace f) db = .ok db') : db'.persons = db.persons := by
  obtain ⟨ws, hrun, rfl⟩ := execute_eq_ok.1 h
  obtain ⟨person, -, -, rfl⟩ := insertFace_ok hrun
  rfl

theorem fate_doomed (h : Doomed dead names (c.others :: moments) committed cache' p)
    (hgrows : (c.others :: moments).Pairwise Grows) (hdead : c.personId ∈ dead)
    (hname : name ∈ names) (path : Path) :
    Doomed dead names (c.others :: moments) committed cache' (fate env c name path p).after := by
  rw [fate]
  cases analyse env path with
  | error exc => exact h.of_eq (reject_after path exc).1 (reject_after path exc).2
  | ok r =>
    obtain ⟨image, result⟩ := r
    dsimp only
    cases hresolve : resolve c name p with
    | error e => exact h
    | ok r =>
      obtain ⟨id, q⟩ := r
      have hq := resolve_doomed h hgrows hdead hname hresolve
      dsimp only
      cases env.makeFaceThumbnail image result.detection.bbox with
      | error exc => exact hq.of_eq (reject_after path exc).1 (reject_after path exc).2
      | ok thumbnail =>
        dsimp only
        cases hface : attempt (c.fault .addFace)
            (execute c (.insertFace (newFace c id path result thumbnail)) q.work) with
        | error exc => exact hq
        | ok work =>
          exact hq.of_eq (execute_insertFace_persons (attempt_eq_ok.1 hface).2) rfl

theorem images_doomed (batch : Batch) {images : List Pair}
    (h : Doomed dead names (images.map (momentOf env) ++ moments) committed cache' p)
    (hgrows : (images.map (momentOf env) ++ moments).Pairwise Grows)
    (hdead : drawn env images ⊆ dead) (hnames : images.map Prod.fst ⊆ names) :
    Doomed dead names moments committed cache' (imagesFate env batch images p).2 := by
  induction images generalizing p with
  | nil => exact h
  | cons pair images ih =>
    obtain ⟨name, path⟩ := pair
    have hfate : Doomed dead names (((name, path) :: images).map (momentOf env) ++ moments)
        committed cache' (fate env (contextOf env batch path) name path p).after :=
      fate_doomed (c := contextOf env batch path) h hgrows (hdead List.mem_cons_self)
        (hnames List.mem_cons_self) path
    have hsub : images.map (momentOf env) ++ moments ⊆
        (((name, path) :: images).map (momentOf env)) ++ moments :=
      List.subset_cons_self _ _
    have hrest := (List.pairwise_cons.1 hgrows).2
    have hdrawn : drawn env images ⊆ dead := List.Subset.trans (List.subset_cons_self _ _) hdead
    have hnamed : images.map Prod.fst ⊆ names :=
      List.Subset.trans (List.subset_cons_self _ _) hnames
    rw [imagesFate]
    cases hf : fate env (contextOf env batch path) name path p with
    | enrolled q =>
      rw [hf] at hfate
      exact ih (hfate.mono hsub) hrest hdrawn hnamed
    | rejected _ q =>
      rw [hf] at hfate
      exact ih (hfate.mono hsub) hrest hdrawn hnamed
    | aborted _ _ q =>
      rw [hf] at hfate
      exact hfate.mono (List.Subset.trans (List.subset_append_right _ _) hsub)

theorem batch_doomed {batch : Batch} {p' : Progress}
    (h : Agree dead names (batch.map (momentOf env) ++ moments) p.work.persons p p')
    (hgrows : (batch.map (momentOf env) ++ moments).Pairwise Grows)
    (hrolls : rollsBack env batch p = true) :
    Agree (dead ++ drawn env batch) (names ++ batch.map Prod.fst) moments
      (batchAfter env batch p).work.persons (batchAfter env batch p) p' := by
  have hdoomed : Doomed (dead ++ drawn env batch) (names ++ batch.map Prod.fst)
      (batch.map (momentOf env) ++ moments) p.work.persons p'.cache p :=
    ⟨fun name => (h.cache name).mono (fun _ hs => hs) (List.subset_append_left _ _)
      (List.subset_append_left _ _), fun _ hq => hq, fun _ hq => .inl hq⟩
  have hq := images_doomed batch hdoomed hgrows (List.subset_append_right _ _)
    (List.subset_append_right _ _)
  rw [batchAfter, if_pos hrolls]
  exact
    { persons := h.persons
      logs := h.logs
      faces := h.faces.imp fun _ _ hf => hf.mono fun _ _ hs =>
        hs.mono (List.subset_append_right _ _)
      cache := hq.cache
      extends_committed := fun _ hq => hq
      created_cached := fun _ hq => .inl hq }

end

/-! ### A run without some batches that are rolled back -/

/-- The batches that are not marked. -/
def kept (marked : List (Batch × Bool)) : List Batch :=
  (marked.filter fun b => !b.2).map Prod.fst

/-- The marked batches are rolled back, and the run goes on after them. -/
def RolledBack (env : ImportEnv) : List (Batch × Bool) → Progress → Prop
  | [], _ => True
  | (batch, out) :: marked, p =>
    (out = true → rollsBack env batch p = true ∧ raises env batch p = false) ∧
      (raises env batch p = false → RolledBack env marked (batchAfter env batch p))

/-- The batches that are not marked can use `person_cache`, with the ids drawn by the marked
batches before them dead. -/
def LiveRun (env : ImportEnv) :
    List UUID → List String → List (Batch × Bool) → Progress → Prop
  | _, _, [], _ => True
  | dead, names, (batch, true) :: marked, p =>
    LiveRun env (dead ++ drawn env batch) (names ++ batch.map Prod.fst) marked
      (batchAfter env batch p)
  | dead, names, (batch, false) :: marked, p => UsesLive env dead names batch batch p ∧
      (raises env batch p = false → LiveRun env dead names marked (batchAfter env batch p))

section
variable {env : ImportEnv} {dead : List UUID} {names : List String} {moments : List (List Person)}

theorem Agree.start (db : Database) :
    Agree [] [] moments db.persons ⟨db, fun _ => none⟩ ⟨db, fun _ => none⟩ where
  persons := rfl
  logs := rfl
  faces := List.forall₂_same.2 fun _ _ => ⟨rfl, rfl, .inl rfl⟩
  cache _ := .inr (.inl rfl)
  extends_committed _ hq := hq
  created_cached _ hq := .inl hq

theorem batches_agree {marked : List (Batch × Bool)} {p p' : Progress}
    (h : Agree dead names ((marked.map Prod.fst).flatten.map (momentOf env) ++ moments)
      p.work.persons p p')
    (hgrows : ((marked.map Prod.fst).flatten.map (momentOf env) ++ moments).Pairwise Grows)
    (hrolled : RolledBack env marked p) (hlive : LiveRun env dead names marked p) :
    ∃ dead' names', Agree dead' names' moments
      (batchesAfter env (marked.map Prod.fst) p).work.persons
      (batchesAfter env (marked.map Prod.fst) p) (batchesAfter env (kept marked) p') := by
  induction marked generalizing dead names p p' with
  | nil => exact ⟨dead, names, h⟩
  | cons b marked ih =>
    obtain ⟨batch, out⟩ := b
    rw [List.map_cons, List.flatten_cons, List.map_append, List.append_assoc] at h hgrows
    have hrest := (List.pairwise_append.1 hgrows).2.1
    obtain ⟨hout, hrolled⟩ := hrolled
    rw [List.map_cons, batchesAfter]
    cases out with
    | true =>
      obtain ⟨hrolls, hraises⟩ := hout rfl
      rw [hraises]
      exact ih (batch_doomed h hgrows hrolls) hrest (hrolled hraises) hlive
    | false =>
      obtain ⟨hbatch, hlive⟩ := hlive
      have hkept : kept ((batch, false) :: marked) = batch :: kept marked := rfl
      obtain ⟨hraise, hagree⟩ := batch_agree h hgrows hbatch
      rw [hkept, batchesAfter, ← hraise]
      cases hraises : raises env batch p with
      | true => exact ⟨dead, names, hagree.mono (List.subset_append_right _ _)⟩
      | false => exact ih hagree hrest (hrolled hraises) (hlive hraises)

theorem Agree.personNames {committed : Table Person} {p p' : Progress}
    (h : Agree dead names moments committed p p') : personNames p.work = personNames p'.work := by
  rw [BulkImportService.personNames, h.persons]
  rfl

theorem Agree.facesByName {committed : Table Person} {p p' : Progress} {others : List Person}
    (h : Agree dead names moments committed p p') (hothers : others ∈ moments) :
    facesByName others p.work = facesByName others p'.work := by
  have hfaces := h.faces
  rw [BulkImportService.facesByName, BulkImportService.facesByName, ← h.persons]
  generalize p.work.faces.rows = l at hfaces ⊢
  generalize p'.work.faces.rows = l' at hfaces ⊢
  induction hfaces with
  | nil => rfl
  | cons hf _ ih =>
    rw [List.map_cons, List.map_cons, ih, hf.imagePath]
    rcases hf.person with he | ⟨name, hi, hj⟩
    · rw [he]
    · rw [(hi others hothers).2, (hj others hothers).2]

theorem collect_kept {size : ℤ} {pairs : List Pair} {marked : List (Batch × Bool)}
    (hmarked : marked.map Prod.fst = collect size [] pairs) :
    collect size [] (kept marked).flatten = kept marked := by
  have hchunked : Chunked (effective size) (collect size [] pairs) :=
    chunked_collect size (by simp [effective]) pairs
  rw [← hmarked] at hchunked
  exact collect_flatten (hchunked.sublist (List.filter_sublist.map _))

end

theorem rolled_back_batches_have_no_effect {env : ImportEnv} {jobId : UUID} {root : Path}
    {pairs : List Pair} {st : ImportState} {marked : List (Batch × Bool)}
    {othersAfter : List Person} (hdir : env.isDir root = .ok true)
    (hpairs : discover env root = .ok pairs)
    (hmarked : marked.map Prod.fst = collect env.batchSize [] pairs)
    (hrolled : RolledBack env marked ⟨st.session.committed, fun _ => none⟩)
    (hothers : (pairs.map (momentOf env) ++ [othersAfter]).Pairwise Grows)
    (hlive : LiveRun env [] [] marked ⟨st.session.committed, fun _ => none⟩) :
    let all := (exec (run env jobId root) st).2.session.committed
    let rest := (exec (importPairs env jobId (kept marked).flatten) st).2.session.committed
    personNames all = personNames rest ∧
      facesByName othersAfter all = facesByName othersAfter rest := by
  have hrun : exec (run env jobId root) st = exec (importPairs env jobId pairs) st := by
    rw [exec_run_of_isDir hdir, exec_bind_ok (by rw [exec_lift, hpairs])]
  have hflat : (marked.map Prod.fst).flatten = pairs := by
    rw [hmarked, flatten_collect, List.nil_append]
  rw [← hflat] at hothers
  obtain ⟨_, _, hagree⟩ := batches_agree (Agree.start st.session.committed) hothers hrolled hlive
  dsimp only
  rw [hrun, importPairs_committed, importPairs_committed, collect_kept hmarked, ← hmarked]
  exact ⟨hagree.personNames, hagree.facesByName List.mem_cons_self⟩

/-! ### Two folders with one image, and one folder with two -/

def bobPhotos : Path := ⟨["photos", "Bob"]⟩

def bobPhoto : Path := ⟨["photos", "Bob", "1.jpg"]⟩

def secondPhoto : Path := ⟨["photos", "Alice", "2.jpg"]⟩

def aliceBatch : Batch := [("Alice", alicePhoto)]

/-- The commit of the first of two batches fails. -/
def firstCommitFails (folder : Path → List Path) : ImportEnv :=
  photosEnv folder 1 fun batch => if batch = aliceBatch then some connectionLost else none

def onePhotoEach (p : Path) : List Path :=
  if p = photos then [alicePhotos, bobPhotos] else if p = alicePhotos then [alicePhoto]
  else if p = bobPhotos then [bobPhoto] else []

def twoPhotos (p : Path) : List Path :=
  if p = photos then [alicePhotos] else if p = alicePhotos then [alicePhoto, secondPhoto] else []

theorem rolledBack_aliceBatch (folder : Path → List Path) (batch : Batch) (p : Progress) :
    RolledBack (firstCommitFails folder) [(aliceBatch, true), (batch, false)] p := by
  refine ⟨fun _ => ⟨?_, ?_⟩, fun _ => ⟨fun h => (by cases h), fun _ => trivial⟩⟩
  · simp [rollsBack, firstCommitFails, photosEnv]
  · simp [raises, firstCommitFails, photosEnv]

theorem grows_of_alone (folder : Path → List Path) (pairs : List Pair) :
    (pairs.map (momentOf (firstCommitFails folder)) ++ [[]]).Pairwise Grows := by
  have hnone : ∀ others ∈ pairs.map (momentOf (firstCommitFails folder)) ++ [[]], others = [] := by
    simp only [List.mem_append, List.mem_map, List.mem_singleton]
    rintro others (⟨pair, -, rfl⟩ | rfl)
    · simp only [momentOf, firstCommitFails, photosEnv]
      split_ifs <;> rfl
    · rfl
  refine List.pairwise_of_forall_mem_list fun others ho others' ho' => ?_
  rw [hnone others ho, hnone others' ho']
  exact fun _ _ h => h

/-- Both images of Alice, a batch each: the first commit fails, and then the second batch uses the
id of the person row that was rolled back with it. -/
theorem rolled_back_batch_spoils_the_next :
    let env := firstCommitFails twoPhotos
    let marked := [(aliceBatch, true), ([("Alice", secondPhoto)], false)]
    ∃ pairs, discover env photos = .ok pairs ∧
      marked.map Prod.fst = collect env.batchSize [] pairs ∧
      RolledBack env marked ⟨freshJob.session.committed, fun _ => none⟩ ∧
      (pairs.map (momentOf env) ++ [[]]).Pairwise Grows ∧
      personNames (exec (run env 3 photos) freshJob).2.session.committed = [] ∧
      personNames (exec (importPairs env 3 (kept marked).flatten) freshJob).2.session.committed =
        ["Alice"] := by
  refine ⟨[("Alice", alicePhoto), ("Alice", secondPhoto)], ?_, ?_, ?_, ?_, ?_, ?_⟩
  · decide +kernel
  · decide +kernel
  · exact rolledBack_aliceBatch twoPhotos _ _
  · exact grows_of_alone twoPhotos _
  · decide +kernel
  · decide +kernel

def aliceThenBob : List (Batch × Bool) := [(aliceBatch, true), ([("Bob", bobPhoto)], false)]

theorem liveRun_aliceThenBob : LiveRun (firstCommitFails onePhotoEach) [] [] aliceThenBob
    ⟨freshJob.session.committed, fun _ => none⟩ := by
  have hcache : (batchAfter (firstCommitFails onePhotoEach) aliceBatch
      ⟨freshJob.session.committed, fun _ => none⟩).cache "Bob" = none := by decide +kernel
  refine ⟨⟨fun _ _ => ⟨fun i _ => ?_, fun _ h => absurd hcache h⟩, ?_⟩, fun _ => trivial⟩
  · rw [hcache]
    exact Option.some_ne_none i |>.symm
  · split <;> trivial

theorem rolled_back_alice_does_not_touch_bob :
    let env := firstCommitFails onePhotoEach
    let all := (exec (run env 3 photos) freshJob).2.session.committed
    let rest := (exec (importPairs env 3 (kept aliceThenBob).flatten) freshJob).2.session.committed
    personNames all = personNames rest ∧ facesByName [] all = facesByName [] rest := by
  have hpairs : discover (firstCommitFails onePhotoEach) photos =
      .ok [("Alice", alicePhoto), ("Bob", bobPhoto)] := by decide +kernel
  have hmarked : aliceThenBob.map Prod.fst =
      collect (firstCommitFails onePhotoEach).batchSize []
        [("Alice", alicePhoto), ("Bob", bobPhoto)] := by decide +kernel
  exact rolled_back_batches_have_no_effect (by decide +kernel) hpairs hmarked
    (rolledBack_aliceBatch onePhotoEach _ _) (grows_of_alone onePhotoEach _) liveRun_aliceThenBob

end FaceRecognition.Services.BulkImportService
