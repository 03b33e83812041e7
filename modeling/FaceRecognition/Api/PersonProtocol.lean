import FaceRecognition.Api.PersonTasks

/-!
# The protocol of the person endpoints

What the statements do to the rows (`rowwise`) and to the index on the external ids (`checked`), and
what a request may call. It executes at most one statement, and makes it from the row that it was
shown (`Task.Allows`); `Task.Told` is what has been said when its handler ends.
-/

namespace FaceRecognition.Api.PersonTasks

open Relational Db UnitOfWork ReadCommitted Client
open Services.RecognitionService (personNotFound)

/-! ### The rows -/

def stored (db : Database) (id : UUID) : Option Person := db.persons.get? id

def rowOf (id : UUID) : IndexedRow := .inl (.person id)

theorem reads_stored (id : UUID) : Reads indexedEngine (fun db => stored db id) (rowOf id) where
  other db w hw := by
    cases w with
    | inl w => exact (reads_person id).other db w fun he => hw (congrArg Sum.inl he)
    | inr externalId => rfl
  own db db' w hw := by
    cases w with
    | inl w => exact (reads_person id).own db db' w (Sum.inl.inj hw)
    | inr externalId => cases hw

theorem stored_put {db db' : Database} {person : Person}
    (h : db'.persons = db.persons.put person) :
    stored db' = Function.update (stored db) person.id (some person) := by
  funext id
  rw [stored, h, Table.get?_put, Function.update_apply]
  exact if_congr eq_comm rfl rfl

theorem stored_erase {db db' : Database} {id : UUID} (h : db'.persons = db.persons.erase id) :
    stored db' = Function.update (stored db) id none := by
  funext id'
  rw [stored, h, Table.get?_erase, Function.update_apply]
  rfl

section
variable {q : PersonStatement} {db : Database} {ws : List Write}

theorem run_update {id : UUID} {s : PersonSet} {now : Time}
    (h : (PersonStatement.update id s now).run db = .ok ws) :
    ∃ old, stored db id = some old ∧ s.Admissible old db ∧
      stored (applyAll db ws) = Function.update (stored db) id (some (s.applyTo now old)) ∧
      .putPerson (s.applyTo now old) ∈ ws := by
  obtain ⟨old, hold, hadmissible, rfl⟩ := updatePerson_eq_ok.1 h
  obtain rfl : old.id = id := Table.pk_of_get? hold
  exact ⟨old, hold, hadmissible, stored_put (persons_updated _ _), List.mem_cons_self⟩

theorem run_delete {id : UUID} (h : (PersonStatement.delete id).run db = .ok ws) :
    (stored db id = none ∧ ws = []) ∨ ∃ old, stored db id = some old ∧
      stored (applyAll db ws) = Function.update (stored db) id none ∧ .dropPerson id ∈ ws := by
  simp only [PersonStatement.run] at h
  split at h
  next hnone =>
    cases h
    exact .inl ⟨hnone, rfl⟩
  next old hold =>
    cases h
    refine .inr ⟨old, hold, stored_erase ?_, by simp⟩
    rw [applyAll, Engine.applyAll_append]
    show (applyAll db _).persons.erase id = _
    rw [persons_applyAll]
    intro w hw id' he
    obtain ⟨f, -, rfl⟩ := List.mem_map.1 hw
    cases he

theorem changes_delete_gone {id : UUID} (h : stored db id = none) :
    (PersonStatement.delete id).changes db = [] := by
  rw [stored] at h
  simp only [PersonStatement.changes, h]

theorem changes_delete_stored {id : UUID} {old : Person} (h : stored db id = some old) :
    (PersonStatement.delete id).changes db = [⟨id, fun _ => none⟩] := by
  rw [stored] at h
  simp only [PersonStatement.changes, h]

theorem stored_run (h : q.run db = .ok ws) :
    stored (applyAll db ws) = play (stored db) (q.changes db) := by
  cases q with
  | insert person =>
    obtain ⟨-, rfl⟩ := insertPerson_ok h
    exact stored_put rfl
  | update id s now =>
    obtain ⟨old, hold, -, hstored, -⟩ := run_update h
    rw [hstored]
    show _ = Function.update (stored db) id (Option.map (s.applyTo now) (stored db id))
    rw [hold]
    rfl
  | delete id =>
    rcases run_delete h with ⟨hnone, rfl⟩ | ⟨old, hold, hstored, -⟩
    · rw [changes_delete_gone hnone]
      rfl
    · rw [hstored, changes_delete_stored hold]
      rfl

theorem run_locks (h : q.run db = .ok ws) :
    ∀ c ∈ q.changes db, ∃ w ∈ ws, w.row = .person c.key := by
  intro c hc
  cases q with
  | insert person =>
    obtain ⟨-, rfl⟩ := insertPerson_ok h
    obtain rfl := List.mem_singleton.1 hc
    exact ⟨_, List.mem_singleton_self _, rfl⟩
  | update id s now =>
    obtain ⟨old, hold, -, -, hput⟩ := run_update h
    obtain rfl := List.mem_singleton.1 hc
    exact ⟨_, hput, congrArg RowId.person (Table.pk_of_get? hold)⟩
  | delete id =>
    rcases run_delete h with ⟨hnone, rfl⟩ | ⟨old, hold, -, hdrop⟩
    · rw [changes_delete_gone hnone] at hc
      cases hc
    · rw [changes_delete_stored hold] at hc
      obtain rfl := List.mem_singleton.1 hc
      exact ⟨_, hdrop, rfl⟩

/-- One change at most. -/
theorem changes_cases (q : PersonStatement) (db : Database) :
    q.changes db = [] ∨ ∃ c, q.changes db = [c] := by
  cases q with
  | insert person => exact .inr ⟨_, rfl⟩
  | update id s now => exact .inr ⟨_, rfl⟩
  | delete id =>
    simp only [PersonStatement.changes]
    split
    · exact .inl rfl
    · exact .inr ⟨_, rfl⟩

end

theorem run_personsDbms {q : PersonStatement} {db : Database} {ws : List IndexedWrite}
    (h : personsDbms.run q db = .ok ws) :
    ∃ ws', q.run db = .ok ws' ∧ ws = ws'.map .inl ++ (q.entries db).map .inr := by
  simp only [personsDbms] at h
  cases hrun : q.run db with
  | error e =>
    rw [hrun] at h
    cases h
  | ok ws' =>
    rw [hrun] at h
    cases h
    exact ⟨ws', rfl, rfl⟩

theorem rowwise : Rowwise personsDbms stored rowOf PersonStatement.changes where
  reads := reads_stored
  run q db ws h := by
    obtain ⟨ws', hrun, rfl⟩ := run_personsDbms h
    rw [← stored_run hrun]
    exact congrArg stored (applyAll_indexed db ws' _)
  locked q db ws h c hc := by
    obtain ⟨ws', hrun, rfl⟩ := run_personsDbms h
    obtain ⟨w, hw, hrow⟩ := run_locks hrun c hc
    exact ⟨.inl w, List.mem_append_left _ (List.mem_map_of_mem hw), congrArg Sum.inl hrow⟩

/-! ### The index on the external ids -/

section
variable {db : Database}

theorem unique_of_free {id : UUID} {externalId : Option String} {person : Person}
    (h : UniqueKeys Person.externalId (stored db)) (hperson : person.externalId = externalId)
    (hfree : externalIdFree db id externalId = true) :
    UniqueKeys Person.externalId (Function.update (stored db) id (some person)) := by
  refine h.update fun r e hr he id' r' hne hr' he' => ?_
  obtain rfl := Option.some.inj hr
  obtain ⟨hmem, hid⟩ := Table.get?_eq_some.1 hr'
  have hsame : r'.id = id :=
    externalIdFree_iff.1 hfree e (hperson.symm.trans he) r' hmem he'
  exact hne (hid.symm.trans hsame)

theorem run_unique {q : PersonStatement} {ws : List Write} (h : q.run db = .ok ws)
    (hunique : UniqueKeys Person.externalId (stored db)) :
    UniqueKeys Person.externalId (stored (applyAll db ws)) := by
  cases q with
  | insert person =>
    obtain ⟨⟨-, -, -, hfree⟩, rfl⟩ := insertPerson_eq_ok.1 h
    rw [show stored (applyAll db [.putPerson person]) = _ from stored_put rfl]
    exact unique_of_free hunique rfl hfree
  | update id s now =>
    obtain ⟨old, hold, hadmissible, hstored, -⟩ := run_update h
    obtain rfl : old.id = id := Table.pk_of_get? hold
    rw [hstored]
    exact unique_of_free hunique rfl hadmissible.externalId_free
  | delete id =>
    rcases run_delete h with ⟨-, rfl⟩ | ⟨old, -, hstored, -⟩
    · exact hunique
    · rw [hstored]
      refine hunique.update fun r e hr => ?_
      cases hr

/-- A statement leaves the rows that it does not change, and holds the entry of the one that it
makes. -/
theorem run_holds {q : PersonStatement} {ws : List Write} (h : q.run db = .ok ws) {id : UUID}
    {person : Person} {externalId : String} (hwritten : ∃ w ∈ ws, w.row = .person id)
    (hperson : stored (applyAll db ws) id = some person)
    (hid : person.externalId = some externalId) : externalId ∈ q.entries db := by
  cases q with
  | insert person' =>
    obtain ⟨-, rfl⟩ := insertPerson_ok h
    obtain ⟨w, hw, hrow⟩ := hwritten
    obtain rfl := List.mem_singleton.1 hw
    obtain rfl : person'.id = id := RowId.person.inj hrow
    have hput : stored (applyAll db [.putPerson person']) person'.id = some person' :=
      Table.get?_put_self db.persons person'
    obtain rfl := Option.some.inj (hput.symm.trans hperson)
    exact Option.mem_toList.2 hid
  | update id' s now =>
    obtain ⟨old, hold, -, rfl⟩ := updatePerson_eq_ok.1 h
    obtain rfl : old.id = id' := Table.pk_of_get? hold
    obtain rfl : id = old.id := by
      obtain ⟨w, hw, hrow⟩ := hwritten
      rcases List.mem_cons.1 hw with rfl | hw
      · exact (RowId.person.inj hrow).symm
      · obtain ⟨f, -, rfl⟩ := mem_personsPropagateIsActive hw
        cases hrow
    obtain ⟨old', hold', -, hstored, -⟩ := run_update h
    obtain rfl := Option.some.inj (hold.symm.trans hold')
    rw [hstored, Function.update_self] at hperson
    obtain rfl := Option.some.inj hperson
    simp only [PersonStatement.entries, hold]
    exact List.mem_append_right _ (Option.mem_toList.2 hid)
  | delete id' =>
    rcases run_delete h with ⟨-, rfl⟩ | ⟨old, -, hstored, -⟩
    · obtain ⟨w, hw, -⟩ := hwritten
      cases hw
    · obtain rfl : id = id' := by
        obtain ⟨w, hw, hrow⟩ := hwritten
        simp only [PersonStatement.run] at h
        split at h
        · cases h
          cases hw
        · cases h
          rcases List.mem_append.1 hw with hw | hw
          · obtain ⟨f, -, rfl⟩ := List.mem_map.1 hw
            cases hrow
          · obtain rfl := List.mem_singleton.1 hw
            exact (RowId.person.inj hrow).symm
      rw [hstored, Function.update_self] at hperson
      cases hperson

end

theorem checked :
    Checks personsDbms stored rowOf Person.externalId (.inr : String → IndexedRow) where
  reads := reads_stored
  run q db ws h hunique := by
    obtain ⟨ws', hrun, rfl⟩ := run_personsDbms h
    have hrows : stored (indexedEngine.applyAll db (ws'.map .inl ++ (q.entries db).map .inr)) =
        stored (applyAll db ws') := congrArg stored (applyAll_indexed db ws' _)
    exact hrows ▸ run_unique hrun hunique
  held q db ws h id person externalId := by
    obtain ⟨ws', hrun, rfl⟩ := run_personsDbms h
    intro hwritten hperson hid
    have hwritten' : ∃ w ∈ ws', w.row = .person id := by
      obtain ⟨w, hw, hrow⟩ := hwritten
      rcases List.mem_append.1 hw with hw | hw
      · obtain ⟨w', hw', rfl⟩ := List.mem_map.1 hw
        exact ⟨w', hw', Sum.inl.inj hrow⟩
      · obtain ⟨e, -, rfl⟩ := List.mem_map.1 hw
        cases hrow
    have hrows : stored (indexedEngine.applyAll db (ws'.map .inl ++ (q.entries db).map .inr)) =
        stored (applyAll db ws') := congrArg stored (applyAll_indexed db ws' _)
    have hentry := run_holds hrun hwritten' ((congrFun hrows id).symm.trans hperson) hid
    exact ⟨.inr externalId, List.mem_append_right _ (List.mem_map_of_mem hentry), rfl⟩

/-! ### What a request may call -/

abbrev PersonEntry := Entry PersonQuery PersonStatement (Option Person) Exc

/-- The request was shown this row. -/
def loaded (id : UUID) (old : Person) : PersonEntry := ⟨.query (.get id), .ok (some old)⟩

/-- It was shown this row first. -/
def Loads (id : UUID) (old : Person) (h : List PersonEntry) : Prop :=
  [⟨.begin, .ok ()⟩, loaded id old] <+: h

theorem Loads.unique {id : UUID} {old old' : Person} {h : List PersonEntry} (hold : Loads id old h)
    (hold' : Loads id old' h) : old = old' := by
  obtain ⟨rest, rfl⟩ := hold
  obtain ⟨rest', heq⟩ := hold'
  cases (List.cons.inj (List.cons.inj heq).2).1
  rfl

/-- No statement has been executed. -/
def Reading (h : List PersonEntry) : Prop := ∀ e ∈ h, ∀ q, e.1 ≠ .flush q

theorem Reading.query {h : List PersonEntry} (hh : Reading h) (a : PersonQuery)
    (r : Except Exc (Option Person)) : Reading (record h (.query a) r) := by
  intro e he q hq
  rcases List.mem_append.1 he with he | he
  · exact hh e he q hq
  · cases List.mem_singleton.1 he
    cases hq

namespace Task

/-- The statement of a request that has been told `h`. -/
def Executes (h : List PersonEntry) : Task → PersonStatement → Prop
  | .create c payload => fun q => q = .insert (payload.row c)
  | .patch c personId payload => fun q =>
    ∃ old, Loads personId old h ∧ q = .update personId (payload.changes old) c.now
  | .delete _ personId => fun q => q = .delete personId

def Allows (task : Task) (h : List PersonEntry) : Call PersonQuery PersonStatement → Prop
  | .flush q => Reading h ∧ task.Executes h q
  | .begin | .query _ | .commit | .rollback | .close => True

/-- The request was shown a row, and has written what it changes in it. -/
def Patched (c : Context) (personId : UUID) (payload : PersonUpdate) (h : List PersonEntry) :
    Prop :=
  ∃ old, Loads personId old h ∧ ((payload.changes old).isEmpty = true ∨
    ⟨.flush (.update personId (payload.changes old) c.now), .ok ()⟩ ∈ h)

/-- What the answer rests on. -/
def Answers (h : List PersonEntry) : Task → Option Person → Prop
  | .create c payload => fun answer =>
    answer = some (payload.row c) ∧ ⟨.flush (.insert (payload.row c)), .ok ()⟩ ∈ h
  | .patch c personId payload => fun answer => ∃ h', Patched c personId payload h' ∧
    h = h' ++ [⟨.query (.get personId), .ok answer⟩]
  | .delete _ personId => fun answer => answer = none ∧ ⟨.flush (.delete personId), .ok ()⟩ ∈ h

/-- What has been said when the handler ends with `r`. -/
structure Told (task : Task) (h : List PersonEntry) (r : Except Exc (Option Person)) : Prop where
  handling : Handling h
  answer : ∀ answer, r = .ok answer → task.Answers h answer

/-- From transcripts with `P`, `p` keeps to the rules and returns with `post`. -/
abbrev Within {α : Type} (task : Task) (P : List PersonEntry → Prop) (p : PersonM α)
    (post : α → List PersonEntry → Prop) : Prop :=
  Lawful task.Allows record (fun h _ => Handling h) (fun h _ => P h) p fun a h _ => post a h

variable (task : Task) {P : List PersonEntry → Prop}

theorem within_query {a : PersonQuery} {Q : Option Person → List PersonEntry → Prop}
    (hP : ∀ h, P h → Handling h) (hpost : ∀ v h, P h → Q v (record h (.query a) (.ok v))) :
    task.Within P (ask (.query a)) Q :=
  lawful_ask (fun _ _ _ => trivial) (fun v h _ hh => hpost v h hh)
    fun _ h _ hh => (hP h hh).record id _

theorem within_flush {q : PersonStatement} {Q : Unit → List PersonEntry → Prop}
    (hP : ∀ h, P h → Handling h ∧ Reading h ∧ task.Executes h q)
    (hpost : ∀ h, P h → Q () (record h (.flush q) (.ok ()))) :
    task.Within P (ask (.flush q)) Q :=
  lawful_ask (fun h _ hh => (hP h hh).2) (fun _ h _ hh => hpost h hh)
    fun _ h _ hh => (hP h hh).1.record id _

theorem within_raiseIfTaken (hP : ∀ h, P h → Handling h)
    (hkeep : ∀ h a v, P h → P (record h (.query a) (.ok v))) (externalId : Option String) :
    task.Within P (raiseIfTaken externalId) fun _ h => P h := by
  cases externalId with
  | none => exact lawful_pure fun _ _ hh => hh
  | some externalId =>
    rw [raiseIfTaken]
    split_ifs
    · exact lawful_pure fun _ _ hh => hh
    · refine lawful_bind (within_query task (Q := fun _ h => P h) hP fun v h hh => hkeep h _ v hh)
        fun found => ?_
      cases found with
      | none => exact lawful_pure fun _ _ hh => hh
      | some person => exact lawful_throw fun h _ hh => hP h hh

theorem within_personRead {c : Context} {metadata : Json} {person : Person}
    (hP : ∀ h, P h → Handling h) :
    task.Within P (raised (personRead c metadata person)) fun p h => p = person ∧ P h := by
  intro h l hh
  cases hread : personRead c metadata person with
  | error e => exact hP h hh
  | ok p => exact ⟨personRead_ok hread, hh⟩

/-- The transcript with which a handler starts. -/
def Opened (h : List PersonEntry) : Prop := h = [⟨.begin, .ok ()⟩]

theorem Opened.handling {h : List PersonEntry} (hh : Opened h) : Handling h :=
  ⟨[], hh, fun _ he => by cases he⟩

theorem Opened.reading {h : List PersonEntry} (hh : Opened h) : Reading h := by
  intro e he q hq
  rw [hh] at he
  cases List.mem_singleton.1 he
  cases hq

theorem within_create (c : Context) (payload : PersonCreate) :
    (Task.create c payload).Within Opened (Task.create c payload).handler fun answer h =>
      Handling h ∧ (Task.create c payload).Answers h answer := by
  have hraise : (Task.create c payload).Within Opened (raiseIfTaken payload.externalId)
      fun _ h => Handling h ∧ Reading h := fun h l hh =>
    within_raiseIfTaken (.create c payload) (P := fun h => Handling h ∧ Reading h)
      (fun _ hh => hh.1) (fun _ _ _ hh => ⟨hh.1.record id _, hh.2.query _ _⟩) payload.externalId h l
      ⟨hh.handling, hh.reading⟩
  have hadd : (Task.create c payload).Within (fun h => Handling h ∧ Reading h)
      (add (payload.row c)) fun person h => person = payload.row c ∧ Handling h ∧
        ⟨.flush (.insert (payload.row c)), .ok ()⟩ ∈ h := by
    have hflush : (Task.create c payload).Within (fun h => Handling h ∧ Reading h)
        (ask (.flush (.insert (payload.row c)))) fun _ h => Handling h ∧
          ⟨.flush (.insert (payload.row c)), .ok ()⟩ ∈ h :=
      within_flush _ (fun h hh => ⟨hh.1, hh.2, rfl⟩) fun h hh =>
        ⟨hh.1.record id _, by simp [record]⟩
    exact lawful_bind hflush fun _ => lawful_pure fun _ _ hh => ⟨rfl, hh⟩
  refine lawful_bind (lawful_bind hraise fun _ => lawful_bind hadd fun person => ?_) fun person =>
    lawful_pure (P := fun h _ => person = payload.row c ∧ Handling h ∧
      ⟨.flush (.insert (payload.row c)), .ok ()⟩ ∈ h) fun h _ hh => ?_
  · intro h l hh
    obtain ⟨rfl, hh⟩ := hh
    exact within_personRead (.create c payload) (fun _ hh => hh.1) h l hh
  · obtain ⟨rfl, hh, hmem⟩ := hh
    exact ⟨hh, rfl, hmem⟩

theorem within_patch (c : Context) (personId : UUID) (payload : PersonUpdate) :
    (Task.patch c personId payload).Within Opened (Task.patch c personId payload).handler
      fun answer h => Handling h ∧ (Task.patch c personId payload).Answers h answer := by
  have hread : ∀ (P : List PersonEntry → Prop), (∀ h, P h → Handling h) →
      (Task.patch c personId payload).Within P (get personId) fun found h =>
        Handling h ∧ ∃ h', P h' ∧ h = h' ++ [⟨.query (.get personId), .ok found⟩] := fun P hP =>
    within_query _ hP fun v h hh => ⟨(hP h hh).record id _, h, hh, rfl⟩
  refine lawful_bind (lawful_bind (hread Opened fun _ => Opened.handling) fun found => ?_)
    fun person => lawful_pure (P := fun h _ => Handling h ∧ ∃ h',
      Patched c personId payload h' ∧ h = h' ++ [loaded personId person]) fun _ _ hh => hh
  cases found with
  | none => exact lawful_throw fun _ _ hh => hh.1
  | some old =>
    -- the row that the changes are made from
    let Shown (h : List PersonEntry) : Prop := Handling h ∧ Reading h ∧ Loads personId old h
    have hraise : (Task.patch c personId payload).Within
        (fun h => Handling h ∧ ∃ h', Opened h' ∧ h = h' ++ [loaded personId old])
        (raiseIfTaken ((payload.changes old).externalId.getD none)) fun _ h => Shown h := by
      rintro _ l ⟨hh, h', hopened, rfl⟩
      refine within_raiseIfTaken _ (P := Shown) (fun _ hh => hh.1) (fun h a v hh => ?_) _ _ l
        ⟨hh, hopened.reading.query _ _, hopened ▸ List.prefix_rfl⟩
      exact ⟨hh.1.record id _, hh.2.1.query _ _, hh.2.2.trans (List.prefix_append _ _)⟩
    have hflush : (Task.patch c personId payload).Within Shown
        (flushPerson c personId (payload.changes old)) fun _ h =>
          Handling h ∧ Patched c personId payload h := by
      rw [flushPerson]
      split_ifs with hempty
      · exact lawful_pure fun _ _ hh => ⟨hh.1, old, hh.2.2, .inl hempty⟩
      · refine within_flush _ (fun h hh => ⟨hh.1, hh.2.1, old, hh.2.2, rfl⟩) fun h hh =>
          ⟨hh.1.record id _, old, hh.2.2.trans (List.prefix_append _ _), .inr ?_⟩
        simp [record]
    refine lawful_bind hraise fun _ => lawful_bind hflush fun _ =>
      lawful_bind (hread _ fun _ hh => hh.1) fun found => ?_
    cases found with
    | none => exact lawful_throw fun _ _ hh => hh.1
    | some person =>
      intro h l hh
      refine (within_personRead _ (P := fun h => Handling h ∧ ∃ h',
        (Handling h' ∧ Patched c personId payload h') ∧ h = h' ++ [loaded personId person])
          (fun _ hh => hh.1) h l hh).mono fun h out hout => ?_
      obtain ⟨e | p, l'⟩ := out
      · exact hout
      · obtain ⟨rfl, hh, h', ⟨-, hpatched⟩, rfl⟩ := hout
        exact ⟨hh, h', hpatched, rfl⟩

theorem within_delete (c : Context) (personId : UUID) :
    (Task.delete c personId).Within Opened (Task.delete c personId).handler
      fun answer h => Handling h ∧ (Task.delete c personId).Answers h answer := by
  have hget : (Task.delete c personId).Within Opened (get personId) fun _ h =>
      Handling h ∧ Reading h :=
    within_query _ (fun _ => Opened.handling) fun v h hh =>
      ⟨hh.handling.record id _, hh.reading.query _ _⟩
  refine lawful_bind (lawful_bind hget fun found => ?_) fun _ =>
    lawful_pure (P := fun h _ => Handling h ∧ ⟨.flush (.delete personId), .ok ()⟩ ∈ h)
      fun _ _ hh => ⟨hh.1, rfl, hh.2⟩
  cases found with
  | none => exact lawful_throw fun _ _ hh => hh.1
  | some person =>
    refine within_flush _ (fun h hh => ⟨hh.1, hh.2, rfl⟩) fun h hh => ⟨hh.1.record id _, ?_⟩
    simp [record]

/-- **The handlers keep to the rules.** -/
theorem handler_told (task : Task) : (go task.handler ()).Obeys task.Allows record
    [⟨.begin, .ok ()⟩] fun h out => task.Told h out.1 := by
  have hwithin : task.Within Opened task.handler fun answer h =>
      Handling h ∧ task.Answers h answer := by
    cases task with
    | create c payload => exact within_create c payload
    | patch c personId payload => exact within_patch c personId payload
    | delete c personId => exact within_delete c personId
  refine (hwithin _ () rfl).mono fun h out hout => ?_
  obtain ⟨e | answer, l⟩ := out
  · exact ⟨hout, fun _ he => by cases he⟩
  · exact ⟨hout.1, fun _ he => Except.ok.inj he ▸ hout.2⟩

end Task

end FaceRecognition.Api.PersonTasks
