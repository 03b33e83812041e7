import FaceRecognition.Api.Persons
import FaceRecognition.Db.Constraints
import FaceRecognition.Services.Statementwise

/-!
# What the person endpoints come to

The result of a create and of an update, and what is committed after it, when nobody else writes and
no call fails. The two look an external id up before they write, and what they find is what the
unique index would refuse (`taken_iff`, `free_iff`), except that an empty one is not looked up.
-/

namespace FaceRecognition.Api

open Relational Db UnitOfWork
open Services.RecognitionService (personNotFound)
open Services.Statementwise (Quiet)

/-! ### Calls that meet no failure -/

section
variable {c : Context} (hc : Quiet c) (committed work : Database)
include hc

theorem exec_select_quiet {α : Type} (site : Site) (f : Database → α) :
    exec (select c site f) ⟨committed, work, false⟩ =
      (.ok (f work), ⟨committed, work, false⟩) := by
  rw [exec_select, hc.fault, Context.view_of_alone hc.others]
  rfl

theorem exec_flushStatement_quiet (site : Site) (q : Statement) :
    exec (flushStatement c site q) ⟨committed, work, false⟩ =
      match q.run work with
      | .error e => (.error e, ⟨committed, work, true⟩)
      | .ok ws => (.ok (), ⟨committed, applyAll work ws, false⟩) := by
  rw [exec_flushStatement, hc.fault, execute, Context.view_of_alone hc.others]
  cases q.run work <;> rfl

end

section
variable {c : Context} (hc : Quiet c) {α : Type} {handler : SessionM α} {db work : Database}
include hc

theorem getDb_returned {a : α} (h : exec handler (Session.begin db) = (.ok a, ⟨db, work, false⟩)) :
    exec (getDb c handler) (Session.begin db) = (.ok a, Session.begin work) := by
  rw [getDb, exec_tryCatch, exec_bind_ok h, hc.fault]
  rfl

theorem getDb_raised {e : Exc} {s : Session Database}
    (h : exec handler (Session.begin db) = (.error e, s)) (hs : s.committed = db) :
    exec (getDb c handler) (Session.begin db) = (.error e, Session.begin db) := by
  subst hs
  rw [getDb, exec_tryCatch, exec_bind_error h, hc.fault]
  rfl

end

/-! ### The look up -/

/-- The external id is looked up, and a person has it. -/
def Taken (db : Database) (externalId : Option String) : Prop :=
  ∃ s, externalId = some s ∧ s ≠ "" ∧ ∃ p ∈ db.persons.rows, p.externalId = some s

section
variable {c : Context} (hc : Quiet c) {externalId : Option String} (committed work : Database)
include hc

theorem raiseIfTaken_taken (h : Taken work externalId) :
    ∃ e : Exc, e.kind = .entityConflictError ∧
      exec (raiseIfTaken c externalId) ⟨committed, work, false⟩ =
        (.error e, ⟨committed, work, false⟩) := by
  obtain ⟨s, rfl, hs, p, hp, hps⟩ := h
  refine ⟨externalIdExists s, rfl, ?_⟩
  have hfind : ((work.persons.rows.find? fun p => p.externalId = some s)).isSome = true :=
    List.find?_isSome.2 ⟨p, hp, decide_eq_true hps⟩
  obtain ⟨q, hq⟩ := Option.isSome_iff_exists.1 hfind
  have hget : exec (PersonRepository.getByExternalId c s) ⟨committed, work, false⟩ =
      (.ok (some q), ⟨committed, work, false⟩) := hq ▸ exec_select_quiet hc committed work _ _
  rw [raiseIfTaken, if_neg hs, exec_bind_ok hget]
  rfl

theorem raiseIfTaken_free (h : ¬ Taken work externalId) :
    exec (raiseIfTaken c externalId) ⟨committed, work, false⟩ =
      (.ok (), ⟨committed, work, false⟩) := by
  cases externalId with
  | none => rfl
  | some s =>
    rw [raiseIfTaken]
    split_ifs with hs
    · rfl
    · have hfind : (work.persons.rows.find? fun p => p.externalId = some s) = none :=
        List.find?_eq_none.2 fun p hp hps => h ⟨s, rfl, hs, p, hp, of_decide_eq_true hps⟩
      have hget : exec (PersonRepository.getByExternalId c s) ⟨committed, work, false⟩ =
          (.ok none, ⟨committed, work, false⟩) := hfind ▸ exec_select_quiet hc committed work _ _
      rw [exec_bind_ok hget]
      rfl

end

/-- A person other than `self` has the external id. -/
def HeldByOther (db : Database) (self : Option UUID) (externalId : Option String) : Prop :=
  ∃ s, externalId = some s ∧ ∃ p ∈ db.persons.rows, self ≠ some p.id ∧ p.externalId = some s

section
variable {db : Database} {payload : PersonUpdate} {old : Person}

theorem taken_of_create {externalId : Option String} :
    Taken db externalId ↔ HeldByOther db none externalId ∧ externalId ≠ some "" := by
  constructor
  · rintro ⟨s, rfl, hs, p, hp, hps⟩
    exact ⟨⟨s, rfl, p, hp, (Option.some_ne_none _).symm, hps⟩, fun h => hs (Option.some.inj h)⟩
  · rintro ⟨⟨s, rfl, p, hp, -, hps⟩, hs⟩
    exact ⟨s, rfl, fun h => hs (congrArg some h), p, hp, hps⟩

/-- An external id that changes. -/
theorem changes_externalId {v : Option String} : (payload.changes old).externalId = some v ↔
    payload.externalId = some v ∧ v ≠ old.externalId := by
  rw [PersonUpdate.changes, Option.filter_eq_some_iff, decide_eq_true_eq]

/-- One that another person has is not the own one. -/
theorem heldByOther_iff (hdb : UniqueExternalIds db) (hold : old ∈ db.persons.rows) {s : String} :
    (∃ p ∈ db.persons.rows, some old.id ≠ some p.id ∧ p.externalId = some s) ↔
      old.externalId ≠ some s ∧ ∃ p ∈ db.persons.rows, p.externalId = some s := by
  constructor
  · rintro ⟨p, hp, hne, hps⟩
    refine ⟨fun hos => hne ?_, p, hp, hps⟩
    rw [externalIdFree_iff.1 (hdb old hold) s hos p hp hps]
  · rintro ⟨hos, p, hp, hps⟩
    refine ⟨p, hp, fun hid => hos ?_, hps⟩
    rw [db.persons.eq_of_pk_eq hold hp (Option.some.inj hid)]
    exact hps

/-- A sent value that is the old one is no change. -/
theorem getD_filter_ne {α : Type} [DecidableEq α] (x : Option α) (a : α) :
    (x.filter fun v => v ≠ a).getD a = x.getD a := by
  cases x with
  | none => rfl
  | some v =>
    rw [Option.filter_some]
    split_ifs with h
    · rfl
    · exact (by simpa using h : v = a).symm

theorem some_getD_filter_ne {α : Type} [DecidableEq α] {x : Option (Option α)} {a : α}
    (h : x ≠ some none) :
    some (((x.filter fun v => v ≠ some a).getD none).getD a) = x.getD (some a) := by
  rw [← getD_filter_ne x (some a)]
  cases hx : x.filter fun v => v ≠ some a with
  | none => rfl
  | some v =>
    cases v with
    | none => exact absurd (Option.filter_eq_some_iff.1 hx).1 h
    | some b => rfl

/-- What a nullable field sends when it is neither absent nor null. -/
theorem getD_none_eq_some {α : Type} {x : Option (Option α)} {a : α} :
    x.getD none = some a ↔ x = some (some a) := by
  cases x <;> simp

theorem taken_iff (hdb : UniqueExternalIds db) (hold : old ∈ db.persons.rows) :
    Taken db ((payload.changes old).externalId.getD none) ↔
      HeldByOther db (some old.id) (payload.externalId.getD none) ∧
        payload.externalId.getD none ≠ some "" := by
  simp only [Taken, HeldByOther, getD_none_eq_some, changes_externalId, heldByOther_iff hdb hold]
  constructor
  · rintro ⟨s, ⟨hsent, hne⟩, hs, hheld⟩
    refine ⟨⟨s, hsent, fun hos => hne hos.symm, hheld⟩, ?_⟩
    rw [hsent]
    exact fun h => hs (Option.some.inj h)
  · rintro ⟨⟨s, hsent, hne, hheld⟩, hs⟩
    rw [hsent] at hs
    exact ⟨s, ⟨hsent, fun h => hne h.symm⟩, fun h => hs (congrArg some h), hheld⟩

theorem free_iff (hdb : UniqueExternalIds db) (hold : old ∈ db.persons.rows) :
    externalIdFree db old.id ((payload.changes old).externalId.getD old.externalId) = true ↔
      ¬ HeldByOther db (some old.id) (payload.externalId.getD none) := by
  have hheld : ∀ s, HeldByOther db (some old.id) (some s) ↔
      ¬ externalIdFree db old.id (some s) = true := by
    intro s
    simp only [HeldByOther, externalIdFree_iff, Option.some.injEq, forall_eq', exists_eq_left',
      ne_eq, not_forall, @eq_comm _ old.id]
    simp only [exists_prop, and_comm]
  have hown := hdb old hold
  cases hsent : payload.externalId with
  | none =>
    have hchange : (payload.changes old).externalId = none := by rw [PersonUpdate.changes, hsent]; rfl
    rw [hchange]
    exact iff_of_true hown fun ⟨s, h, _⟩ => by cases h
  | some sent =>
    have hfinal : (payload.changes old).externalId.getD old.externalId = sent := by
      rw [PersonUpdate.changes, hsent]
      exact getD_filter_ne (some sent) old.externalId
    rw [hfinal]
    cases sent with
    | none =>
      exact iff_of_true (externalIdFree_iff.2 fun s h => by cases h) fun ⟨s, h, _⟩ => by cases h
    | some s => exact (not_iff_comm.1 (hheld s).symm).symm

theorem externalId_fits (hdb : Constrained db) (hold : old ∈ db.persons.rows) :
    fits 128 ((payload.changes old).externalId.getD old.externalId) = true := by
  cases hchange : (payload.changes old).externalId with
  | none => exact (hdb.fits old hold).1
  | some v =>
    cases v with
    | none => rfl
    | some s => exact decide_eq_true (payload.externalId_length s (changes_externalId.1 hchange).1)

theorem fullName_fits (hdb : Constrained db) (hold : old ∈ db.persons.rows) :
    fits 255 ((payload.changes old).fullName.getD (some old.fullName)) = true := by
  cases hchange : (payload.changes old).fullName with
  | none => exact (hdb.fits old hold).2
  | some v =>
    cases v with
    | none => rfl
    | some s =>
      have hsent := (Option.filter_eq_some_iff.1 hchange).1
      exact decide_eq_true (payload.fullName_length s hsent).2

/-- The UPDATE passes the constraints when no null is sent where the column takes none, and the
external id is free. -/
theorem admissible_iff (hdb : Constrained db) (hold : old ∈ db.persons.rows) :
    (payload.changes old).Admissible old db ↔ payload.fullName ≠ some none ∧
      payload.isActive ≠ some none ∧
        ¬ HeldByOther db (some old.id) (payload.externalId.getD none) := by
  have hfullName : (payload.changes old).fullName = some none ↔ payload.fullName = some none := by
    simp [PersonUpdate.changes]
  have hisActive : (payload.changes old).isActive = some none ↔ payload.isActive = some none := by
    simp [PersonUpdate.changes]
  rw [← free_iff hdb.unique hold, ne_eq, ne_eq, ← hfullName, ← hisActive]
  constructor
  · exact fun h => ⟨h.fullName_notNull, h.isActive_notNull, h.externalId_free⟩
  · rintro ⟨hname, hactive, hfree⟩
    exact ⟨externalId_fits hdb hold, fullName_fits hdb hold, hname, hactive, hfree⟩

end

/-! ### Creating -/

/-- The row that a create inserts. -/
def PersonCreate.row (payload : PersonCreate) (c : Context) : Person :=
  PersonRepository.newPerson c payload.fullName payload.externalId payload.metadata

section
variable {c : Context} (hc : Quiet c) {payload : PersonCreate} {db : Database}
include hc

theorem createPerson_taken (h : Taken db payload.externalId) :
    ∃ e : Exc, e.kind = .entityConflictError ∧
      exec (getDb c (createPerson c payload)) (Session.begin db) = (.error e, Session.begin db) := by
  obtain ⟨e, he, hexec⟩ := raiseIfTaken_taken hc db db h
  exact ⟨e, he, getDb_raised hc (exec_bind_error hexec) rfl⟩

theorem createPerson_free (h : ¬ Taken db payload.externalId) :
    exec (getDb c (createPerson c payload)) (Session.begin db) =
      match insertPerson (payload.row c) db with
      | .error e => (.error e, Session.begin db)
      | .ok ws => match personRead c payload.metadata (payload.row c) with
        | .error e => (.error e, Session.begin db)
        | .ok person => (.ok person, Session.begin (applyAll db ws)) := by
  have hlookup := raiseIfTaken_free hc db db h
  have hflush := exec_flushStatement_quiet hc db db .addPerson (.insertPerson (payload.row c))
  rw [Statement.run] at hflush
  cases hrun : insertPerson (payload.row c) db with
  | error e =>
    rw [hrun] at hflush
    have hadd : exec (PersonRepository.add c (payload.row c)) ⟨db, db, false⟩ =
        (.error e, ⟨db, db, true⟩) := exec_bind_error hflush
    exact getDb_raised hc ((exec_bind_ok hlookup).trans (exec_bind_error hadd)) rfl
  | ok ws =>
    rw [hrun] at hflush
    have hadd : exec (PersonRepository.add c (payload.row c)) ⟨db, db, false⟩ =
        (.ok (payload.row c), ⟨db, applyAll db ws, false⟩) := exec_bind_ok hflush
    have hexec : exec (createPerson c payload) (Session.begin db) =
        (personRead c payload.metadata (payload.row c), ⟨db, applyAll db ws, false⟩) :=
      (exec_bind_ok hlookup).trans (exec_bind_ok hadd)
    dsimp only
    cases hread : personRead c payload.metadata (payload.row c) with
    | error e => exact getDb_raised hc (hread ▸ hexec) rfl
    | ok person => exact getDb_returned hc (hread ▸ hexec)

end

/-! ### Updating -/

theorem fst_read {r : Except Exc Person} {s s' : Session Database} :
    (match r with
      | .error e => (.error e, s)
      | .ok person => (.ok person, s') : Except Exc Person × Session Database).1 = r := by
  cases r <;> rfl

section
variable {c : Context} (hc : Quiet c) {payload : PersonUpdate} {db : Database} {old : Person}
include hc

theorem updatePerson_missing {id : UUID} (h : db.persons.get? id = none) :
    exec (getDb c (updatePerson c id payload)) (Session.begin db) =
      (.error (personNotFound id), Session.begin db) := by
  have hget : exec (PersonRepository.get c id) (Session.begin db) = (.ok none, Session.begin db) :=
    h ▸ exec_select_quiet hc db db .getPerson _
  exact getDb_raised hc (exec_bind_ok hget) rfl

theorem updatePerson_taken {id : UUID} (hold : db.persons.get? id = some old)
    (h : Taken db ((payload.changes old).externalId.getD none)) :
    ∃ e : Exc, e.kind = .entityConflictError ∧
      exec (getDb c (updatePerson c id payload)) (Session.begin db) =
        (.error e, Session.begin db) := by
  have hget : exec (PersonRepository.get c id) (Session.begin db) =
      (.ok (some old), Session.begin db) := hold ▸ exec_select_quiet hc db db .getPerson _
  obtain ⟨e, he, hexec⟩ := raiseIfTaken_taken hc db db h
  exact ⟨e, he, getDb_raised hc ((exec_bind_ok hget).trans (exec_bind_error hexec)) rfl⟩

/-- The end of an update: the row is loaded again and put into the response model. -/
theorem updatePerson_loaded {id : UUID} {work : Database} {new : Person}
    (hold : db.persons.get? id = some old)
    (h : ¬ Taken db ((payload.changes old).externalId.getD none))
    (hflush : exec (flushPerson c id (payload.changes old)) (Session.begin db) =
      (.ok (), ⟨db, work, false⟩)) (hnew : work.persons.get? id = some new) :
    exec (getDb c (updatePerson c id payload)) (Session.begin db) =
      match personRead c new.metadata.reloaded new with
      | .error e => (.error e, Session.begin db)
      | .ok new => (.ok new, Session.begin work) := by
  have hget : exec (PersonRepository.get c id) (Session.begin db) =
      (.ok (some old), Session.begin db) := hold ▸ exec_select_quiet hc db db .getPerson _
  have hload : exec (PersonRepository.get c id) ⟨db, work, false⟩ =
      (.ok (some new), ⟨db, work, false⟩) := hnew ▸ exec_select_quiet hc db work .getPerson _
  have hexec : exec (updatePerson c id payload) (Session.begin db) =
      (personRead c new.metadata.reloaded new, ⟨db, work, false⟩) :=
    (exec_bind_ok hget).trans ((exec_bind_ok (raiseIfTaken_free hc db db h)).trans
      ((exec_bind_ok hflush).trans (exec_bind_ok hload)))
  cases hread : personRead c new.metadata.reloaded new with
  | error e => exact getDb_raised hc (hread ▸ hexec) rfl
  | ok new => exact getDb_returned hc (hread ▸ hexec)

theorem updatePerson_unchanged {id : UUID} (hold : db.persons.get? id = some old)
    (h : ¬ Taken db ((payload.changes old).externalId.getD none))
    (hempty : (payload.changes old).isEmpty = true) :
    exec (getDb c (updatePerson c id payload)) (Session.begin db) =
      match personRead c old.metadata.reloaded old with
      | .error e => (.error e, Session.begin db)
      | .ok old => (.ok old, Session.begin db) :=
  updatePerson_loaded hc hold h (by rw [flushPerson, if_pos hempty]; rfl) hold

theorem updatePerson_refused {id : UUID} {e : Exc} (hold : db.persons.get? id = some old)
    (h : ¬ Taken db ((payload.changes old).externalId.getD none))
    (hempty : (payload.changes old).isEmpty = false)
    (hrun : Db.updatePerson id (payload.changes old) c.now db = .error e) :
    exec (getDb c (updatePerson c id payload)) (Session.begin db) =
      (.error e, Session.begin db) := by
  have hget : exec (PersonRepository.get c id) (Session.begin db) =
      (.ok (some old), Session.begin db) := hold ▸ exec_select_quiet hc db db .getPerson _
  have hflush : exec (flushPerson c id (payload.changes old)) (Session.begin db) =
      (.error e, ⟨db, db, true⟩) := by
    rw [flushPerson, if_neg (Bool.eq_false_iff.1 hempty), Session.begin,
      exec_flushStatement_quiet hc, Statement.run, hrun]
  exact getDb_raised hc ((exec_bind_ok hget).trans
    ((exec_bind_ok (raiseIfTaken_free hc db db h)).trans (exec_bind_error hflush))) rfl

theorem updatePerson_written {id : UUID} {ws : List Write} (hold : db.persons.get? id = some old)
    (h : ¬ Taken db ((payload.changes old).externalId.getD none))
    (hempty : (payload.changes old).isEmpty = false)
    (hrun : Db.updatePerson id (payload.changes old) c.now db = .ok ws) :
    exec (getDb c (updatePerson c id payload)) (Session.begin db) =
      let new := (payload.changes old).applyTo c.now old
      match personRead c new.metadata.reloaded new with
      | .error e => (.error e, Session.begin db)
      | .ok new => (.ok new, Session.begin (applyAll db ws)) := by
  have hflush : exec (flushPerson c id (payload.changes old)) (Session.begin db) =
      (.ok (), ⟨db, applyAll db ws, false⟩) := by
    rw [flushPerson, if_neg (Bool.eq_false_iff.1 hempty), Session.begin,
      exec_flushStatement_quiet hc, Statement.run, hrun]
  refine updatePerson_loaded hc hold h hflush ?_
  obtain ⟨old', hold', -, rfl⟩ := updatePerson_eq_ok.1 hrun
  obtain rfl : old = old' := Option.some.inj (hold.symm.trans hold')
  obtain rfl : old.id = id := Table.pk_of_get? hold
  rw [persons_updated]
  exact Table.get?_put_self db.persons _

end

end FaceRecognition.Api
