import FaceRecognition.Api.PersonOutcomes
import FaceRecognition.Api.Runs

/-!
# External ids and conflicts

A create or an update with an external id of another person is answered with a conflict, except for
the empty one: the look up skips it and the unique index refuses it.
-/

namespace FaceRecognition.Api

open Relational Db UnitOfWork
open Services.RecognitionService (personNotFound)
open Services.Statementwise (Quiet)

inductive PersonRequest where
  | create (payload : PersonCreate)
  | patch (personId : UUID) (payload : PersonUpdate)

namespace PersonRequest

def handler (c : Context) : PersonRequest → SessionM Person
  | .create payload => createPerson c payload
  | .patch personId payload => updatePerson c personId payload

/-- The external id of the body, when it is there and not null. -/
def externalId : PersonRequest → Option String
  | .create payload => payload.externalId
  | .patch _ payload => payload.externalId.getD none

/-- The person the request is about. -/
def self : PersonRequest → Option UUID
  | .create _ => none
  | .patch personId _ => some personId

end PersonRequest

/-- The request was rejected for its external id. -/
def RejectsExternalId (e : Exc) : Prop :=
  e.kind = .entityConflictError ∨ e = uniqueViolation "ix_persons_external_id" ∨
    e = valueTooLong 128

instance (e : Exc) : Decidable (RejectsExternalId e) := inferInstanceAs (Decidable (_ ∨ _ ∨ _))

/-- An external id that another person has is a conflict and changes nothing, and no other one is
rejected. -/
def ReportsConflicts (c : Context) (db : Database) (r : PersonRequest) : Prop :=
  let answer := exec (getDb c (r.handler c)) (Session.begin db)
  (HeldByOther db r.self r.externalId →
    (∃ e, answer.1 = .error e ∧ e.kind = .entityConflictError) ∧ answer.2.committed = db) ∧
  (¬ HeldByOther db r.self r.externalId → ∀ e, answer.1 = .error e → ¬ RejectsExternalId e)

/-- The external id can be looked up, and the person to update is stored. -/
def LookedUp (db : Database) (r : PersonRequest) : Prop :=
  r.externalId ≠ some "" ∧ ∀ id, r.self = some id → (db.persons.get? id).isSome = true

section
variable {c : Context} {db : Database} {r : PersonRequest}

/-- What remains to be shown of a request: a conflict when the look up finds a person, and otherwise
no conflict, and no rejection unless another person has the id. -/
theorem reportsConflicts_iff (taken : Prop)
    (htaken : taken ↔ HeldByOther db r.self r.externalId ∧ LookedUp db r)
    (hconflict : taken → ∃ e : Exc, e.kind = .entityConflictError ∧
      exec (getDb c (r.handler c)) (Session.begin db) = (.error e, Session.begin db))
    (hother : ¬ taken → ∀ e, (exec (getDb c (r.handler c)) (Session.begin db)).1 = .error e →
      e.kind ≠ .entityConflictError ∧
        (RejectsExternalId e → HeldByOther db r.self r.externalId)) :
    ReportsConflicts c db r ↔ (HeldByOther db r.self r.externalId → LookedUp db r) := by
  by_cases h : taken
  · obtain ⟨hheld, hlooked⟩ := htaken.1 h
    obtain ⟨e, he, hexec⟩ := hconflict h
    refine iff_of_true ⟨fun _ => ?_, fun hfree => absurd hheld hfree⟩ fun _ => hlooked
    rw [hexec]
    exact ⟨⟨e, rfl, he⟩, rfl⟩
  · by_cases hheld : HeldByOther db r.self r.externalId
    · refine iff_of_false (fun hreports => ?_) fun hcond => h (htaken.2 ⟨hheld, hcond hheld⟩)
      obtain ⟨⟨e, he, hkind⟩, -⟩ := hreports.1 hheld
      exact (hother h e he).1 hkind
    · exact iff_of_true ⟨fun hheld' => absurd hheld' hheld,
        fun _ e he hbad => hheld ((hother h e he).2 hbad)⟩ fun hheld' => absurd hheld' hheld

end

/-! ### Creating -/

section
variable {c : Context} {db : Database} {payload : PersonCreate} {e : Exc}

theorem insert_error (h : insertPerson (payload.row c) db = .error e) :
    e.kind ≠ .entityConflictError ∧
      (RejectsExternalId e → HeldByOther db none payload.externalId) := by
  rcases insertPerson_error h with ⟨hfits, rfl⟩ | rfl | rfl | ⟨hfree, rfl⟩
  · have hlong : fits 128 payload.externalId = true := by
      cases hid : payload.externalId with
      | none => rfl
      | some s => exact decide_eq_true (payload.externalId_length s hid)
    exact absurd (hlong.symm.trans hfits) Bool.false_ne_true.symm
  · exact ⟨by decide, fun h => absurd h (by decide +kernel)⟩
  · exact ⟨by decide, fun h => absurd h (by decide +kernel)⟩
  · refine ⟨by decide, fun _ => ?_⟩
    by_contra hheld
    refine Bool.eq_false_iff.1 hfree (externalIdFree_iff.2 fun s hs p hp hps => ?_)
    exact absurd ⟨s, hs, p, hp, (Option.some_ne_none _).symm, hps⟩ hheld

theorem personRead_rejects (hc : Quiet c) {metadata : Json} {person : Person}
    (h : personRead c metadata person = .error e) :
    e.kind ≠ .entityConflictError ∧ ¬ RejectsExternalId e := by
  rw [personRead, hc.fault] at h
  split_ifs at h <;> cases h <;> exact ⟨by decide, by decide +kernel⟩

theorem create_error (hc : Quiet c) (hfree : ¬ Taken db payload.externalId)
    (h : (exec (getDb c (createPerson c payload)) (Session.begin db)).1 = .error e) :
    e.kind ≠ .entityConflictError ∧
      (RejectsExternalId e → HeldByOther db none payload.externalId) := by
  rw [createPerson_free hc hfree] at h
  cases hrun : insertPerson (payload.row c) db with
  | error e' =>
    rw [hrun] at h
    obtain rfl := Except.error.inj h
    exact insert_error hrun
  | ok ws =>
    rw [hrun] at h
    exact ⟨(personRead_rejects hc (fst_read.symm.trans h)).1,
      fun hbad => absurd hbad (personRead_rejects hc (fst_read.symm.trans h)).2⟩

theorem create_reports (hc : Quiet c) : ReportsConflicts c db (.create payload) ↔
    (HeldByOther db none payload.externalId → LookedUp db (.create payload)) := by
  refine reportsConflicts_iff (Taken db payload.externalId) ?_
    (fun htaken => createPerson_taken hc htaken) fun hfree e h => create_error hc hfree h
  rw [taken_of_create]
  exact and_congr_right fun _ => ⟨fun hne => ⟨hne, fun id h => by cases h⟩, fun h => h.1⟩

end

/-! ### Updating -/

section
variable {c : Context} {db : Database} {payload : PersonUpdate} {old : Person} {e : Exc}

theorem update_error (hdb : Constrained db) (hold : db.persons.get? old.id = some old)
    (h : Db.updatePerson old.id (payload.changes old) c.now db = .error e) :
    e.kind ≠ .entityConflictError ∧ (RejectsExternalId e →
      HeldByOther db (some old.id) (payload.externalId.getD none)) := by
  have hmem := (Table.get?_eq_some.1 hold).1
  rcases updatePerson_error hold h with ⟨hfits, rfl⟩ | rfl | rfl | rfl | ⟨hfree, rfl⟩
  · exact absurd ((externalId_fits hdb hmem).symm.trans hfits) Bool.false_ne_true.symm
  · exact ⟨by decide, fun h => absurd h (by decide +kernel)⟩
  · exact ⟨by decide, fun h => absurd h (by decide +kernel)⟩
  · exact ⟨by decide, fun h => absurd h (by decide +kernel)⟩
  · refine ⟨by decide, fun _ => ?_⟩
    by_contra hheld
    rw [(free_iff hdb.unique hmem).2 hheld] at hfree
    cases hfree

theorem patch_error (hc : Quiet c) (hdb : Constrained db)
    (hold : db.persons.get? old.id = some old)
    (hfree : ¬ Taken db ((payload.changes old).externalId.getD none))
    (h : (exec (getDb c (updatePerson c old.id payload)) (Session.begin db)).1 = .error e) :
    e.kind ≠ .entityConflictError ∧ (RejectsExternalId e →
      HeldByOther db (some old.id) (payload.externalId.getD none)) := by
  have hread : ∀ {metadata : Json} {person : Person}, personRead c metadata person = .error e →
      e.kind ≠ .entityConflictError ∧ (RejectsExternalId e →
        HeldByOther db (some old.id) (payload.externalId.getD none)) :=
    fun h => ⟨(personRead_rejects hc h).1, fun hbad => absurd hbad (personRead_rejects hc h).2⟩
  cases hempty : (payload.changes old).isEmpty with
  | true =>
    rw [updatePerson_unchanged hc hold hfree hempty, fst_read] at h
    exact hread h
  | false =>
    cases hrun : Db.updatePerson old.id (payload.changes old) c.now db with
    | error e' =>
      rw [updatePerson_refused hc hold hfree hempty hrun] at h
      obtain rfl := Except.error.inj h
      exact update_error hdb hold hrun
    | ok ws =>
      rw [updatePerson_written hc hold hfree hempty hrun, fst_read] at h
      exact hread h

theorem patch_reports (hc : Quiet c) (hdb : Constrained db) {id : UUID} :
    ReportsConflicts c db (.patch id payload) ↔
      (HeldByOther db (some id) (payload.externalId.getD none) →
        LookedUp db (.patch id payload)) := by
  cases hold : db.persons.get? id with
  | none =>
    refine reportsConflicts_iff False ?_ False.elim fun _ e h => ?_
    · refine iff_of_false not_false fun hlooked => ?_
      have hstored := hlooked.2.2 id rfl
      rw [hold] at hstored
      cases hstored
    · rw [PersonRequest.handler, updatePerson_missing hc hold] at h
      obtain rfl := Except.error.inj h
      refine ⟨ExcKind.noConfusion, ?_⟩
      rintro (hkind | heq | heq)
      · cases hkind
      · cases congrArg Exc.kind heq
      · cases congrArg Exc.kind heq
  | some old =>
    obtain ⟨hmem, rfl⟩ := Table.get?_eq_some.1 hold
    refine reportsConflicts_iff (Taken db ((payload.changes old).externalId.getD none)) ?_
      (fun htaken => updatePerson_taken hc hold htaken)
      fun hfree e h => patch_error hc hdb hold hfree h
    rw [taken_iff hdb.unique hmem]
    refine and_congr_right fun _ => ⟨fun hne => ⟨hne, fun id h => ?_⟩, fun h => h.1⟩
    obtain rfl := Option.some.inj h
    exact Option.isSome_iff_exists.2 ⟨old, hold⟩

end

/-- **A duplicate external id is reported as a conflict** iff it can be looked up. -/
theorem conflicts_reported_iff {ops : List Op} {w : World}
    (hrun : Run.exec step ⟨Database.empty, Table.empty⟩ ops = some w) {c : Context} (hc : Quiet c)
    (r : PersonRequest) :
    ReportsConflicts c w.db r ↔ (HeldByOther w.db r.self r.externalId → LookedUp w.db r) := by
  have hdb : Constrained w.db := run_keeps (I := Constrained) (fun l => constrained_keptBy _)
    (fun op _ q _ => constrained_keptBy q) constrained_empty hrun
  cases r with
  | create payload => exact create_reports hc
  | patch personId payload => exact patch_reports hc hdb

/-! ### Two persons with one external id -/

def named (fullName externalId : String)
    (h : (1 ≤ fullName.length ∧ fullName.length ≤ 255) ∧ externalId.length ≤ 128) :
    PersonCreate where
  fullName := fullName
  externalId := some externalId
  fullName_length := h.1
  externalId_length _ hs := Option.some.inj hs ▸ h.2
  metadata_object := rfl

def adaWithId : PersonCreate := named "Ada" "a-1" (by decide)

def bobWithId : PersonCreate := named "Bob" "a-1" (by decide)

def adaWithEmptyId : PersonCreate := named "Ada" "" (by decide)

def bobWithEmptyId : PersonCreate := named "Bob" "" (by decide)

def atOne : Context := ⟨13, 3, 8, 10, [], fun _ => none⟩

/-- One person, created at noon. -/
def afterNoon (payload : PersonCreate) : World :=
  request atNoon (fun c => createPerson c payload) ⟨Database.empty, Table.empty⟩

theorem conflicts_reported_ada :
    ReportsConflicts atOne (afterNoon adaWithId).db (.create bobWithId) := by
  refine (@conflicts_reported_iff [.createPerson atNoon adaWithId] _ rfl atOne ⟨rfl, fun _ => rfl⟩
    (.create bobWithId)).2 fun _ => ⟨by decide, fun id h => ?_⟩
  cases h

theorem empty_id_no_conflict :
    Run.exec step ⟨Database.empty, Table.empty⟩ [.createPerson atNoon adaWithEmptyId] =
      some (afterNoon adaWithEmptyId) ∧
    ¬ ReportsConflicts atOne (afterNoon adaWithEmptyId).db (.create bobWithEmptyId) := by
  refine ⟨rfl, fun h => ?_⟩
  have hheld : ∃ p ∈ (afterNoon adaWithEmptyId).db.persons.rows, p.externalId = some "" := by
    decide +kernel
  obtain ⟨p, hp, hps⟩ := hheld
  obtain ⟨⟨e, he, hkind⟩, -⟩ := h.1 ⟨"", rfl, p, hp, (Option.some_ne_none _).symm, hps⟩
  have hanswer : (exec (getDb atOne (createPerson atOne bobWithEmptyId))
      (Session.begin (afterNoon adaWithEmptyId).db)).1 =
        .error (uniqueViolation "ix_persons_external_id") := by decide +kernel
  obtain rfl := Except.error.inj (hanswer.symm.trans he)
  cases hkind

end FaceRecognition.Api
