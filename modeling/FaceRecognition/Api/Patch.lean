import FaceRecognition.Api.PersonOutcomes
import FaceRecognition.Api.Runs

/-!
# PATCH /persons

An update that succeeds changes the sent fields of the person and mirrors the flag to its faces. A
null for the name or the flag is refused by the table, metadata that is not an object or holds an
integer beyond 64 bits by the response, and an empty external id of another person by the unique
index; every other failure is a domain error. Metadata that `==` takes for the stored one is not
written.
-/

namespace FaceRecognition.Api

open Relational Db UnitOfWork
open Services.RecognitionService (personNotFound)
open Services.Statementwise (Quiet)

/-- The metadata that was sent, or else the stored one. -/
def PersonUpdate.metadataOf (payload : PersonUpdate) (old : Person) : Json :=
  (payload.metadata.map fun v => v.getD .null).getD old.metadata

/-- The metadata after the update. -/
def PersonUpdate.metadataAfter (payload : PersonUpdate) (old : Person) : Json :=
  if (payload.metadataOf old).eq old.metadata.reloaded then old.metadata
  else payload.metadataOf old

/-- `new` is `old` with the fields that were sent. -/
structure PersonUpdate.Applied (payload : PersonUpdate) (old new : Person) : Prop where
  id : new.id = old.id
  externalId : new.externalId = payload.externalId.getD old.externalId
  fullName : some new.fullName = payload.fullName.getD (some old.fullName)
  metadata : new.metadata.value = (payload.metadataOf old).value
  metadata_kept : payload.metadata = none → new.metadata = old.metadata
  isActive : some new.isActive = payload.isActive.getD (some old.isActive)
  createdAt : new.createdAt = old.createdAt

/-- The rest of the database is as it was, but for the flag of the person's faces. -/
structure OnlyPerson (old new : Person) (db db' : Database) : Prop where
  persons : ∀ p, p ∈ db'.persons.rows ↔ p = new ∨ p ∈ db.persons.rows ∧ p.id ≠ old.id
  faces : ∀ f, f ∈ db'.faces.rows ↔ ∃ g ∈ db.faces.rows, f =
    if g.personId = old.id ∧ new.isActive ≠ old.isActive then { g with isActive := new.isActive }
    else g
  logs : db'.logs = db.logs

/-- The request fails with a domain error and changes nothing, or it changes what was sent. -/
def PatchesExactly (c : Context) (id : UUID) (payload : PersonUpdate) (db : Database) : Prop :=
  let answer := exec (getDb c (updatePerson c id payload)) (Session.begin db)
  (∃ e, answer.1 = .error e ∧ (e.kind = .entityNotFoundError ∨ e.kind = .entityConflictError) ∧
    answer.2.committed = db) ∨
  ∃ old new, db.persons.get? id = some old ∧ answer.1 = .ok new ∧
    personRead c new.metadata.reloaded new = .ok new ∧ payload.Applied old new ∧
    OnlyPerson old new db answer.2.committed

/-- The response takes the metadata. -/
structure Readable (metadata : Json) : Prop where
  isObject : metadata.isObject
  fits64 : metadata.reloaded.fits64

/-- The external id is a non-empty one of another person, or it is free, the table and the response
take every value of the new row, and its metadata is the one that was sent. -/
def PersonUpdate.Fits (payload : PersonUpdate) (old : Person) (db : Database) : Prop :=
  HeldByOther db (some old.id) (payload.externalId.getD none) ∧
      payload.externalId.getD none ≠ some "" ∨
    ¬ HeldByOther db (some old.id) (payload.externalId.getD none) ∧ payload.fullName ≠ some none ∧
      payload.isActive ≠ some none ∧
      (payload.metadataAfter old).value = (payload.metadataOf old).value ∧
      Readable (payload.metadataAfter old)

/-! ### The new row -/

section
variable {payload : PersonUpdate} {old : Person} {db : Database} {now : Time}

theorem metadata_applyTo :
    ((payload.changes old).applyTo now old).metadata = payload.metadataAfter old := by
  unfold PersonSet.applyTo PersonUpdate.changes PersonUpdate.metadataAfter PersonUpdate.metadataOf
  cases payload.metadata with
  | none => simp
  | some v =>
    by_cases h : (v.getD .null).eq old.metadata.reloaded = true <;> simp [Option.filter, h]

theorem applied_iff (hname : payload.fullName ≠ some none)
    (hactive : payload.isActive ≠ some none) :
    payload.Applied old ((payload.changes old).applyTo now old) ↔
      (payload.metadataAfter old).value = (payload.metadataOf old).value := by
  constructor
  · intro h
    rw [← metadata_applyTo]
    exact h.metadata
  · intro h
    refine ⟨rfl, getD_filter_ne _ _, some_getD_filter_ne hname, ?_, fun hnone => ?_,
      some_getD_filter_ne hactive, rfl⟩
    · rwa [metadata_applyTo]
    · rw [metadata_applyTo, PersonUpdate.metadataAfter, PersonUpdate.metadataOf, hnone]
      exact ite_self _

theorem applyTo_of_isEmpty {s : PersonSet} (h : s.isEmpty = true) :
    s.applyTo now old = { old with updatedAt := now } := by
  simp only [PersonSet.isEmpty, Bool.and_eq_true, Option.isNone_iff_eq_none] at h
  obtain ⟨⟨⟨hid, hname⟩, hmetadata⟩, hactive⟩ := h
  rw [PersonSet.applyTo, hid, hname, hmetadata, hactive]
  rfl

/-- When nothing changes, the old row is the new one. -/
theorem unchanged_applyTo (hempty : (payload.changes old).isEmpty = true) :
    (payload.changes old).applyTo old.updatedAt old = old := applyTo_of_isEmpty hempty

/-- An update without changes sends no null that the table refuses. -/
theorem notNull_of_isEmpty (hempty : (payload.changes old).isEmpty = true) :
    payload.fullName ≠ some none ∧ payload.isActive ≠ some none := by
  simp only [PersonSet.isEmpty, Bool.and_eq_true, Option.isNone_iff_eq_none] at hempty
  obtain ⟨⟨⟨-, hname⟩, -⟩, hactive⟩ := hempty
  constructor
  · intro h
    rw [PersonUpdate.changes, h] at hname
    cases hname
  · intro h
    rw [PersonUpdate.changes, h] at hactive
    cases hactive

theorem onlyPerson_same (hold : old ∈ db.persons.rows) : OnlyPerson old old db db where
  persons p := by
    constructor
    · intro hp
      by_cases hid : p.id = old.id
      · exact .inl (db.persons.eq_of_pk_eq hp hold hid)
      · exact .inr ⟨hp, hid⟩
    · rintro (rfl | ⟨hp, -⟩)
      · exact hold
      · exact hp
  faces f := by simp
  logs := rfl

theorem onlyPerson_updated {new : Person} (hid : new.id = old.id) : OnlyPerson old new db
    (applyAll db (.putPerson new :: personsPropagateIsActive old new db)) where
  persons p := by
    rw [persons_updated, Table.mem_put, pk_person, pk_person, hid, ne_comm]
  faces f := by
    rw [mem_faces_updated, hid]
  logs := logs_updated old new

theorem update_kind (hold : db.persons.get? old.id = some old) {s : PersonSet} {e : Exc}
    (h : Db.updatePerson old.id s now db = .error e) :
    e.kind ≠ .entityNotFoundError ∧ e.kind ≠ .entityConflictError := by
  rcases updatePerson_error hold h with ⟨-, rfl⟩ | rfl | rfl | rfl | ⟨-, rfl⟩ <;>
    exact ⟨by decide, by decide⟩

/-- The response is rendered iff the metadata is readable. -/
theorem personRead_cases {c : Context} (hc : Quiet c) (person : Person) :
    (¬ Readable person.metadata ∧ ∃ e : Exc,
      personRead c person.metadata.reloaded person = .error e ∧
        e.kind ≠ .entityNotFoundError ∧ e.kind ≠ .entityConflictError) ∨
    (Readable person.metadata ∧ personRead c person.metadata.reloaded person = .ok person) := by
  rw [personRead, hc.fault, Json.isObject_reloaded]
  by_cases hobject : person.metadata.isObject
  · rw [if_neg (not_not.2 hobject)]
    by_cases hfits : person.metadata.reloaded.fits64
    · rw [if_neg (not_not.2 hfits)]
      exact .inr ⟨⟨hobject, hfits⟩, rfl⟩
    · rw [if_pos hfits]
      exact .inl ⟨fun h => hfits h.fits64, _, rfl, by decide, by decide⟩
  · rw [if_pos hobject]
    exact .inl ⟨fun h => hobject h.isObject, _, rfl, by decide, by decide⟩

end

/-! ### The requests -/

section
variable {c : Context} {id : UUID} {payload : PersonUpdate} {db : Database} {old : Person}

theorem patchesExactly_of_error {e : Exc} (h : exec (getDb c (updatePerson c id payload))
      (Session.begin db) = (.error e, Session.begin db)) :
    PatchesExactly c id payload db ↔
      e.kind = .entityNotFoundError ∨ e.kind = .entityConflictError := by
  rw [PatchesExactly, h]
  constructor
  · rintro (⟨e', he, hkind, -⟩ | ⟨old, new, -, hok, -⟩)
    · obtain rfl := Except.error.inj he
      exact hkind
    · cases hok
  · exact fun hkind => .inl ⟨e, rfl, hkind, rfl⟩

theorem patchesExactly_of_refused {e : Exc} (h : exec (getDb c (updatePerson c id payload))
      (Session.begin db) = (.error e, Session.begin db))
    (hkind : e.kind ≠ .entityNotFoundError ∧ e.kind ≠ .entityConflictError) :
    ¬ PatchesExactly c id payload db := by
  rw [patchesExactly_of_error h]
  exact fun hdomain => hdomain.elim hkind.1 hkind.2

/-- A request that ends with the response for the row `new`. -/
theorem patchesExactly_of_read (hc : Quiet c) {new : Person} {db' : Database} {applied : Prop}
    (hold : db.persons.get? old.id = some old)
    (h : exec (getDb c (updatePerson c old.id payload)) (Session.begin db) =
      match personRead c new.metadata.reloaded new with
      | .error e => (.error e, Session.begin db)
      | .ok new => (.ok new, Session.begin db'))
    (happlied : payload.Applied old new ↔ applied) (honly : OnlyPerson old new db db') :
    PatchesExactly c old.id payload db ↔ applied ∧ Readable new.metadata := by
  rcases personRead_cases hc new with ⟨hunreadable, e, hread, hkind⟩ | ⟨hreadable, hread⟩
  · rw [hread] at h
    exact iff_of_false (patchesExactly_of_refused h hkind) fun hboth => hunreadable hboth.2
  · rw [hread] at h
    rw [PatchesExactly, h]
    constructor
    · rintro (⟨e, he, -⟩ | ⟨old', new', hold', hnew, -, happlied', -⟩)
      · cases he
      · obtain rfl := Option.some.inj (hold.symm.trans hold')
        obtain rfl := Except.ok.inj hnew
        exact ⟨happlied.1 happlied', hreadable⟩
    · exact fun hboth => .inr ⟨old, new, hold, rfl, hread, happlied.2 hboth.1, honly⟩

variable (hc : Quiet c) (hdb : Constrained db) (hold : db.persons.get? old.id = some old)
  (hfree : ¬ Taken db ((payload.changes old).externalId.getD none))
include hc hdb hold hfree

/-- Nothing changes: the request succeeds iff the stored metadata is readable. -/
theorem patchesExactly_of_isEmpty (hempty : (payload.changes old).isEmpty = true) :
    PatchesExactly c old.id payload db ↔ payload.Fits old db := by
  have hmem := (Table.get?_eq_some.1 hold).1
  obtain ⟨hname, hactive⟩ := notNull_of_isEmpty hempty
  have happlied : payload.Applied old ((payload.changes old).applyTo old.updatedAt old) ↔
      (payload.metadataAfter old).value = (payload.metadataOf old).value :=
    applied_iff hname hactive
  have hmetadata : ((payload.changes old).applyTo old.updatedAt old).metadata =
      payload.metadataAfter old := metadata_applyTo
  rw [unchanged_applyTo hempty] at happlied hmetadata
  have hheld : ¬ HeldByOther db (some old.id) (payload.externalId.getD none) := by
    rw [← free_iff hdb.unique hmem]
    have hsame : (payload.changes old).externalId.getD old.externalId = old.externalId :=
      congrArg Person.externalId (unchanged_applyTo hempty)
    rw [hsame]
    exact hdb.unique old hmem
  rw [patchesExactly_of_read hc hold (updatePerson_unchanged hc hold hfree hempty) happlied
    (onlyPerson_same hmem), hmetadata, PersonUpdate.Fits]
  tauto

/-- The UPDATE is refused unless the row is admissible, and what it writes must be readable. -/
theorem patchesExactly_of_changes (hempty : (payload.changes old).isEmpty = false) :
    PatchesExactly c old.id payload db ↔ payload.Fits old db := by
  have hmem := (Table.get?_eq_some.1 hold).1
  have hfits : payload.Fits old db ↔ (payload.changes old).Admissible old db ∧
      (payload.metadataAfter old).value = (payload.metadataOf old).value ∧
        Readable (payload.metadataAfter old) := by
    rw [PersonUpdate.Fits, ← taken_iff hdb.unique hmem, admissible_iff hdb hmem]
    tauto
  rw [hfits]
  cases hrun : Db.updatePerson old.id (payload.changes old) c.now db with
  | error e =>
    refine iff_of_false (patchesExactly_of_refused
      (updatePerson_refused hc hold hfree hempty hrun) (update_kind hold hrun)) fun h => ?_
    have hok : Db.updatePerson old.id (payload.changes old) c.now db = .ok _ :=
      updatePerson_eq_ok.2 ⟨old, hold, h.1, rfl⟩
    cases hrun.symm.trans hok
  | ok ws =>
    obtain ⟨old', hold', hadmissible, rfl⟩ := updatePerson_eq_ok.1 hrun
    obtain rfl : old = old' := Option.some.inj (hold.symm.trans hold')
    obtain ⟨hname, hactive, -⟩ := (admissible_iff hdb hmem).1 hadmissible
    rw [patchesExactly_of_read hc hold (updatePerson_written hc hold hfree hempty hrun)
      (applied_iff hname hactive) (onlyPerson_updated rfl), metadata_applyTo]
    exact ⟨fun h => ⟨hadmissible, h⟩, fun h => h.2⟩

end

/-- **PATCH applies exactly what was sent**, or fails with a domain error, iff the new row fits. -/
theorem patches_exactly_iff {c : Context} (hc : Quiet c) {db : Database} (hdb : Constrained db)
    (id : UUID) (payload : PersonUpdate) : PatchesExactly c id payload db ↔
      ∀ old, db.persons.get? id = some old → payload.Fits old db := by
  cases hold : db.persons.get? id with
  | none =>
    refine iff_of_true ?_ fun old h => by cases h
    exact (patchesExactly_of_error (updatePerson_missing hc hold)).2 (.inl rfl)
  | some old =>
    obtain ⟨hmem, rfl⟩ := Table.get?_eq_some.1 hold
    have hstored : (∀ old', some old = some old' → payload.Fits old' db) ↔ payload.Fits old db :=
      ⟨fun h => h old rfl, fun h old' heq => Option.some.inj heq ▸ h⟩
    rw [hstored]
    by_cases hfree : Taken db ((payload.changes old).externalId.getD none)
    · obtain ⟨e, hkind, hexec⟩ := updatePerson_taken hc hold hfree
      exact iff_of_true ((patchesExactly_of_error hexec).2 (.inr hkind))
        (.inl ((taken_iff hdb.unique hmem).1 hfree))
    · cases hempty : (payload.changes old).isEmpty with
      | true => exact patchesExactly_of_isEmpty hc hdb hold hfree hempty
      | false => exact patchesExactly_of_changes hc hdb hold hfree hempty

/-! ### A name set to null -/

theorem constrained_onlyAlice : Constrained onlyAlice where
  fits p hp := by
    obtain rfl := List.mem_singleton.1 hp
    decide
  unique p hp := by
    obtain rfl := List.mem_singleton.1 hp
    rfl

def nameToNull : PersonUpdate :=
  { deactivate with
    isActive := none
    fullName := some none
    fullName_length := fun s h => by cases h }

theorem patches_exactly_deactivate : PatchesExactly atNoon 1 deactivate onlyAlice := by
  refine (patches_exactly_iff ⟨rfl, fun _ => rfl⟩ constrained_onlyAlice 1 deactivate).2
    fun old hold => .inr ⟨?_, by decide, by decide, ?_⟩
  · rintro ⟨s, hs, -⟩
    cases hs
  · obtain rfl := Option.some.inj hold
    exact ⟨by decide, by decide, by decide⟩

theorem name_to_null_fails : Constrained onlyAlice ∧
    ¬ PatchesExactly atNoon 1 nameToNull onlyAlice := by
  refine ⟨constrained_onlyAlice, fun h => ?_⟩
  have hanswer : (exec (getDb atNoon (updatePerson atNoon 1 nameToNull))
      (Session.begin onlyAlice)).1 = .error (notNullViolation "full_name") := by decide +kernel
  rcases h with ⟨e, he, hkind, -⟩ | ⟨old, new, -, hok, -⟩
  · obtain rfl := Except.error.inj (hanswer.symm.trans he)
    rcases hkind with hkind | hkind <;> cases hkind
  · cases hanswer.symm.trans hok

end FaceRecognition.Api
