import FaceRecognition.Api.Deps

/-!
# The person endpoints

Create, update and delete a person. The payloads carry what their schema has checked. An update sets
the fields that were sent, and of these only the ones with a new value reach the UPDATE.
-/

namespace FaceRecognition.Api

open Relational Db UnitOfWork
open Services.RecognitionService (personNotFound)

structure PersonCreate where
  fullName : String
  externalId : Option String := none
  metadata : Json := .emptyObject
  fullName_length : 1 ≤ fullName.length ∧ fullName.length ≤ 255
  externalId_length : ∀ s, externalId = some s → s.length ≤ 128
  metadata_object : metadata.isObject

/-- A field is `none` when the request did not send it, and `some none` when it sent null. -/
structure PersonUpdate where
  fullName : Option (Option String) := none
  externalId : Option (Option String) := none
  metadata : Option (Option Json) := none
  isActive : Option (Option Bool) := none
  fullName_length : ∀ s, fullName = some (some s) → 1 ≤ s.length ∧ s.length ≤ 255
  externalId_length : ∀ s, externalId = some (some s) → s.length ≤ 128
  metadata_object : ∀ v, metadata = some (some v) → v.isObject

def externalIdExists (externalId : String) : Exc :=
  ⟨.entityConflictError, "external_id '" ++ externalId ++ "' already exists", []⟩

def couldNotRefresh : Exc := ⟨.invalidRequestError, "Could not refresh instance", []⟩

/-- The response, with the metadata that the session has: it must be an object, and ORJSON renders
integers of 64 bits. What else can fail here, as a nesting too deep to render, is `Site.respond`. -/
def personRead (c : Context) (metadata : Json) (person : Person) : Except Exc Person :=
  if ¬ metadata.isObject then
    .error ⟨.responseValidationError, "Input should be a valid dictionary", []⟩
  else if ¬ metadata.fits64 then .error ⟨.typeError, "Integer exceeds 64-bit range", []⟩
  else match c.fault .respond with
    | some e => .error e
    | none => .ok person

theorem personRead_ok {c : Context} {metadata : Json} {person p : Person}
    (h : personRead c metadata person = .ok p) : p = person := by
  unfold personRead at h
  split_ifs at h
  cases hfault : c.fault .respond with
  | some e =>
    rw [hfault] at h
    cases h
  | none =>
    rw [hfault] at h
    exact (Except.ok.inj h).symm

/-- An empty external id is not looked up. -/
def raiseIfTaken (c : Context) (externalId : Option String) : SessionM Unit :=
  match externalId with
  | none => pure ()
  | some externalId =>
    if externalId = "" then pure ()
    else do
      match ← PersonRepository.getByExternalId c externalId with
      | some _ => throw (externalIdExists externalId)
      | none => return ()

def createPerson (c : Context) (payload : PersonCreate) : SessionM Person := do
  raiseIfTaken c payload.externalId
  let person ← PersonRepository.add c
    (PersonRepository.newPerson c payload.fullName payload.externalId payload.metadata)
  lift (personRead c payload.metadata person)

/-- The columns whose value changes. -/
def PersonUpdate.changes (payload : PersonUpdate) (person : Person) : PersonSet where
  externalId := payload.externalId.filter fun v => v ≠ person.externalId
  fullName := payload.fullName.filter fun v => v ≠ some person.fullName
  metadata := (payload.metadata.map fun v => v.getD .null).filter fun v =>
    ¬ v.eq person.metadata.reloaded
  isActive := payload.isActive.filter fun v => v ≠ some person.isActive

/-- The pending changes of a person, when there are any. -/
def flushPerson (c : Context) (id : UUID) (changes : PersonSet) : SessionM Unit :=
  if changes.isEmpty then pure ()
  else flushStatement c .flushPerson (.updatePerson id changes c.now)

def updatePerson (c : Context) (personId : UUID) (payload : PersonUpdate) : SessionM Person := do
  match ← PersonRepository.get c personId with
  | none => throw (personNotFound personId)
  | some person =>
    let changes := payload.changes person
    raiseIfTaken c (changes.externalId.getD none)
    flushPerson c personId changes
    match ← PersonRepository.get c personId with
    | none => throw couldNotRefresh
    | some person => lift (personRead c person.metadata.reloaded person)

def deletePerson (c : Context) (personId : UUID) : SessionM Unit := do
  match ← PersonRepository.get c personId with
  | none => throw (personNotFound personId)
  | some person => PersonRepository.delete c person

/-! ### The endpoints keep what their statements do -/

section
variable {I : Database → Prop} {c : Context} (hc : c.others = [])

theorem keeps_raiseIfTaken (externalId : Option String) :
    Keeps (Both I) (raiseIfTaken c externalId) := by
  cases externalId with
  | none => exact keeps_pure _
  | some externalId =>
    rw [raiseIfTaken]
    split_ifs
    · exact keeps_pure _
    · refine keeps_bind keeps_select fun taken => ?_
      cases taken with
      | none => exact keeps_pure _
      | some person => exact keeps_throw _

include hc

theorem keeps_createPerson {payload : PersonCreate}
    (hI : KeptBy I (.insertPerson
      (PersonRepository.newPerson c payload.fullName payload.externalId payload.metadata))) :
    Keeps (Both I) (createPerson c payload) :=
  keeps_bind (keeps_raiseIfTaken _) fun _ =>
    keeps_bind (PersonRepository.keeps_add hc hI) fun _ => keeps_lift _

theorem keeps_flushPerson {id : UUID} {changes : PersonSet}
    (hI : ∀ now, KeptBy I (.updatePerson id changes now)) :
    Keeps (Both I) (flushPerson c id changes) := by
  rw [flushPerson]
  split_ifs
  · exact keeps_pure _
  · exact keeps_keptBy hc (hI _)

theorem keeps_updatePerson {personId : UUID} {payload : PersonUpdate}
    (hI : ∀ person now, KeptBy I (.updatePerson personId (payload.changes person) now)) :
    Keeps (Both I) (updatePerson c personId payload) := by
  refine keeps_bind keeps_select fun person => ?_
  cases person with
  | none => exact keeps_throw _
  | some person =>
    refine keeps_bind (keeps_raiseIfTaken _) fun _ => keeps_bind (keeps_flushPerson hc (hI _))
      fun _ => keeps_bind keeps_select fun person => ?_
    cases person with
    | none => exact keeps_throw _
    | some person => exact keeps_lift _

theorem keeps_deletePerson {personId : UUID} (hI : ∀ id, KeptBy I (.deletePerson id)) :
    Keeps (Both I) (deletePerson c personId) := by
  refine keeps_bind keeps_select fun person => ?_
  cases person with
  | none => exact keeps_throw _
  | some person => exact keeps_keptBy hc (hI _)

end

end FaceRecognition.Api
