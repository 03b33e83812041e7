import FaceRecognition.Db.Statements

/-!
# faces.is_active mirrors persons.is_active

Revision 0004 copies each person's `is_active` onto its faces and keeps the copy with two triggers.
In a mirrored database every face has a person and the person's flag. The upgrade of any database
that meets the foreign key gives a mirrored one (`mirror_upgrade`), and every statement keeps it
(`mirror_run`): an INSERT of a face reads the flag of its person, an UPDATE of a person that changes
the flag rewrites all its faces, an image replacement touches neither column, and a deleted person
takes its faces along.
-/

namespace FaceRecognition.Db

open Relational Recognition

def Mirror (db : Database) : Prop := ∀ f ∈ db.faces.rows, flag db f.personId = some f.isActive

theorem Mirror.person {db : Database} (h : Mirror db) {f : Face} (hf : f ∈ db.faces.rows) :
    ∃ p, db.persons.get? f.personId = some p ∧ p.isActive = f.isActive := by
  simpa [flag, Option.map_eq_some_iff] using h f hf

/-- Each face has its person, as the foreign key demands. -/
def HasPerson (db : Database) : Prop := ∀ f ∈ db.faces.rows, (db.persons.get? f.personId).isSome

theorem Mirror.hasPerson {db : Database} (h : Mirror db) : HasPerson db := by
  intro f hf
  obtain ⟨p, hp, -⟩ := h.person hf
  rw [hp]
  rfl

/-! ### The upgrade -/

/-- The database at revision 0003. -/
structure Database0003 where
  persons : Table Person
  faces : Table FaceBase
  logs : Table RecognitionLog
  /-- `ForeignKeyConstraint(["person_id"], ["persons.id"])` -/
  hasPerson : ∀ f ∈ faces.rows, (persons.get? f.personId).isSome

/-- ADD COLUMN is_active with server default true. -/
def addIsActive (f : FaceBase) : Face := { f with isActive := true }

/-- UPDATE faces f SET is_active = p.is_active FROM persons p WHERE f.person_id = p.id -/
def seedIsActive (persons : Table Person) (f : Face) : Face :=
  match persons.get? f.personId with
  | some p => { f with isActive := p.isActive }
  | none => f

theorem seedIsActive_id (persons : Table Person) (f : Face) :
    (seedIsActive persons f).id = f.id := by
  rw [seedIsActive]
  split <;> rfl

def upgrade0004 (db : Database0003) : Database where
  persons := db.persons
  faces := (db.faces.map addIsActive fun _ => rfl).map (seedIsActive db.persons)
    (seedIsActive_id db.persons)
  logs := db.logs

theorem mirror_upgrade (db : Database0003) : Mirror (upgrade0004 db) := by
  intro f hf
  simp only [upgrade0004, Table.map, List.mem_map, exists_exists_and_eq_and] at hf
  obtain ⟨f₀, hf₀, rfl⟩ := hf
  obtain ⟨p, hp⟩ := Option.isSome_iff_exists.1 (db.hasPerson f₀ hf₀)
  have hp' : db.persons.get? (addIsActive f₀).personId = some p := hp
  simp [seedIsActive, hp', flag, upgrade0004]

/-! ### What the tables hold after the writes of a statement -/

theorem flag_putPerson (db : Database) (new : Person) (p : UUID) :
    flag (apply db (.putPerson new)) p = if new.id = p then some new.isActive else flag db p := by
  show ((db.persons.put new).get? p).map _ = _
  rw [Table.get?_put]
  by_cases h : new.id = p <;> simp [h, flag]

theorem flag_dropPerson (db : Database) (id p : UUID) :
    flag (apply db (.dropPerson id)) p = if p = id then none else flag db p := by
  show ((db.persons.erase id).get? p).map _ = _
  rw [Table.get?_erase]
  by_cases h : p = id <;> simp [h, flag]

/-- Writing the faces of `l`, each changed by `g`, leaves the persons and all other faces. -/
theorem applyAll_putFaces {l : List Face} {g : Face → Face} (hg : ∀ f, (g f).id = f.id)
    (hl : (l.map fun f => f.id).Nodup) (db : Database) :
    (applyAll db (l.map fun f => .putFace (g f))).persons = db.persons ∧
      ∀ x, x ∈ (applyAll db (l.map fun f => .putFace (g f))).faces.rows ↔
        (∃ f ∈ l, x = g f) ∨ x ∈ db.faces.rows ∧ ∀ f ∈ l, f.id ≠ x.id := by
  induction l generalizing db with
  | nil => simp
  | cons f l ih =>
    obtain ⟨hf, hl⟩ := List.nodup_cons.1 hl
    obtain ⟨hp, hrows⟩ := ih hl (apply db (.putFace (g f)))
    refine ⟨hp, fun x => ?_⟩
    have hput : x ∈ (apply db (.putFace (g f))).faces.rows ↔
        x = g f ∨ x ∈ db.faces.rows ∧ f.id ≠ x.id := by
      show x ∈ (db.faces.put (g f)).rows ↔ _
      rw [Table.mem_put, pk_face, pk_face, hg]
    have hfx : x = g f → ∀ f' ∈ l, f'.id ≠ x.id := by
      rintro rfl f' hf' he
      exact hf (List.mem_map.2 ⟨f', hf', he.trans (hg f)⟩)
    rw [List.map_cons, applyAll_cons, hrows, hput]
    constructor
    · rintro (⟨f', hf', rfl⟩ | ⟨rfl | ⟨hx, hne⟩, hall⟩)
      · exact .inl ⟨f', by simp [hf'], rfl⟩
      · exact .inl ⟨f, by simp, rfl⟩
      · refine .inr ⟨hx, fun f' hf' => ?_⟩
        rcases List.mem_cons.1 hf' with rfl | hf'
        · exact hne
        · exact hall f' hf'
    · rintro (⟨f', hf', rfl⟩ | ⟨hx, hall⟩)
      · rcases List.mem_cons.1 hf' with rfl | hf'
        · exact .inr ⟨.inl rfl, hfx rfl⟩
        · exact .inl ⟨f', hf', rfl⟩
      · exact .inr ⟨.inr ⟨hx, hall f (by simp)⟩, fun f' hf' => hall f' (by simp [hf'])⟩

theorem applyAll_dropFaces (l : List Face) (db : Database) :
    (applyAll db (l.map fun f => .dropFace f.id)).persons = db.persons ∧
      ∀ x, x ∈ (applyAll db (l.map fun f => .dropFace f.id)).faces.rows ↔
        x ∈ db.faces.rows ∧ ∀ f ∈ l, f.id ≠ x.id := by
  induction l generalizing db with
  | nil => simp
  | cons f l ih =>
    obtain ⟨hp, hrows⟩ := ih (apply db (.dropFace f.id))
    refine ⟨hp, fun x => ?_⟩
    have hdrop : x ∈ (apply db (.dropFace f.id)).faces.rows ↔ x ∈ db.faces.rows ∧ x.id ≠ f.id :=
      Table.mem_erase
    rw [List.map_cons, applyAll_cons, hrows, hdrop, and_assoc, List.forall_mem_cons]
    exact and_congr_right fun _ => and_congr_left fun _ => ne_comm

theorem nodup_ids (db : Database) (c : Face → Bool) :
    ((db.faces.rows.filter c).map fun f => f.id).Nodup :=
  db.faces.nodup.sublist (List.filter_sublist.map _)

/-! ### Every statement keeps the mirror -/

theorem flag_of_persons_eq {db db' : Database} (h : db.persons = db'.persons) (p : UUID) :
    flag db p = flag db' p := by
  rw [flag, flag, h]

variable {db : Database} {ws : List Write}

theorem mirror_insertPerson {p : Person} (hm : Mirror db) (h : insertPerson p db = .ok ws) :
    Mirror (applyAll db ws) := by
  obtain ⟨hnew, rfl⟩ := insertPerson_ok h
  intro f (hf : f ∈ db.faces.rows)
  have hflag := hm f hf
  have hne : p.id ≠ f.personId := by
    rintro he
    rw [← he, hnew] at hflag
    cases hflag
  simp [flag_putPerson, hne, hflag]

theorem mirror_insertFace {f : Face} (hm : Mirror db) (h : insertFace f db = .ok ws) :
    Mirror (applyAll db ws) := by
  obtain ⟨p, hp, -, rfl⟩ := insertFace_ok h
  intro x (hx : x ∈ (db.faces.put _).rows)
  rcases Table.mem_put.1 hx with rfl | ⟨hx, -⟩
  · simp [flag, apply, hp]
  · exact hm x hx

theorem mirror_updatePerson {id : UUID} {s : PersonSet} {now : Time} (hm : Mirror db)
    (h : updatePerson id s now db = .ok ws) : Mirror (applyAll db ws) := by
  obtain ⟨old, new, hold, rfl, -, rfl⟩ := updatePerson_ok h
  by_cases hflip : new.isActive ≠ old.isActive
  · rw [personsPropagateIsActive, if_pos hflip, applyAll_cons]
    obtain ⟨hp, hrows⟩ := applyAll_putFaces (g := fun f => { f with isActive := new.isActive })
      (fun _ => rfl) (nodup_ids db fun f => f.personId = new.id) (apply db (.putPerson new))
    intro x hx
    rw [flag_of_persons_eq hp, flag_putPerson]
    rcases (hrows x).1 hx with ⟨f, hf, rfl⟩ | ⟨hx, hother⟩
    · have hid : f.personId = new.id := by simpa using (List.mem_filter.1 hf).2
      simp [hid]
    · have hne : new.id ≠ x.personId := fun he =>
        hother x (List.mem_filter.2 ⟨hx, by simp [he]⟩) rfl
      rw [if_neg hne]
      exact hm x hx
  · rw [personsPropagateIsActive, if_neg hflip]
    intro x (hx : x ∈ db.faces.rows)
    rw [applyAll_cons, applyAll_nil, flag_putPerson]
    by_cases he : new.id = x.personId
    · have hflag := hm x hx
      rw [← he, flag, hold] at hflag
      rw [if_pos he, not_not.1 hflip]
      exact hflag
    · rw [if_neg he]
      exact hm x hx

theorem mirror_deletePerson {id : UUID} (hm : Mirror db) (h : deletePerson id db = .ok ws) :
    Mirror (applyAll db ws) := by
  obtain rfl := Except.ok.inj h
  obtain ⟨hp, hrows⟩ := applyAll_dropFaces (db.faces.rows.filter fun f => f.personId = id) db
  intro x hx
  rw [applyAll, ReadCommitted.Engine.applyAll_append] at hx ⊢
  obtain ⟨hx, hother⟩ := (hrows x).1 hx
  have hne : x.personId ≠ id := fun he => hother x (List.mem_filter.2 ⟨hx, by simp [he]⟩) rfl
  refine (flag_dropPerson _ _ _).trans ?_
  rw [if_neg hne, flag_of_persons_eq hp]
  exact hm x hx

theorem mirror_updateFace {id : UUID} {s : FaceSet} {now : Time} (hm : Mirror db)
    (h : updateFace id s now db = .ok ws) : Mirror (applyAll db ws) := by
  obtain ⟨old, new, hold, rfl, hperson, hactive, rfl⟩ := updateFace_ok h
  intro x (hx : x ∈ (db.faces.put new).rows)
  rcases Table.mem_put.1 hx with rfl | ⟨hx, -⟩
  · rw [hperson, hactive]
    exact hm old (Table.get?_eq_some.1 hold).1
  · exact hm x hx

theorem mirror_deleteFace {id : UUID} (hm : Mirror db) (h : deleteFace id db = .ok ws) :
    Mirror (applyAll db ws) := by
  obtain rfl := Except.ok.inj h
  intro x (hx : x ∈ (db.faces.erase id).rows)
  exact hm x (Table.mem_erase.1 hx).1

theorem mirror_run {q : Statement} (hm : Mirror db) (h : q.run db = .ok ws) :
    Mirror (applyAll db ws) := by
  cases q with
  | insertPerson p => exact mirror_insertPerson hm h
  | updatePerson id s now => exact mirror_updatePerson hm h
  | deletePerson id => exact mirror_deletePerson hm h
  | insertFace f => exact mirror_insertFace hm h
  | updateFace id s now => exact mirror_updateFace hm h
  | deleteFace id => exact mirror_deleteFace hm h
  | insertLog l =>
    obtain rfl := insertLog_ok h
    exact hm

/-! ### Alice without faces and with, Alice and Bob -/

def alice : Person := ⟨1, none, "Alice", .emptyObject, true, 0, 0⟩

def bob : Person := { alice with id := 2, fullName := "Bob" }

/-- A vector in the plane of the first two axes. -/
def planar (x y : ℚ) : Embedding := fun i => if i.val = 0 then x else if i.val = 1 then y else 0

/-- The cosine distance of two unit vectors of the plane. -/
def planarDistance (e q : Embedding) : ℚ :=
  1 - (e ⟨0, by decide⟩ * q ⟨0, by decide⟩ + e ⟨1, by decide⟩ * q ⟨1, by decide⟩)

def aliceFace : Face :=
  { id := 7, personId := 1, embedding := planar (4 / 5) (3 / 5), detScore := 9 / 10
    quality := some (9 / 10), imagePath := none, bbox := none, thumbnail := none, createdAt := 0
    updatedAt := 0, isActive := true }

def onlyAlice : Database := { Database.empty with persons := Table.empty.put alice }

def aliceEnrolled : Database := { onlyAlice with faces := Table.empty.put aliceFace }

def aliceAndBob : Database := { onlyAlice with persons := onlyAlice.persons.put bob }

theorem mirror_onlyAlice : Mirror onlyAlice := by
  intro f hf
  cases hf

theorem mirror_aliceEnrolled : Mirror aliceEnrolled := by
  intro f hf
  obtain rfl := List.mem_singleton.1 hf
  rfl

theorem mirror_aliceAndBob : Mirror aliceAndBob := by
  intro f hf
  cases hf

def enrolledFace (id personId : UUID) (embedding : Embedding) (createdAt : Time) : Face :=
  { aliceFace with id := id, personId := personId, embedding := embedding, createdAt := createdAt }

/-- Two faces of Alice from one import batch, two of Bob from another, and one more of Alice. -/
def bothEnrolled : Database :=
  { aliceAndBob with
    faces := ((((Table.empty.put (enrolledFace 7 1 (planar (4 / 5) (3 / 5)) 30)).put
      (enrolledFace 8 1 (planar 1 0) 30)).put
        (enrolledFace 9 2 (planar (4 / 5) (-3 / 5)) 20)).put
          (enrolledFace 10 2 (planar 0 1) 20)).put
            (enrolledFace 11 1 (planar (5 / 13) (12 / 13)) 10) }

theorem mirror_bothEnrolled : Mirror bothEnrolled := by
  show ∀ f ∈ bothEnrolled.faces.rows, flag bothEnrolled f.personId = some f.isActive
  decide +kernel

def carol : Person := { alice with id := 3, fullName := "Carol", isActive := false }

/-- Carol's face lies on the first axis, as one of Alice's does, and is not active either. -/
def withCarol : Database :=
  { bothEnrolled with
    persons := bothEnrolled.persons.put carol
    faces := bothEnrolled.faces.put { enrolledFace 12 3 (planar 1 0) 40 with isActive := false } }

theorem mirror_withCarol : Mirror withCarol := by
  show ∀ f ∈ withCarol.faces.rows, flag withCarol f.personId = some f.isActive
  decide +kernel

/-- Two faces of Alice from one import batch. -/
def aliceTwice : Database :=
  { aliceEnrolled with faces := aliceEnrolled.faces.put { aliceFace with id := 8 } }

theorem hasPerson_aliceTwice : HasPerson aliceTwice := by
  intro f hf
  rcases Table.mem_put.1 hf with rfl | ⟨hf, -⟩
  · rfl
  · exact mirror_aliceEnrolled.hasPerson f hf

end FaceRecognition.Db
