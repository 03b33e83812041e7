import FaceRecognition.Db.Repositories
import FaceRecognition.Db.Mirror
import FaceRecognition.Lib.Paging

/-!
# Listings, page by page

`list_with_person` orders the faces by `created_at` only, and `list` orders the rows not at all, so
the database may arrange ties, or all rows, as it likes in each query. Pages of L rows show every
face once iff faces of the same time, such as those of an import batch, never cross the border of a
page, and every person once iff the persons fit on one page (`listings_once_iff`).
-/

namespace FaceRecognition.Db

open Relational Paging

/-! ### The queries -/

/-- `WHERE faces.person_id = :person_id`, when there is a filter. -/
def ofPerson (personId : Option UUID) (f : Face) : Bool := personId.all fun id => f.personId = id

namespace FaceRepository

/-- `SELECT faces.*, persons.full_name FROM faces JOIN persons ON persons.id = faces.person_id` -/
def withPerson (personId : Option UUID) (db : Database) : List (Face × String) :=
  ((joined db).filter fun r => ofPerson personId r.1).map fun r => (r.1, r.2.fullName)

/-- `ORDER BY faces.created_at DESC` -/
def createdAt (r : Face × String) : Time := r.1.createdAt

/-- `order` is what the database makes of the ties in this query. -/
def listWithPerson (order : Arrangement createdAt) (limit offset : ℕ) (personId : Option UUID)
    (db : Database) : List (Face × String) :=
  ((order.arrange (withPerson personId db)).drop offset).take limit

def count (personId : Option UUID) (db : Database) : ℕ := db.faces.rows.countP (ofPerson personId)

end FaceRepository

/-- Without ORDER BY, all rows are ties. -/
def unordered {ρ : Type} (_ : ρ) : Unit := ()

def BaseRepository.list {ρ : Type} (order : Arrangement (unordered (ρ := ρ))) (limit offset : ℕ)
    (rows : List ρ) : List ρ :=
  ((order.arrange rows).drop offset).take limit

namespace PersonRepository

def list (order : Arrangement (unordered (ρ := Person))) (limit offset : ℕ) (db : Database) :
    List Person :=
  BaseRepository.list order limit offset db.persons.rows

def count (db : Database) : ℕ := db.persons.rows.length

end PersonRepository

/-! ### Every row once -/

/-- Faces, of one person or of all, in pages of `L` until an empty one: whatever the arrangements,
every face is shown once. -/
def FacesOnce (db : Database) (L : ℕ) (personId : Option UUID) : Prop :=
  ∀ order : ℕ → Arrangement FaceRepository.createdAt, ∃ shown,
    Pages (fun k => FaceRepository.listWithPerson (order k) L (k * L) personId db) 0 shown ∧
      (shown.map Prod.fst).Perm (db.faces.rows.filter (ofPerson personId))

def PersonsOnce (db : Database) (L : ℕ) : Prop :=
  ∀ order : ℕ → Arrangement unordered, ∃ shown,
    Pages (fun k => PersonRepository.list (order k) L (k * L) db) 0 shown ∧
      shown.Perm db.persons.rows

section
variable {db : Database}

theorem faces_withPerson (h : HasPerson db) (personId : Option UUID) :
    (FaceRepository.withPerson personId db).map Prod.fst =
      db.faces.rows.filter (ofPerson personId) := by
  have hjoined : ∀ l : List Face, (∀ f ∈ l, (db.persons.get? f.personId).isSome) →
      ((l.filterMap fun f => (db.persons.get? f.personId).map fun p => (f, p)).filter
        fun r => ofPerson personId r.1).map Prod.fst = l.filter (ofPerson personId) := by
    intro l hl
    induction l with
    | nil => rfl
    | cons f l ih =>
      obtain ⟨p, hp⟩ := Option.isSome_iff_exists.1 (hl f List.mem_cons_self)
      have hrest := ih fun g hg => hl g (List.mem_cons_of_mem f hg)
      rw [List.filterMap_cons_some (by rw [hp]; rfl), List.filter_cons, List.filter_cons]
      split_ifs
      · rw [List.map_cons, hrest]
      · exact hrest
  rw [FaceRepository.withPerson, List.map_map, ← hjoined db.faces.rows h]
  rfl

theorem facesOnce_iff {L : ℕ} (hL : 0 < L) (h : HasPerson db) (personId : Option UUID) :
    FacesOnce db L personId ↔
      OnOnePage FaceRepository.createdAt L (FaceRepository.withPerson personId db) := by
  have hnodup : ((FaceRepository.withPerson personId db).map Prod.fst).Nodup := by
    rw [faces_withPerson h]
    exact (List.Nodup.of_map _ db.faces.nodup).filter _
  rw [← each_once_iff Prod.fst hL hnodup, faces_withPerson h]
  rfl

/-- All persons are ties. -/
theorem personsOnce_iff {L : ℕ} (hL : 0 < L) : PersonsOnce db L ↔ db.persons.rows.length ≤ L := by
  have hnodup : (db.persons.rows.map id).Nodup := by
    rw [List.map_id]
    exact .of_map _ db.persons.nodup
  have honce : PersonsOnce db L ↔ OnOnePage unordered L db.persons.rows := by
    rw [← each_once_iff id hL hnodup]
    simp only [List.map_id]
    rfl
  have hnewer : newer unordered db.persons.rows () = 0 := by simp [newer]
  have hnotOlder : notOlder unordered db.persons.rows () = db.persons.rows.length := by
    simp [notOlder]
  rw [honce, OnOnePage]
  simp only [unordered, hnewer, hnotOlder, Nat.zero_div]
  cases hrows : db.persons.rows with
  | nil => simp
  | cons p ps =>
    rw [List.length_cons, Nat.add_sub_cancel, Nat.add_one_le_iff, ← Nat.div_eq_zero_iff_lt hL]
    exact ⟨fun h => (h p List.mem_cons_self).symm, fun h _ _ => h.symm⟩

/-- Faces of one transaction that are more than a page are not shown once. -/
theorem not_facesOnce_of_batch {L : ℕ} (hL : 0 < L) (h : HasPerson db) {t : Time}
    (hbatch : L < db.faces.rows.countP fun f => f.createdAt = t) : ¬ FacesOnce db L none := by
  have hfaces : (FaceRepository.withPerson none db).map Prod.fst = db.faces.rows :=
    (faces_withPerson h none).trans (List.filter_true _)
  rw [← hfaces, List.countP_map] at hbatch
  intro honce
  have hone := (facesOnce_iff hL h none).1 honce
  exact absurd (hone.tied_le hL t) (not_le.2 hbatch)

end

/-- **Every face and every person is shown once** iff no faces of the same time cross the border of
a page, and the persons fit on one page. -/
theorem listings_once_iff (db : Database) (L : ℕ) (hL : 0 < L) (h : HasPerson db) :
    (∀ personId, FacesOnce db L personId) ∧ PersonsOnce db L ↔
      (∀ personId, OnOnePage FaceRepository.createdAt L (FaceRepository.withPerson personId db)) ∧
        db.persons.rows.length ≤ L := by
  rw [personsOnce_iff hL]
  exact and_congr_left' (forall_congr' fun personId => facesOnce_iff hL h personId)

/-- Alice's import batch is the first page, Bob's the second, and her oldest face the third. -/
theorem listings_once_threePages :
    (∀ personId, FacesOnce bothEnrolled 2 personId) ∧ PersonsOnce bothEnrolled 2 := by
  have hperson := mirror_bothEnrolled.hasPerson
  refine (listings_once_iff bothEnrolled 2 (by decide) hperson).2 ⟨fun personId => ?_, by decide⟩
  match personId with
  | none => decide +kernel
  | some id =>
    by_cases hid : id = 1 ∨ id = 2
    · rcases hid with rfl | rfl <;> decide +kernel
    · have hids : ∀ f ∈ bothEnrolled.faces.rows, f.personId = 1 ∨ f.personId = 2 := by
        decide +kernel
      have hnone : FaceRepository.withPerson (some id) bothEnrolled = [] := by
        rw [← List.map_eq_nil_iff, faces_withPerson hperson, List.filter_eq_nil_iff]
        intro f hf hof
        exact hid (of_decide_eq_true hof ▸ hids f hf)
      rw [hnone]
      exact onOnePage_of_length_le (Nat.zero_le 2)

/-- Page by page, one face is shown twice and the other never. -/
theorem face_shown_twice : ¬ FacesOnce aliceTwice 1 none := by
  rw [facesOnce_iff (by decide) hasPerson_aliceTwice]
  decide +kernel

end FaceRecognition.Db
