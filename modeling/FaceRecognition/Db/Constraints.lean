import FaceRecognition.Db.Repositories

/-!
# The constraints on rows

What a statement leaves in the tables of persons and faces. A condition on the rows of one table is
kept by a statement when the row it writes meets it (`personsWith_keptBy`, `facesWith_keptBy`), and
every statement keeps the constraints of `persons` (`constrained_keptBy`).
-/

namespace FaceRecognition.Db

open Relational Recognition

variable {db : Database} {ws : List Write} {q : Statement}

/-! ### The tables after a statement -/

theorem persons_applyAll (h : ∀ w ∈ ws, ∀ id, w.row ≠ .person id) :
    (applyAll db ws).persons = db.persons := by
  induction ws generalizing db with
  | nil => rfl
  | cons w ws ih =>
    have hw := h w List.mem_cons_self
    rw [applyAll_cons, ih fun w' hw' => h w' (List.mem_cons_of_mem w hw')]
    cases w with
    | putPerson p => exact absurd rfl (hw p.id)
    | dropPerson id => exact absurd rfl (hw id)
    | putFace f => rfl
    | dropFace id => rfl
    | putLog l => rfl

theorem logs_applyAll (h : ∀ w ∈ ws, ∀ id, w.row ≠ .log id) : (applyAll db ws).logs = db.logs := by
  induction ws generalizing db with
  | nil => rfl
  | cons w ws ih =>
    have hw := h w List.mem_cons_self
    rw [applyAll_cons, ih fun w' hw' => h w' (List.mem_cons_of_mem w hw')]
    cases w with
    | putLog l => exact absurd rfl (hw l.id)
    | putPerson p => rfl
    | dropPerson id => rfl
    | putFace f => rfl
    | dropFace id => rfl

theorem mem_faces_applyAll {f : Face} (h : f ∈ (applyAll db ws).faces.rows) :
    f ∈ db.faces.rows ∨ .putFace f ∈ ws := by
  induction ws generalizing db with
  | nil => exact .inl h
  | cons w ws ih =>
    rcases ih h with hf | hf
    · cases w with
      | putFace g =>
        rcases Table.mem_put.1 hf with rfl | ⟨hf, -⟩
        · exact .inr List.mem_cons_self
        · exact .inl hf
      | dropFace id => exact .inl (Table.mem_erase.1 hf).1
      | putPerson p => exact .inl hf
      | dropPerson id => exact .inl hf
      | putLog l => exact .inl hf
    · exact .inr (List.mem_cons_of_mem w hf)

theorem mem_personsPropagateIsActive {old new : Person} {w : Write}
    (h : w ∈ personsPropagateIsActive old new db) :
    ∃ f ∈ db.faces.rows, w = .putFace { f with isActive := new.isActive } := by
  rw [personsPropagateIsActive] at h
  split_ifs at h
  · obtain ⟨f, hf, rfl⟩ := List.mem_map.1 h
    exact ⟨f, (List.mem_filter.1 hf).1, rfl⟩
  · cases h

theorem persons_updated (old new : Person) :
    (applyAll db (.putPerson new :: personsPropagateIsActive old new db)).persons =
      db.persons.put new := by
  rw [applyAll_cons, persons_applyAll]
  · rfl
  · intro w hw id he
    obtain ⟨f, -, rfl⟩ := mem_personsPropagateIsActive hw
    cases he

theorem logs_updated (old new : Person) :
    (applyAll db (.putPerson new :: personsPropagateIsActive old new db)).logs = db.logs := by
  rw [applyAll_cons, logs_applyAll]
  · rfl
  · intro w hw id he
    obtain ⟨f, -, rfl⟩ := mem_personsPropagateIsActive hw
    cases he

/-- A flag that changes is mirrored to the faces of the person. -/
theorem mem_faces_updated {old new : Person} {f : Face} :
    f ∈ (applyAll db (.putPerson new :: personsPropagateIsActive old new db)).faces.rows ↔
      ∃ g ∈ db.faces.rows, f =
        if g.personId = new.id ∧ new.isActive ≠ old.isActive then { g with isActive := new.isActive }
        else g := by
  rw [personsPropagateIsActive]
  split_ifs with hflip
  · rw [applyAll_cons, (applyAll_putFaces (g := fun f => { f with isActive := new.isActive })
      (fun _ => rfl) (nodup_ids db fun f => f.personId = new.id) (apply db (.putPerson new))).2]
    constructor
    · rintro (⟨g, hg, rfl⟩ | ⟨hf, hother⟩)
      · obtain ⟨hmem, hid⟩ := List.mem_filter.1 hg
        exact ⟨g, hmem, (if_pos ⟨of_decide_eq_true hid, hflip⟩).symm⟩
      · refine ⟨f, hf, (if_neg fun hcond => ?_).symm⟩
        exact hother f (List.mem_filter.2 ⟨hf, decide_eq_true hcond.1⟩) rfl
    · rintro ⟨g, hg, rfl⟩
      by_cases hid : g.personId = new.id
      · rw [if_pos ⟨hid, hflip⟩]
        exact .inl ⟨g, List.mem_filter.2 ⟨hg, decide_eq_true hid⟩, rfl⟩
      · rw [if_neg fun hcond => hid hcond.1]
        refine .inr ⟨hg, fun f hf he => hid ?_⟩
        obtain ⟨hmem, hf⟩ := List.mem_filter.1 hf
        rw [← db.faces.eq_of_pk_eq hmem hg he]
        exact of_decide_eq_true hf
  · have hsame : ∀ g : Face, (if g.personId = new.id ∧ new.isActive ≠ old.isActive then
        { g with isActive := new.isActive } else g) = g := fun g =>
      if_neg fun hcond => hflip hcond.2
    simp only [hsame, exists_eq_right']
    rfl

/-- The persons after a statement. -/
inductive PersonsAfter (db : Database) : Statement → Table Person → Prop
  | same {q : Statement} : PersonsAfter db q db.persons
  | inserted {p : Person} (hid : fits 128 p.externalId = true)
    (hname : fits 255 (some p.fullName) = true)
    (hfree : externalIdFree db p.id p.externalId = true) :
    PersonsAfter db (.insertPerson p) (db.persons.put p)
  | updated {s : PersonSet} {now : Time} {old : Person} (hold : old ∈ db.persons.rows)
    (h : s.Admissible old db) :
    PersonsAfter db (.updatePerson old.id s now) (db.persons.put (s.applyTo now old))
  | deleted {id : UUID} : PersonsAfter db (.deletePerson id) (db.persons.erase id)

theorem persons_after (h : q.run db = .ok ws) : PersonsAfter db q (applyAll db ws).persons := by
  cases q with
  | insertPerson p =>
    obtain ⟨⟨hid, hname, -, hfree⟩, rfl⟩ := insertPerson_eq_ok.1 h
    exact .inserted hid hname hfree
  | updatePerson id s now =>
    obtain ⟨old, hold, hadmissible, rfl⟩ := updatePerson_eq_ok.1 h
    obtain ⟨hmem, rfl⟩ := Table.get?_eq_some.1 hold
    rw [persons_updated]
    exact .updated hmem hadmissible
  | deletePerson id =>
    obtain rfl := Except.ok.inj h
    have hfaces : (applyAll db ((db.faces.rows.filter fun f => f.personId = id).map
        fun f => .dropFace f.id)).persons = db.persons := (applyAll_dropFaces _ db).1
    rw [applyAll, ReadCommitted.Engine.applyAll_append]
    show PersonsAfter db _ ((applyAll db _).persons.erase id)
    rw [hfaces]
    exact .deleted
  | insertFace f =>
    obtain ⟨p, -, -, rfl⟩ := insertFace_ok h
    exact .same
  | updateFace id s now =>
    obtain ⟨old, -, -, rfl⟩ := updateFace_eq_ok.1 h
    exact .same
  | deleteFace id =>
    obtain rfl := Except.ok.inj h
    exact .same
  | insertLog l =>
    obtain rfl := insertLog_ok h
    exact .same

/-- The log after a statement: an INSERT into it adds a row, and no other statement writes to it. -/
theorem logs_after (h : q.run db = .ok ws) : (applyAll db ws).logs = db.logs ∨
    ∃ l, q = .insertLog l ∧ db.logs.get? l.id = none ∧
      (applyAll db ws).logs = db.logs.put l := by
  cases q with
  | insertLog l =>
    have hnew := insertLog_new h
    obtain rfl := insertLog_ok h
    exact .inr ⟨l, rfl, hnew, rfl⟩
  | insertPerson p =>
    obtain ⟨-, rfl⟩ := insertPerson_ok h
    exact .inl rfl
  | updatePerson id s now =>
    obtain ⟨old, -, -, rfl⟩ := updatePerson_eq_ok.1 h
    exact .inl (logs_updated _ _)
  | deletePerson id =>
    obtain rfl := Except.ok.inj h
    refine .inl (logs_applyAll fun w hw id he => ?_)
    rcases List.mem_append.1 hw with hw | hw
    · obtain ⟨f, -, rfl⟩ := List.mem_map.1 hw
      cases he
    · obtain rfl := List.mem_singleton.1 hw
      cases he
  | insertFace f =>
    obtain ⟨p, -, -, rfl⟩ := insertFace_ok h
    exact .inl rfl
  | updateFace id s now =>
    obtain ⟨old, -, -, rfl⟩ := updateFace_eq_ok.1 h
    exact .inl rfl
  | deleteFace id =>
    obtain rfl := Except.ok.inj h
    exact .inl rfl

/-- The embedding a statement stores. -/
def Statement.embedding? : Statement → Option Embedding
  | .insertFace f => some f.embedding
  | .updateFace _ s _ => some s.embedding
  | _ => none

/-- The embedding of a face was there before, or the statement stores it. -/
theorem embedding_after (h : q.run db = .ok ws) {f : Face}
    (hf : f ∈ (applyAll db ws).faces.rows) :
    (∃ g ∈ db.faces.rows, g.embedding = f.embedding) ∨ q.embedding? = some f.embedding := by
  rcases mem_faces_applyAll hf with hold | hput
  · exact .inl ⟨f, hold, rfl⟩
  cases q with
  | insertFace g =>
    obtain ⟨p, -, -, rfl⟩ := insertFace_ok h
    obtain rfl := Write.putFace.inj (List.mem_singleton.1 hput)
    exact .inr rfl
  | updateFace id s now =>
    obtain ⟨old, -, -, rfl⟩ := updateFace_eq_ok.1 h
    obtain rfl := Write.putFace.inj (List.mem_singleton.1 hput)
    exact .inr rfl
  | updatePerson id s now =>
    obtain ⟨old, -, -, rfl⟩ := updatePerson_eq_ok.1 h
    rcases List.mem_cons.1 hput with hput | hput
    · cases hput
    · obtain ⟨g, hg, heq⟩ := mem_personsPropagateIsActive hput
      obtain rfl := Write.putFace.inj heq
      exact .inl ⟨g, hg, rfl⟩
  | insertPerson p =>
    obtain ⟨-, rfl⟩ := insertPerson_ok h
    cases List.mem_singleton.1 hput
  | deletePerson id =>
    obtain rfl := Except.ok.inj h
    rcases List.mem_append.1 hput with hput | hput
    · obtain ⟨g, -, heq⟩ := List.mem_map.1 hput
      cases heq
    · cases List.mem_singleton.1 hput
  | deleteFace id =>
    obtain rfl := Except.ok.inj h
    cases List.mem_singleton.1 hput
  | insertLog l =>
    obtain rfl := insertLog_ok h
    cases List.mem_singleton.1 hput

/-! ### Conditions on every row -/

def PersonsWith (P : Person → Prop) (db : Database) : Prop := ∀ p ∈ db.persons.rows, P p

def FacesWith (P : Embedding → Prop) (db : Database) : Prop := ∀ f ∈ db.faces.rows, P f.embedding

theorem personsWith_keptBy {P : Person → Prop}
    (hinsert : ∀ p, q = .insertPerson p → fits 128 p.externalId = true →
      fits 255 (some p.fullName) = true → P p)
    (hupdate : ∀ (db : Database) (s : PersonSet) (now : Time) (old : Person),
      q = .updatePerson old.id s now → s.Admissible old db → P old → P (s.applyTo now old)) :
    KeptBy (PersonsWith P) q := by
  intro db ws h hrun p hp
  have hafter := persons_after hrun
  generalize (applyAll db ws).persons = t at hafter hp
  cases hafter with
  | same => exact h p hp
  | inserted hid hname _ =>
    rcases Table.mem_put.1 hp with rfl | ⟨hp, -⟩
    · exact hinsert p rfl hid hname
    · exact h p hp
  | updated hold hadmissible =>
    rcases Table.mem_put.1 hp with rfl | ⟨hp, -⟩
    · exact hupdate db _ _ _ rfl hadmissible (h _ hold)
    · exact h p hp
  | deleted => exact h p (Table.mem_erase.1 hp).1

theorem facesWith_keptBy {P : Embedding → Prop} (hq : ∀ e, q.embedding? = some e → P e) :
    KeptBy (FacesWith P) q := by
  intro db ws h hrun f hf
  rcases embedding_after hrun hf with ⟨g, hg, he⟩ | he
  · rw [← he]
    exact h g hg
  · exact hq _ he

/-! ### The constraints of `persons` -/

/-- No two persons share an external id. -/
def UniqueExternalIds (db : Database) : Prop :=
  ∀ p ∈ db.persons.rows, externalIdFree db p.id p.externalId = true

/-- What PostgreSQL enforces on the rows of `persons`. -/
structure Constrained (db : Database) : Prop where
  fits : PersonsWith (fun p => fits 128 p.externalId = true ∧ fits 255 (some p.fullName) = true) db
  unique : UniqueExternalIds db

theorem externalIdFree_iff {id : UUID} {externalId : Option String} :
    externalIdFree db id externalId = true ↔
      ∀ s, externalId = some s → ∀ p ∈ db.persons.rows, p.externalId = some s → p.id = id := by
  cases externalId with
  | none => simp [externalIdFree]
  | some s =>
    simp only [externalIdFree, Option.isNone_some, Bool.false_or, List.all_eq_true,
      Bool.or_eq_true, decide_eq_true_eq, Option.some.injEq, forall_eq']
    refine forall_congr' fun p => forall_congr' fun _ => ?_
    constructor
    · rintro (hid | hne) heq
      · exact hid
      · exact absurd heq hne
    · intro h
      by_cases heq : p.externalId = some s
      · exact .inl (h heq)
      · exact .inr heq

theorem unique_put {p : Person} {db' : Database} (h : UniqueExternalIds db)
    (hp : externalIdFree db p.id p.externalId = true) (hdb' : db'.persons = db.persons.put p) :
    UniqueExternalIds db' := by
  rw [externalIdFree_iff] at hp
  intro a ha
  rw [externalIdFree_iff]
  intro s hs b hb hsb
  rw [hdb'] at ha hb
  rcases Table.mem_put.1 ha with rfl | ⟨hamem, -⟩ <;>
    rcases Table.mem_put.1 hb with rfl | ⟨hbmem, -⟩
  · rfl
  · exact hp s hs b hbmem hsb
  · exact (hp s hsb a hamem hs).symm
  · exact externalIdFree_iff.1 (h a hamem) s hs b hbmem hsb

theorem unique_keptBy (q : Statement) : KeptBy UniqueExternalIds q := by
  intro db ws h hrun
  have hafter := persons_after hrun
  generalize ht : (applyAll db ws).persons = t at hafter
  cases hafter with
  | same =>
    intro a ha
    rw [ht] at ha
    have ha' := h a ha
    rwa [externalIdFree, ← ht] at ha'
  | inserted _ _ hfree => exact unique_put h hfree ht
  | @updated s now old hold hadmissible =>
    exact unique_put (p := s.applyTo now old) h hadmissible.externalId_free ht
  | deleted =>
    intro a ha
    rw [externalIdFree_iff]
    intro s hs b hb hsb
    rw [ht] at ha hb
    exact externalIdFree_iff.1 (h a (Table.mem_erase.1 ha).1) s hs b (Table.mem_erase.1 hb).1 hsb

theorem constrained_keptBy (q : Statement) : KeptBy Constrained q := by
  intro db ws h hrun
  refine ⟨?_, unique_keptBy q db ws h.unique hrun⟩
  refine personsWith_keptBy (fun p _ hid hname => ⟨hid, hname⟩)
    (fun db s now old _ hadmissible hold => ⟨hadmissible.externalId_fits, ?_⟩) db ws h.fits hrun
  have hname := hadmissible.fullName_fits
  show Db.fits 255 (some ((s.fullName.getD none).getD old.fullName)) = true
  cases hs : s.fullName with
  | none => exact hold.2
  | some name =>
    rw [hs] at hname
    cases name with
    | none => exact hold.2
    | some name => exact hname

theorem constrained_empty : Constrained Database.empty :=
  ⟨fun _ hp => (by cases hp), fun _ hp => (by cases hp)⟩

end FaceRecognition.Db
