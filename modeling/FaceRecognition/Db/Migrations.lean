import Mathlib.Order.Bounds.Basic
import FaceRecognition.Db.ApiKeys
import FaceRecognition.Db.Mirror
import FaceRecognition.Db.Users
import FaceRecognition.Lib.UpDown

/-!
# The migrations

The four revisions, each an upgrade and a downgrade of the tables. A downgrade undoes its upgrade
(`undo`), but an upgrade after a downgrade does not bring back what the lower revision has no column
or table for. A run of migrations from the last revision loses exactly that (`migrations`): below
0004 nothing, as the flags of the faces are copied from their persons again, below 0003 the keys,
below 0002 the thumbnails, and below 0001 everything.
-/

namespace FaceRecognition.Db

open Relational UpDown

/-! ### The tables of a revision -/

/-- The columns of `faces` at revision 0001. -/
structure Face0001 where
  id : UUID
  personId : UUID
  embedding : Recognition.Embedding
  detScore : ℚ
  quality : Option ℚ
  imagePath : Option String
  bbox : Option Recognition.BBox
  createdAt : Time
  updatedAt : Time

instance : PrimaryKey Face0001 UUID := ⟨Face0001.id⟩

@[ext] structure Tables0001 where
  users : Users
  persons : Table Person
  faces : Table Face0001
  logs : Table RecognitionLog
  hasPerson : ∀ f ∈ faces.rows, (persons.get? f.personId).isSome

/-- The tables that revision 0003 does not add. -/
@[ext] structure Tables0002 where
  users : Users
  db : Database0003

@[ext] structure Tables0003 where
  users : Users
  db : Database0003
  apiKeys : Table ApiKey

@[ext] structure Tables0004 where
  users : Users
  db : FullDatabase
  hasPerson : HasPerson db.toDatabase

/-- `base` is the empty database. -/
inductive Schema where
  | base
  | rev0001 (t : Tables0001)
  | rev0002 (t : Tables0002)
  | rev0003 (t : Tables0003)
  | rev0004 (t : Tables0004)

def Schema.revision : Schema → ℕ
  | .base => 0
  | .rev0001 _ => 1
  | .rev0002 _ => 2
  | .rev0003 _ => 3
  | .rev0004 _ => 4

/-! ### The revisions -/

def upgrade0001 : Tables0001 where
  users := Table.empty
  persons := Table.empty
  faces := Table.empty
  logs := Table.empty
  hasPerson f hf := by cases hf

/-- ADD COLUMN thumbnail, which may be null. -/
def addThumbnail (f : Face0001) : FaceBase where
  id := f.id
  personId := f.personId
  embedding := f.embedding
  detScore := f.detScore
  quality := f.quality
  imagePath := f.imagePath
  bbox := f.bbox
  thumbnail := none
  createdAt := f.createdAt
  updatedAt := f.updatedAt

/-- DROP COLUMN thumbnail -/
def dropThumbnail (f : FaceBase) : Face0001 where
  id := f.id
  personId := f.personId
  embedding := f.embedding
  detScore := f.detScore
  quality := f.quality
  imagePath := f.imagePath
  bbox := f.bbox
  createdAt := f.createdAt
  updatedAt := f.updatedAt

def upgrade0002 (t : Tables0001) : Tables0002 where
  users := t.users
  db :=
    { persons := t.persons
      faces := t.faces.map addThumbnail fun _ => rfl
      logs := t.logs
      hasPerson := List.forall_mem_map.2 t.hasPerson }

def downgrade0002 (t : Tables0002) : Tables0001 where
  users := t.users
  persons := t.db.persons
  faces := t.db.faces.map dropThumbnail fun _ => rfl
  logs := t.db.logs
  hasPerson := List.forall_mem_map.2 t.db.hasPerson

def upgrade0003 (t : Tables0002) : Tables0003 := { t with apiKeys := Table.empty }

def downgrade0003 (t : Tables0003) : Tables0002 := { t with }

/-- The whole of `upgrade0004`, with the tables it does not touch. -/
def migrate0004 (t : Tables0003) : Tables0004 where
  users := t.users
  db := { upgrade0004 t.db with apiKeys := t.apiKeys }
  hasPerson := (mirror_upgrade t.db).hasPerson

def downgrade0004 (t : Tables0004) : Tables0003 where
  users := t.users
  db :=
    { persons := t.db.persons
      faces := t.db.faces.map Face.toFaceBase fun _ => rfl
      logs := t.db.logs
      hasPerson := List.forall_mem_map.2 t.hasPerson }
  apiKeys := t.db.apiKeys

/-- `alembic upgrade +1`, `alembic downgrade -1` -/
def migrate : Schema → Move → Option Schema
  | .base, .up => some (.rev0001 upgrade0001)
  | .rev0001 t, .up => some (.rev0002 (upgrade0002 t))
  | .rev0002 t, .up => some (.rev0003 (upgrade0003 t))
  | .rev0003 t, .up => some (.rev0004 (migrate0004 t))
  | .rev0004 _, .up => none
  | .base, .down => none
  | .rev0001 _, .down => some .base
  | .rev0002 t, .down => some (.rev0001 (downgrade0002 t))
  | .rev0003 t, .down => some (.rev0002 (downgrade0003 t))
  | .rev0004 t, .down => some (.rev0003 (downgrade0004 t))

/-! ### A downgrade undoes its upgrade -/

theorem downgrade_upgrade0002 (t : Tables0001) : downgrade0002 (upgrade0002 t) = t := by
  refine Tables0001.ext rfl rfl (Table.ext ?_) rfl
  exact (List.map_map ..).trans (List.map_id t.faces.rows)

theorem toFaceBase_seedIsActive (persons : Table Person) (f : FaceBase) :
    (seedIsActive persons (addIsActive f)).toFaceBase = f := by
  rw [seedIsActive]
  cases persons.get? (addIsActive f).personId <;> rfl

theorem database0003_ext {db db' : Database0003} (hpersons : db.persons = db'.persons)
    (hfaces : db.faces = db'.faces) (hlogs : db.logs = db'.logs) : db = db' := by
  cases db
  cases db'
  cases hpersons
  cases hfaces
  cases hlogs
  rfl

theorem downgrade_migrate0004 (t : Tables0003) : downgrade0004 (migrate0004 t) = t := by
  refine Tables0003.ext rfl (database0003_ext rfl (Table.ext ?_) rfl) rfl
  calc ((t.db.faces.rows.map addIsActive).map (seedIsActive t.db.persons)).map Face.toFaceBase
      = t.db.faces.rows.map fun f => (seedIsActive t.db.persons (addIsActive f)).toFaceBase := by
        rw [List.map_map, List.map_map]
        rfl
    _ = t.db.faces.rows.map id :=
        List.map_congr_left fun f _ => toFaceBase_seedIsActive t.db.persons f
    _ = t.db.faces.rows := List.map_id _

theorem undo (s s' : Schema) (h : migrate s .up = some s') : migrate s' .down = some s := by
  cases s with
  | base =>
    cases h
    rfl
  | rev0001 t =>
    cases h
    exact congrArg (fun t => some (Schema.rev0001 t)) (downgrade_upgrade0002 t)
  | rev0002 t =>
    cases h
    rfl
  | rev0003 t =>
    cases h
    exact congrArg (fun t => some (Schema.rev0003 t)) (downgrade_migrate0004 t)
  | rev0004 t => cases h

/-! ### What a lower revision cannot hold -/

/-- A mirrored database gets its flags back. -/
theorem seedIsActive_of_mirror {db : Database} (h : Mirror db) {f : Face} (hf : f ∈ db.faces.rows) :
    seedIsActive db.persons (addIsActive f.toFaceBase) = f := by
  obtain ⟨p, hp, hactive⟩ := h.person hf
  have hp' : db.persons.get? (addIsActive f.toFaceBase).personId = some p := hp
  rw [seedIsActive, hp']
  dsimp only
  rw [hactive]
  rfl

/-- **An upgrade to 0004 brings back what its downgrade has dropped if and only if the flags of the
faces are those of their persons.** -/
theorem migrate_downgrade0004 (t : Tables0004) :
    migrate0004 (downgrade0004 t) = t ↔ Mirror t.db.toDatabase := by
  constructor
  · intro h
    have hmirror := mirror_upgrade (downgrade0004 t).db
    have hdb : (migrate0004 (downgrade0004 t)).db = t.db := congrArg Tables0004.db h
    rw [← hdb]
    exact hmirror
  · intro h
    obtain ⟨users, ⟨⟨persons, faces, logs⟩, apiKeys⟩, hasPerson⟩ := t
    have hfaces : ((faces.map Face.toFaceBase fun _ => rfl).map addIsActive fun _ => rfl).map
        (seedIsActive persons) (seedIsActive_id persons) = faces := by
      refine Table.ext ?_
      calc ((faces.rows.map Face.toFaceBase).map addIsActive).map (seedIsActive persons)
          = faces.rows.map fun f => seedIsActive persons (addIsActive f.toFaceBase) := by
            rw [List.map_map, List.map_map]
            rfl
        _ = faces.rows.map id := List.map_congr_left fun f hf => seedIsActive_of_mirror h hf
        _ = faces.rows := List.map_id _
    refine Tables0004.ext rfl ?_
    exact congrArg (fun faces => FullDatabase.mk ⟨persons, faces, logs⟩ apiKeys) hfaces

namespace Tables0004

def withoutKeys (t : Tables0004) : Tables0004 :=
  { t with db := { t.db with apiKeys := Table.empty } }

def withoutThumbnails (t : Tables0004) : Tables0004 where
  users := t.users
  db := { t.db with faces := t.db.faces.map (fun f => { f with thumbnail := none }) fun _ => rfl }
  hasPerson := List.forall_mem_map.2 t.hasPerson

/-- What a revision can hold. -/
def keeping (t : Tables0004) : ℕ → Tables0004
  | 0 => ⟨Table.empty, ⟨Database.empty, Table.empty⟩, fun f hf => by cases hf⟩
  | 1 => t.withoutThumbnails.withoutKeys
  | 2 => t.withoutKeys
  | _ => t

/-- The tables taken down to a revision. -/
def downTo (t : Tables0004) : ℕ → Schema
  | 0 => .base
  | 1 => .rev0001 (downgrade0002 (downgrade0003 (downgrade0004 t)))
  | 2 => .rev0002 (downgrade0003 (downgrade0004 t))
  | 3 => .rev0003 (downgrade0004 t)
  | _ => .rev0004 t

section
variable {t : Tables0004}

theorem mirror_keeping (h : Mirror t.db.toDatabase) (r : ℕ) :
    Mirror (t.keeping r).db.toDatabase := by
  match r with
  | 0 => exact fun f hf => by cases hf
  | 1 => exact List.forall_mem_map.2 fun f hf => h f hf
  | 2 | _ + 3 => exact h

theorem keeping_keeping {r r' : ℕ} (h : r ≤ r') : (t.keeping r).keeping r' = t.keeping r := by
  match r, r' with
  | 0, 0 | 0, 1 | 0, 2 | 0, _ + 3 => rfl
  | 1, 1 =>
    refine Tables0004.ext rfl (congrArg (fun faces => FullDatabase.mk ⟨_, faces, _⟩ _) ?_)
    exact Table.ext (List.map_map ..)
  | 1, 2 | 1, _ + 3 => rfl
  | 2, 2 | 2, _ + 3 => rfl
  | _ + 3, _ + 3 => rfl

/-- One revision up again. -/
theorem migrate_up_downTo (h : Mirror t.db.toDatabase) {r : ℕ} (hr : r < 4) :
    migrate (t.downTo r) .up = some ((t.keeping r).downTo (r + 1)) := by
  match r, hr with
  | 0, _ => rfl
  | 1, _ =>
    refine congrArg (fun t => some (Schema.rev0002 t)) (Tables0002.ext rfl ?_)
    refine database0003_ext rfl (Table.ext ?_) rfl
    simp only [upgrade0002, downgrade0002, downgrade0003, downgrade0004, withoutThumbnails,
      withoutKeys, keeping, Table.map, List.map_map]
    rfl
  | 2, _ => rfl
  | 3, _ => exact congrArg (fun t => some (Schema.rev0004 t)) ((migrate_downgrade0004 t).2 h)

/-- All the way up again. -/
theorem exec_ups (h : Mirror t.db.toDatabase) {r n : ℕ} (hr : r + n = 4) :
    Run.exec migrate (t.downTo r) (List.replicate n .up) = some (.rev0004 (t.keeping r)) := by
  induction n generalizing t r with
  | zero =>
    obtain rfl : r = 4 := hr
    rfl
  | succ n ih =>
    refine Run.exec_cons.2 ⟨_, migrate_up_downTo h (by omega), ?_⟩
    rw [ih (mirror_keeping h r) (by omega), keeping_keeping (Nat.le_succ r)]

theorem exec_downs_rev0004 {n : ℕ} {s : Schema}
    (h : Run.exec migrate (.rev0004 t) (List.replicate n .down) = some s) :
    n ≤ 4 ∧ s = t.downTo (4 - n) := by
  match n, h with
  | 0, h | 1, h | 2, h | 3, h | 4, h => exact ⟨by decide, (Option.some.inj h).symm⟩

end

end Tables0004

/-! ### Runs of migrations -/

theorem revision_le (s : Schema) : s.revision ≤ 4 := by
  cases s <;> simp [Schema.revision]

theorem revision_downTo (t : Tables0004) {r : ℕ} (hr : r ≤ 4) : (t.downTo r).revision = r := by
  match r, hr with
  | 0, _ | 1, _ | 2, _ | 3, _ | 4, _ => rfl

theorem revision_migrate {s s' : Schema} {m : Move} (h : migrate s m = some s') :
    s'.revision + [m].count .down = s.revision + [m].count .up := by
  cases s <;> cases m <;> cases h <;> rfl

theorem revision_exec {s s' : Schema} {ms : List Move} (h : Run.exec migrate s ms = some s') :
    s'.revision + ms.count .down = s.revision + ms.count .up := by
  induction ms generalizing s with
  | nil =>
    cases h
    rfl
  | cons m ms ih =>
    obtain ⟨u, hm, hrest⟩ := Run.exec_cons.1 h
    have hstep := revision_migrate hm
    have hend := ih hrest
    rw [← List.singleton_append, List.count_append, List.count_append]
    omega

/-- The revisions that a run goes through. -/
def visited (s : Schema) (ms : List Move) : Set ℕ :=
  {r | ∃ pre u, pre <+: ms ∧ Run.exec migrate s pre = some u ∧ u.revision = r}

/-- The lowest of them is where the run would turn if it went straight down and then up. -/
theorem isLeast_visited {t : Tables0004} {ms : List Move} {s : Schema}
    (hrun : Run.exec migrate (.rev0004 t) ms = some s) :
    IsLeast (visited (.rev0004 t) ms) (4 - (reduce ms).descent) := by
  constructor
  · obtain ⟨pre, ⟨post, rfl⟩, hcount⟩ := exists_lowest ms
    rw [Run.exec_append] at hrun
    obtain ⟨u, hu, -⟩ := Option.bind_eq_some_iff.1 hrun
    have hrevision : u.revision + pre.count .down = 4 + pre.count .up := revision_exec hu
    exact ⟨pre, u, ⟨post, rfl⟩, hu, by omega⟩
  · rintro r ⟨pre, u, hpre, hu, rfl⟩
    have hrevision : u.revision + pre.count .down = 4 + pre.count .up := revision_exec hu
    have hbelow := descent_le hpre
    omega

/-- **Migrations lose what the lowest revision cannot hold, and nothing else.** -/
theorem migrations {t : Tables0004} (hm : Mirror t.db.toDatabase) {ms : List Move} {s : Schema}
    (hrun : Run.exec migrate (.rev0004 t) ms = some s) {low : ℕ}
    (hlow : IsLeast (visited (.rev0004 t) ms) low) : s = (t.keeping low).downTo s.revision := by
  obtain rfl := hlow.unique (isLeast_visited hrun)
  have hroute := exec_reduce undo hrun
  rw [Route.moves, Run.exec_append] at hroute
  generalize (reduce ms).descent = n at hroute
  generalize (reduce ms).ascent = k at hroute
  obtain ⟨b, hdown, hup⟩ := Option.bind_eq_some_iff.1 hroute
  obtain ⟨hn, rfl⟩ := Tables0004.exec_downs_rev0004 hdown
  have hrevision : s.revision = 4 - n + k := by
    have hends := revision_exec hup
    rw [revision_downTo t (Nat.sub_le 4 n)] at hends
    simpa [List.count_replicate] using hends
  have hle := revision_le s
  -- from where it has turned, the run could go on to the head
  have hhead := Tables0004.exec_ups hm (Nat.sub_add_cancel hn)
  obtain ⟨rest, rfl⟩ : ∃ rest, n = k + rest := ⟨n - k, by omega⟩
  rw [List.replicate_add, Run.exec_append, hup] at hhead
  obtain ⟨-, hs⟩ := Tables0004.exec_downs_rev0004 (exec_downs undo hhead)
  rw [hrevision]
  exact hs.trans (congrArg _ (by omega))

def aliceMigrated : Tables0004 where
  users := Table.empty
  db := ⟨aliceEnrolled, Table.empty.put ⟨1, "Till", "", "", true, none, none, 0, 0⟩⟩
  hasPerson := mirror_aliceEnrolled.hasPerson

/-- Down to 0002 and up again. -/
theorem migrations_alice :
    Run.exec migrate (.rev0004 aliceMigrated) [.down, .down, .up, .up] =
      some (.rev0004 aliceMigrated.withoutKeys) := by
  obtain ⟨s, hrun⟩ : ∃ s, Run.exec migrate (.rev0004 aliceMigrated) [.down, .down, .up, .up] =
      some s := ⟨_, rfl⟩
  have hend : s.revision = 4 :=
    Nat.add_right_cancel (revision_exec hrun : s.revision + 2 = 4 + 2)
  rw [hrun, migrations mirror_aliceEnrolled hrun (isLeast_visited hrun), hend]
  rfl

end FaceRecognition.Db
