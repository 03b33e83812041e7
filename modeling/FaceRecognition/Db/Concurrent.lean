import FaceRecognition.Db.Mirror

/-!
# The mirror under concurrent transactions

Any number of transactions enrol faces and patch persons under READ COMMITTED. A statement and the
trigger it fires are one step: between the trigger's query and the end of the statement nothing the
statement has written is visible to others, so nothing is lost by that.

Neither trigger sees what another transaction has not committed. An INSERT of a face reads a flag
that another transaction is about to change, the UPDATE of the persons trigger misses a face that
another transaction is about to commit, and after both commits the face has the old flag for good
(`mirror_lost`). That is the only way to lose the mirror: as long as no transaction commits a
changed flag next to an open one holding a face of that person, or a face next to an open one that
has changed the flag of its person, it holds after every run (`mirror_of_no_race`). The invariant
is that the committed database is mirrored and so is what each open transaction sees.
-/

namespace FaceRecognition.Db.Concurrent

open Relational Recognition ReadCommitted

/-- The statements of enrolments, import batches and PATCH requests. -/
def enrolsOrPatches : Statement → Bool
  | .insertPerson _ | .updatePerson _ _ _ | .insertFace _ | .insertLog _ => true
  | .deletePerson _ | .updateFace _ _ _ | .deleteFace _ => false

def run (q : Statement) (db : Database) : Option (List Write) :=
  if enrolsOrPatches q then (q.run db).toOption else none

variable {T : Type}

def start (db : Database) : State T Database Write := ⟨db, Table.empty⟩

/-- The transaction holds an uncommitted face of the person. -/
def HasFaceOf (x : Txn T Write) (p : UUID) : Prop :=
  ∃ f, Write.putFace f ∈ x.writes ∧ f.personId = p

/-- The transaction has changed the flag of the person and not committed it yet. -/
def Toggled (s : State T Database Write) (x : Txn T Write) (p : UUID) : Prop :=
  ∃ b b', flag s.committed p = some b ∧ flag (view engine s x) p = some b' ∧ b ≠ b'

variable [DecidableEq T] in
abbrev step (s : State T Database Write) (a : Act T Statement) :
    Option (State T Database Write) :=
  ReadCommitted.step engine run s a

variable [DecidableEq T] in
/-- A commit does not publish a changed flag next to an open face of the person, nor a face next to
an open change of the person's flag. -/
def NoRace (s : State T Database Write) : Act T Statement → Prop
  | .commit t => ∀ x, s.txns.get? t = some x → ∀ y ∈ s.txns.rows, y.id ≠ t → ∀ p,
      ¬ (Toggled s x p ∧ HasFaceOf y p) ∧ ¬ (HasFaceOf x p ∧ Toggled s y p)
  | _ => True

/-! ### These transactions only put rows -/

def IsPut : Write → Prop
  | .putPerson _ | .putFace _ | .putLog _ => True
  | .dropPerson _ | .dropFace _ => False

theorem run_puts {q : Statement} {db : Database} {ws : List Write} (h : run q db = some ws) :
    q.run db = .ok ws ∧ ∀ w ∈ ws, IsPut w := by
  have hq : q.run db = .ok ws := by
    rw [run] at h
    split_ifs at h
    cases hq : q.run db with
    | error e => simp [hq, Except.toOption] at h
    | ok ws' => simpa [hq, Except.toOption] using h
  refine ⟨hq, ?_⟩
  cases q with
  | insertPerson p =>
    obtain ⟨-, rfl⟩ := insertPerson_ok hq
    simp [IsPut]
  | updatePerson id s now =>
    obtain ⟨old, new, -, -, -, rfl⟩ := updatePerson_ok hq
    rw [personsPropagateIsActive]
    intro w hw
    rcases List.mem_cons.1 hw with rfl | hw
    · trivial
    · split_ifs at hw
      · obtain ⟨f, -, rfl⟩ := List.mem_map.1 hw
        trivial
      · cases hw
  | insertFace f =>
    obtain ⟨p, -, -, rfl⟩ := insertFace_ok hq
    simp [IsPut]
  | insertLog l =>
    obtain rfl := insertLog_ok hq
    simp [IsPut]
  | deletePerson id => simp [run, enrolsOrPatches] at h
  | updateFace id s now => simp [run, enrolsOrPatches] at h
  | deleteFace id => simp [run, enrolsOrPatches] at h

theorem flag_of_puts {db : Database} {ws : List Write} (hws : ∀ w ∈ ws, IsPut w) {p : UUID}
    {b : Bool} (h : flag db p = some b) : ∃ b', flag (applyAll db ws) p = some b' := by
  induction ws generalizing db b with
  | nil => exact ⟨b, h⟩
  | cons w ws ih =>
    obtain ⟨b', hb'⟩ : ∃ b', flag (apply db w) p = some b' := by
      cases w with
      | putPerson q =>
        rw [flag_putPerson]
        split_ifs
        · exact ⟨_, rfl⟩
        · exact ⟨b, h⟩
      | putFace f => exact ⟨b, h⟩
      | putLog l => exact ⟨b, h⟩
      | dropPerson id => exact False.elim (hws (.dropPerson id) (by simp))
      | dropFace id => exact False.elim (hws (.dropFace id) (by simp))
    exact ih (fun w' hw' => hws w' (by simp [hw'])) hb'

/-- The face a transaction sees under an id it has written is one it has put. -/
theorem put_of_get? {db : Database} {ws : List Write} {id : UUID} {f : Face}
    (h : (applyAll db ws).faces.get? id = some f) (hw : ∃ w ∈ ws, w.row = .face id) :
    .putFace f ∈ ws := by
  obtain ⟨before, w, after, rfl, hrow, hafter⟩ := last_write (E := engine) hw
  rw [applyAll, Engine.applyAll_append] at h
  have hget : (apply (applyAll db before) w).faces.get? id = some f :=
    ((reads_face id).of_unwritten hafter).symm.trans h
  generalize applyAll db before = db' at hget
  cases w with
  | putFace g =>
    obtain rfl : g.id = id := RowId.face.inj hrow
    obtain rfl : g = f := Option.some.inj ((Table.get?_put_self db'.faces g).symm.trans hget)
    exact List.mem_append_right _ List.mem_cons_self
  | dropFace id' =>
    obtain rfl : id' = id := RowId.face.inj hrow
    have hnone : (db'.faces.erase id').get? id' = none := by simp [Table.get?_erase]
    exact absurd (hnone.symm.trans hget) (by simp)
  | putPerson q => cases hrow
  | dropPerson id' => cases hrow
  | putLog l => cases hrow

theorem reads_flag (p : UUID) : Reads engine (fun db => flag db p) (.person p) :=
  (reads_person p).comp (Option.map Person.isActive)

theorem mirror_iff_get? {db : Database} :
    Mirror db ↔ ∀ id f, db.faces.get? id = some f → flag db f.personId = some f.isActive :=
  ⟨fun h _ f hf => h f (Table.get?_eq_some.1 hf).1,
    fun h f hf => h f.id f (Table.get?_eq_some.2 ⟨hf, rfl⟩)⟩

/-! ### The invariant -/

structure Inv (s : State T Database Write) : Prop where
  committed : Mirror s.committed
  views : ∀ x ∈ s.txns.rows, Mirror (view engine s x)
  puts : ∀ x ∈ s.txns.rows, ∀ w ∈ x.writes, IsPut w
  locks : LocksDisjoint engine s

theorem inv_start {db : Database} (hm : Mirror db) : Inv (start db : State T Database Write) where
  committed := hm
  views := by simp [start, Table.empty]
  puts := by simp [start, Table.empty]
  locks := by simp [LocksDisjoint, start, Table.empty]

section Commit
variable {s : State T Database Write} {x y : Txn T Write}

theorem Inv.flag_view (hi : Inv s) (hx : x ∈ s.txns.rows) {p : UUID} {b : Bool}
    (ht : ¬ Toggled s x p) (hb : flag s.committed p = some b) :
    flag (view engine s x) p = some b := by
  obtain ⟨b', hb'⟩ := flag_of_puts (hi.puts x hx) hb
  by_contra hne
  refine ht ⟨b, b', hb, hb', ?_⟩
  rintro rfl
  exact hne hb'

/-- What `y` sees after `x` has committed. A face is looked up either among the writes of `y`, and
then its person may have been toggled by `x`, or in what `x` saw, and then its person may have been
toggled by `y`: both are races. -/
theorem Inv.mirror_after_commit (hi : Inv s) (hx : x ∈ s.txns.rows) (hy : y ∈ s.txns.rows)
    (hne : x.id ≠ y.id)
    (hrace : ∀ p, ¬ (Toggled s x p ∧ HasFaceOf y p) ∧ ¬ (HasFaceOf x p ∧ Toggled s y p)) :
    Mirror (applyAll (view engine s x) y.writes) := by
  have hmx := mirror_iff_get?.1 (hi.views x hx)
  have hmy := mirror_iff_get?.1 (hi.views y hy)
  have hlock := hi.locks x hx y hy hne
  rw [mirror_iff_get?]
  intro id f hf
  by_cases hfy : ∃ w ∈ y.writes, w.row = .face id
  · have hput : .putFace f ∈ y.writes := put_of_get? hf hfy
    have hfv : (view engine s y).faces.get? id = some f :=
      ((reads_face id).of_written hfy).trans hf
    have hflag := hmy id f hfv
    by_cases hpy : ∃ w ∈ y.writes, w.row = .person f.personId
    · exact ((reads_flag f.personId).of_written hpy).trans hflag
    · have hpy' : ∀ w ∈ y.writes, w.row ≠ .person f.personId := fun w hw he => hpy ⟨w, hw, he⟩
      have hcom : flag s.committed f.personId = some f.isActive :=
        ((reads_flag f.personId).of_unwritten hpy').symm.trans hflag
      have hnt : ¬ Toggled s x f.personId := fun ht =>
        (hrace f.personId).1 ⟨ht, f, hput, rfl⟩
      exact ((reads_flag f.personId).of_unwritten hpy').trans (hi.flag_view hx hnt hcom)
  · have hfy' : ∀ w ∈ y.writes, w.row ≠ .face id := fun w hw he => hfy ⟨w, hw, he⟩
    have hfx : (view engine s x).faces.get? id = some f :=
      ((reads_face id).of_unwritten hfy').symm.trans hf
    have hflag := hmx id f hfx
    by_cases hpy : ∃ w ∈ y.writes, w.row = .person f.personId
    · -- `y` has written the person, so `x` has not, and what `y` sees of it is what it will see
      refine ((reads_flag f.personId).of_written hpy).trans (?_ : flag (view engine s y) _ = _)
      have hpx : ∀ w ∈ x.writes, w.row ≠ .person f.personId := by
        obtain ⟨w', hw', he'⟩ := hpy
        exact fun w hw he => hlock w hw w' hw' (he.trans he'.symm)
      have hcom : flag s.committed f.personId = some f.isActive :=
        ((reads_flag f.personId).of_unwritten hpx).symm.trans hflag
      by_cases hfw : ∃ w ∈ x.writes, w.row = .face id
      · have hnt : ¬ Toggled s y f.personId := fun ht =>
          (hrace f.personId).2 ⟨⟨f, put_of_get? hfx hfw, rfl⟩, ht⟩
        exact hi.flag_view hy hnt hcom
      · have hfw' : ∀ w ∈ x.writes, w.row ≠ .face id := fun w hw he => hfw ⟨w, hw, he⟩
        have hfc : s.committed.faces.get? id = some f :=
          ((reads_face id).of_unwritten hfw').symm.trans hfx
        exact hmy id f (((reads_face id).of_unwritten hfy').trans hfc)
    · have hpy' : ∀ w ∈ y.writes, w.row ≠ .person f.personId := fun w hw he => hpy ⟨w, hw, he⟩
      exact ((reads_flag f.personId).of_unwritten hpy').trans hflag

end Commit

variable [DecidableEq T]

theorem inv_step (s : State T Database Write) (a : Act T Statement) (s' : State T Database Write)
    (hi : Inv s) (hrace : NoRace s a) (h : step s a = some s') : Inv s' := by
  have hlocks := locksDisjoint_step hi.locks h
  cases a with
  | begin t =>
    obtain ⟨-, rfl⟩ := step_begin h
    refine ⟨hi.committed, fun x hx => ?_, fun x hx => ?_, hlocks⟩
    · rcases Table.mem_put.1 hx with rfl | ⟨hx, -⟩
      · exact hi.committed
      · exact hi.views x hx
    · rcases Table.mem_put.1 hx with rfl | ⟨hx, -⟩
      · simp
      · exact hi.puts x hx
  | exec t q =>
    obtain ⟨x, ws, hx, hq, -, rfl⟩ := step_exec h
    obtain ⟨hx, -⟩ := Table.get?_eq_some.1 hx
    obtain ⟨hq, hput⟩ := run_puts hq
    refine ⟨hi.committed, fun y hy => ?_, fun y hy => ?_, hlocks⟩
    · rcases Table.mem_put.1 hy with rfl | ⟨hy, -⟩
      · rw [view, Engine.applyAll_append]
        exact mirror_run (hi.views x hx) hq
      · exact hi.views y hy
    · rcases Table.mem_put.1 hy with rfl | ⟨hy, -⟩
      · intro w hw
        rcases List.mem_append.1 hw with hw | hw
        · exact hi.puts x hx w hw
        · exact hput w hw
      · exact hi.puts y hy
  | commit t =>
    obtain ⟨x, hx, rfl⟩ := step_commit h
    obtain ⟨hxrows, hxt⟩ := Table.get?_eq_some.1 hx
    refine ⟨hi.views x hxrows, fun y hy => ?_, fun y hy => ?_, hlocks⟩
    · obtain ⟨hy, hyt⟩ := Table.mem_erase.1 hy
      refine hi.mirror_after_commit hxrows hy ?_ (hrace x hx y hy hyt)
      exact fun he => hyt (he.symm.trans hxt)
    · exact hi.puts y (Table.mem_erase.1 hy).1
  | rollback t =>
    obtain ⟨x, -, rfl⟩ := step_rollback h
    refine ⟨hi.committed, fun y hy => ?_, fun y hy => ?_, hlocks⟩
    · exact hi.views y (Table.mem_erase.1 hy).1
    · exact hi.puts y (Table.mem_erase.1 hy).1

theorem mirror_of_no_race {db : Database} (hm : Mirror db) {acts : List (Act T Statement)}
    {s : State T Database Write} (hrace : Run.Guarded step NoRace (start db) acts)
    (hrun : Run.exec step (start db) acts = some s) : Mirror s.committed :=
  (Run.inv_of_guarded inv_step (inv_start hm) hrace hrun).committed

/-! ### The race -/

def enrolAlice : Statement := .insertFace aliceFace

def deactivateAlice : Statement := .updatePerson 1 { isActive := some (some false) } 1

/-- The enrolment reads the flag before the PATCH commits and commits after it. -/
def enrolAcrossPatch : List (Act ℕ Statement) :=
  [.begin 1, .exec 1 enrolAlice, .begin 2, .exec 2 deactivateAlice, .commit 2, .commit 1]

theorem mirror_lost :
    ∃ s : State ℕ Database Write, Run.exec step (start onlyAlice) enrolAcrossPatch = some s ∧
      s.txns.rows = [] ∧ Mirror onlyAlice ∧ ¬ Mirror s.committed := by
  refine ⟨_, rfl, rfl, mirror_onlyAlice, fun h => ?_⟩
  have hflag : some false = some true := h aliceFace (List.mem_singleton.2 rfl)
  cases hflag

def setBob (isActive : Bool) : Statement := .updatePerson 2 { isActive := some (some isActive) } 1

/-- While Alice is being enrolled, one PATCH of Bob begins and commits, and another begins. -/
def enrolAmongPatches : List (Act ℕ Statement) :=
  [.begin 1, .exec 1 enrolAlice, .begin 2, .exec 2 (setBob false), .commit 2,
    .begin 3, .exec 3 (setBob true), .commit 1, .commit 3]

theorem not_toggled {s : State ℕ Database Write} {x : Txn ℕ Write} {p : UUID}
    (h : flag (view engine s x) p = flag s.committed p) : ¬ Toggled s x p := by
  rintro ⟨b, b', hb, hb', hne⟩
  exact hne (Option.some.inj (hb.symm.trans (h.symm.trans hb')))

theorem person_of_writes_enrolAlice {x : Txn ℕ Write} {p : UUID}
    (hx : x.writes = [.putFace aliceFace]) (h : HasFaceOf x p) : p = 1 := by
  obtain ⟨f, hf, rfl⟩ := h
  rw [hx, List.mem_singleton] at hf
  rw [Write.putFace.inj hf]
  rfl

theorem no_face_of_writes_setBob {x : Txn ℕ Write} {p : UUID} {q : Person}
    (hx : x.writes = [.putPerson q]) : ¬ HasFaceOf x p := by
  rintro ⟨f, hf, -⟩
  rw [hx, List.mem_singleton] at hf
  cases hf

theorem mirror_enrolAmongPatches :
    ∃ s : State ℕ Database Write, Run.exec step (start aliceAndBob) enrolAmongPatches = some s ∧
      Mirror s.committed := by
  have hrun : Run.exec step (start aliceAndBob) enrolAmongPatches = some _ := rfl
  have hrace : Run.Guarded step NoRace (start aliceAndBob) enrolAmongPatches := by
    refine Run.guarded_cons trivial rfl (Run.guarded_cons trivial rfl (Run.guarded_cons trivial rfl
      (Run.guarded_cons trivial rfl (Run.guarded_cons ?bobNextToAlice rfl (Run.guarded_cons trivial
        rfl (Run.guarded_cons trivial rfl (Run.guarded_cons ?aliceNextToBob rfl
          (Run.guarded_cons ?alone rfl trivial))))))))
    case bobNextToAlice =>
      intro x hx y hy hne p
      obtain rfl := Option.some.inj hx
      rcases List.mem_cons.1 hy with rfl | hy
      · refine ⟨?_, fun h => no_face_of_writes_setBob rfl h.1⟩
        rintro ⟨htoggled, hface⟩
        obtain rfl := person_of_writes_enrolAlice rfl hface
        exact not_toggled rfl htoggled
      · exact absurd (congrArg Txn.id (List.mem_singleton.1 hy)) hne
    case aliceNextToBob =>
      intro x hx y hy hne p
      obtain rfl := Option.some.inj hx
      rcases List.mem_cons.1 hy with rfl | hy
      · exact absurd rfl hne
      · obtain rfl := List.mem_singleton.1 hy
        refine ⟨fun h => no_face_of_writes_setBob rfl h.2, ?_⟩
        rintro ⟨hface, htoggled⟩
        obtain rfl := person_of_writes_enrolAlice rfl hface
        exact not_toggled rfl htoggled
    case alone =>
      intro x hx y hy hne
      exact absurd (congrArg Txn.id (List.mem_singleton.1 hy)) hne
  exact ⟨_, hrun, mirror_of_no_race mirror_aliceAndBob hrace hrun⟩

end FaceRecognition.Db.Concurrent
