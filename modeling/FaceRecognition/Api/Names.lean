import FaceRecognition.Api.Runs
import FaceRecognition.Db.Constraints

/-!
# The names of persons

The schemas ask for at least one character and the column takes at most 255. `register_by_name`
strips the name it is given and checks nothing afterwards, so a name of white space becomes empty.
-/

namespace FaceRecognition.Api

open Relational Recognition Db Services BulkImportService

def Named (p : Person) : Prop := 1 ≤ p.fullName.length ∧ p.fullName.length ≤ 255

/-- The name sent to `/faces/enroll` is not all white space. -/
def Op.GivesName : Op → Prop
  | .enrollByName _ _ personName _ => strip personName ≠ ""
  | _ => True

/-- What the file system lists in the folder has names. -/
def Op.ListsNames : Op → Prop
  | .bulkImport env _ rootPath =>
    ∀ entries, env.iterdir rootPath = .ok entries → ∀ p ∈ entries, p.name ≠ ""
  | _ => True

/-- A new person's name, when it is stored. -/
theorem named_of_fits {p : Person} (hne : p.fullName ≠ "")
    (hfits : fits 255 (some p.fullName) = true) : Named p :=
  ⟨Nat.one_le_iff_ne_zero.2 fun h => hne (String.length_eq_zero_iff.1 h),
    of_decide_eq_true hfits⟩

/-- An update keeps the old name or sets one that the schema has checked. -/
theorem named_update {payload : PersonUpdate} {person old : Person} {now : Time} {db : Database}
    (h : (payload.changes person).Admissible old db) (hold : Named old) :
    Named ((payload.changes person).applyTo now old) := by
  have hnotNull := h.fullName_notNull
  have hsent : ∀ name, (payload.changes person).fullName = some (some name) →
      1 ≤ name.length ∧ name.length ≤ 255 := fun name hname =>
    payload.fullName_length name (Option.filter_eq_some_iff.1 hname).1
  show 1 ≤ (((payload.changes person).fullName.getD none).getD old.fullName).length ∧ _
  rw [PersonSet.applyTo]
  cases hchange : (payload.changes person).fullName with
  | none => exact hold
  | some name =>
    cases name with
    | none => exact absurd hchange hnotNull
    | some name => exact hsent name hchange

theorem named_keptBy {op : Op} (hname : op.GivesName) (hlists : op.ListsNames) {q : Statement}
    (h : Sends op q) : KeptBy (PersonsWith Named) q := by
  refine personsWith_keptBy (fun p hq _ hfits => named_of_fits ?_ hfits)
    fun db s now old hq hadmissible hold => ?_
  · cases h with
    | @createPerson c payload =>
      cases hq
      rintro (hempty : payload.fullName = "")
      have hlength := payload.fullName_length.1
      rw [hempty] at hlength
      exact absurd hlength (by decide)
    | newPerson =>
      cases hq
      exact hname
    | importPerson c hpair =>
      cases hq
      obtain ⟨entries, hentries, personDir, hentry, heq⟩ := name_of_importsOf hpair
      intro hempty
      exact hlists entries hentries personDir hentry (heq.trans hempty)
    | _ => cases hq
  · cases h with
    | updatePerson person now =>
      cases hq
      exact named_update hadmissible hold
    | _ => cases hq

/-- **Every person has a usable name** after runs that enrol under no name of white space. -/
theorem persons_named {ops : List Op} (hnames : ∀ op ∈ ops, op.GivesName)
    (hlists : ∀ op ∈ ops, op.ListsNames) {w : World}
    (hrun : Run.exec step ⟨Database.empty, Table.empty⟩ ops = some w) : PersonsWith Named w.db :=
  run_keeps (I := PersonsWith Named)
    (fun l => personsWith_keptBy (fun p h => by cases h) fun db s now old h => by cases h)
    (fun op hop q hq => named_keptBy (hnames op hop) (hlists op hop) hq)
    (fun p hp => by cases hp) hrun

/-! ### A name of spaces -/

def portrait : Upload := ⟨some "image/jpeg", [0], some "portrait.jpg"⟩

def enrolledAs (personName : String) : World :=
  request atNoon (fun c => enrollByName RecognitionService.oneFaceService c personName portrait)
    ⟨Database.empty, Table.empty⟩

theorem persons_named_ada : PersonsWith Named (enrolledAs " Ada ").db := by
  refine @persons_named [.enrollByName RecognitionService.oneFaceService atNoon " Ada " portrait]
    (fun op hop => ?_) (fun op hop => ?_) _ rfl
  · rw [List.mem_singleton.1 hop]
    show strip " Ada " ≠ ""
    decide +kernel
  · rw [List.mem_singleton.1 hop]
    trivial

theorem spaces_enrolled : Run.exec step ⟨Database.empty, Table.empty⟩
      [.enrollByName RecognitionService.oneFaceService atNoon "   " portrait] =
        some (enrolledAs "   ") ∧ ¬ PersonsWith Named (enrolledAs "   ").db := by
  refine ⟨rfl, fun h => ?_⟩
  have hstored : (enrolledAs "   ").db.persons.rows.map Person.fullName = [""] := by decide +kernel
  obtain ⟨p, hp, hname⟩ := List.mem_map.1 (hstored ▸ List.mem_singleton_self "")
  have hlength := (h p hp).1
  rw [hname] at hlength
  exact absurd hlength (by decide)

end FaceRecognition.Api
