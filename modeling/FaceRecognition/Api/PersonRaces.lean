import FaceRecognition.Api.ExternalIds
import FaceRecognition.Api.PersonHistory
import FaceRecognition.Lib.Progress

/-!
# Persons created, updated and deleted at the same time

However the requests are interleaved, the persons are those that their changes leave, played in the
order of the commits, and each answer is right at one point of this order (`persons_replayed`). So
no update is lost: the value of each column is the one of the last request that has set this column
(`column_of_last_writer`), and this is what the request was answered (`answered_as_set`). External
ids stay unique (`externalIds_unique`), and no request waits for ever (`persons_progress`,
`persons_complete`).
-/

namespace FaceRecognition.Api.PersonTasks

open Relational Db UnitOfWork ReadCommitted

variable {T : Type} [DecidableEq T]

/-! ### Two requests for one person -/

def rename : PersonUpdate :=
  { deactivate with
    isActive := none
    fullName := some (some "Alicia")
    fullName_length := by
      rintro s ⟨⟩
      decide }

def renamedAndDeactivated (second : Bool) : Task :=
  .patch atNoon 1 (if second then deactivate else rename)

/-- Both load the row before the other one writes it. -/
def crossing : List (Bool × Option Exc) :=
  (List.replicate 2 false ++ List.replicate 2 true ++ List.replicate 4 false ++
    List.replicate 4 true).map fun t => (t, none)

def returned : Program → Option (Except Exc (Option Person))
  | .pure (r, _) => some r
  | .call _ _ => none

theorem returned_eq {p : Program} {r : Except Exc (Option Person)} (h : returned p = some r) :
    p = .pure (r, ()) := by
  match p, h with
  | .pure (_, _), rfl => rfl

/-- After a run: what the requests return, and the row. -/
def outcome (ls : List (Bool × Option Exc)) : Option (Option (Except Exc (Option Person)) ×
    Option (Except Exc (Option Person)) × Option Person) :=
  (Run.exec (turn personsDbms) (start renamedAndDeactivated onlyAlice) ls).map fun w =>
    (returned (w.client false), returned (w.client true), stored w.server.committed 1)

def alicia : Person := { alice with fullName := "Alicia", updatedAt := 12 }

theorem outcome_crossing : outcome crossing = some (some (.ok (some alicia)),
    some (.ok (some { alicia with isActive := false })),
    some { alicia with isActive := false }) := by
  decide +kernel

theorem crossing_run : ∃ w,
    Run.exec (turn personsDbms) (start renamedAndDeactivated onlyAlice) crossing = some w ∧
      w.client false = .pure (.ok (some alicia), ()) ∧
        w.client true = .pure (.ok (some { alicia with isActive := false }), ()) ∧
          stored w.server.committed 1 = some { alicia with isActive := false } := by
  obtain ⟨w, hrun, hw⟩ := Option.map_eq_some_iff.1 outcome_crossing
  obtain ⟨hfirst, hsecond, hrow⟩ := by simpa only [Prod.mk.injEq] using hw
  exact ⟨w, hrun, returned_eq hfirst, returned_eq hsecond, hrow⟩

/-! ### One after another -/

/-- The requests, in the order of their commits, one after another. -/
structure Replayed (tasks : T → Task) (db : Database) (ls : List (T × Option Exc)) (w : World T) :
    Prop where
  persons : stored w.server.committed = play (stored db) ((history tasks db ls).map Prod.snd)
  once : ((history tasks db ls).map Prod.fst).Nodup
  changes : ∀ t ch, (t, ch) ∈ history tasks db ls → (tasks t).Changes (calls tasks db ls t) ch
  kept : ∀ t answer, w.client t = .pure (.ok answer, ()) →
    (tasks t).Writes (calls tasks db ls t) → ∃ ch, (t, ch) ∈ history tasks db ls
  answers : ∀ t answer, w.client t = .pure (.ok answer, ()) →
    SeenAt personsDbms PersonStatement.changes (stored db) (events tasks db ls) t (tasks t).person
      answer
  /-- What raises and is in the history has failed to close its session after the commit. -/
  failures : ∀ t e, w.client t = .pure (.error e, ()) →
    (∀ ch, (t, ch) ∉ history tasks db ls) ∨ ⟨.close, .error e⟩ ∈ calls tasks db ls t

section
variable {tasks : T → Task} {db : Database} {ls : List (T × Option Exc)} {w : World T}

/-- **However the requests are interleaved**, and whatever fails, the persons are those that the
changes of the committed requests leave one after another, each made once and from the row that its
request was shown. What a request answers is right in this order at one of its own calls. -/
theorem persons_replayed (hrun : Run.exec (turn personsDbms) (start tasks db) ls = some w) :
    Replayed tasks db ls w where
  persons := (replay rowwise hrun).committed
  once := history_nodup hrun
  changes _ _ hmem := history_changes hrun hmem
  kept _ _ hdone hwrites := kept hrun hdone hwrites
  answers _ _ hdone := seenAt_answer hrun hdone
  failures _ _ hdone := uncommitted hrun hdone

end

theorem persons_replayed_crossing : ∃ w,
    Run.exec (turn personsDbms) (start renamedAndDeactivated onlyAlice) crossing = some w ∧
      SeenAt personsDbms PersonStatement.changes (stored onlyAlice)
        (events renamedAndDeactivated onlyAlice crossing) false 1 (some alicia) := by
  obtain ⟨w, hrun, hfirst, -⟩ := crossing_run
  exact ⟨w, hrun, (persons_replayed hrun).answers false _ hfirst⟩

/-! ### The columns -/

/-- No column has a new value. -/
structure Unset (s : PersonSet) : Prop where
  externalId : s.externalId = none
  fullName : s.fullName = none
  metadata : s.metadata = none
  isActive : s.isActive = none

theorem unset_of_isEmpty {s : PersonSet} (h : s.isEmpty = true) : Unset s := by
  simp only [PersonSet.isEmpty, Bool.and_eq_true, Option.isNone_iff_eq_none] at h
  obtain ⟨⟨⟨hid, hname⟩, hmetadata⟩, hactive⟩ := h
  exact ⟨hid, hname, hmetadata, hactive⟩

/-- A column of the persons that requests set. -/
structure Column (α : Type) where
  get : Person → α
  set : PersonSet → Option α
  get_applyTo : ∀ s now old, get (s.applyTo now old) = (set s).getD (get old)
  set_of_isEmpty : ∀ s, s.isEmpty = true → set s = none

namespace Column

def fullName : Column String where
  get := Person.fullName
  set s := s.fullName.getD none
  get_applyTo _ _ _ := rfl
  set_of_isEmpty s h := by
    rw [(unset_of_isEmpty h).fullName]
    rfl

def externalId : Column (Option String) where
  get := Person.externalId
  set := PersonSet.externalId
  get_applyTo _ _ _ := rfl
  set_of_isEmpty _ h := (unset_of_isEmpty h).externalId

def metadata : Column Json where
  get := Person.metadata
  set := PersonSet.metadata
  get_applyTo _ _ _ := rfl
  set_of_isEmpty _ h := (unset_of_isEmpty h).metadata

def isActive : Column Bool where
  get := Person.isActive
  set s := s.isActive.getD none
  get_applyTo _ _ _ := rfl
  set_of_isEmpty s h := by
    rw [(unset_of_isEmpty h).isActive]
    rfl

end Column

/-- The request sets the column to `v`: it inserts it, or was sent it and shown another value. -/
def Task.Sets {α : Type} (col : Column α) (h : List PersonEntry) (v : α) : Task → Prop
  | .create c payload => v = col.get (payload.row c)
  | .patch _ personId payload =>
    ∃ old, Loads personId old h ∧ col.set (payload.changes old) = some v
  | .delete _ _ => False

section
variable {α : Type} {col : Column α} {task : Task} {h : List PersonEntry}
  {ch : Change UUID (Option Person)}

theorem Task.Changes.of_sets (hch : task.Changes h ch) {v : α} (hsets : task.Sets col h v)
    {row : Option Person} {new : Person} (hnew : ch.new row = some new) : col.get new = v := by
  cases task with
  | create c payload =>
    cases hch
    cases hsets
    exact congrArg col.get (Option.some.inj hnew).symm
  | patch c personId payload =>
    obtain ⟨old, hold, rfl⟩ := hch
    obtain ⟨old', hold', hset⟩ := hsets
    obtain rfl := hold.unique hold'
    obtain ⟨last, -, rfl⟩ := Option.map_eq_some_iff.1 hnew
    rw [col.get_applyTo, hset]
    rfl
  | delete c personId => exact hsets.elim

omit ch in
theorem Task.Sets.writes {v : α} (hsets : task.Sets col h v) : task.Writes h := by
  cases task with
  | create c payload => trivial
  | patch c personId payload =>
    obtain ⟨old, hold, hset⟩ := hsets
    refine ⟨old, hold, Bool.eq_false_iff.2 fun hempty => ?_⟩
    rw [col.set_of_isEmpty _ hempty] at hset
    cases hset
  | delete c personId => exact hsets.elim

theorem Task.Changes.of_not_sets (hch : task.Changes h ch) (hno : ∀ v, ¬ task.Sets col h v) :
    (∀ row, ch.new row = none) ∨ ∀ row, (ch.new row).map col.get = row.map col.get := by
  cases task with
  | create c payload => exact absurd rfl (hno _)
  | patch c personId payload =>
    obtain ⟨old, hold, rfl⟩ := hch
    have hset : col.set (payload.changes old) = none :=
      Option.eq_none_iff_forall_ne_some.2 fun v hv => hno v ⟨old, hold, hv⟩
    refine .inr fun row => ?_
    cases row with
    | none => rfl
    | some last => exact congrArg some ((col.get_applyTo _ _ _).trans (by rw [hset]; rfl))
  | delete c personId =>
    cases hch
    exact .inl fun _ => rfl

end

/-- The request is about this person, and sets the column to `v`. -/
def SetsColumn {α : Type} (col : Column α) (tasks : T → Task) (db : Database)
    (ls : List (T × Option Exc)) (id : UUID) (v : α) (t : T) : Prop :=
  (tasks t).person = id ∧ (tasks t).Sets col (calls tasks db ls t) v

section
variable {tasks : T → Task} {db : Database} {ls : List (T × Option Exc)} {w : World T}

/-- **No update is lost.** In the row of a person each column has the value of the last committed
request that has set it, whatever the others have written next to it, or the initial one. -/
theorem column_of_last_writer (hrun : Run.exec (turn personsDbms) (start tasks db) ls = some w)
    {α : Type} (col : Column α) {id : UUID} {person : Person}
    (hperson : stored w.server.committed id = some person) :
    (∃ before t ch after, history tasks db ls = before ++ (t, ch) :: after ∧
        SetsColumn col tasks db ls id (col.get person) t ∧
        ∀ e ∈ after, ∀ v, ¬ SetsColumn col tasks db ls id v e.1) ∨
      ∃ old, stored db id = some old ∧ col.get person = col.get old ∧
        ∀ e ∈ history tasks db ls, ∀ v, ¬ SetsColumn col tasks db ls id v e.1 := by
  have hplay : play (stored db) ((history tasks db ls).map Prod.snd) id = some person :=
    (congrFun (replay rowwise hrun).committed id).symm.trans hperson
  have hkey : ∀ e ∈ history tasks db ls, e.2.key = (tasks e.1).person := fun e he =>
    (history_changes hrun he).key
  -- what is neither a value of the column nor the end of the row leaves the column alone
  have hlast := last_change (g := Option.map col.get) (P := fun e =>
    (∃ v, (tasks e.1).Sets col (calls tasks db ls e.1) v) ∨ ∀ row, e.2.new row = none)
    (stored db) id (history tasks db ls) fun e he _ hP row => by
      rw [not_or, not_exists] at hP
      exact ((history_changes hrun he).of_not_sets hP.1).resolve_left hP.2 row
  rw [hplay] at hlast
  rcases hlast with ⟨before, ⟨t, ch⟩, after, row, hsplit, hid, hP, hvalue, hafter⟩ | ⟨hvalue, hnone⟩
  · left
    have hmem : (t, ch) ∈ history tasks db ls := by simp [hsplit]
    obtain ⟨new, hnew, hcol⟩ := Option.map_eq_some_iff.1 hvalue.symm
    obtain ⟨v, hv⟩ := hP.resolve_right fun hgone => by cases (hgone row).symm.trans hnew
    have hsets : col.get person = v := hcol ▸ (history_changes hrun hmem).of_sets hv hnew
    refine ⟨before, t, ch, after, hsplit, ⟨(hkey _ hmem).symm.trans hid, hsets ▸ hv⟩, ?_⟩
    rintro e he v' ⟨hperson', hv'⟩
    have hmem' : e ∈ history tasks db ls := by simp [hsplit, he]
    exact hafter e he ((hkey e hmem').trans hperson') (.inl ⟨v', hv'⟩)
  · right
    obtain ⟨old, hold, hcol⟩ := Option.map_eq_some_iff.1 hvalue.symm
    refine ⟨old, hold, hcol.symm, ?_⟩
    rintro e he v ⟨hperson', hv⟩
    exact hnone e he ((hkey e he).trans hperson') (.inl ⟨v, hv⟩)

end

theorem column_of_last_writer_crossing : ∃ w,
    Run.exec (turn personsDbms) (start renamedAndDeactivated onlyAlice) crossing = some w ∧
      ∃ t, SetsColumn Column.fullName renamedAndDeactivated onlyAlice crossing 1 "Alicia" t := by
  obtain ⟨w, hrun, -, -, hrow⟩ := crossing_run
  refine ⟨w, hrun, ?_⟩
  rcases column_of_last_writer hrun Column.fullName hrow with
    ⟨-, t, -, -, -, hsets, -⟩ | ⟨old, hold, hsame, -⟩
  · exact ⟨t, hsets⟩
  · obtain rfl := Option.some.inj hold
    exact absurd hsame (by decide)

section
variable {tasks : T → Task} {db : Database} {ls : List (T × Option Exc)} {w : World T}

/-- **A request that returns answers with the values that it has set**, whatever the others have
written. -/
theorem answered_as_set (hrun : Run.exec (turn personsDbms) (start tasks db) ls = some w)
    {α : Type} (col : Column α) {t : T} {person : Person}
    (hdone : w.client t = .pure (.ok (some person), ())) {v : α}
    (hsets : (tasks t).Sets col (calls tasks db ls t) v) : col.get person = v := by
  obtain ⟨ch, hmem⟩ := kept hrun hdone hsets.writes
  have hch := history_changes hrun hmem
  obtain ⟨pre, l, after, own, later, -, -, -, rfl, hvalue⟩ := seenAt_answer hrun hdone
  -- the request stands in the history with its change, and with nothing else
  have hone : (history tasks db ls).filter (fun e => e.1 = t) = [(t, ch)] := by
    have hown : (t, ch) ∈ (history tasks db ls).filter (fun e => e.1 = t) :=
      List.mem_filter.2 ⟨hmem, decide_eq_true rfl⟩
    rcases history_of hrun t with hnil | ⟨ch', hsingle⟩
    · rw [hnil] at hown
      cases hown
    · rw [hsingle] at hown ⊢
      rw [List.mem_singleton.1 hown]
  rw [show (journal personsDbms PersonStatement.changes (events tasks db ls)).published.filter
    (fun e => e.1 = t) = [(t, ch)] from hone, List.map_append, play_append, ← hch.key] at hvalue
  exact hch.of_sets hsets (hvalue.trans (Function.update_self ..)).symm

end

theorem loads_crossing (second : Bool) :
    Loads 1 alice (calls renamedAndDeactivated onlyAlice crossing second) := by
  cases second with
  | false => exact List.take_prefix 2 (calls renamedAndDeactivated onlyAlice crossing false)
  | true => exact List.take_prefix 2 (calls renamedAndDeactivated onlyAlice crossing true)

theorem answered_as_set_crossing : ∃ (w : World Bool) (first second : Person),
    Run.exec (turn personsDbms) (start renamedAndDeactivated onlyAlice) crossing = some w ∧
      w.client false = .pure (.ok (some first), ()) ∧ Column.fullName.get first = "Alicia" ∧
        w.client true = .pure (.ok (some second), ()) ∧ Column.isActive.get second = false := by
  obtain ⟨w, hrun, hfirst, hsecond, -⟩ := crossing_run
  exact ⟨w, _, _, hrun,
    hfirst, answered_as_set hrun Column.fullName hfirst ⟨alice, loads_crossing false, rfl⟩,
    hsecond, answered_as_set hrun Column.isActive hsecond ⟨alice, loads_crossing true, rfl⟩⟩

/-! ### External ids -/

section
variable {tasks : T → Task} {db : Database} {ls : List (T × Option Exc)} {w : World T}

/-- **External ids stay unique**, although each request has only looked for what was committed. -/
theorem externalIds_unique (hdb : UniqueKeys Person.externalId (stored db))
    (hrun : Run.exec (turn personsDbms) (start tasks db) ls = some w) :
    UniqueKeys Person.externalId (stored w.server.committed) :=
  (indexed_run checked hdb hrun).committed

end

def sameExternalId (second : Bool) : Task :=
  if second then .create atOne bobWithId else .create atNoon adaWithId

/-- Both find the external id free before the other one inserts it. -/
def bothFree : List (Bool × Option Exc) :=
  (List.replicate 2 false ++ List.replicate 2 true ++ List.replicate 3 false ++
    List.replicate 3 true).map fun t => (t, none)

theorem externalIds_unique_bothFree : ∃ w,
    Run.exec (turn personsDbms) (start sameExternalId onlyAlice) bothFree = some w ∧
      w.client false = .pure (.ok (some (adaWithId.row atNoon)), ()) ∧
        w.client true = .pure (.error (uniqueViolation "ix_persons_external_id"), ()) ∧
          UniqueKeys Person.externalId (stored w.server.committed) := by
  have hanswers : (Run.exec (turn personsDbms) (start sameExternalId onlyAlice) bothFree).map
      (fun w => (returned (w.client false), returned (w.client true))) =
        some (some (.ok (some (adaWithId.row atNoon))),
          some (.error (uniqueViolation "ix_persons_external_id"))) := by
    decide +kernel
  obtain ⟨w, hrun, hw⟩ := Option.map_eq_some_iff.1 hanswers
  obtain ⟨hfirst, hsecond⟩ := Prod.mk.inj hw
  refine ⟨w, hrun, returned_eq hfirst, returned_eq hsecond,
    externalIds_unique (fun id _ r _ e hr _ he _ => ?_) hrun⟩
  obtain ⟨hmem, -⟩ := Table.get?_eq_some.1 hr
  obtain rfl := List.mem_singleton.1 hmem
  cases he

/-! ### Progress -/

theorem atMost_raiseIfTaken (externalId : Option String) : AtMost 1 (raiseIfTaken externalId) := by
  cases externalId with
  | none => exact atMost_pure ()
  | some externalId =>
    rw [raiseIfTaken]
    split_ifs
    · exact atMost_pure ()
    · refine atMost_bind (n := 1) (m := 0) (atMost_ask _) fun found => ?_
      cases found with
      | none => exact atMost_pure ()
      | some person => exact atMost_throw _

theorem atMost_createPerson (c : Context) (payload : PersonCreate) :
    AtMost 2 (createPerson c payload) := by
  have hadd : AtMost 1 (add (payload.row c)) :=
    atMost_bind (n := 1) (m := 0) (atMost_ask _) fun _ => atMost_pure _
  exact atMost_bind (n := 1) (m := 1) (atMost_raiseIfTaken _) fun _ =>
    atMost_bind (n := 1) (m := 0) hadd fun _ => atMost_raised _

theorem atMost_updatePerson (c : Context) (personId : UUID) (payload : PersonUpdate) :
    AtMost 4 (updatePerson c personId payload) := by
  refine atMost_bind (n := 1) (m := 3) (atMost_ask _) fun found => ?_
  cases found with
  | none => exact atMost_throw _
  | some person =>
    refine atMost_bind (n := 1) (m := 2) (atMost_raiseIfTaken _) fun _ =>
      atMost_bind (n := 1) (m := 1) ?_ fun _ =>
        atMost_bind (n := 1) (m := 0) (atMost_ask _) fun found => ?_
    · rw [flushPerson]
      split_ifs
      · exact atMost_pure ()
      · exact atMost_ask _
    · cases found with
      | none => exact atMost_throw _
      | some person => exact atMost_raised _

theorem atMost_deletePerson (personId : UUID) : AtMost 2 (deletePerson personId) := by
  refine atMost_bind (n := 1) (m := 1) (atMost_ask _) fun found => ?_
  cases found with
  | none => exact atMost_throw _
  | some person => exact atMost_ask _

theorem atMost_handler (task : Task) : AtMost 4 task.handler := by
  cases task with
  | create c payload =>
    exact (atMost_bind (m := 0) (atMost_createPerson c payload) fun _ => atMost_pure _).mono
      (by decide)
  | patch c personId payload =>
    exact atMost_bind (m := 0) (atMost_updatePerson c personId payload) fun _ => atMost_pure _
  | delete c personId =>
    exact (atMost_bind (m := 0) (atMost_deletePerson personId) fun _ => atMost_pure _).mono
      (by decide)

section
variable {tasks : T → Task} {db : Database} {ls : List (T × Option Exc)} {w : World T}

theorem waits (hrun : Run.exec (turn personsDbms) (start tasks db) ls = some w) {t : T}
    (hstuck : turn personsDbms w (t, none) = none) : (∃ a, w.client t = .pure a) ∨
      ∃ u q next, w.client t = .call (.flush q) next ∧ u ≠ t ∧ Blocks personsDbms w u t q ∧
        ∃ w', turn personsDbms w (u, none) = some w' :=
  waits_for_writer (writesOnce tasks) (fun _ _ _ hc => hc.not_writing) hrun (obedient hrun) hstuck

theorem program_atMost (task : Task) : task.program.AtMost 8 :=
  atMost_asRequest (atMost_handler task) ()

end

/-- Both have loaded the row, and the first one has written it. -/
def waiting : List (Bool × Option Exc) :=
  (List.replicate 3 false ++ List.replicate 2 true).map fun t => (t, none)

/-- **Whatever has been done, the requests can all be brought to their end.** -/
theorem persons_complete [Fintype T] {tasks : T → Task} {db : Database}
    {ls : List (T × Option Exc)} {w : World T}
    (hrun : Run.exec (turn personsDbms) (start tasks db) ls = some w) :
    ∃ (us : List T) (w' : World T),
      Run.exec (turn personsDbms) w (us.map fun u => (u, none)) = some w' ∧
        ∀ t, ∃ r, w'.client t = .pure (r, ()) := by
  have hmoves : ∀ {ls w}, Run.exec (turn personsDbms) (start tasks db) ls = some w → ∀ {t},
      turn personsDbms w (t, none) = none →
        (∃ a, w.client t = .pure a) ∨ ∃ u w', turn personsDbms w (u, none) = some w' := by
    intro ls w hrun t hstuck
    rcases waits hrun hstuck with hdone | ⟨u, -, -, -, -, -, w', hturn⟩
    · exact .inl hdone
    · exact .inr ⟨u, w', hturn⟩
  obtain ⟨us, w', hrest, hend⟩ := completes (fun t => program_atMost (tasks t)) hmoves hrun
  refine ⟨us, w', hrest, fun t => ?_⟩
  obtain ⟨⟨r, _⟩, hdone⟩ := hend t
  exact ⟨r, hdone⟩

theorem persons_complete_waiting : ∃ (w : World Bool) (us : List Bool) (w' : World Bool),
    Run.exec (turn personsDbms) (start renamedAndDeactivated onlyAlice) waiting = some w ∧
      Run.exec (turn personsDbms) w (us.map fun u => (u, none)) = some w' ∧
        ∀ t, ∃ r, w'.client t = .pure (r, ()) := by
  have hwaits : (Run.exec (turn personsDbms) (start renamedAndDeactivated onlyAlice)
      waiting).isSome = true := by
    decide +kernel
  obtain ⟨w, hrun⟩ := Option.isSome_iff_exists.1 hwaits
  obtain ⟨us, w', hrest, hend⟩ := persons_complete hrun
  exact ⟨w, us, w', hrun, hrest, hend⟩

end FaceRecognition.Api.PersonTasks
