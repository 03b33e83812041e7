import FaceRecognition.Api.PersonProtocol
import FaceRecognition.Lib.SingleStatements

/-!
# What the person requests do in a run

The history of a run has the changes of the committed requests, in the order of the commits. A
request stands in it once at most (`history_nodup`), with the change that it has made from the row
it was shown (`history_changes`), and it answers what the history says at one of its own calls
(`seenAt_answer`).
-/

namespace FaceRecognition.Api.PersonTasks

open Relational Db UnitOfWork ReadCommitted

variable {T : Type} [DecidableEq T]

abbrev World (T : Type) := ReadCommitted.World T Database IndexedWrite PersonQuery PersonStatement
  (Option Person) Exc (Except Exc (Option Person) × Unit)

def start (tasks : T → Task) (db : Database) : World T :=
  ⟨⟨db, Table.empty⟩, fun t => (tasks t).program⟩

section
variable (tasks : T → Task) (db : Database) (ls : List (T × Option Exc))

abbrev events : List (World T × (T × Option Exc)) :=
  Run.trace (turn personsDbms) (start tasks db) ls

/-- The changes of the committed requests, in the order of the commits. -/
def history : List (T × Change UUID (Option Person)) :=
  (journal personsDbms PersonStatement.changes (events tasks db ls)).published

/-- What a request has called and been told. -/
def calls (t : T) : List PersonEntry := transcript personsDbms t (events tasks db ls)

end

/-- What the request changes: a new row, the columns that were sent with another value than the row
had when it was loaded, or the removal. -/
def Task.Changes (h : List PersonEntry) : Task → Change UUID (Option Person) → Prop
  | .create c payload => fun ch => ch = ⟨c.personId, fun _ => some (payload.row c)⟩
  | .patch c personId payload => fun ch => ∃ old, Loads personId old h ∧
      ch = ⟨personId, Option.map ((payload.changes old).applyTo c.now)⟩
  | .delete _ personId => fun ch => ch = ⟨personId, fun _ => none⟩

/-- The request has something to write. -/
def Task.Writes (h : List PersonEntry) : Task → Prop
  | .create _ _ => True
  | .patch _ personId payload => ∃ old, Loads personId old h ∧ (payload.changes old).isEmpty = false
  | .delete _ _ => False

section
variable {task : Task} {h h' : List PersonEntry} {ch : Change UUID (Option Person)}

theorem Task.Changes.key (hch : task.Changes h ch) : ch.key = task.person := by
  cases task with
  | create c payload =>
    cases hch
    rfl
  | patch c personId payload =>
    obtain ⟨old, -, rfl⟩ := hch
    rfl
  | delete c personId =>
    cases hch
    rfl

theorem Task.Executes.changes {q : PersonStatement} {db : Database} (hq : task.Executes h q)
    (hearlier : h <+: h') (hch : ch ∈ q.changes db) : task.Changes h' ch := by
  cases task with
  | create c payload =>
    cases hq
    exact List.mem_singleton.1 hch
  | patch c personId payload =>
    obtain ⟨old, hold, rfl⟩ := hq
    exact ⟨old, hold.trans hearlier, List.mem_singleton.1 hch⟩
  | delete c personId =>
    cases hq
    simp only [PersonStatement.changes] at hch
    split at hch
    · cases hch
    · exact List.mem_singleton.1 hch

end

omit [DecidableEq T] in
theorem writesOnce (tasks : T → Task) : WritesOnce fun t => (tasks t).Allows :=
  fun _ _ _ hallows => hallows.1

/-! ### What a request has done -/

section run
variable {tasks : T → Task} {db : Database} {ls : List (T × Option Exc)} {w : World T}
  (hrun : Run.exec (turn personsDbms) (start tasks db) ls = some w)
include hrun

theorem obedient (t : T) : Obedient personsDbms (fun t => (tasks t).Allows)
    (fun t h out => Concluded (tasks t).Told h out.1) (events tasks db ls) w t := by
  refine obeys_run (fun t => ?_) hrun t
  refine obeys_asRequest (fun h c hc => ?_) (tasks t).handler_told
  cases c with
  | begin | commit | rollback | close => trivial
  | query | flush => exact hc.elim

theorem history_filter (t : T) : (history tasks db ls).filter (fun e => e.1 = t) =
    (settled (remarks personsDbms PersonStatement.changes t (events tasks db ls))).1.map
      fun c => (t, c) :=
  filter_history hrun

theorem history_changes {t : T} {ch : Change UUID (Option Person)}
    (hmem : (t, ch) ∈ history tasks db ls) : (tasks t).Changes (calls tasks db ls t) ch := by
  obtain ⟨pre, q, db', hearlier, hallows, hch⟩ :=
    mayMake_of_published hrun (writesOnce tasks) changes_cases (obedient hrun) hmem
  exact hallows.2.changes hearlier hch

theorem history_of (t : T) : (history tasks db ls).filter (fun e => e.1 = t) = [] ∨
    ∃ ch, (history tasks db ls).filter (fun e => e.1 = t) = [(t, ch)] := by
  rcases published_of_client hrun (writesOnce tasks) changes_cases (obedient hrun t) with
    hnil | ⟨ch, hone, -⟩
  · exact .inl hnil
  · exact .inr ⟨ch, hone⟩

theorem history_nodup : ((history tasks db ls).map Prod.fst).Nodup :=
  published_nodup hrun (writesOnce tasks) changes_cases (obedient hrun)

/-! ### The answers -/

/-- The transcript of a request that has answered. -/
theorem answered {t : T} {answer : Option Person} (hdone : w.client t = .pure (.ok answer, ())) :
    ∃ rs, Returned (remarks personsDbms PersonStatement.changes t (events tasks db ls)) rs ∧
      (tasks t).Answers (rs.map Prod.fst) answer := by
  have hrest := (obedient hrun t).rest
  rw [hdone] at hrest
  obtain ⟨h, htold, hcalls⟩ := Concluded.of_ok hrest
  rw [← map_fst_remarks PersonStatement.changes] at hcalls
  obtain ⟨rs, rfl, hreturned⟩ := Returned.of_calls htold.handling hcalls
  exact ⟨rs, hreturned, htold.answer answer rfl⟩

section returned
variable {t : T} {rs : List (PersonEntry × List (Change UUID (Option Person)))} {id : UUID}
  (hreturned : Returned (remarks personsDbms PersonStatement.changes t (events tasks db ls)) rs)
include hreturned

/-- What the request has stored, or removed, is so when it commits. -/
theorem seenAt_made {row : Option Person} (hown : rs.flatMap flushed = [⟨id, fun _ => row⟩]) :
    SeenAt personsDbms PersonStatement.changes (stored db) (events tasks db ls) t id row := by
  obtain ⟨ls₁, w₁, x, -, -, -, hlook, -, hseen⟩ := seenAt_commit rowwise hrun hreturned
  have hrow : stored (view personsDbms.engine w₁.server x) id = row := by
    rw [hlook, hown]
    exact Function.update_self id _ _
  exact hrow ▸ hseen id

/-- A row that the request was shown last: it has written this row and holds it until it commits,
or it has written none. -/
theorem seenAt_shown {h : List PersonEntry} {answer : Option Person}
    (hlast : rs.map Prod.fst = h ++ [⟨.query (.get id), .ok answer⟩])
    (hkeys : ∀ ch ∈ rs.flatMap flushed, ch.key = id) :
    SeenAt personsDbms PersonStatement.changes (stored db) (events tasks db ls) t id answer := by
  by_cases hnil : rs.flatMap flushed = []
  · have hnone := hreturned.settled.trans hnil
    obtain ⟨cs, cs', hends⟩ := hreturned.ends
    obtain ⟨pre, ms, rfl, rfl, hms⟩ := List.map_eq_append_iff.1 hlast
    obtain ⟨m, ms, rfl, hm, hms⟩ := List.map_eq_cons_iff.1 hms
    obtain rfl := List.map_eq_nil_iff.1 hms
    rw [List.flatMap_append] at hnil
    rw [List.append_assoc] at hends
    rw [hends] at hnone
    obtain ⟨w₁, w₂, fault, -, hentry, -, hseen⟩ :=
      seenAt_call rowwise hrun hends (List.append_eq_nil_iff.1 hnil).1 hnone
    rw [hm] at hentry
    obtain ⟨x, hx, rfl⟩ := look_of_entry hentry
    exact hseen x hx id
  · obtain ⟨ch, hch⟩ := List.exists_mem_of_ne_nil _ hnil
    obtain ⟨ls₁, w₁, x, hrun₁, hrs₁, hx, -, hlocked, hseen⟩ := seenAt_commit rowwise hrun hreturned
    have hcalls : transcript personsDbms t (events tasks db ls₁) =
        h ++ [⟨.query (.get id), .ok answer⟩] := by
      rw [← map_fst_remarks PersonStatement.changes, ← hlast]
      exact congrArg (List.map Prod.fst) hrs₁
    have hrow : stored (view personsDbms.engine w₁.server x) id = answer :=
      last_answer (a := .get id) hrun₁ (reads_stored id) hcalls hx (hkeys ch hch ▸ hlocked ch hch)
    exact hrow ▸ hseen id

/-- After a DELETE the row is gone: the request has removed it, or did not find it. -/
theorem seenAt_deleted (hflush : ⟨.flush (.delete id), .ok ()⟩ ∈ rs.map Prod.fst) :
    SeenAt personsDbms PersonStatement.changes (stored db) (events tasks db ls) t id none := by
  obtain ⟨cs, cs', hends⟩ := hreturned.ends
  obtain ⟨pre, m, suf, rfl, hm, hpre, hown, -⟩ :=
    one_statement (writesOnce tasks) (obedient hrun t) hends hflush
  have hsplit := hends.trans (List.append_assoc ..)
  by_cases hgone : m.2 = []
  · have hnone := hreturned.settled.trans (hown.trans hgone)
    rw [hsplit] at hnone
    obtain ⟨w₁, w₂, fault, -, hentry, hmade, hseen⟩ := seenAt_call rowwise hrun hsplit hpre hnone
    rw [hm] at hentry
    obtain ⟨x, hx, hchanges⟩ := made_of_entry PersonStatement.changes hentry
    cases hstored : stored (view personsDbms.engine w₁.server x) id with
    | none => exact hstored ▸ hseen x hx id
    | some old =>
      rw [hmade, hchanges, changes_delete_stored hstored] at hgone
      cases hgone
  · obtain ⟨db', hmade⟩ := executed hrun hsplit hm
    refine seenAt_made hrun hreturned (hown.trans ?_)
    cases hstored : stored db' id with
    | none => exact absurd (hmade.trans (changes_delete_gone hstored)) hgone
    | some old => exact hmade.trans (changes_delete_stored hstored)

end returned

/-- The answer is what the history says of the person, up to the change of the request. -/
theorem seenAt_answer {t : T} {answer : Option Person}
    (hdone : w.client t = .pure (.ok answer, ())) :
    SeenAt personsDbms PersonStatement.changes (stored db) (events tasks db ls) t (tasks t).person
      answer := by
  obtain ⟨rs, hreturned, hanswers⟩ := answered hrun hdone
  obtain ⟨cs, cs', hends⟩ := hreturned.ends
  cases htask : tasks t with
  | create c payload =>
    rw [htask] at hanswers
    obtain ⟨rfl, hflush⟩ := hanswers
    obtain ⟨pre, m, suf, rfl, hm, -, hown, -⟩ :=
      one_statement (writesOnce tasks) (obedient hrun t) hends hflush
    obtain ⟨db', hmade⟩ := executed hrun (hends.trans (List.append_assoc ..)) hm
    exact seenAt_made hrun hreturned (hown.trans hmade)
  | patch c personId payload =>
    rw [htask] at hanswers
    obtain ⟨h, -, hlast⟩ := hanswers
    refine seenAt_shown hrun hreturned hlast fun ch hch => ?_
    have hmade : ch ∈ (remarks personsDbms PersonStatement.changes t
        (events tasks db ls)).flatMap flushed := by
      rw [hends, List.flatMap_append]
      exact List.mem_append_left _ hch
    obtain ⟨pre, q, db', hearlier, hallows, hch'⟩ :=
      mayMake_of_made hrun (writesOnce tasks) changes_cases (obedient hrun t) hmade
    rw [(hallows.2.changes hearlier hch').key, htask]
  | delete c personId =>
    rw [htask] at hanswers
    obtain ⟨rfl, hflush⟩ := hanswers
    exact seenAt_deleted hrun hreturned hflush

/-- A request that raises has changed nothing, unless it has failed to close its session after its
commit: the history has committed changes only. -/
theorem uncommitted {t : T} {e : Exc} (hdone : w.client t = .pure (.error e, ())) :
    (∀ ch, (t, ch) ∉ history tasks db ls) ∨ ⟨.close, .error e⟩ ∈ calls tasks db ls t := by
  have hrest := (obedient hrun t).rest
  rw [hdone] at hrest
  refine (Concluded.of_error (fun h r htold => htold.handling) hrest).imp_left
    fun hnone ch hmem => ?_
  have hown : (t, ch) ∈ (history tasks db ls).filter (fun e => e.1 = t) :=
    List.mem_filter.2 ⟨hmem, decide_eq_true rfl⟩
  rw [← map_fst_remarks PersonStatement.changes] at hnone
  rw [history_filter hrun, settled_uncommitted hnone] at hown
  cases hown

/-- A request that returns has executed what it had to write, and its change is in the history. -/
theorem kept {t : T} {answer : Option Person} (hdone : w.client t = .pure (.ok answer, ()))
    (hwrites : (tasks t).Writes (calls tasks db ls t)) : ∃ ch, (t, ch) ∈ history tasks db ls := by
  obtain ⟨rs, hreturned, hanswers⟩ := answered hrun hdone
  obtain ⟨cs, cs', hends⟩ := hreturned.ends
  have hexecuted : ∃ q, ⟨.flush q, .ok ()⟩ ∈ rs.map Prod.fst ∧ ∀ db', q.changes db' ≠ [] := by
    cases htask : tasks t with
    | create c payload =>
      rw [htask] at hanswers
      exact ⟨.insert (payload.row c), hanswers.2, fun _ => List.cons_ne_nil _ _⟩
    | patch c personId payload =>
      rw [htask] at hanswers hwrites
      obtain ⟨old, hold, hchanges⟩ := hwrites
      obtain ⟨h', ⟨old', hold', hflushed⟩, heq⟩ := hanswers
      have hearlier : h' <+: calls tasks db ls t := by
        rw [calls, ← map_fst_remarks PersonStatement.changes, hends, List.map_append, heq,
          List.append_assoc]
        exact List.prefix_append _ _
      obtain rfl := hold.unique (hold'.trans hearlier)
      have hflush := hflushed.resolve_left (by simp [hchanges])
      exact ⟨.update personId (payload.changes old) c.now, heq ▸ List.mem_append_left _ hflush,
        fun _ => List.cons_ne_nil _ _⟩
    | delete c personId =>
      rw [htask] at hwrites
      exact hwrites.elim
  obtain ⟨q, hq, hne⟩ := hexecuted
  obtain ⟨pre, m, suf, rfl, hm, -, hown, -⟩ :=
    one_statement (writesOnce tasks) (obedient hrun t) hends hq
  obtain ⟨db', hmade⟩ := executed hrun (hends.trans (List.append_assoc ..)) hm
  obtain ⟨ch, hch⟩ := List.exists_mem_of_ne_nil _ (hne db')
  have hmem : (t, ch) ∈ (history tasks db ls).filter (fun e => e.1 = t) := by
    rw [history_filter hrun, hreturned.settled, hown, hmade]
    exact List.mem_map_of_mem hch
  exact ⟨ch, (List.mem_filter.1 hmem).1⟩

end run

end FaceRecognition.Api.PersonTasks
