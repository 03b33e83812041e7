import FaceRecognition.Services.AccountProtocol

/-!
# Accounts created at the same time

Two requests for one username may both find it free. The unique index lets one of them insert: the
other waits and is then refused, which `create_user` answers as an internal error instead of a
conflict, and on which a worker does not start. That is all that can go wrong (`raced_iff`).
Usernames stay unique, and a request that has finished has left exactly one account of its name
(`accounts_created`, `exactly_one`); none of them waits for ever (`no_deadlock`).
-/

namespace FaceRecognition.Services.AccountRaces

open Relational Db UnitOfWork ReadCommitted Security AuthService

variable {T : Type} [DecidableEq T] {tasks : T → Task} {db : Users} {t : T} {w : World T}

/-- What the unique index says. -/
def usernameTaken : Exc := uniqueViolation "ix_users_username"

/-! ### Two workers that start -/

def plainAuth : AuthSettings :=
  { jwt := plainJwt, accessTokenExpireMinutes := 1, passwords := plainPasswords }

def workerContext (id : UUID) : UserContext where
  now := 0
  personId := 0
  faceId := 0
  logId := 0
  userId := id
  salt := 0
  utcNow := 0

def twoWorkers (second : Bool) : Task :=
  .bootstrap plainAuth (workerContext (if second then 2 else 1)) "root" "change-me"

/-- The second worker creates the admin between the look up of the first one and its INSERT. -/
def racing : List (Bool × Option Exc) :=
  (List.replicate 2 false ++ List.replicate 5 true ++ List.replicate 2 false).map fun t => (t, none)

def returned : Program → Option (Except Exc (Option User))
  | .pure (r, _) => some r
  | .call _ _ => none

theorem returned_eq {p : Program} {r : Except Exc (Option User)} (h : returned p = some r) :
    p = .pure (r, ()) := by
  match p, h with
  | .pure (_, _), rfl => rfl

/-- After a run: what the workers return, and the ids of the users. -/
def outcome (ls : List (Bool × Option Exc)) :
    Option (Option (Except Exc (Option User)) × Option (Except Exc (Option User)) × List UUID) :=
  (Run.exec (turn usersDbms) (start twoWorkers Table.empty) ls).map fun w =>
    (returned (w.client false), returned (w.client true), w.server.committed.rows.map User.id)

theorem outcome_racing :
    outcome racing = some (some (.error usernameTaken), some (.ok none), [2]) := by
  decide +kernel

theorem racing_run : ∃ w, Run.exec (turn usersDbms) (start twoWorkers Table.empty) racing = some w ∧
    w.client false = .pure (.error usernameTaken, ()) ∧ w.client true = .pure (.ok none, ()) ∧
      w.server.committed.rows.map User.id = [2] := by
  obtain ⟨w, hrun, hw⟩ := Option.map_eq_some_iff.1 outcome_racing
  obtain ⟨hfirst, hsecond, hrows⟩ := by simpa only [Prod.mk.injEq] using hw
  exact ⟨w, hrun, returned_eq hfirst, returned_eq hsecond, hrows⟩

theorem fresh_twoWorkers : Fresh twoWorkers Table.empty where
  new _ := rfl
  distinct t u h := by
    cases t <;> cases u
    · rfl
    · cases h
    · cases h
    · rfl

theorem unique_empty : UniqueUsernames Table.empty := fun u hu => by cases hu

/-- A run in which no call fails. -/
theorem not_faulted {ls : List (T × Option Exc)}
    (hls : ∀ l ∈ ls, l.2 = none)
    (hrun : Run.exec (turn usersDbms) (start tasks db) ls = some w) (t : T) :
    ¬ Faulted (events tasks db ls) t := by
  rintro ⟨v, e, hmem⟩
  have hlabel : (t, some e) ∈ ls := by
    rw [← Run.trace_labels hrun]
    exact List.mem_map_of_mem hmem
  cases hls _ hlabel

theorem quiet_racing : ∀ l ∈ racing, l.2 = none := by
  intro l hl
  obtain ⟨t, -, rfl⟩ := List.mem_map.1 hl
  rfl

def firstAdmin : User := newUser (workerContext 1) "root" "change-me" .admin

theorem row_first : (twoWorkers false).row = .ok firstAdmin := by decide +kernel

/-! ### The race for a username -/

/-- The row fits its columns. -/
def Fits (u : User) : Prop :=
  fits 128 (some u.username) = true ∧ fits 255 (some u.hashedPassword) = true

/-- The username was free when `t` looked it up, and was not any more when it inserted `u`. -/
def Raced (tasks : T → Task) (tr : List (Event T)) (t : T) (u : User) : Prop :=
  ∃ l l', [l, l'].Sublist tr ∧ Makes l t (.query (tasks t).username) ∧ Makes l' t (.flush u) ∧
    findUser (tasks t).username l.1.server.committed = none ∧
      findUser (tasks t).username l'.1.server.committed ≠ none

omit [DecidableEq T] in
theorem taken_ne {task : Task} : task.taken ≠ .error usernameTaken := by
  cases task with
  | createUser cfg c payload =>
    intro h
    cases congrArg Exc.kind (Except.error.inj h)
  | bootstrap cfg c username password =>
    intro h
    cases h

theorem insertUser_eq {u : User} {users : Users} (hfits : Fits u) (hid : users.get? u.id = none) :
    insertUser u users =
      if findUser u.username users = none then .ok [u] else .error usernameTaken := by
  rw [insertUser, hfits.1, hfits.2, hid]
  cases findUser u.username users <;> rfl

/-- **A request is refused by the unique index exactly when it has raced** with another one for the
username. -/
theorem raced_iff {ls : List (T × Option Exc)} (hdb : UniqueUsernames db)
    (hfresh : Fresh tasks db) (hrun : Run.exec (turn usersDbms) (start tasks db) ls = some w)
    {r : Except Exc (Option User)} (hdone : w.client t = .pure (r, ()))
    (hquiet : ¬ Faulted (events tasks db ls) t) {u : User} (hrow : (tasks t).row = .ok u)
    (hfits : Fits u) : r = .error usernameTaken ↔ Raced tasks (events tasks db ls) t u := by
  have hinv := inv_run hdb hfresh hrun
  have hname : u.username = (tasks t).username := (row_eq hrow).2
  cases hinv.decided hdone hquiet with
  | taken l hl hmakes hfound =>
    refine iff_of_false taken_ne ?_
    rintro ⟨l₁, l₂, hsub, hlook, -, hfree, -⟩
    have hmem : l₁ ∈ events tasks db ls := hsub.subset List.mem_cons_self
    obtain rfl := hinv.paced.makes_unique hl hmem hmakes hlook fun _ _ => rfl
    exact hfound hfree
  | unhashed l hl e he => cases hrow.symm.trans he
  | refused l l' hl hsub v hv hmakes e hid hinsert =>
    obtain rfl : v = u := Except.ok.inj (hv.symm.trans hrow)
    rw [insertUser_eq hfits hid] at hinsert
    split_ifs at hinsert with hfree
    cases hinsert
    exact iff_of_true rfl ⟨l, l', hsub, hl.makes, hmakes, hl.free, hname ▸ hfree⟩
  | created l l' hl hsub v hv hmakes hinsert =>
    obtain rfl : v = u := Except.ok.inj (hv.symm.trans hrow)
    refine iff_of_false (fun h => by cases h) ?_
    rintro ⟨l₁, l₂, hsub', -, hmakes', -, htaken⟩
    have hmem : l' ∈ events tasks db ls := hsub.subset (by simp)
    have hmem' : l₂ ∈ events tasks db ls := hsub'.subset (by simp)
    obtain rfl := hinv.paced.makes_unique hmem hmem' hmakes hmakes' fun _ _ => rfl
    exact htaken (hname ▸ (insertUser_ok hinsert).2.1)

theorem raced_iff_racing : ∃ w,
    Run.exec (turn usersDbms) (start twoWorkers Table.empty) racing = some w ∧
      Raced twoWorkers (events twoWorkers Table.empty racing) false firstAdmin := by
  obtain ⟨w, hrun, hfirst, -, -⟩ := racing_run
  exact ⟨w, hrun, (raced_iff unique_empty fresh_twoWorkers hrun hfirst
    (not_faulted quiet_racing hrun false) row_first ⟨by decide +kernel, by decide +kernel⟩).1 rfl⟩

/-! ### One account for a username -/

/-- **Accounts are created once.** However the requests are interleaved and whatever fails,
usernames stay unique and users are only added, each the row of a request; what a request returns is
stored, and one that raises without a failed call has added nothing. -/
theorem accounts_created {ls : List (T × Option Exc)} (hdb : UniqueUsernames db)
    (hfresh : Fresh tasks db) (hrun : Run.exec (turn usersDbms) (start tasks db) ls = some w) :
    UniqueUsernames w.server.committed ∧
      (∃ new, w.server.committed.rows = db.rows ++ new ∧
        ∀ u ∈ new, ∃ t, (tasks t).row = .ok u) ∧
      (∀ t answer, w.client t = .pure (.ok answer, ()) →
        Stored tasks t w.server.committed answer) ∧
      ∀ t e, w.client t = .pure (.error e, ()) →
        Faulted (events tasks db ls) t ∨ Absent tasks t w.server.committed := by
  have hinv := inv_run hdb hfresh hrun
  refine ⟨unique_of_pairwise hinv.index.unique, hinv.rows, fun t answer hdone => ?_,
    fun t e hdone => ?_⟩
  · exact (hinv.finished hdone).2
  · exact (hinv.finished hdone).imp_right And.right

theorem accounts_created_racing : ∃ w,
    Run.exec (turn usersDbms) (start twoWorkers Table.empty) racing = some w ∧
      Absent twoWorkers false w.server.committed := by
  obtain ⟨w, hrun, hfirst, -, -⟩ := racing_run
  obtain ⟨-, -, -, habsent⟩ := accounts_created unique_empty fresh_twoWorkers hrun
  exact ⟨w, hrun,
    (habsent false _ hfirst).resolve_left (not_faulted quiet_racing hrun false)⟩

/-- **Once a request for a username has finished without a failed call there is exactly one account
of that name**, whatever it has answered. Its password is one that can be hashed (`hrow`), and its
row fits the columns (`hfits`): else it may raise and insert nothing. -/
theorem exactly_one {ls : List (T × Option Exc)} (hdb : UniqueUsernames db)
    (hfresh : Fresh tasks db) (hrun : Run.exec (turn usersDbms) (start tasks db) ls = some w)
    {r : Except Exc (Option User)} (hdone : w.client t = .pure (r, ()))
    (hquiet : ¬ Faulted (events tasks db ls) t) {u : User} (hrow : (tasks t).row = .ok u)
    (hfits : Fits u) :
    ∃! v, v ∈ w.server.committed.rows ∧ v.username = (tasks t).username := by
  have hinv := inv_run hdb hfresh hrun
  have hunique := unique_of_pairwise hinv.index.unique
  have hgrown : ∀ l ∈ events tasks db ls, findUser (tasks t).username l.1.server.committed ≠ none →
      ∃ v ∈ w.server.committed.rows, v.username = (tasks t).username := fun l hl hfound => by
    obtain ⟨v, hv⟩ := Option.ne_none_iff_exists'.1 hfound
    obtain ⟨hmem, hname⟩ := findUser_mem hv
    exact ⟨v, hinv.grown l hl hmem, hname⟩
  have hsome : ∃ v ∈ w.server.committed.rows, v.username = (tasks t).username := by
    cases hinv.decided hdone hquiet with
    | taken l hl hmakes hfound => exact hgrown l hl hfound
    | unhashed l hl e he => cases hrow.symm.trans he
    | refused l l' hl hsub v hv hmakes e hid hinsert =>
      obtain rfl : v = u := Except.ok.inj (hv.symm.trans hrow)
      rw [insertUser_eq hfits hid] at hinsert
      split_ifs at hinsert with hfree
      exact hgrown l' (hsub.subset (by simp)) ((row_eq hrow).2 ▸ hfree)
    | created => exact (hinv.finished hdone).2.present
  obtain ⟨v, hv, hname⟩ := hsome
  exact ⟨v, ⟨hv, hname⟩, fun x hx => hunique x hx.1 v hv (hx.2.trans hname.symm)⟩

theorem exactly_one_racing : ∃ w,
    Run.exec (turn usersDbms) (start twoWorkers Table.empty) racing = some w ∧
      ∃! v, v ∈ w.server.committed.rows ∧ v.username = "root" := by
  obtain ⟨w, hrun, hfirst, -, -⟩ := racing_run
  exact ⟨w, hrun, exactly_one unique_empty fresh_twoWorkers hrun hfirst
    (not_faulted quiet_racing hrun false) row_first ⟨by decide +kernel, by decide +kernel⟩⟩

/-! ### Progress -/

/-- The client can commit its row. -/
def CanCommit (w : World T) (t : T) : Prop :=
  (∃ next, w.client t = .call .commit next) ∧ ∃ w', turn usersDbms w (t, none) = some w'

/-- **No deadlock**: a request takes at most six turns, and when it cannot take the next one it has
finished, or waits for a request with its username that can commit. -/
theorem no_deadlock {ls : List (T × Option Exc)}
    (hrun : Run.exec (turn usersDbms) (start tasks db) ls = some w) :
    (∀ t, ls.countP (fun l => l.1 = t) ≤ 6) ∧
      ∀ t, turn usersDbms w (t, none) = none → (∃ r, w.client t = .pure (r, ())) ∨
        ∃ u, u ≠ t ∧ (tasks u).username = (tasks t).username ∧ CanCommit w u := by
  have hpaced := paced_run hrun
  refine ⟨fun t => ?_, fun t hstuck => ?_⟩
  · have hcount := hpaced.count t
    rw [← Run.trace_labels hrun, List.countP_map]
    exact (Nat.le_add_right _ _).trans hcount
  · rcases turn_eq_none hstuck with ⟨⟨r, _⟩, hdone⟩ | ⟨q, next, x, ws, hflush, hx, hinsert, hlock⟩
    · exact .inl ⟨r, hdone⟩
    · right
      obtain ⟨y, hy, hne, v, hv, u, hu, hname⟩ := hlock
      obtain ⟨-, -, rfl⟩ := insertUser_ok hinsert
      obtain rfl := List.mem_singleton.1 hu
      obtain ⟨p, hcode, -, hrow⟩ := hpaced.client t
      obtain ⟨p', hcode', hstands, hrow'⟩ := hpaced.client y.id
      have hopen : w.server.txns.get? y.id = some y := Table.get?_eq_some.2 ⟨hy, rfl⟩
      obtain rfl : p = .insert u := eq_insert (hcode.symm.trans hflush)
      obtain rfl : p' = .commit (some v) := eq_commit (hstands.writes y hopen ▸ hv)
      refine ⟨y.id, hne, ?_, ⟨_, hcode'⟩, ?_⟩
      · have hv : v.username = u.username := hname
        rw [← (row_eq (hrow' v rfl)).2, hv, (row_eq (hrow u rfl)).2]
      · refine Option.ne_none_iff_exists'.1 fun hnone => ?_
        rcases turn_eq_none hnone with ⟨a, ha⟩ | ⟨q, next, _, _, hq, -⟩
        · cases hcode'.symm.trans ha
        · cases hcode'.symm.trans hq

/-- Both workers have found the username free, and the second one has inserted it. -/
def waiting : List (Bool × Option Exc) :=
  (List.replicate 2 false ++ List.replicate 3 true).map fun t => (t, none)

theorem no_deadlock_waiting : ∃ w,
    Run.exec (turn usersDbms) (start twoWorkers Table.empty) waiting = some w ∧
      turn usersDbms w (false, none) = none ∧ CanCommit w true := by
  have hwaits : (Run.exec (turn usersDbms) (start twoWorkers Table.empty) waiting).map (fun w =>
      ((turn usersDbms w (false, none)).isNone, returned (w.client false))) = some (true, none) := by
    decide +kernel
  obtain ⟨w, hrun, hw⟩ := Option.map_eq_some_iff.1 hwaits
  obtain ⟨hstuck, hopen⟩ := Prod.mk.inj hw
  rw [Option.isNone_iff_eq_none] at hstuck
  refine ⟨w, hrun, hstuck, ?_⟩
  rcases (no_deadlock hrun).2 false hstuck with ⟨r, hdone⟩ | ⟨u, hne, -, hcan⟩
  · rw [hdone] at hopen
    cases hopen
  · cases u with
    | false => exact absurd rfl hne
    | true => exact hcan

end FaceRecognition.Services.AccountRaces
