import FaceRecognition.Lib.Transcripts

/-!
# Requests

A request runs a handler on a session of its own: it commits when the handler returns, rolls back
when the handler or the commit raises, and closes the session. `Concluded` lists the transcripts
that such a request can have, given those of its handler (`obeys_asRequest`). Left alone, it is the
transaction around the handler's action (`asRequest_alone`).
-/

namespace ReadCommitted

open UnitOfWork Client

variable {Db W R A Q V Ex σ α : Type}

/-- A session around a body. -/
def inSession (body : ProgramM A Q V Ex σ α) : ProgramM A Q V Ex σ α := do
  ask .begin
  let result ← tryCatch body fun exc => do
    ask .close
    throw exc
  ask .close
  return result

def asRequest (handler : ProgramM A Q V Ex σ α) : ProgramM A Q V Ex σ α :=
  inSession (tryCatch
    (do
      let response ← handler
      ask .commit
      return response)
    fun exc => do
      ask .rollback
      throw exc)

/-! ### The calls of a request -/

def closing (r : Except Ex α) (l : σ) : Outcome A Q V Ex σ α :=
  .call .close fun answer => .pure (answer.bind fun _ => r, l)

def rollingBack (e : Ex) (l : σ) : Outcome A Q V Ex σ α :=
  .call .rollback fun
    | .ok _ => closing (.error e) l
    | .error e' => closing (.error e') l

/-- The request, when its handler is over. -/
def concluding : Except Ex α × σ → Outcome A Q V Ex σ α
  | (.ok a, l) => .call .commit fun
      | .ok _ => closing (.ok a) l
      | .error e => rollingBack e l
  | (.error e, l) => rollingBack e l

theorem go_inSession (body : ProgramM A Q V Ex σ α) (l : σ) :
    go (inSession body) l = .call .begin fun
      | .ok _ => (go body l).bind fun out => closing out.1 out.2
      | .error e => .pure (.error e, l) := by
  refine congrArg (Prog.call Call.begin) (funext fun r => ?_)
  obtain e | _ := r
  · rfl
  · show go (tryCatch body _ >>= _) l = _
    rw [go_bind, go_tryCatch, Prog.bind_assoc]
    refine congrArg (Prog.bind (go body l)) (funext fun out => ?_)
    obtain ⟨e | a, l'⟩ := out
    · exact congrArg (Prog.call Call.close) (funext fun r => by cases r <;> rfl)
    · exact congrArg (Prog.call Call.close) (funext fun r => by cases r <;> rfl)

theorem closing_rollback (e : Ex) (l : σ) :
    (go (do
      ask .rollback
      throw e : ProgramM A Q V Ex σ α) l).bind (fun out => closing out.1 out.2) =
        rollingBack e l :=
  congrArg (Prog.call Call.rollback) (funext fun r => by cases r <;> rfl)

theorem go_asRequest (handler : ProgramM A Q V Ex σ α) (l : σ) :
    go (asRequest handler) l = .call .begin fun
      | .ok _ => (go handler l).bind concluding
      | .error e => .pure (.error e, l) := by
  rw [asRequest, go_inSession]
  refine congrArg (Prog.call Call.begin) (funext fun r => ?_)
  obtain e | _ := r
  · rfl
  · dsimp only
    rw [go_tryCatch, go_bind, Prog.bind_assoc, Prog.bind_assoc]
    refine congrArg (Prog.bind (go handler l)) (funext fun out => ?_)
    obtain ⟨e | a, l'⟩ := out
    · exact closing_rollback e l'
    · refine congrArg (Prog.call Call.commit) (funext fun r => ?_)
      obtain e | _ := r
      · exact closing_rollback e l'
      · rfl

/-! ### A request alone -/

/-- The transaction of a request, on a session. -/
def transaction (pending : Ex) (m : Action Ex (Session Db) α) : Action Ex (Session Db) α :=
  tryCatch
    (do
      let response ← m
      commit pending none
      return response)
    fun exc => do
      rollback none
      throw exc

/-- Left alone, a request is the transaction around the action of its handler. -/
theorem asRequest_alone {D : Dbms Db W R A Q V Ex} {handler : ProgramM A Q V Ex Unit α}
    {m : Action Ex (Session Db) α} (h : Denotes D (fun sess _ => sess) handler m)
    (sess : Session Db) : ∃ r sess',
      (go (asRequest handler) ()).eval (answer D none) sess = (sess', (r, ())) ∧
        exec (transaction D.pending m) (.begin sess.committed) = (r, sess') := by
  obtain ⟨r, ⟨committed, work, broken⟩, _, heval, hexec⟩ := h (.begin sess.committed) ()
  have hbegin : (go (asRequest handler) ()).eval (answer D none) sess =
      (concluding (r, ())).eval (answer D none) ⟨committed, work, broken⟩ := by
    rw [go_asRequest]
    show ((go handler ()).bind concluding).eval (answer D none) (Session.begin sess.committed) = _
    rw [Prog.eval_bind, heval]
  rw [hbegin, transaction, exec_tryCatch]
  cases r with
  | error e =>
    rw [exec_bind_error hexec]
    exact ⟨_, _, rfl, rfl⟩
  | ok a =>
    rw [exec_bind_ok hexec]
    cases broken with
    | true => exact ⟨_, _, rfl, rfl⟩
    | false => exact ⟨_, _, rfl, rfl⟩

/-! ### The transcripts of a request -/

/-- The call is not one of a handler. -/
def Call.Controls : Call A Q → Prop
  | .begin | .commit | .rollback | .close => True
  | .query _ | .flush _ => False

/-- The exception that is raised when cleaning up after `e` has ended with `r`. -/
def lastRaised (e : Ex) : Except Ex Unit → Ex
  | .ok _ => e
  | .error e' => e'

/-- How a request ends whose handler has the transcripts `tells`. -/
inductive Concluded (tells : List (Entry A Q V Ex) → Except Ex α → Prop) :
    List (Entry A Q V Ex) → Except Ex α → Prop where
  | unopened (e : Ex) : Concluded tells [⟨.begin, .error e⟩] (.error e)
  | returned (h : List (Entry A Q V Ex)) (a : α) (htells : tells h (.ok a)) :
    Concluded tells (h ++ [⟨.commit, .ok ()⟩, ⟨.close, .ok ()⟩]) (.ok a)
  | unclosed (h : List (Entry A Q V Ex)) (a : α) (e : Ex) (htells : tells h (.ok a)) :
    Concluded tells (h ++ [⟨.commit, .ok ()⟩, ⟨.close, .error e⟩]) (.error e)
  | refused (h : List (Entry A Q V Ex)) (a : α) (e : Ex) (r r' : Except Ex Unit)
    (htells : tells h (.ok a)) :
    Concluded tells (h ++ [⟨.commit, .error e⟩, ⟨.rollback, r⟩, ⟨.close, r'⟩])
      (.error (lastRaised (lastRaised e r) r'))
  | raised (h : List (Entry A Q V Ex)) (e : Ex) (r r' : Except Ex Unit) (htells : tells h (.error e)) :
    Concluded tells (h ++ [⟨.rollback, r⟩, ⟨.close, r'⟩]) (.error (lastRaised (lastRaised e r) r'))

section
variable {allowed : List (Entry A Q V Ex) → Call A Q → Prop}
  {tells : List (Entry A Q V Ex) → Except Ex α → Prop} {h : List (Entry A Q V Ex)} {l : σ}

/-- From a transcript `h` on, a request that is to end with `r`. -/
theorem obeys_closing (hcontrol : ∀ h c, c.Controls → allowed h c) {r : Except Ex α}
    {post : List (Entry A Q V Ex) → Except Ex α → Prop}
    (hpost : ∀ answer : Except Ex Unit, post (h ++ [⟨.close, answer⟩]) (answer.bind fun _ => r)) :
    (closing r l : Outcome A Q V Ex σ α).Obeys allowed record h fun h out => post h out.1 :=
  ⟨hcontrol _ _ trivial, hpost⟩

theorem obeys_rollingBack (hcontrol : ∀ h c, c.Controls → allowed h c) {e : Ex}
    {post : List (Entry A Q V Ex) → Except Ex α → Prop}
    (hpost : ∀ r r', post (h ++ [⟨.rollback, r⟩, ⟨.close, r'⟩])
      (.error (lastRaised (lastRaised e r) r'))) :
    (rollingBack e l : Outcome A Q V Ex σ α).Obeys allowed record h fun h out => post h out.1 := by
  refine ⟨hcontrol _ _ trivial, fun r => ?_⟩
  have hclosing : (closing (.error (lastRaised e r)) l : Outcome A Q V Ex σ α).Obeys allowed record
      (record h .rollback r) fun h out => post h out.1 := by
    refine obeys_closing hcontrol fun r' => ?_
    have hend := hpost r r'
    rw [record, List.append_assoc]
    cases r' <;> exact hend
  cases r <;> exact hclosing

/-- **A request has the transcripts of its handler, with the end that it makes of them.** -/
theorem obeys_asRequest (hcontrol : ∀ h c, c.Controls → allowed h c)
    {handler : ProgramM A Q V Ex σ α}
    (hhandler : (go handler l).Obeys allowed record [⟨.begin, .ok ()⟩] fun h out => tells h out.1) :
    (go (asRequest handler) l).Obeys allowed record [] fun h out => Concluded tells h out.1 := by
  rw [go_asRequest]
  refine ⟨hcontrol _ _ trivial, fun r => ?_⟩
  obtain e | _ := r
  · exact .unopened e
  · refine hhandler.bind fun h out htells => ?_
    obtain ⟨e | a, l'⟩ := out
    · exact obeys_rollingBack hcontrol fun r r' => .raised h e r r' htells
    · refine ⟨hcontrol _ _ trivial, fun r => ?_⟩
      obtain e | _ := r
      · refine obeys_rollingBack hcontrol fun r r' => ?_
        rw [record, List.append_assoc]
        exact .refused h a e r r' htells
      · refine obeys_closing hcontrol fun answer => ?_
        rw [record, List.append_assoc]
        obtain e | _ := answer
        · exact .unclosed h a e htells
        · exact .returned h a htells

end

end ReadCommitted
