import FaceRecognition.Lib.Requests
import FaceRecognition.Lib.Transaction
import FaceRecognition.Services.Recognition

/-!
# The session of a request

`get_db` commits the session of a request when the handler returns and rolls it back when the
handler or the commit raises. So a request commits what its handler has written or nothing, and
what the handler keeps the request keeps.
-/

namespace FaceRecognition.Api

open Db UnitOfWork

/-- The handler within `get_db`. -/
def getDb {α : Type} (c : Context) (handler : SessionM α) : SessionM α :=
  tryCatch
    (do
      let response ← handler
      commit pendingRollback (c.fault .commit)
      return response)
    fun exc => do
      rollback (c.fault .rollback)
      throw exc

theorem keeps_getDb {α : Type} {I : Database → Prop} {c : Context} {handler : SessionM α}
    (h : Keeps (Both I) handler) : Keeps (Both I) (getDb c handler) := by
  refine keeps_tryCatch ?_ fun exc => ?_
  · exact keeps_bind h fun response => keeps_bind keeps_commit fun _ => keeps_pure _
  · exact keeps_bind keeps_rollback fun _ => keeps_throw _

/-- When no call fails. -/
theorem getDb_of_fault {α : Type} {c : Context} (hc : ∀ site, c.fault site = none)
    (handler : SessionM α) :
    getDb c handler = ReadCommitted.transaction pendingRollback handler := by
  rw [getDb, hc, hc]
  rfl

/-- What is committed after a request. -/
def afterRequest {α : Type} (c : Context) (handler : SessionM α) (db : Database) : Database :=
  (exec (getDb c handler) (Session.begin db)).2.committed

theorem afterRequest_keeps {α : Type} {I : Database → Prop} {c : Context} {handler : SessionM α}
    (h : Keeps (Both I) handler) {db : Database} (hdb : I db) : I (afterRequest c handler db) :=
  (keeps_getDb h _ (both_begin hdb)).1

/-- A request commits all of the work of its handler, or nothing. -/
theorem afterRequest_cases {α : Type} {c : Context} {handler : SessionM α}
    (h : Preserves Session.committed handler) (db : Database) :
    afterRequest c handler db = db ∨
      ∃ a s, exec handler (Session.begin db) = (.ok a, s) ∧ afterRequest c handler db = s.work := by
  obtain ⟨t, ht, hcases⟩ := committed_cases h pendingRollback (c.fault .commit)
    (c.fault .rollback) (Session.begin db)
  have hcommitted : afterRequest c handler db = t.committed := congrArg Session.committed ht
  rwa [hcommitted]

end FaceRecognition.Api
