import FaceRecognition.Api.Effects
import FaceRecognition.Api.Provenance
import FaceRecognition.Db.Constraints

/-!
# The log of a run

The table `recognition_logs` is append-only, and it tells the run (`ledger`): in the order of the
operations, one row for every recognition that has returned, under the name of the user or the key
and the address of the client, and the failures of every import. Nothing else is in it.
-/

namespace FaceRecognition.Api

open Machine Relational Recognition Db UnitOfWork Services RateLimit Security

/-- What an endpoint for recognition writes to the log. -/
def Route.action : Route → Option RecognitionAction
  | .registerFace .. | .enrollByName .. | .replaceFaceImage .. => some .register
  | .verifyFace .. => some .verify
  | .searchFaces .. => some .search
  | .read .. | .createPerson .. | .updatePerson .. | .deletePerson .. | .deleteFace ..
  | .bulkImport .. | .createKey .. | .revokeKey .. | .createUser .. => none

/-- An event that writes nothing to the log. -/
def silent : AppEvent → Bool
  | (.request _ (.bulkImport ..), .served _ (.ok _)) => false
  | (.request _ route, .served _ (.ok _)) => route.action.isNone
  | (.external .., .identified (.ok _)) => false
  | _ => true

/-- A key of this name was there at the start, or has been created since. -/
def KeyNamed (start : AppWorld) (past : List AppEvent) (name : String) : Prop :=
  (∃ k ∈ start.db.apiKeys.rows, k.name = name) ∨
    ∃ http c user, (.request http (.createKey c name), .served user (.ok ())) ∈ past

/-- The rows that the log has after a past. -/
inductive Ledger (start : AppWorld) : List AppEvent → List RecognitionLog → Prop
  | start : Ledger start [] start.db.logs.rows
  | silent {past : List AppEvent} {rows : List RecognitionLog} {e : AppEvent}
    (h : Ledger start past rows) (he : silent e = true) : Ledger start (past ++ [e]) rows
  | recognised {past : List AppEvent} {rows : List RecognitionLog} {http : Http} {route : Route}
    {user : TokenPayload} {l : RecognitionLog} (h : Ledger start past rows)
    (haction : route.action = some l.action) (huser : l.userId = some user.sub)
    (hclient : l.clientIp = http.client) :
    Ledger start (past ++ [(.request http route, .served user (.ok ()))]) (rows ++ [l])
  | identified {past : List AppEvent} {rows : List RecognitionLog} {c : KeyContext} {http : Http}
    {image : Upload} {key : Option String} {name : String} {l : RecognitionLog}
    (h : Ledger start past rows) (hname : KeyNamed start past name) (haction : l.action = .search)
    (huser : l.userId = some ("apikey:" ++ name)) (hclient : l.clientIp = http.client) :
    Ledger start (past ++ [(.external c http image key, .identified (.ok ()))]) (rows ++ [l])
  | imported {past : List AppEvent} {rows : List RecognitionLog} {http : Http} {env : ImportEnv}
    {jobId : UUID} {rootPath : Path} {user : TokenPayload} {failures : List RecognitionLog}
    (h : Ledger start past rows) (hfailures : ∀ l ∈ failures, BulkImportService.Failure l) :
    Ledger start
      (past ++ [(.request http (.bulkImport env jobId rootPath), .served user (.ok ()))])
      (rows ++ failures)

/-! ### What is appended -/

/-- The log has grown by rows that satisfy `P`. -/
def Appended (P : RecognitionLog → Prop) (rows : List RecognitionLog) (db : Database) : Prop :=
  ∃ new, db.logs.rows = rows ++ new ∧ ∀ l ∈ new, P l

theorem appended_refl (P : RecognitionLog → Prop) (db : Database) :
    Appended P db.logs.rows db := ⟨[], (List.append_nil _).symm, fun _ h => by cases h⟩

theorem appended_keptBy {P : RecognitionLog → Prop} {rows : List RecognitionLog} {q : Statement}
    (hq : ∀ l, q = .insertLog l → P l) : KeptBy (Appended P rows) q := by
  rintro db ws ⟨new, hrows, hnew⟩ hrun
  rcases logs_after hrun with hsame | ⟨l, rfl, hfresh, hput⟩
  · exact ⟨new, by rw [hsame, hrows], hnew⟩
  · refine ⟨new ++ [l], ?_, fun l' hl' => ?_⟩
    · rw [hput, Table.rows_put_of_new hfresh, hrows, List.append_assoc]
    · rcases List.mem_append.1 hl' with hl' | hl'
      · exact hnew l' hl'
      · rw [List.mem_singleton.1 hl']
        exact hq l rfl

section
variable {cfg : AppSettings} {user : TokenPayload} {http : Http} {w : AppWorld}

variable (cfg user http w) in
theorem handle_appends (route : Route) :
    Appended (fun l => ∃ op, route.op cfg user http = some op ∧ Records op l) w.db.logs.rows
      (handle cfg user http w route).1.db.toDatabase := by
  refine handle_keeps cfg user http w route (fun op hop => ⟨fun l hl => ?_, fun q hq => ?_⟩)
    (appended_refl _ _)
  · refine appended_keptBy fun l' hl' => ?_
    obtain rfl := Statement.insertLog.inj hl'
    exact ⟨op, hop, hl⟩
  · refine appended_keptBy fun l hl => ?_
    subst hl
    cases hq

/-- The row of an endpoint for recognition is under the name and the address of the user. -/
theorem signed_of_records {route : Route} {op : Op} {l : RecognitionLog}
    {action : RecognitionAction} (haction : route.action = some action)
    (hop : route.op cfg user http = some op) (hl : Records op l) :
    (serviceFor cfg user http).Signed l := by
  cases route <;> cases haction <;> cases hop <;> cases hl <;> assumption

/-- The request has returned and committed the work of its handler. -/
theorem onDatabase_returned {α : Type} {c : Context} {handler : Context → SessionM α}
    (hkept : Preserves Session.committed (handler c.alone))
    (h : (onDatabase c handler w).2 = .ok ()) :
    ∃ a s, exec (handler c.alone) (Session.begin w.db.toDatabase) = (.ok a, s) ∧
      (onDatabase c handler w).1.db.toDatabase = s.work := by
  have hended : Ended (handler c.alone) w.db.toDatabase
      (exec (getDb c.alone (handler c.alone)) (Session.begin w.db.toDatabase)).1
      (exec (getDb c.alone (handler c.alone)) (Session.begin w.db.toDatabase)).2.committed :=
    ended_transact hkept
  rw [onDatabase] at h ⊢
  dsimp only at h ⊢
  generalize (exec (getDb c.alone (handler c.alone)) (Session.begin w.db.toDatabase)).1 = r at *
  generalize (exec (getDb c.alone (handler c.alone))
    (Session.begin w.db.toDatabase)).2.committed = db at *
  cases hended with
  | failed e => cases h
  | returned a s hrun => exact ⟨a, s, hrun, rfl⟩

/-- An endpoint that reads its image first and writes one row when it returns. -/
theorem upload_appends {α : Type} {c : Context} {image : Upload}
    {k : Context → Bytes → SessionM α} {action : RecognitionAction}
    (hkept : ∀ data, Preserves Session.committed (k c.alone data))
    (hwrites : ∀ data a s, exec (k c.alone data) (Session.begin w.db.toDatabase) = (.ok a, s) →
      ∃ writes, Wrote (Session.begin w.db.toDatabase) s writes ∧ writes.log.action = action)
    (h : (onDatabase c (fun c => lift (readImage image) >>= k c) w).2 = .ok ()) :
    ∃ l, (onDatabase c (fun c => lift (readImage image) >>= k c) w).1.db.logs.rows =
      w.db.logs.rows ++ [l] ∧ l.action = action := by
  obtain ⟨a, s, hrun, hdb⟩ := onDatabase_returned (preserves_bind (preserves_lift _) hkept) h
  obtain ⟨data, t, hread, hk⟩ := exec_bind_eq_ok.1 hrun
  obtain ⟨-, rfl⟩ := exec_lift_eq_ok.1 hread
  obtain ⟨writes, hwrote, haction⟩ := hwrites data a s hk
  refine ⟨writes.log, ?_, haction⟩
  rw [hdb, hwrote.work]
  exact Table.rows_put_of_new hwrote.newLog

theorem recognition_appends {route : Route} {action : RecognitionAction}
    (haction : route.action = some action) (h : (handle cfg user http w route).2 = .ok ()) :
    ∃ l, (handle cfg user http w route).1.db.logs.rows = w.db.logs.rows ++ [l] ∧
      l.action = action := by
  cases route with
  | registerFace c personId image =>
    cases haction
    rw [handle] at h ⊢
    refine upload_appends (fun data => RecognitionService.preserves_register _ _ personId data
      image.filename) (fun data a s hrun => ?_) h
    obtain ⟨f, log, henrolled, -, -, hwrote⟩ := RecognitionService.register_writes hrun
    exact ⟨_, hwrote, henrolled.log.action⟩
  | enrollByName c personName image =>
    cases haction
    rw [handle, withinEnrollLimit] at h ⊢
    split_ifs at h ⊢
    refine upload_appends (w := { w with enrolment := _ }) (fun data =>
      RecognitionService.preserves_registerByName _ _ personName data image.filename)
      (fun data a s hrun => ?_) h
    obtain ⟨p, f, log, henrolled, -, -, hwrote⟩ := RecognitionService.registerByName_writes hrun
    exact ⟨_, hwrote, henrolled.log.action⟩
  | replaceFaceImage c faceId image =>
    cases haction
    rw [handle] at h ⊢
    refine upload_appends (fun data => RecognitionService.preserves_replaceFaceImage _ _ faceId data
      image.filename) (fun data a s hrun => ?_) h
    obtain ⟨old, f, log, henrolled, -, -, -, hwrote⟩ :=
      RecognitionService.replaceFaceImage_writes hrun
    exact ⟨_, hwrote, henrolled.log.action⟩
  | verifyFace c personId image =>
    cases haction
    rw [handle] at h ⊢
    refine upload_appends (fun data => RecognitionService.preserves_verify _ _ personId data)
      (fun data a s hrun => ?_) h
    obtain ⟨result, log, -, -, htells, -, hwrote⟩ := RecognitionService.verify_writes hrun
    exact ⟨_, hwrote, htells.action⟩
  | searchFaces c image topK =>
    cases haction
    rw [handle] at h ⊢
    refine upload_appends (fun data => RecognitionService.preserves_search _ _ data topK)
      (fun data a s hrun => ?_) h
    obtain ⟨log, htells, hwrote⟩ := RecognitionService.search_writes hrun
    exact ⟨_, hwrote, htells.action⟩
  | _ => cases haction

/-- An endpoint that neither recognises nor imports leaves the log alone. -/
theorem handle_silent {route : Route} (haction : route.action = none)
    (himport : ∀ env jobId rootPath, route ≠ .bulkImport env jobId rootPath) :
    (handle cfg user http w route).1.db.logs.rows = w.db.logs.rows := by
  obtain ⟨new, hrows, hnew⟩ := handle_appends cfg user http w route
  have hnone : new = [] := by
    rw [List.eq_nil_iff_forall_not_mem]
    intro l hl
    obtain ⟨op, hop, hrecords⟩ := hnew l hl
    cases route <;> cases haction <;> cases hop <;> first | exact himport _ _ _ rfl | cases hrecords
  rw [hrows, hnone, List.append_nil]

/-! ### The names of the keys -/

/-- The name of a key is that of its creation. -/
theorem names_handle {Q : String → Prop} {route : Route}
    (hcreate : ∀ c name, route = .createKey c name → Q name)
    (hw : ∀ k ∈ w.db.apiKeys.rows, Q k.name) :
    ∀ k ∈ (handle cfg user http w route).1.db.apiKeys.rows, Q k.name := by
  cases route with
  | createKey c name =>
    refine onKeys_keeps (I := fun db => ∀ k ∈ db.apiKeys.rows, Q k.name) (keeps_beside
      (keeps_bind (keeps_bind (keeps_flush fun db db' h hrun => ?_) fun _ => keeps_pure _)
        fun _ => keeps_pure _)) hw
    obtain ⟨-, -, rfl⟩ := insertApiKey_ok hrun
    intro k hk
    rcases Table.mem_put.1 hk with rfl | ⟨hk, -⟩
    · exact hcreate c name rfl
    · exact h k hk
  | revokeKey c keyId =>
    refine onKeys_keeps (I := fun db => ∀ k ∈ db.apiKeys.rows, Q k.name) (keeps_beside
      (keeps_bind keeps_query fun entity => ?_)) hw
    cases entity with
    | none => exact keeps_throw _
    | some entity =>
      refine keeps_flush fun db db' h hrun => ?_
      obtain rfl := Except.ok.inj hrun
      exact fun k hk => h k (Table.mem_erase.1 hk).1
  | read c fault what =>
    exact onKeys_keeps (I := fun db => ∀ k ∈ db.apiKeys.rows, Q k.name)
      (keeps_beside keeps_query) hw
  | enrollByName c personName image =>
    exact withinEnrollLimit_db (I := fun db => ∀ k ∈ db.apiKeys.rows, Q k.name)
      (fun _ hw => hw) hw
  | createPerson | updatePerson | deletePerson | registerFace | replaceFaceImage | deleteFace
  | verifyFace | searchFaces | bulkImport | createUser => exact hw

end

theorem KeyNamed.mono {start : AppWorld} {past : List AppEvent} {name : String}
    (h : KeyNamed start past name) (e : AppEvent) : KeyNamed start (past ++ [e]) name := by
  rcases h with hstart | ⟨http, c, user, hcreated⟩
  · exact .inl hstart
  · exact .inr ⟨http, c, user, List.mem_append_left _ hcreated⟩

/-! ### The run -/

/-- The log and the keys after a past. -/
structure Told (start : AppWorld) (past : List AppEvent) (w : AppWorld) : Prop where
  ledger : Ledger start past w.db.logs.rows
  named : ∀ k ∈ w.db.apiKeys.rows, KeyNamed start past k.name

section
variable {cfg : AppSettings} {start w w' : AppWorld} {past : List AppEvent}

/-- An event that leaves the log and the keys alone. -/
theorem Told.silent (h : Told start past w) {e : AppEvent} (he : Api.silent e = true)
    (hlogs : w'.db.logs.rows = w.db.logs.rows) (hkeys : w'.db.apiKeys = w.db.apiKeys) :
    Told start (past ++ [e]) w' := by
  refine ⟨?_, ?_⟩
  · rw [hlogs]
    exact h.ledger.silent he
  · rw [hkeys]
    exact fun k hk => (h.named k hk).mono e

theorem silent_of_failed {op : AppOp} {answer : AppAnswer} (h : answer.failed = true) :
    silent (op, answer) = true := by
  cases op with
  | login | startup | createAdmin => rfl
  | request http route =>
    cases route <;> rcases answer with _ | _ | _ | ⟨_, _ | _⟩ | _ <;> first | rfl | cases h
  | external c http image key =>
    rcases answer with _ | _ | _ | _ | _ | _ <;> first | rfl | cases h

/-- A request that has returned. -/
theorem told_request (h : Told start past w) {http : Http} {route : Route} {user : TokenPayload}
    (hok : (handle cfg user http w route).2 = .ok ()) :
    Told start (past ++ [(.request http route, .served user (.ok ()))])
      (handle cfg user http w route).1 := by
  have hnamed : ∀ k ∈ (handle cfg user http w route).1.db.apiKeys.rows,
      KeyNamed start (past ++ [(.request http route, .served user (.ok ()))]) k.name := by
    refine names_handle (fun c name hroute => .inr ⟨http, c, user, ?_⟩) fun k hk =>
      (h.named k hk).mono _
    rw [hroute]
    exact List.mem_append_right _ (List.mem_singleton.2 rfl)
  refine ⟨?_, hnamed⟩
  obtain ⟨new, hrows, hnew⟩ := handle_appends cfg user http w route
  cases haction : route.action with
  | some action =>
    obtain ⟨l, hlog, hlaction⟩ := recognition_appends haction hok
    obtain rfl := List.append_cancel_left (hrows.symm.trans hlog)
    obtain ⟨op, hop, hrecords⟩ := hnew l (List.mem_singleton.2 rfl)
    have hsigned := signed_of_records haction hop hrecords
    rw [hlog]
    exact h.ledger.recognised (by rw [haction, hlaction]) hsigned.userId hsigned.clientIp
  | none =>
    cases hroute : route with
    | bulkImport env jobId rootPath =>
      subst hroute
      rw [hrows]
      refine h.ledger.imported fun l hl => ?_
      obtain ⟨op, hop, hrecords⟩ := hnew l hl
      cases hop
      cases hrecords
      assumption
    | _ =>
      rw [← hroute, handle_silent haction (by simp [hroute])]
      refine h.ledger.silent ?_
      subst hroute
      first | rfl | cases haction

/-- The request of a third party that has been identified. -/
theorem told_external (h : Told start past w) {c : KeyContext} {http : Http} {image : Upload}
    {key : Option String}
    (hended : ExternalEnded cfg c http image key w.db (.ok ()) w'.db) :
    Told start (past ++ [(.external c http image key, .identified (.ok ()))]) w' := by
  generalize hdb : w'.db = db at hended
  cases hended with
  | identified k hk hactive hhash a s hrun =>
    obtain ⟨new, hrows, hnew⟩ := externalSearch_keeps (I := Appended (keyService cfg http k).Signed
      w.db.logs.rows) hrun (fun l hl => appended_keptBy fun l' hl' => by
        obtain rfl := Statement.insertLog.inj hl'
        exact hl) (appended_refl _ _)
    obtain ⟨data, t, hread, hidentify⟩ := exec_bind_eq_ok.1 hrun
    obtain ⟨-, rfl⟩ := exec_lift_eq_ok.1 hread
    obtain ⟨result, best, l, -, -, htells, -, -, hwrote⟩ :=
      RecognitionService.identifyTop1_writes hidentify
    have hlog : s.work.logs.rows = w.db.logs.rows ++ [l] := by
      rw [hwrote.work]
      exact Table.rows_put_of_new hwrote.newLog
    obtain rfl := List.append_cancel_left (hrows.symm.trans hlog)
    have hsigned := hnew l (List.mem_singleton.2 rfl)
    constructor
    · rw [hdb]
      show Ledger start _ s.work.logs.rows
      rw [hlog]
      exact h.ledger.identified (h.named k hk) htells.action hsigned.userId hsigned.clientIp
    · intro k' hk'
      rw [hdb] at hk'
      rcases Table.mem_put.1 hk' with rfl | ⟨hk', -⟩
      · exact (h.named k hk).mono _
      · exact (h.named k' hk').mono _

theorem Told.step (h : Told start past w) (op : AppOp) :
    Told start (past ++ [(op, (serve cfg w op).2)]) (serve cfg w op).1 := by
  cases hfailed : (serve cfg w op).2.failed with
  | true =>
    obtain ⟨-, hdb⟩ := Prod.ext_iff.1 (serve_failed cfg w op hfailed)
    have hdb : (serve cfg w op).1.db = w.db := congrArg Prod.fst hdb
    exact h.silent (silent_of_failed hfailed) (by rw [hdb]) (by rw [hdb])
  | false =>
    cases op with
    | login c username password => exact h.silent rfl rfl rfl
    | createAdmin c username password => exact h.silent rfl rfl rfl
    | startup c username password =>
      rw [serve]
      split_ifs
      · exact h.silent rfl rfl rfl
      · exact h.silent rfl rfl rfl
    | request http route =>
      rw [serve] at hfailed ⊢
      generalize guard cfg.auth.toTokenSettings route.minimum http = admitted at hfailed ⊢
      cases admitted with
      | error refusal => cases hfailed
      | ok user =>
        cases hr : (handle cfg user http w route).2 with
        | error e => simp [hr, AppAnswer.failed] at hfailed
        | ok u =>
          simp only [hr]
          exact told_request h hr
    | external c http image key =>
      obtain ⟨r, hr, hended⟩ := external_ended cfg w c http image key
      rw [hr] at hfailed ⊢
      cases r with
      | error e => cases hfailed
      | ok u => exact told_external h hended

end

/-- **The log tells the run.** It is append-only; and in every run it gets, in the order of the
operations, a row for each recognition that has returned, under the name and the address of who has
asked, and the failures of the imports. -/
theorem ledger (cfg : AppSettings) (w : AppWorld) (ops : List AppOp) :
    Ledger w (outputs (serve cfg) w ops) (final (serve cfg) w ops).db.logs.rows :=
  (final_inv (J := Told w) (fun _ op _ h => h.step op)
    ⟨.start, fun k hk => .inl ⟨k, hk, rfl⟩⟩).ledger

end FaceRecognition.Api
