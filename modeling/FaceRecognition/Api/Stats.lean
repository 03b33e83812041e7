import FaceRecognition.Core.Numbers
import FaceRecognition.Db.Listing
import FaceRecognition.Lib.Client

/-!
# The match rate

`GET /stats` counts the log rows and then the successful ones, in statements of their own: under
READ COMMITTED, each sees what is committed when it starts. Rows that are committed between the two
are counted as successes and not as events. The response has at most as many successes as events,
and a rate in [0, 1], iff the successful rows committed between the two counts are at most as many
as the unsuccessful ones at the first (`match_rate_iff`).
-/

namespace FaceRecognition.Db

namespace RecognitionLogRepository

def count (db : Database) : ℕ := db.logs.rows.length

def successCount (db : Database) : ℕ := db.logs.rows.countP fun l => l.success

/-- The rows that are not successful. -/
def failureCount (db : Database) : ℕ := db.logs.rows.countP fun l => !l.success

theorem count_eq (db : Database) : count db = successCount db + failureCount db := by
  rw [count, List.length_eq_countP_add_countP fun l => l.success]
  simp [successCount, failureCount]

end RecognitionLogRepository
end FaceRecognition.Db

namespace FaceRecognition.Api.Stats

open Relational Db Client

structure StatsResponse where
  totalPersons : ℕ
  totalFaces : ℕ
  totalEvents : ℕ
  successfulEvents : ℕ
  /-- successful / total events, in [0, 1] -/
  matchRate : ℚ
  deriving DecidableEq, Repr

/-- The exact quotient is rounded; the code rounds the nearest float to it. -/
def statsResponse (persons faces totalEvents successful : ℕ) : StatsResponse where
  totalPersons := persons
  totalFaces := faces
  totalEvents := totalEvents
  successfulEvents := successful
  matchRate := if totalEvents = 0 then 0 else roundDigits 4 (successful / totalEvents)

/-- What the response promises. -/
def IsRate (r : StatsResponse) : Prop :=
  r.successfulEvents ≤ r.totalEvents ∧ 0 ≤ r.matchRate ∧ r.matchRate ≤ 1

instance (r : StatsResponse) : Decidable (IsRate r) := inferInstanceAs (Decidable (_ ∧ _))

theorem isRate_iff (persons faces totalEvents successful : ℕ) :
    IsRate (statsResponse persons faces totalEvents successful) ↔ successful ≤ totalEvents := by
  refine ⟨fun h => h.1, fun h => ⟨h, ?_⟩⟩
  simp only [statsResponse]
  split_ifs with hzero
  · norm_num
  · have hpos : (0 : ℚ) < totalEvents := by exact_mod_cast Nat.pos_of_ne_zero hzero
    refine roundDigits_unit 4 (by positivity) ?_
    rw [div_le_one hpos]
    exact_mod_cast h

/-! ### The requests and the commits -/

/-- The statements of `get_stats`. -/
inductive Count where
  | persons
  | faces
  | events
  | successes
  deriving DecidableEq, Repr

def count (db : Database) : Count → ℕ
  | .persons => PersonRepository.count db
  | .faces => FaceRepository.count none db
  | .events => RecognitionLogRepository.count db
  | .successes => RecognitionLogRepository.successCount db

abbrev StatsProg := Prog Count fun _ => ℕ

def getStats : StatsProg StatsResponse := do
  let persons ← Prog.request .persons
  let faces ← Prog.request .faces
  let totalEvents ← Prog.request .events
  let successful ← Prog.request .successes
  return statsResponse persons faces totalEvents successful

/-- The writes of a transaction, of which those to `recognition_logs` insert rows. -/
def insertsLogs : Database → List Write → Bool
  | _, [] => true
  | db, .putLog l :: ws => (db.logs.get? l.id).isNone && insertsLogs (apply db (.putLog l)) ws
  | db, w :: ws => insertsLogs (apply db w) ws

def commit (db : Database) (ws : List Write) : Option Database :=
  if insertsLogs db ws then some (applyAll db ws) else none

def isSuccess : Write → Bool
  | .putLog l => l.success
  | _ => false

/-- The successful rows that a transaction inserts. -/
def successes (ws : List Write) : ℕ := ws.countP isSuccess

theorem successCount_apply {db : Database} {w : Write}
    (h : ∀ l, w = .putLog l → db.logs.get? l.id = none) :
    RecognitionLogRepository.successCount (apply db w) =
      RecognitionLogRepository.successCount db + if isSuccess w then 1 else 0 := by
  cases w with
  | putLog l =>
    have hrows : (db.logs.put l).rows = db.logs.rows ++ [l] := Table.rows_put_of_new (h l rfl)
    show (db.logs.put l).rows.countP _ = _
    rw [hrows, List.countP_append, List.countP_singleton]
    rfl
  | putPerson p => rfl
  | dropPerson id => rfl
  | putFace f => rfl
  | dropFace id => rfl

theorem successCount_commit {db db' : Database} {ws : List Write} (h : commit db ws = some db') :
    RecognitionLogRepository.successCount db' =
      RecognitionLogRepository.successCount db + successes ws := by
  rw [commit] at h
  split_ifs at h with hinserts
  obtain rfl := Option.some.inj h
  clear h
  induction ws generalizing db with
  | nil => rfl
  | cons w ws ih =>
    have hw : (∀ l, w = .putLog l → db.logs.get? l.id = none) ∧ insertsLogs (apply db w) ws := by
      cases w <;> simp_all [insertsLogs]
    rw [applyAll_cons, ih hw.2, successCount_apply hw.1, successes, successes, List.countP_cons]
    omega

section
variable {ι : Type} [DecidableEq ι]

abbrev StatsWorld (ι : Type) := World Database ι Count (fun _ => ℕ) StatsResponse

/-- A request takes its next statement, or a transaction commits its writes. -/
abbrev StatsEvent (ι : Type) := Event ι Unit (List Write)

def statsStep (w : StatsWorld ι) (e : StatsEvent ι) : Option (StatsWorld ι) :=
  Client.step (fun _ db c => (db, count db c)) commit w e

omit [DecidableEq ι] in
/-- Any number of requests. -/
def statsStart (db : Database) : StatsWorld ι := ⟨db, fun _ => getStats⟩

/-! ### Between the two counts -/

def next : StatsProg StatsResponse → Option Count
  | .call c _ => some c
  | .pure _ => none

/-- The unsuccessful rows when the request counts the events. -/
def failuresAt (i : ι) (e : StatsWorld ι × StatsEvent ι) : Option ℕ :=
  match e.2 with
  | .act j _ =>
    if j = i ∧ next (e.1.client i) = some .events then
      some (RecognitionLogRepository.failureCount e.1.server)
    else none
  | .env _ => none

/-- The successful rows committed when the request has counted the events and not the successes. -/
def successesBetween (i : ι) (e : StatsWorld ι × StatsEvent ι) : ℕ :=
  match e.2 with
  | .act _ _ => 0
  | .env ws => if next (e.1.client i) = some .successes then successes ws else 0

/-- Between the two counts of the request, no more successful rows are committed than there were
unsuccessful ones at the first. -/
def FewSuccesses (i : ι) (tr : List (StatsWorld ι × StatsEvent ι)) : Prop :=
  ∀ u ∈ tr.filterMap (failuresAt i), (tr.map (successesBetween i)).sum ≤ u

/-- What the run so far has been for the request, by what is left of its program. -/
inductive Stage (i : ι) (tr : List (StatsWorld ι × StatsEvent ι)) (db : Database) :
    StatsProg StatsResponse → Prop
  | persons (hu : tr.filterMap (failuresAt i) = []) (hb : (tr.map (successesBetween i)).sum = 0) :
    Stage i tr db getStats
  | faces {persons : ℕ} (hu : tr.filterMap (failuresAt i) = [])
    (hb : (tr.map (successesBetween i)).sum = 0) :
    Stage i tr db (.call .faces fun faces => .call .events fun total => .call .successes fun s =>
      .pure (statsResponse persons faces total s))
  | events {persons faces : ℕ} (hu : tr.filterMap (failuresAt i) = [])
    (hb : (tr.map (successesBetween i)).sum = 0) :
    Stage i tr db (.call .events fun total => .call .successes fun s =>
      .pure (statsResponse persons faces total s))
  | successes {persons faces total u : ℕ} (hu : tr.filterMap (failuresAt i) = [u])
    (hb : RecognitionLogRepository.successCount db + u =
      total + (tr.map (successesBetween i)).sum) :
    Stage i tr db (.call .successes fun s => .pure (statsResponse persons faces total s))
  | done {persons faces total s u : ℕ} (hu : tr.filterMap (failuresAt i) = [u])
    (hb : s + u = total + (tr.map (successesBetween i)).sum) :
    Stage i tr db (.pure (statsResponse persons faces total s))

omit [DecidableEq ι] in
theorem sum_concat {α : Type} (f : α → ℕ) (tr : List α) (e : α) :
    ((tr ++ [e]).map f).sum = (tr.map f).sum + f e := by simp

section stages
variable {i : ι} {tr : List (StatsWorld ι × StatsEvent ι)} {w w' : StatsWorld ι}
  {e : StatsEvent ι}

/-- An event that neither counts for the request nor commits between its counts. -/
theorem Stage.skip {p : StatsProg StatsResponse} (h : Stage i tr w.server p)
    (hu : failuresAt i (w, e) = none) (hb : successesBetween i (w, e) = 0) :
    Stage i (tr ++ [(w, e)]) w.server p := by
  have hu' : (tr ++ [(w, e)]).filterMap (failuresAt i) = tr.filterMap (failuresAt i) := by
    rw [List.filterMap_append, List.filterMap_cons_none hu, List.filterMap_nil, List.append_nil]
  have hb' : ((tr ++ [(w, e)]).map (successesBetween i)).sum =
      (tr.map (successesBetween i)).sum := by rw [sum_concat, hb, add_zero]
  cases h with
  | persons hu hb => exact .persons (hu'.trans hu) (hb'.trans hb)
  | faces hu hb => exact .faces (hu'.trans hu) (hb'.trans hb)
  | events hu hb => exact .events (hu'.trans hu) (hb'.trans hb)
  | successes hu hb => exact .successes (hu'.trans hu) (by rw [hb', hb])
  | done hu hb => exact .done (hu'.trans hu) (by rw [hb', hb])

/-- The request takes its next statement. -/
theorem Stage.act {c : Count} {k : ℕ → StatsProg StatsResponse}
    (h : Stage i tr w.server (w.client i)) (hp : w.client i = .call c k) (m : Unit) :
    Stage i (tr ++ [(w, .act i m)]) w.server (k (count w.server c)) := by
  have hu : (tr ++ [(w, Event.act i m)]).filterMap (failuresAt i) = tr.filterMap (failuresAt i) ++
      if c = .events then [RecognitionLogRepository.failureCount w.server] else [] := by
    rw [List.filterMap_append]
    by_cases hc : c = .events <;> simp [failuresAt, next, hp, hc]
  have hb : ((tr ++ [(w, Event.act i m)]).map (successesBetween i)).sum =
      (tr.map (successesBetween i)).sum := sum_concat _ _ _
  rw [hp] at h
  generalize hstage : (Prog.call c k : StatsProg StatsResponse) = p at h
  cases h with
  | persons hu₀ hb₀ =>
    cases hstage
    rw [hu₀] at hu
    exact .faces hu (hb.trans hb₀)
  | faces hu₀ hb₀ =>
    cases hstage
    rw [hu₀] at hu
    exact .events hu (hb.trans hb₀)
  | events hu₀ hb₀ =>
    cases hstage
    rw [hu₀, if_pos rfl, List.nil_append] at hu
    refine .successes hu ?_
    rw [hb, hb₀]
    exact (RecognitionLogRepository.count_eq w.server).symm
  | successes hu₀ hb₀ =>
    cases hstage
    rw [hu₀, if_neg (by decide), List.append_nil] at hu
    refine .done hu ?_
    rw [hb]
    exact hb₀
  | done => cases hstage

/-- A transaction commits. -/
theorem Stage.commit {ws : List Write} (h : Stage i tr w.server (w.client i)) {db : Database}
    (hcommit : Stats.commit w.server ws = some db) :
    Stage i (tr ++ [(w, .env ws)]) db (w.client i) := by
  have hu : (tr ++ [(w, Event.env ws)]).filterMap (failuresAt i) = tr.filterMap (failuresAt i) := by
    simp [failuresAt]
  have hb : ((tr ++ [(w, Event.env ws)]).map (successesBetween i)).sum =
      (tr.map (successesBetween i)).sum +
        if next (w.client i) = some .successes then Stats.successes ws else 0 := sum_concat _ _ _
  generalize w.client i = p at h hb ⊢
  cases h with
  | persons hu₀ hb₀ => exact .persons (hu.trans hu₀) (hb.trans hb₀)
  | faces hu₀ hb₀ => exact .faces (hu.trans hu₀) (hb.trans hb₀)
  | events hu₀ hb₀ => exact .events (hu.trans hu₀) (hb.trans hb₀)
  | successes hu₀ hb₀ =>
    refine .successes (hu.trans hu₀) ?_
    rw [next, if_pos rfl] at hb
    rw [hb, successCount_commit hcommit]
    omega
  | done hu₀ hb₀ => exact .done (hu.trans hu₀) (hb ▸ hb₀)

theorem stage_step (h : ∀ i, Stage i tr w.server (w.client i)) (hstep : statsStep w e = some w')
    (i : ι) : Stage i (tr ++ [(w, e)]) w'.server (w'.client i) := by
  rcases step_cases hstep with ⟨j, m, c, k, rfl, hp, hs, hc⟩ | ⟨ws, rfl, hcommit, hc⟩
  · rw [hs, hc]
    by_cases hj : i = j
    · subst hj
      rw [Function.update_self]
      exact (h i).act hp m
    · rw [Function.update_of_ne hj]
      exact (h i).skip (if_neg fun hji => hj hji.1.symm) rfl
  · rw [hc]
    exact (h i).commit hcommit

end stages

/-- **The match rate is a rate** iff, between the two counts of the request, no more successful rows
are committed than there were unsuccessful ones at the first. -/
theorem match_rate_iff (db : Database) (es : List (StatsEvent ι)) {w : StatsWorld ι}
    (hrun : Run.exec statsStep (statsStart db) es = some w) {i : ι} {r : StatsResponse}
    (hr : w.client i = .pure r) :
    IsRate r ↔ FewSuccesses i (Run.trace statsStep (statsStart db) es) := by
  have hstage : ∀ i, Stage i (Run.trace statsStep (statsStart db) es) w.server (w.client i) :=
    Run.trace_inv (J := fun tr w => ∀ i, Stage i tr w.server (w.client i))
      (fun _ _ _ _ h hstep => stage_step h hstep) (fun _ => .persons rfl rfl) hrun
  have hdone := hstage i
  rw [hr] at hdone
  generalize hp : (Prog.pure r : StatsProg StatsResponse) = p at hdone
  cases hdone with
  | done hu hb =>
    cases hp
    rw [isRate_iff, FewSuccesses, hu, List.forall_mem_singleton]
    omega
  | persons => cases hp
  | faces => cases hp
  | events => cases hp
  | successes => cases hp

end

def verification (id : UUID) (success : Bool) : RecognitionLog :=
  ⟨id, .verify, none, none, none, success, none, none, none, 0, 0⟩

/-- One event, which is successful or not. -/
def oneEvent (success : Bool) : Database :=
  { Database.empty with logs := Table.empty.put (verification 1 success) }

/-- A successful verification is committed between the two counts. -/
def countedAround : List (StatsEvent Unit) :=
  [.act () (), .act () (), .act () (), .env [.putLog (verification 2 true)], .act () ()]

def countedWorld (success : Bool) (r : StatsResponse) : StatsWorld Unit :=
  ⟨applyAll (oneEvent success) [.putLog (verification 2 true)], fun _ => .pure r⟩

theorem match_rate_after_failure : IsRate (statsResponse 0 0 1 1) ↔
    FewSuccesses () (Run.trace statsStep (statsStart (oneEvent false)) countedAround) :=
  match_rate_iff (oneEvent false) countedAround
    (w := countedWorld false (statsResponse 0 0 1 1)) rfl rfl

/-- One event has been counted, and two successes. -/
theorem match_rate_two : ∃ w r, Run.exec statsStep (statsStart (oneEvent true)) countedAround = some w ∧
    w.client () = .pure r ∧ r.totalEvents = 1 ∧ r.successfulEvents = 2 ∧ r.matchRate = 2 ∧
      ¬ IsRate r :=
  ⟨_, statsResponse 0 0 1 2, rfl, rfl, rfl, rfl, by decide +kernel, by decide +kernel⟩

end FaceRecognition.Api.Stats
