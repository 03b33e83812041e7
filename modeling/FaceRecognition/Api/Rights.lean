import FaceRecognition.Api.Effects
import FaceRecognition.Api.Provenance

/-!
# What a role may change

Persons and faces are for operators and admins; users, keys and jobs for admins only. A guard stands
before every endpoint that writes to them, so in a run whose users all have lower roles these tables
are at the end what they were at the start (`within_rights`). The requests of third parties and the
log do not count: a request with a key changes nothing of a key but when it was used.
-/

namespace FaceRecognition.Api

open Machine Relational Db UnitOfWork Services RateLimit Security

/-- A key without what its use changes. -/
def permanent (k : ApiKey) : ApiKey := { k with lastUsedAt := none, updatedAt := k.createdAt }

/-- What operators may change. -/
def AppWorld.gallery (w : AppWorld) : Table Person × Table Face := (w.db.persons, w.db.faces)

/-- What only admins may change. -/
def AppWorld.administration (w : AppWorld) : Users × List ApiKey × InProcessJobStore :=
  (w.users, w.db.apiKeys.rows.map permanent, w.jobs)

section
variable {cfg : AppSettings} {user : TokenPayload} {http : Http} {w : AppWorld}

/-! ### The gallery -/

theorem keptBy_gallery_insertLog (persons : Table Person) (faces : Table Face)
    (l : RecognitionLog) :
    KeptBy (fun db => db.persons = persons ∧ db.faces = faces) (.insertLog l) := by
  intro db ws h hrun
  obtain rfl := insertLog_ok hrun
  exact h

/-- Who sends a statement, besides those for the log, has passed the guard for operators. -/
theorem operator_of_sends {route : Route} {op : Op} {q : Statement}
    (hop : route.op cfg user http = some op) (hq : Sends op q) :
    route.minimum.satisfies .operator = true := by
  cases route <;> cases hop <;> first | rfl | cases hq

theorem gallery_handle {route : Route} (h : route.minimum.satisfies .operator = false) :
    (handle cfg user http w route).1.gallery = w.gallery := by
  have hkept := handle_keeps cfg user http w route
    (I := fun db => db.persons = w.db.persons ∧ db.faces = w.db.faces)
    (fun op hop => ⟨fun l _ => keptBy_gallery_insertLog _ _ l, fun q hq => by
      rw [operator_of_sends hop hq] at h
      cases h⟩) ⟨rfl, rfl⟩
  exact Prod.ext hkept.1 hkept.2

/-- No operator has been served. -/
theorem gallery_serve {op : AppOp}
    (h : ∀ user r, (serve cfg w op).2 = .served user r → user.role.satisfies .operator = false) :
    (serve cfg w op).1.gallery = w.gallery := by
  cases op with
  | login c username password => rfl
  | startup c username password =>
    rw [serve]
    split_ifs <;> rfl
  | createAdmin c username password => rfl
  | request http route =>
    rw [serve] at h ⊢
    cases hguard : guard cfg.auth.toTokenSettings route.minimum http with
    | error refusal => rfl
    | ok user =>
      rw [hguard] at h
      have hrole := h user _ rfl
      refine gallery_handle ?_
      by_contra hoperator
      rw [Bool.not_eq_false] at hoperator
      rw [Role.satisfies_trans (guard_ok hguard).2 hoperator] at hrole
      cases hrole
  | external c http image key =>
    obtain ⟨r, -, hended⟩ := external_ended cfg w c http image key
    have hkept := external_keeps (I := fun db => db.persons = w.db.persons ∧ db.faces = w.db.faces)
      hended (keptBy_gallery_insertLog _ _) ⟨rfl, rfl⟩
    exact Prod.ext hkept.1 hkept.2

/-! ### The administration -/

theorem administration_eq {w' : AppWorld} (husers : w'.users = w.users)
    (hkeys : w'.db.apiKeys.rows.map permanent = w.db.apiKeys.rows.map permanent)
    (hjobs : w'.jobs = w.jobs) : w'.administration = w.administration := by
  rw [AppWorld.administration, husers, hkeys, hjobs]
  rfl

theorem keys_read {c : Context} {fault : Option Exc} {what : Reading} :
    (handle cfg user http w (.read c fault what)).1.db.apiKeys = w.db.apiKeys :=
  onKeys_keeps (I := fun db => db.apiKeys = w.db.apiKeys) (keeps_beside keeps_query) rfl

theorem administration_withinEnrollLimit {handler : AppWorld → AppWorld × Except Exc Unit}
    (h : ∀ w, (handler w).1.administration = w.administration) :
    (withinEnrollLimit cfg http handler w).1.administration = w.administration := by
  rw [withinEnrollLimit]
  split_ifs
  · exact h _
  · rfl

theorem administration_handle {route : Route} (h : route.minimum.satisfies .admin = false) :
    (handle cfg user http w route).1.administration = w.administration := by
  cases route with
  | read c fault what => exact administration_eq rfl (by rw [keys_read]) rfl
  | enrollByName c personName image => exact administration_withinEnrollLimit fun _ => rfl
  | bulkImport | createKey | revokeKey | createUser => cases h
  | createPerson | updatePerson | deletePerson | registerFace | replaceFaceImage | deleteFace
  | verifyFace | searchFaces => rfl

theorem keys_external {c : KeyContext} {image : Upload} {key : Option String} :
    (serve cfg w (.external c http image key)).1.db.apiKeys.rows.map permanent =
      w.db.apiKeys.rows.map permanent := by
  obtain ⟨r, -, hended⟩ := external_ended cfg w c http image key
  generalize (serve cfg w (.external c http image key)).1.db = db at hended ⊢
  cases hended with
  | failed e => rfl
  | identified k hk _ _ a s hrun => exact Table.map_put_of_mem permanent hk rfl rfl

/-- Neither has an admin been served nor an admin been bootstrapped. -/
theorem administration_serve {op : AppOp}
    (h : ∀ user r, (serve cfg w op).2 = .served user r → user.role.satisfies .admin = false)
    (hbootstrap : ∀ r, (serve cfg w op).2 ≠ .bootstrapped r) :
    (serve cfg w op).1.administration = w.administration := by
  cases op with
  | login c username password =>
    refine administration_eq ?_ rfl rfl
    have hafter := usersAfter_serve cfg w (.login c username password)
    generalize (serve cfg w (.login c username password)).1.users = users at hafter ⊢
    cases hafter with
    | kept => rfl
    | found => rfl
    | added a hcredited => cases hcredited
  | startup c username password =>
    rw [serve] at hbootstrap
    split_ifs at hbootstrap
    · exact absurd rfl (hbootstrap _)
    · exact absurd rfl (hbootstrap _)
  | createAdmin c username password => exact absurd rfl (hbootstrap _)
  | request http route =>
    rw [serve] at h ⊢
    cases hguard : guard cfg.auth.toTokenSettings route.minimum http with
    | error refusal => rfl
    | ok user =>
      rw [hguard] at h
      have hrole := h user _ rfl
      refine administration_handle ?_
      by_contra hadmin
      rw [Bool.not_eq_false] at hadmin
      rw [Role.satisfies_trans (guard_ok hguard).2 hadmin] at hrole
      cases hrole
  | external c http image key => exact administration_eq rfl keys_external rfl

end

/-- **No user changes what a higher role is for.** In every run whose requests are served to users
of no more than a role. -/
theorem within_rights {cfg : AppSettings} {w : AppWorld} {ops : List AppOp} {role : Role}
    (hroles : ∀ op user r, (op, .served user r) ∈ outputs (serve cfg) w ops →
      role.satisfies user.role = true) :
    (role.satisfies .operator = false → (final (serve cfg) w ops).gallery = w.gallery) ∧
      (role.satisfies .admin = false →
        (∀ op r, (op, .bootstrapped r) ∉ outputs (serve cfg) w ops) →
          (final (serve cfg) w ops).administration = w.administration) := by
  have hlower : ∀ minimum, role.satisfies minimum = false → ∀ op user r,
      (op, .served user r) ∈ outputs (serve cfg) w ops → user.role.satisfies minimum = false := by
    intro minimum h op user r hserved
    by_contra hrole
    rw [Bool.not_eq_false] at hrole
    rw [Role.satisfies_trans (hroles op user r hserved) hrole] at h
    cases h
  constructor
  · intro h
    refine (final_rel (R := fun w w' => AppWorld.gallery w' = w.gallery)
      (C := fun e => ∀ user r, e.2 = .served user r → user.role.satisfies .operator = false)
      (fun _ => rfl) (fun _ _ _ hst htu => htu.trans hst) (fun w op hop => gallery_serve hop)
      fun e he user r hserved => ?_)
    exact hlower .operator h e.1 user r (hserved ▸ he)
  · intro h hbootstrap
    refine (final_rel (R := fun w w' => AppWorld.administration w' = w.administration)
      (C := fun e => (∀ user r, e.2 = .served user r → user.role.satisfies .admin = false) ∧
        ∀ r, e.2 ≠ .bootstrapped r)
      (fun _ => rfl) (fun _ _ _ hst htu => htu.trans hst)
      (fun w op hop => administration_serve hop.1 hop.2) fun e he => ⟨fun user r hserved => ?_,
        fun r hanswer => ?_⟩)
    · exact hlower .admin h e.1 user r (hserved ▸ he)
    · exact hbootstrap e.1 r (hanswer ▸ he)

/-! ### The operator asks for too much -/

def staffed : AppWorld := final (serve plainApp) newWorker firstOps

def clerkToken : Token where
  accessToken := plainJwt.encode ⟨"clerk", "operator", 124⟩
  expiresIn := 60

def clerkRequest : Http := ⟨some ("Bearer " ++ clerkToken.accessToken), none, 70, 70⟩

def clerk : TokenPayload := ⟨"clerk", .operator⟩

/-- The operator logs in, tries to create an admin and deletes a person. -/
def clerkOps : List AppOp :=
  [.login (userCall 0 64) "clerk" "clerk's password",
    .request clerkRequest (.createUser (userCall 3 70)
      ⟨"mallory", "mallory's own", .admin, by decide, by decide⟩),
    .request clerkRequest (.deletePerson atNoon 1)]

def clerkAnswers : List AppAnswer :=
  [.token (.ok clerkToken),
    .refused (.authorizationError "Requires 'admin' role or higher (you have 'operator')"),
    .served clerk (.error (RecognitionService.personNotFound 1))]

theorem outputs_clerkOps :
    outputs (serve plainApp) staffed clerkOps = clerkOps.zip clerkAnswers := by
  have hanswers : (outputs (serve plainApp) staffed clerkOps).map Prod.snd = clerkAnswers := by
    decide +kernel
  rw [outputs_eq_zip, hanswers]

theorem within_rights_clerk :
    (final (serve plainApp) staffed clerkOps).administration = staffed.administration := by
  refine (@within_rights plainApp staffed clerkOps .operator
    fun op user r hserved => ?_).2 rfl fun op r hanswer => ?_
  · rw [outputs_clerkOps] at hserved
    simp only [clerkOps, clerkAnswers, List.zip_cons_cons, List.zip_nil_right, List.mem_cons,
      Prod.mk.injEq, AppAnswer.served.injEq, reduceCtorEq, and_false, false_or,
      List.not_mem_nil, or_false] at hserved
    obtain ⟨-, rfl, -⟩ := hserved
    rfl
  · rw [outputs_clerkOps] at hanswer
    simp [clerkOps, clerkAnswers] at hanswer

end FaceRecognition.Api
