import FaceRecognition.Core.Strings
import FaceRecognition.Lib.Fallible
import FaceRecognition.Services.Auth

/-!
# The guards of the endpoints

`get_current_user` reads the bearer token of a request, and `require_role` asks for a minimum role.
A guard says yes to the subject and the role of the token and to nothing else (`guard_ok`), and a
token of `create_access_token` passes it until it expires (`guard_created`).
-/

namespace FaceRecognition.Api

open Db Services Security

/-- What a guard reads of a request, and when. -/
structure Http where
  /-- the header `Authorization` -/
  authorization : Option String
  /-- `request.client.host` -/
  client : Option String
  /-- `datetime.now(UTC)` -/
  utcNow : Time
  /-- `time.monotonic()` -/
  monotonic : ℚ

structure TokenPayload where
  sub : String
  role : Role
  deriving DecidableEq, Repr

/-- What a guard raises: the HTTP error of `OAuth2PasswordBearer`, the exceptions of
`get_current_user`, and the `AuthorizationError` of `require_role`. -/
inductive Refusal where
  | notAuthenticated
  | raised (exc : Exc)
  | authorizationError (message : String)
  deriving DecidableEq, Repr

/-- `header.partition(" ")`, without the separator -/
def partitionSpace (header : String) : String × String :=
  let cs := header.toList
  (String.ofList (cs.takeWhile (· ≠ ' ')), String.ofList ((cs.dropWhile (· ≠ ' ')).drop 1))

/-- `oauth2_scheme` -/
def oauth2Scheme (http : Http) : Except Refusal String :=
  let header := http.authorization.getD ""
  let (scheme, param) := partitionSpace header
  if header = "" ∨ lower scheme ≠ "bearer" then .error .notAuthenticated else .ok param

def malformedToken : Exc := ⟨.authenticationError, "Malformed token payload", []⟩

def notARole (value : String) : Exc := ⟨.valueError, "'" ++ value ++ "' is not a valid Role", []⟩

/-- `Role(role)`. Only strings are values of the enumeration. -/
def toRole : RoleClaim → Except Exc Role
  | .text s =>
    match Role.ofValue s with
    | some role => .ok role
    | none => .error (notARole s)
  | .other _ => .error (notARole "")

/-- `bool(role)` -/
def truthy : RoleClaim → Bool
  | .text s => s ≠ ""
  | .other b => b

section
variable (cfg : TokenSettings)

def getCurrentUser (http : Http) : Except Refusal TokenPayload := do
  let token ← oauth2Scheme http
  let payload ← (decodeAccessToken cfg token http.utcNow).mapError .raised
  match payload.sub, payload.role with
  | some sub, some role =>
    if sub = "" ∨ ¬ truthy role then .error (.raised malformedToken)
    else do
      let role ← (toRole role).mapError .raised
      return ⟨sub, role⟩
  | _, _ => .error (.raised malformedToken)

def requireRole (minimum : Role) (user : TokenPayload) : Except Refusal TokenPayload :=
  if user.role.satisfies minimum then .ok user
  else .error (.authorizationError ("Requires '" ++ minimum.value ++
    "' role or higher (you have '" ++ user.role.value ++ "')"))

/-- `Depends(require_role(minimum))` -/
def guard (minimum : Role) (http : Http) : Except Refusal TokenPayload := do
  let user ← getCurrentUser cfg http
  requireRole minimum user

end

/-! ### What passes a guard -/

section
variable {cfg : TokenSettings} {minimum : Role} {http : Http} {user : TokenPayload}

theorem requireRole_ok {user' : TokenPayload} (h : requireRole minimum user = .ok user') :
    user' = user ∧ user.role.satisfies minimum = true := by
  rw [requireRole] at h
  split_ifs at h with hrole
  exact ⟨(Except.ok.inj h).symm, hrole⟩

/-- The token that a request carries. -/
def Http.Bears (http : Http) (token : String) : Prop := oauth2Scheme http = .ok token

theorem mapError_ok {ε ε' α : Type} {r : Except ε α} {f : ε → ε'} {a : α} :
    r.mapError f = .ok a ↔ r = .ok a := by
  cases r <;> simp [Except.mapError]

/-- The subject and the role of the token, which is valid at the time. -/
theorem getCurrentUser_ok (h : getCurrentUser cfg http = .ok user) :
    ∃ token role, http.Bears token ∧
      cfg.jwt.decode token (timegm http.utcNow) = some ⟨some user.sub, some (.text role)⟩ ∧
      user.sub ≠ "" ∧ Role.ofValue role = some user.role := by
  obtain ⟨token, htoken, h⟩ := Fallible.bind_eq_ok.1 h
  obtain ⟨payload, hpayload, h⟩ := Fallible.bind_eq_ok.1 h
  rw [mapError_ok, decodeAccessToken] at hpayload
  obtain ⟨sub?, role?⟩ := payload
  cases hdecode : cfg.jwt.decode token (timegm http.utcNow) with
  | none =>
    rw [hdecode] at hpayload
    cases hpayload
  | some p =>
    rw [hdecode] at hpayload
    obtain rfl := Except.ok.inj hpayload
    cases sub? with
    | none => cases h
    | some sub =>
      cases role? with
      | none => cases h
      | some claim =>
        dsimp only at h
        split_ifs at h with hempty
        obtain ⟨role, hrole, h⟩ := Fallible.bind_eq_ok.1 h
        obtain rfl := Except.ok.inj h
        rw [mapError_ok] at hrole
        cases claim with
        | other b => cases hrole
        | text s =>
          refine ⟨token, s, htoken, hdecode, fun hsub => hempty (.inl hsub), ?_⟩
          rw [toRole] at hrole
          cases hvalue : Role.ofValue s with
          | none =>
            rw [hvalue] at hrole
            cases hrole
          | some r =>
            rw [hvalue] at hrole
            rw [Except.ok.inj hrole]

theorem guard_ok (h : guard cfg minimum http = .ok user) :
    getCurrentUser cfg http = .ok user ∧ user.role.satisfies minimum = true := by
  obtain ⟨user', huser, h⟩ := Fallible.bind_eq_ok.1 h
  obtain ⟨rfl, hrole⟩ := requireRole_ok h
  exact ⟨huser, hrole⟩

/-- A token of a login, until the last second of its lifetime. -/
theorem getCurrentUser_created (hjwt : cfg.jwt.Signs) {subject : String} {role : Role} {now : Time}
    (hbears : http.Bears (createAccessToken cfg subject role none now)) :
    getCurrentUser cfg http =
      if timegm http.utcNow ≤ timegm now + cfg.accessTokenExpireMinutes * 60 then
        if subject = "" then .error (.raised malformedToken) else .ok ⟨subject, role⟩
      else .error (.raised invalidToken) := by
  rw [getCurrentUser, hbears, Fallible.ok_bind, decodeAccessToken_create hjwt]
  split_ifs with htime hsubject
  · simp [Except.mapError, Fallible.ok_bind, hsubject]
  · simp [Except.mapError, Fallible.ok_bind, hsubject, truthy, toRole,
      Role.value_ne_empty]
  · rfl

end

end FaceRecognition.Api
