import FaceRecognition.Api.Accounts

/-!
# Where the rights of a request come from

A worker's run starts from an empty table of users. As long as no token is forged, a request is
admitted iff an earlier login has returned its token, to an account of the run with a role that is
high enough, and the token has not expired (`admitted_iff`). The account goes back to a chain of
admins that a bootstrap has begun (`vouched_of_served`): no request gains a role that was not given.
-/

namespace FaceRecognition.Api

open Machine Relational Recognition Db UnitOfWork Services Security

/-- No token is forged: one that is presented and decodes at any time was returned by a login. -/
def Unforged (cfg : AppSettings) (w : AppWorld) (ops : List AppOp) : Prop :=
  ∀ past http route answer future token now payload,
    outputs (serve cfg) w ops = past ++ (.request http route, answer) :: future →
      http.Bears token → cfg.auth.jwt.decode token now = some payload →
        ∃ c username password t, (.login c username password, .token (.ok t)) ∈ past ∧
          t.accessToken = token

/-! ### What the past says of the state -/

/-- The tokens of the past are those of its accounts. -/
def TokensOfAccounts (cfg : AppSettings) (past : List AppEvent) : Prop :=
  ∀ c username password t, (.login c username password, .token (.ok t)) ∈ past →
    ∃ a u, account past username = some a ∧ Stored cfg a u ∧ a.username = username ∧
      t = AuthService.tokenFor cfg.auth c u

structure Past (cfg : AppSettings) (past : List AppEvent) (w : AppWorld) : Prop where
  agrees : Agrees cfg past w.users
  tokens : TokensOfAccounts cfg past

theorem account_mono {past : List AppEvent} {username : String} {a : Account}
    (h : account past username = some a) (e : AppEvent) :
    account (past ++ [e]) username = some a := by
  rw [account_concat, h, Option.some_or]

/-- The account of a row. -/
theorem Agrees.account {cfg : AppSettings} {past : List AppEvent} {users : Users}
    {username : String} {u : User} (h : Agrees cfg past users)
    (hfind : findUser username users = some u) :
    ∃ a, Api.account past username = some a ∧ Stored cfg a u ∧ a.username = username := by
  have hrel := h username
  rw [hfind] at hrel
  cases hacc : Api.account past username with
  | none =>
    rw [hacc] at hrel
    cases hrel
  | some a =>
    rw [hacc] at hrel
    cases hrel with
    | some hstored => exact ⟨a, rfl, hstored, (account_eq_some hacc).1⟩

section
variable {cfg : AppSettings} {w : AppWorld} {past : List AppEvent}

theorem past_start (hw : w.users = Table.empty) : Past cfg [] w :=
  ⟨by rw [hw]; exact agrees_empty cfg, fun _ _ _ _ h => by cases h⟩

/-- A login that returns has found the row of an account. -/
theorem login_ok {c : UserContext} {username password : String} {t : Token}
    (h : (serve cfg w (.login c username password)).2 = .token (.ok t)) :
    ∃ u, findUser username w.users = some u ∧
      verifyPassword cfg.auth.passwords password u.hashedPassword = .ok true ∧
      t = AuthService.tokenFor cfg.auth c u := by
  have hended := ended_withUsers c w.users
    (AuthService.preserves_authenticate cfg.auth c username password)
  have hresult : (exec (withUsers c (AuthService.authenticate cfg.auth c username password))
      (Session.begin w.users)).1 = .ok t := AppAnswer.token.inj h
  rw [hresult] at hended
  generalize (exec (withUsers c (AuthService.authenticate cfg.auth c username password))
    (Session.begin w.users)).2.committed = users' at hended
  cases hended with
  | returned _ s hrun =>
    obtain ⟨u, hfind, hverify, -, ht, -⟩ := AuthService.authenticate_ok hrun
    exact ⟨u, hfind, hverify, ht⟩

theorem Past.step (h : Past cfg past w) (op : AppOp) :
    Past cfg (past ++ [(op, (serve cfg w op).2)]) (serve cfg w op).1 := by
  refine ⟨h.agrees.step (usersAfter_serve cfg w op), fun c username password t hlogin => ?_⟩
  rcases List.mem_append.1 hlogin with hlogin | hlogin
  · obtain ⟨a, u, hacc, hstored, hname, ht⟩ := h.tokens c username password t hlogin
    exact ⟨a, u, account_mono hacc _, hstored, hname, ht⟩
  · obtain ⟨rfl, hanswer⟩ := Prod.ext_iff.1 (List.mem_singleton.1 hlogin)
    obtain ⟨u, hfind, -, ht⟩ := login_ok hanswer.symm
    obtain ⟨a, hacc, hstored, hname⟩ := h.agrees.account hfind
    exact ⟨a, u, account_mono hacc _, hstored, hname, ht⟩

/-- The state in which an operation of the run was answered. -/
theorem past_of_outputs {ops : List AppOp} (hw : w.users = Table.empty) {op : AppOp}
    {answer : AppAnswer} {future : List AppEvent}
    (hrun : outputs (serve cfg) w ops = past ++ (op, answer) :: future) :
    ∃ w', Past cfg past w' ∧ answer = (serve cfg w' op).2 := by
  obtain ⟨w', -, hpast, hanswer⟩ := history_inv (J := fun past _ w => Past cfg past w)
    (fun _ op _ _ h => h.step op) (past_start hw) hrun
  exact ⟨w', hpast, hanswer⟩

/-! ### Admissions -/

theorem served_iff {http : Http} {route : Route} {user : TokenPayload} :
    (∃ r, (serve cfg w (.request http route)).2 = .served user r) ↔
      guard cfg.auth.toTokenSettings route.minimum http = .ok user := by
  rw [serve]
  cases guard cfg.auth.toTokenSettings route.minimum http with
  | error refusal => exact iff_of_false (by rintro ⟨_, h⟩; cases h) (by rintro h; cases h)
  | ok user' =>
    constructor
    · rintro ⟨r, h⟩
      cases h
      rfl
    · rintro h
      cases h
      exact ⟨_, rfl⟩

/-- The token of a login names the account, for as long as it says. -/
theorem getCurrentUser_issued (hjwt : cfg.auth.jwt.Signs) (h : Past cfg past w) {c : UserContext}
    {username password : String} {t : Token}
    (hlogin : (.login c username password, .token (.ok t)) ∈ past) {http : Http}
    (hbears : http.Bears t.accessToken) :
    ∃ a, account past username = some a ∧ getCurrentUser cfg.auth.toTokenSettings http =
      if timegm http.utcNow ≤ timegm c.utcNow + t.expiresIn then
        if username = "" then .error (.raised malformedToken) else .ok ⟨username, a.role⟩
      else .error (.raised invalidToken) := by
  obtain ⟨a, u, hacc, hstored, hname, rfl⟩ := h.tokens c username password t hlogin
  refine ⟨a, hacc, ?_⟩
  rw [getCurrentUser_created hjwt hbears, hstored.username, hstored.role, hname]
  rfl

/-- The login that an admitted request goes back to. -/
theorem issued_of_guard (hjwt : cfg.auth.jwt.Signs) (h : Past cfg past w) {http : Http}
    {minimum : Role} {user : TokenPayload}
    (hforged : ∀ token now payload, http.Bears token →
      cfg.auth.jwt.decode token now = some payload →
        ∃ c username password t, (.login c username password, .token (.ok t)) ∈ past ∧
          t.accessToken = token)
    (hguard : guard cfg.auth.toTokenSettings minimum http = .ok user) :
    user.role.satisfies minimum = true ∧ user.sub ≠ "" ∧
      (account past user.sub).map Account.role = some user.role ∧
        ∃ c password t, (.login c user.sub password, .token (.ok t)) ∈ past ∧
          http.Bears t.accessToken ∧ timegm http.utcNow ≤ timegm c.utcNow + t.expiresIn := by
  obtain ⟨huser, hrole⟩ := guard_ok hguard
  obtain ⟨token, role, hbears, hdecode, hsub, -⟩ := getCurrentUser_ok huser
  obtain ⟨c, username, password, t, hlogin, rfl⟩ := hforged token _ _ hbears hdecode
  obtain ⟨a, hacc, hcurrent⟩ := getCurrentUser_issued hjwt h hlogin hbears
  rw [huser] at hcurrent
  split_ifs at hcurrent with htime hempty
  obtain rfl := Except.ok.inj hcurrent
  exact ⟨hrole, hsub, by rw [hacc]; rfl, c, password, t, hlogin, hbears, htime⟩

end

/-- **A request is admitted iff its token was issued, for this role, and has not expired.** In every
run from an empty table of users. -/
theorem admitted_iff {cfg : AppSettings} (hjwt : cfg.auth.jwt.Signs) {w : AppWorld}
    (hw : w.users = Table.empty) {ops : List AppOp} (hunforged : Unforged cfg w ops)
    {past future : List AppEvent} {http : Http} {route : Route} {answer : AppAnswer}
    (hrun : outputs (serve cfg) w ops = past ++ (.request http route, answer) :: future)
    (user : TokenPayload) :
    (∃ r, answer = .served user r) ↔ user.role.satisfies route.minimum = true ∧ user.sub ≠ "" ∧
      (account past user.sub).map Account.role = some user.role ∧
        ∃ c password t, (.login c user.sub password, .token (.ok t)) ∈ past ∧
          http.Bears t.accessToken ∧ timegm http.utcNow ≤ timegm c.utcNow + t.expiresIn := by
  obtain ⟨w', hpast, rfl⟩ := past_of_outputs hw hrun
  rw [served_iff]
  constructor
  · exact issued_of_guard hjwt hpast fun token now payload =>
      hunforged past http route _ future token now payload hrun
  · rintro ⟨hrole, hsub, haccount, c, password, t, hlogin, hbears, htime⟩
    obtain ⟨a, hacc, hcurrent⟩ := getCurrentUser_issued hjwt hpast hlogin hbears
    rw [if_pos htime, if_neg hsub] at hcurrent
    have harole : a.role = user.role := by
      rw [hacc] at haccount
      exact Option.some.inj haccount
    rw [guard, hcurrent, harole, Fallible.ok_bind, requireRole, if_pos hrole]

/-! ### The chain of admins -/

/-- The username was given the role by a bootstrap, or by a user who was given that of an admin. -/
inductive Vouched : List AppEvent → String → Role → Prop
  | startup {past : List AppEvent} {c : UserContext} {username password : Option String}
    (h : (.startup c username password, .bootstrapped (.ok ())) ∈ past) :
    Vouched past (username.getD "") .admin
  | createAdmin {past : List AppEvent} {c : UserContext} {username password : String}
    (h : (.createAdmin c username password, .bootstrapped (.ok ())) ∈ past) :
    Vouched past username .admin
  | created {pre post : List AppEvent} {http : Http} {c : UserContext} {payload : UserCreate}
    {user : TokenPayload} (hadmin : Vouched pre user.sub .admin) :
    Vouched (pre ++ (.request http (.createUser c payload), .served user (.ok ())) :: post)
      payload.username payload.role

theorem satisfies_admin {role : Role} (h : role.satisfies .admin = true) : role = .admin := by
  cases role with
  | admin => rfl
  | operator => cases h
  | viewer => cases h

/-- An account is credited by a bootstrap, or by a request of the run. -/
theorem vouched_of_credited {pre post : List AppEvent} {e : AppEvent} {a : Account}
    (hcredited : credited e = some a)
    (hserved : ∀ http c payload user, e = (.request http (.createUser c payload),
      .served user (.ok ())) → Vouched pre user.sub .admin) :
    Vouched (pre ++ e :: post) a.username a.role := by
  have hmem : e ∈ pre ++ e :: post := by simp
  obtain ⟨op, answer⟩ := e
  cases op with
  | login c username password => cases hcredited
  | startup c username password =>
    cases answer with
    | bootstrapped r =>
      cases r with
      | error e => cases hcredited
      | ok u =>
        simp only [credited] at hcredited
        split_ifs at hcredited
        obtain rfl := Option.some.inj hcredited
        exact .startup hmem
    | token | refused | served | identified => cases hcredited
  | createAdmin c username password =>
    cases answer with
    | bootstrapped r =>
      cases r with
      | error e => cases hcredited
      | ok u =>
        obtain rfl := Option.some.inj hcredited
        exact .createAdmin hmem
    | token | refused | served | identified => cases hcredited
  | request http route =>
    cases route with
    | createUser c payload =>
      cases answer with
      | served user r =>
        cases r with
        | error e => cases hcredited
        | ok u =>
          obtain rfl := Option.some.inj hcredited
          exact .created (hserved http c payload user rfl)
      | token | refused | bootstrapped | identified => cases hcredited
    | _ => cases hcredited
  | external c http image key => cases hcredited

/-- **No request has a role that was not given.** In every run from an empty table of users, the
role of an admitted request goes back, admin by admin, to a bootstrap. -/
theorem vouched_of_served {cfg : AppSettings} (hjwt : cfg.auth.jwt.Signs) {w : AppWorld}
    (hw : w.users = Table.empty) {ops : List AppOp} (hunforged : Unforged cfg w ops)
    {past future : List AppEvent} {http : Http} {route : Route} {user : TokenPayload}
    {r : Except Exc Unit}
    (hrun : outputs (serve cfg) w ops = past ++ (.request http route, .served user r) :: future) :
    Vouched past user.sub user.role := by
  induction hn : past.length using Nat.strong_induction_on
    generalizing past http route user r future with
  | _ n ih =>
    obtain ⟨w', hpast, hanswer⟩ := past_of_outputs hw hrun
    obtain ⟨-, -, haccount, -⟩ := issued_of_guard hjwt hpast
      (fun token now payload => hunforged past http route _ future token now payload hrun)
      (served_iff.1 ⟨r, hanswer.symm⟩)
    obtain ⟨a, hacc, hrole⟩ := Option.map_eq_some_iff.1 haccount
    obtain ⟨hname, pre, e, post, hsplit, hcredited⟩ := account_eq_some hacc
    rw [hsplit, ← hname, ← hrole]
    refine vouched_of_credited hcredited fun http' c payload user' he => ?_
    -- the user who has created the account was admitted as an admin
    rw [hsplit, he, List.append_assoc, List.cons_append] at hrun
    obtain ⟨w'', hpre, hserved⟩ := past_of_outputs hw hrun
    have hguard := served_iff.1 ⟨_, hserved.symm⟩
    have hadmin := satisfies_admin (guard_ok hguard).2
    have hshort : pre.length < n := by
      rw [← hn, hsplit, List.length_append, List.length_cons]
      omega
    have hvouched := ih pre.length hshort hrun rfl
    rwa [hadmin] at hvouched

/-! ### Logins -/

/-- The calls of the session succeed. -/
structure Reliable (c : UserContext) : Prop where
  query : c.userFault .getByUsername = none
  commit : c.fault .commit = none
  rollback : c.fault .rollback = none

/-- **A login succeeds iff an account has a password with the same first 72 bytes.** In every
run from an empty table of users. -/
theorem login_iff {cfg : AppSettings} (hbcrypt : cfg.auth.passwords.Bcrypt) {w : AppWorld}
    (hw : w.users = Table.empty) {ops : List AppOp} {past future : List AppEvent} {c : UserContext}
    (hc : Reliable c) {username password : String} {answer : AppAnswer}
    (hrun : outputs (serve cfg) w ops = past ++ (.login c username password, answer) :: future) :
    (∃ t, answer = .token (.ok t)) ↔
      (account past username).map Account.password = some (truncateSecret password) := by
  obtain ⟨w', hpast, rfl⟩ := past_of_outputs hw hrun
  have hanswer : (serve cfg w' (.login c username password)).2 =
      .token (AuthService.verdict cfg.auth c password (findUser username w'.users)) :=
    congrArg AppAnswer.token (exec_login hc.query hc.commit hc.rollback username password)
  have hrel := hpast.agrees username
  rw [hanswer]
  generalize account past username = a? at hrel ⊢
  generalize findUser username w'.users = u? at hrel ⊢
  cases hrel with
  | none => exact iff_of_false (by rintro ⟨_, h⟩; cases h) (by rintro h; cases h)
  | @some a u hstored =>
    obtain ⟨salt, hhash⟩ := hstored.hash
    have hnul : 0 ∉ a.password := fun h0 => by
      obtain ⟨e, he⟩ := hbcrypt.hash_nul salt a.password h0
      cases hhash.symm.trans he
    rw [AuthService.verdict, verifyPassword, Option.map_some, Option.some.injEq]
    by_cases h0 : 0 ∈ truncateSecret password
    · obtain ⟨e, he⟩ := hbcrypt.verify_nul (truncateSecret password) u.hashedPassword h0
      rw [he]
      exact iff_of_false (by rintro ⟨_, h⟩; cases h) fun h => hnul (h ▸ h0)
    · rw [hbcrypt.verify_hash salt a.password u.hashedPassword _ hhash hstored.length
        (truncateSecret_length password) h0]
      by_cases hsame : truncateSecret password = a.password
      · simp [hsame, hstored.active]
      · simp [hsame, Ne.symm hsame]

/-! ### The first admin creates an operator -/

theorem reliable_userCall (id : UUID) (utcNow : Time) : Reliable (userCall id utcNow) :=
  ⟨rfl, rfl, rfl⟩

def rootToken : Token where
  accessToken := plainJwt.encode ⟨"root", "admin", 62⟩
  expiresIn := 60

def rootRequest : Http := ⟨some ("Bearer " ++ rootToken.accessToken), none, 60, 60⟩

def newUser (username password : String) (role : Role)
    (h : (3 ≤ username.length ∧ username.length ≤ 128) ∧
      8 ≤ password.length ∧ password.length ≤ 128) : UserCreate :=
  ⟨username, password, role, h.1, h.2⟩

def newOperator : UserCreate := newUser "clerk" "clerk's password" .operator (by decide)

def firstOps : List AppOp :=
  [.startup (userCall 1 0) (some "root") (some "root's password"),
    .login (userCall 0 2) "root" "root's password",
    .request rootRequest (.createUser (userCall 2 60) newOperator)]

def firstPast : List AppEvent :=
  [(.startup (userCall 1 0) (some "root") (some "root's password"), .bootstrapped (.ok ())),
    (.login (userCall 0 2) "root" "root's password", .token (.ok rootToken))]

def root : TokenPayload := ⟨"root", .admin⟩

theorem outputs_firstOps : outputs (serve plainApp) newWorker firstOps =
    firstPast ++ (.request rootRequest (.createUser (userCall 2 60) newOperator),
      .served root (.ok ())) :: [] := by
  have hanswers : (outputs (serve plainApp) newWorker firstOps).map Prod.snd =
      [.bootstrapped (.ok ()), .token (.ok rootToken), .served root (.ok ())] := by decide +kernel
  rw [outputs_eq_zip, hanswers]
  rfl

/-- The request bears the token of an earlier login. -/
theorem issued_by_login {past : List AppEvent} {http : Http} {token : String} {c : UserContext}
    {username password : String} {t : Token}
    (hlogin : (.login c username password, .token (.ok t)) ∈ past)
    (hscheme : oauth2Scheme http = .ok t.accessToken) (hbears : http.Bears token) :
    ∃ c username password t, (.login c username password, .token (.ok t)) ∈ past ∧
      t.accessToken = token :=
  ⟨c, username, password, t, hlogin, Except.ok.inj (hscheme.symm.trans hbears)⟩

theorem rootLogin_mem_firstPast :
    (.login (userCall 0 2) "root" "root's password", .token (.ok rootToken)) ∈ firstPast := by
  simp [firstPast]

theorem oauth2Scheme_rootRequest : oauth2Scheme rootRequest = .ok rootToken.accessToken := by
  decide +kernel

theorem unforged_firstOps : Unforged plainApp newWorker firstOps := by
  intro past http route answer future token now payload hrun hbears hdecode
  rw [outputs_firstOps, firstPast] at hrun
  rcases past with _ | ⟨e₁, _ | ⟨e₂, _ | ⟨e₃, past⟩⟩⟩
  · cases hrun
  · cases hrun
  · cases hrun
    exact issued_by_login rootLogin_mem_firstPast oauth2Scheme_rootRequest hbears
  · simp at hrun

theorem admitted_iff_root : (∃ r, AppAnswer.served root (.ok ()) = .served root r) ↔
    root.role.satisfies .admin = true ∧ root.sub ≠ "" ∧
      (account firstPast root.sub).map Account.role = some root.role ∧
        ∃ c password t, (.login c root.sub password, .token (.ok t)) ∈ firstPast ∧
          rootRequest.Bears t.accessToken ∧
            timegm rootRequest.utcNow ≤ timegm c.utcNow + t.expiresIn :=
  admitted_iff plainApp_signs newWorker_users unforged_firstOps outputs_firstOps root

def chiefToken : Token where
  accessToken := plainJwt.encode ⟨"chief", "admin", 122⟩
  expiresIn := 60

def chiefRequest : Http := ⟨some ("Bearer " ++ chiefToken.accessToken), none, 100, 100⟩

def newAdmin : UserCreate := newUser "chief" "chief's password" .admin (by decide)

/-- The first admin creates another one, who creates the operator. -/
def secondOps : List AppOp :=
  [.startup (userCall 1 0) (some "root") (some "root's password"),
    .login (userCall 0 2) "root" "root's password",
    .request rootRequest (.createUser (userCall 2 60) newAdmin),
    .login (userCall 0 62) "chief" "chief's password",
    .request chiefRequest (.createUser (userCall 3 100) newOperator)]

def secondPast : List AppEvent :=
  firstPast ++ [
    (.request rootRequest (.createUser (userCall 2 60) newAdmin), .served root (.ok ())),
    (.login (userCall 0 62) "chief" "chief's password", .token (.ok chiefToken))]

theorem outputs_secondOps : outputs (serve plainApp) newWorker secondOps =
    secondPast ++ (.request chiefRequest (.createUser (userCall 3 100) newOperator),
      .served ⟨"chief", .admin⟩ (.ok ())) :: [] := by
  have hanswers : (outputs (serve plainApp) newWorker secondOps).map Prod.snd =
      [.bootstrapped (.ok ()), .token (.ok rootToken), .served root (.ok ()),
        .token (.ok chiefToken), .served ⟨"chief", .admin⟩ (.ok ())] := by decide +kernel
  rw [outputs_eq_zip, hanswers]
  rfl

theorem unforged_secondOps : Unforged plainApp newWorker secondOps := by
  intro past http route answer future token now payload hrun hbears hdecode
  rw [outputs_secondOps, secondPast, firstPast] at hrun
  rcases past with _ | ⟨e₁, _ | ⟨e₂, _ | ⟨e₃, _ | ⟨e₄, _ | ⟨e₅, past⟩⟩⟩⟩⟩
  · cases hrun
  · cases hrun
  · cases hrun
    exact issued_by_login rootLogin_mem_firstPast oauth2Scheme_rootRequest hbears
  · cases hrun
  · cases hrun
    have hlogin : (.login (userCall 0 62) "chief" "chief's password", .token (.ok chiefToken)) ∈
        secondPast := by simp [secondPast]
    have hscheme : oauth2Scheme chiefRequest = .ok chiefToken.accessToken := by decide +kernel
    exact issued_by_login hlogin hscheme hbears
  · simp at hrun

theorem vouched_chief : Vouched secondPast "chief" .admin :=
  vouched_of_served plainApp_signs newWorker_users unforged_secondOps outputs_secondOps

def startedPast : List AppEvent :=
  [(.startup (userCall 1 0) (some "root") (some "root's password"), .bootstrapped (.ok ()))]

theorem outputs_login : outputs (serve plainApp) newWorker firstOps =
    startedPast ++ (.login (userCall 0 2) "root" "root's password", .token (.ok rootToken)) ::
      [(.request rootRequest (.createUser (userCall 2 60) newOperator), .served root (.ok ()))] :=
  outputs_firstOps

theorem login_root : (∃ t, AppAnswer.token (.ok rootToken) = .token (.ok t)) ↔
    (account startedPast "root").map Account.password =
      some (truncateSecret "root's password") :=
  login_iff plainApp_bcrypt newWorker_users (reliable_userCall 0 2) outputs_login

end FaceRecognition.Api
