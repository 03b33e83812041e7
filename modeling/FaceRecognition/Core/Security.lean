import Mathlib.Data.Rat.Floor
import FaceRecognition.Core.Exceptions
import FaceRecognition.Db.Schema

/-!
# Passwords, tokens and roles

`app/core/security.py`. The two libraries it calls are parameters: a password context, of which
`Bcrypt` says what bcrypt documents, and the encoder of tokens, of which `Signs` says what a token
decodes to. Passwords are cut after 72 bytes, and a token is accepted until the last whole second of
its time.
-/

namespace FaceRecognition.Security

open Db Recognition

/-! ### Roles -/

inductive Role where
  | admin
  | operator
  | viewer
  deriving DecidableEq, Repr

namespace Role

/-- The value of the enumeration. -/
def value : Role → String
  | admin => "admin"
  | operator => "operator"
  | viewer => "viewer"

def level : Role → ℕ
  | viewer => 1
  | operator => 2
  | admin => 3

/-- This role meets or exceeds the required privilege level. -/
def satisfies (role required : Role) : Bool := required.level ≤ role.level

/-- `Role(value)`, `none` where it raises. -/
def ofValue (value : String) : Option Role :=
  [admin, operator, viewer].find? fun role => role.value = value

@[simp] theorem ofValue_value (role : Role) : ofValue role.value = some role := by
  cases role <;> decide

theorem value_ne_empty (role : Role) : role.value ≠ "" := by
  cases role <;> decide

theorem satisfies_trans {a b c : Role} (hab : a.satisfies b = true) (hbc : b.satisfies c = true) :
    a.satisfies c = true := by
  simp only [satisfies, decide_eq_true_eq] at *
  exact hbc.trans hab

end Role

/-! ### Passwords -/

/-- `s.encode("utf-8")` -/
def encodeUtf8 (s : String) : Bytes := s.toList.flatMap String.utf8EncodeChar

/-- `_BCRYPT_MAX_BYTES` -/
def bcryptMaxBytes : ℕ := 72

/-- `_truncate` -/
def truncateSecret (secret : String) : Bytes := (encodeUtf8 secret).take bcryptMaxBytes

/-- `CryptContext(schemes=["bcrypt"])`. `hash` draws its salt. -/
structure CryptContext where
  hash : (salt : ℕ) → Bytes → Except Exc String
  verify : Bytes → String → Except Exc Bool

/-- bcrypt refuses a secret with a NUL byte. Of all others within its limit, the one that was hashed
verifies, and the text of a hash fits its column. -/
structure CryptContext.Bcrypt (P : CryptContext) : Prop where
  hash_ok : ∀ salt b, b.length ≤ bcryptMaxBytes → 0 ∉ b →
    ∃ h, P.hash salt b = .ok h ∧ h.length ≤ 255
  hash_nul : ∀ salt b, 0 ∈ b → ∃ e, P.hash salt b = .error e
  verify_hash : ∀ salt b h b', P.hash salt b = .ok h → b.length ≤ bcryptMaxBytes →
    b'.length ≤ bcryptMaxBytes → 0 ∉ b' → P.verify b' h = .ok (b' = b)
  verify_nul : ∀ b h, 0 ∈ b → ∃ e, P.verify b h = .error e

theorem truncateSecret_length (secret : String) :
    (truncateSecret secret).length ≤ bcryptMaxBytes :=
  List.length_take_le _ _

section
variable (P : CryptContext)

def hashPassword (salt : ℕ) (plain : String) : Except Exc String :=
  P.hash salt (truncateSecret plain)

def verifyPassword (plain hashed : String) : Except Exc Bool :=
  P.verify (truncateSecret plain) hashed

end

/-! ### Tokens -/

/-- What `create_access_token` signs. -/
structure Claims where
  sub : String
  role : String
  exp : ℤ
  deriving DecidableEq, Repr

/-- The value of `role` in a payload: a string, or another JSON value, which may be false. -/
inductive RoleClaim where
  | text (s : String)
  | other (truthy : Bool)
  deriving DecidableEq, Repr

/-- A payload as it is read. The library lets only strings through as a subject. -/
structure Payload where
  sub : Option String
  role : Option RoleClaim
  deriving DecidableEq, Repr

/-- `jwt.encode` and `jwt.decode` with the key and the algorithm of the settings. `decode` reads the
time in whole seconds and is `none` where it raises `JWTError`. -/
structure Jwt where
  encode : Claims → String
  decode : String → ℤ → Option Payload

/-- A token decodes to its claims as long as it has not expired. -/
def Jwt.Signs (J : Jwt) : Prop := ∀ claims now, J.decode (J.encode claims) now =
  if now ≤ claims.exp then some ⟨some claims.sub, some (.text claims.role)⟩ else none

/-- `timegm(t.utctimetuple())` -/
def timegm (t : Time) : ℤ := ⌊t⌋

def invalidToken : Exc := ⟨.authenticationError, "Invalid or expired token", []⟩

/-- What the code reads from its settings. -/
structure TokenSettings where
  jwt : Jwt
  /-- `ACCESS_TOKEN_EXPIRE_MINUTES` -/
  accessTokenExpireMinutes : ℤ

section
variable (cfg : TokenSettings)

/-- `expires_minutes or settings.ACCESS_TOKEN_EXPIRE_MINUTES` -/
def lifetimeMinutes (expiresMinutes : Option ℤ) : ℤ :=
  match expiresMinutes with
  | some m => if m = 0 then cfg.accessTokenExpireMinutes else m
  | none => cfg.accessTokenExpireMinutes

def createAccessToken (subject : String) (role : Role) (expiresMinutes : Option ℤ) (now : Time) :
    String :=
  cfg.jwt.encode ⟨subject, role.value, timegm (now + lifetimeMinutes cfg expiresMinutes * 60)⟩

def decodeAccessToken (token : String) (now : Time) : Except Exc Payload :=
  match cfg.jwt.decode token (timegm now) with
  | some payload => .ok payload
  | none => .error invalidToken

end

theorem timegm_add_minutes (t : Time) (m : ℤ) : timegm (t + m * 60) = timegm t + m * 60 := by
  have hcast : (m * 60 : ℚ) = ((m * 60 : ℤ) : ℚ) := by push_cast; rfl
  rw [timegm, hcast, Int.floor_add_intCast, timegm]

/-- A token is read until the last second of its lifetime. -/
theorem decodeAccessToken_create {cfg : TokenSettings} (hjwt : cfg.jwt.Signs) (subject : String)
    (role : Role) (now now' : Time) :
    decodeAccessToken cfg (createAccessToken cfg subject role none now) now' =
      if timegm now' ≤ timegm now + cfg.accessTokenExpireMinutes * 60 then
        .ok ⟨some subject, some (.text role.value)⟩
      else .error invalidToken := by
  rw [decodeAccessToken, createAccessToken, hjwt, lifetimeMinutes, timegm_add_minutes]
  dsimp only
  split_ifs <;> rfl

/-! ### Libraries without cryptography -/

/-- A text after its length. -/
def field (s : String) : List Char := List.replicate s.length 'a' ++ '.' :: s.toList

def readField (cs : List Char) : String × List Char :=
  let n := (cs.takeWhile (· = 'a')).length
  (String.ofList ((cs.drop (n + 1)).take n), (cs.drop (n + 1)).drop n)

theorem readField_field (s : String) (rest : List Char) :
    readField (field s ++ rest) = (s, rest) := by
  have hlength : ((field s ++ rest).takeWhile (· = 'a')).length = s.length := by
    rw [field, List.append_assoc, List.takeWhile_append_of_pos (by simp)]
    simp
  have hdrop : (field s ++ rest).drop (s.length + 1) = s.toList ++ rest := by
    rw [field, List.append_assoc, List.cons_append, List.drop_append, List.length_replicate]
    simp
  rw [readField, hlength, hdrop]
  have hchars : s.toList.length = s.length := String.length_toList
  rw [← hchars, List.take_left, List.drop_left, String.ofList_toList]

def plainJwt : Jwt where
  encode claims := String.ofList (field claims.sub ++ (field claims.role ++
    (if claims.exp < 0 then '-' else '+') :: List.replicate claims.exp.natAbs 'a'))
  decode token now :=
    let (sub, cs) := readField token.toList
    let (role, cs) := readField cs
    match cs with
    | [] => none
    | sign :: digits =>
      let exp : ℤ := if sign = '-' then -digits.length else digits.length
      if now ≤ exp then some ⟨some sub, some (.text role)⟩ else none

theorem plainJwt_signs : plainJwt.Signs := by
  intro claims now
  simp only [plainJwt, String.toList_ofList, readField_field, List.length_replicate]
  by_cases hneg : claims.exp < 0
  · simp [hneg, abs_of_neg hneg]
  · have hexp : ((claims.exp.natAbs : ℕ) : ℤ) = claims.exp := by omega
    simp [hneg, hexp]

def nulInPassword : Exc := ⟨.valueError, "bcrypt does not allow NULL bytes in password", []⟩

/-- One character for each byte. -/
def bytesText (b : Bytes) : String := String.ofList (b.map Char.ofUInt8)

def plainPasswords : CryptContext where
  hash _ b := if 0 ∈ b then .error nulInPassword else .ok (bytesText b)
  verify b h := if 0 ∈ b then .error nulInPassword else .ok (h = bytesText b)

theorem bytesText_injective : Function.Injective bytesText := by
  intro b b' h
  refine List.map_injective_iff.2 (fun x y hxy => ?_) (String.ofList_injective h)
  exact UInt8.toNat_inj.1 (congrArg Char.toNat hxy)

theorem plainPasswords_bcrypt : plainPasswords.Bcrypt where
  hash_ok _ b hlength h0 := by
    refine ⟨bytesText b, if_neg h0, ?_⟩
    rw [bytesText, String.length_ofList, List.length_map]
    exact hlength.trans (by decide)
  hash_nul _ b h0 := ⟨nulInPassword, if_pos h0⟩
  verify_hash _ b h b' hhash _ _ h0' := by
    obtain rfl : bytesText b = h := by
      simp only [plainPasswords] at hhash
      split_ifs at hhash
      exact Except.ok.inj hhash
    simp [plainPasswords, h0', bytesText_injective.eq_iff, eq_comm]
  verify_nul b h h0 := ⟨nulInPassword, if_pos h0⟩

end FaceRecognition.Security
