import MestoryCore.Auth.Document
import MestoryCore.Python.Uuid

/-!
# Claims of an access token

`verifyAccessToken` decodes a token under a given key, checks the type of the
token, and validates the payload against `AccessTokenClaims`. Decoding is
PyJWT's and the conversion of one value is pydantic's: both are parameters. What
the model itself says, which fields it has, which of them may be missing, and
that other claims are ignored, is `modelValidate`.
-/

namespace MestoryCore.Auth

open Python

def jwtAlgorithm : String := "RS256"
def tokenTypeAccess : String := "access"
def requiredClaims : List String := ["exp", "iat", "sub", "jti", "aud", "iss"]

structure AccessTokenClaims where
  sub : Uuid
  jti : Uuid
  roles : List String
  isVerified : Bool
  isSuperuser : Bool
  iat : Int
  exp : Int
  deriving DecidableEq

/-- The header of a token. PyJWT refuses a header whose `kid` is not a string. -/
structure Header where
  items : Dict
  kid_isString : ∀ value, Dict.get? items "kid" = some value → ∃ kid, value = .str kid

/-- `header.get("kid")`. -/
def Header.kid? (header : Header) : Option String :=
  match Dict.get? header.items "kid" with
  | some (.str kid) => some kid
  | _ => none

/-- The functions of `jwt` that read a token. `decode` gets the current time. -/
structure Jwt where
  getUnverifiedHeader : String → Except LibraryExn Header
  decode (token publicKey : String) (algorithms : List String) (audience issuer : String)
    (require : List String) (now : ℚ) : Except LibraryExn Dict

abbrev ValidationExn := { e : Exn // e.cls = .validationError }

/-- How pydantic converts a value to the type of a field: `none` when it does
not. `error` is the exception it raises for a payload. -/
structure Validators where
  uuid : Json → Option Uuid
  strings : Json → Option (List String)
  bool : Json → Option Bool
  int : Json → Option Int
  error : Dict → ValidationExn

/-- The fields of the model in a payload. `is_superuser` is `False` when absent. -/
def claims? (v : Validators) (payload : Dict) : Option AccessTokenClaims := do
  let sub ← (Dict.get? payload "sub").bind v.uuid
  let jti ← (Dict.get? payload "jti").bind v.uuid
  let roles ← (Dict.get? payload "roles").bind v.strings
  let isVerified ← (Dict.get? payload "is_verified").bind v.bool
  let isSuperuser ← ((Dict.get? payload "is_superuser").map v.bool).getD (some false)
  let iat ← (Dict.get? payload "iat").bind v.int
  let exp ← (Dict.get? payload "exp").bind v.int
  return { sub, jti, roles, isVerified, isSuperuser, iat, exp }

/-- `AccessTokenClaims.model_validate`. -/
def modelValidate (v : Validators) (payload : Dict) : Except ValidationExn AccessTokenClaims :=
  match claims? v payload with
  | some claims => .ok claims
  | none => .error (v.error payload)

/-- `payload.get("type") == TOKEN_TYPE_ACCESS`. -/
def isAccess (payload : Dict) : Bool :=
  match Dict.get? payload "type" with
  | some (.str type) => type = tokenTypeAccess
  | _ => false

/-- `verify_access_token`. -/
def verifyAccessToken (lib : Library) (jwt : Jwt) (v : Validators) (token publicKey : String)
    (audience issuer : String) (now : ℚ) : Except Exn AccessTokenClaims := do
  let payload ← (jwt.decode token publicKey [jwtAlgorithm] audience issuer requiredClaims
    now).mapError Subtype.val
  if isAccess payload then
    match modelValidate v payload with
    | .ok claims => return claims
    | .error exc => throw (.invalidToken "Token claims failed validation." exc.1)
  else
    let type := (Dict.get? payload "type").getD .null
    throw (.invalidToken (s!"Expected token type {lib.repr (.str tokenTypeAccess)}, " ++
      s!"got {lib.repr type}.") none)

/-- The claims are the validated values of the payload. -/
structure ClaimsOf (v : Validators) (payload : Dict) (claims : AccessTokenClaims) : Prop where
  sub : (Dict.get? payload "sub").bind v.uuid = some claims.sub
  jti : (Dict.get? payload "jti").bind v.uuid = some claims.jti
  roles : (Dict.get? payload "roles").bind v.strings = some claims.roles
  isVerified : (Dict.get? payload "is_verified").bind v.bool = some claims.isVerified
  isSuperuser : match Dict.get? payload "is_superuser" with
    | some value => v.bool value = some claims.isSuperuser
    | none => claims.isSuperuser = false
  iat : (Dict.get? payload "iat").bind v.int = some claims.iat
  exp : (Dict.get? payload "exp").bind v.int = some claims.exp

section Verify

variable {lib : Library} {jwt : Jwt} {v : Validators} {payload : Dict} {claims : AccessTokenClaims}
variable {token publicKey audience issuer : String} {now : ℚ}

theorem isAccess_iff :
    isAccess payload = true ↔ Dict.get? payload "type" = some (.str tokenTypeAccess) := by
  simp only [isAccess]
  split
  · rename_i type h
    simp [h]
  · rename_i h
    simpa using fun heq => h _ heq

theorem claims?_eq_some_iff : claims? v payload = some claims ↔ ClaimsOf v payload claims := by
  constructor
  · intro h
    simp only [claims?, bind, Option.bind_eq_some_iff, pure, Option.some.injEq] at h
    obtain ⟨sub, hsub, jti, hjti, roles, hroles, verified, hverified, superuser, hsuperuser, iat,
      hiat, exp, hexp, rfl⟩ := h
    refine ⟨Option.bind_eq_some_iff.mpr hsub, Option.bind_eq_some_iff.mpr hjti,
      Option.bind_eq_some_iff.mpr hroles, Option.bind_eq_some_iff.mpr hverified, ?_,
      Option.bind_eq_some_iff.mpr hiat, Option.bind_eq_some_iff.mpr hexp⟩
    cases hget : Dict.get? payload "is_superuser" with
    | none =>
        rw [hget] at hsuperuser
        exact (Option.some.inj hsuperuser).symm
    | some value => simpa [hget] using hsuperuser
  · rintro ⟨hsub, hjti, hroles, hverified, hsuperuser, hiat, hexp⟩
    have hsuper : ((Dict.get? payload "is_superuser").map v.bool).getD (some false) =
        some claims.isSuperuser := by
      cases hget : Dict.get? payload "is_superuser" with
      | none =>
          rw [hget] at hsuperuser
          exact congrArg some hsuperuser.symm
      | some value => simpa [hget] using hsuperuser
    simp [claims?, hsub, hjti, hroles, hverified, hsuper, hiat, hexp]

/-- Claims come from the payload that was decoded under the key. -/
theorem verifyAccessToken_eq_ok
    (h : verifyAccessToken lib jwt v token publicKey audience issuer now = .ok claims) :
    ∃ payload, jwt.decode token publicKey [jwtAlgorithm] audience issuer requiredClaims now =
        .ok payload ∧
      Dict.get? payload "type" = some (.str tokenTypeAccess) ∧ ClaimsOf v payload claims := by
  obtain ⟨payload, hdecode, h⟩ := Except.bind_eq_ok_iff.mp h
  refine ⟨payload, Except.mapError_eq_ok_iff.mp hdecode, ?_⟩
  split at h
  · rename_i haccess
    refine ⟨isAccess_iff.mp haccess, claims?_eq_some_iff.mp ?_⟩
    simp only [modelValidate] at h
    cases hclaims : claims? v payload with
    | none => simp [hclaims] at h
    | some claims' => simpa [hclaims] using h
  · simp at h

/-- Apart from `decode`, only `jwt.InvalidTokenError` is raised. -/
theorem verifyAccessToken_eq_error {exn : Exn}
    (h : verifyAccessToken lib jwt v token publicKey audience issuer now = .error exn) :
    exn.cls.isInvalidToken = true ∨ ∃ exc,
      jwt.decode token publicKey [jwtAlgorithm] audience issuer requiredClaims now =
        .error exc ∧ exc.1 = exn := by
  rcases Except.bind_eq_error_iff.mp h with hdecode | ⟨payload, _, h⟩
  · exact .inr (Except.mapError_eq_error_iff.mp hdecode)
  · left
    split at h
    · cases hvalid : modelValidate v payload with
      | ok claims' => simp [hvalid] at h
      | error exc =>
          obtain rfl : Exn.invalidToken _ _ = exn := by simpa [hvalid] using h
          rfl
    · obtain rfl : Exn.invalidToken _ _ = exn := by simpa using h
      rfl

end Verify
end MestoryCore.Auth
