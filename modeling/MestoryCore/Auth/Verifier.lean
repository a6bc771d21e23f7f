import MestoryCore.Auth.Claims
import MestoryCore.Auth.Client

/-!
# The verifier, before and after it asks for a key

`verify` awaits `get_key` once. `selectKid` is what it does before, up to the
`kid` it asks for, and `verifyWith` what it does with the outcome of the call.
-/

namespace MestoryCore.Auth

open Python

/-- The functions of the libraries that a request uses. -/
structure Platform where
  lib : Library
  jwt : Jwt
  validators : Validators

/-- The settings of `AccessTokenVerifier`. -/
structure Verifier where
  audience : String
  issuer : String

/-- `verify` up to its call of `get_key`. -/
def selectKid (p : Platform) (token : String) : Except Exn String :=
  match p.jwt.getUnverifiedHeader token with
  | .error exc =>
      if exc.1.cls.isDecodeError then .error (.invalidToken (p.lib.str exc.1) exc.1)
      else .error exc.1
  | .ok header =>
      match header.kid? with
      | some kid =>
          if kid = "" then .error (.invalidToken "Token header carries no 'kid'." none)
          else .ok kid
      | none => .error (.invalidToken "Token header carries no 'kid'." none)

/-- `verify` from the outcome of `get_key` on. The result is `none` when the
call was cancelled. -/
def verifyWith (p : Platform) (verifier : Verifier) (token : String) (now : ℚ) :
    Outcome → Option (Except Exn AccessTokenClaims)
  | .returned publicKey =>
      some (verifyAccessToken p.lib p.jwt p.validators token publicKey verifier.audience
        verifier.issuer now)
  | .raised exc =>
      if exc.exn.cls = .unknownSigningKey then
        some (.error (.invalidToken (p.lib.str exc.exn) exc.exn))
      else some (.error exc.exn)
  | .cancelled => none

section Rules

variable {p : Platform} {verifier : Verifier} {token kid : String} {now : ℚ}
variable {claims : AccessTokenClaims} {o : Outcome}

/-- A `kid` that the verifier asks for is in the header and not empty. -/
theorem selectKid_eq_ok (h : selectKid p token = .ok kid) :
    ∃ header, p.jwt.getUnverifiedHeader token = .ok header ∧ header.kid? = some kid ∧ kid ≠ "" := by
  simp only [selectKid] at h
  split at h
  · split at h <;> cases h
  · rename_i header hheader
    split at h
    · rename_i kid' hkid
      split at h
      · cases h
      · rename_i hne
        obtain rfl := Except.ok.inj h
        exact ⟨header, hheader, hkid, hne⟩
    · cases h

/-- An inadmissible header is an invalid token, or the exception of the library. -/
theorem selectKid_eq_error {exn : Exn} (h : selectKid p token = .error exn) :
    exn.cls.isInvalidToken = true ∨
      ∃ exc, p.jwt.getUnverifiedHeader token = .error exc ∧ exc.1 = exn := by
  simp only [selectKid] at h
  split at h
  · rename_i exc hexc
    split at h
    · left
      rw [← Except.error.inj h]
      rfl
    · exact .inr ⟨exc, hexc, Except.error.inj h⟩
  · left
    split at h
    · split at h
      · rw [← Except.error.inj h]
        rfl
      · cases h
    · rw [← Except.error.inj h]
      rfl

/-- Claims come from a returned key. -/
theorem verifyWith_eq_ok (h : verifyWith p verifier token now o = some (.ok claims)) :
    ∃ publicKey, o = .returned publicKey ∧
      verifyAccessToken p.lib p.jwt p.validators token publicKey verifier.audience verifier.issuer
        now = .ok claims := by
  cases o with
  | returned publicKey => exact ⟨publicKey, rfl, Option.some.inj h⟩
  | raised exc =>
      simp only [verifyWith] at h
      split at h <;> cases h
  | cancelled => cases h

/-- An exception of the verifier is an invalid token, that of `decode`, or that
of the key source. -/
theorem verifyWith_eq_error {exn : Exn}
    (h : verifyWith p verifier token now o = some (.error exn)) :
    exn.cls.isInvalidToken = true ∨
      (∃ publicKey exc, p.jwt.decode token publicKey [jwtAlgorithm] verifier.audience
        verifier.issuer requiredClaims now = .error exc ∧ exc.1 = exn) ∨
      ∃ exc, o = .raised exc ∧ exc.exn.cls ≠ .unknownSigningKey ∧ exc.exn = exn := by
  cases o with
  | returned publicKey =>
      rcases verifyAccessToken_eq_error (Option.some.inj h) with hinvalid | hdecode
      · exact .inl hinvalid
      · exact .inr (.inl ⟨publicKey, hdecode⟩)
  | raised exc =>
      simp only [verifyWith] at h
      split at h
      · left
        rw [← Except.error.inj (Option.some.inj h)]
        rfl
      · rename_i hne
        exact .inr (.inr ⟨exc, rfl, hne, Except.error.inj (Option.some.inj h)⟩)
  | cancelled => cases h

end Rules

/-! ## Values for closed runs -/

/-- The claims of the one token of the closed runs, which expires at 900. -/
def samplePayload : Dict :=
  [("sub", .str "00000000-0000-0000-0000-000000000000"),
    ("jti", .str "00000000-0000-0000-0000-000000000000"), ("roles", .list [.str "user"]),
    ("is_verified", .bool true), ("iat", .int 0), ("exp", .int 900), ("aud", .str "mestory"),
    ("iss", .str "auth_service"), ("type", .str "access")]

/-- PyJWT on tokens of which only `token-1` is well formed and signed, by `k1`. -/
def Jwt.sample : Jwt where
  getUnverifiedHeader token :=
    if token = "token-1" then
      .ok { items := [("kid", .str "k1")], kid_isString := by simp [Dict.get?] }
    else .error ⟨{ cls := .decodeError "DecodeError", args := [.str "Not enough segments"] }, rfl⟩
  decode token publicKey algorithms audience issuer require now :=
    if token = "token-1" ∧
        publicKey = "-----BEGIN PUBLIC KEY-----\nk1\n-----END PUBLIC KEY-----\n" ∧
        "RS256" ∈ algorithms ∧ audience = "mestory" ∧ issuer = "auth_service" ∧
        (∀ claim ∈ require, (Dict.get? samplePayload claim).isSome) ∧ now < 900 then
      .ok samplePayload
    else .error ⟨{
      cls := .decodeError "InvalidSignatureError"
      args := [.str "Signature verification failed"] }, rfl⟩

/-- pydantic on the values of that payload. -/
def Validators.sample : Validators where
  uuid
    | .str "00000000-0000-0000-0000-000000000000" => some ⟨0⟩
    | _ => none
  strings
    | .list items => items.mapM fun
        | .str item => some item
        | _ => none
    | _ => none
  bool
    | .bool value => some value
    | _ => none
  int
    | .int value => some value
    | _ => none
  error _ := ⟨{ cls := .validationError, args := [] }, rfl⟩

def Platform.sample : Platform where
  lib := .sample
  jwt := .sample
  validators := .sample

end MestoryCore.Auth
