import MestoryCore.Auth.Verifier

/-!
# Which tokens are accepted

`verifyAccessToken` accepts a token exactly when PyJWT decodes it, it is an
access token, and each field of the model validates. What it reads of a payload
is `knownClaims`, so payloads that agree on these are accepted alike, whatever
other claims an issuer adds.
-/

namespace MestoryCore.Auth

open Python

/-- The claims that PyJWT itself looks at. -/
def registeredClaims : List String := ["exp", "nbf", "iat", "aud", "iss", "sub", "jti"]

/-- Those, and the claims that the package reads besides. -/
def knownClaims : List String :=
  registeredClaims ++ ["type", "roles", "is_verified", "is_superuser"]

def AgreeOn (names : List String) (payload payload' : Dict) : Prop :=
  ∀ name ∈ names, Dict.get? payload name = Dict.get? payload' name

/-- What PyJWT does with the tokens of an issuer. `carries token payload` says
that the issuer signed the token for this payload: decoding it returns the
payload or raises, and whether it does depends on the registered claims alone.
Whatever the token, only `jwt.InvalidTokenError` is raised. -/
structure DecodesClaims (jwt : Jwt) (carries : String → Dict → Prop) : Prop where
  payload : ∀ {token payload publicKey audience issuer now decoded}, carries token payload →
    jwt.decode token publicKey [jwtAlgorithm] audience issuer requiredClaims now = .ok decoded →
    ∀ name, Dict.get? decoded name = Dict.get? payload name
  blind : ∀ {token token' payload payload' publicKey audience issuer now decoded},
    carries token payload → carries token' payload' → AgreeOn registeredClaims payload payload' →
    jwt.decode token publicKey [jwtAlgorithm] audience issuer requiredClaims now = .ok decoded →
    ∃ decoded', jwt.decode token' publicKey [jwtAlgorithm] audience issuer requiredClaims now =
      .ok decoded'
  raises : ∀ {token publicKey audience issuer now exc},
    jwt.decode token publicKey [jwtAlgorithm] audience issuer requiredClaims now = .error exc →
    exc.1.cls.isInvalidToken = true

/-- Each field of the model is present, unless it has a default, and validates. -/
structure Validates (v : Validators) (payload : Dict) : Prop where
  sub : ((Dict.get? payload "sub").bind v.uuid).isSome
  jti : ((Dict.get? payload "jti").bind v.uuid).isSome
  roles : ((Dict.get? payload "roles").bind v.strings).isSome
  isVerified : ((Dict.get? payload "is_verified").bind v.bool).isSome
  isSuperuser : ∀ value, Dict.get? payload "is_superuser" = some value → (v.bool value).isSome
  iat : ((Dict.get? payload "iat").bind v.int).isSome
  exp : ((Dict.get? payload "exp").bind v.int).isSome

section Model

variable {v : Validators} {payload payload' : Dict} {claims : AccessTokenClaims}

/-- A payload has claims exactly when each field validates. -/
theorem exists_claimsOf_iff : (∃ claims, ClaimsOf v payload claims) ↔ Validates v payload := by
  constructor
  · rintro ⟨claims, h⟩
    constructor
    case isSuperuser =>
      intro value hvalue
      have := h.isSuperuser
      rw [hvalue] at this
      simp [this]
    all_goals simp [h.sub, h.jti, h.roles, h.isVerified, h.iat, h.exp]
  · rintro ⟨hsub, hjti, hroles, hverified, hsuperuser, hiat, hexp⟩
    obtain ⟨sub, hsub⟩ := Option.isSome_iff_exists.mp hsub
    obtain ⟨jti, hjti⟩ := Option.isSome_iff_exists.mp hjti
    obtain ⟨roles, hroles⟩ := Option.isSome_iff_exists.mp hroles
    obtain ⟨isVerified, hverified⟩ := Option.isSome_iff_exists.mp hverified
    obtain ⟨iat, hiat⟩ := Option.isSome_iff_exists.mp hiat
    obtain ⟨exp, hexp⟩ := Option.isSome_iff_exists.mp hexp
    cases hget : Dict.get? payload "is_superuser" with
    | none =>
        exact ⟨⟨sub, jti, roles, isVerified, false, iat, exp⟩,
          ⟨hsub, hjti, hroles, hverified, by simp [hget], hiat, hexp⟩⟩
    | some value =>
        obtain ⟨isSuperuser, hvalue⟩ := Option.isSome_iff_exists.mp (hsuperuser value hget)
        exact ⟨⟨sub, jti, roles, isVerified, isSuperuser, iat, exp⟩,
          ⟨hsub, hjti, hroles, hverified, by simp [hget, hvalue], hiat, hexp⟩⟩

/-- The claims of a payload are read from the known ones. -/
theorem ClaimsOf.of_agreeOn (agree : AgreeOn knownClaims payload payload')
    (h : ClaimsOf v payload claims) : ClaimsOf v payload' claims := by
  have read : ∀ name ∈ knownClaims, Dict.get? payload' name = Dict.get? payload name :=
    fun name hname => (agree name hname).symm
  obtain ⟨hsub, hjti, hroles, hverified, hsuperuser, hiat, hexp⟩ := h
  constructor
  · rwa [read "sub" (by decide)]
  · rwa [read "jti" (by decide)]
  · rwa [read "roles" (by decide)]
  · rwa [read "is_verified" (by decide)]
  · rwa [read "is_superuser" (by decide)]
  · rwa [read "iat" (by decide)]
  · rwa [read "exp" (by decide)]

end Model

section Accept

variable {lib : Library} {jwt : Jwt} {v : Validators} {carries : String → Dict → Prop}
variable {token token' publicKey audience issuer : String} {now : ℚ}
variable {payload payload' : Dict} {claims : AccessTokenClaims}

/-- Claims are returned exactly for an access token that is decoded and whose
fields validate, and they are the validated values. -/
theorem verifyAccessToken_eq_ok_iff :
    verifyAccessToken lib jwt v token publicKey audience issuer now = .ok claims ↔
      ∃ payload, jwt.decode token publicKey [jwtAlgorithm] audience issuer requiredClaims now =
          .ok payload ∧
        Dict.get? payload "type" = some (.str tokenTypeAccess) ∧ ClaimsOf v payload claims := by
  constructor
  · exact verifyAccessToken_eq_ok
  · rintro ⟨payload, hdecode, htype, hclaims⟩
    refine Except.bind_eq_ok_iff.mpr ⟨payload, by simp [hdecode, Except.mapError], ?_⟩
    simp [isAccess_iff.mpr htype, modelValidate, claims?_eq_some_iff.mpr hclaims]

/-- For a token that carries a payload, everything but decoding can be read off
that payload. -/
theorem verifyAccessToken_eq_ok_iff_of_carries (decodes : DecodesClaims jwt carries)
    (carried : carries token payload) :
    verifyAccessToken lib jwt v token publicKey audience issuer now = .ok claims ↔
      (∃ decoded, jwt.decode token publicKey [jwtAlgorithm] audience issuer requiredClaims now =
          .ok decoded) ∧
        Dict.get? payload "type" = some (.str tokenTypeAccess) ∧ ClaimsOf v payload claims := by
  rw [verifyAccessToken_eq_ok_iff]
  constructor
  · rintro ⟨decoded, hdecode, htype, hclaims⟩
    have same := decodes.payload carried hdecode
    exact ⟨⟨decoded, hdecode⟩, same _ ▸ htype, hclaims.of_agreeOn fun name _ => same name⟩
  · rintro ⟨⟨decoded, hdecode⟩, htype, hclaims⟩
    have same := decodes.payload carried hdecode
    exact ⟨decoded, hdecode, (same _).trans htype,
      hclaims.of_agreeOn fun name _ => (same name).symm⟩

/-- A token that gets no claims is an invalid token. -/
theorem invalidToken_of_rejected (decodes : DecodesClaims jwt carries)
    (rejected : ¬ ∃ claims,
      verifyAccessToken lib jwt v token publicKey audience issuer now = .ok claims) :
    ∃ exn, verifyAccessToken lib jwt v token publicKey audience issuer now = .error exn ∧
      exn.cls.isInvalidToken = true := by
  cases h : verifyAccessToken lib jwt v token publicKey audience issuer now with
  | ok claims => exact absurd ⟨claims, h⟩ rejected
  | error exn =>
      refine ⟨exn, rfl, ?_⟩
      rcases verifyAccessToken_eq_error h with hinvalid | ⟨exc, hdecode, rfl⟩
      · exact hinvalid
      · exact decodes.raises hdecode

/-- The tokens of two payloads that agree on the known claims get the same claims. -/
theorem verifyAccessToken_eq_ok_of_agreeOn (decodes : DecodesClaims jwt carries)
    (carried : carries token payload) (carried' : carries token' payload')
    (agree : AgreeOn knownClaims payload payload')
    (h : verifyAccessToken lib jwt v token publicKey audience issuer now = .ok claims) :
    verifyAccessToken lib jwt v token' publicKey audience issuer now = .ok claims := by
  obtain ⟨⟨decoded, hdecode⟩, htype, hclaims⟩ :=
    (verifyAccessToken_eq_ok_iff_of_carries decodes carried).mp h
  have registered : AgreeOn registeredClaims payload payload' :=
    fun name hname => agree name (List.mem_append_left _ hname)
  have type := agree "type" (by decide)
  exact (verifyAccessToken_eq_ok_iff_of_carries decodes carried').mpr
    ⟨decodes.blind carried carried' registered hdecode, type ▸ htype, hclaims.of_agreeOn agree⟩

end Accept

/-- What `verify_access_token` does with the token of a payload: when it returns
claims, which ones, what it raises otherwise, and that it does the same with the
token of any payload that has the same known claims. -/
structure AcceptsExactly (lib : Library) (jwt : Jwt) (v : Validators)
    (carries : String → Dict → Prop) (token publicKey audience issuer : String) (now : ℚ)
    (payload : Dict) : Prop where
  accepts : (∃ claims, verifyAccessToken lib jwt v token publicKey audience issuer now =
      .ok claims) ↔
    (∃ decoded, jwt.decode token publicKey [jwtAlgorithm] audience issuer requiredClaims now =
      .ok decoded) ∧
    Dict.get? payload "type" = some (.str "access") ∧ Validates v payload
  claims : ∀ claims, verifyAccessToken lib jwt v token publicKey audience issuer now = .ok claims →
    ClaimsOf v payload claims
  rejects : (¬ ∃ claims, verifyAccessToken lib jwt v token publicKey audience issuer now =
      .ok claims) →
    ∃ exn, verifyAccessToken lib jwt v token publicKey audience issuer now = .error exn ∧
      exn.cls.isInvalidToken = true
  ignores : ∀ token' payload', carries token' payload' → AgreeOn knownClaims payload payload' →
    (∃ claims, verifyAccessToken lib jwt v token publicKey audience issuer now = .ok claims ∧
      verifyAccessToken lib jwt v token' publicKey audience issuer now = .ok claims) ∨
    ∃ exn exn', verifyAccessToken lib jwt v token publicKey audience issuer now = .error exn ∧
      verifyAccessToken lib jwt v token' publicKey audience issuer now = .error exn' ∧
      exn.cls.isInvalidToken = true ∧ exn'.cls.isInvalidToken = true

/-- Acceptance is exact, and blind to claims that are not known. -/
theorem accepts_of_carries {lib : Library} {jwt : Jwt} {v : Validators}
    {carries : String → Dict → Prop} {token : String} {payload : Dict}
    (decodes : DecodesClaims jwt carries) (carried : carries token payload)
    (publicKey audience issuer : String) (now : ℚ) :
    AcceptsExactly lib jwt v carries token publicKey audience issuer now payload := by
  constructor
  · simp only [verifyAccessToken_eq_ok_iff_of_carries decodes carried, exists_and_left,
      exists_claimsOf_iff]
    rfl
  · intro claims h
    exact ((verifyAccessToken_eq_ok_iff_of_carries decodes carried).mp h).2.2
  · exact invalidToken_of_rejected decodes
  · intro token' payload' carried' agree
    by_cases accepted : ∃ claims,
        verifyAccessToken lib jwt v token publicKey audience issuer now = .ok claims
    · obtain ⟨claims, h⟩ := accepted
      exact .inl ⟨claims, h, verifyAccessToken_eq_ok_of_agreeOn decodes carried carried' agree h⟩
    · have back : AgreeOn knownClaims payload' payload := fun name hname => (agree name hname).symm
      have rejected : ¬ ∃ claims,
          verifyAccessToken lib jwt v token' publicKey audience issuer now = .ok claims := by
        rintro ⟨claims, h⟩
        exact accepted
          ⟨claims, verifyAccessToken_eq_ok_of_agreeOn decodes carried' carried back h⟩
      obtain ⟨exn, h, hinvalid⟩ := invalidToken_of_rejected decodes accepted
      obtain ⟨exn', h', hinvalid'⟩ := invalidToken_of_rejected decodes rejected
      exact .inr ⟨exn, exn', h, h', hinvalid, hinvalid'⟩

/-- The payload of the closed runs with a claim that the package does not know. -/
def extendedPayload : Dict := samplePayload ++ [("team", .list [.str "music"])]

/-- PyJWT on a second token, which differs from the first in that claim. -/
def Jwt.extended : Jwt where
  getUnverifiedHeader := Jwt.sample.getUnverifiedHeader
  decode token publicKey algorithms audience issuer require now :=
    if token = "token-2" then
      (Jwt.sample.decode "token-1" publicKey algorithms audience issuer require now).map fun _ =>
        extendedPayload
    else Jwt.sample.decode token publicKey algorithms audience issuer require now

/-- The two tokens and their payloads. -/
def CarriesSample (token : String) (payload : Dict) : Prop :=
  (token = "token-1" ∧ payload = samplePayload) ∨ (token = "token-2" ∧ payload = extendedPayload)

theorem decode_sample_cases (token publicKey : String) (algorithms : List String)
    (audience issuer : String) (require : List String) (now : ℚ) :
    (token = "token-1" ∧ Jwt.sample.decode token publicKey algorithms audience issuer require now =
        .ok samplePayload) ∨
      ∃ exc, Jwt.sample.decode token publicKey algorithms audience issuer require now =
        .error exc ∧ exc.1.cls.isInvalidToken = true := by
  simp only [Jwt.sample]
  split_ifs with h
  · exact .inl ⟨h.1, rfl⟩
  · exact .inr ⟨_, rfl, rfl⟩

theorem decodesClaims_sample : DecodesClaims .extended CarriesSample where
  payload := by
    rintro token payload publicKey audience issuer now decoded (⟨rfl, rfl⟩ | ⟨rfl, rfl⟩) h name <;>
    · rcases decode_sample_cases "token-1" publicKey [jwtAlgorithm] audience issuer
        requiredClaims now with ⟨-, hdecode⟩ | ⟨exc, hdecode, -⟩ <;>
      simp_all [Jwt.extended, Except.map]
  blind := by
    rintro token token' payload payload' publicKey audience issuer now decoded
      (⟨rfl, rfl⟩ | ⟨rfl, rfl⟩) (⟨rfl, rfl⟩ | ⟨rfl, rfl⟩) _ h <;>
    · rcases decode_sample_cases "token-1" publicKey [jwtAlgorithm] audience issuer
        requiredClaims now with ⟨-, hdecode⟩ | ⟨exc, hdecode, -⟩ <;>
      simp_all [Jwt.extended, Except.map]
  raises := by
    intro token publicKey audience issuer now exc h
    by_cases second : token = "token-2"
    · rcases decode_sample_cases "token-1" publicKey [jwtAlgorithm] audience issuer
        requiredClaims now with ⟨-, hdecode⟩ | ⟨exc', hdecode, hinvalid⟩
      · simp [Jwt.extended, second, hdecode, Except.map] at h
      · obtain rfl : exc' = exc := by simpa [Jwt.extended, second, hdecode, Except.map] using h
        exact hinvalid
    · rcases decode_sample_cases token publicKey [jwtAlgorithm] audience issuer
        requiredClaims now with ⟨-, hdecode⟩ | ⟨exc', hdecode, hinvalid⟩
      · simp [Jwt.extended, second, hdecode] at h
      · obtain rfl : exc' = exc := by simpa [Jwt.extended, second, hdecode] using h
        exact hinvalid

theorem accepts_of_carries_extended :
    AcceptsExactly .sample .extended .sample CarriesSample "token-2"
      "-----BEGIN PUBLIC KEY-----\nk1\n-----END PUBLIC KEY-----\n" "mestory" "auth_service" 100
      extendedPayload :=
  accepts_of_carries decodesClaims_sample (.inr ⟨rfl, rfl⟩) _ _ _ _

end MestoryCore.Auth
