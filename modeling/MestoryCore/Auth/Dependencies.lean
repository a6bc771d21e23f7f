import MestoryCore.Auth.Verifier
import MestoryCore.Permissions
import Mathlib.Data.Finset.Sort
import Mathlib.Data.String.Basic

/-!
# The dependencies of a request

`get_claims` and the two dependencies built on it, as they see one request. A
request ends with claims, with an `HTTPException`, or with an exception that no
branch handles, which the server answers with 500. As in the verifier, the part
before the lookup of the key (`getClaims`) and the part after it (`answer`) are two
segments of one call.
-/

namespace MestoryCore.Auth

/-- The body of an error. -/
structure ProblemDetail where
  code : String
  detail : String
  deriving DecidableEq

structure HttpException where
  statusCode : Nat
  detail : ProblemDetail
  headers : Option (List (String × String)) := none
  deriving DecidableEq

/-- `_problem`. -/
def problem (statusCode : Nat) (code detail : String)
    (headers : Option (List (String × String)) := none) : HttpException :=
  { statusCode, detail := { code, detail }, headers }

/-- `_unauthorized`. -/
def unauthorized (code detail : String) : HttpException :=
  problem 401 code detail (some [("WWW-Authenticate", "Bearer")])

/-- How a dependency ends. -/
inductive Answer where
  | claims (claims : AccessTokenClaims)
  | problem (exc : HttpException)
  | unhandled (exn : Exn)
  | cancelled

/-- The dependency of a request, with the requirement of its checker. -/
inductive Guard where
  | getClaims
  | requireRoles (required : Finset String) (nonempty : required.Nonempty)
  | requirePermissions (required : Finset Permission) (nonempty : required.Nonempty)

/-- A request: the token of its `Authorization` header, and its dependency. -/
structure Request where
  credentials : Option String
  guard : Guard

/-- `require_roles`. -/
def requireRoles (roles : List String) : Except Exn Guard :=
  if h : roles.toFinset.Nonempty then .ok (.requireRoles roles.toFinset h)
  else .error (.valueError ("require_roles() requires at least one role; " ++
    "a call with no roles is a programming error."))

/-- `require_permissions`. -/
def requirePermissions (permissions : List Permission) : Except Exn Guard :=
  if h : permissions.toFinset.Nonempty then .ok (.requirePermissions permissions.toFinset h)
  else .error (.valueError ("require_permissions() requires at least one permission; " ++
    "a call with no permissions is a programming error."))

/-- `_is_unrestricted`. -/
def isUnrestricted (claims : AccessTokenClaims) : Bool :=
  claims.isSuperuser || decide (roleAdmin ∈ claims.roles)

/-- `', '.join(sorted(names))`. -/
def joinSorted (names : Finset String) : String :=
  ", ".intercalate (names.sort (· ≤ ·))

/-- The checker of `require_roles`. -/
def checkRoles (required : Finset String) (claims : AccessTokenClaims) :
    Except HttpException AccessTokenClaims :=
  if isUnrestricted claims || decide (required ∩ claims.roles.toFinset).Nonempty then .ok claims
  else .error (problem 403 "forbidden" s!"Requires one of the roles: {joinSorted required}.")

/-- The checker of `require_permissions`. -/
def checkPermissions (required : Finset Permission) (claims : AccessTokenClaims) :
    Except HttpException AccessTokenClaims :=
  if isUnrestricted claims then .ok claims
  else if required ⊆ permissionsForRoles claims.roles then .ok claims
  else
    let names := required.image Permission.value
    .error (problem 403 "forbidden" s!"Requires permissions: {joinSorted names}.")

/-- The checker of a dependency, given the claims of the token. -/
def Guard.check : Guard → AccessTokenClaims → Except HttpException AccessTokenClaims
  | .getClaims, claims => .ok claims
  | .requireRoles required _, claims => checkRoles required claims
  | .requirePermissions required _, claims => checkPermissions required claims

/-- The `except` clauses of `get_claims`. -/
def handle (lib : Library) (exn : Exn) : Answer :=
  if exn.cls.isInvalidToken then .problem (unauthorized "invalid_token" (lib.str exn))
  else if exn.cls.isSourceError then
    .problem (problem 503 "auth_unavailable" ("Unable to verify the token: the signing key " ++
      "source is unavailable. Try again shortly."))
  else .unhandled exn

/-- A request whose `get_claims` awaits the key of its token. -/
structure Pending where
  verifier : Verifier
  token : String
  guard : Guard

def Pending.request (pending : Pending) : Request where
  credentials := some pending.token
  guard := pending.guard

/-- `get_claims` up to the lookup of the key: the `kid` to look up, or the end. -/
def getClaims (p : Platform) (verifier : Option Verifier) (request : Request) :
    Except Answer (Pending × String) :=
  match request.credentials with
  | none => .error (.problem (unauthorized "not_authenticated"
      "Authorization header with a Bearer token is required."))
  | some token =>
      match verifier with
      | none => .error (.unhandled {
          cls := .runtimeError
          args := [.str ("app.state.access_token_verifier is not set; the application " ++
            "must configure it in its lifespan before serving requests.")] })
      | some verifier =>
          match selectKid p token with
          | .error exn => .error (handle p.lib exn)
          | .ok kid => .ok (⟨verifier, token, request.guard⟩, kid)

/-- The dependency from the outcome of the lookup on. -/
def Pending.answer (p : Platform) (now : ℚ) (pending : Pending) (o : Outcome) : Answer :=
  match verifyWith p pending.verifier pending.token now o with
  | none => .cancelled
  | some (.error exn) => handle p.lib exn
  | some (.ok claims) =>
      match pending.guard.check claims with
      | .ok claims => .claims claims
      | .error exc => .problem exc

section Rules

variable {p : Platform} {verifier : Option Verifier} {request : Request} {pending : Pending}
variable {kid : String} {now : ℚ} {o : Outcome} {claims claims' : AccessTokenClaims}

/-- A checker lets the same claims through. -/
theorem Guard.eq_of_check_eq_ok {guard : Guard} (h : guard.check claims = .ok claims') :
    claims' = claims := by
  cases guard with
  | getClaims => exact (Except.ok.inj h).symm
  | requireRoles =>
      simp only [Guard.check, checkRoles] at h
      split at h
      · exact (Except.ok.inj h).symm
      · cases h
  | requirePermissions =>
      simp only [Guard.check, checkPermissions] at h
      split at h
      · exact (Except.ok.inj h).symm
      · split at h
        · exact (Except.ok.inj h).symm
        · cases h

/-- A checker refuses with 403, and `get_claims` alone refuses nobody. -/
theorem Guard.eq_forbidden_of_check_eq_error {guard : Guard} {exc : HttpException}
    (h : guard.check claims = .error exc) : guard ≠ .getClaims ∧ exc.statusCode = 403 := by
  cases guard with
  | getClaims => cases h
  | requireRoles =>
      refine ⟨nofun, ?_⟩
      simp only [Guard.check, checkRoles] at h
      split at h
      · cases h
      · rw [← Except.error.inj h]
        rfl
  | requirePermissions =>
      refine ⟨nofun, ?_⟩
      simp only [Guard.check, checkPermissions] at h
      split at h
      · cases h
      · split at h
        · cases h
        · rw [← Except.error.inj h]
          rfl

/-- A request that looks up a key carries a token, and asks the configured
verifier for the `kid` of its header. -/
theorem getClaims_eq_ok (h : getClaims p verifier request = .ok (pending, kid)) :
    pending.request = request ∧ verifier = some pending.verifier ∧
      selectKid p pending.token = .ok kid := by
  obtain ⟨credentials, guard⟩ := request
  simp only [getClaims] at h
  split at h
  · cases h
  · split at h
    · cases h
    · split at h
      · cases h
      · rename_i hkid
        obtain ⟨rfl, rfl⟩ := Prod.mk.inj (Except.ok.inj h)
        exact ⟨rfl, rfl, hkid⟩

/-- Without a lookup nobody gets claims. -/
theorem getClaims_ne_claims (h : getClaims p verifier request = .error (.claims claims)) :
    False := by
  simp only [getClaims, handle] at h
  split at h
  · cases h
  · split at h
    · cases h
    · split at h
      · split at h
        · cases h
        · split at h <;> cases h
      · cases h

/-- Claims are those that `verify` returned, and the checker let them through. -/
theorem Pending.answer_eq_claims (h : pending.answer p now o = .claims claims) :
    verifyWith p pending.verifier pending.token now o = some (.ok claims) ∧
      pending.guard.check claims = .ok claims := by
  simp only [Pending.answer] at h
  split at h
  · cases h
  · simp only [handle] at h
    split at h
    · cases h
    · split at h <;> cases h
  · rename_i claims' hverify
    split at h
    · rename_i hcheck
      obtain rfl := Answer.claims.inj h
      obtain rfl := Guard.eq_of_check_eq_ok hcheck
      exact ⟨hverify, hcheck⟩
    · cases h

end Rules
end MestoryCore.Auth
