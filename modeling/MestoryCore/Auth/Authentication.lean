import MestoryCore.Auth.Cache
import MestoryCore.Auth.Service

/-!
# Who gets claims

A request that is answered with claims carried a token that verifies under a key
which the last good document publishes for the `kid` in the token's header. The
guarantees of PyJWT are an assumption about `decode`, in terms of relations that
this development does not interpret: what it means to be signed, to match an
audience or an issuer, and to be expired.
-/

namespace MestoryCore.Auth

open Python Asyncio Transition

/-- What a decoded token may be known to satisfy. -/
structure TokenRules where
  signed (token publicKey algorithm : String) : Dict → Prop
  audience : Dict → String → Prop
  issuer : Dict → String → Prop
  expired : Dict → ℚ → Prop

/-- `jwt.decode` succeeds only for a token whose signature verifies under the
key with one of the algorithms, whose audience and issuer match, which carries
the required claims, and which is not expired. -/
def DecodeSound (jwt : Jwt) (rules : TokenRules) : Prop :=
  ∀ token publicKey algorithms audience issuer require now payload,
    jwt.decode token publicKey algorithms audience issuer require now = .ok payload →
    (∃ algorithm ∈ algorithms, rules.signed token publicKey algorithm payload) ∧
      rules.audience payload audience ∧ rules.issuer payload issuer ∧
      (∀ claim ∈ require, (Dict.get? payload claim).isSome) ∧ ¬ rules.expired payload now

/-- The token has a `kid` for which the last installed document publishes a key,
and it verifies under that key for this verifier at this time: `payload` is what
it says. -/
structure Verified (p : Platform) (rules : TokenRules) (verifier : Verifier) (h : List LoadEvent)
    (now : ℚ) (token : String) (payload : Dict) : Prop where
  key : ∃ header kid number time document jwk publicKey,
    p.jwt.getUnverifiedHeader token = .ok header ∧ header.kid? = some kid ∧ kid ≠ "" ∧
    latest LoadEvent.install? h = some (number, time, document) ∧
    lastEntry document kid = some jwk ∧ toPem p.lib jwk = .ok publicKey ∧
    rules.signed token publicKey "RS256" payload
  audience : rules.audience payload verifier.audience
  issuer : rules.issuer payload verifier.issuer
  required : ∀ claim ∈ requiredClaims, (Dict.get? payload claim).isSome
  unexpired : ¬ rules.expired payload now
  type : Dict.get? payload "type" = some (.str "access")

variable {p : Platform} {rules : TokenRules} {verifier : Option Verifier} {url : String}
variable {ttl interval : Time} {s₀ t u : Service} {a : ServiceAction} {as : List ServiceAction}
variable {es fs : List ServiceEvent}

/-- Every request that is answered with claims, whatever its dependency, carried
a verified token, has the validated values of that token's payload as its
claims, and was let through by its own checker. -/
theorem verified_of_claims (sound : DecodeSound p.jwt rules)
    (start : Started p.lib url ttl interval s₀.jwks)
    (visit : Visit (Service.step p verifier) s₀ as es t a fs u) {request : Request}
    {claims : AccessTokenClaims} (answered : .answered request (.claims claims) ∈ fs) :
    ∃ settings token payload, verifier = some settings ∧ request.credentials = some token ∧
      Verified p rules settings (history (clientEvents (es ++ fs))) t.wall token payload ∧
      ClaimsOf p.validators payload claims ∧ request.guard.check claims = .ok claims := by
  rcases Service.lookup_of_answered start visit answered with refused |
    ⟨bs, b, gs, call, time, o, _, hvisit, hevents, ended, selected, rfl, hanswer⟩
  · exact (getClaims_ne_claims refused).elim
  obtain ⟨hverifier, hkid⟩ := selected
  obtain ⟨hverify, hcheck⟩ := Pending.answer_eq_claims hanswer
  obtain ⟨publicKey, rfl, hclaims⟩ := verifyWith_eq_ok hverify
  obtain ⟨payload, hdecode, htype, hvalues⟩ := verifyAccessToken_eq_ok hclaims
  obtain ⟨header, hheader, hfound, hne⟩ := selectKid_eq_ok hkid
  obtain ⟨⟨algorithm, halgorithm, signed⟩, audience, issuer, required, unexpired⟩ :=
    sound _ _ _ _ _ _ _ _ hdecode
  obtain rfl : algorithm = jwtAlgorithm := by simpa using halgorithm
  -- The key was in the cache when the lookup ended, so the current document has it.
  obtain ⟨number, installedAt, document, jwk, hcurrent, hentry, hpem⟩ :=
    exists_entry_of_returned start hvisit ended
  rw [← hevents, ← clientEvents_append] at hcurrent
  refine ⟨_, _, payload, hverifier, rfl, ⟨?_, audience, issuer, required, unexpired, htype⟩,
    hvalues, hcheck⟩
  exact ⟨header, call.kid, number, installedAt, document, jwk, publicKey, hheader, hfound, hne,
    hcurrent, hentry, hpem, signed⟩

/-- A request that was answered with claims, and the token it carried. -/
private def claimsOf? : ServiceEvent → Option (Option String × AccessTokenClaims)
  | .answered request (.claims claims) => some (request.credentials, claims)
  | _ => none

/-- The rules that the tokens of the closed runs satisfy. -/
private def sampleRules : TokenRules where
  signed token publicKey algorithm payload :=
    token = "token-1" ∧ publicKey = "-----BEGIN PUBLIC KEY-----\nk1\n-----END PUBLIC KEY-----\n" ∧
      algorithm = "RS256" ∧ payload = samplePayload
  audience payload audience := Dict.get? payload "aud" = some (.str audience)
  issuer payload issuer := Dict.get? payload "iss" = some (.str issuer)
  expired payload now := payload = samplePayload ∧ 900 ≤ now

private theorem decodeSound_sample : DecodeSound .sample sampleRules := by
  intro token publicKey algorithms audience issuer require now payload h
  simp only [Jwt.sample] at h
  split at h
  · rename_i accepted
    obtain ⟨rfl, rfl, halgorithm, rfl, rfl, required, unexpired⟩ := accepted
    obtain rfl := Except.ok.inj h
    exact ⟨⟨"RS256", halgorithm, rfl, rfl, rfl, rfl⟩, rfl, rfl, required,
      fun expired => absurd unexpired expired.2.not_gt⟩
  · cases h

/-- A request that needs a permission is let through with the first load. -/
theorem verified_of_claims_load :
    ∃ es t fs u request token payload claims,
      Visit (Service.step .sample (some .sample)) .sample
        ([.request ⟨some "token-1", .requirePermissions {.userReadSelf} (by simp)⟩] ++
          [.client (.receive 0 (.ok (.sample ["k1"])))]) es t
        (.client (.receive 0 (.ok (.sample ["k1"])))) fs u ∧
      .answered request (.claims claims) ∈ fs ∧ request.credentials = some token ∧
      Verified .sample sampleRules .sample (history (clientEvents (es ++ fs))) t.wall token
        payload := by
  have hrun : observe (Service.step .sample (some .sample)) (fun _ _ fs _ =>
      fs.findSome? claimsOf?) .sample
      [.request ⟨some "token-1", .requirePermissions {.userReadSelf} (by simp)⟩]
      (.client (.receive 0 (.ok (.sample ["k1"])))) =
      some (some (some "token-1", ⟨⟨0⟩, ⟨0⟩, ["user"], true, false, 0, 900⟩)) := by
    decide +kernel
  obtain ⟨es, t, fs, u, visit, hobserved⟩ := Visit.of_observe hrun
  obtain ⟨e, he, hclaims⟩ := List.exists_of_findSome?_eq_some hobserved
  cases e with
  | client => cases hclaims
  | answered request answer =>
      cases answer with
      | claims claims =>
          obtain ⟨settings, token, payload, hsettings, htoken, verified, _⟩ :=
            verified_of_claims decodeSound_sample .sample visit he
          obtain rfl := Option.some.inj hsettings
          exact ⟨es, t, fs, u, request, token, payload, claims, visit, he, htoken, verified⟩
      | problem | unhandled | cancelled => cases hclaims

end MestoryCore.Auth
