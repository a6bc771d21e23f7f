import MestoryCore.Auth.Authentication
import MestoryCore.Auth.Handling
import Mathlib.Data.Rat.Floor

/-!
# The lifetime of a token and of its denylist entry

`remaining_seconds` is the time to live of the denylist entry of a revoked token.
The entry may expire no earlier than the token does, or the token would come back
to life. The method reads the wall clock in whole seconds, cut off towards zero,
so an entry lasts up to a second longer than its token, and never less.
-/

namespace MestoryCore.Auth

open Python Asyncio Transition

/-- `int(x)` of a float. -/
def truncate (x : ℚ) : Int := if 0 ≤ x then ⌊x⌋ else ⌈x⌉

/-- `remaining_seconds` at the time `now`. -/
def AccessTokenClaims.remainingSeconds (claims : AccessTokenClaims) (now : ℚ) : Int :=
  max (claims.exp - truncate now) 0

section Rules

variable {claims : AccessTokenClaims} {now later : ℚ}

theorem truncate_of_nonneg (h : 0 ≤ now) : truncate now = ⌊now⌋ := if_pos h

/-- The remaining time is that until the expiry, rounded up to whole seconds. -/
theorem AccessTokenClaims.remainingSeconds_bounds (h : 0 ≤ now) (alive : now ≤ claims.exp) :
    (claims.exp : ℚ) - now ≤ claims.remainingSeconds now ∧
      (claims.remainingSeconds now : ℚ) < claims.exp - now + 1 := by
  have hfloor : ⌊now⌋ ≤ claims.exp := by
    have hle : (⌊now⌋ : ℚ) ≤ claims.exp := (Int.floor_le now).trans alive
    exact_mod_cast hle
  have hvalue : claims.remainingSeconds now = claims.exp - ⌊now⌋ := by
    rw [remainingSeconds, truncate_of_nonneg h]
    omega
  have hle := Int.floor_le now
  have hlt := Int.lt_floor_add_one now
  rw [hvalue, Int.cast_sub]
  constructor <;> linarith

/-- Nothing remains exactly of a token that has expired. -/
theorem AccessTokenClaims.remainingSeconds_eq_zero_iff (h : 0 ≤ now) :
    claims.remainingSeconds now = 0 ↔ (claims.exp : ℚ) ≤ now := by
  rw [remainingSeconds, truncate_of_nonneg h, max_eq_right_iff, sub_nonpos, Int.le_floor]

/-- The remaining time never grows. -/
theorem AccessTokenClaims.remainingSeconds_antitone (h : 0 ≤ now) (hle : now ≤ later) :
    claims.remainingSeconds later ≤ claims.remainingSeconds now := by
  have hfloor := Int.floor_mono hle
  rw [remainingSeconds, remainingSeconds, truncate_of_nonneg h, truncate_of_nonneg (h.trans hle)]
  omega

end Rules

/-- `jwt.decode` succeeds only before the expiry that the payload states. -/
def DecodesUnexpired (jwt : Jwt) (v : Validators) : Prop :=
  ∀ token publicKey algorithms audience issuer require now payload,
    jwt.decode token publicKey algorithms audience issuer require now = .ok payload →
    ∀ exp, (Dict.get? payload "exp").bind v.int = some exp → now < exp

/-- An entry made at `since`, with the remaining time of the token as its time to
live, is alive at `now` and is gone a second after the expiry of the token. -/
structure Covers (claims : AccessTokenClaims) (since now : ℚ) : Prop where
  alive : now < since + claims.remainingSeconds since
  short : since + claims.remainingSeconds since < claims.exp + 1

section Runs

variable {p : Platform} {verifier : Option Verifier} {url : String} {ttl interval : Time}
variable {s₀ t u : Service} {a : ServiceAction} {as : List ServiceAction}
variable {es fs : List ServiceEvent} {request : Request} {claims : AccessTokenClaims}

/-- In every run, a token that is accepted has time left, and the denylist entry
made for it at any earlier moment would still be there: a revoked token is never
accepted after its entry has expired. -/
theorem covers_of_claims (unexpired : DecodesUnexpired p.jwt p.validators)
    (start : Started p.lib url ttl interval s₀.jwks)
    (visit : Visit (Service.step p verifier) s₀ as es t a fs u)
    (answered : .answered request (.claims claims) ∈ fs) :
    ∀ since, 0 ≤ since → since ≤ t.wall →
      Covers claims since t.wall ∧ 0 < claims.remainingSeconds t.wall ∧
        claims.remainingSeconds t.wall ≤ claims.remainingSeconds since := by
  have alive : t.wall < claims.exp := by
    rcases Service.lookup_of_answered start visit answered with refused |
      ⟨_, _, _, call, _, o, _, _, _, _, _, _, hanswer⟩
    · exact (getClaims_ne_claims refused).elim
    · obtain ⟨hverify, _⟩ := Pending.answer_eq_claims hanswer
      obtain ⟨_, _, hclaims⟩ := verifyWith_eq_ok hverify
      obtain ⟨payload, hdecode, _, hvalues⟩ := verifyAccessToken_eq_ok hclaims
      exact unexpired _ _ _ _ _ _ _ _ hdecode _ hvalues.exp
  intro since hsince hearlier
  have hbounds := claims.remainingSeconds_bounds hsince (hearlier.trans alive.le)
  refine ⟨⟨by linarith, by linarith⟩, ?_, claims.remainingSeconds_antitone hsince hearlier⟩
  have hzero := (claims.remainingSeconds_eq_zero_iff (hsince.trans hearlier)).not.mpr alive.not_ge
  have hnonneg : 0 ≤ claims.remainingSeconds t.wall := le_max_right _ _
  omega

end Runs

private theorem decodesUnexpired_sample : DecodesUnexpired .sample .sample := by
  intro token publicKey algorithms audience issuer require now payload h exp hexp
  simp only [Jwt.sample] at h
  split at h
  · rename_i accepted
    obtain ⟨_, _, _, _, _, _, unexpired⟩ := accepted
    obtain rfl := Except.ok.inj h
    obtain rfl : (900 : Int) = exp := Option.some.inj hexp
    exact_mod_cast unexpired
  · cases h

private def expiry? : ServiceEvent → Option Int
  | .answered _ (.claims claims) => some claims.exp
  | _ => none

/-- A token that expires at 900 is accepted at 100; an entry made for it at 40
lasts until 900. -/
theorem covers_of_claims_load :
    ∃ es t fs u request claims, Visit (Service.step .sample (some .sample)) .sample
        (oneRequest (.sample ["k1"])) es t (.client (.receive 0 (.ok (.sample ["k1"])))) fs u ∧
      .answered request (.claims claims) ∈ fs ∧ claims.exp = 900 ∧ Covers claims 40 t.wall := by
  have hrun : observe (Service.step .sample (some .sample)) (fun _ t fs _ =>
      (t.wall, fs.findSome? expiry?)) .sample [.request ⟨some "token-1", .getClaims⟩]
      (.client (.receive 0 (.ok (.sample ["k1"])))) = some (100, some 900) := by decide +kernel
  obtain ⟨es, t, fs, u, visit, hobserved⟩ := Visit.of_observe hrun
  obtain ⟨hwall, hexpiry⟩ := Prod.mk.inj hobserved
  obtain ⟨e, he, hexp⟩ := List.exists_of_findSome?_eq_some hexpiry
  cases e with
  | client => cases hexp
  | answered request answer =>
      cases answer with
      | claims claims =>
          have covers := covers_of_claims decodesUnexpired_sample .sample visit he 40 (by norm_num)
            (by rw [hwall]; norm_num)
          exact ⟨es, t, fs, u, request, claims, visit, he, Option.some.inj hexp, covers.1⟩
      | problem | unhandled | cancelled => cases hexp

end MestoryCore.Auth
