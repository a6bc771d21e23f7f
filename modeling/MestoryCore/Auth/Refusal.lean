import MestoryCore.Auth.Cache
import MestoryCore.Auth.Handling

/-!
# Every refusal has its reason

The error responses of a service are few, and each of them names its reason. 401
is for a header or a token with which something is wrong: it has no key, or fails
under the key that the current document publishes for it. 503 is sent only while
the last load of the key source stands failed and no key for the token is held,
and 403 only to the owner of a token that verified.

`Missing` says when a key is missing. That is not always the fault of the token:
while the throttle window of an attempt is open nobody asks the source again, so
a key that it has published since is missing too, and after a first attempt that
was cancelled every key is.
-/

namespace MestoryCore.Auth

open Python Asyncio Transition

/-- Why a lookup of `kid` that ends at `now` finds no key after the loads `h`. -/
inductive Missing (h : List LoadEvent) (interval now : Time) (kid : String) : Prop where
  /-- The document that was loaded at this moment has no entry for it. -/
  | unlisted {number : Nat} {document : Json}
      (loaded : latest LoadEvent.result? h = some (number, .succeeded))
      (current : latest LoadEvent.install? h = some (number, now, document))
      (absent : lastEntry document kid = none)
  /-- The current document has no entry for it, and the throttle window of the
  last attempt is open, however that attempt ended. -/
  | throttled {last number : Nat} {time mark : Time} {result : Result} {document : Json}
      (current : latest LoadEvent.install? h = some (last, time, document))
      (absent : lastEntry document kid = none)
      (attempt : latest LoadEvent.mark? h = some (number, mark))
      (ended : latest LoadEvent.result? h = some (number, result)) (window : now - mark < interval)
  /-- No load has run to completion, and the throttle window of the last attempt,
  which was cancelled, is open. -/
  | cold {number : Nat} {mark : Time} (incomplete : latest LoadEvent.completion? h = none)
      (attempt : latest LoadEvent.mark? h = some (number, mark))
      (ended : latest LoadEvent.result? h = some (number, .cancelled))
      (window : now - mark < interval)

/-- The document that is current after the loads `h` publishes this key for the
`kid` of the token. -/
def Published (p : Platform) (h : List LoadEvent) (token publicKey : String) : Prop :=
  ∃ kid number time document jwk, selectKid p token = .ok kid ∧
    latest LoadEvent.install? h = some (number, time, document) ∧
    lastEntry document kid = some jwk ∧ toPem p.lib jwk = .ok publicKey

/-- What is wrong with a token, as the exception that `get_claims` answers with
401. The lookup of its key ended at `tick`, after the loads `h`. -/
inductive Rejection (p : Platform) (verifier : Verifier) (h : List LoadEvent)
    (interval tick : Time) (token : String) (now : ℚ) : Exn → Prop where
  | undecodable {exc : LibraryExn} (raised : p.jwt.getUnverifiedHeader token = .error exc)
      (decode : exc.1.cls.isDecodeError = true) :
      Rejection p verifier h interval tick token now (.invalidToken (p.lib.str exc.1) exc.1)
  | header {exc : LibraryExn} (raised : p.jwt.getUnverifiedHeader token = .error exc) :
      Rejection p verifier h interval tick token now exc.1
  | noKid {header : Header} (read : p.jwt.getUnverifiedHeader token = .ok header)
      (missing : header.kid? = none ∨ header.kid? = some "") :
      Rejection p verifier h interval tick token now
        (.invalidToken "Token header carries no 'kid'." none)
  | unknownKey {kid : String} (selected : selectKid p token = .ok kid)
      (missing : Missing h interval tick kid) :
      Rejection p verifier h interval tick token now
        (.invalidToken (p.lib.str (unknownSigningKey p.lib kid)) (unknownSigningKey p.lib kid))
  | decode {publicKey : String} {exc : LibraryExn} (published : Published p h token publicKey)
      (raised : p.jwt.decode token publicKey [jwtAlgorithm] verifier.audience verifier.issuer
        requiredClaims now = .error exc) :
      Rejection p verifier h interval tick token now exc.1
  | type {publicKey : String} {payload : Dict} {type : Json}
      (published : Published p h token publicKey)
      (decoded : p.jwt.decode token publicKey [jwtAlgorithm] verifier.audience verifier.issuer
        requiredClaims now = .ok payload) (other : isAccess payload = false)
      (found : (Dict.get? payload "type").getD .null = type) :
      Rejection p verifier h interval tick token now (.invalidToken
        (s!"Expected token type {p.lib.repr (.str tokenTypeAccess)}, " ++
          s!"got {p.lib.repr type}.") none)
  | claims {publicKey : String} {payload : Dict} (published : Published p h token publicKey)
      (decoded : p.jwt.decode token publicKey [jwtAlgorithm] verifier.audience verifier.issuer
        requiredClaims now = .ok payload) (access : isAccess payload = true)
      (invalid : claims? p.validators payload = none) :
      Rejection p verifier h interval tick token now
        (.invalidToken "Token claims failed validation." (p.validators.error payload).1)

/-- The error responses to a request that ends at `tick` of the monotonic clock and
at `now` of the wall clock, after the loads `h`. -/
inductive Explained (p : Platform) (verifier : Verifier) (request : Request) (h : List LoadEvent)
    (interval tick : Time) (now : ℚ) : HttpException → Prop where
  | notAuthenticated (missing : request.credentials = none) :
      Explained p verifier request h interval tick now (unauthorized "not_authenticated"
        "Authorization header with a Bearer token is required.")
  | invalidToken {token : String} {exn : Exn} (carried : request.credentials = some token)
      (rejection : Rejection p verifier h interval tick token now exn) :
      Explained p verifier request h interval tick now
        (unauthorized "invalid_token" (p.lib.str exn))
  | unavailable {token kid : String} {error : Raised} (carried : request.credentials = some token)
      (selected : selectKid p token = .ok kid)
      (failed : lastFailure h = some error) (source : error.exn.cls.isSourceError = true)
      (unheld : ∀ publicKey, ¬ Published p h token publicKey) :
      Explained p verifier request h interval tick now (problem 503 "auth_unavailable"
        ("Unable to verify the token: the signing key source is unavailable. " ++
          "Try again shortly."))
  | forbidden {token publicKey : String} {claims : AccessTokenClaims} {exc : HttpException}
      (carried : request.credentials = some token) (published : Published p h token publicKey)
      (verified : verifyAccessToken p.lib p.jwt p.validators token publicKey verifier.audience
        verifier.issuer now = .ok claims)
      (refused : request.guard.check claims = .error exc) :
      Explained p verifier request h interval tick now exc

/-! ## The exceptions of the verifier -/

section Rules

variable {p : Platform} {verifier : Verifier} {h : List LoadEvent} {interval tick : Time}
variable {token publicKey : String} {now : ℚ} {exn : Exn}

theorem rejection_of_selectKid (refused : selectKid p token = .error exn) :
    Rejection p verifier h interval tick token now exn := by
  simp only [selectKid] at refused
  split at refused
  · rename_i exc hexc
    split at refused
    · rename_i hdecode
      obtain rfl := Except.error.inj refused
      exact .undecodable hexc hdecode
    · obtain rfl := Except.error.inj refused
      exact .header hexc
  · rename_i header hheader
    split at refused
    · rename_i kid hkid
      split at refused
      · rename_i hempty
        obtain rfl := Except.error.inj refused
        exact .noKid hheader (.inr (hempty ▸ hkid))
      · cases refused
    · rename_i hkid
      obtain rfl := Except.error.inj refused
      exact .noKid hheader (.inl hkid)

theorem rejection_of_verifyAccessToken (published : Published p h token publicKey)
    (refused : verifyAccessToken p.lib p.jwt p.validators token publicKey verifier.audience
      verifier.issuer now = .error exn) :
    Rejection p verifier h interval tick token now exn := by
  rcases Except.bind_eq_error_iff.mp refused with hdecode | ⟨payload, hdecode, refused⟩
  · obtain ⟨exc, raised, rfl⟩ := Except.mapError_eq_error_iff.mp hdecode
    exact .decode published raised
  · have decoded := Except.mapError_eq_ok_iff.mp hdecode
    split at refused
    · rename_i haccess
      simp only [modelValidate] at refused
      cases hclaims : claims? p.validators payload with
      | some claims => simp [hclaims] at refused
      | none =>
          obtain rfl : Exn.invalidToken _ _ = exn := by simpa [hclaims] using refused
          exact .claims published decoded haccess hclaims
    · rename_i hother
      obtain rfl : Exn.invalidToken _ _ = exn := by simpa using refused
      exact .type published decoded (by simpa using hother) rfl

/-- Every rejection is an `InvalidTokenError` when the libraries raise no other
exceptions on tokens. -/
theorem Rejection.isInvalidToken {as : List ServiceAction} (documented : Documented p as)
    (rejection : Rejection p verifier h interval tick token now exn) :
    exn.cls.isInvalidToken = true := by
  cases rejection with
  | undecodable | noKid | unknownKey | type | claims => rfl
  | header raised => exact documented.header _ _ raised
  | decode _ raised => exact documented.decode _ _ _ _ _ _ _ _ raised

theorem explained_of_rejection {as : List ServiceAction} (documented : Documented p as)
    {request : Request} {exc : HttpException} (carried : request.credentials = some token)
    (rejection : Rejection p verifier h interval tick token now exn)
    (hanswer : handle p.lib exn = .problem exc) :
    Explained p verifier request h interval tick now exc := by
  simp only [handle, rejection.isInvalidToken documented, if_true] at hanswer
  obtain rfl := Answer.problem.inj hanswer
  exact .invalidToken carried rejection

section Responses

variable {as : List ServiceAction} {request : Request} {pending : Pending} {kid : String}
variable {raised error : Raised} {exc : HttpException}

/-- A request that is refused without a lookup. -/
theorem explained_of_getClaims (documented : Documented p as)
    (refused : getClaims p (some verifier) request = .error (.problem exc)) :
    Explained p verifier request h interval tick now exc := by
  simp only [getClaims] at refused
  split at refused
  · rename_i hmissing
    obtain rfl := Answer.problem.inj (Except.error.inj refused)
    exact .notAuthenticated hmissing
  · rename_i token hcarried
    split at refused
    · rename_i exn hkid
      exact explained_of_rejection documented hcarried (rejection_of_selectKid hkid)
        (Except.error.inj refused)
    · cases refused

/-- A request whose lookup returned the published key. -/
theorem explained_of_returned (documented : Documented p as)
    (published : Published p h pending.token publicKey)
    (hanswer : pending.answer p now (.returned publicKey) = .problem exc) :
    Explained p pending.verifier pending.request h interval tick now exc := by
  simp only [Pending.answer, verifyWith] at hanswer
  cases hverify : verifyAccessToken p.lib p.jwt p.validators pending.token publicKey
      pending.verifier.audience pending.verifier.issuer now with
  | error exn =>
      simp only [hverify] at hanswer
      exact explained_of_rejection documented rfl
        (rejection_of_verifyAccessToken published hverify) hanswer
  | ok claims =>
      simp only [hverify] at hanswer
      split at hanswer
      · cases hanswer
      · rename_i hcheck
        obtain rfl := Answer.problem.inj hanswer
        exact .forbidden rfl published hverify hcheck

/-- A request whose lookup was told that the key is unknown. -/
theorem explained_of_missing (documented : Documented p as)
    (selected : selectKid p pending.token = .ok kid) (missing : Missing h interval tick kid)
    (hunknown : raised.exn = unknownSigningKey p.lib kid)
    (hanswer : pending.answer p now (.raised raised) = .problem exc) :
    Explained p pending.verifier pending.request h interval tick now exc := by
  have hclass : raised.exn.cls = .unknownSigningKey := by
    rw [hunknown]
    rfl
  simp only [Pending.answer, verifyWith] at hanswer
  rw [if_pos hclass, hunknown] at hanswer
  exact explained_of_rejection documented rfl (.unknownKey selected missing) hanswer

/-- A request whose lookup raised the failure of a load. A `TypeError` is answered
by no branch. -/
theorem explained_of_failed (selected : selectKid p pending.token = .ok kid)
    (failed : lastFailure h = some error) (hcls : raised.exn.cls = error.exn.cls)
    (kinds : error.exn.cls.isSourceError = true ∨ error.exn.cls = .typeError)
    (unheld : error.exn.cls.isSourceError = true →
      ∀ publicKey, ¬ Published p h pending.token publicKey)
    (hanswer : pending.answer p now (.raised raised) = .problem exc) :
    Explained p pending.verifier pending.request h interval tick now exc := by
  have hown : raised.exn.cls ≠ .unknownSigningKey := by
    rw [hcls]
    rintro hunknown
    rcases kinds with source | htype
    · rw [hunknown] at source
      cases source
    · rw [hunknown] at htype
      cases htype
  simp only [Pending.answer, verifyWith] at hanswer
  rw [if_neg hown] at hanswer
  simp only [handle, hcls] at hanswer
  rcases kinds with source | htype
  · rw [ExnClass.isInvalidToken_of_isSourceError source, source] at hanswer
    obtain rfl := Answer.problem.inj hanswer
    exact .unavailable rfl selected failed source (unheld source)
  · rw [htype] at hanswer
    cases hanswer

end Responses
end Rules

/-! ## The exceptions of the client -/

section Client

variable {τ : Type} {lib : Library} {url : String} {ttl interval : Time} {s : Sys τ}
variable {es : List (Event τ)} {kid : String}

/-- Step 4 raises for a `kid` that is not held: an unknown key, or a copy of the
remembered error. On a cold cache it prefers the error. -/
theorem JwksClient.classify_eq_raised {c : JwksClient τ} {exc : Nat} {raised : Raised}
    (h : c.classify lib kid exc = .raised raised) :
    c.lookup kid = none ∧
      ((raised.exn = unknownSigningKey lib kid ∧ (c.keys = ∅ → c.lastError = none)) ∨
        ∃ error, c.lastError = some error ∧ raised.exn.cls = error.exn.cls) := by
  simp only [classify] at h
  split at h
  · cases h
  · rename_i miss
    refine ⟨miss, ?_⟩
    split at h
    · split at h
      · rename_i error herror
        obtain rfl := Outcome.raised.inj h
        exact .inr ⟨error, herror, respawn_cls lib error.exn⟩
      · rename_i forgotten
        obtain rfl := Outcome.raised.inj h
        exact .inl ⟨rfl, fun _ => forgotten⟩
    · rename_i warm
      obtain rfl := Outcome.raised.inj h
      exact .inl ⟨rfl, fun cold => absurd cold warm⟩

/-- A failure of the source surfaces only for a `kid` that is not held. -/
theorem JwksClient.lookup_of_fallBack_eq_raised {c : JwksClient τ} {error exc : Raised}
    (h : c.fallBack kid error = .raised exc) (source : error.exn.cls.isSourceError = true) :
    c.lookup kid = none := by
  cases hkey : c.lookup kid with
  | none => rfl
  | some key => simp [fallBack, source, hkey] at h

/-- The current document has no entry for a `kid` that is not held. -/
theorem HoldsLastDocument.absent (h : HoldsLastDocument lib url es s)
    (miss : s.client.lookup kid = none) {number : Nat} {time : Time} {document : Json}
    (current : latest LoadEvent.install? (history es) = some (number, time, document)) :
    lastEntry document kid = none :=
  (lookup_eq_none_iff_of_parseKeys (h.document number time document current).1).mp miss

/-- A cold cache that remembers no error has seen no load run to completion. -/
theorem Known.incomplete (known : Known lib url ttl interval es s) (cold : s.client.keys = ∅)
    (forgotten : s.client.lastError = none) :
    latest LoadEvent.completion? (history es) = none := by
  have hjoin : (latest LoadEvent.completion? (history es)).join = none :=
    known.cached.error.symm.trans forgotten
  cases hlatest : latest LoadEvent.completion? (history es) with
  | none => rfl
  | some completion =>
      rw [hlatest] at hjoin
      obtain rfl : completion = none := hjoin
      obtain ⟨e, he, hcompletion⟩ := exists_mem_of_latest hlatest
      cases e with
      | installed number time document =>
          -- An installed document stays current or is replaced by another one.
          cases hinstall : latest LoadEvent.install? (history es) with
          | none => simpa using latest_eq_none_iff.mp hinstall _ he
          | some last =>
              have document := known.holdsLastDocument.document _ _ _ hinstall
              exact absurd cold (parseKeys_eq_ok document.1).2
      | sent | failed | aborted => simp at hcompletion

/-- A lookup that may not load and finds no key is missing it. -/
theorem Known.missing (known : Known lib url ttl interval es s) (idle : s.flights = [])
    (window : s.client.mayRefetch s.now = false) (miss : s.client.lookup kid = none)
    (forgotten : s.client.keys = ∅ → s.client.lastError = none) :
    Missing (history es) interval s.now kid := by
  have hinterval := known.guarded.interval_eq
  obtain ⟨mark, hmark, hwindow⟩ : ∃ mark, s.client.lastAttemptAt = some mark ∧
      s.now - mark < interval := by
    simp only [JwksClient.mayRefetch] at window
    split at window
    · cases window
    · rename_i mark hmark
      rw [hinterval] at window
      exact ⟨mark, hmark, by simpa using window⟩
  have attempted : (latest LoadEvent.mark? (history es)).map Prod.snd = some mark :=
    known.timed.mark.symm.trans hmark
  obtain ⟨⟨number, _⟩, attempt, rfl⟩ := Option.map_eq_some_iff.mp attempted
  obtain ⟨result, ended, _⟩ := known.timed.settled (by simp [Sys.loads, idle]) number _ attempt
  cases hinstall : latest LoadEvent.install? (history es) with
  | some last =>
      exact .throttled hinstall (known.holdsLastDocument.absent miss hinstall) attempt ended hwindow
  | none =>
      have cold := known.holdsLastDocument.cold hinstall
      have incomplete := known.incomplete cold (forgotten cold)
      obtain ⟨e, he, hresult⟩ := exists_mem_of_latest ended
      have hcompletion := latest_eq_none_iff.mp incomplete e he
      cases e with
      | sent => simp at hresult
      | installed | failed => simp at hcompletion
      | aborted aborted =>
          obtain ⟨rfl, rfl⟩ : aborted = number ∧ .cancelled = result := by simpa using hresult
          exact .cold incomplete attempt ended hwindow

/-- A call that raises is missing its key, or the last completed load failed with
an exception of the class that it raises. A failure of the source surfaces only
if the key is not held. -/
theorem raised_cases {s₀ t u : Sys τ} {a : Action τ} {as : List (Action τ)}
    {fs : List (Event τ)} (start : Started lib url ttl interval s₀)
    (visit : Visit (Sys.step lib) s₀ as es t a fs u) {call : Call τ} {time : Time} {exc : Raised}
    (ended : .ended call time (.raised exc) ∈ fs) :
    (exc.exn = unknownSigningKey lib call.kid ∧
        Missing (history (es ++ fs)) interval u.now call.kid) ∨
      ∃ error, lastFailure (history (es ++ fs)) = some error ∧ exc.exn.cls = error.exn.cls ∧
        (error.exn.cls.isSourceError = true → u.client.lookup call.kid = none) := by
  obtain ⟨move, before, after⟩ := known_of_visit start visit
  obtain ⟨_, exit⟩ := move.exit before.guarded ended
  generalize ho : Outcome.raised exc = o at exit
  cases exit with
  | cancelled | hit => cases ho
  | unloaded _ unneeded idle same now =>
      obtain ⟨lock, hclient⟩ := same
      obtain ⟨miss, reason⟩ := JwksClient.classify_eq_raised ho.symm
      have miss' : u.client.lookup call.kid = none := by rwa [hclient, JwksClient.lookup_lock]
      rcases reason with ⟨hunknown, forgotten⟩ | ⟨error, hlast, hcls⟩
      · rw [JwksClient.shouldAttemptFetch_of_lookup_eq_none miss] at unneeded
        refine .inl ⟨hunknown, after.missing idle ?_ miss' ?_⟩
        · rwa [hclient, now]
        · rwa [hclient]
      · refine .inr ⟨error, ?_, hcls, fun _ => miss'⟩
        have hremembered : u.client.lastError = lastFailure (history (es ++ fs)) :=
          after.cached.error
        rwa [← hremembered, hclient]
  | @loaded number document installed =>
      obtain ⟨miss, reason⟩ := JwksClient.classify_eq_raised ho.symm
      rcases reason with ⟨hunknown, _⟩ | ⟨error, hlast, hcls⟩
      · have current : latest LoadEvent.install? (history (es ++ fs)) =
            some (number, u.now, document) := by
          simp [installed]
        have loaded : latest LoadEvent.result? (history (es ++ fs)) =
            some (number, .succeeded) := by
          simp [installed]
        exact .inl ⟨hunknown, .unlisted loaded current
          (after.holdsLastDocument.absent miss current)⟩
      · exact .inr ⟨error, after.cached.error.symm.trans hlast, hcls, fun _ => miss⟩
  | failed _ _ _ failed =>
      obtain rfl := JwksClient.eq_of_fallBack_eq_raised ho.symm
      exact .inr ⟨_, by simp [lastFailure, failed], rfl,
        JwksClient.lookup_of_fallBack_eq_raised ho.symm⟩

end Client

/-! ## The responses of a service -/

section Service

variable {p : Platform} {settings : Verifier} {url : String} {ttl interval : Time}
variable {s₀ t u : Service} {a : ServiceAction} {as : List ServiceAction}
variable {es fs : List ServiceEvent} {request : Request}

/-- A load fails as the source can fail, or with the bare `TypeError` of an
unhashable `kid`. -/
theorem cls_of_fetch_eq_error (documented : Documented p as) {id : Nat}
    {got : Except LibraryExn Response} (hreceived : .client (.receive id got) ∈ as) {exn : Exn}
    (h : fetch p.lib url got = .error exn) :
    exn.cls.isSourceError = true ∨ exn.cls = .typeError := by
  by_cases served : ServesUnhashableKid p.lib got
  · obtain ⟨message, hfetch⟩ : ∃ message, fetch p.lib url got = .error (.typeError message) :=
      fetch_of_servesUnhashableKid served
    obtain rfl := Except.error.inj (hfetch.symm.trans h)
    exact .inr rfl
  · exact .inl (isSourceError_of_fetch documented hreceived served h)

/-- A returned key is published for the `kid` of the token that asked for it. -/
theorem published_of_returned {bs : List (Action Pending)} {b : Action Pending}
    {hs gs : List (Event Pending)} {v w : Sys Pending} {call : Call Pending} {time : Time}
    {publicKey : String} (start : Started p.lib url ttl interval s₀.jwks)
    (visit : Visit (Sys.step p.lib) s₀.jwks bs hs v b gs w)
    (selected : selectKid p call.tag.token = .ok call.kid)
    (ended : .ended call time (.returned publicKey) ∈ gs) :
    Published p (history (hs ++ gs)) call.tag.token publicKey := by
  obtain ⟨number, installedAt, document, jwk, hcurrent, hentry, hpem⟩ :=
    exists_entry_of_returned start visit ended
  exact ⟨call.kid, number, installedAt, document, jwk, selected, hcurrent, hentry, hpem⟩

/-- A `kid` that is not held has no published key. -/
theorem HoldsLastDocument.not_published {gs : List (Event Pending)} {w : Sys Pending}
    {token kid : String} (h : HoldsLastDocument p.lib url gs w)
    (selected : selectKid p token = .ok kid) (miss : w.client.lookup kid = none)
    (publicKey : String) : ¬ Published p (history gs) token publicKey := by
  rintro ⟨kid', number, time, document, jwk, hkid, hcurrent, hentry, _⟩
  obtain rfl := Except.ok.inj (selected.symm.trans hkid)
  rw [h.absent miss hcurrent] at hentry
  cases hentry

/-- Every error response is explained: 401 by a missing header or by what is wrong
with the token and its key, 503 by the failure of the last completed load, and 403
by a checker that refused the claims of a token that verified under its key. -/
theorem explained_of_answered (documented : Documented p as)
    (start : Started p.lib url ttl interval s₀.jwks)
    (visit : Visit (Service.step p (some settings)) s₀ as es t a fs u) {exc : HttpException}
    (answered : .answered request (.problem exc) ∈ fs) :
    Explained p settings request (history (clientEvents (es ++ fs))) interval u.jwks.now t.wall
      exc := by
  rcases Service.lookup_of_answered start visit answered with refused |
    ⟨bs, b, gs, call, time, o, origin, hvisit, rfl, ended, selected, rfl, hanswer⟩
  · exact explained_of_getClaims documented refused
  obtain ⟨hsettings, hkid⟩ := selected
  obtain rfl := Option.some.inj hsettings
  rw [clientEvents_append]
  cases o with
  | cancelled => cases hanswer
  | returned publicKey =>
      exact explained_of_returned documented (published_of_returned start hvisit hkid ended) hanswer
  | raised raised =>
      rcases raised_cases start hvisit ended with ⟨hunknown, missing⟩ | ⟨error, failed, hcls, miss⟩
      · exact explained_of_missing documented hkid missing hunknown hanswer
      · obtain ⟨bs', initial, _, run⟩ := hvisit.run
        obtain ⟨id, got, hreceived, hfetch⟩ := received_of_lastFailure start run failed
        obtain ⟨a', ha', projects⟩ := origin _ (initial.subset hreceived)
        have kinds : error.exn.cls.isSourceError = true ∨ error.exn.cls = .typeError := by
          cases projects with
          | client => exact cls_of_fetch_eq_error documented ha' hfetch
        have held := (known_of_run start run).holdsLastDocument
        exact explained_of_failed hkid failed hcls kinds
          (fun source => held.not_published hkid (miss source)) hanswer

end Service

private def problem? : ServiceEvent → Option (Nat × HttpException)
  | .answered ⟨some "token-1", .getClaims⟩ (.problem exc) => some (exc.statusCode, exc)
  | _ => none

/-- The source serves a document without keys, and its only request gets 503. -/
theorem explained_of_answered_empty :
    ∃ es t fs u exc, Visit (Service.step .sample (some .sample)) .sample
        (oneRequest (.sample [])) es t (.client (.receive 0 (.ok (.sample [])))) fs u ∧
      exc.statusCode = 503 ∧
      Explained .sample .sample ⟨some "token-1", .getClaims⟩
        (history (clientEvents (es ++ fs))) 30 u.jwks.now t.wall exc := by
  have hrun : observe (Service.step .sample (some .sample)) (fun _ _ fs _ =>
      (fs.findSome? problem?).map Prod.fst) .sample [.request ⟨some "token-1", .getClaims⟩]
      (.client (.receive 0 (.ok (.sample [])))) = some (some 503) := by
    decide +kernel
  obtain ⟨es, t, fs, u, visit, hobserved⟩ := Visit.of_observe hrun
  obtain ⟨⟨status, exc⟩, hfound, rfl⟩ := Option.map_eq_some_iff.mp hobserved
  obtain ⟨e, he, hproblem⟩ := List.exists_of_findSome?_eq_some hfound
  simp only [problem?] at hproblem
  split at hproblem
  · obtain ⟨hstatus, rfl⟩ := Prod.mk.inj (Option.some.inj hproblem)
    exact ⟨es, t, fs, u, _, visit, hstatus,
      explained_of_answered (documented_sample rfl rfl) .sample visit he⟩
  · cases hproblem

end MestoryCore.Auth
