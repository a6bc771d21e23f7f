import MestoryCore.Auth.Outage
import MestoryCore.Auth.Service

/-!
# What the content of the source can do to a request

If the libraries raise only what they document, a request ends with claims, with
401 or with 503, and behind a checker also with 403. One content of the source
escapes this: an entry of `keys` whose `kid` is a list or an object. It is used
as a key of a dictionary after its own key was converted, and the `TypeError` of
that is neither wrapped like the other defects of a document nor caught anywhere.
-/

namespace MestoryCore.Auth

open Python Asyncio Transition

/-- The exceptions that the libraries document: those of `PyJWK.from_dict`, of
the two functions that read a token, of `http.get` and `raise_for_status`, and
of `response.json`. -/
structure Documented (p : Platform) (as : List ServiceAction) : Prop where
  fromDict : ∀ jwk exc, p.lib.fromDict jwk = .error exc → exc.1.cls.isKeyError = true
  header : ∀ token exc, p.jwt.getUnverifiedHeader token = .error exc →
    exc.1.cls.isInvalidToken = true
  decode : ∀ token publicKey algorithms audience issuer require now exc,
    p.jwt.decode token publicKey algorithms audience issuer require now = .error exc →
    exc.1.cls.isInvalidToken = true
  get : ∀ id exc, .client (.receive id (.error exc)) ∈ as → exc.1.cls.isHttpxError = true
  raiseForStatus : ∀ id response exc, .client (.receive id (.ok response)) ∈ as →
    response.raiseForStatus = .error exc → exc.1.cls.isHttpxError = true
  json : ∀ id response exc, .client (.receive id (.ok response)) ∈ as →
    response.json = .error exc → exc.1.cls.isValueError = true

/-- The request ends with claims, with 401 or with 503, or its checker refuses it. -/
def Answer.Handled (request : Request) : Answer → Prop
  | .claims _ => True
  | .problem exc => exc.statusCode = 401 ∨ exc.statusCode = 503 ∨
      (request.guard ≠ .getClaims ∧ exc.statusCode = 403)
  | .unhandled _ => False
  | .cancelled => False

section Handling

variable {p : Platform} {settings : Verifier} {url : String} {ttl interval : Time}
variable {s₀ s t u : Service} {a : ServiceAction} {as : List ServiceAction}
variable {es fs : List ServiceEvent} {request : Request} {answer : Answer}

theorem handled_of_handle {exn : Exn}
    (h : exn.cls.isInvalidToken = true ∨ exn.cls.isSourceError = true) :
    (handle p.lib exn).Handled request := by
  simp only [handle]
  split
  · exact .inl rfl
  · rename_i hinvalid
    have hsource : exn.cls.isSourceError = true := h.resolve_left hinvalid
    rw [if_pos hsource]
    exact .inr (.inl rfl)

/-- With a configured verifier a request that is answered at once is handled. -/
theorem handled_of_getClaims (documented : Documented p as)
    (h : getClaims p (some settings) request = .error answer) : answer.Handled request := by
  simp only [getClaims] at h
  split at h
  · obtain rfl := Except.error.inj h
    exact .inl rfl
  · split at h
    · rename_i exn hexn
      obtain rfl := Except.error.inj h
      apply handled_of_handle
      left
      rcases selectKid_eq_error hexn with hinvalid | ⟨exc, hheader, rfl⟩
      · exact hinvalid
      · exact documented.header _ _ hheader
    · cases h

/-- A request whose lookup ends as the source can make it end is handled. -/
theorem handled_of_answer (documented : Documented p as) {pending : Pending} {now : ℚ}
    {o : Outcome} (raised : ∀ exc, o = .raised exc →
      exc.exn.cls = .unknownSigningKey ∨ exc.exn.cls.isSourceError = true)
    (hanswer : pending.answer p now o = answer) (hcancel : answer ≠ .cancelled) :
    answer.Handled pending.request := by
  simp only [Pending.answer] at hanswer
  split at hanswer
  · exact absurd hanswer.symm hcancel
  · rename_i exn hverify
    rw [← hanswer]
    apply handled_of_handle
    rcases verifyWith_eq_error hverify with hinvalid | ⟨publicKey, exc, hdecode, rfl⟩ |
      ⟨exc, rfl, hknown, rfl⟩
    · exact .inl hinvalid
    · exact .inl (documented.decode _ _ _ _ _ _ _ _ hdecode)
    · exact .inr ((raised exc rfl).resolve_left hknown)
  · split at hanswer
    · rw [← hanswer]
      trivial
    · rename_i hcheck
      rw [← hanswer]
      exact .inr (.inr (Guard.eq_forbidden_of_check_eq_error hcheck))

/-- A load fails as the source can fail, unless it is served an unhashable `kid`. -/
theorem isSourceError_of_fetch (documented : Documented p as) {id : Nat}
    {got : Except LibraryExn Response} (hreceived : .client (.receive id got) ∈ as)
    (clean : ¬ ServesUnhashableKid p.lib got) {exn : Exn} (h : fetch p.lib url got = .error exn) :
    exn.cls.isSourceError = true := by
  cases LoadFailure.of_fetch h with
  | request raised =>
      subst raised
      exact ExnClass.isSourceError_of_isHttpxError (documented.get id _ hreceived)
  | status answered raised =>
      subst answered
      exact ExnClass.isSourceError_of_isHttpxError
        (documented.raiseForStatus id _ _ hreceived raised)
  | body answered raised other =>
      subst answered
      rw [documented.json id _ _ hreceived raised] at other
      cases other
  | conversion raised other =>
      rw [documented.fromDict _ _ raised] at other
      cases other
  | malformed cls =>
      rw [cls]
      rfl
  | unhashable served => exact absurd served clean

/-- A load that is served an unhashable `kid` ends its request unhandled. -/
theorem exists_unhandled {id : Nat} {got : Except LibraryExn Response}
    (visit : Visit (Service.step p (some settings)) s₀ as es t (.client (.receive id got)) fs u)
    (served : ServesUnhashableKid p.lib got) :
    ∃ request exn, .answered request (.unhandled exn) ∈ fs := by
  cases Service.Move.of_step visit.step_eq with
  | run projects stepped =>
      cases projects with
      | client noCall =>
          obtain ⟨message, hfetch⟩ : ∃ message,
              fetch p.lib t.jwks.client.url got = .error (.typeError message) :=
            fetch_of_servesUnhashableKid served
          cases Auth.Move.of_step stepped with
          | send entry => cases entry
          | install found fetched =>
              rw [hfetch] at fetched
              cases fetched
          | @fail _ f _ exn found fetched =>
              obtain rfl : Exn.typeError message = exn :=
                Except.error.inj (hfetch.symm.trans fetched)
              refine ⟨f.call.tag.request, .typeError message, mem_answers_iff.mpr ?_⟩
              refine ⟨f.call, t.jwks.now, _, .tail _ (.head _), rfl, ?_⟩
              rw [JwksClient.fallBack_of_not_isSourceError rfl]
              rfl

/-- Over every run of requests against a configured verifier, with libraries that
raise what they document: every request that is not cancelled ends with claims,
401 or 503, or is refused by its own checker, exactly when no load is served an
entry with an unhashable `kid`. -/
theorem handled_iff (documented : Documented p as)
    (start : Started p.lib url ttl interval s₀.jwks)
    (run : Run (Service.step p (some settings)) s₀ as es s) :
    (∀ es₁ t a fs u, Visit (Service.step p (some settings)) s₀ as es₁ t a fs u →
        ∀ request answer, .answered request answer ∈ fs → answer ≠ .cancelled →
          answer.Handled request) ↔
      ∀ id got, .client (.receive id got) ∈ as → ¬ ServesUnhashableKid p.lib got := by
  constructor
  · intro handled id got hreceived served
    obtain ⟨es₁, t, fs, u, visit⟩ := run.exists_visit_of_mem hreceived
    obtain ⟨request, exn, hanswered⟩ := exists_unhandled visit served
    exact handled es₁ t _ fs u visit request _ hanswered (by simp)
  · intro clean es₁ t a fs u visit request answer hanswered hcancel
    rcases Service.lookup_of_answered start visit hanswered with refused |
      ⟨bs, b, gs, call, time, o, origin, hvisit, _, ended, _, rfl, hanswer⟩
    · exact handled_of_getClaims documented refused
    · refine handled_of_answer documented ?_ hanswer hcancel
      rintro exc rfl
      refine cls_of_ended_raised start ?_ hvisit ended
      intro id got hb exn hfetch
      obtain ⟨a', ha', projects⟩ := origin _ hb
      cases projects with
      | client => exact isSourceError_of_fetch documented ha' (clean id got ha') hfetch

end Handling

/-! ## The runs of one request -/

/-- An answer with a readable key whose `kid` is an empty list. -/
def Response.unhashable : Response where
  raiseForStatus := .ok ()
  json := .ok (.dict [("keys", .list [.dict
    [("kid", .list []), ("kty", .str "RSA"), ("n", .str "AQAD"), ("e", .str "Aw")]])])

/-- A request, and the answer of the source that its lookup awaits. -/
def oneRequest (response : Response) : List ServiceAction :=
  [.request ⟨some "token-1", .getClaims⟩, .client (.receive 0 (.ok response))]

theorem documented_sample {response : Response} (status : response.raiseForStatus = .ok ())
    {document : Json} (body : response.json = .ok document) :
    Documented .sample (oneRequest response) := by
  refine ⟨?_, ?_, ?_, ?_, ?_, ?_⟩
  · intro jwk exc h
    simp only [Platform.sample, Library.sample] at h
    split at h
    · cases h
    · obtain rfl := Except.error.inj h
      rfl
  · intro token exc h
    simp only [Platform.sample, Jwt.sample] at h
    split at h
    · cases h
    · obtain rfl := Except.error.inj h
      rfl
  · intro token publicKey algorithms audience issuer require now exc h
    simp only [Platform.sample, Jwt.sample] at h
    split at h
    · cases h
    · obtain rfl := Except.error.inj h
      rfl
  · intro id exc h
    simp [oneRequest] at h
  · intro id response' exc h hraised
    obtain ⟨_, rfl⟩ : id = 0 ∧ response' = response := by simpa [oneRequest] using h
    rw [status] at hraised
    cases hraised
  · intro id response' exc h hraised
    obtain ⟨_, rfl⟩ : id = 0 ∧ response' = response := by simpa [oneRequest] using h
    rw [body] at hraised
    cases hraised

private def unhandled? : ServiceEvent → Option (Option String × ExnClass)
  | .answered ⟨credentials, .getClaims⟩ (.unhandled exn) => some (credentials, exn.cls)
  | _ => none

/-- One entry with an empty list as its `kid` ends the request with a bare
`TypeError`. -/
theorem unhashable_unhandled :
    Documented .sample (oneRequest .unhashable) ∧
      ∃ es t fs u exn, Visit (Service.step .sample (some .sample)) .sample
        (oneRequest .unhashable) es t (.client (.receive 0 (.ok .unhashable))) fs u ∧
      .answered ⟨some "token-1", .getClaims⟩ (.unhandled exn) ∈ fs ∧ exn.cls = .typeError := by
  refine ⟨documented_sample rfl rfl, ?_⟩
  have hrun : observe (Service.step .sample (some .sample)) (fun _ _ fs _ =>
      fs.findSome? unhandled?) .sample [.request ⟨some "token-1", .getClaims⟩]
      (.client (.receive 0 (.ok .unhashable))) = some (some (some "token-1", .typeError)) := by
    decide +kernel
  obtain ⟨es, t, fs, u, visit, hobserved⟩ := Visit.of_observe hrun
  obtain ⟨e, he, hunhandled⟩ := List.exists_of_findSome?_eq_some hobserved
  simp only [unhandled?] at hunhandled
  split at hunhandled
  · rename_i credentials exn
    obtain ⟨rfl, hcls⟩ := Prod.mk.inj (Option.some.inj hunhandled)
    exact ⟨es, t, fs, u, exn, visit, he, hcls⟩
  · cases hunhandled

/-- The rule at a request whose load brings a usable document. -/
theorem handled_iff_load :
    ∃ es s, Run (Service.step .sample (some .sample)) .sample (oneRequest (.sample ["k1"])) es s ∧
      ((∀ es₁ t a fs u, Visit (Service.step .sample (some .sample)) .sample
          (oneRequest (.sample ["k1"])) es₁ t a fs u →
          ∀ request answer, .answered request answer ∈ fs → answer ≠ .cancelled →
            answer.Handled request) ↔
        ∀ id got, .client (.receive id got) ∈ oneRequest (.sample ["k1"]) →
          ¬ ServesUnhashableKid .sample got) := by
  have hrun : (exec (Service.step .sample (some .sample)) .sample
      (oneRequest (.sample ["k1"]))).map (fun _ => true) = some true := by decide +kernel
  obtain ⟨es, s, run, _⟩ := Run.of_exec_map (f := fun _ _ => true) hrun
  exact ⟨es, s, run, handled_iff (documented_sample rfl rfl) .sample run⟩

end MestoryCore.Auth
