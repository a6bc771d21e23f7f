import MestoryCore.Auth.Service

/-!
# What answers disclose about the key source

Two runs of the same requests on the same schedule, in front of sources with
different addresses. Where the loads of the two runs agree on whether they
succeed and on the keys they bring, the clients differ only in their address and
in the failure they remember, which is a failure of the source in both. Neither
of these reaches an answer.
-/

namespace MestoryCore.Auth

open Python Asyncio Transition

variable {τ : Type} {lib : Library} {url url' : String} {ttl interval : Time}

/-- Both clients remember no failure, or both remember some failure of the source. -/
inductive ErrorAlike : Option Raised → Option Raised → Prop where
  | none : ErrorAlike none none
  | source {error error' : Raised} (left : error.exn.cls.isSourceError = true)
      (right : error'.exn.cls.isSourceError = true) : ErrorAlike (some error) (some error')

/-- The outcomes are equal, or both are failures of the source. -/
inductive OutcomeAlike : Outcome → Outcome → Prop where
  | same {o : Outcome} : OutcomeAlike o o
  | source {exc exc' : Raised} (left : exc.exn.cls.isSourceError = true)
      (right : exc'.exn.cls.isSourceError = true) : OutcomeAlike (.raised exc) (.raised exc')

/-- The client at another address, remembering another failure. -/
def JwksClient.withSource (c : JwksClient τ) (url : String) (error : Option Raised) :
    JwksClient τ :=
  { c with url, lastError := error }

/-- The segments leave the call at the same point, in clients that differ only in
their source. -/
inductive SegmentAlike (url' : String) : Segment τ → Segment τ → Prop where
  | waiting {c : JwksClient τ} {error : Option Raised} (h : ErrorAlike c.lastError error) :
      SegmentAlike url' (.waiting c) (.waiting (c.withSource url' error))
  | requesting {c : JwksClient τ} {error : Option Raised} (h : ErrorAlike c.lastError error) :
      SegmentAlike url' (.requesting c) (.requesting (c.withSource url' error))
  | finished {c : JwksClient τ} {error : Option Raised} {o o' : Outcome}
      (h : ErrorAlike c.lastError error) (outcome : OutcomeAlike o o') :
      SegmentAlike url' (.finished c o) (.finished (c.withSource url' error) o')

/-- The events of a step that differ at most in a document or in a failure of
the source. -/
inductive EventAlike : Event τ → Event τ → Prop where
  | called {call : Call τ} : EventAlike (.called call) (.called call)
  | queued {call : Call τ} : EventAlike (.queued call) (.queued call)
  | load {call : Call τ} {e e' : LoadEvent} : EventAlike (.load call e) (.load call e')
  | ended {call : Call τ} {time : Time} {o o' : Outcome} (outcome : OutcomeAlike o o') :
      EventAlike (.ended call time o) (.ended call time o')

/-- The systems differ only in the source of their clients. -/
def Alike (url' : String) (s s' : Sys τ) : Prop :=
  ∃ error, s' = { s with client := s.client.withSource url' error } ∧
    ErrorAlike s.client.lastError error

/-- The same action, or the ends of two loads that bring the same keys or both
fail as the source can fail. -/
inductive ActionAlike (lib : Library) (url url' : String) : Action τ → Action τ → Prop where
  | same {a : Action τ} (noAnswer : ∀ id got, a ≠ .receive id got) : ActionAlike lib url url' a a
  | loaded {id : Nat} {got got' : Except LibraryExn Response} {document document' : Json}
      {keys : Keys} (left : fetch lib url got = .ok (document, keys))
      (right : fetch lib url' got' = .ok (document', keys)) :
      ActionAlike lib url url' (.receive id got) (.receive id got')
  | failed {id : Nat} {got got' : Except LibraryExn Response} {exn exn' : Exn}
      (left : fetch lib url got = .error exn) (right : fetch lib url' got' = .error exn')
      (source : exn.cls.isSourceError = true) (source' : exn'.cls.isSourceError = true) :
      ActionAlike lib url url' (.receive id got) (.receive id got')

section Client

variable {c : JwksClient τ} {error : Option Raised} {now : Time} {kid : String} {call : Call τ}
variable {exc : Nat}

/-! The segments of a client do not read its source, except to raise from it. -/

theorem classify_alike (h : ErrorAlike c.lastError error) :
    OutcomeAlike (c.classify lib kid exc) ((c.withSource url' error).classify lib kid exc) := by
  have hlookup : (c.withSource url' error).lookup kid = c.lookup kid := rfl
  have hkeys : (c.withSource url' error).keys = c.keys := rfl
  have herror : (c.withSource url' error).lastError = error := rfl
  simp only [JwksClient.classify, hlookup, hkeys, herror]
  split
  · exact .same
  · split
    · -- Only here the remembered failures show: as copies of the same classes.
      cases hlast : c.lastError with
      | none =>
          rw [hlast] at h
          cases h
          exact .same
      | some e =>
          rw [hlast] at h
          cases h with
          | source left right => exact .source (by simpa using left) (by simpa using right)
    · exact .same

theorem underLock_alike (h : ErrorAlike c.lastError error) :
    SegmentAlike url' (c.underLock lib now call exc)
      ((c.withSource url' error).underLock lib now call exc) := by
  have hneeded : (c.withSource url' error).shouldAttemptFetch now call.kid =
      c.shouldAttemptFetch now call.kid := rfl
  simp only [JwksClient.underLock, hneeded]
  split
  · exact .requesting h
  · exact .finished h (classify_alike (c := { c with lock := c.lock.release }) h)

theorem attemptFetch_alike (h : ErrorAlike c.lastError error) :
    SegmentAlike url' (c.attemptFetch lib now call exc)
      ((c.withSource url' error).attemptFetch lib now call exc) := by
  have hlock : (c.withSource url' error).lock = c.lock := rfl
  simp only [JwksClient.attemptFetch, hlock]
  split
  · rename_i lock _
    exact underLock_alike (c := { c with lock }) h
  · exact .waiting h

theorem getKey_alike (h : ErrorAlike c.lastError error) :
    SegmentAlike url' (c.getKey lib now call exc)
      ((c.withSource url' error).getKey lib now call exc) := by
  have hlookup : (c.withSource url' error).lookup call.kid = c.lookup call.kid := rfl
  have hstale : (c.withSource url' error).isStale now = c.isStale now := rfl
  have hlock : (c.withSource url' error).lock = c.lock := rfl
  have hneeded : (c.withSource url' error).shouldAttemptFetch now call.kid =
      c.shouldAttemptFetch now call.kid := rfl
  simp only [JwksClient.getKey, hlookup, hstale, hlock, hneeded]
  split
  · exact .finished h .same
  · split
    · exact attemptFetch_alike h
    · exact .finished h (classify_alike h)

/-- A failed load is covered by the same keys on both sides. -/
theorem fallBack_alike {left right : Raised} (source : left.exn.cls.isSourceError = true)
    (source' : right.exn.cls.isSourceError = true) :
    OutcomeAlike (c.fallBack kid left) ((c.withSource url' error).fallBack kid right) := by
  have hlookup : (c.withSource url' error).lookup kid = c.lookup kid := rfl
  simp only [JwksClient.fallBack, source, source', if_true, hlookup]
  split
  · exact .same
  · exact .source source source'

end Client

section Step

variable {s s' t t' : Sys τ} {a a' : Action τ} {es es' before before' : List (Event τ)}
variable {segment segment' : Segment τ} {call : Call τ}

/-- Two results of a step: the next states and the emitted events. -/
def ResultAlike (url' : String) (r r' : Sys τ × List (Event τ)) : Prop :=
  Alike url' r.1 r'.1 ∧ List.Forall₂ EventAlike r.2 r'.2

theorem settle_alike {client : JwksClient τ} (hsegment : SegmentAlike url' segment segment')
    (hbefore : List.Forall₂ EventAlike before before') :
    ResultAlike url' (s.settle call before segment)
      ({ s with client }.settle call before' segment') := by
  cases hsegment with
  | waiting h => exact ⟨⟨_, rfl, h⟩, List.rel_append hbefore (.cons .queued .nil)⟩
  | requesting h => exact ⟨⟨_, rfl, h⟩, List.rel_append hbefore (.cons .load .nil)⟩
  | finished h outcome =>
      exact ⟨⟨_, rfl, h⟩, List.rel_append hbefore (.cons (.ended outcome) .nil)⟩

/-- The end of `http.get` in alike systems. -/
theorem received_alike {f : Flight τ} {error : Option Raised}
    {got got' : Except LibraryExn Response} {id : Nat} (hurl : s.client.url = url)
    (ha : ActionAlike lib url url' (.receive (τ := τ) id got) (.receive id got')) :
    ResultAlike url' (s.received lib f got)
      ({ s with client := s.client.withSource url' error }.received lib f got') := by
  have hurl' : (s.client.withSource url' error).url = url' := rfl
  cases ha with
  | same noAnswer => exact absurd rfl (noAnswer id got)
  | loaded left right =>
      simp only [Sys.received, hurl, hurl', left, right]
      exact settle_alike (.finished .none (classify_alike .none)) (.cons .load .nil)
  | failed left right source source' =>
      simp only [Sys.received, hurl, hurl', left, right]
      exact settle_alike (.finished (.source source source') (fallBack_alike source source'))
        (.cons .load .nil)

/-- Alike systems take alike steps. -/
theorem step_alike (hurl : s.client.url = url) (hs : Alike url' s s')
    (ha : ActionAlike lib url url' a a') (h : Sys.step lib s a = some (t, es))
    (h' : Sys.step lib s' a' = some (t', es')) : ResultAlike url' (t, es) (t', es') := by
  obtain ⟨error, rfl, herror⟩ := hs
  have hlock : (s.client.withSource url' error).lock = s.client.lock := rfl
  cases a with
  | advance time =>
      cases ha
      simp only [Sys.step] at h h'
      split at h
      · rename_i later
        rw [if_pos later] at h'
        rw [← Option.some.inj h, ← Option.some.inj h']
        exact ⟨⟨error, rfl, herror⟩, .nil⟩
      · cases h
  | call kid tag =>
      cases ha
      rw [← Option.some.inj h, ← Option.some.inj h']
      exact settle_alike (getKey_alike herror) (.cons .called .nil)
  | wake id =>
      cases ha
      simp only [Sys.step, hlock] at h h'
      cases found : s.client.lock.find? id with
      | none => simp [found] at h
      | some w =>
          simp only [found] at h h'
          cases future : w.future with
          | pending => simp [future] at h
          | woken =>
              simp only [future] at h h'
              rw [← Option.some.inj h, ← Option.some.inj h']
              exact settle_alike
                (underLock_alike (c := { s.client with lock := s.client.lock.resume id }) herror)
                .nil
          | cancelled | wokenCancelled =>
              simp only [future] at h h'
              rw [← Option.some.inj h, ← Option.some.inj h']
              exact settle_alike
                (.finished (c := { s.client with lock := s.client.lock.abandon id }) herror .same)
                .nil
  | cancel id =>
      cases ha
      simp only [Sys.step, hlock] at h h'
      cases found : s.client.lock.find? id with
      | none => simp [found] at h
      | some w =>
          simp only [found] at h h'
          rw [← Option.some.inj h, ← Option.some.inj h']
          exact ⟨⟨error, rfl, herror⟩, .nil⟩
  | receive id got =>
      obtain ⟨got', rfl⟩ : ∃ got', a' = .receive id got' := by
        cases ha with
        | same noAnswer => exact ⟨got, rfl⟩
        | loaded | failed => exact ⟨_, rfl⟩
      have hflight : { s with client := s.client.withSource url' error }.flight? id =
          s.flight? id := rfl
      simp only [Sys.step, hflight] at h h'
      cases found : s.flight? id with
      | none => simp [found] at h
      | some f =>
          simp only [found] at h h'
          rw [← Option.some.inj h, ← Option.some.inj h']
          exact received_alike (s := s.land id) hurl ha
  | abort id =>
      cases ha
      have hflight : { s with client := s.client.withSource url' error }.flight? id =
          s.flight? id := rfl
      simp only [Sys.step, hflight] at h h'
      cases found : s.flight? id with
      | none => simp [found] at h
      | some f =>
          simp only [found] at h h'
          rw [← Option.some.inj h, ← Option.some.inj h']
          exact settle_alike (s := s.land id) (.finished (c := s.client.abortLoad) herror .same)
            (.cons .load .nil)

end Step

/-! ## Requests -/

/-- The same action of the service, with the ends of loads as in `ActionAlike`. -/
inductive ServiceActionAlike (lib : Library) (url url' : String) :
    ServiceAction → ServiceAction → Prop where
  | clock {wall : ℚ} : ServiceActionAlike lib url url' (.clock wall) (.clock wall)
  | request {request : Request} :
      ServiceActionAlike lib url url' (.request request) (.request request)
  | client {a a' : Action Pending} (h : ActionAlike lib url url' a a') :
      ServiceActionAlike lib url url' (.client a) (.client a')

/-- The answer that an event is. -/
def ServiceEvent.answer? : ServiceEvent → Option (Request × Answer)
  | .client _ => none
  | .answered request answer => some (request, answer)

/-- The events answer the same request in the same way, or neither answers one. -/
def AnswersAlike (e e' : ServiceEvent) : Prop := e.answer? = e'.answer?

section Service

variable {p : Platform} {verifier : Option Verifier} {s s' t t' s₀ s₀' : Service}
variable {a a' : ServiceAction} {as as' : List ServiceAction} {es es' : List ServiceEvent}

/-- What the failures of the source say does not reach an answer. -/
theorem answer_eq_of_alike {pending : Pending} {now : ℚ} {o o' : Outcome} (h : OutcomeAlike o o') :
    pending.answer p now o = pending.answer p now o' := by
  have unavailable : ∀ exc : Raised, exc.exn.cls.isSourceError = true →
      pending.answer p now (.raised exc) = .problem (problem 503 "auth_unavailable"
        ("Unable to verify the token: the signing key " ++
          "source is unavailable. Try again shortly.")) := by
    intro exc source
    have known : exc.exn.cls ≠ .unknownSigningKey := by
      intro hcls
      rw [hcls] at source
      cases source
    simp [Pending.answer, verifyWith, handle, known, source,
      ExnClass.isInvalidToken_of_isSourceError source]
  cases h with
  | same => rfl
  | source left right => rw [unavailable _ left, unavailable _ right]

theorem answers_alike {wall : ℚ} {e e' : Event Pending} (h : EventAlike e e') :
    List.Forall₂ AnswersAlike (Service.answers p wall e) (Service.answers p wall e') := by
  cases h with
  | called | queued | load => exact .cons rfl .nil
  | ended outcome =>
      refine .cons rfl (.cons ?_ .nil)
      simp only [AnswersAlike, ServiceEvent.answer?, answer_eq_of_alike outcome]

/-- The relation of two runs of the service. -/
structure ServiceAlike (url url' : String) (ttl interval : Time) (s s' : Service) : Prop where
  guarded : Guarded url ttl interval s.jwks
  jwks : Alike url' s.jwks s'.jwks
  wall : s.wall = s'.wall

theorem run_alike (hs : ServiceAlike url url' ttl interval s s') {b b' : Action Pending}
    (hb : ActionAlike p.lib url url' b b') (h : s.run p b = some (t, es))
    (h' : s'.run p b' = some (t', es')) :
    ServiceAlike url url' ttl interval t t' ∧ List.Forall₂ AnswersAlike es es' := by
  obtain ⟨guarded, jwks, wall⟩ := hs
  obtain ⟨⟨u, gs⟩, stepped, heq⟩ := Option.map_eq_some_iff.mp h
  obtain ⟨⟨u', gs'⟩, stepped', heq'⟩ := Option.map_eq_some_iff.mp h'
  obtain ⟨rfl, rfl⟩ := Prod.mk.inj heq
  obtain ⟨rfl, rfl⟩ := Prod.mk.inj heq'
  obtain ⟨hu, hgs⟩ := step_alike guarded.url_eq jwks hb stepped stepped'
  refine ⟨⟨guarded.step stepped, hu, wall⟩, ?_⟩
  rw [← wall]
  exact List.rel_flatMap hgs fun e e' he => answers_alike he

theorem service_step_alike (hs : ServiceAlike url url' ttl interval s s')
    (ha : ServiceActionAlike p.lib url url' a a')
    (h : Service.step p verifier s a = some (t, es))
    (h' : Service.step p verifier s' a' = some (t', es')) :
    ServiceAlike url url' ttl interval t t' ∧ List.Forall₂ AnswersAlike es es' := by
  cases ha with
  | clock =>
      obtain ⟨rfl, rfl⟩ := Prod.mk.inj (Option.some.inj h)
      obtain ⟨rfl, rfl⟩ := Prod.mk.inj (Option.some.inj h')
      exact ⟨⟨hs.guarded, hs.jwks, rfl⟩, .nil⟩
  | @request request =>
      cases hclaims : getClaims p verifier request with
      | error answer =>
          simp only [Service.step, hclaims, Option.some.injEq, Prod.mk.injEq] at h h'
          obtain ⟨rfl, rfl⟩ := h
          obtain ⟨rfl, rfl⟩ := h'
          exact ⟨hs, .cons rfl .nil⟩
      | ok pair =>
          obtain ⟨pending, kid⟩ := pair
          simp only [Service.step, hclaims] at h h'
          exact run_alike hs (.same (by simp)) h h'
  | client hb =>
      simp only [Service.step] at h h'
      split at h
      · cases h
      · split at h'
        · cases h'
        · exact run_alike hs hb h h'

/-- Two runs of the same requests, schedule, and clocks, whose loads bring the
same keys or fail as the source can fail, answer the same requests in the same
way, wherever their sources are and whatever their failures say. -/
theorem answers_eq_of_runs (start : Started p.lib url ttl interval s₀.jwks)
    (start' : Started p.lib url' ttl interval s₀'.jwks) (now : s₀.jwks.now = s₀'.jwks.now)
    (wall : s₀.wall = s₀'.wall)
    (schedules : List.Forall₂ (ServiceActionAlike p.lib url url') as as')
    (run : Run (Service.step p verifier) s₀ as es s)
    (run' : Run (Service.step p verifier) s₀' as' es' s') :
    List.Forall₂ AnswersAlike es es' := by
  have alike : Alike url' s₀.jwks s₀'.jwks := by
    obtain ⟨jwks, _⟩ := s₀
    obtain ⟨jwks', _⟩ := s₀'
    obtain ⟨clock, hinit⟩ := start
    obtain ⟨clock', hinit'⟩ := start'
    obtain ⟨_, rfl⟩ := JwksClient.eq_of_init hinit
    obtain ⟨_, rfl⟩ := JwksClient.eq_of_init hinit'
    obtain rfl : clock = clock' := now
    exact ⟨none, rfl, .none⟩
  refine (Run.lockstep (R := ServiceAlike url url' ttl interval)
    (A := ServiceActionAlike p.lib url url') (E := AnswersAlike) ?_ ⟨.start start, alike, wall⟩
    schedules run run').2
  intro t t' a a' u u' fs fs' hs ha h h'
  exact service_step_alike hs ha h h'

/-- A document that is not an object. -/
def Response.malformed : Response where
  raiseForStatus := .ok ()
  json := .ok .null

/-- An outage and a malformed document answer alike, for the request whose load
failed and for one that is told of the remembered failure. -/
theorem answers_eq_of_runs_failures :
    ∃ es es' s s', Run (Service.step .sample (some .sample)) ⟨.sampleAt "https://a.test/", 100⟩
        [.request ⟨some "token-1", .getClaims⟩, .client (.receive 0 (.ok .unavailable)),
          .request ⟨some "token-1", .getClaims⟩] es s ∧
      Run (Service.step .sample (some .sample)) ⟨.sampleAt "https://b.test/", 100⟩
        [.request ⟨some "token-1", .getClaims⟩, .client (.receive 0 (.ok .malformed)),
          .request ⟨some "token-1", .getClaims⟩] es' s' ∧
      (es.filterMap ServiceEvent.answer?).length = 2 ∧ List.Forall₂ AnswersAlike es es' := by
  have hrun : (exec (Service.step .sample (some .sample)) ⟨.sampleAt "https://a.test/", 100⟩
      [.request ⟨some "token-1", .getClaims⟩, .client (.receive 0 (.ok .unavailable)),
        .request ⟨some "token-1", .getClaims⟩]).map
        (fun r => (r.2.filterMap ServiceEvent.answer?).length) = some 2 := by decide +kernel
  have hrun' : (exec (Service.step .sample (some .sample)) ⟨.sampleAt "https://b.test/", 100⟩
      [.request ⟨some "token-1", .getClaims⟩, .client (.receive 0 (.ok .malformed)),
        .request ⟨some "token-1", .getClaims⟩]).map
        (fun r => (r.2.filterMap ServiceEvent.answer?).length) = some 2 := by decide +kernel
  obtain ⟨es, s, run, hanswers⟩ :=
    Run.of_exec_map (f := fun es _ => (es.filterMap ServiceEvent.answer?).length) hrun
  obtain ⟨es', s', run', _⟩ :=
    Run.of_exec_map (f := fun es _ => (es.filterMap ServiceEvent.answer?).length) hrun'
  have start : Started Platform.sample.lib "https://a.test/" 3600 30
      (⟨.sampleAt "https://a.test/", 100⟩ : Service).jwks := .sampleAt
  have start' : Started Platform.sample.lib "https://b.test/" 3600 30
      (⟨.sampleAt "https://b.test/", 100⟩ : Service).jwks := .sampleAt
  have loads : ActionAlike (τ := Pending) Platform.sample.lib "https://a.test/" "https://b.test/"
      (.receive 0 (.ok .unavailable)) (.receive 0 (.ok .malformed)) :=
    .failed rfl rfl rfl rfl
  have schedules :
      List.Forall₂ (ServiceActionAlike Platform.sample.lib "https://a.test/" "https://b.test/")
        [.request ⟨some "token-1", .getClaims⟩, .client (.receive 0 (.ok .unavailable)),
          .request ⟨some "token-1", .getClaims⟩]
        [.request ⟨some "token-1", .getClaims⟩, .client (.receive 0 (.ok .malformed)),
          .request ⟨some "token-1", .getClaims⟩] :=
    .cons .request (.cons (.client loads) (.cons .request .nil))
  exact ⟨es, es', s, s', run, run', hanswers,
    answers_eq_of_runs start start' rfl rfl schedules run run'⟩

end Service
end MestoryCore.Auth
