import MestoryCore.Auth.Transport

/-!
# Authorization filters authentication

The two checkers see the claims of a token and nothing else. Replace the
dependency of every request by `get_claims` alone: the service then does the same
with its key source, step by step, and each request with a checker ends as its
checker judges the answer that the bare request gets.
-/

namespace MestoryCore.Auth

open Python Asyncio Transition

/-- The request with `get_claims` for its dependency. -/
def Request.bare (request : Request) : Request := { request with guard := .getClaims }

def Pending.bare (pending : Pending) : Pending := { pending with guard := .getClaims }

/-- What a dependency makes of the end of `get_claims`. -/
def Guard.filter (guard : Guard) : Answer → Answer
  | .claims claims =>
      match guard.check claims with
      | .ok claims => .claims claims
      | .error exc => .problem exc
  | answer => answer

/-- The renaming that forgets the dependencies. -/
def Transport.bare : Transport Pending Pending := ⟨Pending.bare, 0⟩

def ServiceAction.bare : ServiceAction → ServiceAction
  | .request arrived => .request arrived.bare
  | .client action => .client (action.transport .bare)
  | .clock wall => .clock wall

def Service.bare (s : Service) : Service := { s with jwks := s.jwks.transport .bare }

/-- The same event of the client, or the answer to a request and the answer to
the bare one, of which the first is the judgement of the request's checker. -/
inductive Filtered : ServiceEvent → ServiceEvent → Prop where
  | client {event : Event Pending} : Filtered (.client event) (.client (event.transport .bare))
  | answered {request : Request} {answer : Answer} :
      Filtered (.answered request (request.guard.filter answer)) (.answered request.bare answer)

section Rules

variable {p : Platform} {verifier : Option Verifier} {s t : Service} {a : ServiceAction}
variable {es fs : List ServiceEvent} {gs : List (Event Pending)} {wall : ℚ}

/-- Only claims are filtered. -/
theorem Guard.filter_of_ne_claims {guard : Guard} {answer : Answer}
    (h : ∀ claims, answer ≠ .claims claims) : guard.filter answer = answer := by
  cases answer with
  | claims claims => exact absurd rfl (h claims)
  | problem | unhandled | cancelled => rfl

theorem handle_ne_claims {lib : Library} {exn : Exn} {claims : AccessTokenClaims} :
    handle lib exn ≠ .claims claims := by
  simp only [handle]
  split
  · simp
  · split <;> simp

/-- The checker judges the answer of the bare request. -/
theorem Pending.answer_eq_filter (pending : Pending) (now : ℚ) (o : Outcome) :
    pending.answer p now o = pending.guard.filter (pending.bare.answer p now o) := by
  have hverify : verifyWith p pending.bare.verifier pending.bare.token now o =
      verifyWith p pending.verifier pending.token now o := rfl
  simp only [Pending.answer, hverify]
  split
  · rfl
  · exact (Guard.filter_of_ne_claims fun _ => handle_ne_claims).symm
  · rfl

/-- The part of `get_claims` before the lookup does not depend on the checker. -/
theorem getClaims_bare (request : Request) :
    getClaims p verifier request.bare =
      (getClaims p verifier request).map fun pair => (pair.1.bare, pair.2) := by
  simp only [getClaims, Request.bare]
  split
  · rfl
  · split
    · rfl
    · split <;> rfl

theorem filtered_answers :
    List.Forall₂ Filtered (gs.flatMap (Service.answers p wall))
      ((gs.map (Event.transport .bare)).flatMap (Service.answers p wall)) := by
  induction gs with
  | nil => exact .nil
  | cons e gs ih =>
      refine List.rel_append ?_ ih
      cases e with
      | called | queued | load => exact .cons .client .nil
      | ended call time o =>
          refine .cons .client (.cons ?_ .nil)
          rw [Pending.answer_eq_filter]
          exact .answered

/-- Each step is matched by the bare step, and what it emits is filtered. -/
theorem Service.step_bare (h : Service.step p verifier s a = some (t, fs)) :
    ∃ gs, Service.step p verifier s.bare a.bare = some (t.bare, gs) ∧
      List.Forall₂ Filtered fs gs := by
  cases Service.Move.of_step h with
  | clock => exact ⟨[], rfl, .nil⟩
  | @refuse request answer refused =>
      have unfiltered : request.guard.filter answer = answer :=
        Guard.filter_of_ne_claims fun claims heq => getClaims_ne_claims (heq ▸ refused)
      refine ⟨[.answered request.bare answer], ?_, ?_⟩
      · simp [ServiceAction.bare, Service.step, getClaims_bare, refused, Except.map]
      · have filtered : Filtered (.answered request (request.guard.filter answer))
            (.answered request.bare answer) := .answered
        rw [unfiltered] at filtered
        exact .cons filtered .nil
  | @run _ b jwks es projects stepped =>
      have translated : Sys.step p.lib s.bare.jwks (b.transport .bare) =
          some (jwks.transport .bare, es.map (Event.transport .bare)) := by
        have hstep := Sys.transport_step .bare s.jwks p.lib b
        rw [stepped] at hstep
        exact hstep
      refine ⟨_, ?_, filtered_answers⟩
      cases projects with
      | request admitted =>
          simp only [ServiceAction.bare, Service.step, getClaims_bare, admitted, Except.map]
          exact congrArg (Option.map _) translated
      | client noCall =>
          have hcall : (b.transport .bare : Action Pending).isCall = false := by
            cases b <;> first | rfl | cases noCall
          simp only [ServiceAction.bare, Service.step, hcall]
          exact congrArg (Option.map _) translated

/-- The client of the bare service does the same loads. -/
theorem history_of_filtered {es es' : List ServiceEvent} (filtered : List.Forall₂ Filtered es es') :
    history (clientEvents es') = history (clientEvents es) := by
  have same : clientEvents es' = (clientEvents es).map (Event.transport .bare) := by
    induction filtered with
    | nil => rfl
    | cons related _ ih =>
        cases related with
        | client => exact congrArg (List.cons _) ih
        | answered => exact ih
  have unmoved : LoadEvent.transport 0 = id := by
    funext e
    cases e <;> simp [LoadEvent.transport]
  rw [same, history_transport]
  simp [Transport.bare, unmoved]

end Rules

/-- A client that was not called yet has no dependency to forget. -/
theorem Started.bare {lib : Library} {url : String} {ttl interval : Time} {s : Sys Pending}
    (start : Started lib url ttl interval s) : s.transport .bare = s := by
  obtain ⟨now, hinit⟩ := start
  obtain ⟨_, rfl⟩ := JwksClient.eq_of_init hinit
  simp [Sys.transport, JwksClient.transport, Transport.bare, Lock.map]

section Runs

variable {p : Platform} {verifier : Option Verifier} {url : String} {ttl interval : Time}
variable {s₀ s : Service} {as : List ServiceAction} {es : List ServiceEvent}

/-- Every run is the filtered run of the bare requests: on the same schedule the
service sends the same requests to its key source and gets the same answers from
it, whoever is authorized to what, and each request ends as its own checker
judges the end of its `get_claims`. -/
theorem filtered_of_run (start : Started p.lib url ttl interval s₀.jwks)
    (run : Run (Service.step p verifier) s₀ as es s) :
    ∃ es' s', Run (Service.step p verifier) s₀ (as.map ServiceAction.bare) es' s' ∧
      List.Forall₂ Filtered es es' ∧ history (clientEvents es') = history (clientEvents es) := by
  have matched : ∃ es', Run (Service.step p verifier) s₀.bare (as.map ServiceAction.bare) es'
      s.bare ∧ List.Forall₂ Filtered es es' := by
    induction run with
    | refl => exact ⟨[], .refl, .nil⟩
    | snoc _ hstep ih =>
        obtain ⟨es', run', filtered⟩ := ih
        obtain ⟨gs, hstep', filtered'⟩ := Service.step_bare hstep
        rw [List.map_append]
        exact ⟨es' ++ gs, run'.snoc hstep', List.rel_append filtered filtered'⟩
  obtain ⟨es', run', filtered⟩ := matched
  have same : s₀.bare = s₀ := by simp [Service.bare, start.bare]
  rw [same] at run'
  exact ⟨es', s.bare, run', filtered, history_of_filtered filtered⟩

/-- A request that only an admin may make, refused while the bare one gets the
claims of its token. -/
theorem filtered_of_run_admin :
    ∃ es s es' s', Run (Service.step .sample (some .sample)) .sample
        [.request ⟨some "token-1", .requireRoles {roleAdmin} (by simp)⟩,
          .client (.receive 0 (.ok (.sample ["k1"])))] es s ∧
      (es.filterMap ServiceEvent.answer?).length = 1 ∧
      Run (Service.step .sample (some .sample)) .sample
        [.request ⟨some "token-1", .getClaims⟩, .client (.receive 0 (.ok (.sample ["k1"])))] es'
        s' ∧
      List.Forall₂ Filtered es es' := by
  have hrun : (exec (Service.step .sample (some .sample)) .sample
      [.request ⟨some "token-1", .requireRoles {roleAdmin} (by simp)⟩,
        .client (.receive 0 (.ok (.sample ["k1"])))]).map
      (fun r => (r.2.filterMap ServiceEvent.answer?).length) = some 1 := by decide +kernel
  obtain ⟨es, s, run, hcount⟩ :=
    Run.of_exec_map (f := fun es _ => (es.filterMap ServiceEvent.answer?).length) hrun
  obtain ⟨es', s', run', filtered, _⟩ := filtered_of_run .sample run
  exact ⟨es, s, es', s', run, hcount, run', filtered⟩

end Runs
end MestoryCore.Auth
