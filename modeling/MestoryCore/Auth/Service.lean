import MestoryCore.Auth.Dependencies
import MestoryCore.Auth.Exit

/-!
# Concurrent requests against one verifier

`Service` is an application in front of one client: requests arrive, look up the
key of their token, and are answered when the lookup ends, which is when their
call of `get_key` ends. The wall clock that a token expires by is read at that
moment and moves independently of the monotonic clock of the client.

Each step of the service is a step of the client or leaves the client alone, so
everything known about a run of the client is known about a run of the service.
-/

namespace MestoryCore.Auth

open Python Asyncio Transition

structure Service where
  jwks : Sys Pending
  wall : ℚ

inductive ServiceAction where
  /-- The wall clock reads `wall`. -/
  | clock (wall : ℚ)
  /-- A request arrives and runs to its first await. -/
  | request (request : Request)
  /-- The monotonic clock advances, or a suspended call runs or is cancelled. -/
  | client (action : Action Pending)

inductive ServiceEvent where
  | client (event : Event Pending)
  | answered (request : Request) (answer : Answer)

def ServiceEvent.client? : ServiceEvent → Option (Event Pending)
  | .client event => some event
  | .answered _ _ => none

/-- The events of the client in a trace of the service. -/
def clientEvents (es : List ServiceEvent) : List (Event Pending) :=
  es.filterMap ServiceEvent.client?

def Action.isCall {τ : Type} : Action τ → Bool
  | .call _ _ => true
  | _ => false

namespace Service

/-- A request is answered when its lookup ends. -/
def answers (p : Platform) (wall : ℚ) : Event Pending → List ServiceEvent
  | .ended call time o =>
      [.client (.ended call time o), .answered call.tag.request (call.tag.answer p wall o)]
  | e => [.client e]

/-- A step of the client, with the answers it leads to. -/
def run (p : Platform) (s : Service) (a : Action Pending) : Option (Service × List ServiceEvent) :=
  (Sys.step p.lib s.jwks a).map fun r => ({ s with jwks := r.1 }, r.2.flatMap (answers p s.wall))

def step (p : Platform) (verifier : Option Verifier) : Step Service ServiceAction ServiceEvent
  | s, .clock wall => some ({ s with wall }, [])
  | s, .request request =>
      match getClaims p verifier request with
      | .error answer => some (s, [.answered request answer])
      | .ok (pending, kid) => s.run p (.call kid pending)
  | s, .client a => if a.isCall then none else s.run p a

end Service

/-- The application of the closed runs. -/
def Service.sample : Service where
  jwks := .sample
  wall := 100

def Verifier.sample : Verifier where
  audience := "mestory"
  issuer := "auth_service"

/-- The action of the client that an action of the service is. -/
inductive Projects (p : Platform) (verifier : Option Verifier) :
    ServiceAction → Action Pending → Prop where
  | request {request : Request} {pending : Pending} {kid : String}
      (admitted : getClaims p verifier request = .ok (pending, kid)) :
      Projects p verifier (.request request) (.call kid pending)
  | client {a : Action Pending} (noCall : a.isCall = false) : Projects p verifier (.client a) a

/-- The steps of the service. -/
inductive Service.Move (p : Platform) (verifier : Option Verifier) (s : Service) :
    ServiceAction → Service → List ServiceEvent → Prop where
  | clock {wall : ℚ} : Move p verifier s (.clock wall) { s with wall } []
  | refuse {request : Request} {answer : Answer}
      (refused : getClaims p verifier request = .error answer) :
      Move p verifier s (.request request) s [.answered request answer]
  | run {a : ServiceAction} {b : Action Pending} {jwks : Sys Pending} {es : List (Event Pending)}
      (projects : Projects p verifier a b) (stepped : Sys.step p.lib s.jwks b = some (jwks, es)) :
      Move p verifier s a { s with jwks } (es.flatMap (answers p s.wall))

section Steps

variable {p : Platform} {verifier : Option Verifier} {url : String} {ttl interval : Time}
variable {s₀ s t u : Service} {a : ServiceAction} {as : List ServiceAction}
variable {es fs : List ServiceEvent} {gs : List (Event Pending)} {wall : ℚ}

@[simp] theorem clientEvents_append (es fs : List ServiceEvent) :
    clientEvents (es ++ fs) = clientEvents es ++ clientEvents fs :=
  List.filterMap_append

/-- Answering requests adds nothing to the trace of the client. -/
@[simp] theorem clientEvents_answers :
    clientEvents (gs.flatMap (Service.answers p wall)) = gs := by
  induction gs with
  | nil => rfl
  | cons e gs ih =>
      rw [List.flatMap_cons, clientEvents_append, ih]
      cases e <;> rfl

/-- Every answer of a step of the client belongs to a call that ended. -/
theorem mem_answers_iff {request : Request} {answer : Answer} :
    .answered request answer ∈ gs.flatMap (Service.answers p wall) ↔
      ∃ call time o, .ended call time o ∈ gs ∧ call.tag.request = request ∧
        call.tag.answer p wall o = answer := by
  rw [List.mem_flatMap]
  constructor
  · rintro ⟨e, he, hanswer⟩
    cases e with
    | ended call time o =>
        obtain ⟨rfl, rfl⟩ : request = _ ∧ answer = _ := by
          simpa [Service.answers] using hanswer
        exact ⟨call, time, o, he, rfl, rfl⟩
    | called | queued | load => simp [Service.answers] at hanswer
  · rintro ⟨call, time, o, he, rfl, rfl⟩
    exact ⟨_, he, by simp [Service.answers]⟩

namespace Service

private theorem move_of_run {b : Action Pending} (projects : Projects p verifier a b)
    (h : s.run p b = some (t, fs)) : Move p verifier s a t fs := by
  obtain ⟨⟨jwks, gs⟩, stepped, heq⟩ := Option.map_eq_some_iff.mp h
  obtain ⟨rfl, rfl⟩ := Prod.mk.inj heq
  exact .run projects stepped

theorem Move.of_step (h : step p verifier s a = some (t, fs)) : Move p verifier s a t fs := by
  cases a with
  | clock wall =>
      obtain ⟨rfl, rfl⟩ := Prod.mk.inj (Option.some.inj h)
      exact .clock
  | request request =>
      cases hclaims : getClaims p verifier request with
      | error answer =>
          simp only [step, hclaims, Option.some.injEq, Prod.mk.injEq] at h
          obtain ⟨rfl, rfl⟩ := h
          exact .refuse hclaims
      | ok pair =>
          obtain ⟨pending, kid⟩ := pair
          simp only [step, hclaims] at h
          exact move_of_run (.request hclaims) h
  | client b =>
      simp only [step] at h
      split at h
      · cases h
      · rename_i hcall
        exact move_of_run (.client (by simpa using hcall)) h

/-- Each step is a step of the client or leaves it alone. -/
theorem Move.project (m : Move p verifier s a t fs) :
    (t.jwks = s.jwks ∧ fs.filterMap ServiceEvent.client? = []) ∨
      ∃ b, Projects p verifier a b ∧
        Sys.step p.lib s.jwks b = some (t.jwks, fs.filterMap ServiceEvent.client?) := by
  cases m with
  | clock => exact .inl ⟨rfl, rfl⟩
  | refuse => exact .inl ⟨rfl, rfl⟩
  | run projects stepped =>
      refine .inr ⟨_, projects, ?_⟩
      rw [stepped]
      exact congrArg (fun gs => some (_, gs)) clientEvents_answers.symm

/-- Every call in the client belongs to the configured verifier and asks for the
`kid` of its token. -/
def Selected (p : Platform) (verifier : Option Verifier) (call : Call Pending) : Prop :=
  verifier = some call.tag.verifier ∧ selectKid p call.tag.token = .ok call.kid

/-- A call of a step was selected, if the suspended ones were. -/
theorem selected_of_projects {b : Action Pending} (projects : Projects p verifier a b)
    (inv : ∀ call ∈ s.jwks.suspended, Selected p verifier call) {call : Call Pending}
    (h : call ∈ s.jwks.suspended ∨ ∃ kid tag, b = .call kid tag ∧ call = ⟨s.jwks.calls, kid, tag⟩) :
    Selected p verifier call := by
  rcases h with hcall | ⟨kid, tag, rfl, rfl⟩
  · exact inv call hcall
  · cases projects with
    | request admitted => exact (getClaims_eq_ok admitted).2
    | client noCall => cases noCall

end Service

/-- What a run of the service knows: a run of its client by the projected
schedule, and that every suspended call asks for the `kid` of its token. -/
theorem Service.known_of_run (idle : s₀.jwks.suspended = [])
    (run : Run (Service.step p verifier) s₀ as es s) :
    (∀ call ∈ s.jwks.suspended, Service.Selected p verifier call) ∧
      ∃ bs, (∀ b ∈ bs, ∃ a ∈ as, Projects p verifier a b) ∧
        Run (Sys.step p.lib) s₀.jwks bs (clientEvents es) s.jwks := by
  refine run.project (f := Service.jwks) (p := ServiceEvent.client?)
    (I := fun s => ∀ call ∈ s.jwks.suspended, Service.Selected p verifier call) ?_ ?_ ?_
  · intro t a u fs inv hstep call hcall
    cases Service.Move.of_step hstep with
    | clock | refuse => exact inv call hcall
    | run projects stepped =>
        have began := (Auth.Move.of_step stepped).suspended hcall
        exact Service.selected_of_projects projects inv began
  · intro t a u fs _ hstep
    exact (Service.Move.of_step hstep).project
  · simp [idle]

/-- A step of the service that runs the client is a step of a run of the client. -/
theorem Service.visit_of_run (start : Started p.lib url ttl interval s₀.jwks)
    (visit : Visit (Service.step p verifier) s₀ as es t a fs u) {b : Action Pending}
    {jwks : Sys Pending} (projects : Projects p verifier a b)
    (stepped : Sys.step p.lib t.jwks b = some (jwks, gs)) :
    ∃ bs, (∀ b ∈ bs, ∃ a ∈ as, Projects p verifier a b) ∧
      Visit (Sys.step p.lib) s₀.jwks bs (clientEvents es) t.jwks b gs jwks := by
  obtain ⟨before, initial, run, _⟩ := visit.run
  obtain ⟨_, bs, origin, hrun⟩ := Service.known_of_run start.suspended run
  refine ⟨bs ++ [b], ?_, .last hrun stepped⟩
  intro c hc
  rcases List.mem_append.mp hc with hc | hc
  · obtain ⟨a', ha', hprojects⟩ := origin c hc
    exact ⟨a', initial.subset (List.mem_append_left _ ha'), hprojects⟩
  · obtain rfl := List.mem_singleton.mp hc
    exact ⟨a, visit.mem, projects⟩

/-- A request is answered without a lookup, or in the step that ends its lookup:
that of the `kid` of its token, by the configured verifier. -/
theorem Service.lookup_of_answered (start : Started p.lib url ttl interval s₀.jwks)
    (visit : Visit (Service.step p verifier) s₀ as es t a fs u) {request : Request}
    {answer : Answer} (h : .answered request answer ∈ fs) :
    getClaims p verifier request = .error answer ∨
      ∃ bs b gs call time o, (∀ b ∈ bs, ∃ a ∈ as, Projects p verifier a b) ∧
        Visit (Sys.step p.lib) s₀.jwks bs (clientEvents es) t.jwks b gs u.jwks ∧
        clientEvents fs = gs ∧ .ended call time o ∈ gs ∧ Service.Selected p verifier call ∧
        call.tag.request = request ∧ call.tag.answer p t.wall o = answer := by
  cases Service.Move.of_step visit.step_eq with
  | clock => cases h
  | refuse refused =>
      obtain ⟨rfl, rfl⟩ : request = _ ∧ answer = _ := by simpa using h
      exact .inl refused
  | run projects stepped =>
      obtain ⟨call, time, o, hended, hrequest, hanswer⟩ := mem_answers_iff.mp h
      obtain ⟨bs, origin, hvisit⟩ := Service.visit_of_run start visit projects stepped
      obtain ⟨_, _, run, _⟩ := visit.run
      have inv := (Service.known_of_run start.suspended run).1
      have selected := Service.selected_of_projects projects inv
        ((Auth.Move.of_step stepped).ended_suspended hended)
      exact .inr ⟨bs, _, _, call, time, o, origin, hvisit, clientEvents_answers, hended, selected,
        hrequest, hanswer⟩

end Steps
end MestoryCore.Auth
