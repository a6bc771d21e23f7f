import MestoryCore.Auth.Disclosure
import MestoryCore.Auth.Handling

/-!
# What a client does not look at

A client reads differences of the monotonic clock and never a reading itself, and
it carries the tags of its calls without looking at them. So the system commutes
with every translation of the clock and of the tags, step by step, and a run is
translated as a whole. The first use is the origin of the clock, which Python
leaves open: no answer of a service depends on it.
-/

namespace MestoryCore.Auth

open Python Asyncio Transition

/-- A renaming of the tags together with a shift of the clock. -/
structure Transport (τ τ' : Type) where
  tag : τ → τ'
  shift : Time

variable {τ τ' : Type}

def Call.transport (h : Transport τ τ') (call : Call τ) : Call τ' where
  id := call.id
  kid := call.kid
  tag := h.tag call.tag

def JwksClient.transport (h : Transport τ τ') (c : JwksClient τ) : JwksClient τ' where
  url := c.url
  ttl := c.ttl
  minRefetchInterval := c.minRefetchInterval
  interval_le_ttl := c.interval_le_ttl
  keys := c.keys
  fetchedAt := c.fetchedAt.map (· + h.shift)
  lastAttemptAt := c.lastAttemptAt.map (· + h.shift)
  lastError := c.lastError
  lock := c.lock.map (Call.transport h)

def Segment.transport (h : Transport τ τ') : Segment τ → Segment τ'
  | .waiting client => .waiting (client.transport h)
  | .requesting client => .requesting (client.transport h)
  | .finished client outcome => .finished (client.transport h) outcome

def Flight.transport (h : Transport τ τ') (f : Flight τ) : Flight τ' where
  call := f.call.transport h
  number := f.number

def Sys.transport (h : Transport τ τ') (s : Sys τ) : Sys τ' where
  client := s.client.transport h
  flights := s.flights.map (Flight.transport h)
  now := s.now + h.shift
  calls := s.calls
  requests := s.requests
  exceptions := s.exceptions

def Action.transport (h : Transport τ τ') : Action τ → Action τ'
  | .advance time => .advance (time + h.shift)
  | .call kid tag => .call kid (h.tag tag)
  | .wake id => .wake id
  | .cancel id => .cancel id
  | .receive id got => .receive id got
  | .abort id => .abort id

def LoadEvent.transport (shift : Time) : LoadEvent → LoadEvent
  | .sent number mark => .sent number (mark + shift)
  | .installed number time document => .installed number (time + shift) document
  | .failed number error => .failed number error
  | .aborted number => .aborted number

def Event.transport (h : Transport τ τ') : Event τ → Event τ'
  | .called call => .called (call.transport h)
  | .queued call => .queued (call.transport h)
  | .load call event => .load (call.transport h) (event.transport h.shift)
  | .ended call time outcome => .ended (call.transport h) (time + h.shift) outcome

section Client

variable (h : Transport τ τ') (c : JwksClient τ) (now : Time) (kid : String) (lib : Library)
variable (exc : Nat)

@[simp] theorem JwksClient.transport_lookup : (c.transport h).lookup kid = c.lookup kid := rfl

@[simp] theorem JwksClient.transport_isStale :
    (c.transport h).isStale (now + h.shift) = c.isStale now := by
  cases hfetched : c.fetchedAt <;> simp [isStale, transport, hfetched]

@[simp] theorem JwksClient.transport_mayRefetch :
    (c.transport h).mayRefetch (now + h.shift) = c.mayRefetch now := by
  cases hmark : c.lastAttemptAt <;> simp [mayRefetch, transport, hmark]

@[simp] theorem JwksClient.transport_shouldAttemptFetch :
    (c.transport h).shouldAttemptFetch (now + h.shift) kid = c.shouldAttemptFetch now kid := by
  simp [shouldAttemptFetch]

@[simp] theorem JwksClient.transport_classify :
    (c.transport h).classify lib kid exc = c.classify lib kid exc := rfl

@[simp] theorem JwksClient.transport_fallBack (error : Raised) :
    (c.transport h).fallBack kid error = c.fallBack kid error := rfl

@[simp] theorem JwksClient.transport_install (keys : Keys) :
    (c.transport h).install (now + h.shift) keys = (c.install now keys).transport h := by
  simp only [install, transport, Lock.map_release]
  rfl

@[simp] theorem JwksClient.transport_recordFailure (error : Raised) :
    (c.transport h).recordFailure error = (c.recordFailure error).transport h := by
  simp only [recordFailure, transport, Lock.map_release]

@[simp] theorem JwksClient.transport_abortLoad :
    (c.transport h).abortLoad = c.abortLoad.transport h := by
  simp only [abortLoad, transport, Lock.map_release]

/-- A client whose lock is replaced by a renamed one. -/
theorem JwksClient.transport_withLock (lock : Lock (Call τ)) :
    { c.transport h with lock := lock.map (Call.transport h) } = { c with lock }.transport h := rfl

theorem JwksClient.transport_underLock (call : Call τ) :
    (c.transport h).underLock lib (now + h.shift) (call.transport h) exc =
      (c.underLock lib now call exc).transport h := by
  have hkid : (call.transport h).kid = call.kid := rfl
  have hlock : (c.transport h).lock.release = c.lock.release.map (Call.transport h) :=
    Lock.map_release (Call.transport h) c.lock
  simp only [underLock, hkid, transport_shouldAttemptFetch, hlock, transport_withLock,
    transport_classify]
  split <;> rfl

theorem JwksClient.transport_attemptFetch (call : Call τ) :
    (c.transport h).attemptFetch lib (now + h.shift) (call.transport h) exc =
      (c.attemptFetch lib now call exc).transport h := by
  have hid : (call.transport h).id = call.id := rfl
  have hlock : (c.transport h).lock = c.lock.map (Call.transport h) := rfl
  simp only [attemptFetch, hlock, hid, Lock.map_acquire?, Lock.map_enqueue, transport_withLock]
  cases hacquire : c.lock.acquire? with
  | none => rfl
  | some lock => exact transport_underLock h { c with lock } now lib exc call

theorem JwksClient.transport_getKey (call : Call τ) :
    (c.transport h).getKey lib (now + h.shift) (call.transport h) exc =
      (c.getKey lib now call exc).transport h := by
  have hkid : (call.transport h).kid = call.kid := rfl
  have hlocked : (c.transport h).lock.locked = c.lock.locked := rfl
  simp only [getKey, hkid, hlocked, transport_lookup, transport_isStale,
    transport_shouldAttemptFetch, transport_attemptFetch, transport_classify]
  split
  · rfl
  · split <;> rfl

end Client

section System

variable (h : Transport τ τ') (s : Sys τ) (lib : Library)

/-- What a step leads to, translated. -/
def Transport.result (r : Sys τ × List (Event τ)) : Sys τ' × List (Event τ') :=
  (r.1.transport h, r.2.map (Event.transport h))

theorem Sys.transport_settle (call : Call τ) (before : List (Event τ)) (segment : Segment τ) :
    (s.transport h).settle (call.transport h) (before.map (Event.transport h))
      (segment.transport h) = h.result (s.settle call before segment) := by
  cases segment with
  | waiting | finished =>
      simp [settle, Transport.result, Segment.transport, Event.transport, transport]
  | requesting =>
      simp [settle, Transport.result, Segment.transport, Event.transport, transport,
        Flight.transport, LoadEvent.transport]

theorem Sys.transport_flight? (id : Nat) :
    (s.transport h).flight? id = (s.flight? id).map (Flight.transport h) := by
  simp only [flight?, transport, List.find?_map]
  rfl

theorem Sys.transport_land (id : Nat) : (s.transport h).land id = (s.land id).transport h := by
  simp only [land, transport, List.eraseP_map]
  rfl

theorem Sys.transport_received (f : Flight τ) (got : Except LibraryExn Response) :
    (s.transport h).received lib (f.transport h) got = h.result (s.received lib f got) := by
  have hclient : (s.transport h).client = s.client.transport h := rfl
  have hurl : (s.client.transport h).url = s.client.url := rfl
  have hnow : (s.transport h).now = s.now + h.shift := rfl
  simp only [received, hclient, hurl, hnow, JwksClient.transport_install,
    JwksClient.transport_recordFailure]
  cases fetch lib s.client.url got with
  | ok result =>
      obtain ⟨document, keys⟩ := result
      exact transport_settle h s f.call [.load f.call (.installed f.number s.now document)]
        (.finished (s.client.install s.now keys) _)
  | error exn =>
      exact transport_settle h s f.call [.load f.call (.failed f.number ⟨s.exceptions, exn, none⟩)]
        (.finished (s.client.recordFailure ⟨s.exceptions, exn, none⟩) _)

/-- The system commutes with every translation. -/
theorem Sys.transport_step (a : Action τ) :
    Sys.step lib (s.transport h) (a.transport h) = (Sys.step lib s a).map h.result := by
  have hlock : (s.transport h).client.lock = s.client.lock.map (Call.transport h) := rfl
  cases a with
  | advance time =>
      simp only [Action.transport, step, transport, add_le_add_iff_right]
      split <;> rfl
  | call kid tag =>
      have began := transport_settle h { s with calls := s.calls + 1 } ⟨s.calls, kid, tag⟩
        [.called ⟨s.calls, kid, tag⟩] (s.client.getKey lib s.now ⟨s.calls, kid, tag⟩ s.exceptions)
      rw [← JwksClient.transport_getKey] at began
      exact congrArg some began
  | wake id =>
      simp only [Action.transport, step, hlock, Lock.map_find?, Lock.map_resume, Lock.map_abandon]
      cases s.client.lock.find? id with
      | none => rfl
      | some w =>
          have hfuture : (w.map (Call.transport h)).future = w.future := rfl
          simp only [Option.map_some, hfuture]
          cases w.future with
          | pending => rfl
          | woken =>
              have woken := transport_settle h s w.task [] ({ s.client with
                lock := s.client.lock.resume id }.underLock lib s.now w.task s.exceptions)
              rw [← JwksClient.transport_underLock] at woken
              exact congrArg some woken
          | cancelled | wokenCancelled =>
              exact congrArg some (transport_settle h s w.task []
                (.finished { s.client with lock := s.client.lock.abandon id } .cancelled))
  | cancel id =>
      simp only [Action.transport, step, hlock, Lock.map_find?, Lock.map_cancel]
      cases s.client.lock.find? id <;> rfl
  | receive id got =>
      simp only [Action.transport, step, transport_flight?]
      cases s.flight? id with
      | none => rfl
      | some f => simp only [Option.map_some, transport_land, transport_received]
  | abort id =>
      have hclient : (s.transport h).client.abortLoad = s.client.abortLoad.transport h :=
        s.client.transport_abortLoad h
      simp only [Action.transport, step, transport_flight?, transport_land, hclient]
      cases s.flight? id with
      | none => rfl
      | some f =>
          exact congrArg some (transport_settle h (s.land id) f.call
            [.load f.call (.aborted f.number)] (.finished s.client.abortLoad .cancelled))

end System

/-! ## The loads of a translated trace -/

section Trace

variable (h : Transport τ τ') (es : List (Event τ))

theorem history_transport :
    history (es.map (Event.transport h)) = (history es).map (LoadEvent.transport h.shift) := by
  induction es with
  | nil => rfl
  | cons e es ih => cases e <;> simp [Event.transport, ih]

theorem marks_transport (shift : Time) (hs : List LoadEvent) :
    marks (hs.map (LoadEvent.transport shift)) = (marks hs).map fun p => (p.1, p.2 + shift) := by
  induction hs with
  | nil => rfl
  | cons e hs ih =>
      have cons : ∀ (e : LoadEvent) gs, marks (e :: gs) = marks [e] ++ marks gs :=
        fun e gs => marks_append [e] gs
      rw [List.map_cons, cons, cons e, List.map_append, ih]
      cases e <;> rfl

/-- A new client is the same at any time, and looks at no tag. -/
theorem Started.transport {lib : Library} {url : String} {ttl interval : Time} {s : Sys τ}
    (start : Started lib url ttl interval s) : Started lib url ttl interval (s.transport h) := by
  obtain ⟨now, hinit⟩ := start
  obtain ⟨hle, rfl⟩ := JwksClient.eq_of_init hinit
  exact .mk (now + h.shift) (by simp [JwksClient.init, hle, JwksClient.transport, Lock.map])

end Trace

/-! ## The origin of the monotonic clock -/

/-- The translation of a clock that reads `δ` more. -/
def Transport.clock (δ : Time) : Transport τ τ := ⟨id, δ⟩

section Shift

variable {p : Platform} {verifier : Option Verifier} {url : String} {ttl interval : Time}
variable {s₀ s : Service} {as : List ServiceAction} {es : List ServiceEvent}
variable (δ : Time)

def Service.shift (s : Service) : Service := { s with jwks := s.jwks.transport (.clock δ) }

def ServiceAction.shift : ServiceAction → ServiceAction
  | .client action => .client (action.transport (.clock δ))
  | .clock wall => .clock wall
  | .request arrived => .request arrived

def ServiceEvent.shift : ServiceEvent → ServiceEvent
  | .client event => .client (event.transport (.clock δ))
  | .answered request answer => .answered request answer

theorem Service.answers_shift (wall : ℚ) (gs : List (Event Pending)) :
    (gs.map (Event.transport (.clock δ))).flatMap (Service.answers p wall) =
      (gs.flatMap (Service.answers p wall)).map (ServiceEvent.shift δ) := by
  induction gs with
  | nil => rfl
  | cons e gs ih =>
      rw [List.map_cons, List.flatMap_cons, List.flatMap_cons, List.map_append, ih]
      cases e <;> rfl

theorem Service.run_shift (s : Service) (a : Action Pending) :
    (s.shift δ).run p (a.transport (.clock δ)) =
      (s.run p a).map fun r => (r.1.shift δ, r.2.map (ServiceEvent.shift δ)) := by
  have hjwks : (s.shift δ).jwks = s.jwks.transport (.clock δ) := rfl
  simp only [run, hjwks, Sys.transport_step, Option.map_map]
  congr 1
  funext r
  simp only [Function.comp_apply, Transport.result, answers_shift]
  rfl

/-- The service commutes with a shift of its monotonic clock. -/
theorem Service.step_shift (s : Service) (a : ServiceAction) :
    Service.step p verifier (s.shift δ) (a.shift δ) =
      (Service.step p verifier s a).map fun r => (r.1.shift δ, r.2.map (ServiceEvent.shift δ)) := by
  cases a with
  | clock wall => rfl
  | request arrived =>
      simp only [ServiceAction.shift, step]
      cases getClaims p verifier arrived with
      | error answer => rfl
      | ok pair => exact run_shift δ s (.call pair.2 pair.1)
  | client a =>
      have hcall : (a.transport (.clock δ) : Action Pending).isCall = a.isCall := by cases a <;> rfl
      simp only [ServiceAction.shift, step, hcall]
      split
      · rfl
      · exact run_shift δ s a

theorem clientEvents_shift :
    clientEvents (es.map (ServiceEvent.shift δ)) =
      (clientEvents es).map (Event.transport (.clock δ)) := by
  simp only [clientEvents, List.filterMap_map, List.map_filterMap]
  congr 1
  funext e
  cases e <;> rfl

/-- Where the monotonic clock has its origin does not matter. A service whose
clock reads `δ` more, in particular one started right after the boot of its
machine, gives the same answers and sends its requests at the same moments. -/
theorem shifted_of_run (start : Started p.lib url ttl interval s₀.jwks)
    (run : Run (Service.step p verifier) s₀ as es s) :
    Started p.lib url ttl interval (s₀.shift δ).jwks ∧
      ∃ es', Run (Service.step p verifier) (s₀.shift δ) (as.map (ServiceAction.shift δ)) es'
          (s.shift δ) ∧
        es'.filterMap ServiceEvent.answer? = es.filterMap ServiceEvent.answer? ∧
        marks (history (clientEvents es')) =
          (marks (history (clientEvents es))).map fun p => (p.1, p.2 + δ) := by
  refine ⟨start.transport _, _, run.map (Service.step_shift δ), ?_, ?_⟩
  · rw [List.filterMap_map]
    congr 1
    funext e
    cases e <;> rfl
  · rw [clientEvents_shift, history_transport, marks_transport]
    rfl

/-- A service whose clock starts below the length of the throttle window. -/
theorem shifted_of_run_boot :
    ∃ es s es', Run (Service.step .sample (some .sample)) .sample
        (oneRequest (.sample ["k1"])) es s ∧
      Run (Service.step .sample (some .sample)) (Service.sample.shift 7)
        ((oneRequest (.sample ["k1"])).map (ServiceAction.shift 7)) es' (s.shift 7) ∧
      (es'.filterMap ServiceEvent.answer?).length = 1 := by
  have hrun : (exec (Service.step .sample (some .sample)) .sample
      (oneRequest (.sample ["k1"]))).map (fun r => (r.2.filterMap ServiceEvent.answer?).length) =
      some 1 := by decide +kernel
  obtain ⟨es, s, run, hcount⟩ :=
    Run.of_exec_map (f := fun es _ => (es.filterMap ServiceEvent.answer?).length) hrun
  obtain ⟨_, es', run', same, _⟩ := shifted_of_run 7 (.sample) run
  exact ⟨es, s, es', run, run', by rw [same, hcount]⟩

end Shift
end MestoryCore.Auth
