import MestoryCore.Auth.Refinement

/-!
# How a call ends

A call of `get_key` leaves through one of five exits: it is cancelled, it hits
the fresh cache, it decides against a load, or its own load brings a document or
fails. `Exit` says what the call saw at its exit and what its outcome was
computed from. Claims about outcomes are then case analyses of `Exit`, and need
not go back to the segments.
-/

namespace MestoryCore.Auth

open Python Asyncio Transition

variable {τ : Type} {lib : Library} {url : String} {ttl interval : Time}
variable {s t : Sys τ} {a : Action τ} {as : List (Action τ)} {es : List (Event τ)}
variable {call : Call τ} {time : Time} {o : Outcome}

/-- The call decides in this step whether to load: its first segment finds the
lock unlocked, or it was woken as the next holder of the lock. -/
inductive Enters (s : Sys τ) : Action τ → Call τ → Prop where
  | first {kid : String} {tag : τ} (unlocked : s.client.lock.locked = false) :
      Enters s (.call kid tag) ⟨s.calls, kid, tag⟩
  | woken {id : Nat} {w : Waiter (Call τ)} (found : s.client.lock.find? id = some w)
      (future : w.future = .woken) : Enters s (.wake id) w.task

inductive Exit (lib : Library) (s : Sys τ) (a : Action τ) (es : List (Event τ)) (t : Sys τ)
    (call : Call τ) : Outcome → Prop where
  | cancelled : Exit lib s a es t call .cancelled
  | hit {key : String} (cached : t.client.lookup call.kid = some key)
      (fresh : t.client.isStale t.now = false) : Exit lib s a es t call (.returned key)
  | unloaded (enters : Enters s a call)
      (unneeded : s.client.shouldAttemptFetch s.now call.kid = false) (idle : t.flights = [])
      (same : ∃ lock, t.client = { s.client with lock }) (now : t.now = s.now)
      (quiet : history es = []) :
      Exit lib s a es t call (s.client.classify lib call.kid s.exceptions)
  | loaded {number : Nat} {document : Json}
      (installed : history es = [.installed number t.now document])
      (warm : t.client.keys ≠ ∅) (fetchedAt : t.client.fetchedAt = some t.now) :
      Exit lib s a es t call (t.client.classify lib call.kid s.exceptions)
  | failed {id number : Nat} {got : Except LibraryExn Response} {exn : Exn}
      (received : a = .receive id got) (fetched : fetch lib s.client.url got = .error exn)
      (flying : s.loads.inFlight = some number)
      (failed : history es = [.failed number ⟨s.exceptions, exn, none⟩])
      (client : t.client = s.client.recordFailure ⟨s.exceptions, exn, none⟩) (now : t.now = s.now) :
      Exit lib s a es t call (t.client.fallBack call.kid ⟨s.exceptions, exn, none⟩)

/-- A call that ends in a step leaves through one of the exits. -/
theorem Move.exit (inv : Guarded url ttl interval s) (m : Move lib s a t es)
    (h : .ended call time o ∈ es) : time = t.now ∧ Exit lib s a es t call o := by
  cases m with
  | advance | queue | cancel => simp at h
  | hit cached fresh =>
      obtain ⟨rfl, rfl, rfl⟩ : call = _ ∧ time = _ ∧ o = _ := by simpa using h
      exact ⟨rfl, .hit cached fresh⟩
  | throttled unlocked miss window =>
      obtain ⟨rfl, rfl, rfl⟩ : call = _ ∧ time = _ ∧ o = _ := by simpa using h
      refine ⟨rfl, .unloaded (.first unlocked) ?_ (inv.flights_eq_nil unlocked) ⟨_, rfl⟩ rfl rfl⟩
      simp [JwksClient.shouldAttemptFetch, window]
  | send entry needed =>
      cases entry <;> simp at h
  | recheck found future unneeded =>
      obtain ⟨rfl, rfl, rfl⟩ : call = _ ∧ time = _ ∧ o = _ := by simpa using h
      exact ⟨rfl, .unloaded (.woken found future) unneeded (inv.woken found future).1 ⟨_, rfl⟩
        rfl rfl⟩
  | withdraw found future =>
      obtain ⟨rfl, rfl, rfl⟩ : call = _ ∧ time = _ ∧ o = _ := by simpa using h
      exact ⟨rfl, .cancelled⟩
  | install found fetched =>
      obtain ⟨rfl, rfl, rfl⟩ : call = _ ∧ time = _ ∧ o = _ := by simpa using h
      exact ⟨rfl, .loaded rfl (parseKeys_eq_ok (fetch_eq_ok fetched).2).2 rfl⟩
  | fail found fetched =>
      obtain ⟨rfl, rfl, rfl⟩ : call = _ ∧ time = _ ∧ o = _ := by simpa using h
      exact ⟨rfl, .failed rfl fetched (inv.flying found) rfl rfl rfl⟩
  | abort found =>
      obtain ⟨rfl, rfl, rfl⟩ : call = _ ∧ time = _ ∧ o = _ := by simpa using h
      exact ⟨rfl, .cancelled⟩

/-- A call that decides against a load for a `kid` it does not find ends in the
same step, with the cache as it is. -/
theorem Enters.ended (enters : Enters s a call) (miss : s.client.lookup call.kid = none)
    (window : s.client.mayRefetch s.now = false) (m : Move lib s a t es) :
    .ended call s.now (s.client.classify lib call.kid s.exceptions) ∈ es ∧
      (∃ lock, t.client = { s.client with lock }) ∧ history es = [] := by
  have unneeded : s.client.shouldAttemptFetch s.now call.kid = false := by
    simp [JwksClient.shouldAttemptFetch, window]
  cases enters with
  | first unlocked =>
      cases m with
      | hit cached fresh => simp [miss] at cached
      | queue busy _ due => simp [unlocked, unneeded] at due
      | throttled => exact ⟨by simp, ⟨_, rfl⟩, rfl⟩
      | send entry needed =>
          cases entry
          simp [unneeded] at needed
  | woken found future =>
      cases m with
      | send entry needed =>
          cases entry with
          | woken found' future' =>
              obtain rfl := Option.some.inj (found.symm.trans found')
              simp [unneeded] at needed
      | recheck found' =>
          obtain rfl := Option.some.inj (found.symm.trans found')
          exact ⟨by simp, ⟨_, rfl⟩, rfl⟩
      | withdraw found' future' =>
          obtain rfl := Option.some.inj (found.symm.trans found')
          simp [future] at future'

namespace Exit

/-- A returned key is in the cache at the moment of return. -/
theorem lookup_of_returned (h : Exit lib s a es t call o) {pem : String} (ho : o = .returned pem) :
    t.client.lookup call.kid = some pem := by
  cases h with
  | cancelled => cases ho
  | hit cached =>
      obtain rfl := Outcome.returned.inj ho
      exact cached
  | unloaded _ _ _ same =>
      obtain ⟨lock, hclient⟩ := same
      rw [hclient, JwksClient.lookup_lock]
      exact JwksClient.classify_eq_returned_iff.mp ho
  | loaded => exact JwksClient.classify_eq_returned_iff.mp ho
  | failed => exact (JwksClient.fallBack_eq_returned_iff.mp ho).2

/-- A call that is not cancelled and does not run into a programming error
returns the key that the cache holds at its end. -/
theorem returned_of_lookup (h : Exit lib s a es t call o) (hcancel : o ≠ .cancelled)
    (source : ∀ id got exn, a = .receive id got → fetch lib s.client.url got = .error exn →
      exn.cls.isSourceError = true) {pem : String} (cached : t.client.lookup call.kid = some pem) :
    o = .returned pem := by
  cases h with
  | cancelled => exact absurd rfl hcancel
  | hit cached' =>
      obtain rfl := Option.some.inj (cached'.symm.trans cached)
      rfl
  | unloaded _ _ _ same =>
      obtain ⟨lock, hclient⟩ := same
      rw [hclient, JwksClient.lookup_lock] at cached
      exact JwksClient.classify_eq_returned_iff.mpr cached
  | loaded => exact JwksClient.classify_eq_returned_iff.mpr cached
  | failed received fetched =>
      exact JwksClient.fallBack_eq_returned_iff.mpr ⟨source _ _ _ received fetched, cached⟩

end Exit

/-- A call that returned, and when and what. -/
def Event.returned? : Event τ → Option (Call τ × Time × String)
  | .ended call time (.returned pem) => some (call, time, pem)
  | _ => none

theorem ended_of_returned {pem : String}
    (h : es.findSome? Event.returned? = some (call, time, pem)) :
    .ended call time (.returned pem) ∈ es := by
  obtain ⟨e, he, hreturned⟩ := List.exists_of_findSome?_eq_some h
  cases e with
  | ended call' time' o =>
      cases o with
      | returned pem' =>
          obtain ⟨rfl, rfl, rfl⟩ : call' = call ∧ time' = time ∧ pem' = pem := by
            simpa [Event.returned?] using hreturned
          exact he
      | raised | cancelled => cases hreturned
  | called | queued | load => cases hreturned

/-! ## What a visit knows -/

/-- Every load that ends in this schedule with an exception ends with an
`httpx.HTTPError` or a `MalformedJwksDocumentError`. -/
def SourceFailures (lib : Library) (url : String) (as : List (Action τ)) : Prop :=
  ∀ id got, .receive id got ∈ as → ∀ exn, fetch lib url got = .error exn →
    exn.cls.isSourceError = true

theorem SourceFailures.sample
    (h : ∀ id got, .receive id got ∈ as → got = .ok (.sample ["k1"]) ∨ got = .ok .unavailable) :
    SourceFailures .sample sampleUrl as := by
  intro id got hreceived exn hfetch
  rcases h id got hreceived with rfl | rfl
  · have hok : (fetch .sample sampleUrl (.ok (.sample ["k1"]))).toOption.isSome = true := by
      decide +kernel
    simp [hfetch] at hok
  · obtain rfl := Except.error.inj hfetch
    rfl

/-- What a run knows about one of its steps: the move, and the invariants of the
loads on both sides of it. -/
theorem known_of_visit {s₀ v u : Sys τ} {as : List (Action τ)} {fs : List (Event τ)}
    (start : Started lib url ttl interval s₀) (visit : Visit (Sys.step lib) s₀ as es v a fs u) :
    Move lib v a u fs ∧ Known lib url ttl interval es v ∧
      Known lib url ttl interval (es ++ fs) u := by
  obtain ⟨_, _, run, run'⟩ := visit.run
  exact ⟨.of_step visit.step_eq, known_of_run start run, known_of_run start run'⟩

/-- A failed load in a trace has its answer in the schedule. -/
theorem received_of_failed {s₀ : Sys τ} {as : List (Action τ)} {number : Nat} {error : Raised}
    (start : Started lib url ttl interval s₀) (run : Run (Sys.step lib) s₀ as es s)
    (h : .failed number error ∈ history es) :
    ∃ id got, .receive id got ∈ as ∧ fetch lib url got = .error error.exn := by
  obtain ⟨e, he, hload⟩ := List.mem_filterMap.mp h
  obtain ⟨es₁, v, a, fs, u, visit, hmem⟩ := run.exists_visit he
  obtain ⟨m, before, _⟩ := known_of_visit start visit
  have hurl := before.guarded.url_eq
  have emitted : .failed number error ∈ history fs := List.mem_filterMap.mpr ⟨e, hmem, hload⟩
  cases m with
  | advance | hit | queue | throttled | recheck | withdraw | cancel | install | abort =>
      simp at emitted
  | send entry needed =>
      cases entry <;> simp at emitted
  | fail found fetched =>
      obtain ⟨rfl, rfl⟩ : number = _ ∧ error = _ := by simpa using emitted
      rw [hurl] at fetched
      exact ⟨_, _, visit.mem, fetched⟩

end MestoryCore.Auth
