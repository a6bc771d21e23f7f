import MestoryCore.Auth.Exit

/-!
# Outages of the key source

While the last load has failed, a call that the cache cannot answer should end
with the exception of that load or a copy of it, so that an outage is told apart
from a bad token. `OutageReported` and `ColdReported` say this of one step, for
a warm and for a cold cache.

The classification of `get_key` looks at the cache before it looks at the
remembered error, a cancelled load remembers no error at all, and a load that
runs into an unhashable `kid` remembers a `TypeError`, which is not the source's
failure. `MasksOutage` and `LacksSourceError` are the states in which this loses
the outage; both are conditions on the state in which a call takes its decision.
-/

namespace MestoryCore.Auth

open Python Asyncio Transition

variable {τ : Type} {lib : Library} {url : String} {ttl interval : Time}
variable {s₀ s t u : Sys τ} {a : Action τ} {as : List (Action τ)} {es fs : List (Event τ)}

/-- The exception reports the failure of a load: it is the exception of that
load, or a copy of it with the original as its cause. -/
def Reports (lib : Library) (error exc : Raised) : Prop :=
  exc = error ∨
    exc.exn = { respawn lib error.exn with cause := some error.exn } ∧ exc.causeId = some error.id

theorem Reports.cls_eq {error exc : Raised} (h : Reports lib error exc) :
    exc.exn.cls = error.exn.cls := by
  rcases h with rfl | ⟨hexn, _⟩
  · rfl
  · rw [hexn]
    exact respawn_cls lib error.exn

/-- The last completed load failed, so a request of the run was answered with
that failure. -/
theorem received_of_lastFailure (start : Started lib url ttl interval s₀)
    (run : Run (Sys.step lib) s₀ as es s) {error : Raised}
    (h : lastFailure (history es) = some error) :
    ∃ id got, .receive id got ∈ as ∧ fetch lib url got = .error error.exn := by
  have hlatest : latest LoadEvent.completion? (history es) = some (some error) :=
    Option.join_eq_some_iff.mp h
  obtain ⟨e, he, hcompletion⟩ := exists_mem_of_latest hlatest
  cases e with
  | failed number error' =>
      obtain rfl : error' = error := by simpa using hcompletion
      exact received_of_failed start run he
  | sent | installed | aborted => simp at hcompletion

/-- Where loads fail only as the source can fail, calls raise nothing else than
that or an unknown key. -/
theorem cls_of_ended_raised (start : Started lib url ttl interval s₀)
    (sources : SourceFailures lib url as) (visit : Visit (Sys.step lib) s₀ as es t a fs u)
    {call : Call τ} {time : Time} {exc : Raised} (ended : .ended call time (.raised exc) ∈ fs) :
    exc.exn.cls = .unknownSigningKey ∨ exc.exn.cls.isSourceError = true := by
  obtain ⟨m, before, after⟩ := known_of_visit start visit
  obtain ⟨schedule, initial, run, run'⟩ := visit.run
  have subset : ∀ b ∈ schedule, b ∈ as := fun b hb => initial.subset (List.mem_append_left _ hb)
  obtain ⟨_, exit⟩ := m.exit before.guarded ended
  generalize ho : Outcome.raised exc = o at exit
  cases exit with
  | cancelled | hit => cases ho
  | unloaded =>
      rcases JwksClient.cls_of_classify_eq_raised ho.symm with hunknown | ⟨error, hlast, hcls⟩
      · exact .inl hunknown
      · obtain ⟨id, got, hreceived, hfetch⟩ :=
          received_of_lastFailure start run (before.cached.error.symm.trans hlast)
        rw [hcls]
        exact .inr (sources id got (subset _ hreceived) _ hfetch)
  | loaded =>
      rcases JwksClient.cls_of_classify_eq_raised ho.symm with hunknown | ⟨error, hlast, hcls⟩
      · exact .inl hunknown
      · obtain ⟨id, got, hreceived, hfetch⟩ :=
          received_of_lastFailure start run' (after.cached.error.symm.trans hlast)
        rw [hcls]
        exact .inr (sources id got (initial.subset hreceived) _ hfetch)
  | failed received fetched =>
      obtain rfl := JwksClient.eq_of_fallBack_eq_raised ho.symm
      rw [before.guarded.url_eq] at fetched
      exact .inr (sources _ _ (received ▸ visit.mem) _ fetched)

/-- No load has failed since the last document was installed. -/
theorem Known.succeeded (known : Known lib url ttl interval es s) (warm : s.client.keys ≠ ∅)
    (forgotten : s.client.lastError = none) :
    latest LoadEvent.completion? (history es) = some none := by
  have hjoin : (latest LoadEvent.completion? (history es)).join = none :=
    known.cached.error.symm.trans forgotten
  cases hlatest : latest LoadEvent.completion? (history es) with
  | some completion =>
      rw [hlatest] at hjoin
      simpa using hjoin
  | none =>
      -- Without a completed load there is no document, and the cache is cold.
      have hinstall : latest LoadEvent.install? (history es) = none := by
        rw [latest_eq_none_iff] at hlatest ⊢
        intro e he
        have hnone := hlatest e he
        cases e with
        | installed => simp at hnone
        | sent | failed | aborted => rfl
      have hcold := known.cached.document
      rw [hinstall] at hcold
      exact absurd hcold.1 warm

/-! ## A warm cache -/

/-- What the calls that end in a step say about a failed load: an unknown key is
reported only if the last completed load succeeded, and otherwise a `kid` that
the cache does not hold surfaces as the failure of the source. -/
structure OutageReported (lib : Library) (es fs : List (Event τ)) (u : Sys τ) : Prop where
  unknown : ∀ call time exc, .ended call time (.raised exc) ∈ fs →
    exc.exn.cls = .unknownSigningKey → u.client.keys ≠ ∅ →
    latest LoadEvent.completion? (history (es ++ fs)) = some none
  surfaced : ∀ call time o error, .ended call time o ∈ fs →
    lastFailure (history (es ++ fs)) = some error → u.client.lookup call.kid = none →
    o ≠ .cancelled →
    ∃ exc, o = .raised exc ∧ Reports lib error exc ∧ exc.exn.cls.isSourceError = true

/-- A call decides within the throttle window of a failed load, for a `kid` that
is missing from a cache that is not empty. -/
def MasksOutage (s : Sys τ) (a : Action τ) : Prop :=
  ∃ call, Enters s a call ∧ s.client.lookup call.kid = none ∧ s.client.keys ≠ ∅ ∧
    s.client.lastError ≠ none ∧ s.client.mayRefetch s.now = false

/-- A call that decides against a load and does not find its key has a cold
cache or no failure to report, unless it masks an outage. -/
private theorem lastError_eq_none_of_not_masksOutage {call : Call τ} (clear : ¬ MasksOutage s a)
    (enters : Enters s a call) (unneeded : s.client.shouldAttemptFetch s.now call.kid = false)
    (miss : s.client.lookup call.kid = none) (warm : s.client.keys ≠ ∅) :
    s.client.lastError = none := by
  by_contra hfailed
  rw [JwksClient.shouldAttemptFetch_of_lookup_eq_none miss] at unneeded
  exact clear ⟨call, enters, miss, warm, hfailed, unneeded⟩

/-- A step in which no call masks an outage reports it. -/
theorem OutageReported.of_not_masksOutage (start : Started lib url ttl interval s₀)
    (sources : SourceFailures lib url as) (visit : Visit (Sys.step lib) s₀ as es t a fs u)
    (clear : ¬ MasksOutage t a) : OutageReported lib es fs u := by
  obtain ⟨m, before, after⟩ := known_of_visit start visit
  refine ⟨?_, ?_⟩
  · intro call time exc hended hcls warm
    obtain ⟨_, exit⟩ := m.exit before.guarded hended
    generalize ho : Outcome.raised exc = o at exit
    cases exit with
    | cancelled | hit => cases ho
    | unloaded enters unneeded _ same =>
        obtain ⟨lock, hclient⟩ := same
        have miss : t.client.lookup call.kid = none := by
          by_contra hhit
          obtain ⟨key, hkey⟩ := Option.ne_none_iff_exists'.mp hhit
          rw [JwksClient.classify_eq_returned_iff.mpr hkey] at ho
          cases ho
        have warm' : t.client.keys ≠ ∅ := by simpa [hclient] using warm
        refine after.succeeded warm ?_
        rw [hclient]
        exact lastError_eq_none_of_not_masksOutage clear enters unneeded miss warm'
    | loaded installed => simp [installed]
    | failed _ fetched =>
        have heq := JwksClient.eq_of_fallBack_eq_raised ho.symm
        rw [heq] at hcls
        exact absurd hcls (fetch_ne_unknownSigningKey fetched)
  · intro call time o error hended hfailure miss hcancel
    obtain ⟨_, exit⟩ := m.exit before.guarded hended
    have source : error.exn.cls.isSourceError = true := by
      obtain ⟨schedule, initial, _, run⟩ := visit.run
      obtain ⟨id, got, hreceived, hfetch⟩ := received_of_lastFailure start run hfailure
      exact sources id got (initial.subset hreceived) _ hfetch
    suffices hreports : ∃ exc, o = .raised exc ∧ Reports lib error exc by
      obtain ⟨exc, ho, reports⟩ := hreports
      exact ⟨exc, ho, reports, by rw [reports.cls_eq, source]⟩
    cases exit with
    | cancelled => exact absurd rfl hcancel
    | hit cached =>
        rw [miss] at cached
        cases cached
    | unloaded enters unneeded _ same =>
        obtain ⟨lock, hclient⟩ := same
        have remembered : t.client.lastError = some error := by
          have hlast : u.client.lastError = some error := after.cached.error.trans hfailure
          simpa [hclient] using hlast
        rw [hclient, JwksClient.lookup_lock] at miss
        by_cases warm : t.client.keys = ∅
        · exact ⟨_, JwksClient.classify_of_lastError warm remembered, .inr ⟨rfl, rfl⟩⟩
        · rw [lastError_eq_none_of_not_masksOutage clear enters unneeded miss warm] at remembered
          cases remembered
    | loaded installed => simp [lastFailure, installed] at hfailure
    | failed _ _ _ failed =>
        obtain rfl : _ = error := by simpa [lastFailure, failed] using hfailure
        exact ⟨_, JwksClient.fallBack_of_lookup_eq_none _ miss, .inl rfl⟩

/-- A step that masks an outage reports an unknown key after a failed load. -/
theorem not_masksOutage_of_outageReported (start : Started lib url ttl interval s₀)
    (visit : Visit (Sys.step lib) s₀ as es t a fs u) (reported : OutageReported lib es fs u) :
    ¬ MasksOutage t a := by
  rintro ⟨call, enters, miss, warm, failed, window⟩
  obtain ⟨m, before, _⟩ := known_of_visit start visit
  obtain ⟨hended, ⟨lock, hclient⟩, quiet⟩ := enters.ended miss window m
  rw [JwksClient.classify_of_keys_ne_empty miss warm] at hended
  have hsucceeded := reported.unknown call t.now _ hended rfl (by simpa [hclient] using warm)
  have hnone : t.client.lastError = none := by
    rw [history_append, quiet, List.append_nil] at hsucceeded
    have hlast : t.client.lastError = lastFailure (history es) := before.cached.error
    rw [hlast, lastFailure, hsucceeded]
    rfl
  exact failed hnone

/-- Over every run whose loads fail only as the source can fail: every step
reports the outage exactly when no call ever decides within the throttle window
of a failed load on a `kid` that is missing from a warm cache. -/
theorem outageReported_iff (start : Started lib url ttl interval s₀)
    (sources : SourceFailures lib url as) :
    (∀ es₁ t a fs u, Visit (Sys.step lib) s₀ as es₁ t a fs u → OutageReported lib es₁ fs u) ↔
      ∀ es₁ t a fs u, Visit (Sys.step lib) s₀ as es₁ t a fs u → ¬ MasksOutage t a := by
  constructor
  · intro reported es₁ t a fs u visit
    exact not_masksOutage_of_outageReported start visit (reported es₁ t a fs u visit)
  · intro clear es₁ t a fs u visit
    exact .of_not_masksOutage start sources visit (clear es₁ t a fs u visit)

/-- A document, and a failed load for another `kid`. -/
def outage : List (Action Unit) :=
  [.call "k1" (), .receive 0 (.ok (.sample ["k1"])), .advance 31, .call "nope" (),
    .receive 1 (.ok .unavailable)]

private theorem sourceFailures_outage :
    SourceFailures .sample sampleUrl (outage ++ [.call "nope" ()]) := by
  apply SourceFailures.sample
  intro id got hreceived
  simp [outage] at hreceived
  tauto

private def unknownKey : Event τ → Bool
  | .ended _ _ (.raised exc) => exc.exn.cls = .unknownSigningKey
  | _ => false

private theorem exists_of_unknownKey (h : fs.any unknownKey = true) :
    ∃ call time exc, .ended call time (.raised exc) ∈ fs ∧ exc.exn.cls = .unknownSigningKey := by
  obtain ⟨e, he, hunknown⟩ := List.any_eq_true.mp h
  cases e with
  | ended call time o =>
      cases o with
      | raised exc => exact ⟨call, time, exc, he, by simpa [unknownKey] using hunknown⟩
      | returned | cancelled => cases hunknown
  | called | queued | load => cases hunknown

/-- The next call for the same `kid` is told that the key is unknown, although
the last load failed. -/
theorem outage_masked :
    Started .sample sampleUrl 3600 30 (.sample : Sys Unit) ∧
      SourceFailures .sample sampleUrl (outage ++ [.call "nope" ()]) ∧
      ∃ es t fs u, Visit (Sys.step .sample) .sample (outage ++ [.call "nope" ()]) es t
        (.call "nope" ()) fs u ∧ ¬ OutageReported .sample es fs u := by
  refine ⟨.sample, sourceFailures_outage, ?_⟩
  have hrun : observe (Sys.step .sample) (fun es _ fs u => (decide (u.client.keys = ∅),
      fs.any unknownKey, (latest LoadEvent.completion? (history (es ++ fs))).map Option.isSome))
      .sample outage (.call "nope" ()) = some (false, true, some true) := by decide +kernel
  obtain ⟨es, t, fs, u, visit, hobserved⟩ := Visit.of_observe hrun
  refine ⟨es, t, fs, u, visit, ?_⟩
  intro reported
  simp only [Prod.mk.injEq, decide_eq_false_iff_not] at hobserved
  obtain ⟨warm, hunknown, hfailed⟩ := hobserved
  obtain ⟨call, time, exc, hended, hcls⟩ := exists_of_unknownKey hunknown
  rw [reported.unknown call time exc hended hcls warm] at hfailed
  cases hfailed

/-- The rule at the run of the outage. -/
theorem outageReported_iff_outage :
    (∀ es₁ t a fs u, Visit (Sys.step .sample) .sample (outage ++ [.call "nope" ()]) es₁ t a fs u →
        OutageReported .sample es₁ fs u) ↔
      ∀ es₁ t a fs u, Visit (Sys.step .sample) .sample (outage ++ [.call "nope" ()]) es₁ t a fs u →
        ¬ MasksOutage t a :=
  outageReported_iff .sample sourceFailures_outage

/-! ## A cold cache -/

/-- What the calls that end in a step with a cold cache report: never an unknown
key, but the failure of the last completed load, which is the load of the call
itself or failed as the source can fail. -/
def ColdReported (lib : Library) (es fs : List (Event τ)) (u : Sys τ) : Prop :=
  ∀ call time o, .ended call time o ∈ fs → u.client.keys = ∅ → o ≠ .cancelled →
    ∃ error exc, lastFailure (history (es ++ fs)) = some error ∧ o = .raised exc ∧
      Reports lib error exc ∧ exc.exn.cls ≠ .unknownSigningKey ∧
      ((∃ number, .load call (.failed number error) ∈ fs) ∨ exc.exn.cls.isSourceError = true)

/-- A call decides within the throttle window of an attempt that left neither a
document nor a failure of the source. -/
def LacksSourceError (s : Sys τ) (a : Action τ) : Prop :=
  ∃ call, Enters s a call ∧ s.client.keys = ∅ ∧ s.client.mayRefetch s.now = false ∧
    ∀ error, s.client.lastError = some error → error.exn.cls.isSourceError = false

/-- A call that ends in the step in which its load failed is the one that sent
the request. -/
theorem Move.failed_mem {id : Nat} {got : Except LibraryExn Response} {exn : Exn}
    (m : Move lib s (.receive id got) t es) (fetched : fetch lib s.client.url got = .error exn)
    {call : Call τ} {time : Time} {o : Outcome} (ended : .ended call time o ∈ es) :
    ∃ number, .load call (.failed number ⟨s.exceptions, exn, none⟩) ∈ es := by
  cases m with
  | send entry => cases entry
  | install found fetched' =>
      rw [fetched] at fetched'
      cases fetched'
  | fail found fetched' =>
      obtain rfl := Except.error.inj (fetched.symm.trans fetched')
      obtain ⟨rfl, -⟩ : call = _ ∧ _ := by simpa using ended
      exact ⟨_, List.mem_cons_self⟩

theorem ColdReported.of_not_lacksSourceError (start : Started lib url ttl interval s₀)
    (visit : Visit (Sys.step lib) s₀ as es t a fs u) (clear : ¬ LacksSourceError t a) :
    ColdReported lib es fs u := by
  obtain ⟨m, before, after⟩ := known_of_visit start visit
  intro call time o hended cold hcancel
  obtain ⟨_, exit⟩ := m.exit before.guarded hended
  have miss := JwksClient.lookup_eq_none_of_keys_eq_empty cold call.kid
  suffices hreports : ∃ error exc, lastFailure (history (es ++ fs)) = some error ∧
      o = .raised exc ∧ Reports lib error exc ∧
      ((∃ number, .load call (.failed number error) ∈ fs) ∨
        error.exn.cls.isSourceError = true) by
    obtain ⟨error, exc, hfailure, ho, reports, own⟩ := hreports
    obtain ⟨_, _, _, run⟩ := visit.run
    obtain ⟨id, got, _, hfetch⟩ := received_of_lastFailure start run hfailure
    refine ⟨error, exc, hfailure, ho, reports, ?_, ?_⟩
    · rw [reports.cls_eq]
      exact fetch_ne_unknownSigningKey hfetch
    · rwa [reports.cls_eq]
  cases exit with
  | cancelled => exact absurd rfl hcancel
  | hit cached =>
      rw [miss] at cached
      cases cached
  | unloaded enters unneeded _ same =>
      obtain ⟨lock, hclient⟩ := same
      rw [hclient] at cold
      rw [hclient, JwksClient.lookup_lock] at miss
      rw [JwksClient.shouldAttemptFetch_of_lookup_eq_none miss] at unneeded
      -- The window is open on a cold cache, so a failure of the source is remembered.
      obtain ⟨error, hlast, source⟩ : ∃ error, t.client.lastError = some error ∧
          error.exn.cls.isSourceError = true := by
        by_contra hnone
        refine clear ⟨call, enters, cold, unneeded, ?_⟩
        intro error hlast
        simpa using fun source => hnone ⟨error, hlast, source⟩
      refine ⟨error, _, ?_, JwksClient.classify_of_lastError cold hlast, .inr ⟨rfl, rfl⟩,
        .inr source⟩
      have hremembered : u.client.lastError = lastFailure (history (es ++ fs)) :=
        after.cached.error
      rw [← hremembered, hclient]
      exact hlast
  | loaded _ warm => exact absurd cold warm
  | failed received fetched _ failed =>
      subst received
      exact ⟨_, _, by simp [lastFailure, failed],
        JwksClient.fallBack_of_lookup_eq_none _ miss, .inl rfl, .inl (m.failed_mem fetched hended)⟩

theorem not_lacksSourceError_of_coldReported (start : Started lib url ttl interval s₀)
    (visit : Visit (Sys.step lib) s₀ as es t a fs u) (reported : ColdReported lib es fs u) :
    ¬ LacksSourceError t a := by
  rintro ⟨call, enters, cold, window, other⟩
  obtain ⟨m, _, _⟩ := known_of_visit start visit
  have miss := JwksClient.lookup_eq_none_of_keys_eq_empty cold call.kid
  obtain ⟨hended, ⟨lock, hclient⟩, quiet⟩ := enters.ended miss window m
  obtain ⟨error, exc, _, ho, _, hknown, own⟩ :=
    reported call t.now _ hended (by simpa [hclient] using cold) (by simp)
  rcases own with ⟨number, loaded⟩ | source
  · have mem : .failed number error ∈ history fs := List.mem_filterMap.mpr ⟨_, loaded, rfl⟩
    rw [quiet] at mem
    cases mem
  · rcases JwksClient.cls_of_classify_eq_raised ho with hunknown | ⟨error', hlast, hcls⟩
    · exact hknown hunknown
    · rw [hcls, other error' hlast] at source
      cases source

/-- Over every run, cancellations and every kind of failed load included: a cold
cache never yields an unknown key, and every call that ends with it has performed
the last load itself or raises the source's failure, exactly when no call ever
decides within the throttle window of an attempt that left neither a document nor
a failure of the source. -/
theorem coldReported_iff (start : Started lib url ttl interval s₀) :
    (∀ es₁ t a fs u, Visit (Sys.step lib) s₀ as es₁ t a fs u → ColdReported lib es₁ fs u) ↔
      ∀ es₁ t a fs u, Visit (Sys.step lib) s₀ as es₁ t a fs u → ¬ LacksSourceError t a := by
  constructor
  · intro reported es₁ t a fs u visit
    exact not_lacksSourceError_of_coldReported start visit (reported es₁ t a fs u visit)
  · intro clear es₁ t a fs u visit
    exact .of_not_lacksSourceError start visit (clear es₁ t a fs u visit)

/-- The first call is cancelled in `http.get`, and the next one is told at once
that its key is unknown. -/
theorem attempt_forgotten :
    Started .sample sampleUrl 3600 30 (.sample : Sys Unit) ∧
      ∃ es t fs u, Visit (Sys.step .sample) (.sample : Sys Unit)
        [.call "k1" (), .abort 0, .call "k1" ()] es t (.call "k1" ()) fs u ∧
        ¬ ColdReported .sample es fs u := by
  have hrun : observe (Sys.step .sample) (fun _ _ fs u => (decide (u.client.keys = ∅),
      fs.any unknownKey)) (.sample : Sys Unit) [.call "k1" (), .abort 0] (.call "k1" ()) =
      some (true, true) := by decide +kernel
  obtain ⟨es, t, fs, u, visit, hobserved⟩ := Visit.of_observe hrun
  refine ⟨.sample, es, t, fs, u, visit, ?_⟩
  intro reported
  simp only [Prod.mk.injEq, decide_eq_true_eq] at hobserved
  obtain ⟨cold, hunknown⟩ := hobserved
  obtain ⟨call, time, exc, hended, hcls⟩ := exists_of_unknownKey hunknown
  obtain ⟨_, _, _, ho, _, hknown, _⟩ := reported call time _ hended cold (by simp)
  obtain rfl := Outcome.raised.inj ho
  exact hknown hcls

/-- The rule at the run of a cancelled first load. -/
theorem coldReported_iff_abort :
    (∀ es₁ t a fs u, Visit (Sys.step .sample) (.sample : Sys Unit)
        [.call "k1" (), .abort 0, .call "k1" ()] es₁ t a fs u →
        ColdReported .sample es₁ fs u) ↔
      ∀ es₁ t a fs u, Visit (Sys.step .sample) (.sample : Sys Unit)
        [.call "k1" (), .abort 0, .call "k1" ()] es₁ t a fs u → ¬ LacksSourceError t a :=
  coldReported_iff .sample

end MestoryCore.Auth
