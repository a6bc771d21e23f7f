import MestoryCore.Auth.Cache

/-!
# How fast a rotation of the keys is seen

From some moment on the source publishes a key that it did not publish before,
or no longer publishes one that it did. The first is seen by every call that ends
one throttle window later, and the second by every call that ends one `ttl`
later, whatever the other calls do. `Since` relates the state at that moment to a
later one.
-/

namespace MestoryCore.Auth

open Python Asyncio Transition

variable {τ : Type} {lib : Library} {url : String} {ttl interval : Time}
variable {s₀ s m t u : Sys τ} {a : Action τ} {as bs : List (Action τ)} {es es' fs : List (Event τ)}
variable {call : Call τ} {time : Time} {o : Outcome} {kid : String} {n : Nat}

/-- What no step takes back: the attempts and the loads in flight since `m`. -/
structure Since (m t : Sys τ) : Prop where
  requests : m.requests ≤ t.requests
  attempt : t.requests = m.requests → t.client.lastAttemptAt = m.client.lastAttemptAt
  flights : ∀ f ∈ t.flights, f.number + 1 = t.requests ∧ (f ∈ m.flights ∨ m.requests ≤ f.number)

theorem Since.refl (known : Known lib url ttl interval es m) : Since m m := by
  refine ⟨le_rfl, fun _ => rfl, fun f hf => ⟨?_, .inl hf⟩⟩
  rcases known.guarded.flight with ⟨hnone, _⟩ | ⟨g, hone, _⟩
  · rw [hnone] at hf
    cases hf
  · rw [hone] at hf
    obtain rfl := List.mem_singleton.mp hf
    have flying : m.loads.inFlight = some f.number := by simp [Sys.loads, hone]
    exact (known.ordered.flying _ flying).symm

theorem Since.move (since : Since m s) (inv : Guarded url ttl interval s)
    (move : Move lib s a t es) : Since m t := by
  have ⟨requests, attempt, flights⟩ := since
  cases move with
  | advance | hit | queue | throttled | recheck | withdraw | cancel =>
      exact ⟨requests, attempt, flights⟩
  | send entry =>
      obtain ⟨hnone, _⟩ := inv.entry entry
      refine ⟨by simp only; omega, by simp only; omega, ?_⟩
      intro f hf
      obtain rfl : f = _ := by simpa [hnone] using hf
      exact ⟨rfl, .inr requests⟩
  | install found | fail found | abort found =>
      refine ⟨requests, attempt, ?_⟩
      simp [(inv.flight_eq found).2]

theorem Known.since_of_run (known : Known lib url ttl interval es m)
    (run : Run (Sys.step lib) m bs es' t) : Since m t := by
  refine (run.invariant (I := fun _ t => Guarded url ttl interval t ∧ Since m t)
    ⟨known.guarded, .refl known⟩ ?_).2
  rintro _ t a u fs _ ⟨guarded, since⟩ hstep
  have move := Move.of_step hstep
  exact ⟨guarded.move move, since.move guarded move⟩

/-- A call that ends with the end of a load is the call that sent its request. -/
theorem Move.flight_of_result (move : Move lib s a t es) (ended : .ended call time o ∈ es)
    {e : LoadEvent} {r : Result} (he : e ∈ history es) (result : e.result? = some (n, r)) :
    ∃ f ∈ s.flights, f.call = call ∧ f.number = n := by
  cases move with
  | advance | hit | queue | throttled | recheck | withdraw | cancel => simp at he
  | send entry => cases entry <;> simp at ended
  | install found | fail found | abort found =>
      obtain ⟨rfl, _⟩ : call = _ ∧ _ := by simpa using ended
      obtain rfl : e = _ := by simpa using he
      obtain ⟨rfl, _⟩ : _ = n ∧ _ := by simpa using result
      exact ⟨_, List.mem_of_find?_eq_some found, rfl, rfl⟩

/-! ## A new key -/

/-- The load brings a document that has the key, unless its request is one of the
first `n`. -/
def LoadEvent.Publishes (kid : String) (n : Nat) : LoadEvent → Prop
  | .sent _ _ => True
  | .installed number _ document => n ≤ number → lastEntry document kid ≠ none
  | .failed number _ | .aborted number => number < n

instance (kid : String) (n : Nat) (e : LoadEvent) : Decidable (e.Publishes kid n) := by
  cases e <;> unfold LoadEvent.Publishes <;> infer_instance

/-- A load whose request was sent since `m` is in flight, or has brought the key. -/
def Refreshed (kid : String) (m t : Sys τ) : Prop :=
  m.requests < t.requests → t.flights = [] → t.client.lookup kid ≠ none

theorem Refreshed.move (refreshed : Refreshed kid m s) (since : Since m s)
    (move : Move lib s a t es) (published : ∀ e ∈ history es, e.Publishes kid m.requests) :
    Refreshed kid m t := by
  -- The number of a load that ends after requests were sent since `m`.
  have landed : ∀ {id : Nat} {f : Flight τ}, s.flight? id = some f → m.requests < s.requests →
      m.requests ≤ f.number := by
    intro id f found sent
    have hf := since.flights f (List.mem_of_find?_eq_some found)
    omega
  cases move with
  | advance | hit | queue | throttled | recheck | withdraw | cancel => exact refreshed
  | send entry =>
      intro _ landed
      simp at landed
  | @install id f got document keys found fetched =>
      intro sent _
      have hentry : lastEntry document kid ≠ none :=
        published (.installed f.number s.now document) (by simp) (landed found sent)
      rwa [JwksClient.lookup, ne_eq, JwksClient.install,
        lookup_eq_none_iff_of_parseKeys (fetch_eq_ok fetched).2]
  | @fail id f got exn found fetched =>
      intro sent _
      have early : f.number < m.requests :=
        published (.failed f.number ⟨s.exceptions, exn, none⟩) (by simp)
      exact absurd early (landed found sent).not_gt
  | @abort id f found =>
      intro sent _
      have early : f.number < m.requests := published (.aborted f.number) (by simp)
      exact absurd early (landed found sent).not_gt

theorem Known.refreshed_of_run (known : Known lib url ttl interval es m)
    (run : Run (Sys.step lib) m bs es' t)
    (published : ∀ e ∈ history es', e.Publishes kid m.requests) : Refreshed kid m t := by
  refine (run.invariant (I := fun es' t => (Guarded url ttl interval t ∧ Since m t) ∧
      ((∀ e ∈ history es', e.Publishes kid m.requests) → Refreshed kid m t))
    ⟨⟨known.guarded, .refl known⟩, fun _ sent => absurd sent (lt_irrefl _)⟩ ?_).2 published
  rintro es' t a u fs _ ⟨⟨guarded, since⟩, refreshed⟩ hstep
  have move := Move.of_step hstep
  refine ⟨⟨guarded.move move, since.move guarded move⟩, fun published => ?_⟩
  rw [history_append] at published
  have before := refreshed fun e he => published e (List.mem_append_left _ he)
  exact before.move since move fun e he => published e (List.mem_append_right _ he)

/-- A throttled call whose window began after `m` has had a request sent since. -/
theorem Known.requests_lt (known : Known lib url ttl interval es m) (since : Since m u)
    (hinterval : u.client.minRefetchInterval = interval)
    (window : u.client.mayRefetch u.now = false) (passed : m.now + interval ≤ u.now) :
    m.requests < u.requests := by
  by_contra hle
  have same := since.attempt (le_antisymm (not_lt.mp hle) since.requests)
  cases hmark : u.client.lastAttemptAt with
  | none => simp [JwksClient.mayRefetch, hmark] at window
  | some mark =>
      have early : mark ≤ m.now := known.timed.attempted mark (same.symm.trans hmark)
      have late : u.now - mark < interval := by
        simpa [JwksClient.mayRefetch, hmark, hinterval] using window
      linarith

/-- From `m` on every request brings a document that has the key `kid`, if its
load ends. Then every call for `kid` that ends at least one window after `m`
returns a key, unless it is cancelled or awaited an earlier request at `m`. -/
theorem returned_of_published (start : Started lib url ttl interval s₀)
    (run : Run (Sys.step lib) s₀ as es m) (visit : Visit (Sys.step lib) m bs es' t a fs u)
    (published : ∀ e ∈ history (es' ++ fs), e.Publishes call.kid m.requests)
    (ended : .ended call time o ∈ fs) (passed : m.now + interval ≤ time)
    (later : ∀ f ∈ m.flights, f.call ≠ call) (hcancel : o ≠ .cancelled) :
    ∃ pem, o = .returned pem ∧ u.client.lookup call.kid = some pem := by
  have known := known_of_run start run
  obtain ⟨move, before, after⟩ := known_of_visit start (visit.after run)
  obtain ⟨_, _, hrun, hrun'⟩ := visit.run
  have since := known.since_of_run hrun
  have refreshed := known.refreshed_of_run hrun' published
  obtain ⟨rfl, exit⟩ := move.exit before.guarded ended
  -- The load of this call was sent since `m`, so it brings the key.
  have own : ∀ e ∈ history fs, ∀ n r, e.result? = some (n, r) → m.requests ≤ n := by
    intro e he n r result
    obtain ⟨f, hf, hcall, rfl⟩ := move.flight_of_result ended he result
    exact ((since.flights f hf).2).resolve_left fun hold => later f hold hcall
  have unfailed : ∀ n error, .failed n error ∉ history fs := by
    intro n error he
    have early : n < m.requests := published (.failed n error) (by simp [he])
    exact absurd early (own _ he n .failed rfl).not_gt
  have cached : u.client.lookup call.kid ≠ none := by
    cases exit with
    | cancelled => exact absurd rfl hcancel
    | hit cached => simp [cached]
    | unloaded enters unneeded idle same now =>
        intro miss
        obtain ⟨lock, hclient⟩ := same
        have closed : u.client.mayRefetch u.now = false := by
          rw [hclient, JwksClient.lookup_lock] at miss
          rw [JwksClient.shouldAttemptFetch_of_lookup_eq_none miss] at unneeded
          rw [hclient, now]
          exact unneeded
        have sent := known.requests_lt (known.since_of_run hrun') after.guarded.interval_eq closed
          passed
        exact refreshed sent idle miss
    | @loaded number document installed =>
        have sent := own (.installed number u.now document) (by simp [installed]) number
          .succeeded rfl
        have hentry : lastEntry document call.kid ≠ none :=
          published (.installed number u.now document) (by simp [installed]) sent
        obtain ⟨parsed, _⟩ := after.holdsLastDocument.document number u.now document
          (by simp [installed])
        rwa [JwksClient.lookup, ne_eq, lookup_eq_none_iff_of_parseKeys parsed]
    | failed _ _ _ failed =>
        rw [failed] at unfailed
        exact absurd (List.mem_singleton_self _) (unfailed _ _)
  obtain ⟨pem, hpem⟩ := Option.ne_none_iff_exists'.mp cached
  refine ⟨pem, exit.returned_of_lookup hcancel ?_ hpem, hpem⟩
  rintro id got exn rfl fetched
  cases move with
  | send entry => cases entry
  | install _ fetched' => cases fetched.symm.trans fetched'
  | fail => exact absurd (List.mem_singleton_self _) (unfailed _ _)

/-- A call waits while a request that was sent before the rotation brings the old
document, and its own request brings the new one. -/
theorem returned_of_published_waiter :
    ∃ es m es' t fs u pem, Run (Sys.step .sample) (.sample : Sys Unit)
        [.call "k1" (), .receive 0 (.ok (.sample ["k1"])), .advance 40, .call "nope" ()] es m ∧
      Visit (Sys.step .sample) m ([.call "k2" (), .receive 1 (.ok (.sample ["k1"])),
        .advance 71, .wake 2] ++ [.receive 2 (.ok (.sample ["k1", "k2"]))]) es' t
        (.receive 2 (.ok (.sample ["k1", "k2"]))) fs u ∧
      u.client.lookup "k2" = some pem := by
  have hrun : ((exec (Sys.step .sample) (.sample : Sys Unit)
      [.call "k1" (), .receive 0 (.ok (.sample ["k1"])), .advance 40, .call "nope" ()]).bind
        fun r => (observe (Sys.step .sample) (fun es _ fs _ =>
          (decide (∀ e ∈ history (es ++ fs), e.Publishes "k2" r.1.requests),
            fs.findSome? Event.returned?)) r.1
          [.call "k2" (), .receive 1 (.ok (.sample ["k1"])), .advance 71, .wake 2]
          (.receive 2 (.ok (.sample ["k1", "k2"])))).map
            fun b => (decide (r.1.now = 40 ∧ ∀ f ∈ r.1.flights, f.call ≠ ⟨2, "k2", ()⟩) && b.1,
              b.2)) =
      some (true, some (⟨2, "k2", ()⟩, 71,
        "-----BEGIN PUBLIC KEY-----\nk2\n-----END PUBLIC KEY-----\n")) := by decide +kernel
  obtain ⟨⟨m, es⟩, hexec, hrest⟩ := Option.bind_eq_some_iff.mp hrun
  obtain ⟨b, hobserve, hb⟩ := Option.map_eq_some_iff.mp hrest
  obtain ⟨es', t, fs, u, visit, rfl⟩ := Visit.of_observe hobserve
  simp only [Prod.mk.injEq, Bool.and_eq_true, decide_eq_true_eq] at hb
  obtain ⟨⟨⟨hnow, later⟩, published⟩, hreturned⟩ := hb
  have passed : m.now + 30 ≤ 71 := by
    rw [hnow]
    norm_num
  obtain ⟨pem, _, hpem⟩ := returned_of_published .sample (Run.of_exec hexec) visit published
    (ended_of_returned hreturned) passed later (by simp)
  exact ⟨es, m, es', t, fs, u, pem, Run.of_exec hexec, visit, hpem⟩

/-! ## A withdrawn key -/

/-- The load brings a document that does not have the key. -/
def LoadEvent.Withdraws (kid : String) : LoadEvent → Prop
  | .sent _ _ => True
  | .installed _ _ document => lastEntry document kid = none
  | .failed _ _ | .aborted _ => False

instance (kid : String) (e : LoadEvent) : Decidable (e.Withdraws kid) := by
  cases e <;> unfold LoadEvent.Withdraws <;> infer_instance

/-- The key is gone, or the cache is that of `m` and a load that began since is
still in flight. -/
def Dropped (kid : String) (m t : Sys τ) : Prop :=
  t.client.lookup kid = none ∨
    (t.client.fetchedAt = m.client.fetchedAt ∧ (t.flights = [] → t.requests = m.requests))

theorem Dropped.move (dropped : Dropped kid m s) (move : Move lib s a t es)
    (withdrawn : ∀ e ∈ history es, e.Withdraws kid) : Dropped kid m t := by
  cases move with
  | advance | hit | queue | throttled | recheck | withdraw | cancel => exact dropped
  | send entry => exact dropped.imp_right fun old => ⟨old.1, fun landed => by simp at landed⟩
  | @install id f got document keys found fetched =>
      have hentry : lastEntry document kid = none :=
        withdrawn (.installed f.number s.now document) (by simp)
      left
      rwa [JwksClient.lookup, JwksClient.install,
        lookup_eq_none_iff_of_parseKeys (fetch_eq_ok fetched).2]
  | @fail id f got exn found fetched =>
      exact (withdrawn (.failed f.number ⟨s.exceptions, exn, none⟩) (by simp)).elim
  | @abort id f found => exact (withdrawn (.aborted f.number) (by simp)).elim

theorem dropped_of_run (run : Run (Sys.step lib) m bs es' t)
    (withdrawn : ∀ e ∈ history es', e.Withdraws kid) : Dropped kid m t := by
  refine run.invariant (I := fun es' t =>
    (∀ e ∈ history es', e.Withdraws kid) → Dropped kid m t)
    (fun _ => .inr ⟨rfl, fun _ => rfl⟩) ?_ withdrawn
  intro es' t a u fs _ dropped hstep withdrawn
  rw [history_append] at withdrawn
  have before := dropped fun e he => withdrawn e (List.mem_append_left _ he)
  exact before.move (.of_step hstep) fun e he => withdrawn e (List.mem_append_right _ he)

/-- From `m` on every load that ends brings a document without the key. Then no
call for it that ends `ttl` after `m` or later returns a key, whatever it waited
for and however long ago it began. -/
theorem not_returned_of_withdrawn (start : Started lib url ttl interval s₀)
    (run : Run (Sys.step lib) s₀ as es m) (visit : Visit (Sys.step lib) m bs es' t a fs u)
    (withdrawn : ∀ e ∈ history (es' ++ fs), e.Withdraws call.kid)
    (ended : .ended call time o ∈ fs) (passed : m.now + ttl ≤ time) (pem : String) :
    o ≠ .returned pem := by
  rintro rfl
  have known := known_of_run start run
  obtain ⟨move, before, after⟩ := known_of_visit start (visit.after run)
  obtain ⟨_, _, _, hrun'⟩ := visit.run
  have since := known.since_of_run hrun'
  obtain ⟨rfl, exit⟩ := move.exit before.guarded ended
  have cached := exit.lookup_of_returned rfl
  -- The key is still in the cache, so its document was installed before `m`.
  obtain ⟨old, quiet⟩ := (dropped_of_run hrun' withdrawn).resolve_left (by simp [cached])
  have stale : u.client.isStale u.now = true := by
    cases hfetched : u.client.fetchedAt with
    | none => simp [JwksClient.isStale, hfetched]
    | some fetchedAt =>
        have early : fetchedAt ≤ m.now := known.timed.fetched fetchedAt (old.symm.trans hfetched)
        simp only [JwksClient.isStale, hfetched, after.guarded.ttl_eq, decide_eq_true_eq]
        linarith
  generalize ho : Outcome.returned pem = o at exit
  cases exit with
  | cancelled => cases ho
  | hit _ fresh => simp [stale] at fresh
  | unloaded enters unneeded idle same now =>
      obtain ⟨lock, hclient⟩ := same
      have unneeded' : u.client.shouldAttemptFetch u.now call.kid = false := by
        rw [hclient, now, JwksClient.shouldAttemptFetch_lock]
        exact unneeded
      have closed : u.client.mayRefetch u.now = false := by
        simpa [JwksClient.shouldAttemptFetch, stale] using unneeded'
      have ordered : interval ≤ ttl := by
        have hle := u.client.interval_le_ttl
        rwa [after.guarded.interval_eq, after.guarded.ttl_eq] at hle
      have sent := known.requests_lt since after.guarded.interval_eq closed (by linarith)
      have same := quiet idle
      omega
  | @loaded number document installed =>
      obtain ⟨parsed, _⟩ := after.holdsLastDocument.document number u.now document
        (by simp [installed])
      have hentry : lastEntry document call.kid = none :=
        withdrawn (.installed number u.now document) (by simp [installed])
      have gone := (lookup_eq_none_iff_of_parseKeys parsed).mpr hentry
      cases cached.symm.trans gone
  | @failed _ number _ exn _ _ _ failed =>
      exact withdrawn (.failed number ⟨t.exceptions, exn, none⟩) (by simp [failed])

/-- A call that ended, and when. -/
private def endedAt? : Event τ → Option (Call τ × Time)
  | .ended call time _ => some (call, time)
  | _ => none

private theorem exists_ended (h : es.findSome? endedAt? = some (call, time)) :
    ∃ o, .ended call time o ∈ es := by
  obtain ⟨e, he, hended⟩ := List.exists_of_findSome?_eq_some h
  cases e with
  | ended call' time' o =>
      obtain ⟨rfl, rfl⟩ : call' = call ∧ time' = time := by simpa [endedAt?] using hended
      exact ⟨o, he⟩
  | called | queued | load => cases hended

/-- A call that waited for the lock since before the key was withdrawn. -/
theorem not_returned_of_withdrawn_waiter :
    ∃ es m es' t fs u o, Run (Sys.step .sample) (.sample : Sys Unit)
        [.call "k1" (), .receive 0 (.ok (.sample ["k1"])), .advance 3601, .call "k1" (),
          .call "k1" ()] es m ∧
      Visit (Sys.step .sample) m ([.receive 1 (.ok (.sample ["k2"])), .advance 7201, .wake 2] ++
        [.receive 2 (.ok (.sample ["k2"]))]) es' t (.receive 2 (.ok (.sample ["k2"]))) fs u ∧
      .ended ⟨2, "k1", ()⟩ 7201 o ∈ fs ∧ ∀ pem, o ≠ .returned pem := by
  have hrun : ((exec (Sys.step .sample) (.sample : Sys Unit)
      [.call "k1" (), .receive 0 (.ok (.sample ["k1"])), .advance 3601, .call "k1" (),
        .call "k1" ()]).bind
        fun r => (observe (Sys.step .sample) (fun es _ fs _ =>
          (decide (∀ e ∈ history (es ++ fs), e.Withdraws "k1"), fs.findSome? endedAt?)) r.1
          [.receive 1 (.ok (.sample ["k2"])), .advance 7201, .wake 2]
          (.receive 2 (.ok (.sample ["k2"])))).map
            fun b => (decide (r.1.now = 3601) && b.1, b.2)) =
      some (true, some (⟨2, "k1", ()⟩, 7201)) := by decide +kernel
  obtain ⟨⟨m, es⟩, hexec, hrest⟩ := Option.bind_eq_some_iff.mp hrun
  obtain ⟨b, hobserve, hb⟩ := Option.map_eq_some_iff.mp hrest
  obtain ⟨es', t, fs, u, visit, rfl⟩ := Visit.of_observe hobserve
  simp only [Prod.mk.injEq, Bool.and_eq_true, decide_eq_true_eq] at hb
  obtain ⟨⟨hnow, withdrawn⟩, hended⟩ := hb
  obtain ⟨o, ended⟩ := exists_ended hended
  have passed : m.now + 3600 ≤ 7201 := by
    rw [hnow]
    norm_num
  exact ⟨es, m, es', t, fs, u, o, Run.of_exec hexec, visit, ended,
    not_returned_of_withdrawn .sample (Run.of_exec hexec) visit withdrawn ended passed⟩

end MestoryCore.Auth
