import MestoryCore.Auth.Exit

/-!
# The throttle window and the age of the document

Two timers govern the loads: a document is fresh for `ttl`, and an attempt keeps
the next one away for `min_refetch_interval`, however it ended. The first part
states that the requests of a run are spaced by that interval and never overlap.
The second part states what the check in the constructor is for: as the interval
is at most `ttl`, an expired document is served only after a refresh of it was
tried and did not succeed.
-/

namespace MestoryCore.Auth

open Python Asyncio Transition

variable {τ : Type} {lib : Library} {url : String} {ttl interval : Time}
variable {s₀ s t u : Sys τ} {a : Action τ} {as : List (Action τ)} {es fs : List (Event τ)}

/-- Attempts spaced by an interval span at least one interval less than they are
in number. -/
theorem span_of_spaced {l : List (Nat × Time)} (spaced : l.Pairwise fun p q => p.2 + interval ≤ q.2)
    {p q : Nat × Time} (first : l.head? = some p) (last : l.getLast? = some q) :
    ((l.length : Time) - 1) * interval ≤ q.2 - p.2 := by
  induction l generalizing p with
  | nil => cases first
  | cons r rest ih =>
      obtain rfl : r = p := by simpa using first
      cases rest with
      | nil =>
          obtain rfl : r = q := by simpa using last
          simp
      | cons r' rest =>
          have hrest := ih spaced.of_cons rfl (by simpa using last)
          have hnext : r.2 + interval ≤ r'.2 := List.rel_of_pairwise_cons spaced (by simp)
          simp only [List.length_cons, Nat.cast_add, Nat.cast_one] at hrest ⊢
          linarith

/-- What holds of the requests of a run: at most one is in flight, the marks of
any of them are spaced by the interval, they are numbered in the order in which
they were sent, and their documents were installed in that order. -/
structure SingleFlight (interval : Time) (es : List (Event τ)) (s : Sys τ) : Prop where
  flights : s.flights.length ≤ 1
  spaced : (marks (history es)).Pairwise fun p q => p.2 + interval ≤ q.2
  span : ∀ (l : List (Nat × Time)) p q, l.Sublist (marks (history es)) →
    l.head? = some p → l.getLast? = some q → ((l.length : Time) - 1) * interval ≤ q.2 - p.2
  numbers : (marks (history es)).map Prod.fst = List.range (marks (history es)).length
  installed : (installs (history es)).Pairwise fun p q => p.1 < q.1

/-- Every run keeps to a single flight and to the throttle window. -/
theorem singleFlight_of_run (start : Started lib url ttl interval s₀)
    (run : Run (Sys.step lib) s₀ as es s) : SingleFlight interval es s := by
  obtain ⟨guarded, _, _, ordered⟩ := known_of_run start run
  refine ⟨?_, ordered.spaced, ?_, ?_, ordered.installed⟩
  · rcases guarded.flight with ⟨hnone, _⟩ | ⟨f, hone, _⟩
    · simp [hnone]
    · simp [hone]
  · intro l p q hsub first last
    exact span_of_spaced (ordered.spaced.sublist hsub) first last
  · have hnumbers := ordered.numbers
    have hlength := congrArg List.length hnumbers
    rw [List.length_map, List.length_range] at hlength
    rw [hnumbers, hlength]

/-- A call that waits for a failed load sends the next request itself, once the
window has passed. -/
theorem singleFlight_of_run_waiter :
    ∃ es s, Run (Sys.step .sample) (.sample : Sys Unit)
      [.call "k1" (), .call "k1" (), .receive 0 (.ok .unavailable), .advance 31, .wake 1,
        .receive 1 (.ok (.sample ["k1"]))] es s ∧
      (marks (history es)).length = 2 ∧ SingleFlight 30 es s := by
  have hrun : (exec (Sys.step .sample) (.sample : Sys Unit)
      [.call "k1" (), .call "k1" (), .receive 0 (.ok .unavailable), .advance 31, .wake 1,
        .receive 1 (.ok (.sample ["k1"]))]).map (fun r => (marks (history r.2)).length) =
      some 2 := by decide +kernel
  obtain ⟨es, s, run, hmarks⟩ := Run.of_exec_map (f := fun es _ => (marks (history es)).length) hrun
  exact ⟨es, s, run, hmarks, singleFlight_of_run .sample run⟩

/-! ## An expired document -/

/-- The last attempt began no earlier than `fetchedAt` and did not succeed. -/
def RefreshFailed (h : List LoadEvent) (fetchedAt : Time) : Prop :=
  ∃ number mark result, latest LoadEvent.mark? h = some (number, mark) ∧ fetchedAt ≤ mark ∧
    latest LoadEvent.result? h = some (number, result) ∧ result ≠ .succeeded

/-- A call that finds an expired document and decides against a load is within
the window of an attempt that did not bring a newer one. -/
theorem Known.refreshFailed_of_unneeded (known : Known lib url ttl interval es s) {kid : String}
    {fetchedAt : Time} (ordered : interval ≤ ttl) (fetched : s.client.fetchedAt = some fetchedAt)
    (expired : ttl < s.now - fetchedAt)
    (unneeded : s.client.shouldAttemptFetch s.now kid = false) (idle : s.flights = []) :
    RefreshFailed (history es) fetchedAt := by
  have stale : s.client.isStale s.now = true := by
    simp only [JwksClient.isStale, fetched, known.guarded.ttl_eq, decide_eq_true_eq]
    exact expired.le
  have window : s.client.mayRefetch s.now = false := by
    simpa [JwksClient.shouldAttemptFetch, stale] using unneeded
  cases hattempt : s.client.lastAttemptAt with
  | none => simp [JwksClient.mayRefetch, hattempt] at window
  | some mark =>
      have hopen : s.now - mark < interval := by
        simpa [JwksClient.mayRefetch, hattempt, known.guarded.interval_eq] using window
      have hnewer : fetchedAt < mark := by linarith
      have hmark : some mark = (latest LoadEvent.mark? (history es)).map Prod.snd :=
        hattempt.symm.trans known.timed.mark
      obtain ⟨⟨number, _⟩, hlast, rfl⟩ := Option.map_eq_some_iff.mp hmark.symm
      have hidle : s.loads.inFlight = none := by simp [Sys.loads, idle]
      obtain ⟨result, hresult, hsucceeded⟩ := known.timed.settled hidle number _ hlast
      refine ⟨number, _, result, hlast, hnewer.le, hresult, ?_⟩
      intro hok
      -- A successful last attempt would have installed a document after its mark.
      obtain ⟨t, ht, hlater⟩ := hsucceeded hok
      obtain rfl : fetchedAt = t := Option.some.inj (fetched.symm.trans ht)
      exact absurd hnewer hlater.not_gt

/-- A key of an expired document is returned only if the last attempt began
after that document was installed and did not succeed. In a run whose attempts
all succeed, no document is ever served past its `ttl`. -/
theorem returned_of_expired (nonneg : 0 ≤ interval) (start : Started lib url ttl interval s₀)
    (visit : Visit (Sys.step lib) s₀ as es t a fs u) {call : Call τ} {time fetchedAt : Time}
    {pem : String} (ended : .ended call time (.returned pem) ∈ fs)
    (fetched : u.client.fetchedAt = some fetchedAt) :
    (ttl < time - fetchedAt → RefreshFailed (history (es ++ fs)) fetchedAt) ∧
      ((∀ e ∈ history (es ++ fs), ∀ number result, e.result? = some (number, result) →
        result = .succeeded) → time - fetchedAt ≤ ttl) := by
  obtain ⟨m, before, after⟩ := known_of_visit start visit
  have ordered : interval ≤ ttl := by
    have hle := u.client.interval_le_ttl
    rwa [after.guarded.interval_eq, after.guarded.ttl_eq] at hle
  have hexpired : ttl < time - fetchedAt → RefreshFailed (history (es ++ fs)) fetchedAt := by
    intro expired
    obtain ⟨rfl, exit⟩ := m.exit before.guarded ended
    generalize ho : Outcome.returned pem = o at exit
    cases exit with
    | cancelled => cases ho
    | hit _ fresh =>
        have hfresh : u.now - fetchedAt < ttl := by
          simpa [JwksClient.isStale, fetched, after.guarded.ttl_eq] using fresh
        exact absurd expired hfresh.not_gt
    | unloaded enters unneeded idle same now =>
        obtain ⟨lock, hclient⟩ := same
        have unneeded' : u.client.shouldAttemptFetch u.now call.kid = false := by
          rw [hclient, now, JwksClient.shouldAttemptFetch_lock]
          exact unneeded
        exact after.refreshFailed_of_unneeded ordered fetched expired unneeded' idle
    | loaded _ _ hfetched =>
        obtain rfl : u.now = fetchedAt := Option.some.inj (hfetched.symm.trans fetched)
        rw [sub_self] at expired
        exact absurd (nonneg.trans ordered) expired.not_ge
    | @failed _ number _ _ _ _ flying failed client now =>
        obtain ⟨mark, hlast, hlater⟩ := before.timed.mark_of_flying flying
        refine ⟨number, mark, .failed, by simp [failed, hlast], ?_, by simp [failed], by simp⟩
        apply hlater
        rw [client] at fetched
        exact fetched
  refine ⟨hexpired, ?_⟩
  intro succeeded
  by_contra hold
  obtain ⟨number, _, result, _, _, hresult, hfailed⟩ := hexpired (not_le.mp hold)
  obtain ⟨e, he, hevent⟩ := exists_mem_of_latest hresult
  exact hfailed (succeeded e he number result hevent)

/-- A stale key served after a failed refresh. -/
theorem returned_of_expired_fallBack :
    ∃ es t fs u call time pem fetchedAt, Visit (Sys.step .sample) (.sample : Sys Unit)
        ([.call "k1" (), .receive 0 (.ok (.sample ["k1"])), .advance 3601, .call "k1" ()] ++
          [.receive 1 (.ok .unavailable)]) es t (.receive 1 (.ok .unavailable)) fs u ∧
      .ended call time (.returned pem) ∈ fs ∧ u.client.fetchedAt = some fetchedAt ∧
      3600 < time - fetchedAt ∧ RefreshFailed (history (es ++ fs)) fetchedAt := by
  have hrun : observe (Sys.step .sample) (fun _ _ fs u =>
      (u.client.fetchedAt, fs.findSome? Event.returned?)) (.sample : Sys Unit)
      [.call "k1" (), .receive 0 (.ok (.sample ["k1"])), .advance 3601, .call "k1" ()]
      (.receive 1 (.ok .unavailable)) =
      some (some 0, some (⟨1, "k1", ()⟩, 3601,
        "-----BEGIN PUBLIC KEY-----\nk1\n-----END PUBLIC KEY-----\n")) := by decide +kernel
  obtain ⟨es, t, fs, u, visit, hobserved⟩ := Visit.of_observe hrun
  obtain ⟨fetched, hreturned⟩ := Prod.mk.inj hobserved
  have ended := ended_of_returned hreturned
  have expired : (3600 : Time) < 3601 - 0 := by norm_num
  exact ⟨es, t, fs, u, _, _, _, _, visit, ended, fetched, expired,
    (returned_of_expired (by norm_num) .sample visit ended fetched).1 expired⟩

end MestoryCore.Auth
