import MestoryCore.Auth.Exit

/-!
# The cache is the last good document

The key map and `_fetched_at` change together, and only when a load installs a
document. A returned key is therefore the key that the document current at the
moment of return publishes. The two theorems below are the two sides of this: a
withdrawn key is not served, and a key that stays published always is.
-/

namespace MestoryCore.Auth

open Python Asyncio Transition

variable {τ : Type} {lib : Library} {url : String} {ttl interval : Time}
variable {s₀ s m t u : Sys τ} {a : Action τ} {as bs : List (Action τ)} {es es' fs : List (Event τ)}

/-- The two fields of the cache are those of the last installed document. -/
structure HoldsLastDocument (lib : Library) (url : String) (es : List (Event τ)) (s : Sys τ) :
    Prop where
  cold_iff : s.client.fetchedAt = none ↔ s.client.keys = ∅
  cold : latest LoadEvent.install? (history es) = none → s.client.keys = ∅
  document : ∀ number time document,
    latest LoadEvent.install? (history es) = some (number, time, document) →
    parseKeys lib url document = .ok s.client.keys ∧ s.client.fetchedAt = some time

theorem Known.holdsLastDocument (known : Known lib url ttl interval es s) :
    HoldsLastDocument lib url es s := by
  have hcache := known.cached.document
  cases hlast : latest LoadEvent.install? (history es) with
  | none =>
      rw [hlast] at hcache
      obtain ⟨hkeys, hfetched⟩ := hcache
      exact ⟨⟨fun _ => hkeys, fun _ => hfetched⟩, fun _ => hkeys, by simp [hlast]⟩
  | some last =>
      obtain ⟨number, time, document⟩ := last
      rw [hlast] at hcache
      obtain ⟨hparsed, hfetched⟩ := hcache
      have warm : s.client.keys ≠ ∅ := (parseKeys_eq_ok hparsed).2
      have hfetched' : s.client.fetchedAt = some time := hfetched
      refine ⟨⟨by simp [hfetched'], fun cold => absurd cold warm⟩, by simp [hlast], ?_⟩
      intro number' time' document' hlast'
      obtain ⟨rfl, rfl, rfl⟩ : number = number' ∧ time = time' ∧ document = document' := by
        simpa [hlast] using hlast'
      exact ⟨hparsed, hfetched⟩

/-- A cached key comes from the last entry for its `kid` in the last document. -/
theorem HoldsLastDocument.exists_of_lookup (h : HoldsLastDocument lib url es s) {kid pem : String}
    (cached : s.client.lookup kid = some pem) :
    ∃ number time document jwk,
      latest LoadEvent.install? (history es) = some (number, time, document) ∧
      lastEntry document kid = some jwk ∧ toPem lib jwk = .ok pem := by
  cases hlast : latest LoadEvent.install? (history es) with
  | none =>
      have hmiss := JwksClient.lookup_eq_none_of_keys_eq_empty (h.cold hlast) kid
      rw [cached] at hmiss
      cases hmiss
  | some last =>
      obtain ⟨number, time, document⟩ := last
      obtain ⟨hparsed, _⟩ := h.document number time document hlast
      obtain ⟨jwk, hentry⟩ := (lookup_eq_some_iff_of_parseKeys hparsed).mp cached
      exact ⟨number, time, document, jwk, rfl, hentry⟩

/-- A step that installs no document leaves both fields of the cache alone. -/
theorem Move.cache_eq (move : Move lib s a t es) (quiet : installs (history es) = []) :
    t.client.keys = s.client.keys ∧ t.client.fetchedAt = s.client.fetchedAt := by
  cases move with
  | send entry needed => cases entry <;> exact ⟨rfl, rfl⟩
  | install => simp at quiet
  | advance | hit | queue | throttled | recheck | withdraw | cancel | fail | abort =>
      exact ⟨rfl, rfl⟩

/-- A returned key comes from the last entry for its `kid` in the document that
is current when the call returns. -/
theorem exists_entry_of_returned (start : Started lib url ttl interval s₀)
    (visit : Visit (Sys.step lib) s₀ as es t a fs u) {call : Call τ} {time : Time} {pem : String}
    (ended : .ended call time (.returned pem) ∈ fs) :
    ∃ number installedAt document jwk,
      latest LoadEvent.install? (history (es ++ fs)) = some (number, installedAt, document) ∧
      lastEntry document call.kid = some jwk ∧ toPem lib jwk = .ok pem := by
  obtain ⟨move, before, after⟩ := known_of_visit start visit
  obtain ⟨_, exit⟩ := move.exit before.guarded ended
  exact after.holdsLastDocument.exists_of_lookup (exit.lookup_of_returned rfl)

/-- What a run serves: in each state the last good document, unchanged by every
step that does not install one, and from each call a key of that document. -/
structure ServesLastDocument (lib : Library) (url : String) (s₀ : Sys τ) (as : List (Action τ))
    (es : List (Event τ)) (s : Sys τ) : Prop where
  cache : HoldsLastDocument lib url es s
  unchanged : ∀ es₁ t a fs u, Visit (Sys.step lib) s₀ as es₁ t a fs u →
    installs (history fs) = [] →
    u.client.keys = t.client.keys ∧ u.client.fetchedAt = t.client.fetchedAt
  returned : ∀ es₁ t a fs u call time pem, Visit (Sys.step lib) s₀ as es₁ t a fs u →
    .ended call time (.returned pem) ∈ fs →
    ∃ number installedAt document jwk,
      latest LoadEvent.install? (history (es₁ ++ fs)) = some (number, installedAt, document) ∧
      lastEntry document call.kid = some jwk ∧ toPem lib jwk = .ok pem
  withdrawn : ∀ es₁ t a fs u, Visit (Sys.step lib) s₀ as es₁ t a fs u →
    ∀ past since number installedAt document kid, es₁ ++ fs = past ++ since →
    latest LoadEvent.install? (history past) = some (number, installedAt, document) →
    lastEntry document kid = none →
    (∀ p ∈ installs (history since), lastEntry p.2.2 kid = none) →
    ∀ call time pem, .ended call time (.returned pem) ∈ fs → call.kid ≠ kid

theorem latest_install?_mem {h : List LoadEvent} {p : Nat × Time × Json}
    (hlast : latest LoadEvent.install? h = some p) : p ∈ installs h := by
  obtain ⟨e, he, hinstall⟩ := exists_mem_of_latest hlast
  exact List.mem_filterMap.mpr ⟨e, he, hinstall⟩

/-- Every run serves the last good document and nothing else. -/
theorem servesLastDocument_of_run (start : Started lib url ttl interval s₀)
    (run : Run (Sys.step lib) s₀ as es s) : ServesLastDocument lib url s₀ as es s := by
  refine ⟨(known_of_run start run).holdsLastDocument, ?_, ?_, ?_⟩
  · intro es₁ t a fs u visit quiet
    exact (known_of_visit start visit).1.cache_eq quiet
  · intro es₁ t a fs u call time pem visit ended
    exact exists_entry_of_returned start visit ended
  · rintro es₁ t a fs u visit past since number installedAt document _ htrace hlast gone later
      call time pem ended rfl
    obtain ⟨n, i, current, jwk, hcurrent, hentry, _⟩ := exists_entry_of_returned start visit ended
    rw [htrace, history_append, latest_append] at hcurrent
    -- The current document is the one installed then, or a later one.
    cases hsince : latest LoadEvent.install? (history since) with
    | none =>
        obtain ⟨-, -, rfl⟩ : number = n ∧ installedAt = i ∧ document = current := by
          simpa [hsince, hlast] using hcurrent
        rw [gone] at hentry
        cases hentry
    | some last =>
        obtain rfl : last = (n, i, current) := by simpa [hsince] using hcurrent
        have hgone := later _ (latest_install?_mem hsince)
        rw [hgone] at hentry
        cases hentry

/-- A document is replaced by another one while a call waits for the load. -/
theorem servesLastDocument_of_run_rotation :
    ∃ es s, Run (Sys.step .sample) (.sample : Sys Unit)
      [.call "k1" (), .receive 0 (.ok (.sample ["k1"])), .advance 3601, .call "k1" (),
        .call "k2" (), .receive 1 (.ok (.sample ["k2"])), .wake 2] es s ∧
      s.client.lookup "k1" = none ∧
      ServesLastDocument .sample sampleUrl .sample
        [.call "k1" (), .receive 0 (.ok (.sample ["k1"])), .advance 3601, .call "k1" (),
          .call "k2" (), .receive 1 (.ok (.sample ["k2"])), .wake 2] es s := by
  have hrun : (exec (Sys.step .sample) (.sample : Sys Unit)
      [.call "k1" (), .receive 0 (.ok (.sample ["k1"])), .advance 3601, .call "k1" (),
        .call "k2" (), .receive 1 (.ok (.sample ["k2"])), .wake 2]).map
        (fun r => r.1.client.lookup "k1") = some none := by decide +kernel
  obtain ⟨es, s, run, hlookup⟩ :=
    Run.of_exec_map (f := fun _ (s : Sys Unit) => s.client.lookup "k1") hrun
  exact ⟨es, s, run, hlookup, servesLastDocument_of_run .sample run⟩

/-! ## A key that stays published -/

/-- A cached key stays cached while every installed document carries it. -/
theorem Known.lookup_ne_none (before : Known lib url ttl interval es m)
    (after : Known lib url ttl interval (es ++ es') u) {kid : String}
    (held : m.client.lookup kid ≠ none)
    (kept : ∀ p ∈ installs (history es'), lastEntry p.2.2 kid ≠ none) :
    u.client.lookup kid ≠ none := by
  have past := before.holdsLastDocument
  have present := after.holdsLastDocument
  cases hlater : latest LoadEvent.install? (history es') with
  | some last =>
      obtain ⟨number, time, document⟩ := last
      obtain ⟨hparsed, _⟩ := present.document number time document (by simp [hlater])
      rw [JwksClient.lookup, ne_eq, lookup_eq_none_iff_of_parseKeys hparsed]
      exact kept _ (latest_install?_mem hlater)
  | none =>
      cases hlast : latest LoadEvent.install? (history es) with
      | none =>
          exact absurd (JwksClient.lookup_eq_none_of_keys_eq_empty (past.cold hlast) kid) held
      | some last =>
          obtain ⟨number, time, document⟩ := last
          obtain ⟨hpast, _⟩ := past.document number time document hlast
          obtain ⟨hpresent, _⟩ := present.document number time document (by simp [hlater, hlast])
          have hkeys : m.client.keys = u.client.keys := Except.ok.inj (hpast.symm.trans hpresent)
          rw [JwksClient.lookup, ← hkeys]
          exact held

/-- If the cache holds `kid` at some moment `m` before a call for it ends, or at
its end, and every document installed from that moment until the end carries
`kid`, then the call returns a key. A fresh cached key is returned by the first
segment of the call, which leaves the client and the requests alone. -/
theorem returned_of_held (start : Started lib url ttl interval s₀)
    (run : Run (Sys.step lib) s₀ as es m) (sources : SourceFailures lib url bs) :
    (∀ es' t a fs u call time o, Visit (Sys.step lib) m bs es' t a fs u →
      .ended call time o ∈ fs → o ≠ .cancelled →
      (m.client.lookup call.kid ≠ none ∧
          ∀ p ∈ installs (history (es' ++ fs)), lastEntry p.2.2 call.kid ≠ none) ∨
        u.client.lookup call.kid ≠ none →
      ∃ pem, o = .returned pem ∧ u.client.lookup call.kid = some pem) ∧
    (∀ kid tag key, m.client.lookup kid = some key → m.client.isStale m.now = false →
      Sys.step lib m (.call kid tag) =
        some ({ m with calls := m.calls + 1, exceptions := m.exceptions + 1 },
          [.called ⟨m.calls, kid, tag⟩, .ended ⟨m.calls, kid, tag⟩ m.now (.returned key)])) := by
  constructor
  · intro es' t a fs u call time o visit ended hcancel hheld
    obtain ⟨move, before, after⟩ := known_of_visit start (visit.after run)
    obtain ⟨_, exit⟩ := move.exit before.guarded ended
    have cached : u.client.lookup call.kid ≠ none := by
      rcases hheld with ⟨held, kept⟩ | cached
      · have present : Known lib url ttl interval (es ++ (es' ++ fs)) u := by
          rw [← List.append_assoc]
          exact after
        exact (known_of_run start run).lookup_ne_none present held kept
      · exact cached
    obtain ⟨pem, hpem⟩ := Option.ne_none_iff_exists'.mp cached
    refine ⟨pem, exit.returned_of_lookup hcancel ?_ hpem, hpem⟩
    rintro id got exn rfl hfetch
    rw [before.guarded.url_eq] at hfetch
    exact sources id got visit.mem exn hfetch
  · intro kid tag key cached fresh
    simp [Sys.step, JwksClient.getKey, cached, fresh, Sys.settle]

/-- A fresh key is served while the load of another call is in flight, and a
stale one after that load and the call's own have failed. -/
theorem returned_of_held_outage :
    ∃ es m es' t fs u pem key, Run (Sys.step .sample) (.sample : Sys Unit)
        [.call "k1" (), .receive 0 (.ok (.sample ["k1"])), .advance 31, .call "nope" ()] es m ∧
      Visit (Sys.step .sample) m ([.advance 3601, .call "k1" (), .receive 1 (.ok .unavailable),
        .wake 2] ++ [.receive 2 (.ok .unavailable)]) es' t (.receive 2 (.ok .unavailable)) fs u ∧
      u.client.lookup "k1" = some pem ∧
      Sys.step .sample m (.call "k1" ()) =
        some ({ m with calls := m.calls + 1, exceptions := m.exceptions + 1 },
          [.called ⟨m.calls, "k1", ()⟩, .ended ⟨m.calls, "k1", ()⟩ m.now (.returned key)]) := by
  have hrun : ((exec (Sys.step .sample) (.sample : Sys Unit)
      [.call "k1" (), .receive 0 (.ok (.sample ["k1"])), .advance 31, .call "nope" ()]).bind
        fun r => (observe (Sys.step .sample) (fun es _ fs _ =>
          ((installs (history (es ++ fs))).isEmpty, fs.findSome? Event.returned?)) r.1
          [.advance 3601, .call "k1" (), .receive 1 (.ok .unavailable), .wake 2]
          (.receive 2 (.ok .unavailable))).map
            fun b => ((r.1.client.lookup "k1").isSome && !r.1.client.isStale r.1.now && b.1, b.2)) =
      some (true, some (⟨2, "k1", ()⟩, 3601,
        "-----BEGIN PUBLIC KEY-----\nk1\n-----END PUBLIC KEY-----\n")) := by decide +kernel
  obtain ⟨⟨m, es⟩, hexec, hrest⟩ := Option.bind_eq_some_iff.mp hrun
  obtain ⟨b, hobserve, hb⟩ := Option.map_eq_some_iff.mp hrest
  obtain ⟨es', t, fs, u, visit, rfl⟩ := Visit.of_observe hobserve
  simp only [Prod.mk.injEq, Bool.and_eq_true, Option.isSome_iff_exists, Bool.not_eq_true',
    List.isEmpty_iff] at hb
  obtain ⟨⟨⟨⟨key, held⟩, fresh⟩, quiet⟩, hreturned⟩ := hb
  have run := Run.of_exec hexec
  have sources : SourceFailures .sample sampleUrl ([.advance 3601, .call "k1" (),
      .receive 1 (.ok .unavailable), .wake 2] ++ [.receive 2 (.ok .unavailable)] :
      List (Action Unit)) := by
    apply SourceFailures.sample
    intro id got hreceived
    simp at hreceived
    tauto
  obtain ⟨served, first⟩ := returned_of_held .sample run sources
  obtain ⟨pem, _, hpem⟩ := served es' t (.receive 2 (.ok .unavailable)) fs u _ _ _ visit
    (ended_of_returned hreturned) (by simp) (.inl ⟨by simp [held], by rw [quiet]; simp⟩)
  exact ⟨es, m, es', t, fs, u, pem, _, run, visit, hpem, first "k1" () _ held fresh⟩

end MestoryCore.Auth
