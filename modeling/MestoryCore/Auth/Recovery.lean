import MestoryCore.Auth.Exit

/-!
# Recovery from any history

A client cannot be wedged by what it went through. When no call is suspended the
lock is free, and when the throttle window of the last attempt has passed too,
the next call that the fresh cache cannot answer loads the document. What that
load leaves behind is a function of the document and of the two times, so it is
what a brand-new client would have: no key, error, or mark of the past survives.
-/

namespace MestoryCore.Auth

open Python Asyncio Transition

variable {τ : Type} {lib : Library} {url : String} {ttl interval : Time}
variable {s₀ s t u : Sys τ} {a : Action τ} {as bs : List (Action τ)} {es fs : List (Event τ)}
variable {kid : String} {document : Json} {keys : Keys}

/-- The fields that a client's loads assign. -/
def JwksClient.memory (c : JwksClient τ) : Keys × Option Time × Option Time × Option Raised :=
  (c.keys, c.fetchedAt, c.lastAttemptAt, c.lastError)

/-- The action ends the `http.get` of the call. -/
def Action.Lands (id : Nat) : Action τ → Prop
  | .receive i _ => i = id
  | .abort i => i = id
  | .advance _ | .call _ _ | .wake _ | .cancel _ => False

/-- What a document answers to a `kid`: its key, or an unknown key. -/
inductive AnswersFrom (lib : Library) (document : Json) (kid : String) : Outcome → Prop where
  | published {pem : String} (found : publishedKey lib document kid = some pem) :
      AnswersFrom lib document kid (.returned pem)
  | unpublished {exc : Raised} (missing : publishedKey lib document kid = none)
      (cls : exc.exn.cls = .unknownSigningKey) : AnswersFrom lib document kid (.raised exc)

theorem answersFrom_classify {c : JwksClient τ} (parsed : parseKeys lib url document = .ok c.keys)
    (kid : String) (exc : Nat) : AnswersFrom lib document kid (c.classify lib kid exc) := by
  have published : c.lookup kid = publishedKey lib document kid := lookup_of_parseKeys parsed kid
  cases hkey : publishedKey lib document kid with
  | some pem =>
      rw [JwksClient.classify_eq_returned_iff.mpr (published.trans hkey)]
      exact .published hkey
  | none =>
      rw [JwksClient.classify_of_keys_ne_empty (published.trans hkey) (parseKeys_eq_ok parsed).2]
      exact .unpublished hkey rfl

/-! ## One load, from the call to its answer -/

/-- Nobody waits for the lock of an idle client or holds it. -/
theorem Guarded.idle (inv : Guarded url ttl interval s) (idle : s.suspended = []) :
    s.flights = [] ∧ s.client.lock.locked = false ∧ s.client.lock.waiters = [] := by
  obtain ⟨tasks, flights⟩ := List.append_eq_nil_iff.mp idle
  have unflown : s.flights = [] := List.map_eq_nil_iff.mp flights
  exact ⟨unflown, inv.unlocked unflown, List.map_eq_nil_iff.mp tasks⟩

theorem Guarded.acquire?_of_idle (inv : Guarded url ttl interval s) (idle : s.suspended = []) :
    s.client.lock.acquire? = some { s.client.lock with locked := true } := by
  obtain ⟨_, unlocked, waiters⟩ := inv.idle idle
  exact Lock.acquire?_eq_some_iff.mpr ⟨unlocked, by simp [waiters], rfl⟩

/-- The call is the one in `http.get`, its attempt was marked at `mark`, and the
rest of the client's memory is that of `c`. -/
structure Requesting (c : JwksClient τ) (mark : Time) (f : Flight τ) (u : Sys τ) : Prop where
  flights : u.flights = [f]
  memory : u.client.memory = (c.keys, c.fetchedAt, some mark, c.lastError)
  later : mark ≤ u.now

theorem Requesting.flight? {c : JwksClient τ} {mark : Time} {f : Flight τ}
    (h : Requesting c mark f u) : u.flight? f.call.id = some f := by
  simp [Sys.flight?, h.flights]

/-- A call that the fresh cache cannot answer sends a request from an idle
client whose window has passed. -/
theorem Guarded.send (inv : Guarded url ttl interval s) (idle : s.suspended = [])
    (window : ∀ m, s.client.lastAttemptAt = some m → m + s.client.minRefetchInterval ≤ s.now)
    (miss : s.client.lookup kid = none ∨ s.client.isStale s.now = true) (lib : Library) (tag : τ) :
    ∃ t fs, Sys.step lib s (.call kid tag) = some (t, fs) ∧
      history fs = [.sent s.requests s.now] ∧ t.now = s.now ∧
      Requesting s.client s.now ⟨⟨s.calls, kid, tag⟩, s.requests⟩ t := by
  have free := inv.acquire?_of_idle idle
  have may : s.client.mayRefetch s.now = true := by
    cases hmark : s.client.lastAttemptAt with
    | none => simp [JwksClient.mayRefetch, hmark]
    | some m =>
        have passed := window m hmark
        simp only [JwksClient.mayRefetch, hmark, decide_eq_true_eq]
        linarith
  have needed : s.client.shouldAttemptFetch s.now kid = true := by
    cases miss with
    | inl hmiss => rw [JwksClient.shouldAttemptFetch_of_lookup_eq_none hmiss, may]
    | inr hstale => simp [JwksClient.shouldAttemptFetch, hstale, may]
  obtain ⟨⟨t, fs⟩, hstep⟩ : ∃ r, Sys.step lib s (.call kid tag) = some r := ⟨_, rfl⟩
  refine ⟨t, fs, hstep, ?_⟩
  cases Move.of_step hstep with
  | hit cached fresh =>
      cases miss with
      | inl hmiss => simp [hmiss] at cached
      | inr hstale => simp [hstale] at fresh
  | queue busy => simp [free] at busy
  | throttled _ _ closed => simp [may] at closed
  | send entry _ =>
      cases entry with
      | free acquired _ =>
          refine ⟨rfl, rfl, ?_, rfl, le_rfl⟩
          rw [(inv.idle idle).1]
          rfl

/-- While a load is in flight no step but its end touches what the client
remembers, or sends a request. -/
theorem Requesting.move {c : JwksClient τ} {mark : Time} {f : Flight τ}
    (h : Requesting c mark f s) (inv : Guarded url ttl interval s) (m : Move lib s a t es)
    (flies : ¬ a.Lands f.call.id) : Requesting c mark f t ∧ history es = [] := by
  have only : ∀ {id g}, s.flight? id = some g → id = f.call.id := by
    intro id g found
    have hid : g.call.id = id := by simpa using List.find?_some found
    have hg : g ∈ s.flights := List.mem_of_find?_eq_some found
    rw [h.flights] at hg
    rw [← hid, List.mem_singleton.mp hg]
  have flying : s.flights ≠ [] := by simp [h.flights]
  obtain ⟨flights, memory, later⟩ := h
  cases m with
  | advance forward => exact ⟨⟨flights, memory, later.trans forward⟩, rfl⟩
  | hit | queue | throttled | withdraw | cancel => exact ⟨⟨flights, memory, later⟩, rfl⟩
  | send entry => exact absurd (inv.entry entry).1 flying
  | recheck found future => exact absurd (inv.woken found future).1 flying
  | install found | fail found | abort found => exact absurd (only found) flies

theorem Requesting.run {c : JwksClient τ} {mark : Time} {f : Flight τ}
    (h : Requesting c mark f t) (inv : Guarded url ttl interval t)
    (run : Run (Sys.step lib) t bs es u) (flies : ∀ a ∈ bs, ¬ a.Lands f.call.id) :
    Guarded url ttl interval u ∧ Requesting c mark f u ∧ history es = [] := by
  refine run.invariant
    (I := fun es u => Guarded url ttl interval u ∧ Requesting c mark f u ∧ history es = [])
    ⟨inv, h, rfl⟩ ?_
  rintro es v a w fs ha ⟨inv, requesting, quiet⟩ hstep
  have m := Move.of_step hstep
  obtain ⟨after, none⟩ := requesting.move inv m (flies a ha)
  exact ⟨inv.move m, after, by simp [quiet, none]⟩

/-- The answer to a load installs its document, and the call is answered from
it. What the client remembers then depends on nothing else. -/
theorem Requesting.receive {c : JwksClient τ} {mark : Time} {f : Flight τ}
    (h : Requesting c mark f u) (inv : Guarded url ttl interval u)
    {got : Except LibraryExn Response} (fetched : fetch lib url got = .ok (document, keys)) :
    ∃ v gs o, Sys.step lib u (.receive f.call.id got) = some (v, gs) ∧
      history gs = [.installed f.number u.now document] ∧ .ended f.call u.now o ∈ gs ∧
      AnswersFrom lib document f.call.kid o ∧
      v.client.memory = (keys, some u.now, some mark, none) := by
  obtain ⟨⟨v, gs⟩, hstep⟩ : ∃ r, Sys.step lib u (.receive f.call.id got) = some r := by
    simp [Sys.step, h.flight?]
  rw [← inv.url_eq] at fetched
  have attempted : u.client.lastAttemptAt = some mark := congrArg (fun m => m.2.2.1) h.memory
  cases Move.of_step hstep with
  | install found fetched' =>
      obtain rfl := Option.some.inj (h.flight?.symm.trans found)
      obtain ⟨rfl, rfl⟩ := Prod.mk.inj (Except.ok.inj (fetched.symm.trans fetched'))
      have answers := answersFrom_classify (c := u.client.install u.now keys)
        (fetch_eq_ok fetched).2 f.call.kid u.exceptions
      refine ⟨_, _, _, hstep, rfl, by simp, answers, ?_⟩
      simp [JwksClient.memory, JwksClient.install, attempted]
  | fail _ fetched' => cases fetched.symm.trans fetched'
  | send entry => cases entry

/-! ## The next call -/

/-- The request of the call `call`, sent at the time `mark`, brought `document`
in the state `u`: the call is answered from it, and the client remembers what a
brand-new client does after loading it at the same times. -/
def LandsAsNew (lib : Library) (url : String) (ttl interval : Time) (mark : Time) (f : Flight τ)
    (u : Sys τ) (got : Except LibraryExn Response) (document : Json) : Prop :=
  ∃ v gs o, Sys.step lib u (.receive f.call.id got) = some (v, gs) ∧
    history gs = [.installed f.number u.now document] ∧
    .ended f.call u.now o ∈ gs ∧ AnswersFrom lib document f.call.kid o ∧
    ∃ n ns w, Started lib url ttl interval n ∧ n.now = mark ∧
      Run (Sys.step lib) n [.call f.call.kid f.call.tag, .advance u.now, .receive n.calls got]
        ns w ∧
      v.client.memory = w.client.memory

/-- `get_key(kid)` called in `s` sends one request and no other call sends one
until it is answered, however the schedule goes on; a document that the request
brings is taken as a brand-new client would take it. -/
def ReloadsAsNew (lib : Library) (url : String) (ttl interval : Time) (s : Sys τ) (kid : String)
    (tag : τ) : Prop :=
  ∃ t fs f, Sys.step lib s (.call kid tag) = some (t, fs) ∧
    f = (⟨⟨s.calls, kid, tag⟩, s.requests⟩ : Flight τ) ∧ t.flight? s.calls = some f ∧
    history fs = [.sent s.requests s.now] ∧
    ∀ bs es u, Run (Sys.step lib) t bs es u → (∀ a ∈ bs, ¬ a.Lands s.calls) →
      history es = [] ∧ u.flight? s.calls = some f ∧
      ∀ got document keys, fetch lib url got = .ok (document, keys) →
        LandsAsNew lib url ttl interval s.now f u got document

theorem Started.memory (start : Started lib url ttl interval s) :
    s.client.memory = (∅, none, none, none) := by
  obtain ⟨_, hinit⟩ := start
  obtain ⟨_, rfl⟩ := JwksClient.eq_of_init hinit
  rfl

/-- A brand-new client with the same configuration, at any time. -/
theorem Started.at (start : Started lib url ttl interval s) (now : Time) :
    ∃ n : Sys τ, Started lib url ttl interval n ∧ n.now = now := by
  obtain ⟨_, hinit⟩ := start
  exact ⟨_, .mk now hinit, rfl⟩

/-- What a brand-new client remembers after it loaded a document. -/
theorem Started.load (start : Started lib url ttl interval s) {time : Time} (later : s.now ≤ time)
    {got : Except LibraryExn Response} (fetched : fetch lib url got = .ok (document, keys))
    (kid : String) (tag : τ) :
    ∃ ns w, Run (Sys.step lib) s [.call kid tag, .advance time, .receive s.calls got] ns w ∧
      w.client.memory = (keys, some time, some s.now, none) := by
  have fresh : ∀ m, s.client.lastAttemptAt = some m →
      m + s.client.minRefetchInterval ≤ s.now := by
    have hmark : s.client.lastAttemptAt = none := congrArg (fun m => m.2.2.1) start.memory
    simp [hmark]
  have miss : s.client.lookup kid = none :=
    JwksClient.lookup_eq_none_of_keys_eq_empty (congrArg Prod.fst start.memory) kid
  have inv := Guarded.start start
  obtain ⟨t, fs, hcall, _, hnow, requesting⟩ :=
    inv.send start.suspended fresh (.inl miss) lib tag
  have advance : Sys.step lib t (.advance time) = some ({ t with now := time }, []) :=
    if_pos (hnow ▸ later)
  have sent := inv.step hcall
  obtain ⟨requesting', _⟩ := requesting.move sent (.of_step advance) id
  obtain ⟨v, gs, _, hreceive, _, _, _, hmemory⟩ :=
    requesting'.receive (sent.step advance) fetched
  refine ⟨fs ++ [] ++ gs, v, ?_, hmemory⟩
  exact (((Run.single hcall).snoc advance).snoc hreceive)

/-- Whatever a run did, when no call is suspended the lock is free, and when the
window has passed too a call loads the document as a brand-new client would. -/
theorem recovered_of_run (start : Started lib url ttl interval s₀)
    (run : Run (Sys.step lib) s₀ as es s) (idle : s.suspended = []) :
    (s.client.lock.locked = false ∧ s.client.lock.acquire? ≠ none) ∧
      ((∀ m, s.client.lastAttemptAt = some m → m + s.client.minRefetchInterval ≤ s.now) →
        ∀ kid tag, s.client.lookup kid = none ∨ s.client.isStale s.now = true →
          ReloadsAsNew lib url ttl interval s kid tag) := by
  have inv := (known_of_run start run).guarded
  refine ⟨⟨(inv.idle idle).2.1, by simp [inv.acquire?_of_idle idle]⟩, ?_⟩
  intro window kid tag miss
  obtain ⟨t, fs, hcall, sent, _, requesting⟩ := inv.send idle window miss lib tag
  refine ⟨t, fs, _, hcall, rfl, requesting.flight?, sent, ?_⟩
  intro bs es u rest flies
  obtain ⟨inv, requesting, quiet⟩ := requesting.run (inv.step hcall) rest flies
  refine ⟨quiet, requesting.flight?, ?_⟩
  intro got document keys fetched
  obtain ⟨v, gs, o, hreceive, installed, ended, answers, hmemory⟩ := requesting.receive inv fetched
  obtain ⟨n, brandNew, hnow⟩ := start.at s.now
  have later : n.now ≤ u.now := hnow ▸ requesting.later
  obtain ⟨ns, w, fresh, hfresh⟩ := brandNew.load later fetched kid tag
  refine ⟨v, gs, o, hreceive, installed, ended, answers, n, ns, w, brandNew, hnow, fresh, ?_⟩
  rw [hmemory, hfresh, hnow]

/-- A key was cached, a waiter was cancelled while it waited, one load failed and
one was cancelled; then the document is loaded as by a brand-new client. -/
theorem recovered_of_run_outage :
    ∃ es s, Run (Sys.step .sample) (.sample : Sys Unit)
      [.call "k1" (), .receive 0 (.ok (.sample ["k1"])), .advance 3601, .call "k1" (),
        .call "k1" (), .cancel 2, .receive 1 (.ok .unavailable), .wake 2, .advance 3650,
        .call "k2" (), .abort 3, .advance 3700] es s ∧
      s.client.lastError.isSome = true ∧ s.client.lock.locked = false ∧
      ReloadsAsNew .sample sampleUrl 3600 30 s "k1" () := by
  have hrun : (exec (Sys.step .sample) (.sample : Sys Unit)
      [.call "k1" (), .receive 0 (.ok (.sample ["k1"])), .advance 3601, .call "k1" (),
        .call "k1" (), .cancel 2, .receive 1 (.ok .unavailable), .wake 2, .advance 3650,
        .call "k2" (), .abort 3, .advance 3700]).map (fun r => (r.1.suspended, r.1.now,
          r.1.client.lastAttemptAt, r.1.client.minRefetchInterval, r.1.client.isStale r.1.now,
          r.1.client.lastError.isSome)) =
      some ([], 3700, some 3650, 30, true, true) := by decide +kernel
  obtain ⟨es, s, run, hobserved⟩ := Run.of_exec_map (f := fun _ (s : Sys Unit) =>
    (s.suspended, s.now, s.client.lastAttemptAt, s.client.minRefetchInterval,
      s.client.isStale s.now, s.client.lastError.isSome)) hrun
  simp only [Prod.mk.injEq] at hobserved
  obtain ⟨idle, hnow, hmark, hinterval, stale, remembered⟩ := hobserved
  obtain ⟨⟨unlocked, _⟩, reloads⟩ := recovered_of_run .sample run idle
  have window : ∀ m, s.client.lastAttemptAt = some m →
      m + s.client.minRefetchInterval ≤ s.now := by
    intro m hm
    obtain rfl := Option.some.inj (hmark.symm.trans hm)
    rw [hinterval, hnow]
    norm_num
  exact ⟨es, s, run, remembered, unlocked, reloads window "k1" () (.inr stale)⟩

end MestoryCore.Auth
