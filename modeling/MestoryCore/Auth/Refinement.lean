import MestoryCore.Auth.System

/-!
# Every schedule refines the loads of one client

`Guarded` is the invariant of the interleaving: the lock is held exactly while
one call is suspended in `http.get`. Under it each step of the system is a step
of `Loads` or is not seen there, so `Sys.loads` maps a run to a history of
loads. `Exit` says, for each way a call can end, what the call saw.
-/

namespace MestoryCore.Auth

open Python Asyncio Transition

variable {τ : Type} {lib : Library} {url : String} {ttl interval : Time}
variable {s t : Sys τ} {a : Action τ} {es : List (Event τ)}

/-- The state of the loads of a system. -/
def Sys.loads (s : Sys τ) : Loads where
  now := s.now
  keys := s.client.keys
  fetchedAt := s.client.fetchedAt
  lastAttemptAt := s.client.lastAttemptAt
  lastError := s.client.lastError
  inFlight := s.flights.head?.map Flight.number
  requests := s.requests

@[simp] theorem history_nil : history ([] : List (Event τ)) = [] := rfl

@[simp] theorem history_append (es fs : List (Event τ)) :
    history (es ++ fs) = history es ++ history fs :=
  List.filterMap_append

@[simp] theorem history_load (call : Call τ) (e : LoadEvent) (es : List (Event τ)) :
    history (.load call e :: es) = e :: history es := rfl

@[simp] theorem history_called (call : Call τ) (es : List (Event τ)) :
    history (.called call :: es) = history es := rfl

@[simp] theorem history_queued (call : Call τ) (es : List (Event τ)) :
    history (.queued call :: es) = history es := rfl

@[simp] theorem history_ended (call : Call τ) (time : Time) (o : Outcome) (es : List (Event τ)) :
    history (.ended call time o :: es) = history es := rfl

/-- The client keeps its configuration, and its lock is held exactly while one
call is suspended in `http.get`. -/
structure Guarded (url : String) (ttl interval : Time) (s : Sys τ) : Prop where
  url_eq : s.client.url = url
  ttl_eq : s.client.ttl = ttl
  interval_eq : s.client.minRefetchInterval = interval
  lock : s.client.lock.WellFormed
  flight : (s.flights = [] ∧ s.client.lock.locked = false) ∨
    ∃ f, s.flights = [f] ∧ s.client.lock.locked = true

namespace Guarded

theorem start (h : Started lib url ttl interval s) : Guarded url ttl interval s := by
  obtain ⟨now, hinit⟩ := h
  obtain ⟨_, rfl⟩ := JwksClient.eq_of_init hinit
  exact ⟨rfl, rfl, rfl, .empty, .inl ⟨rfl, rfl⟩⟩

/-- No call is in `http.get` while the lock is free. -/
theorem flights_eq_nil (inv : Guarded url ttl interval s) (h : s.client.lock.locked = false) :
    s.flights = [] := by
  rcases inv.flight with ⟨hflights, _⟩ | ⟨_, _, hlocked⟩
  · exact hflights
  · rw [h] at hlocked
    cases hlocked

/-- Nobody holds the lock while no call is in `http.get`. -/
theorem unlocked (inv : Guarded url ttl interval s) (h : s.flights = []) :
    s.client.lock.locked = false := by
  rcases inv.flight with ⟨_, hlocked⟩ | ⟨f, hflights, _⟩
  · exact hlocked
  · rw [h] at hflights
    cases hflights

/-- A call found in `http.get` is the only one there. -/
theorem flight_eq (inv : Guarded url ttl interval s) {id : Nat} {f : Flight τ}
    (found : s.flight? id = some f) : s.flights = [f] ∧ (s.land id).flights = [] := by
  have hmem : f ∈ s.flights := List.mem_of_find?_eq_some found
  have hid : f.call.id = id := by simpa using List.find?_some found
  rcases inv.flight with ⟨hflights, _⟩ | ⟨g, hflights, _⟩
  · rw [hflights] at hmem
    cases hmem
  · rw [hflights] at hmem
    obtain rfl := List.mem_singleton.mp hmem
    exact ⟨hflights, by simp [Sys.land, hflights, hid]⟩

theorem flying (inv : Guarded url ttl interval s) {id : Nat} {f : Flight τ}
    (found : s.flight? id = some f) : s.loads.inFlight = some f.number := by
  simp [Sys.loads, (inv.flight_eq found).1]

/-- A woken waiter finds the lock free and no load in flight. -/
theorem woken (inv : Guarded url ttl interval s) {id : Nat} {w : Waiter (Call τ)}
    (found : s.client.lock.find? id = some w) (future : w.future = .woken) :
    s.flights = [] ∧ (s.client.lock.resume id).WellFormed := by
  have hwoken : w.future.isWoken = true := by
    rw [future]
    rfl
  exact ⟨inv.flights_eq_nil (inv.lock.of_woken found hwoken).1, inv.lock.resume found hwoken⟩

/-- A call about to use its lock found no load in flight, and holds the lock. -/
theorem entry (inv : Guarded url ttl interval s) {call : Call τ} {lock : Lock (Call τ)}
    {base : Sys τ} {before : List (Event τ)} (h : Entry s a call lock base before) :
    s.flights = [] ∧ lock.locked = true ∧ lock.WellFormed ∧ history before = [] ∧
      base.now = s.now := by
  cases h with
  | free acquired miss =>
      obtain ⟨hfree, _, rfl⟩ := Lock.acquire?_eq_some_iff.mp acquired
      exact ⟨inv.flights_eq_nil hfree, rfl, .acquire acquired, rfl, rfl⟩
  | woken found future =>
      obtain ⟨hnone, hlock⟩ := inv.woken found future
      exact ⟨hnone, rfl, hlock, rfl, rfl⟩

theorem move (inv : Guarded url ttl interval s) (m : Move lib s a t es) :
    Guarded url ttl interval t := by
  have ⟨hurl, httl, hinterval, hlock, hguard⟩ := inv
  cases m with
  | advance later => exact ⟨hurl, httl, hinterval, hlock, hguard⟩
  | hit cached fresh => exact ⟨hurl, httl, hinterval, hlock, hguard⟩
  | queue busy miss due => exact ⟨hurl, httl, hinterval, hlock.enqueue busy, hguard⟩
  | throttled unlocked miss window => exact ⟨hurl, httl, hinterval, hlock, hguard⟩
  | send entry needed =>
      obtain ⟨hnone, hlocked, hheld, _⟩ := inv.entry entry
      exact ⟨hurl, httl, hinterval, hheld, .inr ⟨⟨_, s.requests⟩, by rw [hnone]; rfl, hlocked⟩⟩
  | recheck found future unneeded =>
      obtain ⟨hnone, hheld⟩ := inv.woken found future
      exact ⟨hurl, httl, hinterval, hheld.release, .inl ⟨hnone, by simp⟩⟩
  | withdraw found future => exact ⟨hurl, httl, hinterval, hlock.abandon, by simpa using hguard⟩
  | cancel found => exact ⟨hurl, httl, hinterval, hlock.cancel, by simpa using hguard⟩
  | install found fetched =>
      exact ⟨hurl, httl, hinterval, hlock.release,
        .inl ⟨(inv.flight_eq found).2, by simp [JwksClient.install]⟩⟩
  | fail found fetched =>
      exact ⟨hurl, httl, hinterval, hlock.release,
        .inl ⟨(inv.flight_eq found).2, by simp [JwksClient.recordFailure]⟩⟩
  | abort found =>
      exact ⟨hurl, httl, hinterval, hlock.release,
        .inl ⟨(inv.flight_eq found).2, by simp [JwksClient.abortLoad]⟩⟩

theorem step (inv : Guarded url ttl interval s) (h : Sys.step lib s a = some (t, es)) :
    Guarded url ttl interval t :=
  inv.move (.of_step h)

end Guarded

/-- The loads of a system whose flight has landed. -/
theorem loads_land {id : Nat} (hland : (s.land id).flights = []) (client : JwksClient τ)
    (exceptions : Nat) :
    Sys.loads { s.land id with client, exceptions } =
      { now := s.now, keys := client.keys, fetchedAt := client.fetchedAt,
        lastAttemptAt := client.lastAttemptAt, lastError := client.lastError,
        inFlight := none, requests := s.requests } := by
  simp only [Sys.loads, hland, List.head?_nil, Option.map_none]
  rfl

/-- Each step of the system is a step of its loads, or leaves them alone. -/
theorem Move.loads (inv : Guarded url ttl interval s) (m : Move lib s a t es) :
    (t.loads = s.loads ∧ history es = []) ∨
      ∃ b, Loads.step lib url interval s.loads b = some (t.loads, history es) := by
  cases m with
  | @advance time later =>
      have later' : s.loads.now ≤ time := later
      refine .inr ⟨.advance time, ?_⟩
      rw [Loads.step, if_pos later']
      rfl
  | hit | queue | throttled | recheck | withdraw | cancel => exact .inl ⟨rfl, rfl⟩
  | send entry needed =>
      obtain ⟨hnone, _, _, hbefore, hnow⟩ := inv.entry entry
      have window : s.loads.mayRefetch interval = true := by
        rw [← inv.interval_eq]
        exact (Bool.and_eq_true_iff.mp needed).2
      have idle : s.loads.inFlight = none := by simp [Sys.loads, hnone]
      refine .inr ⟨.send, ?_⟩
      rw [Loads.step, if_pos ⟨idle, window⟩]
      simp [Sys.loads, hnone, hbefore, hnow]
  | @install id f got document keys found fetched =>
      have hflying := inv.flying found
      have hland := (inv.flight_eq found).2
      have parsed : parseKeys lib url document = .ok keys := by
        rw [← inv.url_eq]
        exact (fetch_eq_ok fetched).2
      refine .inr ⟨.install document, ?_⟩
      simp only [Loads.step, hflying, parsed, loads_land hland]
      rfl
  | @fail id f got exn found fetched =>
      have hflying := inv.flying found
      have hland := (inv.flight_eq found).2
      refine .inr ⟨.fail ⟨s.exceptions, exn, none⟩, ?_⟩
      simp only [Loads.step, hflying, Option.map_some, loads_land hland]
      rfl
  | abort found =>
      have hflying := inv.flying found
      have hland := (inv.flight_eq found).2
      refine .inr ⟨.abort, ?_⟩
      simp only [Loads.step, hflying, Option.map_some, loads_land hland]
      rfl

/-- Every run of the system is a history of loads of the client it started with. -/
theorem loads_of_run {s₀ : Sys τ} {as : List (Action τ)} (start : Started lib url ttl interval s₀)
    (run : Run (Sys.step lib) s₀ as es s) :
    Guarded url ttl interval s ∧
      ∃ bs, Run (Loads.step lib url interval) s₀.loads bs (history es) s.loads := by
  have next : ∀ {t u : Sys τ} {a fs}, Guarded url ttl interval t → Sys.step lib t a = some (u, fs) →
      (u.loads = t.loads ∧ history fs = []) ∨
        ∃ b, True ∧ Loads.step lib url interval t.loads b = some (u.loads, history fs) := by
    intro t u a fs inv hstep
    exact ((Move.of_step hstep).loads inv).imp_right fun ⟨b, hb⟩ => ⟨b, trivial, hb⟩
  obtain ⟨guarded, bs, _, hloads⟩ := run.project (p := Event.load?) (A := fun _ _ => True)
    (fun inv hstep => inv.step hstep) next (.start start)
  exact ⟨guarded, bs, hloads⟩

/-! ## The suspended calls -/

/-- The calls that wait for the lock or for an answer. -/
def Sys.suspended (s : Sys τ) : List (Call τ) :=
  s.client.lock.tasks ++ s.flights.map Flight.call

theorem Started.suspended (start : Started lib url ttl interval s) : s.suspended = [] := by
  obtain ⟨_, hinit⟩ := start
  obtain ⟨_, rfl⟩ := JwksClient.eq_of_init hinit
  rfl

theorem Sys.mem_suspended {call : Call τ} :
    call ∈ s.suspended ↔ call ∈ s.client.lock.tasks ∨ ∃ f ∈ s.flights, f.call = call := by
  simp [Sys.suspended]

theorem Sys.flight_mem_suspended {id : Nat} {f : Flight τ} (found : s.flight? id = some f) :
    f.call ∈ s.suspended :=
  Sys.mem_suspended.mpr (.inr ⟨f, List.mem_of_find?_eq_some found, rfl⟩)

theorem Sys.mem_suspended_of_subset {call : Call τ} (h : call ∈ t.suspended)
    (lock : t.client.lock.tasks ⊆ s.client.lock.tasks) (flights : t.flights ⊆ s.flights) :
    call ∈ s.suspended := by
  rcases Sys.mem_suspended.mp h with hwaits | ⟨f, hf, rfl⟩
  · exact Sys.mem_suspended.mpr (.inl (lock hwaits))
  · exact Sys.mem_suspended.mpr (.inr ⟨f, flights hf, rfl⟩)

/-- A call that uses the lock was suspended on it, or begins in this step. -/
theorem Entry.suspended {call : Call τ} {lock : Lock (Call τ)} {base : Sys τ}
    {before : List (Event τ)} (entry : Entry s a call lock base before) :
    lock.tasks ⊆ s.client.lock.tasks ∧
      (call ∈ s.suspended ∨ ∃ kid tag, a = .call kid tag ∧ call = ⟨s.calls, kid, tag⟩) := by
  cases entry with
  | free acquired =>
      obtain ⟨_, _, rfl⟩ := Lock.acquire?_eq_some_iff.mp acquired
      exact ⟨List.Subset.refl _, .inr ⟨_, _, rfl, rfl⟩⟩
  | @woken id w found =>
      exact ⟨(s.client.lock.tasks_resume_sublist id).subset,
        .inl (Sys.mem_suspended.mpr (.inl (Lock.task_mem_of_find? found)))⟩

/-- A call that a step leaves suspended was suspended before, or is the one that
the step began. -/
theorem Move.suspended (m : Move lib s a t es) {call : Call τ} (h : call ∈ t.suspended) :
    call ∈ s.suspended ∨ ∃ kid tag, a = .call kid tag ∧ call = ⟨s.calls, kid, tag⟩ := by
  cases m with
  | advance | hit | throttled => exact .inl h
  | queue =>
      rcases Sys.mem_suspended.mp h with hwaits | hflies
      · rw [Lock.tasks_enqueue, List.mem_append, List.mem_singleton] at hwaits
        rcases hwaits with hwaits | rfl
        · exact .inl (Sys.mem_suspended.mpr (.inl hwaits))
        · exact .inr ⟨_, _, rfl, rfl⟩
      · exact .inl (Sys.mem_suspended.mpr (.inr hflies))
  | send entry =>
      obtain ⟨hlock, hcall⟩ := entry.suspended
      rcases Sys.mem_suspended.mp h with hwaits | ⟨f, hf, rfl⟩
      · exact .inl (Sys.mem_suspended.mpr (.inl (hlock hwaits)))
      · cases List.mem_append.mp hf with
        | inl hf => exact .inl (Sys.mem_suspended.mpr (.inr ⟨f, hf, rfl⟩))
        | inr hf =>
            obtain rfl := List.mem_singleton.mp hf
            exact hcall
  | @recheck id =>
      refine .inl (Sys.mem_suspended_of_subset h ?_ (List.Subset.refl _))
      rw [Lock.tasks_release]
      exact (s.client.lock.tasks_resume_sublist id).subset
  | @withdraw id =>
      exact .inl (Sys.mem_suspended_of_subset h
        (s.client.lock.tasks_abandon_sublist id).subset (List.Subset.refl _))
  | cancel =>
      refine .inl (Sys.mem_suspended_of_subset h ?_ (List.Subset.refl _))
      rw [Lock.tasks_cancel]
      exact List.Subset.refl _
  | install | fail | abort =>
      refine .inl (Sys.mem_suspended_of_subset h ?_ List.eraseP_subset)
      simp [JwksClient.install, JwksClient.recordFailure, JwksClient.abortLoad]

/-- A call that a step ends was suspended before, or is the one that the step
began. -/
theorem Move.ended_suspended (m : Move lib s a t es) {call : Call τ} {time : Time} {o : Outcome}
    (h : .ended call time o ∈ es) :
    call ∈ s.suspended ∨ ∃ kid tag, a = .call kid tag ∧ call = ⟨s.calls, kid, tag⟩ := by
  cases m with
  | advance | queue | cancel => simp at h
  | send entry => cases entry <;> simp at h
  | hit | throttled =>
      obtain ⟨rfl, _⟩ : call = _ ∧ _ := by simpa using h
      exact .inr ⟨_, _, rfl, rfl⟩
  | recheck found | withdraw found =>
      obtain ⟨rfl, _⟩ : call = _ ∧ _ := by simpa using h
      exact .inl (Sys.mem_suspended.mpr (.inl (Lock.task_mem_of_find? found)))
  | install found | fail found | abort found =>
      obtain ⟨rfl, _⟩ : call = _ ∧ _ := by simpa using h
      exact .inl (Sys.flight_mem_suspended found)

/-! ## The calls that sent a request -/

theorem Entry.unsent {call : Call τ} {lock : Lock (Call τ)} {base : Sys τ}
    {before : List (Event τ)} (entry : Entry s a call lock base before) (c : Call τ)
    (number : Nat) (mark : Time) : .load c (.sent number mark) ∉ before := by
  cases entry <;> simp

/-- Calls are numbered as they begin, and a call that waits for the lock has not
sent a request. -/
structure Numbered (es : List (Event τ)) (s : Sys τ) : Prop where
  waiting : ∀ call ∈ s.client.lock.tasks, call.id < s.calls
  distinct : (s.client.lock.tasks.map Call.id).Nodup
  sent : ∀ call number mark, .load call (.sent number mark) ∈ es →
    call.id < s.calls ∧ call.id ∉ s.client.lock.tasks.map Call.id

namespace Numbered

/-- A step after which no other call waits or has sent a request. -/
theorem mono (inv : Numbered es s) {fs : List (Event τ)}
    (tasks : t.client.lock.tasks.Sublist s.client.lock.tasks) (calls : s.calls ≤ t.calls)
    (unsent : ∀ call number mark, .load call (.sent number mark) ∉ fs) :
    Numbered (es ++ fs) t := by
  refine ⟨?_, inv.distinct.sublist (tasks.map _), ?_⟩
  · intro call hcall
    exact (inv.waiting call (tasks.subset hcall)).trans_le calls
  · intro call number mark hsent
    cases List.mem_append.mp hsent with
    | inl hsent =>
        obtain ⟨hlt, hnot⟩ := inv.sent call number mark hsent
        exact ⟨hlt.trans_le calls, fun hwaits => hnot ((tasks.map _).subset hwaits)⟩
    | inr hsent => exact absurd hsent (unsent call number mark)

/-- A call about to use its lock is not in the deque of that lock, and no other
call has its number. -/
theorem entry (inv : Numbered es s) (guarded : Guarded url ttl interval s) {call : Call τ}
    {lock : Lock (Call τ)} {base : Sys τ} {before : List (Event τ)}
    (h : Entry s a call lock base before) :
    lock.tasks.Sublist s.client.lock.tasks ∧ s.calls ≤ base.calls ∧ call.id < base.calls ∧
      call.id ∉ lock.tasks.map Call.id ∧
      ∀ c number mark, .load c (.sent number mark) ∈ es → c.id ≠ call.id := by
  cases h with
  | free acquired =>
      obtain ⟨_, _, rfl⟩ := Lock.acquire?_eq_some_iff.mp acquired
      refine ⟨.refl _, Nat.le_succ _, Nat.lt_succ_self _, ?_, ?_⟩
      · intro hwaits
        obtain ⟨c, hc, hid⟩ := List.mem_map.mp hwaits
        exact absurd hid (inv.waiting c hc).ne
      · intro c number mark hsent
        exact (inv.sent c number mark hsent).1.ne
  | @woken id w found future =>
      have hwoken : w.future.isWoken = true := by
        rw [future]
        rfl
      have htasks : s.client.lock.tasks = w.task :: (s.client.lock.resume id).tasks := by
        rw [Lock.tasks, (guarded.lock.of_woken found hwoken).2]
        rfl
      have hmem : w.task ∈ s.client.lock.tasks := Lock.task_mem_of_find? found
      have hnodup := inv.distinct
      rw [htasks, List.map_cons, List.nodup_cons] at hnodup
      refine ⟨s.client.lock.tasks_resume_sublist id, le_rfl, inv.waiting _ hmem, hnodup.1, ?_⟩
      rintro c number mark hsent heq
      exact (inv.sent c number mark hsent).2 (heq ▸ List.mem_map_of_mem hmem)

theorem move (inv : Numbered es s) (guarded : Guarded url ttl interval s) {fs : List (Event τ)}
    (m : Move lib s a t fs) : Numbered (es ++ fs) t := by
  cases m with
  | advance | cancel => exact inv.mono (by simp) le_rfl (by simp)
  | hit | throttled => exact inv.mono (.refl _) (Nat.le_succ _) (by simp)
  | queue =>
      refine ⟨?_, ?_, ?_⟩
      · intro call hcall
        rw [Lock.tasks_enqueue, List.mem_append, List.mem_singleton] at hcall
        rcases hcall with hcall | rfl
        · exact (inv.waiting call hcall).trans (Nat.lt_succ_self _)
        · exact Nat.lt_succ_self _
      · rw [Lock.tasks_enqueue, List.map_append, List.nodup_append]
        refine ⟨inv.distinct, List.nodup_singleton _, ?_⟩
        intro id hid id' hid' heq
        obtain ⟨c, hc, rfl⟩ := List.mem_map.mp hid
        obtain rfl := List.mem_singleton.mp hid'
        exact absurd heq (inv.waiting c hc).ne
      · intro call number mark hsent
        obtain ⟨hlt, hnot⟩ := inv.sent call number mark (by simpa using hsent)
        refine ⟨hlt.trans (Nat.lt_succ_self _), ?_⟩
        rw [Lock.tasks_enqueue, List.map_append, List.mem_append, List.map_singleton,
          List.mem_singleton]
        rintro (hwaits | heq)
        · exact hnot hwaits
        · exact absurd heq hlt.ne
  | @send a call lock base before entry =>
      obtain ⟨htasks, hcalls, hlt, hnot, _⟩ := inv.entry guarded entry
      refine ⟨?_, inv.distinct.sublist (htasks.map _), ?_⟩
      · intro c hc
        exact (inv.waiting c (htasks.subset hc)).trans_le hcalls
      · intro c number mark hsent
        rw [← List.append_assoc, List.mem_append, List.mem_append] at hsent
        rcases hsent with (hsent | hsent) | hsent
        · obtain ⟨hlt', hnot'⟩ := inv.sent c number mark hsent
          exact ⟨hlt'.trans_le hcalls, fun hwaits => hnot' ((htasks.map _).subset hwaits)⟩
        · exact absurd hsent (entry.unsent c number mark)
        · obtain ⟨rfl, _⟩ : c = call ∧ _ := by simpa using hsent
          exact ⟨hlt, hnot⟩
  | @recheck id =>
      refine inv.mono ?_ le_rfl (by simp)
      rw [Lock.tasks_release]
      exact s.client.lock.tasks_resume_sublist id
  | @withdraw id => exact inv.mono (s.client.lock.tasks_abandon_sublist id) le_rfl (by simp)
  | install | fail | abort =>
      refine inv.mono ?_ le_rfl (by simp)
      simp [JwksClient.install, JwksClient.recordFailure, JwksClient.abortLoad]

end Numbered

theorem numbered_of_run {s₀ : Sys τ} {as : List (Action τ)}
    (start : Started lib url ttl interval s₀) (run : Run (Sys.step lib) s₀ as es s) :
    Numbered es s := by
  have idle : s₀.client.lock.tasks = [] := (List.append_eq_nil_iff.mp start.suspended).1
  have fresh : Numbered [] s₀ := ⟨by simp [idle], by simp [idle], by simp⟩
  refine (run.invariant (I := fun es s => Guarded url ttl interval s ∧ Numbered es s)
    ⟨.start start, fresh⟩ ?_).2
  rintro es t a u fs _ ⟨guarded, numbered⟩ hstep
  have m := Move.of_step hstep
  exact ⟨guarded.move m, numbered.move guarded m⟩

/-- What a run of the system knows about its client: the interleaving is guarded,
and the three invariants of the history of its loads hold. -/
structure Known (lib : Library) (url : String) (ttl interval : Time) (es : List (Event τ))
    (s : Sys τ) : Prop where
  guarded : Guarded url ttl interval s
  cached : Loads.Cached lib url (history es) s.loads
  timed : Loads.Timed (history es) s.loads
  ordered : Loads.Ordered interval (history es) s.loads

theorem known_of_run {s₀ : Sys τ} {as : List (Action τ)} (start : Started lib url ttl interval s₀)
    (run : Run (Sys.step lib) s₀ as es s) : Known lib url ttl interval es s := by
  obtain ⟨guarded, bs, hloads⟩ := loads_of_run start run
  have hstart : s₀.loads = { now := s₀.now } := by
    obtain ⟨now, hinit⟩ := start
    obtain ⟨_, rfl⟩ := JwksClient.eq_of_init hinit
    rfl
  rw [hstart] at hloads
  obtain ⟨cached, timed, ordered⟩ := Loads.inv_of_run hloads
  exact ⟨guarded, cached, timed, ordered⟩

end MestoryCore.Auth
