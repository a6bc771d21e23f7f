import MestoryCore.Auth.Abstraction
import MestoryCore.Auth.Exit

/-!
# A remembered outage

While the cache is empty and the last load has failed, `get_key` raises copies of
the exception of that load. Each copy is a new object with the class, `args`, and
attributes of the original, raised from it, so the copies are alike however many
there are. The original is raised by its own load alone: no later step of the
client changes it or raises it again.
-/

namespace MestoryCore.Auth

open Python Asyncio Transition

variable {τ : Type} {lib : ObjectLibrary} {url : String} {ttl interval : Time}
variable {o₀ o u : ObjectSys τ} {a : Action τ} {as bs : List (Action τ)}
variable {es fs gs : List (ObjectEvent τ)} {call : Call τ} {e r : Ref}

/-- The call decides in this step whether to load: it begins while no load is in
flight, or it was woken as the next holder of the lock. -/
inductive ObjectSys.Enters (o : ObjectSys τ) : Action τ → Call τ → Prop where
  | first {kid : String} {tag : τ} (idle : o.flights = []) :
      Enters o (.call kid tag) ⟨o.calls, kid, tag⟩
  | woken {id : Nat} {w : Waiter (Call τ)} (found : o.client.fields.lock.find? id = some w)
      (future : w.future = .woken) : Enters o (.wake id) w.task

/-- `call` has sent no request, and ended in the step from `o` to `u` with a new
object `r` that is a copy of the exception `e`. -/
structure ReportsOutage (es fs : List (ObjectEvent τ)) (o u : ObjectSys τ) (call : Call τ)
    (e r : Ref) : Prop where
  unsent : ∀ c number mark, .sent c number mark ∈ es ++ fs → c.id ≠ call.id
  ended : .ended call o.now (.raised r) ∈ fs
  new : o.heap.size ≤ r
  unraised : ∀ r', RaisedIn es r' → r' ≠ r
  distinct : e ≠ r
  cls : (u.heap.objects r).cls = (u.heap.objects e).cls
  args : (u.heap.objects r).args = (u.heap.objects e).args
  attributes : ∀ name value, (u.heap.objects e).attributes.lookup name = some value →
    (u.heap.objects r).attributes.lookup name = some value
  cause : (u.heap.objects r).cause = some e
  chain : ∀ rs, u.heap.CauseChain e rs → u.heap.CauseChain r (r :: rs)
  traceback : (u.heap.objects r).traceback = 1

/-- Step 4 of a cold client that remembers `e` raises a new copy of it. -/
theorem ObjectClient.classify_of_lastError {w : World ExnClass Value (ObjectClient τ)}
    (cold : w.self.fields.keys = ∅) (remembers : w.self.lastError = some e) (lib : ObjectLibrary)
    (kid : String) :
    Code.Contract w.heap.size w (ObjectClient.classify lib kid) fun result w' =>
      ∃ r, result = .error r ∧ IsNew w.heap.size w'.heap r ∧
        w'.heap.objects r =
          { copyOf lib (w.heap.objects e) with cause := some e, traceback := 1 } := by
  refine (ObjectClient.classify_contract le_rfl).mono ?_
  rintro result w' _ ⟨_, classified⟩
  cases classified with
  | found cached =>
      rw [JwksClient.lookup_eq_none_of_keys_eq_empty cold] at cached
      cases cached
  | @copied _ r _ remembers' isNew object =>
      obtain rfl := Option.some.inj (remembers.symm.trans remembers')
      exact ⟨r, rfl, isNew, object⟩
  | unknown _ unblamed =>
      cases unblamed with
      | inl warm => exact absurd cold warm
      | inr forgotten =>
          rw [remembers] at forgotten
          cases forgotten

/-- A cold client whose window is closed goes to step 4 with a call that decides. -/
theorem ObjectSys.Enters.step_eq (enters : o.Enters a call) (lib : ObjectLibrary)
    (unlocked : o.flights = [] → o.client.fields.lock.locked = false)
    (cold : o.client.fields.keys = ∅) (window : o.client.fields.mayRefetch o.now = false) :
    ∃ o₁ c before, ObjectSys.step lib o a =
        some (ObjectSys.settle o₁ call before (.finished c (ObjectClient.classify lib call.kid))) ∧
      o₁.heap = o.heap ∧ o₁.now = o.now ∧ c.fields.keys = ∅ ∧
      c.lastError = o.client.lastError ∧ ∀ d number mark, .sent d number mark ∉ before := by
  have miss := JwksClient.lookup_eq_none_of_keys_eq_empty cold
  have unneeded : ∀ kid, o.client.fields.shouldAttemptFetch o.now kid = false := by
    intro kid
    simp [JwksClient.shouldAttemptFetch, window]
  cases enters with
  | @first kid tag idle =>
      refine ⟨{ o with calls := o.calls + 1 }, o.client, [.called ⟨o.calls, kid, tag⟩], ?_, rfl,
        rfl, cold, rfl, by simp⟩
      simp [ObjectSys.step, ObjectClient.getKey, miss, unlocked idle, unneeded]
  | @woken id w found future =>
      refine ⟨o, (o.client.withLock (o.client.fields.lock.resume id)).release, [], ?_, rfl, rfl,
        cold, rfl, by simp⟩
      have unneeded' : (o.client.withLock
          (o.client.fields.lock.resume id)).fields.shouldAttemptFetch o.now w.task.kid = false :=
        unneeded w.task.kid
      simp [ObjectSys.step, found, future, ObjectClient.underLock, unneeded']

/-- A run of the client of objects keeps every object that it starts with, and
raises none of them. -/
theorem keeps_of_run {s : Sys τ} (state : StateDepicts o s)
    (run : Run (ObjectSys.step lib) o bs gs u) :
    o.heap.Keeps o.heap.size u.heap ∧ ∀ r, RaisedIn gs r → o.heap.size ≤ r := by
  refine (run.invariant (I := fun gs u => (∃ s, StateDepicts u s) ∧
    o.heap.Keeps o.heap.size u.heap ∧ ∀ r, RaisedIn gs r → o.heap.size ≤ r)
    ⟨⟨s, state⟩, .refl _ _, fun r ⟨_, _, ended⟩ => absurd ended (List.not_mem_nil)⟩ ?_).2
  rintro gs v b w hs _ ⟨⟨_, state⟩, keeps, raised⟩ hstep
  obtain ⟨_, _, next⟩ := state.step hstep
  refine ⟨⟨_, next.state⟩, keeps.trans (next.keeps.mono keeps.size_le), ?_⟩
  rintro r ⟨call, time, ended⟩
  cases List.mem_append.mp ended with
  | inl ended => exact raised r ⟨call, time, ended⟩
  | inr ended => exact keeps.size_le.trans (next.raised r ⟨call, time, ended⟩)

namespace RunDepicts

variable {s₀ s : Sys τ} {es' : List (Event τ)}

/-- The exceptions that a run has raised exist. -/
theorem raised_lt (h : RunDepicts lib url ttl interval as es o s₀ es' s) (raised : RaisedIn es r) :
    r < o.heap.size := by
  obtain ⟨call, time, ended⟩ := raised
  obtain ⟨_, _, depicts⟩ := h.exists_event ended
  cases depicts with
  | ended _ _ outcome =>
      cases outcome with
      | raised depicts => exact depicts.lt

/-- The remembered exception exists. -/
theorem lastError_lt (h : RunDepicts lib url ttl interval as es o s₀ es' s)
    (remembers : o.client.lastError = some e) : e < o.heap.size := by
  obtain @⟨c', exceptions, client⟩ := h.state
  obtain ⟨_, _, depicts⟩ := client.exists_error remembers
  exact depicts.lt

/-- No call holds the lock while no load is in flight. -/
theorem locked_of_idle (h : RunDepicts lib url ttl interval as es o s₀ es' s)
    (idle : o.flights = []) : o.client.fields.lock.locked = false := by
  have guarded := (known_of_run h.start h.run).guarded
  obtain @⟨c', exceptions, client⟩ := h.state
  rw [← client.lock]
  exact guarded.unlocked idle

/-- A call that decides whether to load has not sent a request. -/
theorem unsent (h : RunDepicts lib url ttl interval as es o s₀ es' s) (enters : o.Enters a call)
    {c : Call τ} {number : Nat} {mark : Time} (sent : .sent c number mark ∈ es) :
    c.id ≠ call.id := by
  have numbered := numbered_of_run h.start h.run
  obtain ⟨_, hsent, depicts⟩ := h.exists_event sent
  cases depicts
  obtain ⟨hlt, hnot⟩ := numbered.sent c number mark hsent
  obtain @⟨c', exceptions, client⟩ := h.state
  cases enters with
  | first => exact hlt.ne
  | woken found =>
      intro heq
      have hwaits := Lock.task_mem_of_find? (client.lock ▸ found)
      exact hnot (heq ▸ List.mem_map_of_mem hwaits)

/-- Nothing was installed while the cache is cold. -/
theorem not_installed_of_cold (h : RunDepicts lib url ttl interval as es o s₀ es' s)
    (cold : o.client.fields.keys = ∅) (call : Call τ) (number : Nat) (time : Time)
    (document : Json) : .installed call number time document ∉ es := by
  intro installed
  obtain ⟨_, hload, depicts⟩ := h.exists_event installed
  cases depicts
  have known := known_of_run h.start h.run
  obtain @⟨c', exceptions, client⟩ := h.state
  have hcache := known.cached.document
  have hmem : .installed number time document ∈ history es' :=
    List.mem_filterMap.mpr ⟨_, hload, rfl⟩
  cases hlast : latest LoadEvent.install? (history es') with
  | none => exact absurd (latest_eq_none_iff.mp hlast _ hmem) (by simp)
  | some last =>
      rw [hlast] at hcache
      exact (parseKeys_eq_ok hcache.1).2 (client.keys.trans cold)

/-- A cold client remembers the exception of the most recent failed load. -/
theorem lastError_of_cold (h : RunDepicts lib url ttl interval as es o s₀ es' s)
    (cold : o.client.fields.keys = ∅) : o.client.lastError = latest ObjectEvent.failed? es := by
  have completed : ∀ e ∈ es, e.completion? = e.failed?.map some := by
    intro e he
    cases e with
    | installed call number time document =>
        exact absurd he (h.not_installed_of_cold cold call number time document)
    | called | queued | sent | failed | aborted | ended => rfl
  rw [h.remembers, remembered, latest_congr completed, latest_map]
  cases latest ObjectEvent.failed? es <;> rfl

end RunDepicts

/-- In every run, each call that decides whether to load while the cache is empty
after a failed load and the window is closed ends with a new copy of the exception
of the most recent failed load. No step after a failed load changes or raises its
exception. -/
theorem reportsOutage_of_visit (start : ObjectStarted lib url ttl interval o₀) :
    (∀ as es (o : ObjectSys τ) a fs u call e, Visit (ObjectSys.step lib) o₀ as es o a fs u →
      o.Enters a call → o.client.fields.keys = ∅ → latest ObjectEvent.failed? es = some e →
      o.client.fields.mayRefetch o.now = false → ∃ r, ReportsOutage es fs o u call e r) ∧
    (∀ as es (o : ObjectSys τ) a fs u call number e, Visit (ObjectSys.step lib) o₀ as es o a fs u →
      .failed call number e ∈ fs → ∃ rs, u.heap.CauseChain e rs ∧
        ∀ bs gs v, Run (ObjectSys.step lib) u bs gs v →
          v.heap.objects e = u.heap.objects e ∧ v.heap.CauseChain e rs ∧ ¬ RaisedIn gs e) := by
  constructor
  · intro as es o a fs u call e visit enters cold failed window
    obtain ⟨before, _, run, _⟩ := visit.run
    obtain ⟨s₀, es', s, depicts⟩ := exists_runDepicts start run
    have remembers : o.client.lastError = some e := (depicts.lastError_of_cold cold).trans failed
    obtain ⟨o₁, c, sent, hstep, hheap, hnow, hkeys, hlast, unsent⟩ :=
      enters.step_eq lib depicts.locked_of_idle cold window
    obtain ⟨keeps, r, hresult, isNew, object⟩ :=
      ObjectClient.classify_of_lastError (w := { heap := o₁.heap, self := c }) hkeys
        (hlast.trans remembers) lib call.kid
    rw [visit.step_eq, Option.some.injEq, ObjectSys.settle] at hstep
    generalize ObjectClient.classify lib call.kid { heap := o₁.heap, self := c } = ended
      at keeps hresult isNew object hstep
    obtain ⟨result, w⟩ := ended
    obtain ⟨rfl, rfl⟩ := Prod.mk.inj hstep
    obtain rfl : result = .error r := hresult
    simp only [hheap] at keeps isNew object
    have lt := depicts.lastError_lt remembers
    have same : w.heap.objects e = o.heap.objects e := keeps.objects_eq e lt
    refine ⟨r, ?_, ?_, isNew.le, ?_, (lt.trans_le isNew.le).ne, ?_, ?_, ?_, ?_, ?_, ?_⟩
    · intro d number mark hsent
      cases List.mem_append.mp hsent with
      | inl hsent => exact depicts.unsent enters hsent
      | inr hsent => exact absurd hsent (by simp [unsent])
    · simp [hnow, ObjectOutcome.of]
    · intro r' raised
      exact ((depicts.raised_lt raised).trans_le isNew.le).ne
    · simp [object, same, copyOf]
    · simp [object, same, copyOf]
    · intro name value found
      have held : (o.heap.objects e).attributes.lookup name = some value := same ▸ found
      have mem := Finmap.mem_of_lookup_eq_some held
      simpa [object, copyOf, Finmap.lookup_union_left mem] using held
    · simp [object]
    · intro rs chain
      exact .next isNew.lt (by simp [object]) chain
    · simp [object]
  · intro as es o a fs u call number e visit failed
    obtain ⟨before, _, _, run⟩ := visit.run
    obtain ⟨s₀, es', s, depicts⟩ := exists_runDepicts start run
    obtain ⟨_, _, hfailed⟩ := depicts.exists_event (List.mem_append_right _ failed)
    cases hfailed with
    | failed _ _ exception =>
        obtain ⟨rs, chain⟩ := exception.chain
        refine ⟨rs, chain, ?_⟩
        intro bs gs v rest
        obtain ⟨keeps, raised⟩ := keeps_of_run depicts.state rest
        exact ⟨keeps.objects_eq e exception.lt, chain.keeps keeps,
          fun h => absurd exception.lt (not_lt.mpr (raised e h))⟩

def ObjectLibrary.sample : ObjectLibrary :=
  { Library.sample with initArgs := fun _ args => args, frames := fun _ _ => 3 }

/-- A client in a program that has raised no exception. -/
def ObjectSys.sample : ObjectSys Unit where
  heap := { objects := fun _ => { cls := .runtimeError, args := [] }, size := 0 }
  client := { fields := (Sys.sample : Sys Unit).client }
  now := 0

theorem ObjectStarted.sample : ObjectStarted .sample sampleUrl 3600 30 .sample :=
  .mk _ 0 (by simp only [JwksClient.init]; rw [dif_pos (by norm_num)]; rfl)

/-- A load fails while a second call waits for it. The waiter and a third call
raise copies of its exception, the object `0`, which stays as it is. -/
theorem reportsOutage_of_visit_sample :
    (∃ es o fs u r, Visit (ObjectSys.step .sample) .sample
        ([.call "k1" (), .call "k1" (), .receive 0 (.ok .unavailable), .wake 1] ++
          [.call "k1" ()]) es o (.call "k1" ()) fs u ∧
      ReportsOutage es fs o u ⟨2, "k1", ()⟩ 0 r) ∧
    ∃ es o fs u, Visit (ObjectSys.step .sample) .sample
        ([.call "k1" (), .call "k1" ()] ++ [.receive 0 (.ok .unavailable)])
        es o (.receive 0 (.ok .unavailable)) fs u ∧
      ∀ bs gs v, Run (ObjectSys.step .sample) u bs gs v →
        v.heap.objects 0 = u.heap.objects 0 ∧ ¬ RaisedIn gs 0 := by
  have hcall : observe (ObjectSys.step .sample) (fun es o _ _ =>
      (o.flights.length, decide (o.client.fields.keys = ∅), latest ObjectEvent.failed? es,
        o.client.fields.mayRefetch o.now, o.calls)) ObjectSys.sample
      [.call "k1" (), .call "k1" (), .receive 0 (.ok .unavailable), .wake 1]
      (.call "k1" ()) = some (0, true, some 0, false, 2) := by decide +kernel
  have hfail : observe (ObjectSys.step .sample) (fun _ _ fs _ => latest ObjectEvent.failed? fs)
      ObjectSys.sample [.call "k1" (), .call "k1" ()] (.receive 0 (.ok .unavailable)) =
      some (some 0) := by decide +kernel
  obtain ⟨reports, lasts⟩ := reportsOutage_of_visit .sample
  constructor
  · obtain ⟨es, o, fs, u, visit, hobserved⟩ := Visit.of_observe hcall
    simp only [Prod.mk.injEq, List.length_eq_zero_iff, decide_eq_true_eq] at hobserved
    obtain ⟨idle, cold, failed, window, hcalls⟩ := hobserved
    obtain ⟨r, report⟩ := reports _ es o _ fs u _ 0 visit (.first idle) cold failed window
    exact ⟨es, o, fs, u, r, visit, hcalls ▸ report⟩
  · obtain ⟨es, o, fs, u, visit, hfailed⟩ := Visit.of_observe hfail
    obtain ⟨event, hmem, hevent⟩ := exists_mem_of_latest hfailed
    cases event with
    | failed call number exc =>
        obtain rfl := Option.some.inj hevent
        obtain ⟨_, _, unchanged⟩ := lasts _ es o _ fs u call number 0 visit hmem
        refine ⟨es, o, fs, u, visit, ?_⟩
        intro bs gs v rest
        obtain ⟨same, _, unraised⟩ := unchanged bs gs v rest
        exact ⟨same, unraised⟩
    | called | queued | sent | installed | aborted | ended => cases hevent

end MestoryCore.Auth
