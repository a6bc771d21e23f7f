import MestoryCore.Auth.Service

/-!
# No request is lost, and none is answered twice

A call that began has ended once or is suspended, so a request that arrived has
been answered once or awaits its key. While somebody is suspended the client is
not stuck: a load is in flight, or a waiter can run. Each segment that such a
call runs brings it closer to its end, so the suspended calls of any state are
done after at most two segments each.
-/

namespace MestoryCore.Auth

open Python Asyncio Transition

section Calls

variable {τ : Type} {lib : Library} {url : String} {ttl interval : Time}
variable {s₀ s t : Sys τ} {a : Action τ} {as : List (Action τ)} {es fs : List (Event τ)}

@[simp] def Event.called? : Event τ → Option (Call τ)
  | .called call => some call
  | _ => none

@[simp] def Event.ended? : Event τ → Option (Call τ)
  | .ended call _ _ => some call
  | _ => none

/-- The calls that a trace begins. -/
def calledIn (es : List (Event τ)) : List (Call τ) := es.filterMap Event.called?

/-- The calls that a trace ends. -/
def endedIn (es : List (Event τ)) : List (Call τ) := es.filterMap Event.ended?

@[simp] theorem calledIn_nil : calledIn ([] : List (Event τ)) = [] := rfl

@[simp] theorem endedIn_nil : endedIn ([] : List (Event τ)) = [] := rfl

@[simp] theorem calledIn_cons (e : Event τ) (es : List (Event τ)) :
    calledIn (e :: es) = e.called?.toList ++ calledIn es := by
  cases e <;> rfl

@[simp] theorem endedIn_cons (e : Event τ) (es : List (Event τ)) :
    endedIn (e :: es) = e.ended?.toList ++ endedIn es := by
  cases e <;> rfl

@[simp] theorem calledIn_append (es fs : List (Event τ)) :
    calledIn (es ++ fs) = calledIn es ++ calledIn fs :=
  List.filterMap_append

@[simp] theorem endedIn_append (es fs : List (Event τ)) :
    endedIn (es ++ fs) = endedIn es ++ endedIn fs :=
  List.filterMap_append

/-- A step begins the call of its action, numbered next, and no other. -/
theorem Move.calledIn_eq (m : Move lib s a t es) :
    (∃ kid tag, a = .call kid tag ∧ calledIn es = [⟨s.calls, kid, tag⟩] ∧
      t.calls = s.calls + 1) ∨
    (a.isCall = false ∧ calledIn es = [] ∧ t.calls = s.calls) := by
  cases m with
  | advance | recheck | withdraw | cancel | install | fail | abort => exact .inr ⟨rfl, rfl, rfl⟩
  | hit | queue | throttled => exact .inl ⟨_, _, rfl, rfl, rfl⟩
  | send entry =>
      cases entry with
      | free => exact .inl ⟨_, _, rfl, rfl, rfl⟩
      | woken => exact .inr ⟨rfl, rfl, rfl⟩

/-- A call that is suspended or begins in a step ends in it or is suspended after
it, and nothing else does. -/
theorem Move.accounted (inv : Guarded url ttl interval s) (m : Move lib s a t es) :
    (s.suspended ++ calledIn es).Perm (endedIn es ++ t.suspended) := by
  -- The deque after a waiter left it, whatever became of the waiter.
  have left : ∀ {id : Nat} {w : Waiter (Call τ)}, s.client.lock.find? id = some w →
      s.suspended.Perm (w.task :: ((s.client.lock.remove id).tasks ++ s.flights.map Flight.call)) :=
    fun found => (Lock.tasks_perm_of_find? found).append_right _
  cases m with
  | advance | cancel => simp [Sys.suspended]
  | hit | throttled => exact List.perm_append_singleton _ _
  | queue => simpa [Sys.suspended] using (List.perm_append_singleton _ _).append_left _
  | send entry =>
      cases entry with
      | free acquired =>
          obtain ⟨_, _, rfl⟩ := Lock.acquire?_eq_some_iff.mp acquired
          simp [Sys.suspended, Lock.tasks]
      | woken found =>
          simpa [Sys.suspended] using (left found).trans (List.perm_append_singleton _ _).symm
  | recheck found | withdraw found => simpa [Sys.suspended] using left found
  | install found | fail found | abort found =>
      obtain ⟨hflights, hland⟩ := inv.flight_eq found
      simp [Sys.suspended, hflights, hland, JwksClient.install, JwksClient.recordFailure,
        JwksClient.abortLoad]

/-- Over a run from any guarded state, the calls that were suspended or began
have ended or are suspended now. -/
theorem accounted_of_run (inv : Guarded url ttl interval s) (run : Run (Sys.step lib) s as es t) :
    Guarded url ttl interval t ∧
      (s.suspended ++ calledIn es).Perm (endedIn es ++ t.suspended) := by
  refine run.invariant (I := fun es t => Guarded url ttl interval t ∧
    (s.suspended ++ calledIn es).Perm (endedIn es ++ t.suspended)) ⟨inv, by simp⟩ ?_
  rintro es t a u fs _ ⟨inv, before⟩ hstep
  have m := Move.of_step hstep
  refine ⟨inv.move m, ?_⟩
  calc
    s.suspended ++ calledIn (es ++ fs) = s.suspended ++ calledIn es ++ calledIn fs := by simp
    List.Perm _ (endedIn es ++ t.suspended ++ calledIn fs) := before.append_right _
    _ = endedIn es ++ (t.suspended ++ calledIn fs) := List.append_assoc _ _ _
    List.Perm _ (endedIn es ++ (endedIn fs ++ u.suspended)) := (m.accounted inv).append_left _
    _ = endedIn (es ++ fs) ++ u.suspended := by simp

theorem Started.calls (start : Started lib url ttl interval s) : s.calls = 0 := by
  cases start
  rfl

/-- The calls of a run are numbered as they begin. -/
theorem calledIn_of_run (run : Run (Sys.step lib) s as es t) :
    (calledIn es).map Call.id = List.range' s.calls (calledIn es).length ∧
      t.calls = s.calls + (calledIn es).length := by
  refine run.invariant (I := fun es t =>
    (calledIn es).map Call.id = List.range' s.calls (calledIn es).length ∧
      t.calls = s.calls + (calledIn es).length) ⟨by simp, by simp⟩ ?_
  rintro es t a u fs _ ⟨ids, count⟩ hstep
  rcases (Move.of_step hstep).calledIn_eq with ⟨kid, tag, _, hcalled, hcalls⟩ | ⟨_, hcalled, hcalls⟩
  · simp [hcalled, ids, hcalls, count, List.range'_concat, Nat.add_assoc]
  · simp [hcalled, ids, hcalls, count]

/-! ## The suspended calls -/

/-- A suspended call runs a segment. -/
def Action.Runs : Action τ → Prop
  | .wake _ | .receive _ _ | .abort _ => True
  | .advance _ | .call _ _ | .cancel _ => False

/-- The segments that the suspended calls have before them at most: a waiter may
become the holder of the lock, a holder ends. -/
def Sys.remaining (s : Sys τ) : Nat := 2 * s.client.lock.tasks.length + s.flights.length

/-- Each segment of a suspended call is one less of those before them. -/
theorem Move.remaining_lt (inv : Guarded url ttl interval s) (m : Move lib s a t es)
    (runs : a.Runs) : t.remaining < s.remaining := by
  have left : ∀ {id : Nat} {w : Waiter (Call τ)}, s.client.lock.find? id = some w →
      s.client.lock.tasks.length = (s.client.lock.remove id).tasks.length + 1 :=
    fun found => (Lock.tasks_perm_of_find? found).length_eq
  cases m with
  | advance | hit | queue | throttled | cancel => cases runs
  | send entry =>
      cases entry with
      | free => cases runs
      | woken found =>
          have hleft := left found
          simp only [Sys.remaining, Lock.tasks_resume, List.length_append, List.length_singleton]
          omega
  | recheck found =>
      have hleft := left found
      simp only [Sys.remaining, Lock.tasks_release, Lock.tasks_resume]
      omega
  | withdraw found =>
      have hleft := left found
      simp only [Sys.remaining, Lock.tasks_abandon]
      omega
  | install found | fail found | abort found =>
      obtain ⟨hflights, hland⟩ := inv.flight_eq found
      simp [Sys.remaining, hflights, hland, JwksClient.install, JwksClient.recordFailure,
        JwksClient.abortLoad]

/-- When a call is suspended and no load is in flight, a waiter can run. -/
theorem Guarded.exists_wake (inv : Guarded url ttl interval s) (suspended : s.suspended ≠ [])
    (landed : s.flights = []) (lib : Library) : ∃ id, Sys.step lib s (.wake id) ≠ none := by
  have waits : s.client.lock.waiters ≠ [] := by
    intro hnone
    exact suspended (by simp [Sys.suspended, Lock.tasks, hnone, landed])
  obtain ⟨w, found, awake⟩ := inv.lock.exists_ready (inv.unlocked landed) waits
  refine ⟨w.id, ?_⟩
  cases future : w.future with
  | pending => exact absurd future awake
  | woken | cancelled | wokenCancelled => simp [Sys.step, found, future]

end Calls

/-! ## Requests -/

section Requests

variable {p : Platform} {verifier : Option Verifier} {url : String} {ttl interval : Time}
variable {s₀ s t : Service} {a : ServiceAction} {as : List ServiceAction}
variable {es fs : List ServiceEvent} {gs : List (Event Pending)} {wall : ℚ}

def ServiceAction.request? : ServiceAction → Option Request
  | .request arrived => some arrived
  | .clock _ | .client _ => none

def ServiceEvent.request? : ServiceEvent → Option Request
  | .answered request _ => some request
  | .client _ => none

/-- The requests that arrive in a schedule. -/
def arrivals (as : List ServiceAction) : List Request := as.filterMap ServiceAction.request?

/-- The requests that a trace answers, once for each answer. -/
def answeredIn (es : List ServiceEvent) : List Request := es.filterMap ServiceEvent.request?

/-- The requests that await the key of their token. -/
def Service.pending (s : Service) : List Request :=
  s.jwks.suspended.map fun call => call.tag.request

@[simp] theorem arrivals_append (as bs : List ServiceAction) :
    arrivals (as ++ bs) = arrivals as ++ arrivals bs :=
  List.filterMap_append

@[simp] theorem answeredIn_append (es fs : List ServiceEvent) :
    answeredIn (es ++ fs) = answeredIn es ++ answeredIn fs :=
  List.filterMap_append

/-- The client's calls that end are the requests that are answered. -/
theorem answeredIn_answers :
    answeredIn (gs.flatMap (Service.answers p wall)) =
      (endedIn gs).map fun call => call.tag.request := by
  induction gs with
  | nil => rfl
  | cons e gs ih =>
      rw [List.flatMap_cons, answeredIn_append, ih]
      cases e <;> rfl

/-- A request that was pending or arrives in a step is answered in it or pending
after it. -/
theorem Service.Move.accounted (inv : Guarded url ttl interval s.jwks)
    (m : Service.Move p verifier s a t fs) :
    (s.pending ++ arrivals [a]).Perm (answeredIn fs ++ t.pending) := by
  cases m with
  | clock => exact .of_eq (List.append_nil _)
  | refuse => exact List.perm_append_comm
  | run projects stepped =>
      have move := Auth.Move.of_step stepped
      have calls := (move.accounted inv).map fun call => call.tag.request
      rw [List.map_append, List.map_append] at calls
      rw [answeredIn_answers]
      refine .trans (.of_eq ?_) calls
      congr 1
      -- The request of the step is that of the call which the step began.
      rcases move.calledIn_eq with ⟨kid, tag, rfl, hcalled, _⟩ | ⟨noCall, hcalled, _⟩
      · cases projects with
        | request admitted =>
            rw [hcalled, List.map_singleton, (getClaims_eq_ok admitted).1]
            rfl
        | client noCall => cases noCall
      · cases projects with
        | request => cases noCall
        | client => rw [hcalled]; rfl

/-- Over a run from any guarded state. -/
theorem Service.accounted_of_run (inv : Guarded url ttl interval s.jwks)
    (run : Run (Service.step p verifier) s as es t) :
    Guarded url ttl interval t.jwks ∧
      (s.pending ++ arrivals as).Perm (answeredIn es ++ t.pending) := by
  induction run with
  | refl => exact ⟨inv, by simp [arrivals, answeredIn]⟩
  | @snoc as es fs t u a run hstep ih =>
      obtain ⟨inv, before⟩ := ih
      have m := Service.Move.of_step hstep
      have guarded : Guarded url ttl interval u.jwks := by
        cases m with
        | clock | refuse => exact inv
        | run projects stepped => exact inv.step stepped
      refine ⟨guarded, ?_⟩
      calc
        s.pending ++ arrivals (as ++ [a]) = s.pending ++ arrivals as ++ arrivals [a] := by simp
        List.Perm _ (answeredIn es ++ t.pending ++ arrivals [a]) := before.append_right _
        _ = answeredIn es ++ (t.pending ++ arrivals [a]) := List.append_assoc _ _ _
        List.Perm _ (answeredIn es ++ (answeredIn fs ++ u.pending)) :=
          (m.accounted inv).append_left _
        _ = answeredIn (es ++ fs) ++ u.pending := by simp

/-- Every request of the schedule was answered once or is pending, and the calls
of `get_key` behind them are different calls, none of which ended twice. -/
structure AnsweredOnce (as : List ServiceAction) (es : List ServiceEvent) (s : Service) :
    Prop where
  requests : (arrivals as).Perm (answeredIn es ++ s.pending)
  calls : ((endedIn (clientEvents es) ++ s.jwks.suspended).map Call.id).Perm
    (List.range s.jwks.calls)

/-- No run loses a request or answers it twice. -/
theorem answeredOnce_of_run (start : Started p.lib url ttl interval s₀.jwks)
    (run : Run (Service.step p verifier) s₀ as es s) : AnsweredOnce as es s := by
  have inv := Guarded.start start
  constructor
  · have requests := (Service.accounted_of_run inv run).2
    rwa [Service.pending, start.suspended, List.map_nil, List.nil_append] at requests
  · obtain ⟨_, bs, _, hrun⟩ := Service.known_of_run start.suspended run
    have calls := (accounted_of_run inv hrun).2
    obtain ⟨ids, count⟩ := calledIn_of_run hrun
    rw [start.suspended, List.nil_append] at calls
    rw [start.calls, Nat.zero_add] at count
    rw [start.calls, ← count, ← List.range_eq_range'] at ids
    exact .trans (calls.symm.map _) (.of_eq ids)

/-- The requests of a closed run: one waits for the lock that the other holds. -/
private def twoRequests : List ServiceAction :=
  [.request ⟨some "token-1", .getClaims⟩, .request ⟨some "token-1", .getClaims⟩]

/-- One request of two is answered by the load, the other is still pending. -/
theorem answeredOnce_of_run_waiter :
    ∃ es s, Run (Service.step .sample (some .sample)) .sample
        (twoRequests ++ [.client (.receive 0 (.ok (.sample ["k1"])))]) es s ∧
      (answeredIn es).length = 1 ∧ s.pending.length = 1 ∧
      AnsweredOnce (twoRequests ++ [.client (.receive 0 (.ok (.sample ["k1"])))]) es s := by
  have hrun : (exec (Service.step .sample (some .sample)) .sample
      (twoRequests ++ [.client (.receive 0 (.ok (.sample ["k1"])))])).map
      (fun r => ((answeredIn r.2).length, r.1.pending.length)) = some (1, 1) := by decide +kernel
  obtain ⟨es, s, run, hobserved⟩ := Run.of_exec_map
    (f := fun es (s : Service) => ((answeredIn es).length, s.pending.length)) hrun
  obtain ⟨answered, pending⟩ := Prod.mk.inj hobserved
  exact ⟨es, s, run, answered, pending, answeredOnce_of_run .sample run⟩

/-- A suspended request runs a segment. -/
def ServiceAction.Runs : ServiceAction → Prop
  | .client action => action.Runs
  | .clock _ | .request _ => False

/-- The pending requests of a state can always go on, and are all answered once
after at most two segments each. -/
structure Drains (p : Platform) (verifier : Option Verifier) (s : Service) : Prop where
  awake : s.pending ≠ [] →
    s.jwks.flights ≠ [] ∨ ∃ id, Service.step p verifier s (.client (.wake id)) ≠ none
  bounded : ∀ bs fs t, Run (Service.step p verifier) s bs fs t → (∀ b ∈ bs, b.Runs) →
    bs.length ≤ 2 * s.pending.length
  answered : ∀ bs fs t, Run (Service.step p verifier) s bs fs t → (∀ b ∈ bs, b.Runs) →
    t.jwks.flights = [] → (∀ id, Service.step p verifier t (.client (.wake id)) = none) →
    (answeredIn fs).Perm s.pending

theorem Service.awake (p : Platform) (verifier : Option Verifier)
    (inv : Guarded url ttl interval s.jwks) (pending : s.pending ≠ []) :
    s.jwks.flights ≠ [] ∨ ∃ id, Service.step p verifier s (.client (.wake id)) ≠ none := by
  by_cases landed : s.jwks.flights = []
  · right
    have suspended : s.jwks.suspended ≠ [] :=
      fun hnone => pending (by simp [Service.pending, hnone])
    obtain ⟨id, hwake⟩ := inv.exists_wake suspended landed p.lib
    exact ⟨id, by simpa [Service.step, Action.isCall, Service.run] using hwake⟩
  · exact .inl landed

/-- In every reachable state the pending requests can be drained. -/
theorem drains_of_run (start : Started p.lib url ttl interval s₀.jwks)
    (run : Run (Service.step p verifier) s₀ as es s) : Drains p verifier s := by
  have inv := (Service.accounted_of_run (.start start) run).1
  refine ⟨Service.awake p verifier inv, ?_, ?_⟩
  · intro bs fs t rest runs
    have next : ∀ {t u : Service} {b : ServiceAction} {gs : List ServiceEvent}, b ∈ bs →
        Guarded url ttl interval t.jwks → Service.step p verifier t b = some (u, gs) →
        Guarded url ttl interval u.jwks ∧ u.jwks.remaining < t.jwks.remaining := by
      intro t u b gs hb inv hstep
      have hruns := runs b hb
      cases Service.Move.of_step hstep with
      | clock | refuse => cases hruns
      | run projects stepped =>
          cases projects with
          | request => cases hruns
          | client =>
              have m := Auth.Move.of_step stepped
              exact ⟨inv.move m, m.remaining_lt inv hruns⟩
    have hlength := (rest.length_add_le (I := fun s => Guarded url ttl interval s.jwks)
      (μ := fun s => s.jwks.remaining) inv next).2
    simp only [Service.pending, Sys.suspended, Sys.remaining, List.length_map,
      List.length_append] at hlength ⊢
    omega
  · intro bs fs t rest runs landed asleep
    obtain ⟨inv', accounted⟩ := Service.accounted_of_run inv rest
    have quiet : arrivals bs = [] := by
      refine List.filterMap_eq_nil_iff.mpr fun b hb => ?_
      have hruns := runs b hb
      cases b with
      | clock | request => cases hruns
      | client => rfl
    have done : t.pending = [] := by
      by_contra pending
      cases Service.awake p verifier inv' pending with
      | inl flying => exact flying landed
      | inr wakes =>
          obtain ⟨id, hwake⟩ := wakes
          exact hwake (asleep id)
    rw [quiet, done, List.append_nil, List.append_nil] at accounted
    exact accounted.symm

/-- Two requests are suspended, one in the load and one on the lock. -/
theorem drains_of_run_waiter :
    ∃ es s, Run (Service.step .sample (some .sample)) .sample twoRequests es s ∧
      s.pending.length = 2 ∧ Drains .sample (some .sample) s := by
  have hrun : (exec (Service.step .sample (some .sample)) .sample twoRequests).map
      (fun r => r.1.pending.length) = some 2 := by decide +kernel
  obtain ⟨es, s, run, pending⟩ :=
    Run.of_exec_map (f := fun _ (s : Service) => s.pending.length) hrun
  exact ⟨es, s, run, pending, drains_of_run .sample run⟩

end Requests
end MestoryCore.Auth
