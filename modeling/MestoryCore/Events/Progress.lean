import MestoryCore.Events.Pool

/-!
# Every publish comes to an end

Over a bounded pool a call waits for others: it cannot acquire a channel while
they use them all. But a call that acquires has no channel, and one that has a
channel goes on without waiting, so some call can always go on. Each step of a
call that is there takes one of the five that it has at most: its message is
taken, or one of four operations ends. When no call can go on, all have ended and
the pool has every channel back.
-/

namespace MestoryCore.Events

open Asyncio Transition
open scoped List

variable {Datetime ε : Type}

/-- The call that an action lets go on. -/
def Action.call? : Action Datetime ε → Option Nat
  | .publish _ _ => none
  | .accept id => some id
  | .resume id _ => some id

/-- No operation fails in the action. -/
def Action.succeeds : Action Datetime ε → Bool
  | .resume _ (.acquired outcome) => outcome.isOk
  | .resume _ (.declared outcome) => outcome.isOk
  | .resume _ (.published outcome) => outcome.isOk
  | _ => true

/-- The call can go on, and not only by a failure. -/
def PooledBroker.CanGoOn (lib : Pydantic Datetime) (s : PooledBroker Datetime ε) (id : Nat) :
    Prop :=
  ∃ a : Action Datetime ε, a.call? = some id ∧ a.succeeds ∧ PooledBroker.step lib s a ≠ none

def Call.isSuspended (call : Call Datetime ε) : Bool :=
  match call.code with
  | .await _ _ => true
  | _ => false

/-- The steps that a call with this status can still take. -/
def effort : Option (Status ChannelOp (PublishExn ε) Unit) → Bool → Nat
  | some (.awaiting .acquire), _ => 5
  | some (.awaiting (.declareExchange _ _)), _ => 4
  | some (.awaiting (.publish _ _)), false => 3
  | some (.awaiting (.publish _ _)), true => 2
  | some (.awaiting (.release _)), _ => 1
  | _, _ => 0

def Call.effort (call : Call Datetime ε) : Nat := Events.effort call.code.status? call.sent

def Broker.effort (s : Broker Datetime ε) : Nat := s.calls.foldr (Call.effort · + ·) 0

section Progress

variable {lib : Pydantic Datetime} {s t : Broker Datetime ε} {call : Call Datetime ε}
variable {as : List (Action Datetime ε)} {es : List (Nat × String)}
variable {answers : List (Answer ε)} {session : Session ε}

/-- A sum decreases with one of its terms. -/
theorem total_set_lt {α : Type} {f : α → Nat} {items : List α} {i : Nat} {old new : α}
    (h : items[i]? = some old) (less : f new < f old) :
    (items.set i new).foldr (f · + ·) 0 < items.foldr (f · + ·) 0 := by
  induction items generalizing i with
  | nil => cases h
  | cons item items ih =>
      cases i with
      | zero =>
          obtain rfl := Option.some.inj h
          rw [List.set_cons_zero, List.foldr_cons, List.foldr_cons]
          omega
      | succ i =>
          have rest := ih (show items[i]? = some old from h)
          rw [List.set_cons_succ, List.foldr_cons, List.foldr_cons]
          omega

theorem Call.effort_take_lt {delivery : Delivery} (offered : call.offered? = some delivery) :
    call.take.effort < call.effort := by
  rw [Call.offered?_eq_offer] at offered
  rw [Call.effort, Call.effort]
  unfold offer at offered
  split at offered
  · rename_i channel own hstatus hsent
    have kept : call.take.code.status? = call.code.status? := rfl
    rw [kept, hstatus, hsent]
    exact Nat.lt_succ_self 2
  · cases offered

/-- Every answer brings a session nearer to its end. -/
theorem Session.effort_next_lt {event : Event Datetime} {answer : Answer ε} {reached : Session ε}
    (sent : Bool) (h : session.next lib event answer = some reached) :
    effort (some reached.status) false < effort (some session.status) sent := by
  unfold Session.next at h
  split at h
  · obtain rfl := Option.some.inj h
    exact Nat.lt_succ_self 4
  · obtain rfl := Option.some.inj h
    exact Nat.zero_lt_succ 4
  · obtain rfl := Option.some.inj h
    unfold Session.declared
    split
    · exact Nat.lt_succ_self 3
    · show 1 < 4
      omega
  · obtain rfl := Option.some.inj h
    show 1 < 4
    omega
  · obtain rfl := Option.some.inj h
    cases sent
    · show 1 < 3
      omega
    · exact Nat.lt_succ_self 1
  · obtain rfl := Option.some.inj h
    exact Nat.zero_lt_succ 0
  · cases h

/-- A call that uses a channel is suspended. -/
theorem Call.isSuspended_of_channel? {channel : Channel} (h : call.channel? = some channel) :
    call.isSuspended := by
  obtain ⟨publisher, event, code, sent⟩ := call
  cases code with
  | await => rfl
  | done | log => cases h

theorem Call.channel?_of_done {outcome : Except (PublishExn ε) Unit}
    (h : call.code = .done outcome) : call.channel? = none := by
  rw [Call.channel?, h]

/-- A suspended call can go on, if it uses a channel or one is free. -/
theorem PooledBroker.canGoOn_of_isSuspended (lib : Pydantic Datetime)
    {s : PooledBroker Datetime ε} {id : Nat} (hcall : s.broker.calls[id]? = some call)
    (suspended : call.isSuspended) (ready : call.channel? = none → s.free ≠ []) :
    s.CanGoOn lib id := by
  have resumes (answer : Answer ε)
      (succeeds : (.resume id answer : Action Datetime ε).succeeds)
      (resumed : (call.resume? answer).isSome)
      (available : (freeAfter s.broker.calls s.free (.resume id answer)).isSome) :
      s.CanGoOn lib id := by
    obtain ⟨code, hcode⟩ := Option.isSome_iff_exists.mp resumed
    obtain ⟨free, hfree⟩ := Option.isSome_iff_exists.mp available
    exact ⟨.resume id answer, rfl, succeeds,
      by simp [PooledBroker.step, Broker.step, hfree, hcall, hcode]⟩
  obtain ⟨publisher, event, code, sent⟩ := call
  cases code with
  | done | log => cases suspended
  | await op next =>
      cases op with
      | acquire =>
          obtain ⟨channel, available⟩ := List.exists_mem_of_ne_nil _ (ready rfl)
          exact resumes (.acquired (.ok channel)) rfl rfl (by simp [freeAfter, available])
      | declareExchange channel options => exact resumes (.declared (.ok ())) rfl rfl rfl
      | release channel => exact resumes .released rfl rfl rfl
      | publish channel delivery =>
          cases sent with
          | true => exact resumes (.published (.ok ())) rfl rfl rfl
          | false =>
              have offered : (⟨publisher, event, .await (.publish channel delivery) next, false⟩ :
                  Call Datetime ε).offered? = some delivery := rfl
              exact ⟨.accept id, rfl, rfl,
                by simp [PooledBroker.step, Broker.step, freeAfter, hcall, offered]⟩

/-- A step of a call that is there takes one of the steps it has. -/
theorem Broker.Turn.effort_lt {a : Action Datetime ε} {fs : List (Nat × String)}
    (turn : s.Turn lib a t fs) (h : s.InSession lib as) (running : a.call?.isSome) :
    t.effort < s.effort := by
  cases turn with
  | publish => cases running
  | accept hcall offered => exact total_set_lt hcall (Call.effort_take_lt offered)
  | resume hcall resumed =>
      apply total_set_lt hcall
      obtain ⟨session, here⟩ := h.calls hcall
      obtain ⟨reached, moved, there, -⟩ := here.resume resumed
      rw [Call.effort, Call.effort, here.at_code.status?_eq, there.at_code.status?_eq]
      exact Session.effort_next_lt _ moved

theorem Call.effort_le (call : Call Datetime ε) :
    call.effort ≤ if call.isSuspended then 5 else 0 := by
  obtain ⟨publisher, event, code, sent⟩ := call
  cases code with
  | done | log => exact Nat.le_refl _
  | await op next =>
      show Events.effort (some (.awaiting op)) sent ≤ 5
      cases op <;> cases sent <;> simp [Events.effort]

theorem Broker.effort_le (s : Broker Datetime ε) :
    s.effort ≤ 5 * s.calls.countP Call.isSuspended := by
  unfold Broker.effort
  induction s.calls with
  | nil => exact Nat.le_refl _
  | cons call calls ih =>
      have own := call.effort_le
      rw [List.foldr_cons, List.countP_cons]
      split_ifs at own ⊢ <;> omega

/-- While no channel is free, each one is with a call that can go on. -/
theorem PooledBroker.exists_holder {capacity : Nat} {s : PooledBroker Datetime ε}
    (run : Run (PooledBroker.step lib) (.start capacity) as es s) (busy : s.free = [])
    {channel : Channel} (small : channel < capacity) :
    ∃ id, heldBy id as = [channel] ∧ s.CanGoOn lib id := by
  have conserved := PooledBroker.conserved_of_run run
  rw [busy, List.nil_append] at conserved
  have used : channel ∈ s.broker.inUse := conserved.mem_iff.mpr (List.mem_range.mpr small)
  obtain ⟨call, hmem, hchannel⟩ := List.mem_filterMap.mp used
  obtain ⟨id, hcall⟩ := List.mem_iff_getElem?.mp hmem
  refine ⟨id, ?_, ?_⟩
  · rw [heldBy_of_run (PooledBroker.broker_run run) hcall, hchannel]
    rfl
  · apply PooledBroker.canGoOn_of_isSuspended lib hcall (Call.isSuspended_of_channel? hchannel)
    intro unused
    rw [hchannel] at unused
    cases unused

/-- What is left of a schedule over a pool of `capacity` channels when no new call
starts. A suspended call can go on, or it has no channel while each one is with
another call that can; so some call can. There are at most five steps for each
suspended call; and where no call can go on, every call has ended and has given
its channel back. -/
structure Finishes (lib : Pydantic Datetime) (capacity : Nat) (as : List (Action Datetime ε))
    (s : PooledBroker Datetime ε) : Prop where
  waits : ∀ {id : Nat} {call : Call Datetime ε}, s.broker.calls[id]? = some call →
    call.isSuspended → s.CanGoOn lib id ∨ (heldBy id as = [] ∧
      ∀ channel < capacity, ∃ other, heldBy other as = [channel] ∧ s.CanGoOn lib other)
  awake : (∃ call ∈ s.broker.calls, call.isSuspended) → ∃ id, s.CanGoOn lib id
  bounded : ∀ {bs : List (Action Datetime ε)} {fs : List (Nat × String)}
    {t : PooledBroker Datetime ε}, Run (PooledBroker.step lib) s bs fs t →
      (∀ b ∈ bs, b.call?.isSome) → bs.length ≤ 5 * s.broker.calls.countP Call.isSuspended
  ended : ∀ {bs : List (Action Datetime ε)} {fs : List (Nat × String)}
    {t : PooledBroker Datetime ε}, Run (PooledBroker.step lib) s bs fs t →
      (∀ id, ¬ t.CanGoOn lib id) → t.free ~ List.range capacity ∧
        ∀ {id : Nat} {call : Call Datetime ε}, t.broker.calls[id]? = some call →
          (∃ outcome, t.broker.outcome? id = some outcome) ∧ heldBy id (as ++ bs) = []

section Pool

variable {capacity : Nat} {s : PooledBroker Datetime ε}

/-- A call that cannot go on waits for a channel, and each is with a call that can. -/
theorem PooledBroker.waits_of_run (run : Run (PooledBroker.step lib) (.start capacity) as es s)
    {id : Nat} (hcall : s.broker.calls[id]? = some call) (suspended : call.isSuspended) :
    s.CanGoOn lib id ∨ (heldBy id as = [] ∧
      ∀ channel < capacity, ∃ other, heldBy other as = [channel] ∧ s.CanGoOn lib other) := by
  by_cases ready : call.channel? = none → s.free ≠ []
  · exact .inl (PooledBroker.canGoOn_of_isSuspended lib hcall suspended ready)
  · obtain ⟨unused, busy⟩ : call.channel? = none ∧ s.free = [] := by simpa using ready
    refine .inr ⟨?_, fun channel small => PooledBroker.exists_holder run busy small⟩
    rw [heldBy_of_run (PooledBroker.broker_run run) hcall, unused]
    rfl

/-- No deadlock: while some call is suspended, some call can go on. -/
theorem PooledBroker.awake_of_run (positive : 0 < capacity)
    (run : Run (PooledBroker.step lib) (.start capacity) as es s) {id : Nat}
    (hcall : s.broker.calls[id]? = some call) (suspended : call.isSuspended) :
    ∃ id, s.CanGoOn lib id := by
  rcases PooledBroker.waits_of_run run hcall suspended with own | ⟨_, others⟩
  · exact ⟨id, own⟩
  · obtain ⟨other, _, goes⟩ := others 0 positive
    exact ⟨other, goes⟩

/-- Where no call can go on, every call has ended. -/
theorem PooledBroker.done_of_asleep (positive : 0 < capacity)
    (run : Run (PooledBroker.step lib) (.start capacity) as es s)
    (asleep : ∀ id, ¬ s.CanGoOn lib id) {id : Nat} (hcall : s.broker.calls[id]? = some call) :
    ∃ outcome, call.code = .done outcome := by
  obtain ⟨session, here⟩ := (Broker.inSession_of_run (PooledBroker.broker_run run)).calls hcall
  have at_code := here.at_code
  cases hcode : call.code with
  | log line next =>
      rw [hcode] at at_code
      exact at_code.elim
  | done outcome => exact ⟨outcome, rfl⟩
  | await op next =>
      have suspended : call.isSuspended := by rw [Call.isSuspended, hcode]
      obtain ⟨other, goes⟩ := PooledBroker.awake_of_run positive run hcall suspended
      exact absurd goes (asleep other)

/-- Every publish comes to an end, in every state of every schedule over a pool
that has a channel. -/
theorem finishes_of_run (positive : 0 < capacity)
    (run : Run (PooledBroker.step lib) (.start capacity) as es s) :
    Finishes lib capacity as s := by
  constructor
  · exact PooledBroker.waits_of_run run
  · rintro ⟨call, hmem, suspended⟩
    obtain ⟨id, hcall⟩ := List.mem_iff_getElem?.mp hmem
    exact PooledBroker.awake_of_run positive run hcall suspended
  · intro bs fs t rest running
    have next : ∀ {t u : PooledBroker Datetime ε} {b : Action Datetime ε}
        {gs : List (Nat × String)}, b ∈ bs → (∃ before, t.broker.InSession lib before) →
        PooledBroker.step lib t b = some (u, gs) →
        (∃ before, u.broker.InSession lib before) ∧ u.broker.effort < t.broker.effort := by
      rintro t u b gs hb ⟨before, inv⟩ hstep
      have turn := Broker.step_eq_some_iff.mp (PooledBroker.step_eq_some_iff.mp hstep).2
      exact ⟨⟨_, inv.turn turn⟩, turn.effort_lt inv (running b hb)⟩
    have start := Broker.inSession_of_run (PooledBroker.broker_run run)
    have length := (rest.length_add_le
      (I := fun t : PooledBroker Datetime ε => ∃ before, t.broker.InSession lib before)
      (μ := fun t => t.broker.effort) ⟨as, start⟩ next).2
    have most := s.broker.effort_le
    omega
  · intro bs fs t rest asleep
    have whole := run.trans rest
    have all_done {id : Nat} {call : Call Datetime ε} (hcall : t.broker.calls[id]? = some call) :
        ∃ outcome, call.code = .done outcome :=
      PooledBroker.done_of_asleep positive whole asleep hcall
    constructor
    · have unused : t.broker.inUse = [] := by
        apply List.filterMap_eq_nil_iff.mpr
        intro call hmem
        obtain ⟨id, hcall⟩ := List.mem_iff_getElem?.mp hmem
        obtain ⟨outcome, hcode⟩ := all_done hcall
        exact Call.channel?_of_done hcode
      have conserved := PooledBroker.conserved_of_run whole
      rwa [unused, List.append_nil] at conserved
    · intro id call hcall
      obtain ⟨outcome, hcode⟩ := all_done hcall
      refine ⟨⟨outcome, Broker.outcome?_eq_some_iff.mpr ⟨call, hcall, hcode⟩⟩, ?_⟩
      rw [heldBy_of_run (PooledBroker.broker_run whole) hcall, Call.channel?_of_done hcode]
      rfl

end Pool

end Progress

/-- Of two calls over one channel the first has it, and the second waits. -/
theorem finishes_of_run_interleaved : ∃ es s,
    Run (PooledBroker.step .sample) (.start 1)
        [.publish (.rabbit exchangeName) .sampleDeletion,
          .publish (.rabbit exchangeName) .sampleUpdate, .resume 0 (.acquired (.ok 0))] es s ∧
      (s.free, s.broker.calls.countP Call.isSuspended) = ([], 2) ∧
      Finishes (ε := String) .sample 1
        [.publish (.rabbit exchangeName) .sampleDeletion,
          .publish (.rabbit exchangeName) .sampleUpdate, .resume 0 (.acquired (.ok 0))] s := by
  have hrun : (exec (PooledBroker.step (ε := String) .sample) (.start 1)
      [.publish (.rabbit exchangeName) .sampleDeletion,
        .publish (.rabbit exchangeName) .sampleUpdate, .resume 0 (.acquired (.ok 0))]).map
      (fun r => (r.1.free, r.1.broker.calls.countP Call.isSuspended)) = some ([], 2) := by
    decide +kernel
  obtain ⟨es, s, run, observed⟩ := Run.of_exec_map
    (f := fun _ (s : PooledBroker Unit String) =>
      (s.free, s.broker.calls.countP Call.isSuspended)) hrun
  exact ⟨es, s, run, observed, finishes_of_run (by decide) run⟩

end MestoryCore.Events
