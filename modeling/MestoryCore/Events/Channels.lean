import MestoryCore.Events.Session

/-!
# Channels of the pool

What the calls have taken from the channel pool and not given back, read off the
answers that they got. The pool hands a channel out only while no call has it;
this is the one assumption, and it is about the schedule alone.

Then no two calls use one channel at once. Without the assumption, a call has
the channel of the operation it awaits and no other, so a call that ended has
given its channel back, however it ended.
-/

namespace MestoryCore.Events

open Python Asyncio Transition

variable {Datetime ε : Type}

def ChannelOp.channel? : ChannelOp → Option Channel
  | .acquire => none
  | .declareExchange channel _ => some channel
  | .publish channel _ => some channel
  | .release channel => some channel

/-- The channel that a call uses. -/
def Call.channel? (call : Call Datetime ε) : Option Channel :=
  match call.code with
  | .await op _ => op.channel?
  | _ => none

/-- The channels that a call has after one more answer. Giving one back is one for one. -/
def Answer.hold (held : List Channel) : Answer ε → List Channel
  | .acquired (.ok channel) => held ++ [channel]
  | .released => held.tail
  | _ => held

def heldAfter (answers : List (Answer ε)) : List Channel := answers.foldl Answer.hold []

/-- The channels that a call has after a schedule. -/
def heldBy (id : Nat) (as : List (Action Datetime ε)) : List Channel :=
  heldAfter (answersTo id as)

/-- The pool hands a channel out only while no call has it. -/
def Pooled (as : List (Action Datetime ε)) : Prop :=
  ∀ n id channel, as[n]? = some (.resume id (.acquired (.ok channel))) →
    ∀ other, channel ∉ heldBy other (as.take n)

def Session.channel? : Session ε → Option Channel
  | .acquiring _ => none
  | .declaring channel _ => some channel
  | .publishing channel _ => some channel
  | .releasing channel _ => some channel
  | .ended _ => none

section Held

variable {lib : Pydantic Datetime} {event : Event Datetime} {call : Call Datetime ε}
variable {answers : List (Answer ε)} {session reached : Session ε} {answer : Answer ε}
variable {as : List (Action Datetime ε)}

theorem heldAfter_snoc (answers : List (Answer ε)) (answer : Answer ε) :
    heldAfter (answers ++ [answer]) = answer.hold (heldAfter answers) := by
  simp [heldAfter]

theorem Session.channel?_declared (channel : Channel) (exchangeName : String) :
    (declared lib event channel exchangeName : Session ε).channel? = some channel := by
  unfold Session.declared
  split <;> rfl

/-- Every answer leaves a call with the channel of its session. -/
theorem Session.hold_next (h : session.next lib event answer = some reached) :
    answer.hold session.channel?.toList = reached.channel?.toList := by
  unfold Session.next at h
  split at h
  · obtain rfl := Option.some.inj h
    rfl
  · obtain rfl := Option.some.inj h
    rfl
  · obtain rfl := Option.some.inj h
    rw [Session.channel?_declared]
    rfl
  · obtain rfl := Option.some.inj h
    rfl
  · obtain rfl := Option.some.inj h
    rfl
  · obtain rfl := Option.some.inj h
    rfl
  · cases h

theorem heldAfter_of_after {publisher : EventPublisher}
    (h : Session.after lib publisher event answers = some session) :
    heldAfter answers = session.channel?.toList := by
  induction answers using List.reverseRecOn generalizing session with
  | nil =>
      obtain rfl := Option.some.inj h
      induction publisher with
      | logging | rabbit => rfl
      | echoing inner ih => exact ih rfl
  | append_singleton answers answer ih =>
      obtain ⟨before, reached, moved⟩ := Machine.run_snoc_eq_some_iff.mp h
      rw [heldAfter_snoc, ih reached]
      exact Session.hold_next moved

/-- A call uses the channel of its session. -/
theorem Call.InSession.channel?_eq (h : call.InSession lib answers session) :
    call.channel? = session.channel? := by
  have at_code := h.at_code
  unfold Call.channel?
  cases hcode : call.code with
  | log line next =>
      rw [hcode] at at_code
      exact at_code.elim
  | done outcome =>
      rw [hcode] at at_code
      have status : session.status = .ended outcome := at_code
      cases session <;> cases status
      rfl
  | await op next =>
      rw [hcode] at at_code
      have status : session.status = .awaiting op := at_code.1
      cases session <;> cases status <;> rfl

end Held

section Runs

variable {lib : Pydantic Datetime} {s : Broker Datetime ε}
variable {as : List (Action Datetime ε)} {es : List (Nat × String)}

theorem Answer.mem_hold {answer : Answer ε} {held : List Channel} {channel : Channel}
    (h : channel ∈ answer.hold held) : channel ∈ held ∨ answer = .acquired (.ok channel) := by
  unfold Answer.hold at h
  split at h
  · rcases List.mem_append.mp h with h | h
    · exact .inl h
    · obtain rfl := List.mem_singleton.mp h
      exact .inr rfl
  · exact .inl (List.mem_of_mem_tail h)
  · exact .inl h

/-- A call has what it had, or what it has just been handed. -/
theorem mem_heldBy_snoc {id : Nat} {a : Action Datetime ε} {channel : Channel}
    (h : channel ∈ heldBy id (as ++ [a])) :
    channel ∈ heldBy id as ∨ a = .resume id (.acquired (.ok channel)) := by
  cases a with
  | publish publisher event =>
      rw [heldBy, answersTo_snoc_publish] at h
      exact .inl h
  | accept own =>
      rw [heldBy, answersTo_snoc_accept] at h
      exact .inl h
  | resume own answer =>
      rw [heldBy, answersTo_snoc_resume] at h
      split_ifs at h with same
      · subst same
        rw [heldAfter_snoc] at h
        rcases Answer.mem_hold h with h | rfl
        · exact .inl h
        · exact .inr rfl
      · rw [List.append_nil] at h
        exact .inl h

theorem Pooled.init {a : Action Datetime ε} (h : Pooled (as ++ [a])) : Pooled as := by
  intro n id channel acquired other
  have early := (List.getElem?_eq_some_iff.mp acquired).1
  have fresh := h n id channel (by rw [List.getElem?_append_left early, acquired]) other
  rwa [List.take_append_of_le_length (by omega)] at fresh

theorem Pooled.last {id other : Nat} {channel : Channel}
    (h : Pooled (as ++ [.resume id (.acquired (.ok channel))])) : channel ∉ heldBy other as := by
  have fresh := h as.length id channel (by simp) other
  rwa [List.take_append_of_le_length (le_refl _), List.take_length] at fresh

/-- A channel that the pool has handed to two calls was handed to one. -/
theorem eq_of_mem_heldBy (pooled : Pooled as) {id other : Nat} {channel : Channel}
    (h : channel ∈ heldBy id as) (k : channel ∈ heldBy other as) : id = other := by
  induction as using List.reverseRecOn with
  | nil => cases h
  | append_singleton as a ih =>
      rcases mem_heldBy_snoc h with before | rfl
      · rcases mem_heldBy_snoc k with earlier | rfl
        · exact ih pooled.init before earlier
        · exact absurd before pooled.last
      · rcases mem_heldBy_snoc k with earlier | same
        · exact absurd earlier pooled.last
        · cases same
          rfl

/-- A call has the channel of the operation that it awaits. -/
theorem heldBy_of_run (run : Run (Broker.step lib) .empty as es s) {id : Nat}
    {call : Call Datetime ε} (hcall : s.calls[id]? = some call) :
    heldBy id as = call.channel?.toList := by
  obtain ⟨session, here⟩ := (Broker.inSession_of_run run).calls hcall
  rw [heldBy, heldAfter_of_after here.reached, here.channel?_eq]

/-- What holds of the channels after a schedule. A call has the channel that it
uses and no other, which is none when it has ended; and no channel is used by
two calls. -/
structure Exclusive (as : List (Action Datetime ε)) (s : Broker Datetime ε) : Prop where
  held : ∀ {id : Nat} {call : Call Datetime ε}, s.calls[id]? = some call →
    heldBy id as = call.channel?.toList
  alone : ∀ {id other : Nat} {call partner : Call Datetime ε} {channel : Channel},
    s.calls[id]? = some call → s.calls[other]? = some partner →
    call.channel? = some channel → partner.channel? = some channel → id = other

/-- No channel is leaked and none is shared, in every schedule of publishes over
a pool that hands out what is free. -/
theorem exclusive_of_run (pooled : Pooled as) (run : Run (Broker.step lib) .empty as es s) :
    Exclusive as s := by
  constructor
  · exact heldBy_of_run run
  · intro id other call partner channel hcall hpartner used shared
    have first : channel ∈ heldBy id as := by
      simp [heldBy_of_run run hcall, used]
    have second : channel ∈ heldBy other as := by
      simp [heldBy_of_run run hpartner, shared]
    exact eq_of_mem_heldBy pooled first second

end Runs

/-- The first call loses the declaration and gives its channel back, and the
second one gets that channel. -/
def Action.sampleReuse : List (Action Unit String) :=
  [.publish (.rabbit exchangeName) .sampleDeletion,
    .publish (.echoing (.rabbit exchangeName)) .sampleUpdate,
    .resume 0 (.acquired (.ok 1)), .resume 0 (.declared (.error (.channel "channel closed"))),
    .resume 0 .released, .resume 1 (.acquired (.ok 1))]

theorem Action.sampleReuse_pooled : Pooled sampleReuse := by
  intro n id channel acquired other
  match n, acquired with
  | 0, h | 1, h | 3, h | 4, h => cases h
  | 2, h =>
      cases h
      nofun
  | 5, h =>
      cases h
      -- The first call has given its channel back, and any other has had none.
      rcases other with _ | other <;> nofun
  | n + 6, h => cases h

/-- A channel goes from a call that failed to the next one. -/
theorem exclusive_of_run_reuse : ∃ es s,
    Run (Broker.step .sample) .empty Action.sampleReuse es s ∧
      s.calls.map Call.channel? = [none, some 1] ∧ Exclusive Action.sampleReuse s := by
  have hrun : (exec (Broker.step .sample) .empty Action.sampleReuse).map
      (fun r => r.1.calls.map Call.channel?) = some [none, some 1] := by
    decide +kernel
  obtain ⟨es, s, run, used⟩ :=
    Run.of_exec_map (f := fun _ (s : Broker Unit String) => s.calls.map Call.channel?) hrun
  exact ⟨es, s, run, used, exclusive_of_run Action.sampleReuse_pooled run⟩

end MestoryCore.Events
