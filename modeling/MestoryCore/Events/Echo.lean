import MestoryCore.Events.Session

/-!
# What the log says

A line of the log is read as "delivered", so it is written after the delivery
and only then. Between the last answer to a call and its end nothing is awaited,
and all the lines of the call are written there: the log is the blocks of the
calls that returned, one for each, in the order in which they returned.
-/

namespace MestoryCore.Events

open Python Asyncio Transition

variable {Datetime ε : Type}

/-- The lines of a call that returns, each with the call. -/
def block (lib : Pydantic Datetime) (requests : List (EventPublisher × Event Datetime))
    (id : Nat) : List (Nat × String) :=
  match requests[id]? with
  | some (publisher, event) => (publisher.lines lib event).map (id, ·)
  | none => []

/-- The log is the blocks of the calls that returned. -/
def Blocks (lib : Pydantic Datetime) (as : List (Action Datetime ε)) (es : List (Nat × String))
    (s : Broker Datetime ε) : Prop :=
  ∃ order : List Nat, order.Nodup ∧ (∀ id, id ∈ order ↔ s.outcome? id = some (.ok ())) ∧
    es = order.flatMap (block lib (publishes as))

section Blocks

variable {lib : Pydantic Datetime} {s t : Broker Datetime ε} {call : Call Datetime ε}
variable {as : List (Action Datetime ε)} {es : List (Nat × String)}
variable {answers : List (Answer ε)} {session : Session ε}

/-- A call that has returned has written its lines, and any other has written nothing. -/
theorem Call.InSession.written {lines : List String} (h : call.InSession lib answers session)
    (writes : (Session.machine lib call.event).Writes
      (Announced lib call.publisher call.event) session lines) :
    (call.code = .done (.ok ()) ∧ lines = call.publisher.lines lib call.event) ∨
      (call.code ≠ .done (.ok ()) ∧ lines = []) := by
  have at_code := h.at_code
  unfold Machine.Writes at writes
  cases hcode : call.code with
  | log line next =>
      rw [hcode] at at_code
      exact at_code.elim
  | done outcome =>
      rw [hcode] at at_code
      have status : (Session.machine lib call.event).status session = .ended outcome := at_code
      rw [status] at writes
      cases outcome with
      | ok reply => exact .inl ⟨rfl, writes.2⟩
      | error exn => exact .inr ⟨nofun, writes⟩
  | await op next =>
      rw [hcode] at at_code
      have status : (Session.machine lib call.event).status session = .awaiting op := at_code.1
      rw [status] at writes
      exact .inr ⟨nofun, writes⟩

theorem Blocks.empty : Blocks lib ([] : List (Action Datetime ε)) [] .empty :=
  ⟨[], .nil, by simp [Broker.outcome?, Broker.empty], rfl⟩

/-- More of the schedule does not change the blocks of the calls that returned. -/
theorem flatMap_block_append {order : List Nat} (run : Run (Broker.step lib) .empty as es s)
    (returned : ∀ id, id ∈ order ↔ s.outcome? id = some (.ok ()))
    (bs : List (Action Datetime ε)) :
    order.flatMap (block lib (publishes (as ++ bs))) =
      order.flatMap (block lib (publishes as)) := by
  apply List.flatMap_congr
  intro id hid
  obtain ⟨call, hcall, -⟩ := Broker.outcome?_eq_some_iff.mp ((returned id).mp hid)
  have request := Broker.request_of_run run hcall
  rw [block, block, request, getElem?_publishes_append bs request]

/-- A step in which one call goes on adds the block of that call when it returns. -/
theorem Blocks.extend {a : Action Datetime ε} {id : Nat} {lines : List String}
    (h : Blocks lib as es s) (run : Run (Broker.step lib) .empty as es s)
    (after : Run (Broker.step lib) .empty (as ++ [a]) (es ++ lines.map (id, ·)) t)
    (frame : ∀ other, other ≠ id → t.outcome? other = s.outcome? other)
    (pending : s.outcome? id ≠ some (.ok ())) (hcall : t.calls[id]? = some call)
    (written : (call.code = .done (.ok ()) ∧ lines = call.publisher.lines lib call.event) ∨
      (call.code ≠ .done (.ok ()) ∧ lines = [])) :
    Blocks lib (as ++ [a]) (es ++ lines.map (id, ·)) t := by
  obtain ⟨order, distinct, returned, rfl⟩ := h
  have late : id ∉ order := by
    rw [returned]
    exact pending
  rcases written with ⟨ended, rfl⟩ | ⟨unended, rfl⟩
  · have now : t.outcome? id = some (.ok ()) := Broker.outcome?_eq_some_iff.mpr ⟨call, hcall, ended⟩
    have own : block lib (publishes (as ++ [a])) id =
        (call.publisher.lines lib call.event).map (id, ·) := by
      rw [block, Broker.request_of_run after hcall]
      rfl
    refine ⟨order ++ [id], ?_, ?_, ?_⟩
    · refine List.nodup_append.mpr ⟨distinct, List.nodup_singleton id, ?_⟩
      rintro other hother _ hid rfl
      obtain rfl := List.mem_singleton.mp hid
      exact late hother
    · intro other
      rw [List.mem_append, List.mem_singleton, returned]
      by_cases same : other = id
      · subst same
        simp [now]
      · simp [same, frame other same]
    · rw [List.flatMap_append, flatMap_block_append run returned, List.flatMap_singleton, own]
  · refine ⟨order, distinct, ?_, ?_⟩
    · intro other
      rw [returned]
      by_cases same : other = id
      · subst same
        have unfinished : t.outcome? other ≠ some (.ok ()) := by
          intro now
          obtain ⟨found, hfound, ended⟩ := Broker.outcome?_eq_some_iff.mp now
          obtain rfl : call = found := Option.some.inj (hcall.symm.trans hfound)
          exact unended ended
        simp [pending, unfinished]
      · rw [frame other same]
    · rw [flatMap_block_append run returned, List.map_nil, List.append_nil]

theorem Broker.outcome?_congr {id : Nat} (h : t.calls[id]? = s.calls[id]?) :
    t.outcome? id = s.outcome? id := by
  rw [Broker.outcome?, Broker.outcome?, h]

/-- A call that awaits something has not returned. -/
theorem Broker.outcome?_ne_of_resume? {id : Nat} {answer : Answer ε} {code : Publishing ε Unit}
    {outcome : Except (PublishExn ε) Unit} (hcall : s.calls[id]? = some call)
    (resumed : call.resume? answer = some code) : s.outcome? id ≠ some outcome := by
  intro now
  obtain ⟨found, hfound, ended⟩ := Broker.outcome?_eq_some_iff.mp now
  obtain rfl : call = found := Option.some.inj (hcall.symm.trans hfound)
  obtain ⟨op, next, _, hcode, -⟩ := Call.exists_of_resume? resumed
  rw [hcode] at ended
  cases ended

/-- Taking a message ends no call. -/
theorem Broker.outcome?_take {id : Nat} {exchange : List (Nat × Delivery)}
    (hcall : s.calls[id]? = some call) (other : Nat) :
    (⟨s.calls.set id call.take, exchange⟩ : Broker Datetime ε).outcome? other =
      s.outcome? other := by
  by_cases same : id = other
  · subst same
    obtain ⟨early, -⟩ := List.getElem?_eq_some_iff.mp hcall
    have taken : (s.calls.set id call.take)[id]? = some call.take := by simp [early]
    rw [Broker.outcome?, Broker.outcome?, taken, hcall]
    cases call with
    | mk publisher event code sent => cases code <;> rfl
  · exact Broker.outcome?_congr (List.getElem?_set_ne same)

theorem blocks_of_run (run : Run (Broker.step lib) .empty as es s) : Blocks lib as es s := by
  induction run with
  | refl => exact .empty
  | @snoc as es fs s t a run hstep ih =>
      have after := run.snoc hstep
      cases Broker.step_eq_some_iff.mp hstep with
      | @publish publisher event =>
          obtain ⟨here, writes⟩ := Call.InSession.start (ε := ε) lib publisher event
          refine ih.extend run after ?_ ?_ List.getElem?_concat_length (here.written writes)
          · intro other hne
            apply Broker.outcome?_congr
            rcases Nat.lt_or_gt_of_ne hne with early | late
            · exact List.getElem?_append_left early
            · have past := Nat.le_of_lt late
              rw [List.getElem?_append_right past, List.getElem?_eq_none past,
                List.getElem?_eq_none]
              rw [List.length_singleton]
              omega
          · intro now
            obtain ⟨call, hcall, -⟩ := Broker.outcome?_eq_some_iff.mp now
            have early := (List.getElem?_eq_some_iff.mp hcall).1
            omega
      | accept hcall =>
          obtain ⟨order, distinct, returned, rfl⟩ := ih
          refine ⟨order, distinct, ?_, ?_⟩
          · intro id
            rw [returned, Broker.outcome?_take hcall]
          · rw [flatMap_block_append run returned, List.append_nil]
      | resume hcall resumed =>
          obtain ⟨session, here⟩ := (Broker.inSession_of_run run).calls hcall
          obtain ⟨reached, -, there, writes⟩ := here.resume resumed
          have early := (List.getElem?_eq_some_iff.mp hcall).1
          refine ih.extend run after ?_ (Broker.outcome?_ne_of_resume? hcall resumed)
            (List.getElem?_set_self early) (there.written writes)
          intro other hne
          exact Broker.outcome?_congr (List.getElem?_set_ne hne.symm)

/-- Only an event with a routing key is written to the log. -/
theorem EventPublisher.isSome_of_mem_lines {publisher : EventPublisher} {event : Event Datetime}
    {line : String} (h : line ∈ publisher.lines lib event) : event.type.routingKey.isSome := by
  have keyed {write : RoutingKey → String}
      (h : line ∈ event.type.routingKey.toList.map write) : event.type.routingKey.isSome := by
    obtain ⟨key, hkey, -⟩ := List.mem_map.mp h
    rw [Option.mem_toList.mp hkey]
    rfl
  induction publisher with
  | logging => exact keyed h
  | rabbit exchangeName => cases h
  | echoing inner ih =>
      rcases List.mem_append.mp h with h | h
      · exact ih h
      · exact keyed h

/-- A line in the log belongs to a call that returned with an event that has a routing key. -/
theorem Blocks.returned {id : Nat} {line : String} (h : Blocks lib as es s)
    (written : (id, line) ∈ es) :
    s.outcome? id = some (.ok ()) ∧ ∃ publisher event,
      (publishes as)[id]? = some (publisher, event) ∧ event.type.routingKey.isSome := by
  obtain ⟨order, -, returned, rfl⟩ := h
  obtain ⟨own, hown, hblock⟩ := List.mem_flatMap.mp written
  unfold block at hblock
  split at hblock
  · rename_i publisher event request
    obtain ⟨own_line, hline, same⟩ := List.mem_map.mp hblock
    obtain ⟨rfl, rfl⟩ := Prod.mk.inj same
    exact ⟨(returned own).mp hown, publisher, event, request,
      EventPublisher.isSome_of_mem_lines hline⟩
  · cases hblock

/-- What a reader of the log may conclude. The log is the blocks of the calls
that returned, in the order in which they returned; and the event of a line of a
call that delivers is at the exchange. -/
structure Truthful (lib : Pydantic Datetime) (as : List (Action Datetime ε))
    (es : List (Nat × String)) (s : Broker Datetime ε) : Prop where
  blocks : Blocks lib as es s
  delivered : ∀ {id : Nat} {line : String} {publisher : EventPublisher} {event : Event Datetime},
    (id, line) ∈ es → (publishes as)[id]? = some (publisher, event) → publisher.Delivers →
      ∃ delivery, (id, delivery) ∈ s.exchange ∧ delivery.message = event.message lib

/-- The log tells the truth in every state of every schedule. -/
theorem truthful_of_run (run : Run (Broker.step lib) .empty as es s) : Truthful lib as es s := by
  have blocks := blocks_of_run run
  refine ⟨blocks, ?_⟩
  intro id line publisher event written request delivers
  obtain ⟨returned, own, own_event, own_request, routed⟩ := blocks.returned written
  obtain ⟨rfl, rfl⟩ := Prod.mk.inj (Option.some.inj (own_request.symm.trans request))
  obtain ⟨call, hcall, ended⟩ := Broker.outcome?_eq_some_iff.mp returned
  obtain ⟨rfl, rfl⟩ := Prod.mk.inj (Option.some.inj
    ((Broker.request_of_run run hcall).symm.trans request))
  have settled : s.acceptedFrom id = call.publisher.deliveries lib call.event :=
    ((Broker.tracked_of_run run).calls hcall).exact ended
  rcases call.publisher.deliveries_eq lib call.event with none | ⟨exchangeName, key, -, one⟩
  · exact absurd none (delivers.deliveries_ne_nil lib routed)
  · refine ⟨⟨exchangeName, key.value, call.event.message lib⟩, Broker.mem_acceptedFrom.mp ?_, rfl⟩
    rw [settled, one]
    exact List.mem_singleton_self _

end Blocks

/-- The call that was delivered is in the log, and the one that lost its channel is not. -/
theorem truthful_of_run_interleaved : ∃ es s,
    Run (Broker.step .sample) .empty Action.sampleSchedule es s ∧ es.map Prod.fst = [0, 0] ∧
      Truthful .sample Action.sampleSchedule es s := by
  have hrun : (exec (Broker.step .sample) .empty Action.sampleSchedule).map
      (fun r => r.2.map Prod.fst) = some [0, 0] := by
    decide +kernel
  obtain ⟨es, s, run, log⟩ :=
    Run.of_exec_map (f := fun es (_ : Broker Unit String) => es.map Prod.fst) hrun
  exact ⟨es, s, run, log, truthful_of_run run⟩

end MestoryCore.Events
