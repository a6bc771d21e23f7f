import MestoryCore.Events.Session

/-!
# Echoing changes the log and nothing else

An `EchoingEventPublisher` passes the event on and lets every exception through,
so a stack of them can be put around a publisher without its callers, its
channels, or the exchange noticing. Every schedule also runs with each stack
replaced by the publisher at its bottom; the exchange and the outcomes are the
same, and only lines of the log are missing.
-/

namespace MestoryCore.Events

open Python Asyncio Transition

variable {Datetime ε : Type}

/-- The publisher at the bottom of a stack. -/
def EventPublisher.bottom : EventPublisher → EventPublisher
  | .logging => .logging
  | .rabbit exchangeName => .rabbit exchangeName
  | .echoing inner => inner.bottom

/-- The same action without echoing. -/
def Action.strip : Action Datetime ε → Action Datetime ε
  | .publish publisher event => .publish publisher.bottom event
  | .accept id => .accept id
  | .resume id answer => .resume id answer

/-- The call without echoing, at another point of its code. -/
def Call.strip (call : Call Datetime ε) (code : Publishing ε Unit) : Call Datetime ε :=
  ⟨call.publisher.bottom, call.event, code, call.sent⟩

section Call

variable {lib : Pydantic Datetime} {event : Event Datetime} {call : Call Datetime ε}
variable {answers : List (Answer ε)} {session : Session ε}

theorem Session.start_bottom (event : Event Datetime) (publisher : EventPublisher) :
    (Session.start event publisher.bottom : Session ε) = Session.start event publisher := by
  induction publisher with
  | logging | rabbit => rfl
  | echoing inner ih => exact ih

theorem EventPublisher.lines_bottom_prefix (lib : Pydantic Datetime) (event : Event Datetime)
    (publisher : EventPublisher) :
    publisher.bottom.lines lib event <+: publisher.lines lib event := by
  induction publisher with
  | logging | rabbit => exact List.prefix_refl _
  | echoing inner ih => exact ih.trans (List.prefix_append _ _)

/-- What a stack writes in a state of the session begins with what its bottom writes. -/
theorem Session.written_prefix {publisher : EventPublisher} {lines bare : List String}
    (writes : (Session.machine lib event).Writes (Announced lib publisher event) session lines)
    (less : (Session.machine lib event).Writes (Announced lib publisher.bottom event) session
      bare) : bare <+: lines := by
  unfold Machine.Writes at writes less
  cases hstatus : (Session.machine lib event).status session with
  | awaiting op =>
      rw [hstatus] at writes less
      obtain rfl : bare = [] := less
      exact List.nil_prefix
  | ended outcome =>
      rw [hstatus] at writes less
      cases outcome with
      | ok reply =>
          obtain ⟨-, rfl⟩ := writes
          obtain ⟨-, rfl⟩ := less
          exact publisher.lines_bottom_prefix lib event
      | error exn =>
          obtain rfl : bare = [] := less
          exact List.nil_prefix

/-- The same answers bring a call and its stripped call to one state. -/
theorem Call.InSession.eq_of_strip {code : Publishing ε Unit} {other : Session ε}
    (h : call.InSession lib answers session) (k : (call.strip code).InSession lib answers other) :
    other = session := by
  have bare : Session.after lib call.publisher.bottom call.event answers = some other := k.reached
  rw [Session.after, Session.start_bottom] at bare
  exact Option.some.inj (bare.symm.trans h.reached)

end Call

section Runs

variable {lib : Pydantic Datetime} {s t s' : Broker Datetime ε}
variable {as : List (Action Datetime ε)} {es es' : List (Nat × String)}

theorem answersTo_map_strip (id : Nat) (as : List (Action Datetime ε)) :
    answersTo id (as.map Action.strip) = answersTo id as := by
  rw [answersTo, answersTo, List.filterMap_map]
  apply List.filterMap_congr
  intro a _
  cases a <;> rfl

/-- `s'` is the broker `s` with the bottom of each stack in its place. -/
structure Broker.Stripped (s s' : Broker Datetime ε) : Prop where
  exchange : s'.exchange = s.exchange
  length : s'.calls.length = s.calls.length
  calls : ∀ {id : Nat} {call : Call Datetime ε}, s.calls[id]? = some call →
    ∃ code, s'.calls[id]? = some (call.strip code)

/-- A call and its stripped call are at one state of one session. -/
theorem Broker.Stripped.partner (h : s.Stripped s') (here : s.InSession lib as)
    (there : s'.InSession lib (as.map Action.strip)) {id : Nat} {call : Call Datetime ε}
    (hcall : s.calls[id]? = some call) :
    ∃ code session, s'.calls[id]? = some (call.strip code) ∧
      call.InSession lib (answersTo id as) session ∧
      (call.strip code).InSession lib (answersTo id as) session := by
  obtain ⟨code, hbare⟩ := h.calls hcall
  obtain ⟨session, own⟩ := here.calls hcall
  obtain ⟨other, bare⟩ := there.calls hbare
  rw [answersTo_map_strip] at bare
  obtain rfl := own.eq_of_strip bare
  exact ⟨code, other, hbare, own, bare⟩

theorem Broker.Stripped.set (h : s.Stripped s') {id : Nat} {new : Call Datetime ε}
    {code : Publishing ε Unit} (exchange : List (Nat × Delivery)) :
    (⟨s.calls.set id new, exchange⟩ : Broker Datetime ε).Stripped
      ⟨s'.calls.set id (new.strip code), exchange⟩ := by
  constructor
  · rfl
  · rw [List.length_set, List.length_set, h.length]
  · intro other call hcall
    rcases eq_or_getElem?_of_set hcall with ⟨rfl, rfl⟩ | ⟨hne, hcall⟩
    · have early := (List.getElem?_eq_some_iff.mp hcall).1
      rw [List.length_set, ← h.length] at early
      exact ⟨code, List.getElem?_set_self early⟩
    · obtain ⟨own, hbare⟩ := h.calls hcall
      exact ⟨own, (List.getElem?_set_ne hne).trans hbare⟩

theorem Broker.Stripped.concat (h : s.Stripped s') (new : Call Datetime ε)
    (code : Publishing ε Unit) :
    (⟨s.calls ++ [new], s.exchange⟩ : Broker Datetime ε).Stripped
      ⟨s'.calls ++ [new.strip code], s'.exchange⟩ := by
  constructor
  · exact h.exchange
  · rw [List.length_append, List.length_append, h.length]
    rfl
  · intro id call hcall
    rcases eq_or_getElem?_of_concat hcall with ⟨rfl, rfl⟩ | hcall
    · refine ⟨code, ?_⟩
      rw [← h.length]
      exact List.getElem?_concat_length
    · obtain ⟨own, hbare⟩ := h.calls hcall
      have early := (List.getElem?_eq_some_iff.mp hbare).1
      exact ⟨own, (List.getElem?_append_left early).trans hbare⟩

/-- Every step is also a step without echoing, which writes less to the log. -/
theorem Broker.Stripped.turn {a : Action Datetime ε} {fs : List (Nat × String)}
    (h : s.Stripped s') (here : s.InSession lib as)
    (there : s'.InSession lib (as.map Action.strip)) (turn : s.Turn lib a t fs) :
    ∃ t' fs', s'.Turn lib a.strip t' fs' ∧ t.Stripped t' ∧ fs'.Sublist fs := by
  cases turn with
  | @publish publisher event =>
      refine ⟨_, _, .publish, h.concat _ _, ?_⟩
      obtain ⟨-, writes⟩ := Call.InSession.start (ε := ε) lib publisher event
      obtain ⟨-, less⟩ := Call.InSession.start (ε := ε) lib publisher.bottom event
      rw [Session.start_bottom] at less
      rw [h.length]
      exact (Session.written_prefix writes less).sublist.map _
  | @accept id call delivery hcall offered =>
      obtain ⟨code, session, hbare, own, bare⟩ := h.partner here there hcall
      have same : (call.strip code).offered? = some delivery := by
        rw [Call.offered?_eq_offer, bare.at_code.status?_eq, ← offered, Call.offered?_eq_offer,
          own.at_code.status?_eq]
        rfl
      refine ⟨_, _, .accept hbare same, ?_, List.nil_sublist _⟩
      rw [h.exchange]
      exact h.set _
  | @resume id answer call code hcall resumed =>
      obtain ⟨bare_code, session, hbare, own, bare⟩ := h.partner here there hcall
      have fitting : ((call.strip bare_code).resume? answer).isSome := by
        have fits_own := Call.isSome_resume?_eq_fits call answer
        rw [resumed, own.at_code.status?_eq] at fits_own
        rw [Call.isSome_resume?_eq_fits, bare.at_code.status?_eq]
        exact fits_own.symm
      obtain ⟨next, same⟩ := Option.isSome_iff_exists.mp fitting
      obtain ⟨reached, moved, -, writes⟩ := own.resume resumed
      obtain ⟨other, bare_moved, -, less⟩ := bare.resume same
      obtain rfl : other = reached := Option.some.inj (bare_moved.symm.trans moved)
      refine ⟨_, _, .resume hbare same, ?_, (Session.written_prefix writes less).sublist.map _⟩
      rw [h.exchange]
      exact h.set _

theorem Broker.exists_stripped_of_run (run : Run (Broker.step lib) .empty as es s) :
    ∃ es' s', Run (Broker.step lib) .empty (as.map Action.strip) es' s' ∧ s.Stripped s' ∧
      es'.Sublist es := by
  induction run with
  | refl => exact ⟨[], .empty, .refl, ⟨rfl, rfl, nofun⟩, List.nil_sublist _⟩
  | snoc run hstep ih =>
      obtain ⟨es', s', bare, stripped, less⟩ := ih
      obtain ⟨t', fs', bare_turn, next, fewer⟩ := stripped.turn (Broker.inSession_of_run run)
        (Broker.inSession_of_run bare) (Broker.step_eq_some_iff.mp hstep)
      refine ⟨es' ++ fs', t', ?_, next, less.append fewer⟩
      rw [List.map_append]
      exact bare.snoc (Broker.step_eq_some_iff.mpr bare_turn)

/-- How a call with this status ended. -/
def ended? : Option (Status ChannelOp (PublishExn ε) Unit) → Option (Except (PublishExn ε) Unit)
  | some (.ended outcome) => some outcome
  | _ => none

theorem Broker.outcome?_eq_ended? {id : Nat} {call : Call Datetime ε}
    (h : s.calls[id]? = some call) : s.outcome? id = ended? call.code.status? := by
  obtain ⟨publisher, event, code, sent⟩ := call
  rw [Broker.outcome?, h]
  cases code <;> rfl

/-- Every schedule is a schedule without echoing: the exchange accepts the same
messages, every call ends as it did, and lines are missing from the log. -/
theorem silenced_of_run (run : Run (Broker.step lib) .empty as es s) :
    ∃ es' s', Run (Broker.step lib) .empty (as.map Action.strip) es' s' ∧
      s'.exchange = s.exchange ∧ (∀ id, s'.outcome? id = s.outcome? id) ∧ es'.Sublist es := by
  obtain ⟨es', s', bare, stripped, less⟩ := Broker.exists_stripped_of_run run
  refine ⟨es', s', bare, stripped.exchange, ?_, less⟩
  intro id
  cases hcall : s.calls[id]? with
  | none =>
      have none : s'.calls[id]? = none := by
        rw [List.getElem?_eq_none_iff] at hcall ⊢
        rwa [stripped.length]
      rw [Broker.outcome?, Broker.outcome?, hcall, none]
  | some call =>
      obtain ⟨code, session, hbare, own, same⟩ := stripped.partner
        (Broker.inSession_of_run run) (Broker.inSession_of_run bare) hcall
      rw [Broker.outcome?_eq_ended? hcall, Broker.outcome?_eq_ended? hbare,
        own.at_code.status?_eq, same.at_code.status?_eq]
      rfl

end Runs

/-- Without its two echoes the first call is delivered all the same. -/
theorem silenced_of_run_interleaved : ∃ es s, ∃ es' s',
    Run (Broker.step .sample) .empty Action.sampleSchedule es s ∧ es.map Prod.fst = [0, 0] ∧
      Run (Broker.step .sample) .empty (Action.sampleSchedule.map Action.strip) es' s' ∧
      s'.exchange = s.exchange ∧ (∀ id, s'.outcome? id = s.outcome? id) ∧ es'.Sublist es := by
  have hrun : (exec (Broker.step .sample) .empty Action.sampleSchedule).map
      (fun r => r.2.map Prod.fst) = some [0, 0] := by
    decide +kernel
  obtain ⟨es, s, run, log⟩ :=
    Run.of_exec_map (f := fun es (_ : Broker Unit String) => es.map Prod.fst) hrun
  obtain ⟨es', s', silenced⟩ := silenced_of_run run
  exact ⟨es, s, es', s', run, log, silenced⟩

end MestoryCore.Events
