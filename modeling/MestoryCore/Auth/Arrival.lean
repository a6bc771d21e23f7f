import MestoryCore.Auth.Refinement

/-!
# Requests in the order of arrival

The lock of the client is fair: the calls that load the document send their
requests in the order in which they began, and no call is overtaken while it
waits. A cancelled waiter loses its place, and nobody else's place changes.
-/

namespace MestoryCore.Auth

open Python Asyncio Transition

variable {τ : Type} {lib : Library} {url : String} {ttl interval : Time}
variable {s₀ s t : Sys τ} {a : Action τ} {as : List (Action τ)} {es fs : List (Event τ)}

/-- The number of the call that sends a request. -/
@[simp] def Event.sender? : Event τ → Option Nat
  | .load call (.sent _ _) => some call.id
  | _ => none

/-- The numbers of the calls that send a request, in the order of the requests. -/
def sendersIn (es : List (Event τ)) : List Nat := es.filterMap Event.sender?

@[simp] theorem sendersIn_nil : sendersIn ([] : List (Event τ)) = [] := rfl

@[simp] theorem sendersIn_cons (e : Event τ) (es : List (Event τ)) :
    sendersIn (e :: es) = e.sender?.toList ++ sendersIn es := by
  cases e with
  | load call event => cases event <;> rfl
  | called | queued | ended => rfl

@[simp] theorem sendersIn_append (es fs : List (Event τ)) :
    sendersIn (es ++ fs) = sendersIn es ++ sendersIn fs :=
  List.filterMap_append

/-- The calls that wait for the lock and were not asked to cancel. -/
def Sys.line (s : Sys τ) : List Nat := s.client.lock.line.map Call.id

/-- The calls that sent a request and those in line for the lock began one after
the other. -/
structure InOrder (es : List (Event τ)) (s : Sys τ) : Prop where
  sorted : (sendersIn es ++ s.line).Pairwise (· < ·)
  begun : ∀ id ∈ sendersIn es ++ s.line, id < s.calls

/-- A step lets calls leave the line or send a request from its front. Only a
call that begins joins the two, behind everybody. -/
theorem Move.line (inv : Guarded url ttl interval s) (m : Move lib s a t es) :
    (sendersIn es ++ t.line).Sublist s.line ∧ s.calls ≤ t.calls ∨
      (∃ before, before.Sublist s.line ∧ sendersIn es ++ t.line = before ++ [s.calls]) ∧
        t.calls = s.calls + 1 := by
  cases m with
  | advance => exact .inl ⟨.refl _, le_rfl⟩
  | hit | throttled => exact .inl ⟨.refl _, Nat.le_succ _⟩
  | queue => exact .inr ⟨⟨s.line, .refl _, by simp [Sys.line]⟩, rfl⟩
  | send entry =>
      cases entry with
      | free acquired =>
          obtain ⟨_, nobody⟩ := Lock.line_of_acquire? acquired
          exact .inr ⟨⟨[], List.nil_sublist _, by simp [Sys.line, nobody]⟩, rfl⟩
      | woken found future =>
          -- The request of the woken call takes the place that the call had in line.
          have first := inv.lock.line_of_woken found future
          exact .inl ⟨by simp [Sys.line, first], le_rfl⟩
  | @recheck id =>
      refine .inl ⟨?_, le_rfl⟩
      simpa [Sys.line] using (s.client.lock.line_remove_sublist id).map Call.id
  | @withdraw id =>
      refine .inl ⟨?_, le_rfl⟩
      simpa [Sys.line] using (s.client.lock.line_abandon_sublist id).map Call.id
  | @cancel id =>
      refine .inl ⟨?_, le_rfl⟩
      simpa [Sys.line] using (s.client.lock.line_cancel_sublist id).map Call.id
  | install | fail | abort =>
      refine .inl ⟨?_, le_rfl⟩
      simp [Sys.line, JwksClient.install, JwksClient.recordFailure, JwksClient.abortLoad]

theorem InOrder.move (order : InOrder es s) (inv : Guarded url ttl interval s)
    (m : Move lib s a t fs) : InOrder (es ++ fs) t := by
  obtain ⟨sorted, begun⟩ := order
  have hsplit : sendersIn (es ++ fs) ++ t.line = sendersIn es ++ (sendersIn fs ++ t.line) := by simp
  cases m.line inv with
  | inl left =>
      obtain ⟨hline, hcalls⟩ := left
      have stays : (sendersIn (es ++ fs) ++ t.line).Sublist (sendersIn es ++ s.line) :=
        hsplit ▸ hline.append_left (sendersIn es)
      exact ⟨sorted.sublist stays, fun id hid => (begun id (stays.subset hid)).trans_le hcalls⟩
  | inr joined =>
      obtain ⟨⟨before, hbefore, hline⟩, hcalls⟩ := joined
      have stays := hbefore.append_left (sendersIn es)
      have earlier : ∀ id ∈ sendersIn es ++ before, id < s.calls :=
        fun id hid => begun id (stays.subset hid)
      have hjoined : sendersIn (es ++ fs) ++ t.line = (sendersIn es ++ before) ++ [s.calls] := by
        rw [hsplit, hline, List.append_assoc]
      constructor
      · rw [hjoined, List.pairwise_append]
        exact ⟨sorted.sublist stays, List.pairwise_singleton _ _, by simpa using earlier⟩
      · intro id hid
        rw [hjoined, List.mem_append, List.mem_singleton] at hid
        cases hid with
        | inl hid =>
            have hlt := earlier id hid
            omega
        | inr hid => omega

/-- In every run the requests are sent in the order in which their calls began,
each by another call, and whoever waits in line began after all the calls that
have sent one. -/
theorem inOrder_of_run (start : Started lib url ttl interval s₀)
    (run : Run (Sys.step lib) s₀ as es s) : InOrder es s := by
  have idle : s₀.client.lock.tasks = [] := (List.append_eq_nil_iff.mp start.suspended).1
  have nobody : s₀.line = [] := by
    have waiters : s₀.client.lock.waiters = [] := List.map_eq_nil_iff.mp idle
    simp [Sys.line, Lock.line, waiters]
  refine (run.invariant (I := fun es s => Guarded url ttl interval s ∧ InOrder es s)
    ⟨.start start, ⟨by simp [nobody], by simp [nobody]⟩⟩ ?_).2
  rintro es t a u fs _ ⟨guarded, order⟩ hstep
  have m := Move.of_step hstep
  exact ⟨guarded.move m, order.move guarded m⟩

/-- The first of three waiting calls is cancelled, the second one sends the next
request, and the third is still in line. -/
theorem inOrder_of_run_cancel :
    ∃ es s, Run (Sys.step .sample) (.sample : Sys Unit)
        [.call "k1" (), .call "k1" (), .call "k1" (), .call "k1" (), .cancel 1,
          .receive 0 (.ok .unavailable), .wake 1, .advance 31, .wake 2] es s ∧
      sendersIn es = [0, 2] ∧ s.line = [3] ∧ InOrder es s := by
  have hrun : (exec (Sys.step .sample) (.sample : Sys Unit)
      [.call "k1" (), .call "k1" (), .call "k1" (), .call "k1" (), .cancel 1,
        .receive 0 (.ok .unavailable), .wake 1, .advance 31, .wake 2]).map
      (fun r => (sendersIn r.2, r.1.line)) = some ([0, 2], [3]) := by decide +kernel
  obtain ⟨es, s, run, hobserved⟩ :=
    Run.of_exec_map (f := fun es (s : Sys Unit) => (sendersIn es, s.line)) hrun
  obtain ⟨senders, line⟩ := Prod.mk.inj hobserved
  exact ⟨es, s, run, senders, line, inOrder_of_run .sample run⟩

end MestoryCore.Auth
