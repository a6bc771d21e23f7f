import Mathlib.Data.List.Forall2
import Mathlib.Data.List.Induction
import Mathlib.Tactic.Common

/-!
# Runs of a step function that emits events

A system is a partial step function: an action either is not enabled, or moves
the state and emits a list of events. All nondeterminism is in the action, so a
schedule determines the run and can be executed. `Run step s as es t` is the
run of the schedule `as` from `s` to `t` with the trace `es`.

The rules below are the ones a safety proof uses: an invariant may mention the
trace emitted so far, a property of every step is a property of every `Visit`,
two systems run in lockstep under a relation, and a larger system projects to a
component that stutters on the remaining steps. Nothing here depends on what
the states, actions, and events are.
-/

namespace Transition

variable {σ α ε β : Type*}

/-- A step function: `none` when the action is not enabled. -/
abbrev Step (σ α ε : Type*) := σ → α → Option (σ × List ε)

/-- The run of a schedule, extended at its end. -/
inductive Run (step : Step σ α ε) (s : σ) : List α → List ε → σ → Prop where
  | refl : Run step s [] [] s
  | snoc {as : List α} {es fs : List ε} {t u : σ} {a : α} :
      Run step s as es t → step t a = some (u, fs) → Run step s (as ++ [a]) (es ++ fs) u

/-- Execute a schedule from its front. -/
def exec (step : Step σ α ε) : σ → List α → Option (σ × List ε)
  | s, [] => some (s, [])
  | s, a :: as =>
      match step s a with
      | none => none
      | some (t, es) => (exec step t as).map fun r => (r.1, es ++ r.2)

/-- One step of the run of `as` from `s`: the action `a` taken in `t` after the
trace `es`, with the emitted events `fs` and the next state `u`. -/
def Visit (step : Step σ α ε) (s : σ) (as : List α) (es : List ε) (t : σ) (a : α)
    (fs : List ε) (u : σ) : Prop :=
  ∃ before after, as = before ++ a :: after ∧ Run step s before es t ∧ step t a = some (u, fs)

namespace Run

variable {step : Step σ α ε} {s t u : σ} {as bs : List α} {es fs : List ε} {a : α}

theorem single (h : step s a = some (t, es)) : Run step s [a] es t := by
  simpa using Run.snoc (.refl) h

theorem trans (h : Run step s as es t) (k : Run step t bs fs u) :
    Run step s (as ++ bs) (es ++ fs) u := by
  induction k with
  | refl => simpa using h
  | snoc _ hstep ih =>
      rw [← List.append_assoc, ← List.append_assoc]
      exact ih.snoc hstep

theorem eq_of_nil (h : Run step s [] es t) : t = s ∧ es = [] := by
  generalize hl : ([] : List α) = l at h
  cases h with
  | refl => exact ⟨rfl, rfl⟩
  | snoc => simp at hl

/-- The first step of a run, and the run of the remaining schedule. -/
theorem of_cons (h : Run step s (a :: as) es u) :
    ∃ t es₁ es₂, es = es₁ ++ es₂ ∧ step s a = some (t, es₁) ∧ Run step t as es₂ u := by
  induction as using List.reverseRecOn generalizing es u with
  | nil =>
      generalize hl : [a] = l at h
      cases h with
      | refl => simp at hl
      | snoc run hstep =>
          obtain ⟨rfl, hb⟩ := List.append_inj' (show [] ++ [a] = _ ++ [_] from hl) rfl
          obtain rfl := List.singleton_inj.mp hb
          obtain ⟨rfl, rfl⟩ := run.eq_of_nil
          exact ⟨_, _, [], by simp, hstep, .refl⟩
  | append_singleton as b ih =>
      generalize hl : a :: (as ++ [b]) = l at h
      cases h with
      | refl => simp at hl
      | snoc run hstep =>
          obtain ⟨rfl, hb⟩ := List.append_inj' (show (a :: as) ++ [b] = _ ++ [_] from hl) rfl
          obtain rfl := List.singleton_inj.mp hb
          obtain ⟨t, es₁, es₂, rfl, first, rest⟩ := ih run
          exact ⟨t, es₁, es₂ ++ _, by simp, first, rest.snoc hstep⟩

/-- What `exec` computes is a run. -/
theorem of_exec (h : exec step s as = some (t, es)) : Run step s as es t := by
  induction as generalizing s es with
  | nil =>
      obtain ⟨rfl, rfl⟩ : s = t ∧ [] = es := by simpa [exec] using h
      exact .refl
  | cons a as ih =>
      cases hstep : step s a with
      | none => simp [exec, hstep] at h
      | some next =>
          obtain ⟨r, hr, rfl, rfl⟩ : ∃ r, exec step next.1 as = some r ∧ r.1 = t ∧
              next.2 ++ r.2 = es := by
            simpa [exec, hstep] using h
          exact (single hstep).trans (ih hr)

/-- What can be observed of an executed schedule holds of a run. -/
theorem of_exec_map {f : List ε → σ → β} {b : β}
    (h : (exec step s as).map (fun r => f r.2 r.1) = some b) :
    ∃ es t, Run step s as es t ∧ f es t = b := by
  obtain ⟨⟨t, es⟩, hexec, rfl⟩ := Option.map_eq_some_iff.mp h
  exact ⟨es, t, of_exec hexec, rfl⟩

/-- A property of traces and states that every action of the schedule preserves. -/
theorem invariant {I : List ε → σ → Prop} (start : I [] s)
    (next : ∀ {es t a u fs}, a ∈ as → I es t → step t a = some (u, fs) → I (es ++ fs) u)
    (h : Run step s as es t) : I es t := by
  induction h with
  | refl => exact start
  | snoc _ hstep ih =>
      have before := ih fun ha => next (List.mem_append_left _ ha)
      exact next (by simp) before hstep

/-- Every emitted event belongs to a step of the run. -/
theorem exists_visit {e : ε} (h : Run step s as es t) (he : e ∈ es) :
    ∃ es₁ v a fs u, Visit step s as es₁ v a fs u ∧ e ∈ fs := by
  induction h with
  | refl => simp at he
  | @snoc as _ _ _ _ b run hstep ih =>
      rcases List.mem_append.mp he with he | he
      · obtain ⟨es₁, v, a, fs, u, ⟨before, after, rfl, hrun, hvisit⟩, hmem⟩ := ih he
        exact ⟨es₁, v, a, fs, u, ⟨before, after ++ [b], by simp, hrun, hvisit⟩, hmem⟩
      · exact ⟨_, _, b, _, _, ⟨as, [], rfl, run, hstep⟩, he⟩

/-- Every action of the schedule of a run is taken in one of its steps. -/
theorem exists_visit_of_mem (h : Run step s as es t) (ha : a ∈ as) :
    ∃ es₁ v fs u, Visit step s as es₁ v a fs u := by
  induction h with
  | refl => cases ha
  | @snoc as _ _ _ _ b run hstep ih =>
      rcases List.mem_append.mp ha with ha | ha
      · obtain ⟨es₁, v, fs, u, before, after, rfl, hrun, hvisit⟩ := ih ha
        exact ⟨es₁, v, fs, u, before, after ++ [b], by simp, hrun, hvisit⟩
      · obtain rfl := List.mem_singleton.mp ha
        exact ⟨_, _, _, _, as, [], rfl, run, hstep⟩

/-- A schedule whose every action decreases a measure is no longer than the
measure it starts with. An invariant `I` of the states may be used. -/
theorem length_add_le {I : σ → Prop} {μ : σ → Nat} (start : I s)
    (next : ∀ {t a u fs}, a ∈ as → I t → step t a = some (u, fs) → I u ∧ μ u < μ t)
    (h : Run step s as es t) : I t ∧ as.length + μ t ≤ μ s := by
  induction h with
  | refl => exact ⟨start, by simp⟩
  | snoc _ hstep ih =>
      obtain ⟨inv, hle⟩ := ih fun ha => next (List.mem_append_left _ ha)
      obtain ⟨inv', hlt⟩ := next (by simp) inv hstep
      refine ⟨inv', ?_⟩
      rw [List.length_append, List.length_singleton]
      omega

end Run

namespace Visit

variable {step : Step σ α ε} {s t u : σ} {as : List α} {es fs : List ε} {a : α}

/-- A step of a run ends in a state that the run reaches. -/
theorem run (h : Visit step s as es t a fs u) :
    ∃ before, before ++ [a] <+: as ∧ Run step s before es t ∧
      Run step s (before ++ [a]) (es ++ fs) u := by
  obtain ⟨before, after, rfl, hrun, hstep⟩ := h
  exact ⟨before, ⟨after, by simp⟩, hrun, hrun.snoc hstep⟩

theorem step_eq (h : Visit step s as es t a fs u) : step t a = some (u, fs) := by
  obtain ⟨_, _, _, _, hstep⟩ := h
  exact hstep

theorem mem (h : Visit step s as es t a fs u) : a ∈ as := by
  obtain ⟨_, _, rfl, _, _⟩ := h
  simp

/-- The last step of a run is one of its steps. -/
theorem last (h : Run step s as es t) (hstep : step t a = some (u, fs)) :
    Visit step s (as ++ [a]) es t a fs u :=
  ⟨as, [], rfl, h, hstep⟩

/-- A step of a run that continues another one. -/
theorem after {bs : List α} {es₀ : List ε} {m : σ} (h : Run step s bs es₀ m)
    (visit : Visit step m as es t a fs u) : Visit step s (bs ++ as) (es₀ ++ es) t a fs u := by
  obtain ⟨before, rest, rfl, hrun, hstep⟩ := visit
  exact ⟨bs ++ before, rest, by simp, h.trans hrun, hstep⟩

end Visit

/-- Execute a schedule and one action after it, and observe that last step. -/
def observe (step : Step σ α ε) (f : List ε → σ → List ε → σ → β) (s : σ) (as : List α) (a : α) :
    Option β :=
  (exec step s as).bind fun r => (step r.1 a).map fun q => f r.2 r.1 q.2 q.1

/-- What `observe` computes was seen in the last step of a run. -/
theorem Visit.of_observe {step : Step σ α ε} {f : List ε → σ → List ε → σ → β} {s : σ}
    {as : List α} {a : α} {b : β} (h : observe step f s as a = some b) :
    ∃ es t fs u, Visit step s (as ++ [a]) es t a fs u ∧ f es t fs u = b := by
  obtain ⟨⟨t, es⟩, hexec, h⟩ := Option.bind_eq_some_iff.mp h
  obtain ⟨⟨u, fs⟩, hstep, rfl⟩ := Option.map_eq_some_iff.mp h
  exact ⟨es, t, fs, u, .last (.of_exec hexec) hstep, rfl⟩

/-! ## The last observed event of a trace -/

/-- The last event of a trace that `f` observes. -/
def latest (f : ε → Option β) (es : List ε) : Option β := es.reverse.findSome? f

@[simp] theorem latest_nil (f : ε → Option β) : latest f [] = none := rfl

@[simp] theorem latest_append (f : ε → Option β) (es fs : List ε) :
    latest f (es ++ fs) = (latest f fs).or (latest f es) := by
  simp [latest, List.findSome?_append]

@[simp] theorem latest_cons (f : ε → Option β) (e : ε) (es : List ε) :
    latest f (e :: es) = (latest f es).or (f e) := by
  simp [latest, List.findSome?_append]

theorem latest_congr {f g : ε → Option β} {es : List ε} (h : ∀ e ∈ es, f e = g e) :
    latest f es = latest g es := by
  induction es with
  | nil => rfl
  | cons e es ih =>
      rw [latest_cons, latest_cons, h e List.mem_cons_self,
        ih fun e he => h e (List.mem_cons_of_mem _ he)]

theorem latest_map {γ : Type*} (f : ε → Option β) (g : β → γ) (es : List ε) :
    latest (fun e => (f e).map g) es = (latest f es).map g :=
  List.map_findSome?.symm

theorem exists_mem_of_latest {f : ε → Option β} {es : List ε} {b : β}
    (h : latest f es = some b) : ∃ e ∈ es, f e = some b := by
  obtain ⟨e, he, hb⟩ := List.exists_of_findSome?_eq_some h
  exact ⟨e, List.mem_reverse.mp he, hb⟩

theorem latest_eq_none_iff {f : ε → Option β} {es : List ε} :
    latest f es = none ↔ ∀ e ∈ es, f e = none := by
  simp [latest, List.findSome?_eq_none_iff]

/-! ## Two systems -/

/-- When each step of a system is matched by a step of another one, under an
invariant of both traces and states, so is each of its runs. -/
theorem Run.simulate {σ' ε' : Type*} {step : Step σ α ε} (step' : Step σ' α ε')
    {I : List ε → σ → List ε' → σ' → Prop} {s t : σ} {s' : σ'} {as : List α} {es : List ε}
    (start : I [] s [] s')
    (next : ∀ {es t es' t' a u fs}, I es t es' t' → step t a = some (u, fs) →
      ∃ u' fs', step' t' a = some (u', fs') ∧ I (es ++ fs) u (es' ++ fs') u')
    (h : Run step s as es t) : ∃ es' t', Run step' s' as es' t' ∧ I es t es' t' := by
  induction h with
  | refl => exact ⟨[], s', .refl, start⟩
  | snoc _ hstep ih =>
      obtain ⟨es', t', run, inv⟩ := ih
      obtain ⟨u', fs', hstep', inv'⟩ := next inv hstep
      exact ⟨es' ++ fs', u', run.snoc hstep', inv'⟩

section Pair

variable {σ' α' ε' : Type*} {step : Step σ α ε} {step' : Step σ' α' ε'}

/-- A system with further state, whose steps are steps of the component `f`, has
the runs of that component. -/
theorem Run.forget {step' : Step σ' α ε} {f : σ → σ'}
    (next : ∀ {t a u fs}, step t a = some (u, fs) → step' (f t) a = some (f u, fs))
    {s t : σ} {as : List α} {es : List ε} (h : Run step s as es t) :
    Run step' (f s) as es (f t) := by
  induction h with
  | refl => exact .refl
  | snoc _ hstep ih => exact ih.snoc (next hstep)

/-- A translation that commutes with every step translates every run. -/
theorem Run.map {f : σ → σ'} {g : α → α'} {k : ε → ε'}
    (commutes : ∀ s a, step' (f s) (g a) = (step s a).map fun r => (f r.1, r.2.map k))
    {s t : σ} {as : List α} {es : List ε} (h : Run step s as es t) :
    Run step' (f s) (as.map g) (es.map k) (f t) := by
  induction h with
  | refl => exact .refl
  | @snoc as es fs t u a _ hstep ih =>
      rw [List.map_append, List.map_append]
      exact ih.snoc (by rw [commutes, hstep]; rfl)

/-- An event of a trace has its partner in a related trace. -/
theorem exists_related_of_mem {E : ε → ε' → Prop} {es : List ε} {es' : List ε'}
    (related : List.Forall₂ E es es') {e : ε} (he : e ∈ es) : ∃ e' ∈ es', E e e' := by
  induction related with
  | nil => cases he
  | @cons _ e' _ _ partner _ ih =>
      rcases List.mem_cons.mp he with rfl | he
      · exact ⟨e', List.mem_cons_self, partner⟩
      · obtain ⟨other, hmem, hrelated⟩ := ih he
        exact ⟨other, List.mem_cons_of_mem _ hmem, hrelated⟩

/-- Two systems under related schedules keep a relation of states and emit
related events, when each pair of steps does. -/
theorem Run.lockstep {R : σ → σ' → Prop} {A : α → α' → Prop} {E : ε → ε' → Prop}
    (next : ∀ {t t' a a' u u' fs fs'}, R t t' → A a a' → step t a = some (u, fs) →
      step' t' a' = some (u', fs') → R u u' ∧ List.Forall₂ E fs fs')
    {s t : σ} {s' t' : σ'} {as : List α} {as' : List α'} {es : List ε} {es' : List ε'}
    (start : R s s') (actions : List.Forall₂ A as as')
    (h : Run step s as es t) (h' : Run step' s' as' es' t') :
    R t t' ∧ List.Forall₂ E es es' := by
  induction actions generalizing s s' es es' with
  | nil =>
      obtain ⟨rfl, rfl⟩ := h.eq_of_nil
      obtain ⟨rfl, rfl⟩ := h'.eq_of_nil
      exact ⟨start, .nil⟩
  | cons ha _ ih =>
      obtain ⟨u, es₁, es₂, rfl, hstep, rest⟩ := h.of_cons
      obtain ⟨u', es₁', es₂', rfl, hstep', rest'⟩ := h'.of_cons
      obtain ⟨hu, first⟩ := next start ha hstep hstep'
      obtain ⟨ht, remaining⟩ := ih hu rest rest'
      exact ⟨ht, List.rel_append first remaining⟩

/-- A larger system projects to a component when each of its steps is either a
step of the component, by an action that `A` relates, or leaves the component
and its trace as they were. An invariant `I` of the larger system may be used. -/
theorem Run.project {f : σ → σ'} {p : ε → Option ε'} {I : σ → Prop} {A : α → α' → Prop}
    (keep : ∀ {t a u fs}, I t → step t a = some (u, fs) → I u)
    (next : ∀ {t a u fs}, I t → step t a = some (u, fs) →
      (f u = f t ∧ fs.filterMap p = []) ∨
        ∃ a', A a a' ∧ step' (f t) a' = some (f u, fs.filterMap p))
    {s t : σ} {as : List α} {es : List ε} (start : I s) (h : Run step s as es t) :
    I t ∧ ∃ as', (∀ a' ∈ as', ∃ a ∈ as, A a a') ∧
      Run step' (f s) as' (es.filterMap p) (f t) := by
  induction h with
  | refl => exact ⟨start, [], by simp, .refl⟩
  | @snoc as _ _ _ _ a _ hstep ih =>
      obtain ⟨inv, as', origin, run⟩ := ih
      refine ⟨keep inv hstep, ?_⟩
      have earlier : ∀ a' ∈ as', ∃ b ∈ as ++ [a], A b a' := by
        intro a' ha'
        obtain ⟨b, hb, hA⟩ := origin a' ha'
        exact ⟨b, List.mem_append_left _ hb, hA⟩
      rcases next inv hstep with ⟨hf, hp⟩ | ⟨a', hA, hstep'⟩
      · exact ⟨as', earlier, by simpa [hf, hp] using run⟩
      · refine ⟨as' ++ [a'], ?_, by simpa using run.snoc hstep'⟩
        intro b hb
        rcases List.mem_append.mp hb with hb | hb
        · exact earlier b hb
        · obtain rfl := List.mem_singleton.mp hb
          exact ⟨a, by simp, hA⟩

end Pair

end Transition
