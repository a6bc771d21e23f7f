import Mathlib.Data.List.Basic
import Mathlib.Tactic.Common

/-!
# The `asyncio.Lock` of one event loop

`Lock` keeps the two fields of the standard library's class: the `_locked` flag
and the deque `_waiters`, one future for each task suspended in `acquire`. The
operations are the uninterrupted segments of `acquire` and `release`: the part
of `acquire` before its `await`, the part after it for a woken and for a
cancelled waiter, `release`, and `Task.cancel` on a waiter.

Releasing does not hand the lock over: it clears the flag and completes the
future of the first waiter, so the lock is seen free until that waiter runs. A
task cancelled after its future was completed still wakes, raises, and passes
the turn on. `WellFormed` is the invariant that makes this sound: no waiter is
on its way to a held lock, and a free lock never has a sleeping first waiter.
-/

namespace Asyncio

/-- The future of a waiter, together with a cancellation its task has to raise.
`cancelled` is the only one for which `fut.cancelled()` holds, and `pending` the
only one for which `fut.done()` does not. -/
inductive Future where
  | pending
  | woken
  | cancelled
  | wokenCancelled
  deriving DecidableEq, Repr

/-- The future was completed by `_wake_up_first`. -/
def Future.isWoken : Future → Bool
  | .woken | .wokenCancelled => true
  | .pending | .cancelled => false

/-- `Task.cancel` cancels a pending future; a task whose future is already
completed raises at its next step instead. -/
def Future.cancel : Future → Future
  | .pending => .cancelled
  | .woken => .wokenCancelled
  | .cancelled => .cancelled
  | .wokenCancelled => .wokenCancelled

@[simp] theorem Future.isWoken_cancel (f : Future) : f.cancel.isWoken = f.isWoken := by
  cases f <;> rfl

@[simp] theorem Future.cancel_ne_pending (f : Future) : f.cancel ≠ .pending := by
  cases f <;> decide

/-- The task of the future was not asked to cancel. -/
def Future.isLive : Future → Bool
  | .pending | .woken => true
  | .cancelled | .wokenCancelled => false

@[simp] theorem Future.isLive_cancel (f : Future) : f.cancel.isLive = false := by
  cases f <;> rfl

/-- A task suspended in `acquire`. -/
structure Waiter (κ : Type*) where
  id : Nat
  task : κ
  future : Future
  deriving DecidableEq, Repr

def Waiter.map {κ κ' : Type*} (f : κ → κ') (w : Waiter κ) : Waiter κ' where
  id := w.id
  task := f w.task
  future := w.future

structure Lock (κ : Type*) where
  locked : Bool := false
  waiters : List (Waiter κ) := []
  deriving DecidableEq, Repr

namespace Lock

variable {κ : Type*}

/-- `_wake_up_first`: complete the first waiter's future unless it is done. -/
def wakeUpFirst (l : Lock κ) : Lock κ :=
  match l.waiters with
  | [] => l
  | w :: ws =>
      if w.future = .pending then { l with waiters := { w with future := .woken } :: ws } else l

/-- The part of `acquire` before its `await`: take a free lock that nobody
waits for. -/
def acquire? (l : Lock κ) : Option (Lock κ) :=
  if !l.locked && l.waiters.all (fun w => w.future = .cancelled) then
    some { l with locked := true }
  else none

/-- `acquire` suspends on a new future at the end of the deque. -/
def enqueue (l : Lock κ) (id : Nat) (task : κ) : Lock κ :=
  { l with waiters := l.waiters ++ [⟨id, task, .pending⟩] }

def find? (l : Lock κ) (id : Nat) : Option (Waiter κ) :=
  l.waiters.find? fun w => w.id = id

/-- `self._waiters.remove(fut)`. -/
def remove (l : Lock κ) (id : Nat) : Lock κ :=
  { l with waiters := l.waiters.eraseP fun w => w.id = id }

/-- The part of `acquire` after its `await` for a woken waiter. -/
def resume (l : Lock κ) (id : Nat) : Lock κ :=
  { l.remove id with locked := true }

/-- The part of `acquire` after its `await` for a cancelled waiter, which wakes
the next one when the lock is free. -/
def abandon (l : Lock κ) (id : Nat) : Lock κ :=
  if (l.remove id).locked then l.remove id else (l.remove id).wakeUpFirst

/-- `release` of a held lock. -/
def release (l : Lock κ) : Lock κ :=
  wakeUpFirst { l with locked := false }

/-- `Task.cancel` on a task suspended in `acquire`. -/
def cancel (l : Lock κ) (id : Nat) : Lock κ :=
  { l with
    waiters := l.waiters.map fun w =>
      if w.id = id then { w with future := w.future.cancel } else w }

@[simp] theorem wakeUpFirst_locked (l : Lock κ) : l.wakeUpFirst.locked = l.locked := by
  unfold wakeUpFirst
  split <;> [rfl; (split <;> rfl)]

@[simp] theorem enqueue_locked (l : Lock κ) (id : Nat) (task : κ) :
    (l.enqueue id task).locked = l.locked := rfl

@[simp] theorem resume_locked (l : Lock κ) (id : Nat) : (l.resume id).locked = true := rfl

@[simp] theorem remove_locked (l : Lock κ) (id : Nat) : (l.remove id).locked = l.locked := rfl

@[simp] theorem release_locked (l : Lock κ) : l.release.locked = false := by simp [release]

@[simp] theorem cancel_locked (l : Lock κ) (id : Nat) : (l.cancel id).locked = l.locked := rfl

@[simp] theorem abandon_locked (l : Lock κ) (id : Nat) : (l.abandon id).locked = l.locked := by
  unfold abandon
  split <;> simp

theorem acquire?_eq_some_iff {l m : Lock κ} :
    l.acquire? = some m ↔
      l.locked = false ∧ (∀ w ∈ l.waiters, w.future = .cancelled) ∧
        m = { l with locked := true } := by
  simp [acquire?, eq_comm (a := m), and_assoc]

/-- A held lock cannot be taken. -/
@[simp] theorem acquire?_of_locked {l : Lock κ} (h : l.locked = true) : l.acquire? = none := by
  simp [acquire?, h]

/-! ## The suspended tasks -/

/-- The tasks suspended in `acquire`, in the order of the deque. -/
def tasks (l : Lock κ) : List κ := l.waiters.map Waiter.task

@[simp] theorem tasks_wakeUpFirst (l : Lock κ) : l.wakeUpFirst.tasks = l.tasks := by
  obtain ⟨locked, waiters⟩ := l
  cases waiters with
  | nil => rfl
  | cons w ws =>
      by_cases hp : w.future = .pending
      · simp [wakeUpFirst, tasks, hp]
      · simp [wakeUpFirst, tasks, hp]

@[simp] theorem tasks_enqueue (l : Lock κ) (id : Nat) (task : κ) :
    (l.enqueue id task).tasks = l.tasks ++ [task] := by
  simp [enqueue, tasks]

@[simp] theorem tasks_release (l : Lock κ) : l.release.tasks = l.tasks := by
  rw [release, tasks_wakeUpFirst]
  rfl

@[simp] theorem tasks_cancel (l : Lock κ) (id : Nat) : (l.cancel id).tasks = l.tasks := by
  simp only [tasks, cancel, List.map_map]
  apply List.map_congr_left
  intro w _
  simp only [Function.comp_apply]
  split <;> rfl

theorem tasks_remove_sublist (l : Lock κ) (id : Nat) : (l.remove id).tasks.Sublist l.tasks :=
  List.eraseP_sublist.map _

theorem tasks_resume_sublist (l : Lock κ) (id : Nat) : (l.resume id).tasks.Sublist l.tasks :=
  l.tasks_remove_sublist id

theorem tasks_abandon_sublist (l : Lock κ) (id : Nat) : (l.abandon id).tasks.Sublist l.tasks := by
  simp only [abandon]
  split
  · exact l.tasks_remove_sublist id
  · rw [tasks_wakeUpFirst]
    exact l.tasks_remove_sublist id

theorem task_mem_of_find? {l : Lock κ} {id : Nat} {w : Waiter κ} (h : l.find? id = some w) :
    w.task ∈ l.tasks :=
  List.mem_map_of_mem (List.mem_of_find?_eq_some h)

@[simp] theorem tasks_resume (l : Lock κ) (id : Nat) :
    (l.resume id).tasks = (l.remove id).tasks := rfl

@[simp] theorem tasks_abandon (l : Lock κ) (id : Nat) :
    (l.abandon id).tasks = (l.remove id).tasks := by
  unfold abandon
  split <;> simp

/-- Removing a waiter takes its task and no other out of the suspended ones. -/
theorem tasks_perm_of_find? {l : Lock κ} {id : Nat} {w : Waiter κ} (h : l.find? id = some w) :
    l.tasks.Perm (w.task :: (l.remove id).tasks) := by
  obtain ⟨hid, before, after, hws, hbefore⟩ := List.find?_eq_some_iff_append.mp h
  have others : ∀ v ∈ before, ¬ decide (v.id = id) = true := by
    intro v hv
    simpa using hbefore v hv
  have hrest : (l.remove id).waiters = before ++ after := by
    rw [remove, hws, List.eraseP_append_right _ others]
    simp [of_decide_eq_true hid]
  rw [tasks, tasks, hws, hrest, List.map_append, List.map_append, List.map_cons]
  exact List.perm_middle

/-! ## The line for the lock -/

/-- The suspended tasks that were not asked to cancel, in the order of the deque. -/
def line (l : Lock κ) : List κ := (l.waiters.filter fun w => w.future.isLive).map Waiter.task

@[simp] theorem line_wakeUpFirst (l : Lock κ) : l.wakeUpFirst.line = l.line := by
  obtain ⟨locked, waiters⟩ := l
  cases waiters with
  | nil => rfl
  | cons w ws =>
      by_cases hp : w.future = .pending
      · simp [wakeUpFirst, line, hp, Future.isLive]
      · simp [wakeUpFirst, line, hp]

@[simp] theorem line_release (l : Lock κ) : l.release.line = l.line := by
  rw [release, line_wakeUpFirst]
  rfl

@[simp] theorem line_enqueue (l : Lock κ) (id : Nat) (task : κ) :
    (l.enqueue id task).line = l.line ++ [task] := by
  simp [enqueue, line, Future.isLive]

@[simp] theorem line_resume (l : Lock κ) (id : Nat) : (l.resume id).line = (l.remove id).line := rfl

theorem line_remove_sublist (l : Lock κ) (id : Nat) : (l.remove id).line.Sublist l.line :=
  (List.eraseP_sublist.filter _).map _

theorem line_abandon_sublist (l : Lock κ) (id : Nat) : (l.abandon id).line.Sublist l.line := by
  simp only [abandon]
  split
  · exact l.line_remove_sublist id
  · rw [line_wakeUpFirst]
    exact l.line_remove_sublist id

theorem line_cancel_sublist (l : Lock κ) (id : Nat) : (l.cancel id).line.Sublist l.line := by
  obtain ⟨locked, waiters⟩ := l
  induction waiters with
  | nil => exact .refl _
  | cons w ws ih =>
      have rest : ((Lock.mk locked ws).cancel id).line.Sublist (Lock.mk locked ws).line := ih
      by_cases hid : w.id = id
      · by_cases live : w.future.isLive = true
        · simpa [cancel, line, hid, live] using rest.cons w.task
        · simpa [cancel, line, hid, live] using rest
      · by_cases live : w.future.isLive = true
        · simpa [cancel, line, hid, live] using rest
        · simpa [cancel, line, hid, live] using rest

/-- A lock that can be taken at once has nobody in line. -/
theorem line_of_acquire? {l m : Lock κ} (h : l.acquire? = some m) : l.line = [] ∧ m.line = [] := by
  obtain ⟨_, cancelled, rfl⟩ := acquire?_eq_some_iff.mp h
  have nobody : l.waiters.filter (fun w => w.future.isLive) = [] := by
    refine List.filter_eq_nil_iff.mpr fun w hw => ?_
    simp [cancelled w hw, Future.isLive]
  exact ⟨by simp [line, nobody], by simp [line, nobody]⟩

/-! ## Renaming the tasks

No operation looks at a task, so each of them commutes with a renaming. -/

section Map

variable {κ' : Type*} (f : κ → κ') (l : Lock κ) (id : Nat)

def map : Lock κ' where
  locked := l.locked
  waiters := l.waiters.map (Waiter.map f)

@[simp] theorem map_locked : (l.map f).locked = l.locked := rfl

@[simp] theorem map_wakeUpFirst : (l.map f).wakeUpFirst = l.wakeUpFirst.map f := by
  obtain ⟨locked, waiters⟩ := l
  cases waiters with
  | nil => rfl
  | cons w ws =>
      by_cases hp : w.future = .pending
      · simp [wakeUpFirst, map, Waiter.map, hp]
      · simp [wakeUpFirst, map, Waiter.map, hp]

@[simp] theorem map_acquire? : (l.map f).acquire? = l.acquire?.map (Lock.map f) := by
  have waiters : ((l.map f).waiters.all fun w => w.future = .cancelled) =
      l.waiters.all fun w => w.future = .cancelled := by
    rw [map, List.all_map]
    rfl
  simp only [acquire?, map_locked, waiters]
  split <;> rfl

@[simp] theorem map_enqueue (task : κ) :
    (l.map f).enqueue id (f task) = (l.enqueue id task).map f := by
  simp [enqueue, map, Waiter.map]

@[simp] theorem map_find? : (l.map f).find? id = (l.find? id).map (Waiter.map f) := by
  simp only [find?, map, List.find?_map]
  rfl

@[simp] theorem map_remove : (l.map f).remove id = (l.remove id).map f := by
  simp only [remove, map, List.eraseP_map]
  rfl

@[simp] theorem map_resume : (l.map f).resume id = (l.resume id).map f := by
  simp only [resume, map_remove]
  rfl

@[simp] theorem map_abandon : (l.map f).abandon id = (l.abandon id).map f := by
  simp only [abandon, map_remove, map_locked, map_wakeUpFirst]
  split <;> rfl

@[simp] theorem map_release : (l.map f).release = l.release.map f :=
  map_wakeUpFirst f { l with locked := false }

@[simp] theorem map_cancel : (l.map f).cancel id = (l.cancel id).map f := by
  simp only [cancel, map, List.map_map, mk.injEq, true_and]
  apply List.map_congr_left
  intro w _
  by_cases hid : w.id = id
  · simp [Waiter.map, hid]
  · simp [Waiter.map, hid]

end Map

/-- The invariant of the lock's deque: nobody is on the way to a held lock, the
first waiter of a free lock is not asleep, and only the first was woken. -/
structure WellFormed (l : Lock κ) : Prop where
  held : l.locked = true → ∀ w ∈ l.waiters, w.future.isWoken = false
  free : l.locked = false → ∀ w ∈ l.waiters.head?, w.future ≠ .pending
  single : ∀ w ∈ l.waiters.tail, w.future.isWoken = false

namespace WellFormed

variable {l : Lock κ}

theorem empty : (({} : Lock κ)).WellFormed := ⟨by simp, by simp, by simp⟩

/-- A waiter whose future was completed is the first one, and the lock is free. -/
theorem of_woken {id : Nat} {w : Waiter κ} (h : l.WellFormed) (hw : l.find? id = some w)
    (hf : w.future.isWoken = true) :
    l.locked = false ∧ l.waiters = w :: (l.remove id).waiters := by
  have hmem : w ∈ l.waiters := List.mem_of_find?_eq_some hw
  have hid : w.id = id := by simpa using List.find?_some hw
  refine ⟨?_, ?_⟩
  · by_contra hlocked
    rw [h.held (by simpa using hlocked) w hmem] at hf
    cases hf
  · cases hws : l.waiters with
    | nil => simp [hws] at hmem
    | cons v vs =>
        have hv : w = v := by
          rcases List.mem_cons.mp (hws ▸ hmem) with hv | hv
          · exact hv
          · have := h.single w (by simpa [hws] using hv)
            rw [this] at hf
            cases hf
        subst hv
        simp [remove, hws, hid]

/-- Whenever somebody waits for a free lock, some waiter can run: the first one
is not asleep. -/
theorem exists_ready (h : l.WellFormed) (free : l.locked = false) (waits : l.waiters ≠ []) :
    ∃ w, l.find? w.id = some w ∧ w.future ≠ .pending := by
  obtain ⟨w, ws, hws⟩ := List.exists_cons_of_ne_nil waits
  refine ⟨w, by simp [find?, hws], ?_⟩
  apply h.free free
  simp [hws]

/-- The woken waiter is the first in line. -/
theorem line_of_woken {id : Nat} {w : Waiter κ} (h : l.WellFormed) (hw : l.find? id = some w)
    (hf : w.future = .woken) : l.line = w.task :: (l.remove id).line := by
  have woken : w.future.isWoken = true := by
    rw [hf]
    rfl
  rw [line, (h.of_woken hw woken).2]
  simp [line, hf, Future.isLive]

/-- Waking the first waiter of a free lock that has no other woken waiter. -/
theorem wakeUpFirst {m : Lock κ} (hlocked : m.locked = false)
    (htail : ∀ w ∈ m.waiters.tail, w.future.isWoken = false) : m.wakeUpFirst.WellFormed := by
  unfold Lock.wakeUpFirst
  cases hws : m.waiters with
  | nil => exact ⟨by simp [hlocked], by simp [hws], by simp [hws]⟩
  | cons w ws =>
      rw [hws] at htail
      by_cases hp : w.future = .pending
      · simp only [hp, if_pos]
        exact ⟨by simp [hlocked], by simp, htail⟩
      · simp only [hp, if_false]
        exact ⟨by simp [hlocked], fun _ => by simpa [hws] using hp, by simpa [hws] using htail⟩

theorem acquire {m : Lock κ} (h : l.acquire? = some m) : m.WellFormed := by
  obtain ⟨_, hall, rfl⟩ := acquire?_eq_some_iff.mp h
  have hwoken : ∀ w ∈ l.waiters, w.future.isWoken = false := by
    intro w hw
    rw [hall w hw]
    rfl
  exact ⟨fun _ => hwoken, by simp, fun w hw => hwoken w (List.mem_of_mem_tail hw)⟩

/-- A task that could not take the lock may wait for it. -/
theorem enqueue {id : Nat} {task : κ} (h : l.WellFormed) (hbusy : l.acquire? = none) :
    (l.enqueue id task).WellFormed := by
  refine ⟨?_, ?_, ?_⟩
  · intro hlocked w hw
    rcases List.mem_append.mp hw with hw | hw
    · exact h.held hlocked w hw
    · obtain rfl := List.mem_singleton.mp hw
      rfl
  · intro hlocked w hw
    cases hws : l.waiters with
    | nil =>
        have hfree : l.locked = false := hlocked
        simp [acquire?, hws, hfree] at hbusy
    | cons v vs => exact h.free hlocked w (by simpa [Lock.enqueue, hws] using hw)
  · intro w hw
    cases hws : l.waiters with
    | nil => simp [Lock.enqueue, hws] at hw
    | cons v vs =>
        have hw' : w ∈ vs ∨ w = ⟨id, task, .pending⟩ := by simpa [Lock.enqueue, hws] using hw
        rcases hw' with hw' | rfl
        · exact h.single w (by simpa [hws] using hw')
        · rfl

theorem release (h : l.WellFormed) : l.release.WellFormed :=
  wakeUpFirst rfl h.single

theorem mem_remove {id : Nat} {w : Waiter κ} (hw : w ∈ (l.remove id).waiters) :
    w ∈ l.waiters :=
  List.eraseP_subset hw

private theorem mem_tail_remove {id : Nat} {w : Waiter κ}
    (hw : w ∈ (l.remove id).waiters.tail) : w ∈ l.waiters.tail := by
  cases hws : l.waiters with
  | nil => simp [remove, hws] at hw
  | cons v vs =>
      by_cases hv : v.id = id
      · exact List.mem_of_mem_tail (by simpa [remove, hws, hv] using hw)
      · exact List.eraseP_subset (by simpa [remove, hws, hv] using hw)

theorem resume {id : Nat} {w : Waiter κ} (h : l.WellFormed) (hw : l.find? id = some w)
    (hf : w.future.isWoken = true) : (l.resume id).WellFormed := by
  obtain ⟨_, hws⟩ := h.of_woken hw hf
  have hwoken : ∀ v ∈ (l.remove id).waiters, v.future.isWoken = false :=
    fun v hv => h.single v (by rw [hws]; exact hv)
  exact ⟨fun _ => hwoken, by simp, fun v hv => hwoken v (List.mem_of_mem_tail hv)⟩

theorem abandon {id : Nat} (h : l.WellFormed) : (l.abandon id).WellFormed := by
  unfold Lock.abandon
  split
  · rename_i hlocked
    refine ⟨fun _ v hv => h.held hlocked v (mem_remove hv), ?_,
      fun v hv => h.single v (mem_tail_remove hv)⟩
    intro hfree
    rw [hlocked] at hfree
    cases hfree
  · rename_i hlocked
    exact wakeUpFirst (by simpa using hlocked) fun v hv => h.single v (mem_tail_remove hv)

theorem cancel {id : Nat} (h : l.WellFormed) : (l.cancel id).WellFormed := by
  have keeps : ∀ (w : Waiter κ),
      (if w.id = id then { w with future := w.future.cancel } else w).future.isWoken =
        w.future.isWoken := by
    intro w
    split <;> simp
  refine ⟨?_, ?_, ?_⟩
  · intro hlocked v hv
    obtain ⟨w, hw, rfl⟩ := List.mem_map.mp hv
    rw [keeps]
    exact h.held hlocked w hw
  · intro hlocked v hv
    cases hws : l.waiters with
    | nil => simp [Lock.cancel, hws] at hv
    | cons w ws =>
        obtain rfl : (if w.id = id then { w with future := w.future.cancel } else w) = v := by
          simpa [Lock.cancel, hws] using hv
        have hw := h.free hlocked w (by simp [hws])
        split <;> simp [hw]
  · intro v hv
    rw [Lock.cancel, ← List.map_tail] at hv
    obtain ⟨w, hw, rfl⟩ := List.mem_map.mp hv
    rw [keeps]
    exact h.single w hw

end WellFormed
end Lock
end Asyncio
