import Rune.Core.Run
import Mathlib.Data.Fintype.Basic

/-!
# The reconcile workqueue

`Queue` is the coalescing per-key queue of the orchestrator. Every method holds the
queue's mutex, so a call is one step; a `Get` that waits takes a second step when it
is woken. Producers, workers and the timers of delayed adds are the environment, and
a run is any interleaving of their steps. Which waiting worker a `Signal` wakes is
not determined.
-/

namespace Rune.Workqueue

open Rune.Core

/-- The collections of a queue, and whether it shuts down. -/
structure Queue where
  /-- The pending keys, oldest first. -/
  order : List String := []
  /-- The keys that need a run: pending ones and those added again while they run. -/
  dirty : Finset String := ∅
  /-- The keys held by a worker. -/
  processing : Finset String := ∅
  shuttingDown : Bool := false
  deriving DecidableEq

namespace Queue

/-- `Add`; the second component says that the condition variable is signalled. -/
def add (q : Queue) (key : String) : Queue × Bool :=
  if q.shuttingDown then (q, false)
  else if key ∈ q.dirty then (q, false)
  else if key ∈ q.processing then ({ q with dirty := insert key q.dirty }, false)
  else ({ q with dirty := insert key q.dirty, order := q.order ++ [key] }, true)

/-- The end of `Get`: pop the oldest pending key. -/
def pop (q : Queue) : Option (String × Queue) :=
  match q.order with
  | [] => none
  | key :: rest =>
    some (key, { q with
      order := rest, dirty := q.dirty.erase key, processing := insert key q.processing })

/-- `Done`; the second component says that the condition variable is signalled. -/
def done (q : Queue) (key : String) : Queue × Bool :=
  if key ∈ q.dirty then
    ({ q with processing := q.processing.erase key, order := q.order ++ [key] }, true)
  else ({ q with processing := q.processing.erase key }, false)

end Queue

/-- Where a worker is in its loop around the queue. -/
inductive Worker where
  /-- Outside `Get`, holding no key. -/
  | outside
  /-- In `Get`, blocked on the condition variable. -/
  | waiting
  /-- In `Get`, woken and about to look at the queue again. -/
  | woken
  /-- `Get` returned this key and `Done` has not been called for it. -/
  | holding (key : String)
  /-- `Get` returned `shutdown`; a worker of `Work` then leaves its loop. -/
  | stopped
  deriving DecidableEq

/-- The queue with its `n` workers and the delayed adds that are still to come. -/
structure System (n : ℕ) where
  queue : Queue := {}
  workers : Fin n → Worker := fun _ => .outside
  /-- The keys of the `AddAfter` timers that have not fired. -/
  timers : List String := []
  deriving DecidableEq

/-- One step of a producer, a timer or a worker. The number `wake` picks the worker
that a `Signal` wakes. -/
inductive Action (n : ℕ) where
  | add (key : String) (wake : Fin n)
  /-- `AddRateLimited` draws a delay and leaves the `Add` to a timer, or to the
  caller's next step when the delay is not positive. -/
  | addRateLimited (key : String)
  | fire (timer : ℕ) (wake : Fin n)
  | get (worker : Fin n)
  | resume (worker : Fin n)
  | done (worker : Fin n) (wake : Fin n)
  | shutDown
  /-- Nothing happens, so that a system that has come to rest has infinite runs too. -/
  | idle

namespace System

variable {n : ℕ}

/-- `cond.Signal`: wake one waiting worker, if there is one. -/
def signal (s : System n) (wake : Fin n) : Option (System n) :=
  if s.workers wake = .waiting then
    some { s with workers := Function.update s.workers wake .woken }
  else if ∃ i, s.workers i = .waiting then none
  else some s

/-- Install the queue a method leaves behind, and signal when the method does. -/
def install (s : System n) (r : Queue × Bool) (wake : Fin n) : Option (System n) :=
  if r.2 then { s with queue := r.1 }.signal wake else some { s with queue := r.1 }

/-- The loop of `Get`, entered at the call or after `cond.Wait`. -/
def enter (s : System n) (w : Fin n) : System n :=
  match s.queue.pop with
  | some (key, q) =>
    { s with queue := q, workers := Function.update s.workers w (.holding key) }
  | none =>
    if s.queue.shuttingDown then { s with workers := Function.update s.workers w .stopped }
    else { s with workers := Function.update s.workers w .waiting }

/-- `cond.Broadcast` wakes every waiting worker. -/
def broadcast (workers : Fin n → Worker) : Fin n → Worker :=
  fun i => if workers i = .waiting then .woken else workers i

/-- One step of the system; `none` where the action is not possible. -/
def step (s : System n) : Action n → Option (System n)
  | .add key wake => s.install (s.queue.add key) wake
  | .addRateLimited key => some { s with timers := s.timers ++ [key] }
  | .fire i wake =>
    match s.timers[i]? with
    | some key => { s with timers := s.timers.eraseIdx i }.install (s.queue.add key) wake
    | none => none
  | .get w =>
    if s.workers w = .outside ∨ s.workers w = .stopped then some (s.enter w) else none
  | .resume w => if s.workers w = .woken then some (s.enter w) else none
  | .done w wake =>
    match s.workers w with
    | .holding key =>
      { s with workers := Function.update s.workers w .outside }.install
        (s.queue.done key) wake
    | _ => none
  | .shutDown => some { s with
      queue := { s.queue with shuttingDown := true }, workers := broadcast s.workers }
  | .idle => some s

end System

/-- Workers change at most from waiting to woken. -/
def Wakes {n : ℕ} (before after : Fin n → Worker) : Prop :=
  ∀ i, after i = before i ∨ before i = .waiting ∧ after i = .woken

namespace Wakes

variable {n : ℕ} {before after : Fin n → Worker}

theorem refl (ws : Fin n → Worker) : Wakes ws ws := fun _ => .inl rfl

/-- A worker that is not waiting stays as it is. -/
theorem eq_of_ne_waiting (h : Wakes before after) {i : Fin n} (hi : before i ≠ .waiting) :
    after i = before i := by
  obtain h | ⟨h, -⟩ := h i
  · exact h
  · exact absurd h hi

theorem holding_iff (h : Wakes before after) (i : Fin n) (key : String) :
    after i = .holding key ↔ before i = .holding key := by
  obtain h | ⟨h, h'⟩ := h i <;> simp_all

theorem stopped_iff (h : Wakes before after) (i : Fin n) :
    after i = .stopped ↔ before i = .stopped := by
  obtain h | ⟨h, h'⟩ := h i <;> simp_all

end Wakes

namespace System

variable {n : ℕ} {s t : System n} {r : Queue × Bool} {wake : Fin n}

/-- A broadcast wakes. -/
theorem broadcast_wakes (ws : Fin n → Worker) : Wakes ws (broadcast ws) := by
  intro i
  by_cases h : ws i = .waiting <;> simp [broadcast, h]

/-- A method leaves its queue, touches no timer, wakes at most waiting workers, and
a signal leaves one woken worker or found none waiting. -/
theorem install_eq_some (h : s.install r wake = some t) :
    t.queue = r.1 ∧ t.timers = s.timers ∧ Wakes s.workers t.workers ∧
      (r.2 = true → (∃ i, t.workers i = .woken) ∨ ∀ i, t.workers i ≠ .waiting) := by
  simp only [install, signal] at h
  split_ifs at h with hsig hwait hsome
  · cases h
    refine ⟨rfl, rfl, fun i => ?_, fun _ => .inl ⟨wake, by simp⟩⟩
    by_cases hi : i = wake
    · subst hi
      exact .inr ⟨hwait, by simp⟩
    · exact .inl (by simp [hi])
  · cases h
    exact ⟨rfl, rfl, Wakes.refl _, fun _ => .inr fun i hi => hsome ⟨i, hi⟩⟩
  · cases h
    exact ⟨rfl, rfl, Wakes.refl _, fun h => absurd h hsig⟩

end System

end Rune.Workqueue
