import Rune.Models.Workqueue.Machine

/-!
# What holds of the workqueue in every run

The collections of the queue agree with each other and with what the workers
hold, and a queue with pending keys has a worker that will come back to it: no
wakeup is lost for good.
-/

namespace Rune.Workqueue

open Rune.Core

/-- The three collections fit together. -/
structure Queue.Sound (q : Queue) : Prop where
  nodup : q.order.Nodup
  dirty_of_order : ∀ k ∈ q.order, k ∈ q.dirty
  free_of_order : ∀ k ∈ q.order, k ∉ q.processing
  processing_of_dirty : ∀ k ∈ q.dirty, k ∉ q.order → k ∈ q.processing

namespace Queue.Sound

variable {q : Queue}

/-- A key that is neither pending nor held can be queued. -/
theorem push (h : q.Sound) {key : String} {dirty processing : Finset String}
    (hkey : key ∉ q.order) (hdirty : ∀ k, k ∈ dirty ↔ k = key ∨ k ∈ q.dirty)
    (hproc : ∀ k, k ∈ processing ↔ k ≠ key ∧ k ∈ q.processing) :
    ({ q with order := q.order ++ [key], dirty := dirty, processing := processing } :
      Queue).Sound where
  nodup := by
    simpa [List.nodup_append, h.nodup] using fun k hk (he : k = key) => hkey (he ▸ hk)
  dirty_of_order := by
    intro k hk
    rw [hdirty]
    rcases List.mem_append.mp hk with hk | hk
    · exact .inr (h.dirty_of_order k hk)
    · exact .inl (List.mem_singleton.mp hk)
  free_of_order := by
    intro k hk
    rw [hproc]
    rintro ⟨hne, hp⟩
    rcases List.mem_append.mp hk with hk | hk
    · exact h.free_of_order k hk hp
    · exact hne (List.mem_singleton.mp hk)
  processing_of_dirty := by
    intro k hk hno
    simp only [List.mem_append, List.mem_singleton, not_or] at hno
    exact (hproc k).mpr
      ⟨hno.2, h.processing_of_dirty k (((hdirty k).mp hk).resolve_left hno.2) hno.1⟩

/-- A key is added. -/
theorem add (h : q.Sound) (key : String) : (q.add key).1.Sound := by
  unfold Queue.add
  split_ifs with hdown hdirty hproc
  · exact h
  · exact h
  · exact {
      nodup := h.nodup
      dirty_of_order := fun k hk => Finset.mem_insert_of_mem (h.dirty_of_order k hk)
      free_of_order := h.free_of_order
      processing_of_dirty := by
        intro k hk hno
        rcases Finset.mem_insert.mp hk with rfl | hk
        · exact hproc
        · exact h.processing_of_dirty k hk hno }
  · refine h.push (fun hk => hdirty (h.dirty_of_order key hk)) (by simp) fun k => ?_
    exact ⟨fun hk => ⟨fun he => hproc (he ▸ hk), hk⟩, And.right⟩

/-- A key is done. -/
theorem done (h : q.Sound) {key : String} (hkey : key ∈ q.processing) :
    (q.done key).1.Sound := by
  unfold Queue.done
  split_ifs with hdirty
  · refine h.push (fun hk => h.free_of_order key hk hkey) (fun k => ?_) (by simp)
    exact ⟨.inr, fun hk => hk.elim (fun he => he ▸ hdirty) id⟩
  · exact {
      nodup := h.nodup
      dirty_of_order := h.dirty_of_order
      free_of_order := fun k hk hp => h.free_of_order k hk (Finset.mem_of_mem_erase hp)
      processing_of_dirty := by
        intro k hk hno
        refine Finset.mem_erase.mpr ⟨?_, h.processing_of_dirty k hk hno⟩
        rintro rfl
        exact hdirty hk }

/-- A key is taken. -/
theorem pop (h : q.Sound) {key : String} {q' : Queue} (hp : q.pop = some (key, q')) :
    q'.Sound := by
  unfold Queue.pop at hp
  cases ho : q.order with
  | nil => simp [ho] at hp
  | cons k rest =>
    simp only [ho, Option.some.injEq, Prod.mk.injEq] at hp
    obtain ⟨rfl, rfl⟩ := hp
    have hnodup := List.nodup_cons.mp (ho ▸ h.nodup)
    exact {
      nodup := hnodup.2
      dirty_of_order := by
        intro j hj
        refine Finset.mem_erase.mpr ⟨?_, h.dirty_of_order j (ho ▸ List.mem_cons_of_mem k hj)⟩
        rintro rfl
        exact hnodup.1 hj
      free_of_order := by
        intro j hj hp
        rcases Finset.mem_insert.mp hp with rfl | hp
        · exact hnodup.1 hj
        · exact h.free_of_order j (ho ▸ List.mem_cons_of_mem k hj) hp
      processing_of_dirty := by
        intro j hj hno
        obtain ⟨hne, hj⟩ := Finset.mem_erase.mp hj
        refine Finset.mem_insert_of_mem (h.processing_of_dirty j hj ?_)
        simpa [ho, hne] using hno }

end Queue.Sound

namespace Queue

variable {q q' : Queue} {key : String}

@[simp] theorem add_processing : (q.add key).1.processing = q.processing := by
  unfold add
  split_ifs <;> rfl

@[simp] theorem add_shuttingDown : (q.add key).1.shuttingDown = q.shuttingDown := by
  unfold add
  split_ifs <;> rfl

@[simp] theorem done_processing : (q.done key).1.processing = q.processing.erase key := by
  unfold done
  split_ifs <;> rfl

@[simp] theorem done_shuttingDown : (q.done key).1.shuttingDown = q.shuttingDown := by
  unfold done
  split_ifs <;> rfl

/-- An `Add` that does not signal queues nothing. -/
theorem add_order (hsig : (q.add key).2 = false) : (q.add key).1.order = q.order := by
  revert hsig
  unfold add
  split_ifs <;> simp

/-- A queue that shuts down takes no new key. -/
theorem running_of_add_signals (hsig : (q.add key).2 = true) : q.shuttingDown = false := by
  revert hsig
  unfold add
  split_ifs with hdown <;> simp_all

/-- What `Get` pops is the head of the order. -/
theorem pop_eq_some (h : q.pop = some (key, q')) :
    q.order = key :: q'.order ∧ q'.dirty = q.dirty.erase key ∧
      q'.processing = insert key q.processing ∧ q'.shuttingDown = q.shuttingDown := by
  unfold pop at h
  cases ho : q.order with
  | nil => simp [ho] at h
  | cons k rest =>
    simp only [ho, Option.some.injEq, Prod.mk.injEq] at h
    obtain ⟨rfl, rfl⟩ := h
    exact ⟨rfl, rfl, rfl, rfl⟩

theorem pop_eq_none : q.pop = none ↔ q.order = [] := by
  unfold pop
  cases q.order <;> simp

end Queue

/-- A worker that takes its next step without being woken by anyone. -/
def Worker.Active : Worker → Prop
  | .outside | .woken | .holding _ => True
  | .waiting | .stopped => False

theorem Wakes.active {n : ℕ} {before after : Fin n → Worker} (h : Wakes before after)
    {i : Fin n} (hi : (before i).Active) : (after i).Active := by
  obtain h | ⟨-, h⟩ := h i
  · rwa [h]
  · rw [h]
    trivial

/-- The queue and its workers agree. -/
structure System.Sound {n : ℕ} (s : System n) : Prop where
  queue : s.queue.Sound
  /-- The keys being processed are those the workers hold. -/
  processing_iff : ∀ k, k ∈ s.queue.processing ↔ ∃ i, s.workers i = .holding k
  /-- No key is held by two workers. -/
  alone : ∀ k i j, s.workers i = .holding k → s.workers j = .holding k → i = j
  /-- `Get` reports a shutdown only after one. -/
  stopped : ∀ i, s.workers i = .stopped → s.queue.shuttingDown = true
  /-- While keys are pending some worker comes back for them. -/
  awake : 0 < n → s.queue.order ≠ [] → ∃ i, (s.workers i).Active

namespace System.Sound

variable {n : ℕ} {s t : System n}

/-- Where a run starts. -/
theorem start : ({} : System n).Sound where
  queue := ⟨List.nodup_nil, by simp, by simp, by simp⟩
  processing_iff := by simp
  alone := by simp
  stopped := by simp
  awake := by simp

/-- An `Add`, made by a producer or by a timer. -/
theorem add (h : s.Sound) {key : String} {wake : Fin n} {timers : List String}
    (ht : ({ s with timers := timers } : System n).install (s.queue.add key) wake = some t) :
    t.Sound := by
  obtain ⟨hq, -, hw, hsig⟩ := install_eq_some ht
  refine ⟨hq ▸ h.queue.add key, fun k => ?_, fun k i j hi hj => ?_, fun i hi => ?_, ?_⟩
  · simp only [hq, Queue.add_processing, hw.holding_iff]
    exact h.processing_iff k
  · exact h.alone k i j ((hw.holding_iff i k).mp hi) ((hw.holding_iff j k).mp hj)
  · rw [hq, Queue.add_shuttingDown]
    exact h.stopped i ((hw.stopped_iff i).mp hi)
  · intro hn horder
    cases hs : (s.queue.add key).2 with
    | false =>
      rw [hq, Queue.add_order hs] at horder
      obtain ⟨i, hi⟩ := h.awake hn horder
      exact ⟨i, hw.active hi⟩
    | true =>
      rcases hsig hs with ⟨i, hi⟩ | hnone
      · exact ⟨i, by rw [hi]; trivial⟩
      · refine ⟨⟨0, hn⟩, ?_⟩
        have hrun := Queue.running_of_add_signals hs
        have hstop : t.workers ⟨0, hn⟩ ≠ .stopped := fun hi => by
          have := h.stopped _ ((hw.stopped_iff _).mp hi)
          simp [hrun] at this
        have hwait := hnone ⟨0, hn⟩
        cases hc : t.workers ⟨0, hn⟩ with
        | outside | woken | holding => trivial
        | waiting => exact absurd hc hwait
        | stopped => exact absurd hc hstop

/-- A `Done` by the worker that holds the key. -/
theorem done (h : s.Sound) {key : String} {w wake : Fin n} (hkey : s.workers w = .holding key)
    (ht : ({ s with workers := Function.update s.workers w .outside } : System n).install
      (s.queue.done key) wake = some t) : t.Sound := by
  obtain ⟨hq, -, hw, -⟩ := install_eq_some ht
  have hheld : ∀ k i, t.workers i = .holding k ↔ i ≠ w ∧ s.workers i = .holding k := by
    intro k i
    rw [hw.holding_iff]
    by_cases hi : i = w <;> simp [hi]
  refine ⟨hq ▸ h.queue.done ((h.processing_iff key).mpr ⟨w, hkey⟩), fun k => ?_,
    fun k i j hi hj => ?_, fun i hi => ?_, fun _ _ => ⟨w, ?_⟩⟩
  · simp only [hq, Queue.done_processing, Finset.mem_erase, h.processing_iff, hheld]
    constructor
    · rintro ⟨hne, i, hi⟩
      refine ⟨i, ?_, hi⟩
      rintro rfl
      exact hne (by simpa [hkey] using hi.symm)
    · rintro ⟨i, hne, hi⟩
      refine ⟨?_, i, hi⟩
      rintro rfl
      exact hne (h.alone k i w hi hkey)
  · exact h.alone k i j ((hheld k i).mp hi).2 ((hheld k j).mp hj).2
  · rw [hq, Queue.done_shuttingDown]
    have hi := (hw.stopped_iff i).mp hi
    by_cases he : i = w
    · simp [he] at hi
    · exact h.stopped i (by simpa [he] using hi)
  · have houtside : t.workers w = .outside := by
      rw [hw.eq_of_ne_waiting (by simp)]
      simp
    rw [houtside]
    trivial

/-- `Get` on an empty queue: the worker waits, or stops when the queue shuts down. -/
theorem park (h : s.Sound) {w : Fin n} (hw : ∀ k, s.workers w ≠ .holding k)
    (ho : s.queue.order = []) {x : Worker} (hx : ∀ k, x ≠ .holding k)
    (hstop : x = .stopped → s.queue.shuttingDown = true) :
    ({ s with workers := Function.update s.workers w x } : System n).Sound := by
  have hheld : ∀ k i, Function.update s.workers w x i = .holding k ↔ s.workers i = .holding k := by
    intro k i
    by_cases hi : i = w
    · simp [hi, hx k, hw k]
    · simp [hi]
  refine ⟨h.queue, ?_, ?_, fun i hi => ?_, fun _ hne => absurd ho hne⟩
  · simpa only [hheld] using h.processing_iff
  · simpa only [hheld] using h.alone
  · by_cases he : i = w
    · exact hstop (by simpa [he] using hi)
    · exact h.stopped i (by simpa [he] using hi)

/-- `Get`, by a worker that holds nothing. -/
theorem enter (h : s.Sound) {w : Fin n} (hw : ∀ k, s.workers w ≠ .holding k) :
    (s.enter w).Sound := by
  unfold System.enter
  cases hp : s.queue.pop with
  | none =>
    have ho := Queue.pop_eq_none.mp hp
    split_ifs with hdown
    · exact h.park hw ho (by simp) fun _ => hdown
    · exact h.park hw ho (by simp) (by simp)
  | some r =>
    obtain ⟨key, q⟩ := r
    obtain ⟨ho, -, hproc, hdown⟩ := Queue.pop_eq_some hp
    have hfree : ∀ i, s.workers i ≠ .holding key := fun i hi =>
      h.queue.free_of_order key (by simp [ho]) ((h.processing_iff key).mpr ⟨i, hi⟩)
    have hheld : ∀ k i, Function.update s.workers w (.holding key) i = .holding k ↔
        i = w ∧ k = key ∨ s.workers i = .holding k := by
      intro k i
      by_cases hi : i = w
      · simp [hi, hw k, eq_comm]
      · simp [hi]
    refine ⟨h.queue.pop hp, fun k => ?_, fun k i j hi hj => ?_, fun i hi => ?_,
      fun _ _ => ⟨w, by simp [Worker.Active]⟩⟩
    · simp only [hproc, Finset.mem_insert, h.processing_iff, hheld]
      constructor
      · rintro (rfl | ⟨i, hi⟩)
        · exact ⟨w, .inl ⟨rfl, rfl⟩⟩
        · exact ⟨i, .inr hi⟩
      · rintro ⟨i, ⟨-, rfl⟩ | hi⟩
        · exact .inl rfl
        · exact .inr ⟨i, hi⟩
    · rcases (hheld k i).mp hi with ⟨hiw, rfl⟩ | hi'
      · exact hiw.trans (((hheld k j).mp hj).resolve_right (hfree j)).1.symm
      · rcases (hheld k j).mp hj with ⟨-, rfl⟩ | hj'
        · exact absurd hi' (hfree i)
        · exact h.alone k i j hi' hj'
    · rw [hdown]
      by_cases he : i = w
      · simp [he] at hi
      · exact h.stopped i (by simpa [he] using hi)

/-- The queue is shut down. -/
theorem shutDown (h : s.Sound) : ({ s with
    queue := { s.queue with shuttingDown := true }, workers := broadcast s.workers } :
      System n).Sound where
  queue := ⟨h.queue.nodup, h.queue.dirty_of_order, h.queue.free_of_order,
    h.queue.processing_of_dirty⟩
  processing_iff := by
    simpa only [(broadcast_wakes s.workers).holding_iff] using h.processing_iff
  alone := by simpa only [(broadcast_wakes s.workers).holding_iff] using h.alone
  stopped := fun _ _ => rfl
  awake := by
    intro hn horder
    obtain ⟨i, hi⟩ := h.awake hn horder
    exact ⟨i, (broadcast_wakes s.workers).active hi⟩

/-- Every step of a producer, a timer or a worker keeps the invariant. -/
theorem step (h : s.Sound) {a : Action n} (ht : s.step a = some t) : t.Sound := by
  cases a with
  | add key wake => exact h.add ht
  | addRateLimited key =>
    cases ht
    exact ⟨h.queue, h.processing_iff, h.alone, h.stopped, h.awake⟩
  | fire i wake =>
    simp only [System.step] at ht
    cases hk : s.timers[i]? with
    | none => simp [hk] at ht
    | some key =>
      simp only [hk] at ht
      exact h.add ht
  | get w =>
    simp only [System.step, Option.ite_none_right_eq_some, Option.some.injEq] at ht
    obtain ⟨hw, rfl⟩ := ht
    refine h.enter fun k hk => ?_
    rcases hw with hw | hw <;> simp [hw] at hk
  | resume w =>
    simp only [System.step, Option.ite_none_right_eq_some, Option.some.injEq] at ht
    obtain ⟨hw, rfl⟩ := ht
    exact h.enter fun k hk => by simp [hw] at hk
  | done w wake =>
    simp only [System.step] at ht
    cases hk : s.workers w with
    | holding key =>
      simp only [hk] at ht
      exact h.done hk ht
    | _ => simp [hk] at ht
  | shutDown =>
    cases ht
    exact h.shutDown
  | idle =>
    cases ht
    exact h

/-- Every run. -/
theorem exec {acts : List (Action n)} (h : exec System.step {} acts = some s) : s.Sound :=
  exec_invariant (fun _ _ _ hs ht => hs.step ht) start h

end System.Sound

end Rune.Workqueue
