import Rune.Core.LeadsTo
import Rune.Models.Workqueue.Invariant

/-!
# Every added key is delivered

Infinite runs of the workqueue whose workers keep calling `Get` and `Done`. A key
that is dirty stays dirty until a `Get` returns it. Held, it is queued by the
`Done` of its holder; pending, it moves one place forward with every `Get` that
returns a key; and while keys are pending such a `Get` always comes.
-/

namespace Rune.Workqueue

open Rune.Core

/-- The step `a`, ending in `t`, is a `Get` that returns `key`. -/
def Takes {n : ℕ} (a : Action n) (t : System n) (key : String) : Prop :=
  ∃ w, (a = .get w ∨ a = .resume w) ∧ t.workers w = .holding key

/-- The step is one of worker `w` itself. -/
def Action.Of {n : ℕ} (a : Action n) (w : Fin n) : Prop :=
  a = .get w ∨ a = .resume w ∨ ∃ wake, a = .done w wake

namespace System

variable {n : ℕ} {s t : System n} {a : Action n} {key : String}

/-- An addition only grows the queue. -/
theorem add_grows (q : Queue) (key : String) :
    q.order <+: (q.add key).1.order ∧ q.dirty ⊆ (q.add key).1.dirty := by
  unfold Queue.add
  split_ifs
  · exact ⟨List.prefix_rfl, subset_rfl⟩
  · exact ⟨List.prefix_rfl, subset_rfl⟩
  · exact ⟨List.prefix_rfl, Finset.subset_insert _ _⟩
  · exact ⟨List.prefix_append _ _, Finset.subset_insert _ _⟩

/-- So does a return. -/
theorem done_grows (q : Queue) (key : String) :
    q.order <+: (q.done key).1.order ∧ q.dirty ⊆ (q.done key).1.dirty := by
  unfold Queue.done
  split_ifs
  · exact ⟨List.prefix_append _ _, subset_rfl⟩
  · exact ⟨List.prefix_rfl, subset_rfl⟩

/-- The loop of `Get` takes the oldest key, or finds the queue empty and leaves it. -/
theorem enter_cases (s : System n) (w : Fin n) :
    (∃ key, s.queue.order = key :: (s.enter w).queue.order ∧
      (s.enter w).queue.dirty = s.queue.dirty.erase key ∧ (s.enter w).workers w = .holding key) ∨
    s.queue.order = [] ∧ (s.enter w).queue = s.queue ∧
      ∀ key, (s.enter w).workers w ≠ .holding key := by
  unfold enter
  cases hp : s.queue.pop with
  | none =>
    refine .inr ⟨Queue.pop_eq_none.mp hp, ?_⟩
    split_ifs <;> exact ⟨rfl, by simp⟩
  | some r =>
    obtain ⟨ho, hd, -, -⟩ := Queue.pop_eq_some hp
    exact .inl ⟨r.1, ho, hd, by simp⟩

/-- `Get` moves only its own worker. -/
theorem enter_workers (s : System n) {v w : Fin n} (hne : w ≠ v) :
    (s.enter v).workers w = s.workers w := by
  unfold enter
  cases s.queue.pop with
  | none =>
    split_ifs <;> simp [hne]
  | some r => simp [hne]

/-- A step that is no `Get` takes nothing. -/
theorem not_takes (h : ∀ w, a ≠ .get w ∧ a ≠ .resume w) : ¬ Takes a t key := by
  rintro ⟨w, ha | ha, -⟩
  · exact (h w).1 ha
  · exact (h w).2 ha

/-- What a step does to the pending and the dirty keys. -/
inductive StepKind (s : System n) (a : Action n) (t : System n) : Prop where
  /-- Pending keys are appended to, dirty keys added to. -/
  | grows (ho : s.queue.order <+: t.queue.order) (hd : s.queue.dirty ⊆ t.queue.dirty)
      (hno : ∀ key, ¬ Takes a t key)
  /-- A `Get` takes the oldest pending key. -/
  | takes (key : String) (htake : Takes a t key) (ho : s.queue.order = key :: t.queue.order)
      (hd : t.queue.dirty = s.queue.dirty.erase key)

theorem StepKind.of_enter {w : Fin n} (ha : a = .get w ∨ a = .resume w) :
    StepKind s a (s.enter w) := by
  rcases s.enter_cases w with ⟨key, ho, hd, hw⟩ | ⟨-, hq, hno⟩
  · exact .takes key ⟨w, ha, hw⟩ ho hd
  · refine .grows (by simp [hq]) (by simp [hq]) ?_
    rintro key ⟨v, hv, hk⟩
    have hvw : w = v := by rcases ha with rfl | rfl <;> simpa using hv
    exact hno key (hvw ▸ hk)

/-- Every step is of one kind. -/
theorem step_kind (h : s.step a = some t) : StepKind s a t := by
  cases a with
  | add key wake =>
    obtain ⟨ho, hd⟩ := add_grows s.queue key
    rw [← (install_eq_some h).1] at ho hd
    exact .grows ho hd fun _ => not_takes (by simp)
  | addRateLimited key =>
    cases h
    exact .grows List.prefix_rfl subset_rfl fun _ => not_takes (by simp)
  | fire i wake =>
    simp only [step] at h
    cases hk : s.timers[i]? with
    | none => simp [hk] at h
    | some key =>
      simp only [hk] at h
      obtain ⟨ho, hd⟩ := add_grows s.queue key
      rw [← (install_eq_some h).1] at ho hd
      exact .grows ho hd fun _ => not_takes (by simp)
  | get w =>
    simp only [step, Option.ite_none_right_eq_some, Option.some.injEq] at h
    exact h.2 ▸ .of_enter (.inl rfl)
  | resume w =>
    simp only [step, Option.ite_none_right_eq_some, Option.some.injEq] at h
    exact h.2 ▸ .of_enter (.inr rfl)
  | done w wake =>
    simp only [step] at h
    cases hk : s.workers w with
    | holding key =>
      simp only [hk] at h
      obtain ⟨ho, hd⟩ := done_grows s.queue key
      rw [← (install_eq_some h).1] at ho hd
      exact .grows ho hd fun _ => not_takes (by simp)
    | _ => simp [hk] at h
  | shutDown =>
    cases h
    exact .grows List.prefix_rfl subset_rfl fun _ => not_takes (by simp)
  | idle =>
    cases h
    exact .grows List.prefix_rfl subset_rfl fun _ => not_takes (by simp)

/-- Another party's step leaves a worker that is not waiting where it is. -/
theorem step_worker (h : s.step a = some t) {w : Fin n} (ha : ¬ a.Of w)
    (hw : s.workers w ≠ .waiting) : t.workers w = s.workers w := by
  cases a with
  | add key wake => exact (install_eq_some h).2.2.1.eq_of_ne_waiting hw
  | addRateLimited key =>
    cases h
    rfl
  | fire i wake =>
    simp only [step] at h
    cases hk : s.timers[i]? with
    | none => simp [hk] at h
    | some key =>
      simp only [hk] at h
      exact (install_eq_some h).2.2.1.eq_of_ne_waiting hw
  | get v =>
    have hne : w ≠ v := fun he => ha (he ▸ .inl rfl)
    simp only [step, Option.ite_none_right_eq_some, Option.some.injEq] at h
    rw [← h.2, enter_workers s hne]
  | resume v =>
    have hne : w ≠ v := fun he => ha (he ▸ .inr (.inl rfl))
    simp only [step, Option.ite_none_right_eq_some, Option.some.injEq] at h
    rw [← h.2, enter_workers s hne]
  | done v wake =>
    have hne : w ≠ v := fun he => ha (he ▸ .inr (.inr ⟨wake, rfl⟩))
    simp only [step] at h
    cases hk : s.workers v with
    | holding key =>
      simp only [hk] at h
      rw [(install_eq_some h).2.2.1.eq_of_ne_waiting (by simpa [hne] using hw)]
      simp [hne]
    | _ => simp [hk] at h
  | shutDown =>
    cases h
    simp [broadcast, hw]
  | idle =>
    cases h
    rfl

/-- A `Get` on a queue with pending keys returns one. -/
theorem takes_of_get (h : s.step a = some t) {w : Fin n} (ha : a = .get w ∨ a = .resume w)
    (ho : s.queue.order ≠ []) : ∃ key, Takes a t key := by
  have ht : s.enter w = t := by
    rcases ha with rfl | rfl <;>
      simp only [step, Option.ite_none_right_eq_some, Option.some.injEq] at h <;> exact h.2
  rcases s.enter_cases w with ⟨key, -, -, hw⟩ | ⟨he, -, -⟩
  · exact ⟨key, w, ha, ht ▸ hw⟩
  · exact absurd he ho

/-- `Done` leaves its worker outside and queues a key that was added meanwhile. -/
theorem step_done {w wake : Fin n} (h : s.step (.done w wake) = some t)
    (hw : s.workers w = .holding key) :
    t.workers w = .outside ∧ (key ∈ s.queue.dirty → key ∈ t.queue.order) := by
  simp only [step, hw] at h
  obtain ⟨hq, -, hwakes, -⟩ := install_eq_some h
  refine ⟨?_, fun hd => ?_⟩
  · rw [hwakes.eq_of_ne_waiting (by simp)]
    simp
  · simp [hq, Queue.done, hd]

/-- An `Add` on a running queue leaves its key dirty. -/
theorem install_add_dirty {timers : List String} {wake : Fin n}
    (h : ({ s with timers := timers } : System n).install (s.queue.add key) wake = some t)
    (hrun : s.queue.shuttingDown = false) : key ∈ t.queue.dirty := by
  rw [(install_eq_some h).1]
  unfold Queue.add
  split_ifs with hdown hdirty
  · simp [hrun] at hdown
  · exact hdirty
  · exact Finset.mem_insert_self _ _
  · exact Finset.mem_insert_self _ _

end System

/-- An infinite run from a new queue. -/
structure Run (n : ℕ) where
  state : ℕ → System n
  act : ℕ → Action n
  start : state 0 = {}
  step : ∀ t, (state t).step (act t) = some (state (t + 1))

namespace Run

variable {n : ℕ} (r : Run n)

/-- Workers keep calling `Get` and `Done`: one outside `Get` calls it, one that is woken runs on,
one that holds a key is done with it some day. After a shutdown they need not come back. -/
structure Fair : Prop where
  get : ∀ t w, (r.state t).workers w = .outside → ∃ m, t ≤ m ∧ r.act m = .get w
  resume : ∀ t w, (r.state t).workers w = .woken → ∃ m, t ≤ m ∧ r.act m = .resume w
  done : ∀ t w key, (r.state t).workers w = .holding key →
    ∃ m, t ≤ m ∧ ∃ wake, r.act m = .done w wake

/-- Step `t` is an `Add` of `key`, called by a producer or by a timer. -/
def Adds (t : ℕ) (key : String) : Prop :=
  (∃ wake, r.act t = .add key wake) ∨
    ∃ i wake, r.act t = .fire i wake ∧ (r.state t).timers[i]? = some key

/-- Step `t` is a `Get` that returns `key`. -/
def Takes (t : ℕ) (key : String) : Prop := Workqueue.Takes (r.act t) (r.state (t + 1)) key

variable {r}

/-- Every state of a run is sound. -/
theorem sound (t : ℕ) : (r.state t).Sound := by
  induction t with
  | zero => exact r.start ▸ System.Sound.start
  | succ t ih => exact ih.step (r.step t)

theorem Adds.dirty {t : ℕ} {key : String} (h : r.Adds t key)
    (hrun : (r.state t).queue.shuttingDown = false) :
    key ∈ (r.state (t + 1)).queue.dirty := by
  have hstep := r.step t
  rcases h with ⟨wake, ha⟩ | ⟨i, wake, ha, hk⟩
  · rw [ha] at hstep
    exact System.install_add_dirty hstep hrun
  · simp only [ha, System.step, hk] at hstep
    exact System.install_add_dirty hstep hrun

/-- Pending keys stay pending over a step at which no `Get` returns a key. -/
theorem order_isPrefix {t : ℕ} (hno : ∀ key, ¬ r.Takes t key) :
    (r.state t).queue.order <+: (r.state (t + 1)).queue.order := by
  cases System.step_kind (r.step t) with
  | grows ho hd hnone => exact ho
  | takes key htake ho hd => exact absurd htake (hno key)

/-- A worker that is not waiting and takes a step some day finds the keys still
pending then, unless another worker's `Get` returned one before. -/
theorem exists_first_call {t : ℕ} {w : Fin n} {x : Worker} (hx : x ≠ .waiting)
    (hw : (r.state t).workers w = x) (ho : (r.state t).queue.order ≠ [])
    (hfair : ∃ m, t ≤ m ∧ (r.act m).Of w) :
    ∃ m, t ≤ m ∧ ((r.state m).workers w = x ∧ (r.state m).queue.order ≠ []) ∧
      ((∃ key, r.Takes m key) ∨ (r.act m).Of w) := by
  refine holds_at_first_event ⟨hw, ho⟩ ?_ ?_
  · rintro m - ⟨hw, ho⟩ hno
    rw [not_or, not_exists] at hno
    refine ⟨?_, fun hnil => ho ?_⟩
    · rw [System.step_worker (r.step m) hno.2 (hw ▸ hx), hw]
    · exact List.prefix_nil.mp (hnil ▸ order_isPrefix hno.1)
  · obtain ⟨m, htm, hof⟩ := hfair
    exact ⟨m, htm, .inr hof⟩

/-- A worker that holds no key has no `Done` to call. -/
theorem calls_get {m : ℕ} {w : Fin n} (hw : ∀ key, (r.state m).workers w ≠ .holding key)
    (hof : (r.act m).Of w) : r.act m = .get w ∨ r.act m = .resume w := by
  rcases hof with ha | ha | ⟨wake, ha⟩
  · exact .inl ha
  · exact .inr ha
  · have hstep := r.step m
    simp only [ha, System.step] at hstep
    cases hx : (r.state m).workers w with
    | holding key => exact absurd hx (hw key)
    | _ => simp at hstep

/-- A worker that holds a key calls nothing but `Done`. -/
theorem calls_done {m : ℕ} {w : Fin n} {key : String}
    (hw : (r.state m).workers w = .holding key) (hof : (r.act m).Of w) :
    ∃ wake, r.act m = .done w wake := by
  have hstep := r.step m
  rcases hof with ha | ha | ha
  · simp [ha, System.step, hw] at hstep
  · simp [ha, System.step, hw] at hstep
  · exact ha

/-- A worker on its way to the queue gets a key there, or another one did before it. -/
theorem exists_takes_of_calls {t : ℕ} {w : Fin n} {x : Worker} (hx : x ≠ .waiting)
    (hnone : ∀ key, x ≠ .holding key) (hw : (r.state t).workers w = x)
    (ho : (r.state t).queue.order ≠ []) (hfair : ∃ m, t ≤ m ∧ (r.act m).Of w) :
    ∃ m, t ≤ m ∧ ∃ key, r.Takes m key := by
  obtain ⟨m, htm, ⟨hwm, hom⟩, htake | hof⟩ := exists_first_call hx hw ho hfair
  · exact ⟨m, htm, htake⟩
  · exact ⟨m, htm, System.takes_of_get (r.step m) (calls_get (hwm ▸ hnone) hof) hom⟩

namespace Fair

theorem exists_takes_of_outside (hf : r.Fair) {t : ℕ} {w : Fin n}
    (hw : (r.state t).workers w = .outside) (ho : (r.state t).queue.order ≠ []) :
    ∃ m, t ≤ m ∧ ∃ key, r.Takes m key := by
  refine exists_takes_of_calls (by simp) (by simp) hw ho ?_
  obtain ⟨m, htm, ha⟩ := hf.get t w hw
  exact ⟨m, htm, .inl ha⟩

/-- While keys are pending, a `Get` that returns one always comes. -/
theorem exists_takes (hf : r.Fair) (hn : 0 < n) {t : ℕ}
    (ho : (r.state t).queue.order ≠ []) : ∃ m, t ≤ m ∧ ∃ key, r.Takes m key := by
  obtain ⟨w, hw⟩ := (sound t).awake hn ho
  cases hx : (r.state t).workers w with
  | outside => exact hf.exists_takes_of_outside hx ho
  | woken =>
    refine exists_takes_of_calls (by simp) (by simp) hx ho ?_
    obtain ⟨m, htm, ha⟩ := hf.resume t w hx
    exact ⟨m, htm, .inr (.inl ha)⟩
  | holding key =>
    have hfair : ∃ m, t ≤ m ∧ (r.act m).Of w := by
      obtain ⟨m, htm, ha⟩ := hf.done t w key hx
      exact ⟨m, htm, .inr (.inr ha)⟩
    obtain ⟨m, htm, ⟨hwm, hom⟩, htake | hof⟩ := exists_first_call (by simp) hx ho hfair
    · exact ⟨m, htm, htake⟩
    · obtain ⟨wake, ha⟩ := calls_done hwm hof
      have hstep := r.step m
      rw [ha] at hstep
      have hno : ∀ key, ¬ r.Takes m key := by
        rintro key ⟨v, hv, -⟩
        simp [ha] at hv
      have hom' : (r.state (m + 1)).queue.order ≠ [] := fun hnil =>
        hom (List.prefix_nil.mp (hnil ▸ order_isPrefix hno))
      obtain ⟨k, hmk, htake⟩ :=
        hf.exists_takes_of_outside (System.step_done hstep hwm).1 hom'
      exact ⟨k, by omega, htake⟩
  | waiting | stopped => simp [hx, Worker.Active] at hw

/-- A pending key is returned by a `Get`: the keys before it become fewer with every
`Get` that returns another one. -/
theorem takes_of_order (hf : r.Fair) (hn : 0 < n) (key : String) :
    LeadsTo (fun t => key ∈ (r.state t).queue.order) (fun t => r.Takes t key) := by
  refine LeadsTo.of_rank (fun t => (r.state t).queue.order.idxOf key) fun t hkey => ?_
  obtain ⟨m, htm, ⟨hm, hidx⟩, other, htake⟩ := holds_at_first_event
    (p := fun m => key ∈ (r.state m).queue.order ∧
      (r.state m).queue.order.idxOf key = (r.state t).queue.order.idxOf key)
    (e := fun m => ∃ other, r.Takes m other) ⟨hkey, rfl⟩
    (fun m _ hm hno => by
      obtain ⟨rest, hrest⟩ := order_isPrefix (not_exists.mp hno)
      rw [← hrest, List.idxOf_append_of_mem hm.1]
      exact ⟨List.mem_append_left _ hm.1, hm.2⟩)
    (hf.exists_takes hn (List.ne_nil_of_mem hkey))
  cases System.step_kind (r.step m) with
  | grows ho hd hno => exact absurd htake (hno other)
  | takes first htake ho hd =>
    by_cases he : first = key
    · exact ⟨m, htm, .inl (he ▸ htake)⟩
    · rw [ho] at hm hidx
      refine ⟨m + 1, by omega, .inr ⟨(List.mem_cons.mp hm).resolve_left (Ne.symm he), ?_⟩⟩
      rw [List.idxOf_cons_ne _ he] at hidx
      omega

/-- A dirty key is pending some day: while a worker holds it, it stays dirty, and the
`Done` of that worker queues it. -/
theorem order_of_dirty (hf : r.Fair) (key : String) :
    LeadsTo (fun t => key ∈ (r.state t).queue.dirty)
      (fun t => key ∈ (r.state t).queue.order) := by
  intro t hdirty
  by_cases ho : key ∈ (r.state t).queue.order
  · exact ⟨t, le_rfl, ho⟩
  obtain ⟨w, hw⟩ := ((sound t).processing_iff key).mp
    ((sound t).queue.processing_of_dirty key hdirty ho)
  obtain ⟨m, htm, ⟨hwm, hdm⟩, hof⟩ := holds_at_first_event
    (p := fun m => (r.state m).workers w = .holding key ∧ key ∈ (r.state m).queue.dirty)
    (e := fun m => (r.act m).Of w) ⟨hw, hdirty⟩
    (fun m _ hm hno => by
      refine ⟨by rw [System.step_worker (r.step m) hno (by simp [hm.1]), hm.1], ?_⟩
      cases System.step_kind (r.step m) with
      | grows ho hd hnone => exact hd hm.2
      | takes first htake ho hd =>
        have hheld := ((sound m).processing_iff key).mpr ⟨w, hm.1⟩
        refine hd ▸ Finset.mem_erase.mpr ⟨?_, hm.2⟩
        rintro rfl
        exact (sound m).queue.free_of_order key (by simp [ho]) hheld)
    (by
      obtain ⟨m, htm, ha⟩ := hf.done t w key hw
      exact ⟨m, htm, .inr (.inr ha)⟩)
  obtain ⟨wake, ha⟩ := calls_done hwm hof
  have hstep := r.step m
  rw [ha] at hstep
  exact ⟨m + 1, by omega, (System.step_done hstep hwm).2 hdm⟩

end Fair

end Run

/-- In every run the three collections fit together and no key is held by two workers; and in
every infinite run whose workers keep calling `Get` and `Done`, an `Add` made before the shutdown
is followed by a `Get` that returns its key. -/
theorem keys_exclusive_and_delivered (n : ℕ) :
    (∀ (acts : List (Action n)) (s : System n), exec System.step {} acts = some s →
      s.queue.order.Nodup ∧
      (∀ k ∈ s.queue.order, k ∈ s.queue.dirty) ∧
      (∀ k ∈ s.queue.order, k ∉ s.queue.processing) ∧
      (∀ k ∈ s.queue.dirty, k ∉ s.queue.order → k ∈ s.queue.processing) ∧
      ∀ k i j, s.workers i = .holding k → s.workers j = .holding k → i = j) ∧
    (0 < n → ∀ r : Run n, r.Fair → ∀ t key, r.Adds t key →
      (r.state t).queue.shuttingDown = false → ∃ m, t < m ∧ r.Takes m key) := by
  refine ⟨fun acts s hs => ?_, fun hn r hf t key hadd hrun => ?_⟩
  · have h := System.Sound.exec hs
    exact ⟨h.queue.nodup, h.queue.dirty_of_order, h.queue.free_of_order,
      h.queue.processing_of_dirty, h.alone⟩
  · have hlead := (hf.order_of_dirty key).trans (hf.takes_of_order hn key)
    obtain ⟨m, htm, htake⟩ := hlead (t + 1) (hadd.dirty hrun)
    exact ⟨m, htm, htake⟩

/-- The step is no `Get` that returns the key. -/
def Untaken {n : ℕ} (key : String) (s : System n) (a : Action n) : Prop :=
  ∀ t, s.step a = some t → ¬ Takes a t key

/-- A shutdown loses no key. When every worker has been told of it, nothing is pending or held, and
a key that needed a run at some moment was returned by a `Get` after that moment. -/
theorem shutdown_delivers {n : ℕ} (hn : 0 < n) {first rest : List (Action n)} {u s : System n}
    (hu : exec System.step {} first = some u) (hs : exec System.step u rest = some s)
    (hstop : ∀ i, s.workers i = .stopped) :
    s.queue.order = [] ∧ s.queue.processing = ∅ ∧
      ∀ key ∈ u.queue.dirty, ¬ Along System.step (Untaken key) u rest := by
  have hsound := System.Sound.exec (exec_append.mpr ⟨u, hu, hs⟩)
  have horder : s.queue.order = [] := by
    by_contra hne
    obtain ⟨i, hi⟩ := hsound.awake hn hne
    rw [hstop i] at hi
    exact hi
  have hprocessing : ∀ k, k ∉ s.queue.processing := by
    intro k hk
    obtain ⟨i, hi⟩ := (hsound.processing_iff k).mp hk
    rw [hstop i] at hi
    cases hi
  refine ⟨horder, Finset.eq_empty_of_forall_notMem hprocessing, fun key hkey huntaken => ?_⟩
  have hkeep : ∀ (v : System n) a w, key ∈ v.queue.dirty → Untaken key v a → v.step a = some w →
      key ∈ w.queue.dirty := by
    intro v a w hv hno hstep
    cases System.step_kind hstep with
    | grows _ hd _ => exact hd hv
    | takes taken htake _ hd =>
      rw [hd]
      refine Finset.mem_erase_of_ne_of_mem ?_ hv
      rintro rfl
      exact hno w hstep htake
  have hdirty := exec_invariant_along hkeep hkey huntaken hs
  exact hprocessing key (hsound.queue.processing_of_dirty key hdirty (by simp [horder]))

/-- A worker runs the key that was added before the shutdown, and leaves. -/
theorem shutdown_delivers_web : ∃ u : System 1, exec System.step {} [.add "web" 0] = some u ∧
    ¬ Along System.step (Untaken "web") u [.shutDown, .get 0, .done 0 0, .get 0] := by
  have hu : exec System.step ({} : System 1) [.add "web" 0] = some _ := rfl
  exact ⟨_, hu, (shutdown_delivers Nat.one_pos hu rfl (by decide)).2.2 "web" (by decide)⟩

/-- The states while one worker and one producer take turns for ever. -/
def turnsState (t : ℕ) : System 1 :=
  match t % 3 with
  | 0 => {}
  | 1 => { queue := { order := ["web"], dirty := {"web"} } }
  | _ => { queue := { processing := {"web"} }, workers := fun _ => .holding "web" }

/-- Their turns: `Add`, `Get`, `Done`. -/
def turnsAct (t : ℕ) : Action 1 :=
  match t % 3 with
  | 0 => .add "web" (Fin.last 0)
  | 1 => .get (Fin.last 0)
  | _ => .done (Fin.last 0) (Fin.last 0)

/-- The example steps. -/
theorem turnsState_step (t : ℕ) :
    (turnsState t).step (turnsAct t) = some (turnsState (t + 1)) := by
  have h : t % 3 = 0 ∨ t % 3 = 1 ∨ t % 3 = 2 := by omega
  rcases h with h | h | h
  · have h' : (t + 1) % 3 = 1 := by omega
    simp only [turnsState, turnsAct, h, h']
    decide
  · have h' : (t + 1) % 3 = 2 := by omega
    simp [turnsState, turnsAct, h, h', System.step, System.enter, Queue.pop,
      Function.update_eq_const_of_subsingleton]
    rfl
  · have h' : (t + 1) % 3 = 0 := by omega
    simp [turnsState, turnsAct, h, h', System.step, System.install, Queue.done,
      Function.update_eq_const_of_subsingleton]
    rfl

/-- The run in which one worker takes turns. -/
def turns : Run 1 where
  state := turnsState
  act := turnsAct
  start := rfl
  step := turnsState_step

/-- The example is fair. -/
theorem turns_fair : turns.Fair where
  get t w _ := ⟨3 * t + 1, by omega, by
    have h : (3 * t + 1) % 3 = 1 := by omega
    simp only [turns, turnsAct, h, Subsingleton.elim w (Fin.last 0)]⟩
  resume t w hw := by
    revert hw
    have h : t % 3 = 0 ∨ t % 3 = 1 ∨ t % 3 = 2 := by omega
    rcases h with h | h | h <;> simp [turns, turnsState, h]
  done t w _ _ := ⟨3 * t + 2, by omega, Fin.last 0, by
    have h : (3 * t + 2) % 3 = 2 := by omega
    simp only [turns, turnsAct, h, Subsingleton.elim w (Fin.last 0)]⟩

/-- The example delivers. -/
theorem turns_delivers : ∃ m, 0 < m ∧ turns.Takes m "web" :=
  (keys_exclusive_and_delivered 1).2 (by decide) turns turns_fair 0 "web" (.inl ⟨0, rfl⟩) rfl

/-- The calls when a worker waits already at the one `Add`: its `Get` returns the key, and the
next one waits for ever. -/
def lateAct : ℕ → Action 1
  | 0 => .get 0
  | 1 => .add "web" 0
  | 2 => .resume 0
  | 3 => .done 0 0
  | 4 => .get 0
  | _ => .idle

/-- The states of this run. -/
def lateState : ℕ → System 1
  | 0 => {}
  | t + 1 => ((lateState t).step (lateAct t)).getD {}

/-- The run in which the only `Get` to return the key was called before the `Add`. -/
def late : Run 1 where
  state := lateState
  act := lateAct
  start := rfl
  step t := match t with
    | 0 | 1 | 2 | 3 | 4 => rfl
    | _ + 5 => rfl

/-- The worker waits for ever. -/
theorem late_waits (t : ℕ) : (late.state (t + 5)).workers 0 = .waiting := by
  induction t with
  | zero => rfl
  | succ t ih => exact ih

/-- The run is fair. -/
theorem late_fair : late.Fair where
  get t w hw := match t with
    | 0 => ⟨0, le_rfl, congrArg Action.get (Subsingleton.elim _ _)⟩
    | 1 | 2 | 3 | 4 => ⟨4, by decide, congrArg Action.get (Subsingleton.elim _ _)⟩
    | t + 5 => by
      rw [Subsingleton.elim w 0, late_waits] at hw
      cases hw
  resume t w hw := match t with
    | 0 | 1 | 2 => ⟨2, by decide, congrArg Action.resume (Subsingleton.elim _ _)⟩
    | 3 | 4 => by
      rw [Subsingleton.elim w 0] at hw
      cases hw
    | t + 5 => by
      rw [Subsingleton.elim w 0, late_waits] at hw
      cases hw
  done t w key hw := match t with
    | 0 | 1 | 2 | 3 => ⟨3, by decide, 0, congrArg (Action.done · 0) (Subsingleton.elim _ _)⟩
    | 4 => by
      rw [Subsingleton.elim w 0] at hw
      cases hw
    | t + 5 => by
      rw [Subsingleton.elim w 0, late_waits] at hw
      cases hw

/-- The key is returned once, by a `Get` that was called before the `Add`. -/
theorem earlier_get_returns_key : late.Fair ∧ late.act 0 = .get 0 ∧ late.Adds 1 "web" ∧
    (late.state 1).queue.shuttingDown = false ∧ late.act 2 = .resume 0 ∧
    ∀ m, late.Takes m "web" ↔ m = 2 := by
  refine ⟨late_fair, rfl, .inl ⟨0, rfl⟩, rfl, rfl, fun m => ⟨?_, ?_⟩⟩
  · rintro ⟨w, hact, hw⟩
    match m with
    | 2 => rfl
    | 0 | 4 =>
      rw [Subsingleton.elim w 0] at hw
      cases hw
    | 1 | 3 => rcases hact with hact | hact <;> cases hact
    | m + 5 => rcases hact with hact | hact <;> cases hact
  · rintro rfl
    exact ⟨0, .inr rfl, rfl⟩

end Rune.Workqueue
