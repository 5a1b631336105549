import Rune.Core.Run
import Rune.Models.Scaling.Operation

/-!
# Several operations on one service

The watch loop handles the operations of a service one after the other, in the order of their
creation. It writes the scale of an immediate operation itself and starts a goroutine for a
gradual one, which keeps stepping to its own target while the loop goes on; a gradual operation
that finds one registered is refused and keeps its row. The last operation wins as long as the
loop takes up none while a goroutine is registered.
-/

namespace Rune.Scaling

open Rune.Core Rune.Services List

/-- What the watch loop still has to write for the operation it handles, by the index of
the row and the event's own copy. -/
inductive Loop
  | idle
  | completing (i : ℕ) (op : Operation)
  | applying (op : Operation)
  deriving DecidableEq

/-- A service and its operations in the order of their creation. The rows up to `handled`
have been taken up by the watch loop. -/
structure System where
  service : Service
  ops : List Operation := []
  handled : ℕ := 0
  loop : Loop := .idle
  /-- The goroutine that is registered for the service. -/
  worker : Option (ℕ × Worker) := none
  crashed : Bool := false
  deriving DecidableEq

/-- What can happen. -/
inductive Action
  | create (p : ScalingOperationParams)
  | handle
  | proceed
  | work

namespace System

/-- Take up the next operation. -/
def processScalingOperationEvent (s : System) : Option System :=
  match s.loop, s.ops[s.handled]? with
  | .idle, some op =>
    match op.mode with
    | .gradual =>
      some { s with
        handled := s.handled + 1
        worker := some (s.worker.getD (s.handled, { op := op })) }
    | .immediate =>
      some { s with handled := s.handled + 1, loop := .completing s.handled op }
  | _, _ => none

/-- The next write of the loop for an immediate operation. -/
def proceed (s : System) : Option System :=
  match s.loop with
  | .idle => none
  | .completing i op =>
    some { s with ops := s.ops.set i op.completeOperation, loop := .applying op }
  | .applying op =>
    some { s with service := executeImmediateScaling op.targetScale s.service, loop := .idle }

/-- The goroutine at row `i` has taken a step. -/
def after (s : System) (i : ℕ) (r : Rows) : Outcome → System
  | .goes wk => { s with service := r.service, ops := s.ops.set i r.op, worker := some (i, wk) }
  | .ends => { s with service := r.service, ops := s.ops.set i r.op, worker := none }
  | .panics => { s with worker := none, crashed := true }

/-- A step of the worker. -/
def work (s : System) : Option System :=
  match s.worker with
  | none => none
  | some (i, wk) =>
    s.ops[i]?.map fun op =>
      s.after i (wk.step ⟨s.service, op⟩).1 (wk.step ⟨s.service, op⟩).2

/-- One step, if it is possible. -/
def step (s : System) (a : Action) : Option System :=
  if s.crashed then none
  else match a with
    | .create p => some { s with ops := s.ops ++ [p.createScalingOperation] }
    | .handle => s.processScalingOperationEvent
    | .proceed => s.proceed
    | .work => s.work

/-- Every operation has been taken up and every goroutine has stopped. -/
def Stopped (s : System) : Prop :=
  s.handled = s.ops.length ∧ s.loop = .idle ∧ s.worker = none

/-- Nothing is left in progress and the scale is that of the operation created last. -/
def LastWins (s : System) : Prop :=
  (∀ op ∈ s.ops, op.status ≠ .inProgress) ∧
    ∀ op, s.ops.getLast? = some op → s.service.spec.scale = op.targetScale

instance (s : System) : Decidable s.Stopped :=
  inferInstanceAs (Decidable (_ ∧ _ ∧ _))

end System

/-- The operation has been completed at its target. -/
def Rows.Done (r : Rows) : Prop :=
  r.op.status = .completed ∧ r.service.spec.scale = r.op.targetScale

/-- A copy of the row that was read while it was in progress, as it still is. -/
structure Rows.Reads (r : Rows) (target : ℤ) (current : Operation) : Prop where
  stored : r.op.status = .inProgress
  status : current.status = .inProgress
  target : current.targetScale = target

/-- What holds at each stage of a goroutine that is alone with the service. -/
def Worker.Sound (wk : Worker) (r : Rows) : Prop :=
  r.op.targetScale = wk.op.targetScale ∧
    match wk.stage with
    | .start | .check | .waiting => r.op.status = .inProgress ∨ r.Done
    | .gotOp current => r.Reads wk.op.targetScale current
    | .gotService current seen | .synced current seen =>
      r.Reads wk.op.targetScale current ∧ seen.spec.scale = r.service.spec.scale
    | .completing current =>
      current.targetScale = wk.op.targetScale ∧ r.service.spec.scale = wk.op.targetScale
    | .ending => r.Done

/-- What is known of the rows once the goroutine has taken a step. -/
def Worker.Leads (wk : Worker) (r : Rows) : Outcome → Prop
  | .goes next => next.op = wk.op ∧ next.Sound r
  | .ends => r.Done
  | .panics => False

/-- One move of the worker. -/
theorem Worker.Sound.move {wk : Worker} {r r' : Rows} {o : Outcome} (h : wk.Sound r)
    (hinterval : 1 ≤ wk.op.interval) (hmove : wk.Moves r r' o) :
    r'.op.targetScale = r.op.targetScale ∧ wk.Leads r' o := by
  obtain ⟨htarget, hstage⟩ := h
  cases hmove with
  | skip hat hstatus =>
    rw [hat] at hstage
    exact ⟨rfl, rfl, htarget, hstage⟩
  | read hat hstatus =>
    exact ⟨rfl, rfl, htarget, hstatus, hstatus, htarget⟩
  | fetch hat =>
    rw [hat] at hstage
    exact ⟨rfl, rfl, htarget, hstage, rfl⟩
  | sync hat =>
    rw [hat] at hstage
    obtain ⟨hreads, hseen⟩ := hstage
    have hsame : _ = r.op.targetScale := hreads.target.trans htarget.symm
    exact ⟨hsame, rfl, hreads.target, ⟨hreads.status, hreads.status, hreads.target⟩, hseen⟩
  | same hat =>
    rw [hat] at hstage
    exact ⟨rfl, rfl, htarget, hstage⟩
  | reached hat hseen =>
    rw [hat] at hstage
    obtain ⟨hreads, hstored⟩ := hstage
    exact ⟨rfl, rfl, htarget, hreads.target, hstored.symm.trans hseen⟩
  | arrive hat hseen hnext =>
    rw [hat] at hstage
    have hscale := (processScalingStep_scale r.service hseen (hnext.symm ▸ hseen)).trans hnext
    exact ⟨rfl, rfl, htarget, hstage.1.target, hscale⟩
  | approach hat hseen hnext =>
    rw [hat] at hstage
    exact ⟨rfl, rfl, htarget, Or.inl hstage.1.stored⟩
  | complete hat =>
    rw [hat] at hstage
    obtain ⟨hcurrent, hscale⟩ := hstage
    exact ⟨hcurrent.trans htarget.symm, rfl, hcurrent, Or.inr ⟨rfl, hscale.trans hcurrent.symm⟩⟩
  | finish hat hstatus =>
    rw [hat] at hstage
    exact ⟨rfl, rfl, htarget, hstage.resolve_left hstatus⟩
  | panic hat hle => omega
  | wait hat hstatus => exact ⟨rfl, rfl, htarget, Or.inl hstatus⟩
  | tick hat =>
    rw [hat] at hstage
    exact ⟨rfl, rfl, htarget, hstage⟩
  | leave hat =>
    rw [hat] at hstage
    exact ⟨rfl, hstage⟩

/-- Who is at work on the operation that was taken up last, at row `i`. -/
inductive Active (r : Rows) (i : ℕ) : Loop → Option (ℕ × Worker) → Prop
  | done (h : r.Done) : Active r i .idle none
  | completing {op : Operation} (h : op.targetScale = r.op.targetScale) :
    Active r i (.completing i op) none
  | applying {op : Operation} (h : op.targetScale = r.op.targetScale)
      (hstatus : r.op.status = .completed) : Active r i (.applying op) none
  | gradual {wk : Worker} (hinterval : 1 ≤ wk.op.interval) (h : wk.Sound r) :
    Active r i .idle (some (i, wk))

/-- The operation taken up last is being worked on, or done; those before it are done. -/
structure System.OneByOne (s : System) : Prop where
  handled_le : s.handled ≤ s.ops.length
  pending : ∀ i op, s.handled ≤ i → s.ops[i]? = some op →
    op.status = .inProgress ∧ (op.mode = .gradual → 1 ≤ op.interval)
  past : ∀ i op, i + 1 < s.handled → s.ops[i]? = some op → op.status = .completed
  fresh : s.handled = 0 → s.loop = .idle ∧ s.worker = none
  active : ∀ i op, s.handled = i + 1 → s.ops[i]? = some op →
    Active ⟨s.service, op⟩ i s.loop s.worker

/-- A gradual operation has a ticker to wait for, and the loop takes up an operation only
while no goroutine is registered. -/
def System.Alone (s : System) : Action → Prop
  | .create p => p.isGradual → 1 ≤ p.intervalSeconds
  | .handle => s.worker = none
  | .proceed | .work => True

instance (s : System) : ∀ a, Decidable (s.Alone a)
  | .create p => inferInstanceAs (Decidable (p.isGradual → 1 ≤ p.intervalSeconds))
  | .handle => inferInstanceAs (Decidable (s.worker = none))
  | .proceed | .work => isTrue trivial

namespace System.OneByOne

variable {s t : System}

/-- A new operation. -/
theorem create (h : s.OneByOne) {p : ScalingOperationParams}
    (hp : p.isGradual → 1 ≤ p.intervalSeconds) :
    System.OneByOne { s with ops := s.ops ++ [p.createScalingOperation] } where
  handled_le := by
    have := h.handled_le
    simp only [length_append]
    omega
  pending i op hi hop := by
    rcases lt_or_ge i s.ops.length with hlt | hge
    · exact h.pending i op hi (by rwa [getElem?_append_left hlt] at hop)
    · rw [getElem?_append_right hge, getElem?_singleton] at hop
      split at hop
      · cases hop
        refine ⟨rfl, fun hmode => hp ?_⟩
        by_contra hng
        simp [ScalingOperationParams.createScalingOperation, hng] at hmode
      · cases hop
  past i op hi hop := by
    have hi : i + 1 < s.handled := hi
    have := h.handled_le
    rw [getElem?_append_left (by omega)] at hop
    exact h.past i op hi hop
  fresh := h.fresh
  active i op hi hop := by
    have hi : s.handled = i + 1 := hi
    have := h.handled_le
    rw [getElem?_append_left (by omega)] at hop
    exact h.active i op hi hop

/-- With the loop idle and no goroutine, every operation that was taken up is done. -/
theorem completed (h : s.OneByOne) (hloop : s.loop = .idle) (hworker : s.worker = none)
    {i : ℕ} {op : Operation} (hi : i < s.handled) (hop : s.ops[i]? = some op) :
    op.status = .completed := by
  rcases Nat.lt_or_ge (i + 1) s.handled with hlt | hge
  · exact h.past i op hlt hop
  · have hactive := h.active i op (by omega) hop
    rw [hloop, hworker] at hactive
    cases hactive with
    | done hdone => exact hdone.1

/-- Another operation is taken up: what was taken up before it is done. -/
theorem next (h : s.OneByOne) (hloop : s.loop = .idle) (hworker : s.worker = none)
    {op : Operation} (hop : s.ops[s.handled]? = some op) {loop : Loop}
    {worker : Option (ℕ × Worker)} (hactive : Active ⟨s.service, op⟩ s.handled loop worker) :
    System.OneByOne { s with handled := s.handled + 1, loop := loop, worker := worker } where
  handled_le := (List.getElem?_eq_some_iff.mp hop).1
  pending i op hi := h.pending i op (Nat.le_of_succ_le hi)
  past i op hi := h.completed hloop hworker (Nat.succ_lt_succ_iff.mp hi)
  fresh h0 := absurd h0 (Nat.succ_ne_zero _)
  active i op' hi hop' := by
    obtain rfl : s.handled = i := Nat.succ.inj hi
    cases hop.symm.trans hop'
    exact hactive

/-- Its event. -/
theorem handle (h : s.OneByOne) (hworker : s.worker = none)
    (hstep : s.processScalingOperationEvent = some t) : t.OneByOne := by
  unfold System.processScalingOperationEvent at hstep
  split at hstep
  case h_2 => cases hstep
  case h_1 op hloop hop =>
    obtain ⟨hstatus, hinterval⟩ := h.pending _ op le_rfl hop
    split at hstep
    case h_1 hmode =>
      cases hstep
      have hactive : Active ⟨s.service, op⟩ s.handled s.loop
          (some (s.worker.getD (s.handled, { op := op }))) := by
        rw [hloop, hworker]
        exact .gradual (hinterval hmode) ⟨rfl, Or.inl hstatus⟩
      exact h.next hloop hworker hop hactive
    case h_2 =>
      cases hstep
      have hactive : Active ⟨s.service, op⟩ s.handled (.completing s.handled op) s.worker := by
        rw [hworker]
        exact .completing rfl
      exact h.next hloop hworker hop hactive

/-- Someone has worked on the operation that was taken up last. -/
theorem progress (h : s.OneByOne) {i : ℕ} (hi : s.handled = i + 1) {r : Rows} {loop : Loop}
    {worker : Option (ℕ × Worker)} (hactive : Active r i loop worker) :
    System.OneByOne
      { s with service := r.service, ops := s.ops.set i r.op, loop := loop, worker := worker } where
  handled_le := by simpa only [length_set] using h.handled_le
  pending j op hj hop := by
    have hj : s.handled ≤ j := hj
    rw [getElem?_set_ne (by omega)] at hop
    exact h.pending j op hj hop
  past j op hj hop := by
    have hj : j + 1 < s.handled := hj
    rw [getElem?_set_ne (by omega)] at hop
    exact h.past j op hj hop
  fresh h0 := by
    have h0 : s.handled = 0 := h0
    omega
  active j op hj hop := by
    obtain rfl : i = j := by
      have hj : s.handled = j + 1 := hj
      omega
    have hlen : i < s.ops.length := by
      have := h.handled_le
      omega
    rw [getElem?_set_self hlen] at hop
    cases hop
    exact hactive

/-- The operation that was taken up last, with who is at work on it. -/
theorem current (h : s.OneByOne) (hbusy : s.handled ≠ 0) :
    ∃ i op, s.handled = i + 1 ∧ s.ops[i]? = some op ∧
      Active ⟨s.service, op⟩ i s.loop s.worker := by
  obtain ⟨i, hi⟩ := Nat.exists_eq_succ_of_ne_zero hbusy
  have hlen : i < s.ops.length := by
    have := h.handled_le
    omega
  exact ⟨i, s.ops[i], hi, getElem?_eq_getElem hlen,
    h.active i _ hi (getElem?_eq_getElem hlen)⟩

/-- The handler goes on. -/
theorem proceed (h : s.OneByOne) (hstep : s.proceed = some t) : t.OneByOne := by
  have hbusy : s.handled ≠ 0 := by
    intro h0
    rw [System.proceed, (h.fresh h0).1] at hstep
    cases hstep
  obtain ⟨i, op, hi, hop, hactive⟩ := h.current hbusy
  unfold System.proceed at hstep
  generalize hworker : s.worker = worker at hactive
  split at hstep
  case h_1 => cases hstep
  case h_2 j event hloop =>
    rw [hloop] at hactive
    cases hactive with
    | completing htarget =>
      cases hstep
      have hnext : Active ⟨s.service, event.completeOperation⟩ i (.applying event) s.worker := by
        rw [hworker]
        exact .applying rfl rfl
      exact h.progress hi hnext
  case h_3 event hloop =>
    rw [hloop] at hactive
    cases hactive with
    | applying htarget hstatus =>
      cases hstep
      have hnext : Active ⟨executeImmediateScaling event.targetScale s.service, op⟩ i .idle
          s.worker := by
        rw [hworker]
        exact .done ⟨hstatus, (executeImmediateScaling_scale _ _).trans htarget⟩
      have hset : s.ops.set i op = s.ops := by
        obtain ⟨hlen, rfl⟩ := List.getElem?_eq_some_iff.mp hop
        exact set_getElem_self hlen
      simpa only [hset] using h.progress hi hnext

/-- The worker's turn. -/
theorem work (h : s.OneByOne) (hstep : s.work = some t) : t.OneByOne := by
  unfold System.work at hstep
  split at hstep
  case h_1 => cases hstep
  case h_2 j wk hworker =>
    have hbusy : s.handled ≠ 0 := by
      intro h0
      rw [(h.fresh h0).2] at hworker
      cases hworker
    obtain ⟨i, op, hi, hop, hactive⟩ := h.current hbusy
    rw [hworker] at hactive
    generalize hloop : s.loop = loop at hactive
    cases hactive with
    | gradual hinterval hsound =>
      rw [hop, Option.map_some] at hstep
      obtain ⟨-, hleads⟩ := hsound.move hinterval (wk.moves_step ⟨s.service, op⟩)
      generalize (wk.step ⟨s.service, op⟩).1 = r at hstep hleads
      generalize (wk.step ⟨s.service, op⟩).2 = o at hstep hleads
      cases hstep
      cases o with
      | goes next =>
        obtain ⟨hop', hnext⟩ := hleads
        have hnext : Active r j s.loop (some (j, next)) := by
          rw [hloop]
          exact .gradual (hop' ▸ hinterval) hnext
        exact h.progress hi hnext
      | ends =>
        have hnext : Active r j s.loop none := by
          rw [hloop]
          exact .done hleads
        exact h.progress hi hnext
      | panics => exact hleads.elim

/-- One step. -/
theorem step (h : s.OneByOne) {a : Action} (ha : s.Alone a) (hstep : s.step a = some t) :
    t.OneByOne := by
  unfold System.step at hstep
  split at hstep
  · cases hstep
  · cases a with
    | create p =>
      cases hstep
      exact h.create ha
    | handle => exact h.handle ha hstep
    | proceed => exact h.proceed hstep
    | work => exact h.work hstep

/-- What a stopped system shows. -/
theorem lastWins (h : s.OneByOne) (hstopped : s.Stopped) : s.LastWins := by
  obtain ⟨hall, hloop, hworker⟩ := hstopped
  constructor
  · intro op hop
    obtain ⟨i, hi, rfl⟩ := mem_iff_getElem.mp hop
    have hdone := h.completed hloop hworker (hall ▸ hi) (getElem?_eq_getElem hi)
    rw [hdone]
    decide
  · intro op hop
    rw [getLast?_eq_getElem?] at hop
    have hlen := (List.getElem?_eq_some_iff.mp hop).1
    have hactive := h.active _ op (by omega) hop
    rw [hloop, hworker] at hactive
    cases hactive with
    | done hdone => exact hdone.2

end System.OneByOne

/-- Once everything has stopped, the operation created last has won, if no operation was
taken up while a goroutine was registered for the service. -/
theorem last_created_wins {service : Service} {run : List Action} {s : System}
    (hrun : exec System.step { service := service } run = some s)
    (halone : Along System.step System.Alone { service := service } run)
    (hstopped : s.Stopped) : s.LastWins := by
  have hstart : System.OneByOne { service := service } :=
    { handled_le := le_rfl
      pending := fun i op _ hop => by simp at hop
      past := fun i op hi => absurd hi (Nat.not_lt_zero _)
      fresh := fun _ => ⟨rfl, rfl⟩
      active := fun i op hi => absurd hi.symm (Nat.succ_ne_zero i) }
  have hone := exec_invariant_along (fun s a t h ha => h.step ha) hstart halone hrun
  exact hone.lastWins hstopped

/-- The service after some scalings. -/
def scaled (scale lastNonZero generation : ℤ) : Service :=
  { oneReplica with
    spec := { scale := scale }
    metadata := { lastNonZeroScale := lastNonZero, generation := generation } }

/-- The gradual operation runs to its end before the other is taken up. -/
def inTurn : List Action :=
  [Action.create upToThree, Action.handle] ++ List.replicate 13 Action.work ++
    [Action.create fiveAtOnce, Action.handle, Action.proceed, Action.proceed]

/-- How the two operations end. -/
def inTurnEnd : System where
  service := scaled 5 5 3
  ops := [(upToThree.createScalingOperation.withScale 2).completeOperation,
    fiveAtOnce.createScalingOperation.completeOperation]
  handled := 2

/-- Two operations in turn. -/
theorem last_created_wins_inTurn :
    exec System.step { service := oneReplica } inTurn = some inTurnEnd ∧ inTurnEnd.LastWins := by
  have hrun : exec System.step { service := oneReplica } inTurn = some inTurnEnd := by decide
  exact ⟨hrun, last_created_wins hrun (by decide) (by decide)⟩

/-- The other operation is taken up after the first step of the gradual one. -/
def overtaken : List Action :=
  [Action.create upToThree, Action.handle] ++ List.replicate 4 Action.work ++
    [Action.create fiveAtOnce, Action.handle, Action.proceed, Action.proceed] ++
    List.replicate 15 Action.work

/-- The goroutine of the older operation takes back the scale of the operation created last, whose
row has been completed. -/
theorem older_target_wins :
    ∃ s, exec System.step { service := oneReplica } overtaken = some s ∧ s.Stopped ∧
      ¬ s.LastWins ∧ s.ops.map (·.targetScale) = [3, 5] ∧
      (∀ op ∈ s.ops, op.status = .completed) ∧ s.service.spec.scale = 3 := by
  refine ⟨_, rfl, by decide, ?_, rfl, by decide, rfl⟩
  intro h
  exact absurd (h.2 _ rfl) (by decide)

end Rune.Scaling
