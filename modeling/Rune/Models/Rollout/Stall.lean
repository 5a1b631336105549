import Mathlib.Algebra.Order.SuccPred.PartialSups
import Mathlib.Data.Nat.SuccPred
import Mathlib.Order.Lattice.Nat
import Mathlib.Tactic.IntervalCases
import Rune.Models.Rollout.Plan

/-!
# The stall clock of an update

Every reconcile tick derives the block of the update in flight from the stored one and from
what it observes. The block carries high-water marks, and the clock restarts only where a
counter exceeds its mark. A tick that brings no news is not stored. The block that is stored
is nevertheless at every tick the one that the whole history of the update determines.
-/

namespace Rune.Rollout

/-- The update in flight. -/
structure UpdateStatus where
  templateGeneration : ℤ
  desired : ℤ
  updated : ℕ
  updatedReady : ℕ
  available : ℕ
  outdated : ℕ
  startedAt : Time
  lastProgressAt : Time
  message : String
  peakUpdated : ℕ
  peakUpdatedReady : ℕ
  peakAvailable : ℕ

/-- What a reconcile tick reads, apart from the stored block. -/
structure Observation where
  now : Time
  templateGeneration : ℤ
  scale : ℤ
  params : UpdateParams
  /-- The live instances, each with its class. -/
  instances : List (Instance × CompatClass)
  /-- The service has dependencies, and they are known not to be ready. -/
  gated : Bool

namespace Observation

variable (o : Observation)

/-- The instances as the planner sees them. -/
def views : List InstanceView :=
  o.instances.map fun i => newInstanceView i.1 i.2 o.params.minReady o.now

/-- Outdated instances, without those the planner cannot retire any more. -/
def outdated : ℕ := o.views.countP fun v => v.cls == .outdated && !v.terminating

/-- Those of the current template. -/
def updated : ℕ := o.views.countP fun v => v.cls == .ok

/-- Those of them that are ready. -/
def updatedReady : ℕ := o.views.countP fun v => v.cls == .ok && v.ready

/-- Those that serve. -/
def available : ℕ := o.views.countP InstanceView.serving

/-- The sentence of the planner. -/
def reason : String :=
  (planUpdate ⟨o.scale, o.params, o.views, false⟩).reason

/-- The counters of the block, before anything is carried over. -/
def counted : UpdateStatus where
  templateGeneration := o.templateGeneration
  desired := o.scale
  updated := o.updated
  updatedReady := o.updatedReady
  available := o.available
  outdated := o.outdated
  startedAt := o.now
  lastProgressAt := o.now
  message := ""
  peakUpdated := 0
  peakUpdatedReady := 0
  peakAvailable := 0

end Observation

namespace UpdateStatus

/-- A counter is past everything the update has achieved before. -/
def progressed (u : Option UpdateStatus) (next : UpdateStatus) : Bool :=
  match u with
  | none => true
  | some u =>
    decide (u.peakUpdatedReady < next.updatedReady ∨ u.peakAvailable < next.available ∨
      u.peakUpdated < next.updated)

/-- The peaks go on from the block before. -/
def carryPeaksFrom (next : UpdateStatus) (prev : Option UpdateStatus) : UpdateStatus :=
  let next := match prev with
    | none => next
    | some prev => { next with
      peakUpdated := prev.peakUpdated
      peakUpdatedReady := prev.peakUpdatedReady
      peakAvailable := prev.peakAvailable }
  { next with
    peakUpdated := max next.peakUpdated next.updated
    peakUpdatedReady := max next.peakUpdatedReady next.updatedReady
    peakAvailable := max next.peakAvailable next.available }

end UpdateStatus

/-- The block of the update in flight, and whether the update has stalled. -/
def computeUpdateStatus (update : Option UpdateStatus) (o : Observation) :
    Option UpdateStatus × Bool :=
  let next := o.counted
  if next.outdated = 0 then (none, false)
  else
    let prev := update.filter fun u => u.templateGeneration = o.templateGeneration
    let next := match prev with
      | none => next
      | some u => { next with
        startedAt := u.startedAt
        lastProgressAt :=
          if UpdateStatus.progressed (some u) next then o.now else u.lastProgressAt }
    let next := next.carryPeaksFrom prev
    if o.gated then
      (some { next with lastProgressAt := o.now, message := "blocked on dependency" }, false)
    else
      let next := { next with message := o.reason }
      (some next, decide (o.params.stallDeadline < o.now - next.lastProgressAt))

/-- The block has to be stored. -/
def updateStatusChanged : Option UpdateStatus → Option UpdateStatus → Bool
  | none, none => false
  | none, some _ => true
  | some _, none => true
  | some a, some b =>
    a.templateGeneration != b.templateGeneration || a.desired != b.desired ||
      a.updated != b.updated || a.updatedReady != b.updatedReady ||
      a.available != b.available || a.outdated != b.outdated ||
      a.message != b.message || a.lastProgressAt != b.lastProgressAt

/-- The stored block after a tick. The write is `due` where the status of the service or its
observed generation have changed. -/
def storeUpdate (update next : Option UpdateStatus) (due : Bool) : Option UpdateStatus :=
  if updateStatusChanged update next || due then next else update

section Ticks

variable (update : Option UpdateStatus) (ticks : ℕ → Observation) (due : ℕ → Bool)

/-- The stored block before each tick. -/
def stored : ℕ → Option UpdateStatus
  | 0 => update
  | n + 1 => storeUpdate (stored n) (computeUpdateStatus (stored n) (ticks n)).1 (due n)

/-- The verdict of each tick. -/
def stalled (n : ℕ) : Bool := (computeUpdateStatus (stored update ticks due n) (ticks n)).2

/-- A tick makes progress: it is the first, or a counter is above all that it was before. -/
def ProgressAt (n : ℕ) : Prop :=
  n = 0 ∨ (∀ i < n, (ticks i).updatedReady < (ticks n).updatedReady) ∨
    (∀ i < n, (ticks i).available < (ticks n).available) ∨
    ∀ i < n, (ticks i).updated < (ticks n).updated

instance decidableProgressAt (n : ℕ) : Decidable (ProgressAt ticks n) :=
  inferInstanceAs (Decidable (_ ∨ _))

/-- The last tick that has made progress. -/
def lastProgress (n : ℕ) : ℕ := Nat.findGreatest (ProgressAt ticks) n

/-- The block after a tick, as the history up to it determines it. -/
def history (n : ℕ) : UpdateStatus where
  templateGeneration := (ticks n).templateGeneration
  desired := (ticks n).scale
  updated := (ticks n).updated
  updatedReady := (ticks n).updatedReady
  available := (ticks n).available
  outdated := (ticks n).outdated
  startedAt := (ticks 0).now
  lastProgressAt := (ticks (lastProgress ticks n)).now
  message := (ticks n).reason
  peakUpdated := partialSups (fun i => (ticks i).updated) n
  peakUpdatedReady := partialSups (fun i => (ticks i).updatedReady) n
  peakAvailable := partialSups (fun i => (ticks i).available) n

variable {ticks}

@[simp] theorem lastProgress_zero : lastProgress ticks 0 = 0 := rfl

theorem lastProgress_succ (n : ℕ) :
    lastProgress ticks (n + 1) =
      if ProgressAt ticks (n + 1) then n + 1 else lastProgress ticks n :=
  Nat.findGreatest_succ n

/-- A value is above the high-water mark if it is above every value before it. -/
theorem partialSups_lt_iff_forall {f : ℕ → ℕ} {n : ℕ} :
    partialSups f n < f (n + 1) ↔ ∀ i < n + 1, f i < f (n + 1) := by
  constructor
  · intro h i hi
    exact (le_partialSups_of_le f (Nat.lt_succ_iff.1 hi)).trans_lt h
  · intro h
    obtain ⟨i, hi, heq⟩ := exists_partialSups_eq f n
    rw [heq]
    exact h i (Nat.lt_succ_iff.2 hi)

/-- The marks of the block tell whether the next tick makes progress. -/
theorem progressed_history (n : ℕ) :
    UpdateStatus.progressed (some (history ticks n)) (ticks (n + 1)).counted = true ↔
      ProgressAt ticks (n + 1) := by
  simp only [UpdateStatus.progressed, decide_eq_true_iff, ProgressAt, Nat.add_one_ne_zero, false_or]
  exact or_congr partialSups_lt_iff_forall
    (or_congr partialSups_lt_iff_forall partialSups_lt_iff_forall)

/-- The ticks of one update: some instance is outdated, and no dependency holds them. -/
structure Observation.Rolling (o : Observation) (gen : ℤ) : Prop where
  generation : o.templateGeneration = gen
  inFlight : o.outdated ≠ 0
  ungated : o.gated = false

variable {gen : ℤ}

/-- The first tick begins a history. -/
theorem computeUpdateStatus_first {update : Option UpdateStatus}
    (hupdate : ∀ u ∈ update, u.templateGeneration ≠ gen) (h : (ticks 0).Rolling gen) :
    (computeUpdateStatus update (ticks 0)).1 = some (history ticks 0) := by
  have hprev : (update.filter fun u => u.templateGeneration = (ticks 0).templateGeneration) =
      none := by
    rw [Option.filter_eq_none_iff]
    intro u hu
    simpa [h.generation] using hupdate u hu
  have hflight : (ticks 0).counted.outdated ≠ 0 := h.inFlight
  simp only [computeUpdateStatus, hprev, hflight, h.ungated, if_false, Bool.false_eq_true]
  simp [history, Observation.counted, UpdateStatus.carryPeaksFrom]

/-- The clock of the next tick. -/
theorem lastProgressAt_history_succ (n : ℕ) :
    (history ticks (n + 1)).lastProgressAt =
      if UpdateStatus.progressed (some (history ticks n)) (ticks (n + 1)).counted then
        (ticks (n + 1)).now
      else (history ticks n).lastProgressAt := by
  rw [if_congr (progressed_history n) rfl rfl]
  change (ticks (lastProgress ticks (n + 1))).now = _
  rw [lastProgress_succ]
  split <;> rfl

/-- A later tick continues it. -/
theorem computeUpdateStatus_history {n : ℕ} (hn : (ticks n).Rolling gen)
    (h : (ticks (n + 1)).Rolling gen) :
    (computeUpdateStatus (some (history ticks n)) (ticks (n + 1))).1 =
      some (history ticks (n + 1)) := by
  have hprev : ((some (history ticks n)).filter fun u =>
      u.templateGeneration = (ticks (n + 1)).templateGeneration) = some (history ticks n) := by
    simp [history, hn.generation, h.generation]
  have hflight : (ticks (n + 1)).counted.outdated ≠ 0 := h.inFlight
  simp only [computeUpdateStatus, hprev, hflight, h.ungated, if_false, Bool.false_eq_true,
    ← lastProgressAt_history_succ]
  simp [history, Observation.counted, UpdateStatus.carryPeaksFrom, partialSups_add_one]

/-- A block that need not be stored is the one that is. -/
theorem history_succ_eq_of_not_changed {n : ℕ}
    (h : updateStatusChanged (some (history ticks n)) (some (history ticks (n + 1))) = false) :
    history ticks (n + 1) = history ticks n := by
  have hpeak (f : ℕ → ℕ) (hf : f n = f (n + 1)) : partialSups f (n + 1) = partialSups f n := by
    rw [partialSups_add_one, ← hf]
    exact sup_eq_left.2 (le_partialSups f n)
  simp only [updateStatusChanged, Bool.or_eq_false_iff, bne_eq_false_iff_eq, history] at h
  obtain ⟨⟨⟨⟨⟨⟨⟨hgen, hdesired⟩, hupdated⟩, hready⟩, havailable⟩, houtdated⟩, hmessage⟩, hlast⟩ := h
  simp only [history, hgen, hdesired, hupdated, hready, havailable, houtdated, hmessage, hlast,
    hpeak (fun i => (ticks i).updated) hupdated, hpeak (fun i => (ticks i).updatedReady) hready,
    hpeak (fun i => (ticks i).available) havailable]

/-- Whatever ticks without news are stored, the stored block is what the history determines. -/
theorem stored_succ (hupdate : ∀ u ∈ update, u.templateGeneration ≠ gen) {n : ℕ}
    (h : ∀ i ≤ n, (ticks i).Rolling gen) :
    stored update ticks due (n + 1) = some (history ticks n) := by
  induction n with
  | zero =>
    have hchanged : updateStatusChanged update (some (history ticks 0)) = true := by
      cases update with
      | none => rfl
      | some u =>
        have hne : u.templateGeneration ≠ (history ticks 0).templateGeneration := by
          rw [show (history ticks 0).templateGeneration = gen from (h 0 le_rfl).generation]
          exact hupdate u rfl
        simp [updateStatusChanged, hne]
    rw [stored, stored, computeUpdateStatus_first hupdate (h 0 le_rfl), storeUpdate, hchanged,
      Bool.true_or, if_pos rfl]
  | succ n ih =>
    rw [stored, ih fun i hi => h i (hi.trans n.le_succ),
      computeUpdateStatus_history (h n n.le_succ) (h (n + 1) le_rfl), storeUpdate]
    split
    · rfl
    · rename_i hkeep
      rw [Bool.not_eq_true, Bool.or_eq_false_iff] at hkeep
      rw [history_succ_eq_of_not_changed hkeep.1]

/-- The clock stands at the last tick that made progress, and the verdicts do not depend on
which of the ticks without news are stored. -/
theorem stall_clock_runs_on_progress (hupdate : ∀ u ∈ update, u.templateGeneration ≠ gen)
    (due' : ℕ → Bool) (n : ℕ) (h : ∀ i ≤ n, (ticks i).Rolling gen) :
    (∃ u, stored update ticks due (n + 1) = some u ∧
      u.lastProgressAt = (ticks (lastProgress ticks n)).now) ∧
    stalled update ticks due n = stalled update ticks due' n := by
  refine ⟨⟨history ticks n, stored_succ update due hupdate h, rfl⟩, ?_⟩
  cases n with
  | zero => rfl
  | succ n =>
    have hbefore : ∀ i ≤ n, (ticks i).Rolling gen := fun i hi => h i (hi.trans n.le_succ)
    rw [stalled, stalled, stored_succ update due hupdate hbefore,
      stored_succ update due' hupdate hbefore]

end Ticks

/-- A replacement that comes up and fails, over and over: a tick every five minutes, and the
replacement lives at every other one. -/
def flapping (n : ℕ) : Observation where
  now := n * (300 * second)
  templateGeneration := 2
  scale := 1
  params :=
    { type := .rolling, extra := 1, dip := 0, minReady := 0
      stallDeadline := 600 * second, drain := 0 }
  instances :=
    (⟨"a", "web-0", .running, true, 1, none, none⟩, .outdated) ::
      if n % 2 = 1 then [(⟨"b", "web-1", .starting, false, 2, none, none⟩, .ok)] else []
  gated := false

/-- The clock is not touched after the replacement has come up first, and the fifth tick finds the
update stalled, stored or not. -/
theorem flapping_stalls :
    (∃ u, stored none flapping (fun _ => false) 5 = some u ∧ u.lastProgressAt = 300 * second) ∧
    stalled none flapping (fun _ => false) 4 = true := by
  have hrolling : ∀ i ≤ 4, (flapping i).Rolling 2 := fun i hi =>
    ⟨rfl, by interval_cases i <;> decide, rfl⟩
  obtain ⟨⟨u, hu, hlast⟩, hstalled⟩ := stall_clock_runs_on_progress none (fun _ => false)
    (by simp) (fun _ => true) 4 hrolling
  have hclock : (flapping (lastProgress flapping 4)).now = 300 * second := by decide +kernel
  refine ⟨⟨u, hu, hlast.trans hclock⟩, hstalled.trans ?_⟩
  decide +kernel

end Rune.Rollout
