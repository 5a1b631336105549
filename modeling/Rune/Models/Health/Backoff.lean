import Mathlib.Tactic.IntervalCases
import Rune.Models.Health.Promotion

/-!
# Restarting a slot with backoff

A liveness probe that keeps failing has the instance of a slot replaced by a new one. The restart
count lives in the monitor, which is made anew for every replacement, and in the record, which
hands it on. The monitor forgives its count after ten minutes without a restart and the record
never does, so a slot waits as long as all the restarts of its history ask for.
-/

namespace Rune.Health

open Rune.Rollout

/-- What an instance hands on to its replacement. -/
structure SlotInstance where
  restartCount : ℤ := 0
  createdAt : Time
  deriving DecidableEq

/-- What the controller knows of a monitored instance, as far as liveness goes. -/
structure LivenessHealth where
  inst : SlotInstance
  /-- The liveness probe of the service. -/
  probe : Option Probe
  livenessStatus : Bool := false
  consecutiveFailures : ℤ := 0
  healthRestartCount : ℤ
  /-- `none` is the zero time. -/
  lastRestartTime : Option Time
  deriving DecidableEq

/-- How long an instance has to run to be forgiven. -/
def healthBackoffResetWindow : Duration := 600 * second

/-- The longest wait. -/
def maxBackoff : Duration := 300 * second

/-- A count, at least zero. -/
def toUintNonNegative (n : ℤ) : ℕ := if n < 0 then 0 else n.toNat

/-- The wait before the next restart. -/
def backoff (healthRestartCount : ℤ) : Duration :=
  let shift := toUintNonNegative healthRestartCount
  let shift := if 5 < shift then 5 else shift
  let backoff := 10 * second * 2 ^ shift
  if maxBackoff < backoff then maxBackoff else backoff

namespace LivenessHealth

/-- The monitor that `AddInstance` makes. -/
def seed (inst : SlotInstance) (probe : Option Probe) : LivenessHealth where
  inst := inst
  probe := probe
  healthRestartCount := inst.restartCount
  lastRestartTime := if 0 < inst.restartCount then some inst.createdAt else none

/-- The history is forgiven after the reset window. -/
def forgive (ih : LivenessHealth) (now : Time) : LivenessHealth :=
  match ih.lastRestartTime with
  | some last =>
    if 0 < ih.healthRestartCount ∧ healthBackoffResetWindow < now - last then
      { ih with healthRestartCount := 0 }
    else ih
  | none => ih

/-- The restart of an instance, or the time that is left of its backoff. -/
def restartInstanceWithBackoff (ih : LivenessHealth) (now : Time) :
    LivenessHealth × Except Duration Unit :=
  let ih := ih.forgive now
  let restarted := { ih with
    healthRestartCount := ih.healthRestartCount + 1
    lastRestartTime := some now
    consecutiveFailures := 0 }
  match ih.lastRestartTime with
  | some last =>
    if now - last < backoff ih.healthRestartCount then
      (ih, .error (backoff ih.healthRestartCount - (now - last)))
    else (restarted, .ok ())
  | none => (restarted, .ok ())

end LivenessHealth

/-- The replacement of an instance; it is created at the time of the restart. -/
def restartInstance (inst : SlotInstance) (now : Time) : SlotInstance where
  restartCount := inst.restartCount + 1
  createdAt := now

/-- A slot: its instance of now, the monitor of that instance, and the times of the health
restarts so far, the latest first. -/
structure Slot where
  inst : SlotInstance
  monitor : Option LivenessHealth := none
  restarts : List Time := []

/-- What can happen. -/
inductive SlotEvent where
  /-- A liveness result. -/
  | liveness (now : Time) (success : Bool)
  /-- The reconciler has the instance of the slot monitored. -/
  | addInstance (probe : Option Probe)
  /-- The monitor is dropped, as on a restart of the controller. -/
  | removeInstance

namespace Slot

/-- The liveness part of `updateHealthStatus`. -/
def updateHealthStatus (s : Slot) (now : Time) (success : Bool) : Slot :=
  match s.monitor with
  | none => s
  | some ih =>
    if success then
      { s with monitor := some { ih with livenessStatus := true, consecutiveFailures := 0 } }
    else
      let ih := { ih with
        livenessStatus := false, consecutiveFailures := ih.consecutiveFailures + 1 }
      if failureThreshold ih.probe ≤ ih.consecutiveFailures then
        match ih.restartInstanceWithBackoff now with
        | (ih, .error _) => { s with monitor := some ih }
        | (ih, .ok ()) =>
          { inst := restartInstance ih.inst now, monitor := none, restarts := now :: s.restarts }
      else { s with monitor := some ih }

/-- `AddInstance`: a monitor that exists keeps what it has seen. -/
def addInstance (s : Slot) (probe : Option Probe) : Slot :=
  match s.monitor with
  | some ih => { s with monitor := some { ih with inst := s.inst, probe } }
  | none => { s with monitor := some (.seed s.inst probe) }

/-- One event. -/
def step (s : Slot) : SlotEvent → Slot
  | .liveness now success => s.updateHealthStatus now success
  | .addInstance probe => s.addInstance probe
  | .removeInstance => { s with monitor := none }

/-- The first instance of a slot. -/
def first (createdAt : Time) : Slot where
  inst := { createdAt }

end Slot

/-- The wait after a run of `n` restarts. -/
def wait (n : ℕ) : Duration := min (10 * second * 2 ^ n) (300 * second)

/-- The number of restarts in the latest run; a gap longer than the reset window ends a
run. -/
def latestRun : List Time → ℕ
  | [] => 0
  | [_] => 1
  | t :: u :: rest => if healthBackoffResetWindow < t - u then 1 else latestRun (u :: rest) + 1

theorem latestRun_le_length (restarts : List Time) : latestRun restarts ≤ restarts.length := by
  fun_induction latestRun restarts with
  | case1 => exact le_rfl
  | case2 t => exact le_rfl
  | case3 t u rest _ => simp
  | case4 t u rest _ ih => exact Nat.succ_le_succ ih

theorem wait_mono {m n : ℕ} (h : m ≤ n) : wait m ≤ wait n := by
  refine min_le_min_right _ (mul_le_mul_of_nonneg_left ?_ (by decide))
  exact pow_le_pow_right₀ (by decide) h

theorem wait_of_five_le {n : ℕ} (h : 5 ≤ n) : wait n = 300 * second := by
  refine le_antisymm (min_le_right _ _) ?_
  calc 300 * second = wait 5 := by decide
    _ ≤ wait n := wait_mono h

theorem backoff_natCast (n : ℕ) : backoff n = wait n := by
  have hn : toUintNonNegative n = n := by simp [toUintNonNegative]
  rcases Nat.lt_or_ge 5 n with h | h
  · rw [wait_of_five_le h.le, backoff, hn, if_pos h]
    decide
  · interval_cases n <;> decide

namespace LivenessHealth

@[simp] theorem forgive_lastRestartTime (ih : LivenessHealth) (now : Time) :
    (ih.forgive now).lastRestartTime = ih.lastRestartTime := by
  unfold forgive
  split
  · split <;> simp_all
  · rfl

@[simp] theorem forgive_inst (ih : LivenessHealth) (now : Time) :
    (ih.forgive now).inst = ih.inst := by
  unfold forgive
  split
  · split <;> rfl
  · rfl

/-- Inside the reset window nothing is forgiven. -/
theorem forgive_eq_self {ih : LivenessHealth} {now : Time}
    (h : ∀ last ∈ ih.lastRestartTime, now - last ≤ healthBackoffResetWindow) :
    ih.forgive now = ih := by
  unfold forgive
  split
  · rename_i last hlast
    rw [if_neg fun hgap => absurd (h last hlast) (not_le.2 hgap.2)]
  · rfl

/-- A restart is deferred, and the monitor left as it was, while the whole count asks for a longer
wait. Whether the history is forgiven has no bearing on it. -/
theorem restartInstanceWithBackoff_spec (ih : LivenessHealth) (now : Time) {n : ℕ}
    (hn : ih.healthRestartCount = n) :
    (∃ last ∈ ih.lastRestartTime, now - last < wait n ∧
      ih.restartInstanceWithBackoff now = (ih, .error (wait n - (now - last)))) ∨
    ((∀ last ∈ ih.lastRestartTime, wait n ≤ now - last) ∧
      (ih.restartInstanceWithBackoff now).1.inst = ih.inst ∧
      (ih.restartInstanceWithBackoff now).2 = .ok ()) := by
  rcases hlast : ih.lastRestartTime with _ | last
  · refine Or.inr ⟨by simp, ?_, ?_⟩ <;> simp [restartInstanceWithBackoff, hlast]
  have hle : wait n ≤ 300 * second := min_le_right _ _
  rcases lt_or_ge healthBackoffResetWindow (now - last) with hgap | hgap
  · have hbase : (ih.forgive now).healthRestartCount = 0 := by
      simp only [forgive, hlast]
      split_ifs with h
      · rfl
      · rw [hn] at h ⊢
        have : ¬ (0 : ℤ) < n := fun hpos => h ⟨hpos, hgap⟩
        omega
    have hwait : 300 * second < now - last := lt_trans (by decide) hgap
    have hdue : ¬ now - last < backoff (ih.forgive now).healthRestartCount := by
      rw [hbase, not_lt]
      exact le_trans (by decide) hwait.le
    refine Or.inr ⟨by simpa using hle.trans hwait.le, ?_, ?_⟩ <;>
      simp [restartInstanceWithBackoff, hlast, hdue]
  · have hself : ih.forgive now = ih := forgive_eq_self (by simpa [hlast] using hgap)
    rcases lt_or_ge (now - last) (wait n) with hearly | hdue
    · refine Or.inl ⟨last, rfl, hearly, ?_⟩
      simp [restartInstanceWithBackoff, hself, hlast, hn, backoff_natCast, hearly]
    · refine Or.inr ⟨by simpa using hdue, ?_, ?_⟩ <;>
        simp [restartInstanceWithBackoff, hself, hlast, hn, backoff_natCast, not_lt.2 hdue]

end LivenessHealth

namespace Slot

/-- The record and the monitor tell the whole history of the slot. -/
structure Sound (s : Slot) : Prop where
  count : s.inst.restartCount = s.restarts.length
  created : ∀ last ∈ s.restarts.head?, s.inst.createdAt = last
  monitored : ∀ ih ∈ s.monitor, ih.inst = s.inst ∧
    ih.healthRestartCount = s.restarts.length ∧ ih.lastRestartTime = s.restarts.head?

theorem sound_first (createdAt : Time) : (first createdAt).Sound where
  count := rfl
  created := by simp [first]
  monitored := by simp [first]

variable {s : Slot}

/-- The monitor of a slot that tells its history starts out telling it too. -/
theorem Sound.seed (h : s.Sound) (probe : Option Probe) :
    (LivenessHealth.seed s.inst probe).lastRestartTime = s.restarts.head? := by
  have hcount := h.count
  have hcreated := h.created
  cases hr : s.restarts with
  | nil => simp [LivenessHealth.seed, hcount, hr]
  | cons last rest =>
    rw [hr] at hcount hcreated
    have hpos : 0 < s.inst.restartCount := by
      rw [hcount, List.length_cons]
      omega
    simp [LivenessHealth.seed, hpos, hcreated last rfl]

/-- What a failure does to a monitored slot. -/
inductive Failed (s : Slot) (ih : LivenessHealth) (now : Time) : Slot → Prop
  /-- The monitor counts it, and the restart is not called for or has to wait. -/
  | counted {ih' : LivenessHealth} (inst : ih'.inst = ih.inst)
      (count : ih'.healthRestartCount = ih.healthRestartCount)
      (last : ih'.lastRestartTime = ih.lastRestartTime)
      (early : failureThreshold ih.probe ≤ ih.consecutiveFailures + 1 →
        ∃ last ∈ s.restarts.head?, now - last < wait s.restarts.length) :
      Failed s ih now { s with monitor := some ih' }
  /-- The instance is replaced. -/
  | restarted (due : ∀ last ∈ s.restarts.head?, wait s.restarts.length ≤ now - last) :
      Failed s ih now
        { inst := restartInstance s.inst now, monitor := none, restarts := now :: s.restarts }

theorem Sound.failed (h : s.Sound) {ih : LivenessHealth} (hih : s.monitor = some ih) (now : Time) :
    Failed s ih now (s.updateHealthStatus now false) := by
  obtain ⟨hinst, hcount, hlast⟩ := h.monitored ih hih
  simp only [updateHealthStatus, hih, Bool.false_eq_true, if_false]
  split
  · rcases LivenessHealth.restartInstanceWithBackoff_spec
        { ih with livenessStatus := false, consecutiveFailures := ih.consecutiveFailures + 1 }
        now hcount with ⟨last, hmem, hearly, heq⟩ | ⟨hdue, hsame, hok⟩
    · rw [heq]
      exact .counted rfl rfl rfl fun _ => ⟨last, hlast ▸ hmem, hearly⟩
    · generalize LivenessHealth.restartInstanceWithBackoff _ now = r at hsame hok
      obtain ⟨ih', out⟩ := r
      obtain rfl : out = .ok () := hok
      simp only
      rw [show ih'.inst = s.inst from hsame.trans hinst]
      exact .restarted (hlast ▸ hdue)
  · rename_i hthreshold
    exact .counted rfl rfl rfl fun hle => absurd hle hthreshold

theorem Sound.updateHealthStatus (h : s.Sound) (now : Time) (success : Bool) :
    (s.updateHealthStatus now success).Sound := by
  cases hih : s.monitor with
  | none => simpa [Slot.updateHealthStatus, hih] using h
  | some ih =>
    have hmon := h.monitored ih hih
    cases success with
    | true =>
      simp only [Slot.updateHealthStatus, hih, if_true]
      exact ⟨h.count, h.created, fun ih' hih' => by obtain rfl := Option.some.inj hih'; exact hmon⟩
    | false =>
      generalize ht : s.updateHealthStatus now false = t
      have hfailed : Failed s ih now t := ht ▸ h.failed hih now
      cases hfailed with
      | counted hinst hcount hlast _ =>
        refine ⟨h.count, h.created, fun ih' hih' => ?_⟩
        cases hih'
        exact ⟨hinst.trans hmon.1, hcount.trans hmon.2.1, hlast.trans hmon.2.2⟩
      | restarted _ =>
        refine ⟨?_, by simp [restartInstance], by simp⟩
        simp [restartInstance, h.count]

theorem Sound.step (h : s.Sound) (e : SlotEvent) : (s.step e).Sound := by
  cases e with
  | liveness now success => exact h.updateHealthStatus now success
  | addInstance probe =>
    refine ⟨?_, ?_, ?_⟩ <;> simp only [Slot.step, addInstance] <;> split
    · exact h.count
    · exact h.count
    · exact h.created
    · exact h.created
    · rename_i ih hih
      intro ih' hih'
      cases hih'
      exact ⟨rfl, (h.monitored ih hih).2⟩
    · intro ih' hih'
      cases hih'
      exact ⟨rfl, h.count, h.seed probe⟩
  | removeInstance => exact ⟨h.count, h.created, by simp [Slot.step]⟩

theorem sound_foldl (h : s.Sound) (events : List SlotEvent) : (events.foldl Slot.step s).Sound := by
  induction events generalizing s with
  | nil => exact h
  | cons e events ih => exact ih (h.step e)

/-- A slot restarts only on a liveness failure, and never before the wait of its whole
history is over. -/
theorem Sound.restarts_step (h : s.Sound) (e : SlotEvent) :
    (s.step e).restarts = s.restarts ∨
      ∃ now, e = .liveness now false ∧ (s.step e).restarts = now :: s.restarts ∧
        ∀ last ∈ s.restarts.head?, wait s.restarts.length ≤ now - last := by
  cases e with
  | addInstance probe =>
    left
    simp only [Slot.step, addInstance]
    split <;> rfl
  | removeInstance => exact Or.inl rfl
  | liveness now success =>
    cases hih : s.monitor with
    | none => simp [Slot.step, Slot.updateHealthStatus, hih]
    | some ih =>
      cases success with
      | true => simp [Slot.step, Slot.updateHealthStatus, hih]
      | false =>
        rw [Slot.step]
        generalize ht : s.updateHealthStatus now false = t
        have hfailed : Failed s ih now t := ht ▸ h.failed hih now
        cases hfailed with
        | counted => exact Or.inl rfl
        | restarted hdue => exact Or.inr ⟨now, rfl, rfl, hdue⟩

/-- At the failure threshold a slot restarts once the wait of its whole history is over. -/
theorem Sound.restarts_of_due (h : s.Sound) {ih : LivenessHealth} (hih : ih ∈ s.monitor)
    {now : Time} (hthreshold : failureThreshold ih.probe ≤ ih.consecutiveFailures + 1)
    (hdue : ∀ last ∈ s.restarts.head?, wait s.restarts.length ≤ now - last) :
    (s.step (.liveness now false)).restarts = now :: s.restarts := by
  rw [Slot.step]
  generalize ht : s.updateHealthStatus now false = t
  have hfailed : Failed s ih now t := ht ▸ h.failed hih now
  cases hfailed with
  | counted _ _ _ hearly =>
    obtain ⟨last, hlast, hlt⟩ := hearly hthreshold
    exact absurd (hdue last hlast) (not_le.2 hlt)
  | restarted => rfl

/-- The latest run asks for the wait that the whole history asks for: the slot has had one
run only, or its latest one has reached the longest wait. -/
def Unforgiven (restarts : List Time) : Prop :=
  latestRun restarts = restarts.length ∨ 5 ≤ latestRun restarts

instance decidableUnforgiven (restarts : List Time) : Decidable (Unforgiven restarts) :=
  inferInstanceAs (Decidable (_ ∨ _))

theorem Unforgiven.wait_eq {restarts : List Time} (h : Unforgiven restarts) :
    wait (latestRun restarts) = wait restarts.length := by
  rcases h with h | h
  · rw [h]
  · rw [wait_of_five_le h, wait_of_five_le (h.trans (latestRun_le_length restarts))]

/-- A restart never comes before the wait of the latest run is over. At the failure threshold it
comes then, as long as no run before the latest one counts. -/
theorem restarts_back_off (createdAt : Time) (events : List SlotEvent) :
    let s := events.foldl Slot.step (first createdAt)
    (∀ e, (s.step e).restarts = s.restarts ∨
      ∃ now, e = .liveness now false ∧ (s.step e).restarts = now :: s.restarts ∧
        ∀ last ∈ s.restarts.head?, wait (latestRun s.restarts) ≤ now - last) ∧
    (Unforgiven s.restarts → ∀ ih ∈ s.monitor, ∀ now,
      failureThreshold ih.probe ≤ ih.consecutiveFailures + 1 →
      (∀ last ∈ s.restarts.head?, wait (latestRun s.restarts) ≤ now - last) →
      (s.step (.liveness now false)).restarts = now :: s.restarts) := by
  intro s
  have hs : s.Sound := sound_foldl (sound_first createdAt) events
  constructor
  · intro e
    rcases hs.restarts_step e with h | ⟨now, he, hr, hdue⟩
    · exact Or.inl h
    · refine Or.inr ⟨now, he, hr, fun last hlast => ?_⟩
      exact (wait_mono (latestRun_le_length s.restarts)).trans (hdue last hlast)
  · intro hrun ih hih now hthreshold hdue
    rw [hrun.wait_eq] at hdue
    exact hs.restarts_of_due hih hthreshold hdue

/-- A slot whose probe fails at the given times, each failure calling for a restart. -/
def failingAt (times : List Time) : List SlotEvent :=
  times.flatMap fun now =>
    [.addInstance (some { failureThreshold := 1 }), .liveness now false]

/-- A slot that is monitored again after its first restart, a hundred seconds in. -/
def restartedOnce : Slot :=
  ((failingAt [100 * second]).foldl Slot.step (first 0)).step
    (.addInstance (some { failureThreshold := 1 }))

/-- It restarts at the first failure that comes twenty seconds later. -/
theorem restartedOnce_restarts_in_time :
    (restartedOnce.step (.liveness (120 * second) false)).restarts =
      [120 * second, 100 * second] := by
  have hrun : Unforgiven restartedOnce.restarts := by decide +kernel
  have hmon : LivenessHealth.seed ⟨1, 100 * second⟩ (some { failureThreshold := 1 }) ∈
      restartedOnce.monitor := by decide +kernel
  have hdue : ∀ last ∈ restartedOnce.restarts.head?,
      wait (latestRun restartedOnce.restarts) ≤ 120 * second - last := by decide +kernel
  have h := (restarts_back_off 0
    (failingAt [100 * second] ++ [.addInstance (some { failureThreshold := 1 })])).2
  exact h hrun _ hmon _ (by decide) hdue

/-- A second restart, eleven minutes and more after the first, begins a run of its own. A failure
twenty seconds later is past the wait of that run, and the slot waits for forty seconds. -/
theorem forgiven_slot_waits_on :
    let s := ((failingAt [100 * second, 800 * second]).foldl Slot.step (first 0)).step
      (.addInstance (some { failureThreshold := 1 }))
    latestRun s.restarts = 1 ∧
    (∃ ih ∈ s.monitor, failureThreshold ih.probe ≤ ih.consecutiveFailures + 1) ∧
    (∀ last ∈ s.restarts.head?, wait (latestRun s.restarts) ≤ 820 * second - last) ∧
    (s.step (.liveness (820 * second) false)).restarts = s.restarts ∧
    (s.step (.liveness (840 * second) false)).restarts = 840 * second :: s.restarts := by
  refine ⟨by decide +kernel, ⟨_, rfl, by decide +kernel⟩, by decide +kernel, by decide +kernel,
    by decide +kernel⟩

end Slot

end Rune.Health
