import Rune.Core.LeadsTo
import Rune.Models.Rollout.Instance

/-!
# Promoting a ready instance

A readiness pass starts a goroutine that moves the stored record of an instance from starting to
running. The monitor remembers that a promotion was started and starts no other one, unless the
goroutine reports an error. A promotion that found the record in another state is no error. So a
record that another writer sets to starting after the promotion has run stays starting; otherwise
readiness passes bring it to running.
-/

namespace Rune.Health

open Rune.Core Rune.Rollout

/-- The thresholds of a readiness probe. -/
structure Probe where
  failureThreshold : ℤ := 0
  successThreshold : ℤ := 0
  deriving DecidableEq

/-- Three where the probe gives none. -/
def failureThreshold (probe : Option Probe) : ℤ :=
  match probe with
  | some p => if 0 < p.failureThreshold then p.failureThreshold else 3
  | none => 3

/-- One where the probe gives none. -/
def successThreshold (probe : Option Probe) : ℤ :=
  match probe with
  | some p => if 0 < p.successThreshold then p.successThreshold else 1
  | none => 1

/-- What the controller knows of a monitored instance, as far as readiness goes. -/
structure InstanceHealth where
  /-- The copy of the record that was read last. -/
  inst : Instance
  /-- The readiness probe of the service. -/
  probe : Option Probe
  readinessStatus : Bool := false
  promoted : Bool := false
  ready : Bool
  /-- A readiness write is in flight. -/
  readyWriting : Bool := false
  readinessFailures : ℤ := 0
  readinessSuccesses : ℤ := 0

/-- The statuses that are not probed. -/
def healthMonitoringTerminal : InstanceStatus → Bool
  | .failed | .deleted | .stalled | .exited => true
  | _ => false

/-- The stored record, its monitor, and the goroutines under way. -/
structure Node where
  stored : Option Instance := none
  monitor : Option InstanceHealth := none
  /-- The promotions that have not reached the store. -/
  promoting : ℕ := 0
  /-- The promotions that failed and have not reported it. -/
  failing : ℕ := 0
  /-- The readiness writes that have not reached the store. -/
  settingReady : List Bool := []
  /-- The readiness writes that have, and have not reported it. -/
  readySet : ℕ := 0

/-- The readiness verdict moves when a threshold is reached; the write of the new one is
returned. -/
def applyReadinessThresholdsLocked (ih : InstanceHealth) : InstanceHealth × Option Bool :=
  if ih.inst.status ≠ .running then (ih, none)
  else if ih.readyWriting then (ih, none)
  else if ih.ready ∧ failureThreshold ih.probe ≤ ih.readinessFailures then
    ({ ih with ready := false, readyWriting := true }, some false)
  else if ¬ ih.ready ∧ successThreshold ih.probe ≤ ih.readinessSuccesses then
    ({ ih with ready := true, readyWriting := true }, some true)
  else (ih, none)

/-- Count a readiness result. -/
def InstanceHealth.count (ih : InstanceHealth) (success : Bool) : InstanceHealth :=
  if success then
    { ih with
      readinessStatus := true
      readinessSuccesses := ih.readinessSuccesses + 1
      readinessFailures := 0 }
  else
    { ih with
      readinessStatus := false
      readinessFailures := ih.readinessFailures + 1
      readinessSuccesses := 0 }

/-- The update of a promotion: the new record, or `none` where it is skipped. -/
def promoteToRunningOnReady (now : Time) (current : Instance) : Option Instance :=
  if current.status ≠ .starting then none
  else some { current with
    status := .running, lastTransitionAt := some now, ready := true, readyChangedAt := some now }

/-- The update of a readiness write. -/
def setReady (ready : Bool) (now : Time) (current : Instance) : Option Instance :=
  if current.status ≠ .running ∨ (current.readyChangedAt.isSome ∧ current.ready = ready) then none
  else some { current with ready := ready, readyChangedAt := some now }

/-- What can happen. -/
inductive Action where
  /-- Another writer overwrites the record, or removes it: the create pipeline, the
  last write of a restart, a deletion. -/
  | write (inst : Option Instance)
  | addInstance (inst : Instance) (probe : Option Probe)
  | removeInstance
  /-- A health check takes over a copy that it has read from the store. -/
  | refresh (fresh : Instance)
  /-- A readiness result. -/
  | readiness (success : Bool)
  /-- A promotion updates the store; `ok` says that the store works. -/
  | promote (ok : Bool) (now : Time)
  /-- A failed promotion lets the next readiness pass try again. -/
  | resetPromoted
  | setReady (ready ok : Bool) (now : Time)
  | resetReadyWriting
  deriving DecidableEq

namespace Node

/-- `UpdateFunc` on the record; a missing record is an error, a skipped update is not. -/
def update (n : Node) (f : Instance → Option Instance) : Option Node :=
  n.stored.map fun current => { n with stored := some ((f current).getD current) }

/-- The readiness part of `updateHealthStatus`. -/
def updateHealthStatus (n : Node) (success : Bool) : Node :=
  match n.monitor with
  | none => n
  | some ih =>
    let r := applyReadinessThresholdsLocked (ih.count success)
    let n := { n with settingReady := n.settingReady ++ r.2.toList }
    if success ∧ r.1.promoted = false then
      { n with
        monitor := some { r.1 with
          promoted := true
          ready := if r.1.inst.status = .starting then true else r.1.ready }
        promoting := n.promoting + 1 }
    else { n with monitor := some r.1 }

/-- `AddInstance`: a monitor that exists keeps what it has seen. -/
def addInstance (n : Node) (inst : Instance) (probe : Option Probe) : Node :=
  match n.monitor with
  | some ih => { n with monitor := some { ih with inst, probe } }
  | none => { n with monitor := some { inst, probe, ready := inst.isReady } }

/-- The beginning of a health check, with what it read. -/
def refresh (n : Node) (fresh : Instance) : Node :=
  match n.monitor with
  | none => n
  | some ih =>
    if healthMonitoringTerminal fresh.status then { n with monitor := none }
    else { n with monitor := some { ih with
      inst := fresh, ready := if ih.readyWriting then ih.ready else fresh.isReady } }

/-- One step, if it is possible. -/
def step (n : Node) : Action → Option Node
  | .write inst => some { n with stored := inst }
  | .addInstance inst probe => some (n.addInstance inst probe)
  | .removeInstance => some { n with monitor := none }
  | .refresh fresh => some (n.refresh fresh)
  | .readiness success => some (n.updateHealthStatus success)
  | .promote ok now =>
    if n.promoting = 0 then none
    else
      let n := { n with promoting := n.promoting - 1 }
      let failed := { n with failing := n.failing + 1 }
      if ok then some ((n.update (promoteToRunningOnReady now)).getD failed) else some failed
  | .resetPromoted =>
    if n.failing = 0 then none
    else some { n with
      failing := n.failing - 1
      monitor := n.monitor.map fun ih => { ih with promoted := false } }
  | .setReady ready ok now =>
    if ready ∈ n.settingReady then
      let n := { n with settingReady := n.settingReady.erase ready, readySet := n.readySet + 1 }
      if ok then some ((n.update (Health.setReady ready now)).getD n) else some n
    else none
  | .resetReadyWriting =>
    if n.readySet = 0 then none
    else some { n with
      readySet := n.readySet - 1
      monitor := n.monitor.map fun ih => { ih with readyWriting := false } }

/-- The stored status, if there is a record. -/
def status (n : Node) : Option InstanceStatus := n.stored.map Instance.status

/-- The flag of the monitor, if there is one. -/
def promoted (n : Node) : Option Bool := n.monitor.map InstanceHealth.promoted

/-- A promotion was started, and none is under way any more. -/
def Settled (n : Node) : Prop := n.promoting = 0 ∧ n.failing = 0 ∧ n.promoted = some true

/-- A writer sets the record to starting when no promotion is to come. -/
def Late (n : Node) : Action → Prop
  | .write inst => inst.map Instance.status = some .starting ∧ n.Settled
  | _ => False

/-- What a step does to the status, the flag and the promotions under way. -/
inductive Effect (n : Node) : Action → Node → Prop
  | writes {n' : Node} (inst : Option Instance) (hs : n'.status = inst.map Instance.status)
      (hp : n'.promoting = n.promoting) (hf : n'.failing = n.failing)
      (hm : n'.promoted = n.promoted) : Effect n (.write inst) n'
  /-- Nothing, or the monitor is new or gone. -/
  | monitors {a : Action} {n' : Node} (hs : n'.status = n.status)
      (hp : n'.promoting = n.promoting) (hf : n'.failing = n.failing)
      (hm : n'.promoted = n.promoted ∨ n'.promoted = none ∨ n'.promoted = some false)
      (hpass : a = .readiness true → n.promoted ≠ some false)
      (hne : a ≠ .resetPromoted ∧ ∀ ok now, a ≠ .promote ok now) : Effect n a n'
  | starts {n' : Node} (hs : n'.status = n.status) (hp : n'.promoting = n.promoting + 1)
      (hf : n'.failing = n.failing) : Effect n (.readiness true) n'
  | promotes {now : Time} {n' : Node} (hs : n'.status ≠ some .starting)
      (hrun : n.status = some .starting → n'.status = some .running)
      (hkeep : n.status ≠ some .starting → n'.status = n.status)
      (hp : n.promoting = n'.promoting + 1) (hm : n'.promoted = n.promoted) :
      Effect n (.promote true now) n'
  | fails {ok : Bool} {now : Time} {n' : Node} (hs : n'.status = n.status)
      (hmissing : ok = true → n.status = none) (hp : n.promoting = n'.promoting + 1)
      (hf : n'.failing = n.failing + 1) (hm : n'.promoted = n.promoted) :
      Effect n (.promote ok now) n'
  | reports {n' : Node} (hs : n'.status = n.status) (hp : n'.promoting = n.promoting)
      (hf : n.failing = n'.failing + 1) (hm : n'.promoted = n.promoted.map fun _ => false) :
      Effect n .resetPromoted n'

variable {n n' : Node}

@[simp] theorem applyReadinessThresholdsLocked_promoted (ih : InstanceHealth) :
    (applyReadinessThresholdsLocked ih).1.promoted = ih.promoted := by
  unfold applyReadinessThresholdsLocked
  split_ifs <;> rfl

@[simp] theorem count_promoted (ih : InstanceHealth) (success : Bool) :
    (ih.count success).promoted = ih.promoted := by
  unfold InstanceHealth.count
  split <;> rfl

theorem effect_readiness (n : Node) (success : Bool) :
    Effect n (.readiness success) (n.updateHealthStatus success) := by
  unfold updateHealthStatus
  cases hm : n.monitor with
  | none => exact .monitors rfl rfl rfl (.inl rfl) (by simp [promoted, hm]) (by simp)
  | some ih =>
    dsimp only
    split
    · rename_i hstart
      obtain ⟨rfl, -⟩ := hstart
      exact .starts rfl rfl rfl
    · rename_i hstart
      refine .monitors rfl rfl rfl (.inl (by simp [promoted, hm])) (fun ha hp => hstart ?_)
        (by simp)
      exact ⟨by simpa using ha, by simpa [promoted, hm] using hp⟩

theorem effect_addInstance (n : Node) (inst : Instance) (probe : Option Probe) :
    Effect n (.addInstance inst probe) (n.addInstance inst probe) := by
  unfold Node.addInstance
  cases hm : n.monitor with
  | some ih => exact .monitors rfl rfl rfl (.inl (by simp [promoted, hm])) (by simp) (by simp)
  | none => exact .monitors rfl rfl rfl (.inr (.inr rfl)) (by simp) (by simp)

theorem effect_refresh (n : Node) (fresh : Instance) :
    Effect n (.refresh fresh) (n.refresh fresh) := by
  unfold Node.refresh
  cases hm : n.monitor with
  | none => exact .monitors rfl rfl rfl (.inl rfl) (by simp) (by simp)
  | some ih =>
    dsimp only
    split
    · exact .monitors rfl rfl rfl (.inr (.inl rfl)) (by simp) (by simp)
    · exact .monitors rfl rfl rfl (.inl (by simp [promoted, hm])) (by simp) (by simp)

/-- `UpdateFunc` touches the record only. -/
theorem update_cases (n : Node) (f : Instance → Option Instance) :
    n.stored = none ∧ n.update f = none ∨
      ∃ current, n.stored = some current ∧
        n.update f = some { n with stored := some ((f current).getD current) } := by
  unfold update
  cases n.stored with
  | none => exact .inl ⟨rfl, rfl⟩
  | some current => exact .inr ⟨current, rfl, rfl⟩

theorem effect_promote {ok : Bool} {now : Time} (ht : n.step (.promote ok now) = some n') :
    Effect n (.promote ok now) n' := by
  simp only [step] at ht
  split_ifs at ht with hzero hok
  · subst hok
    have hpos : n.promoting = n.promoting - 1 + 1 := by omega
    rcases update_cases { n with promoting := n.promoting - 1 } (promoteToRunningOnReady now) with
      ⟨hst, hu⟩ | ⟨current, hst, hu⟩
    · rw [hu] at ht
      cases ht
      exact .fails rfl (fun _ => by rw [status, hst, Option.map_none]) hpos rfl rfl
    · rw [hu] at ht
      cases ht
      have hst : n.status = some current.status := by
        rw [status, show n.stored = some current from hst, Option.map_some]
      by_cases h : current.status = .starting
      · refine .promotes ?_ (fun _ => ?_) (fun hne => absurd (hst.trans (by rw [h])) hne) hpos rfl
        · simp [status, promoteToRunningOnReady, h]
        · simp [status, promoteToRunningOnReady, h]
      · have hkeep : (promoteToRunningOnReady now current).getD current = current := by
          simp [promoteToRunningOnReady, h]
        refine .promotes ?_ (fun hs => ?_) (fun _ => ?_) hpos rfl
        · simp [status, hkeep, h]
        · rw [hst, Option.some.injEq] at hs
          exact absurd hs h
        · rw [hst]
          simp [status, hkeep]
  · cases ht
    exact .fails rfl (fun h => absurd h hok) (by dsimp only; omega) rfl rfl

/-- A readiness write does not touch the status. -/
theorem setReady_status (ready : Bool) (now : Time) (current : Instance) :
    ((Health.setReady ready now current).getD current).status = current.status := by
  unfold Health.setReady
  split_ifs <;> rfl

theorem effect_setReady {ready ok : Bool} {now : Time}
    (ht : n.step (.setReady ready ok now) = some n') :
    Effect n (.setReady ready ok now) n' := by
  simp only [step] at ht
  split_ifs at ht with hmem hok
  · rcases update_cases { n with
        settingReady := n.settingReady.erase ready, readySet := n.readySet + 1 }
        (Health.setReady ready now) with ⟨-, hu⟩ | ⟨current, hst, hu⟩
    · rw [hu] at ht
      cases ht
      exact .monitors rfl rfl rfl (.inl rfl) (by simp) (by simp)
    · rw [hu, Option.getD_some] at ht
      cases ht
      refine .monitors ?_ rfl rfl (.inl rfl) (by simp) (by simp)
      rw [status, status, hst, Option.map_some, Option.map_some, setReady_status]
  · cases ht
    exact .monitors rfl rfl rfl (.inl rfl) (by simp) (by simp)

theorem step_effect {a : Action} (ht : n.step a = some n') : Effect n a n' := by
  cases a with
  | write inst =>
    cases ht
    exact .writes inst rfl rfl rfl rfl
  | addInstance inst probe =>
    cases ht
    exact effect_addInstance n inst probe
  | removeInstance =>
    cases ht
    exact .monitors rfl rfl rfl (.inr (.inl rfl)) (by simp) (by simp)
  | refresh fresh =>
    cases ht
    exact effect_refresh n fresh
  | readiness success =>
    cases ht
    exact effect_readiness n success
  | promote ok now => exact effect_promote ht
  | resetPromoted =>
    simp only [step] at ht
    split_ifs at ht
    cases ht
    exact .reports rfl rfl (by dsimp only; omega) (by simp [promoted, Function.comp_def])
  | setReady ready ok now => exact effect_setReady ht
  | resetReadyWriting =>
    simp only [step] at ht
    split_ifs at ht
    cases ht
    exact .monitors rfl rfl rfl (.inl (by simp [promoted, Function.comp_def])) (by simp) (by simp)

/-- A record that is starting will see a promotion: one is under way, or the next
readiness pass starts one. -/
def Promotable (n : Node) : Prop := n.status = some .starting → ¬ n.Settled

/-- Every step keeps a starting record promotable, unless a writer makes one starting
when no promotion is to come. -/
theorem Promotable.step (h : n.Promotable) {a : Action} (hlate : ¬ n.Late a)
    (ht : n.step a = some n') : n'.Promotable := by
  rintro hstart ⟨hp', hf', hm'⟩
  cases step_effect ht with
  | writes inst hs hp hf hm =>
    exact hlate ⟨hs ▸ hstart, hp ▸ hp', hf ▸ hf', hm ▸ hm'⟩
  | monitors hs hp hf hm hpass hne =>
    rcases hm with hm | hm | hm
    · exact h (hs ▸ hstart) ⟨hp ▸ hp', hf ▸ hf', hm ▸ hm'⟩
    · rw [hm] at hm'
      cases hm'
    · rw [hm] at hm'
      cases hm'
  | starts hs hp hf => omega
  | promotes hs hrun hkeep hp hm => exact hs hstart
  | fails hs hmissing hp hf hm => omega
  | reports hs hp hf hm =>
    rw [hm, Option.map_eq_some_iff] at hm'
    obtain ⟨_, -, he⟩ := hm'
    cases he

end Node

/-- An infinite run that begins with nothing monitored. -/
structure Run where
  state : ℕ → Node
  act : ℕ → Action
  start : state 0 = {}
  step : ∀ t, (state t).step (act t) = some (state (t + 1))

namespace Run

variable (r : Run)

/-- Goroutines run on, probes keep being made, and promotions that keep reaching for the
store do not all fail. -/
structure Fair : Prop where
  promote : ∀ t, 0 < (r.state t).promoting → ∃ m, t ≤ m ∧ ∃ ok now, r.act m = .promote ok now
  report : ∀ t, 0 < (r.state t).failing → ∃ m, t ≤ m ∧ r.act m = .resetPromoted
  readiness : ∀ t, ∃ m, t ≤ m ∧ ∃ success, r.act m = .readiness success
  store : ∀ t, (∀ k, t ≤ k → ∃ m, k ≤ m ∧ ∃ ok now, r.act m = .promote ok now) →
    ∃ m, t ≤ m ∧ ∃ now, r.act m = .promote true now

/-- From `t` on the instance is monitored, nobody else writes its record, and every
readiness probe succeeds. -/
structure Quiet (t : ℕ) : Prop where
  monitored : ∀ m, t ≤ m → (r.state m).monitor ≠ none
  unwritten : ∀ m inst, t ≤ m → r.act m ≠ .write inst
  ready : ∀ m success, t ≤ m → r.act m = .readiness success → success = true

variable {r}

theorem promotable (hlate : ∀ t, ¬ (r.state t).Late (r.act t)) (t : ℕ) :
    (r.state t).Promotable := by
  induction t with
  | zero =>
    rw [r.start]
    exact fun h => by cases h
  | succ t ih => exact ih.step (hlate t) (r.step t)

/-- A starting record stays starting as long as no promotion makes it running. -/
theorem Quiet.starting {t : ℕ} (hq : r.Quiet t)
    (hnever : ∀ m, t ≤ m → (r.state m).status ≠ some .running)
    (hstart : (r.state t).status = some .starting) :
    ∀ m, t ≤ m → (r.state m).status = some .starting := by
  intro m htm
  induction m, htm using Nat.le_induction with
  | base => exact hstart
  | succ m htm ih =>
    have heffect := Node.step_effect (r.step m)
    generalize ha : r.act m = a at heffect
    cases heffect with
    | writes inst => exact absurd ha (hq.unwritten m inst htm)
    | monitors hs hp hf hm hpass hne => rw [hs, ih]
    | starts hs hp hf => rw [hs, ih]
    | promotes hs hrun hkeep hp hm => exact absurd (hrun ih) (hnever (m + 1) (by omega))
    | fails hs hmissing hp hf hm => rw [hs, ih]
    | reports hs hp hf hm => rw [hs, ih]

/-- A monitor that has started no promotion starts one. -/
theorem Quiet.starts {t : ℕ} (hq : r.Quiet t) (hf : r.Fair) {k : ℕ} (htk : t ≤ k)
    (hflag : (r.state k).promoted = some false) : ∃ m, k ≤ m ∧ 0 < (r.state m).promoting := by
  by_contra hnone
  push Not at hnone
  obtain ⟨m, hkm, hflag, success, ha⟩ := holds_at_first_event
    (p := fun m => (r.state m).promoted = some false)
    (e := fun m => ∃ success, r.act m = .readiness success) hflag
    (fun m hkm hflag hno => by
      have heffect := Node.step_effect (r.step m)
      have hzero' := hnone (m + 1) (by omega)
      generalize ha : r.act m = a at heffect
      cases heffect with
      | writes inst => exact absurd ha (hq.unwritten m inst (by omega))
      | monitors hs hp hf hm hpass hne =>
        rcases hm with hm | hm | hm
        · rw [hm, hflag]
        · rw [Node.promoted, Option.map_eq_none_iff] at hm
          exact absurd hm (hq.monitored (m + 1) (by omega))
        · exact hm
      | starts hs hp hf => omega
      | promotes hs hrun hkeep hp hm => rw [hm, hflag]
      | fails hs hmissing hp hf hm => rw [hm, hflag]
      | reports hs hp hf hm => rw [hm, hflag, Option.map_some])
    (hf.readiness k)
  obtain rfl := hq.ready m success (by omega) ha
  have heffect := Node.step_effect (r.step m)
  have hzero := hnone (m + 1) (by omega)
  rw [ha] at heffect
  cases heffect with
  | monitors hs hp hf hm hpass hne => exact hpass rfl hflag
  | starts hs hp hf => omega

/-- Promotions keep being attempted while the record is starting. -/
theorem Quiet.attempts {t : ℕ} (hq : r.Quiet t) (hf : r.Fair)
    (hlate : ∀ t, ¬ (r.state t).Late (r.act t))
    (hstart : ∀ m, t ≤ m → (r.state m).status = some .starting) :
    ∀ k, t ≤ k → ∃ m, k ≤ m ∧ ∃ ok now, r.act m = .promote ok now := by
  intro k htk
  have hattempt : ∀ m, k ≤ m → 0 < (r.state m).promoting →
      ∃ m, k ≤ m ∧ ∃ ok now, r.act m = .promote ok now := by
    intro m hkm hp
    obtain ⟨j, hmj, ha⟩ := hf.promote m hp
    exact ⟨j, by omega, ha⟩
  have hflag : ∀ m, k ≤ m → (r.state m).promoted = some false →
      ∃ m, k ≤ m ∧ ∃ ok now, r.act m = .promote ok now := by
    intro m hkm hm
    obtain ⟨j, hmj, hp⟩ := hq.starts hf (by omega) hm
    exact hattempt j (by omega) hp
  by_cases hp : 0 < (r.state k).promoting
  · exact hattempt k le_rfl hp
  by_cases hfail : 0 < (r.state k).failing
  · obtain ⟨m, hkm, ha⟩ := hf.report k hfail
    have heffect := Node.step_effect (r.step m)
    rw [ha] at heffect
    refine hflag (m + 1) (by omega) ?_
    cases hmon : (r.state m).monitor with
    | none => exact absurd hmon (hq.monitored m (by omega))
    | some ih =>
      cases heffect with
      | monitors hs hp hf hm hpass hne => exact absurd rfl hne.1
      | reports hs hp hf hm => rw [hm, Node.promoted, hmon, Option.map_some, Option.map_some]
  · refine hflag k le_rfl ?_
    cases hmon : (r.state k).monitor with
    | none => exact absurd hmon (hq.monitored k htk)
    | some ih =>
      cases hih : ih.promoted with
      | false => rw [Node.promoted, hmon, Option.map_some, hih]
      | true =>
        refine absurd ⟨by omega, by omega, ?_⟩ (promotable hlate k (hstart k htk))
        rw [Node.promoted, hmon, Option.map_some, hih]

/-- When no writer sets the record to starting after its promotion, a record that nobody else
writes any more and whose readiness probes succeed does not stay starting. -/
theorem ready_instance_promoted (hlate : ∀ t, ¬ (r.state t).Late (r.act t)) (hf : r.Fair) {t : ℕ}
    (hq : r.Quiet t) (hstart : (r.state t).status = some .starting) :
    ∃ m, t ≤ m ∧ (r.state m).status = some .running := by
  by_contra hnever
  push Not at hnever
  have hstarting := hq.starting hnever hstart
  obtain ⟨m, htm, now, ha⟩ := hf.store t (hq.attempts hf hlate hstarting)
  have heffect := Node.step_effect (r.step m)
  rw [ha] at heffect
  cases heffect with
  | monitors hs hp hf hm hpass hne => exact absurd rfl (hne.2 true now)
  | promotes hs hrun hkeep hp hm => exact hnever (m + 1) (by omega) (hrun (hstarting m htm))
  | fails hs hmissing hp hf hm =>
    have := hmissing rfl
    rw [hstarting m htm] at this
    cases this

end Run

/-- A record while its container boots. -/
def booting : Instance where
  id := "id-1"
  name := "web-0"
  status := .starting
  ready := false
  createdAt := 0
  lastTransitionAt := none
  readyChangedAt := none

/-- The same record after its promotion. -/
def promotedRecord : Instance :=
  { booting with
    status := .running, lastTransitionAt := some 3, ready := true, readyChangedAt := some 3 }

/-- The monitor of the record after some readiness passes; the first one started a
promotion. -/
def monitorAfter (passes : ℤ) : InstanceHealth where
  inst := booting
  probe := some {}
  readinessStatus := true
  promoted := true
  ready := true
  readinessSuccesses := passes

/-- The create pipeline writes the record, the monitor comes, a readiness pass promotes
it, and passes go on. -/
def promotedRun : Run where
  state t :=
    match t with
    | 0 => {}
    | 1 => { stored := some booting }
    | 2 =>
      { stored := some booting
        monitor := some { inst := booting, probe := some {}, ready := true } }
    | 3 => { stored := some booting, monitor := some (monitorAfter 1), promoting := 1 }
    | k + 4 => { stored := some promotedRecord, monitor := some (monitorAfter (k + 1)) }
  act t :=
    match t with
    | 0 => .write (some booting)
    | 1 => .addInstance booting (some {})
    | 2 => .readiness true
    | 3 => .promote true 3
    | _ + 4 => .readiness true
  start := rfl
  step t := by
    match t with
    | 0 => rfl
    | 1 => rfl
    | 2 => rfl
    | 3 => rfl
    | k + 4 =>
      rfl

theorem promotedRun_fair : promotedRun.Fair where
  promote t ht := by
    match t with
    | 0 | 1 | 2 | k + 4 => simp [promotedRun] at ht
    | 3 => exact ⟨3, le_rfl, true, 3, rfl⟩
  report t ht := by
    match t with
    | 0 | 1 | 2 | 3 | k + 4 => simp [promotedRun] at ht
  readiness t := ⟨t + 4, by omega, true, rfl⟩
  store t ht := by
    obtain ⟨m, hm, ok, now, ha⟩ := ht (t + 4) (by omega)
    obtain ⟨k, rfl⟩ : ∃ k, m = k + 4 := ⟨m - 4, by omega⟩
    cases ha

theorem promotedRun_promotes : ∃ m, 2 ≤ m ∧ (promotedRun.state m).status = some .running := by
  refine Run.ready_instance_promoted (fun t hlate => ?_) promotedRun_fair
    ⟨fun m hm => ?_, fun m inst hm ha => ?_, fun m success hm ha => ?_⟩ rfl
  · match t with
    | 0 => cases hlate.2.2.2
    | 1 | 2 | 3 | k + 4 => exact hlate
  · match m with
    | 2 | 3 | k + 4 => simp [promotedRun]
  · match m with
    | 2 | 3 | k + 4 => cases ha
  · match m with
    | 2 | k + 4 =>
      cases ha
      rfl
    | 3 => cases ha

/-- The monitor comes while the create pipeline is at work. A readiness pass promotes the record,
then the last write of the pipeline sets it to starting again. -/
def stuckRun : Run where
  state t :=
    match t with
    | 0 => {}
    | 1 => { stored := some booting }
    | 2 =>
      { stored := some booting
        monitor := some { inst := booting, probe := some {}, ready := true } }
    | 3 => { stored := some booting, monitor := some (monitorAfter 1), promoting := 1 }
    | 4 => { stored := some promotedRecord, monitor := some (monitorAfter 1) }
    | k + 5 => { stored := some booting, monitor := some (monitorAfter (k + 1)) }
  act t :=
    match t with
    | 0 => .write (some booting)
    | 1 => .addInstance booting (some {})
    | 2 => .readiness true
    | 3 => .promote true 3
    | 4 => .write (some booting)
    | _ + 5 => .readiness true
  start := rfl
  step t := by
    match t with
    | 0 => rfl
    | 1 => rfl
    | 2 => rfl
    | 3 => rfl
    | 4 => rfl
    | k + 5 =>
      rfl

/-- From some moment on nobody else writes the record and every probe succeeds, and yet
the record stays starting for ever. -/
theorem ready_instance_stuck :
    stuckRun.Fair ∧ stuckRun.Quiet 5 ∧
      ∀ m, 5 ≤ m → (stuckRun.state m).status = some .starting := by
  have hlate : ∀ {m : ℕ}, 5 ≤ m → ∃ k, m = k + 5 := fun {m} hm => ⟨m - 5, by omega⟩
  refine ⟨⟨fun t ht => ?_, fun t ht => ?_, fun t => ⟨t + 5, by omega, true, rfl⟩, fun t ht => ?_⟩,
    ⟨fun m hm => ?_, fun m inst hm ha => ?_, fun m success hm ha => ?_⟩, fun m hm => ?_⟩
  · match t with
    | 0 | 1 | 2 | 4 | k + 5 => simp [stuckRun] at ht
    | 3 => exact ⟨3, le_rfl, true, 3, rfl⟩
  · match t with
    | 0 | 1 | 2 | 3 | 4 | k + 5 => simp [stuckRun] at ht
  · obtain ⟨m, hm, ok, now, ha⟩ := ht (t + 5) (by omega)
    obtain ⟨k, rfl⟩ := hlate (show 5 ≤ m by omega)
    cases ha
  · obtain ⟨k, rfl⟩ := hlate hm
    simp [stuckRun]
  · obtain ⟨k, rfl⟩ := hlate hm
    cases ha
  · obtain ⟨k, rfl⟩ := hlate hm
    cases ha
    rfl
  · obtain ⟨k, rfl⟩ := hlate hm
    rfl

end Rune.Health
