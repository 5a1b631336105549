import Rune.Models.Rollout.Instance

/-!
# Update parameters of a service

`resolveUpdateParams` derives the strategy, the surge and the dip together, so
that the pair in which no update could ever take a step is never derived. What
the planner relies on is the `Derived` predicate, proved here for every service.
-/

namespace Rune.Rollout

/-- How outdated instances are replaced. -/
inductive UpdateStrategyType
  | rolling
  | recreate
  deriving DecidableEq

/-- The runner a service's instances run on. -/
inductive RuntimeType
  | container
  | process
  deriving DecidableEq

/-- The parts of a volume mount that decide whether two copies can run. -/
structure VolumeMount where
  /-- A per-replica claim template is set. -/
  claimTemplate : Bool
  /-- A shared claim is set. -/
  claim : Bool
  readOnly : Bool

/-- The host port a service port is published on, zero when it is not. -/
structure ServicePort where
  hostPort : Int

/-- The update strategy of a service; an absent type means rolling. -/
structure UpdateStrategy where
  type : Option UpdateStrategyType
  minServing : Option Int

/-- The fields of a service that the update parameters are derived from. -/
structure Service where
  scale : Int
  volumes : List VolumeMount
  runtime : RuntimeType
  ports : List ServicePort
  updateStrategy : Option UpdateStrategy
  drainSeconds : Option Int
  /-- `Health.Readiness` is set. -/
  readiness : Bool

/-- The resolved values the update planner runs on. -/
structure UpdateParams where
  type : UpdateStrategyType
  extra : Int
  dip : Int
  minReady : Duration
  stallDeadline : Duration
  drain : Duration

/-- The drain of a service that sets none. -/
def defaultDrainSeconds : Int := 5

/-- The shortest drain. -/
def minDrainSeconds : Int := 1

/-- How long an instance without a probe has to run. -/
def minReadySecondsWithoutProbe : Int := 5

/-- After how long an update has stalled. -/
def updateStallSeconds : Int := 600

namespace Service

/-- Every replica has a volume of its own. -/
def hasClaimTemplateVolume (s : Service) : Bool := s.volumes.any fun v => v.claimTemplate

/-- The replicas share a volume that they write. -/
def hasWritableClaimVolume (s : Service) : Bool := s.volumes.any fun v => v.claim && !v.readOnly

/-- A second copy of a replica can run next to the one it replaces. -/
def isSurgeCapable (s : Service) : Bool :=
  !s.hasClaimTemplateVolume && !s.hasWritableClaimVolume && s.runtime != .process &&
    !s.ports.any fun p => p.hostPort != 0

/-- The service says when it is ready. -/
def hasReadinessProbe (s : Service) : Bool := s.readiness

/-- The shutdown grace of the service's instances, floored so that a true zero
cannot be configured. -/
def drainWindow (s : Service) : Duration :=
  max (s.drainSeconds.getD defaultDrainSeconds) minDrainSeconds * second

/-- The strategy type in force: the explicit one, or rolling. -/
def strategyType (s : Service) : UpdateStrategyType :=
  (s.updateStrategy.bind UpdateStrategy.type).getD .rolling

/-- The surge and the dip are one coupled decision. -/
def surgePair (s : Service) : Int × Int := if s.isSurgeCapable then (1, 0) else (0, 1)

/-- An explicit floor overrides the derived dip, and only to loosen it. -/
def flooredDip (s : Service) (dip : Int) : Int :=
  match s.updateStrategy.bind UpdateStrategy.minServing with
  | some minServing => if dip < s.scale - minServing then s.scale - minServing else dip
  | none => dip

/-- Derive the update parameters of a service. Recreate takes everything down
before creating, so it has no spare copy and its dip is the whole service. -/
def resolveUpdateParams (s : Service) : UpdateParams where
  type := s.strategyType
  extra := if s.strategyType = .recreate then 0 else s.surgePair.1
  dip := if s.strategyType = .recreate then (if s.scale < 1 then 1 else s.scale)
    else s.flooredDip s.surgePair.2
  minReady := if s.hasReadinessProbe then 0 else minReadySecondsWithoutProbe * second
  stallDeadline := updateStallSeconds * second
  drain := s.drainWindow

/-- A floor never tightens the dip it is applied to. -/
theorem le_flooredDip (s : Service) (dip : Int) : dip ≤ s.flooredDip dip := by
  unfold flooredDip
  split
  · split <;> omega
  · exact le_rfl

end Service

/-- The parameter pairs that `resolveUpdateParams` produces for a scale: rolling with room for a
step, or recreate with the whole service as its dip. -/
inductive UpdateParams.Derived (scale : Int) (p : UpdateParams) : Prop
  | rolling (type : p.type = .rolling) (extra : 0 ≤ p.extra) (dip : 0 ≤ p.dip)
      (step : 1 ≤ p.extra + p.dip) : Derived scale p
  | recreate (type : p.type = .recreate) (extra : p.extra = 0) (dip : scale ≤ p.dip) :
      Derived scale p

/-- Every service resolves to a derived pair for its own scale. -/
theorem Service.resolveUpdateParams_derived (s : Service) :
    s.resolveUpdateParams.Derived s.scale := by
  cases ht : s.strategyType with
  | rolling =>
    have hd := s.le_flooredDip s.surgePair.2
    have he : s.resolveUpdateParams.extra = s.surgePair.1 := by
      simp [resolveUpdateParams, ht]
    have hdip : s.resolveUpdateParams.dip = s.flooredDip s.surgePair.2 := by
      simp [resolveUpdateParams, ht]
    have hpair : s.surgePair = (1, 0) ∨ s.surgePair = (0, 1) := by
      unfold surgePair
      split
      · exact Or.inl rfl
      · exact Or.inr rfl
    rcases hpair with hp | hp <;> rw [hp] at he hdip hd <;>
      exact .rolling ht (by omega) (by omega) (by omega)
  | recreate =>
    refine .recreate ht (by simp [resolveUpdateParams, ht]) ?_
    simp only [resolveUpdateParams, ht, ite_true]
    split <;> omega

namespace UpdateParams.Derived

variable {scale : Int} {p : UpdateParams}

theorem extra_nonneg (h : p.Derived scale) : 0 ≤ p.extra := by
  cases h with
  | rolling _ he _ _ => exact he
  | recreate _ he _ => omega

theorem dip_nonneg (hs : 0 ≤ scale) (h : p.Derived scale) : 0 ≤ p.dip := by
  cases h with
  | rolling _ _ hd _ => exact hd
  | recreate _ _ hd => omega

end UpdateParams.Derived

end Rune.Rollout
