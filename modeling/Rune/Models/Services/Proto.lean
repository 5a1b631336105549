import Rune.Models.Services.Writers

/-!
# Services on the wire

A service is sent as a message and read back. The two converters are written by hand, field by
field; what neither of them mentions is not sent. Integers are sent with 32 bits. A message whose
fields are those of the record is represented by the record, and a text that is only cast is kept
as what it stands for.
-/

namespace Rune.Services

/-- The largest 32-bit integer. -/
def maxInt32 : ℤ := 2147483647

/-- Cut a number to the range of the message. -/
def toInt32NonNegative (n : ℤ) : ℤ := if n < 0 then 0 else if maxInt32 < n then maxInt32 else n

namespace Message

/-- The kinds of probe. -/
inductive ProbeType where
  | unspecified
  | http
  | tcp
  | exec
  deriving DecidableEq

/-- A probe in a message. -/
structure Probe where
  type : ProbeType := .unspecified
  path : String := ""
  host : String := ""
  port : ℤ := 0
  command : List String := []
  initialDelaySeconds : ℤ := 0
  periodSeconds : ℤ := 0
  timeoutSeconds : ℤ := 0

/-- The probes in a message. -/
structure HealthCheck where
  liveness : Option Probe := none
  readiness : Option Probe := none

/-- The resources in a message. -/
structure Resources where
  cpu : Option ResourceLimit := none
  memory : Option ResourceLimit := none

/-- Zero is unset, so that a zero is sent as minus one. -/
structure UpdateStrategy where
  type : UpdateStrategyType := .unset
  minServing : ℤ := 0

/-- A mount in a message. -/
structure VolumeMount where
  name : String
  mountPath : String
  readOnly : Bool := false
  subPath : String := ""
  fsMode : String := ""
  fsUser : ℤ := 0
  fsUserSet : Bool := false
  fsGroup : ℤ := 0
  fsGroupSet : Bool := false
  claim : Option String := none
  claimTemplate : Option VolumeClaimTemplate := none

/-- An init step in a message. -/
structure InitStep where
  name : String
  image : String := ""
  command : String := ""
  args : List String := []
  env : Entries := []
  envFrom : List EnvFromSource := []
  volumes : List String := []
  volumesSet : Bool := false
  secretMounts : List String := []
  secretMountsSet : Bool := false
  configmapMounts : List String := []
  configmapMountsSet : Bool := false
  resources : Option Resources := none
  runIf : Option RunIf := none
  timeoutNanos : ℤ := 0
  restartPolicy : InitStepRestartPolicy := .unset
  securityContext : Option SecurityContext := none

/-- The status in a message. -/
inductive ServiceStatus where
  | unspecified
  | pending
  | running
  | updating
  | failed
  deriving DecidableEq

/-- The metadata in a message. -/
structure ServiceMetadata where
  generation : ℤ
  createdAt : String
  updatedAt : String
  lastNonZeroScale : ℤ
  templateGeneration : ℤ
  observedGeneration : ℤ

/-- The message of a service. The instances that a response carries along are not read back into
anything that is stored. -/
structure Service where
  id : String
  name : String
  ns : String
  labels : Entries := []
  image : String := ""
  command : String := ""
  args : List String := []
  env : Entries := []
  envFrom : List EnvFromSource := []
  scale : ℤ := 0
  runtime : RuntimeType := .unset
  imagePull : String := ""
  imagePullAnonymous : Bool := false
  ports : List ServicePort := []
  resources : Option Resources := none
  health : Option HealthCheck := none
  networkPolicy : Option ServiceNetworkPolicy := none
  expose : Option ServiceExpose := none
  secretMounts : List FileMount := []
  configmapMounts : List FileMount := []
  volumes : List VolumeMount := []
  initSteps : List InitStep := []
  securityContext : Option SecurityContext := none
  discovery : Option ServiceDiscovery := none
  dependencies : List DependencyRef := []
  status : ServiceStatus := .unspecified
  statusReason : String := ""
  statusMessage : String := ""
  ingressCert : Option IngressCertStatus := none
  updateStrategy : Option UpdateStrategy := none
  drainSeconds : ℤ := 0
  update : Option UpdateStatus := none
  metadata : Option ServiceMetadata := none

end Message

/-- Send a probe; the fields of its kind only. -/
def probeToProto (p : Probe) : Message.Probe :=
  let sent : Message.Probe :=
    { initialDelaySeconds := toInt32NonNegative p.initialDelaySeconds
      periodSeconds := toInt32NonNegative p.intervalSeconds
      timeoutSeconds := toInt32NonNegative p.timeoutSeconds
      host := p.host }
  if p.type = "http" then
    { sent with type := .http, path := p.path, port := toInt32NonNegative p.port }
  else if p.type = "tcp" then { sent with type := .tcp, port := toInt32NonNegative p.port }
  else if p.type = "exec" then { sent with type := .exec, command := p.command }
  else sent

/-- Send the probes. -/
def healthToProto (h : HealthCheck) : Message.HealthCheck where
  liveness := h.liveness.map probeToProto
  readiness := h.readiness.map probeToProto

/-- Send the limits, without GPUs. -/
def limitsToProto (r : Resources) : Message.Resources where
  cpu := some r.cpu
  memory := some r.memory

/-- Send the resources, if there are any. -/
def resourcesToProto (r : Resources) : Option Message.Resources :=
  if r ≠ {} then some (limitsToProto r) else none

/-- An integer of which zero means unset. -/
def sentinelToProto : Option ℤ → ℤ
  | none => 0
  | some n => if n = 0 then -1 else toInt32NonNegative n

/-- Send the strategy. -/
def updateStrategyToProto (u : UpdateStrategy) : Message.UpdateStrategy where
  type := u.type
  minServing := sentinelToProto u.minServing

/-- Send a port. -/
def portToProto (p : ServicePort) : ServicePort :=
  { p with
    port := toInt32NonNegative p.port
    targetPort := toInt32NonNegative p.targetPort
    hostPort := toInt32NonNegative p.hostPort }

/-- Send a mount. -/
def volumeMountToProto (m : VolumeMount) : Message.VolumeMount where
  name := m.name
  mountPath := m.mountPath
  readOnly := m.readOnly
  subPath := m.subPath
  fsMode := m.fsMode
  fsUser := (m.fsUser.map toInt32NonNegative).getD 0
  fsUserSet := m.fsUser.isSome
  fsGroup := (m.fsGroup.map toInt32NonNegative).getD 0
  fsGroupSet := m.fsGroup.isSome
  claim := m.claim
  claimTemplate := m.claimTemplate

/-- A filter that is missing is told apart from an empty one. -/
def initStepToProto (s : InitStep) : Message.InitStep where
  name := s.name
  image := s.image
  command := s.command
  args := s.args
  env := s.env
  envFrom := s.envFrom
  volumes := s.volumes.getD []
  volumesSet := s.volumes.isSome
  secretMounts := s.secretMounts.getD []
  secretMountsSet := s.secretMounts.isSome
  configmapMounts := s.configmapMounts.getD []
  configmapMountsSet := s.configmapMounts.isSome
  resources := s.resources.map limitsToProto
  runIf := if s.runIf.type ≠ .unset ∨ s.runIf.path ≠ "" ∨ s.runIf.volume ≠ "" then some s.runIf
    else none
  timeoutNanos := s.timeout
  restartPolicy := s.restartPolicy
  securityContext := s.securityContext

/-- Send the status, where there is one for it. -/
def statusToProto : ServiceStatus → Message.ServiceStatus
  | .pending => .pending
  | .running => .running
  | .deploying => .updating
  | .failed => .failed
  | .stopping | .deleted => .unspecified

/-- Send the counters of an update. -/
def updateStatusToProto (u : UpdateStatus) : UpdateStatus :=
  { u with
    desired := toInt32NonNegative u.desired
    updated := toInt32NonNegative u.updated
    updatedReady := toInt32NonNegative u.updatedReady
    available := toInt32NonNegative u.available
    outdated := toInt32NonNegative u.outdated }

/-- The texts of the two times of a record, which the library reads back. -/
structure Timestamps where
  created : String
  updated : String
  parse : String → Except String Unit
  parse_created : parse created = .ok ()
  parse_updated : parse updated = .ok ()

/-- Send a service. -/
def serviceToProto (times : Timestamps) (s : Service) : Message.Service where
  id := s.id
  name := s.name
  ns := s.ns
  labels := s.spec.labels
  image := s.spec.image
  command := s.spec.command
  args := s.spec.args
  env := s.spec.env
  envFrom := s.spec.envFrom
  scale := toInt32NonNegative s.spec.scale
  runtime := s.spec.runtime
  imagePull := s.spec.imagePull
  imagePullAnonymous := s.spec.imagePullAnonymous
  ports := s.spec.ports.map portToProto
  resources := resourcesToProto s.spec.resources
  health := s.spec.health.map healthToProto
  networkPolicy := s.spec.networkPolicy
  expose := s.spec.expose
  secretMounts := s.spec.secretMounts
  configmapMounts := s.spec.configmapMounts
  volumes := s.spec.volumes.map volumeMountToProto
  initSteps := s.spec.initSteps.map initStepToProto
  securityContext := s.spec.securityContext
  discovery := s.discovery
  dependencies := s.spec.dependencies
  status := statusToProto s.status
  statusReason := s.statusReason
  statusMessage := s.statusMessage
  ingressCert := s.ingressCert
  updateStrategy := s.spec.updateStrategy.map updateStrategyToProto
  drainSeconds := sentinelToProto s.spec.drainSeconds
  update := s.update.map updateStatusToProto
  metadata := some
    { generation := s.metadata.generation
      createdAt := times.created
      updatedAt := times.updated
      lastNonZeroScale := toInt32NonNegative s.metadata.lastNonZeroScale
      templateGeneration := s.metadata.templateGeneration
      observedGeneration := s.metadata.observedGeneration }

/-- Read a probe. -/
def probeFromProto (p : Message.Probe) : Probe :=
  let read : Probe :=
    { type := ""
      initialDelaySeconds := p.initialDelaySeconds
      intervalSeconds := p.periodSeconds
      timeoutSeconds := p.timeoutSeconds
      host := p.host }
  match p.type with
  | .http => { read with type := "http", path := p.path, port := p.port }
  | .tcp => { read with type := "tcp", port := p.port }
  | .exec => { read with type := "exec", command := p.command }
  | .unspecified => read

/-- Read the probes. -/
def healthFromProto (h : Message.HealthCheck) : HealthCheck where
  liveness := h.liveness.map probeFromProto
  readiness := h.readiness.map probeFromProto

/-- Read the resources. -/
def resourcesFromProto (r : Message.Resources) : Resources where
  cpu := r.cpu.getD {}
  memory := r.memory.getD {}

/-- Read a count: zero is none, below zero is zero. -/
def sentinelFromProto (n : ℤ) : Option ℤ :=
  if n = 0 then none else some (if n < 0 then 0 else n)

/-- Read the strategy. -/
def updateStrategyFromProto (u : Message.UpdateStrategy) : UpdateStrategy where
  type := u.type
  minServing := sentinelFromProto u.minServing

/-- A value that is sent with a flag. -/
def ifSet {α : Type} (set : Bool) (a : α) : Option α := if set then some a else none

/-- Read a mount. -/
def volumeMountFromProto (m : Message.VolumeMount) : VolumeMount where
  name := m.name
  mountPath := m.mountPath
  readOnly := m.readOnly
  subPath := m.subPath
  fsMode := m.fsMode
  fsUser := ifSet m.fsUserSet m.fsUser
  fsGroup := ifSet m.fsGroupSet m.fsGroup
  claim := m.claim
  claimTemplate := m.claimTemplate

/-- Read an init step. -/
def initStepFromProto (p : Message.InitStep) : InitStep where
  name := p.name
  image := p.image
  command := p.command
  args := p.args
  env := p.env
  envFrom := p.envFrom
  volumes := ifSet p.volumesSet p.volumes
  secretMounts := ifSet p.secretMountsSet p.secretMounts
  configmapMounts := ifSet p.configmapMountsSet p.configmapMounts
  resources := p.resources.map resourcesFromProto
  runIf := p.runIf.getD {}
  timeout := p.timeoutNanos
  restartPolicy := p.restartPolicy
  securityContext := p.securityContext

/-- Read the status; a missing one is pending. -/
def statusFromProto : Message.ServiceStatus → ServiceStatus
  | .pending | .unspecified => .pending
  | .running => .running
  | .updating => .deploying
  | .failed => .failed

/-- The operator's fields of a message. -/
def specFromProto (p : Message.Service) : ServiceSpec where
  labels := p.labels
  image := p.image
  imagePull := p.imagePull
  imagePullAnonymous := p.imagePullAnonymous
  command := p.command
  args := p.args
  env := p.env
  envFrom := p.envFrom
  scale := p.scale
  ports := p.ports
  resources := (p.resources.map resourcesFromProto).getD {}
  health := p.health.map healthFromProto
  networkPolicy := p.networkPolicy
  expose := p.expose
  secretMounts := p.secretMounts
  configmapMounts := p.configmapMounts
  volumes := p.volumes.map volumeMountFromProto
  initSteps := p.initSteps.map initStepFromProto
  securityContext := p.securityContext
  dependencies := p.dependencies
  runtime := p.runtime
  updateStrategy := p.updateStrategy.map updateStrategyFromProto
  drainSeconds := sentinelFromProto p.drainSeconds

/-- The times of a message have to be readable. -/
def metadataFromProto (parse : String → Except String Unit) :
    Option Message.ServiceMetadata → Except String ServiceMetadata
  | none => .ok {}
  | some m => do
    (parse m.createdAt).mapError fun e => "failed to parse created_at timestamp: " ++ e
    (parse m.updatedAt).mapError fun e => "failed to parse updated_at timestamp: " ++ e
    pure
      { generation := m.generation
        lastNonZeroScale := m.lastNonZeroScale
        templateGeneration := m.templateGeneration
        observedGeneration := m.observedGeneration }

/-- Read a service. -/
def protoToService (parse : String → Except String Unit) (p : Message.Service) :
    Except String Service := do
  let metadata ← metadataFromProto parse p.metadata
  pure
    { id := p.id
      ns := p.ns
      name := p.name
      spec := specFromProto p
      discovery := p.discovery
      status := statusFromProto p.status
      statusReason := p.statusReason
      statusMessage := p.statusMessage
      update := p.update
      metadata }

/-- A probe is sent with what its type needs, and without its thresholds. -/
def Probe.transported (p : Probe) : Probe :=
  let kept : Probe :=
    { type := p.type
      host := p.host
      initialDelaySeconds := p.initialDelaySeconds
      intervalSeconds := p.intervalSeconds
      timeoutSeconds := p.timeoutSeconds }
  if p.type = "http" then { kept with path := p.path, port := p.port }
  else if p.type = "tcp" then { kept with port := p.port }
  else if p.type = "exec" then { kept with command := p.command }
  else { kept with type := "" }

/-- What arrives of the probes. -/
def HealthCheck.transported (h : HealthCheck) : HealthCheck where
  liveness := h.liveness.map Probe.transported
  readiness := h.readiness.map Probe.transported

/-- What arrives of the resources. -/
def Resources.transported (r : Resources) : Resources := { r with gpu := none }

/-- What arrives of an init step. -/
def InitStep.transported (s : InitStep) : InitStep :=
  { s with resources := s.resources.map Resources.transported }

/-- The part of a spec that is sent. -/
def ServiceSpec.transported (s : ServiceSpec) : ServiceSpec :=
  { s with
    imageRegistry := ""
    registry := none
    resources := s.resources.transported
    health := s.health.map HealthCheck.transported
    affinity := none
    autoscale := none
    initSteps := s.initSteps.map InitStep.transported
    process := none
    restartPolicy := .unset }

/-- The integer is sent as it is. -/
def Fits (n : ℤ) : Prop := 0 ≤ n ∧ n ≤ maxInt32

instance (n : ℤ) : Decidable (Fits n) := inferInstanceAs (Decidable (_ ∧ _))

/-- The numbers of a probe are sent as they are. -/
structure Probe.IntsFit (p : Probe) : Prop where
  port : Fits p.port
  initialDelaySeconds : Fits p.initialDelaySeconds
  intervalSeconds : Fits p.intervalSeconds
  timeoutSeconds : Fits p.timeoutSeconds

/-- The integers of the spec lie between zero and the largest 32-bit integer. -/
structure ServiceSpec.IntsFit (s : ServiceSpec) : Prop where
  scale : Fits s.scale
  ports : ∀ p ∈ s.ports, Fits p.port ∧ Fits p.targetPort ∧ Fits p.hostPort
  liveness : ∀ h ∈ s.health, ∀ p ∈ h.liveness, p.IntsFit
  readiness : ∀ h ∈ s.health, ∀ p ∈ h.readiness, p.IntsFit
  volumes : ∀ m ∈ s.volumes, (∀ n ∈ m.fsUser, Fits n) ∧ ∀ n ∈ m.fsGroup, Fits n
  minServing : ∀ u ∈ s.updateStrategy, ∀ n ∈ u.minServing, Fits n
  drainSeconds : ∀ n ∈ s.drainSeconds, Fits n

theorem toInt32NonNegative_of_fits {n : ℤ} (h : Fits n) : toInt32NonNegative n = n := by
  rw [toInt32NonNegative, if_neg (not_lt.2 h.1), if_neg (not_lt.2 h.2)]

/-- A probe. -/
theorem probeFromProto_probeToProto {p : Probe} (h : p.IntsFit) :
    probeFromProto (probeToProto p) = p.transported := by
  have hport := toInt32NonNegative_of_fits h.port
  have hdelay := toInt32NonNegative_of_fits h.initialDelaySeconds
  have hinterval := toInt32NonNegative_of_fits h.intervalSeconds
  have htimeout := toInt32NonNegative_of_fits h.timeoutSeconds
  unfold probeToProto Probe.transported
  split_ifs <;> simp [probeFromProto, *]

/-- A health check. -/
theorem healthFromProto_healthToProto {h : HealthCheck} (hl : ∀ p ∈ h.liveness, p.IntsFit)
    (hr : ∀ p ∈ h.readiness, p.IntsFit) : healthFromProto (healthToProto h) = h.transported := by
  have hmap : ∀ o : Option Probe, (∀ p ∈ o, p.IntsFit) →
      (o.map probeToProto).map probeFromProto = o.map Probe.transported := by
    intro o ho
    cases o with
    | none => rfl
    | some p => exact congrArg some (probeFromProto_probeToProto (ho p rfl))
  simp only [healthFromProto, healthToProto, HealthCheck.transported, hmap _ hl, hmap _ hr]

/-- Resources. -/
theorem resourcesFromProto_resourcesToProto (r : Resources) :
    ((resourcesToProto r).map resourcesFromProto).getD {} = r.transported := by
  unfold resourcesToProto
  split
  · rfl
  · rename_i h
    rw [not_not.1 h]
    rfl

/-- Zero is sent as minus one and read back as zero. -/
theorem sentinelFromProto_sentinelToProto {o : Option ℤ} (h : ∀ n ∈ o, Fits n) :
    sentinelFromProto (sentinelToProto o) = o := by
  cases o with
  | none => rfl
  | some n =>
    by_cases hn : n = 0
    · subst hn
      rfl
    · have hfits := h n rfl
      have hpos := hfits.1
      rw [sentinelToProto, if_neg hn, toInt32NonNegative_of_fits hfits, sentinelFromProto,
        if_neg hn, if_neg (not_lt.2 hpos)]

/-- An update strategy. -/
theorem updateStrategyFromProto_updateStrategyToProto {u : UpdateStrategy}
    (h : ∀ n ∈ u.minServing, Fits n) :
    updateStrategyFromProto (updateStrategyToProto u) = u := by
  simp only [updateStrategyFromProto, updateStrategyToProto, sentinelFromProto_sentinelToProto h]

/-- A port. -/
theorem portToProto_of_fits {p : ServicePort}
    (h : Fits p.port ∧ Fits p.targetPort ∧ Fits p.hostPort) : portToProto p = p := by
  simp only [portToProto, toInt32NonNegative_of_fits h.1, toInt32NonNegative_of_fits h.2.1,
    toInt32NonNegative_of_fits h.2.2]

/-- A mount. -/
theorem volumeMountFromProto_volumeMountToProto {m : VolumeMount}
    (h : (∀ n ∈ m.fsUser, Fits n) ∧ ∀ n ∈ m.fsGroup, Fits n) :
    volumeMountFromProto (volumeMountToProto m) = m := by
  have hset : ∀ o : Option ℤ, (∀ n ∈ o, Fits n) →
      ifSet o.isSome ((o.map toInt32NonNegative).getD 0) = o := by
    intro o ho
    cases o with
    | none => rfl
    | some n => exact congrArg some (toInt32NonNegative_of_fits (ho n rfl))
  simp only [volumeMountFromProto, volumeMountToProto, hset _ h.1, hset _ h.2]

/-- An init step. -/
theorem initStepFromProto_initStepToProto (s : InitStep) :
    initStepFromProto (initStepToProto s) = s.transported := by
  have hset : ∀ o : Option (List String), ifSet o.isSome (o.getD []) = o := by
    intro o
    cases o <;> rfl
  have hrunIf : (if s.runIf.type ≠ .unset ∨ s.runIf.path ≠ "" ∨ s.runIf.volume ≠ ""
      then some s.runIf else none).getD {} = s.runIf := by
    split
    · rfl
    · rename_i h
      simp only [not_or, not_not] at h
      cases hr : s.runIf with
      | mk type path volume =>
        rw [hr] at h
        obtain ⟨rfl, rfl, rfl⟩ := h
        rfl
  simp only [initStepFromProto, initStepToProto, InitStep.transported, hset, hrunIf, Option.map_map]
  rfl

theorem map_eq_self {α : Type*} {f : α → α} {l : List α} (h : ∀ a ∈ l, f a = a) : l.map f = l := by
  rw [List.map_congr_left h, List.map_id']

/-- The message reads back as the part of the spec that is sent. -/
theorem specFromProto_serviceToProto (times : Timestamps) {s : Service} (h : s.spec.IntsFit) :
    specFromProto (serviceToProto times s) = s.spec.transported := by
  have hports : s.spec.ports.map portToProto = s.spec.ports :=
    map_eq_self fun p hp => portToProto_of_fits (h.ports p hp)
  have hvolumes : (s.spec.volumes.map volumeMountToProto).map volumeMountFromProto =
      s.spec.volumes := by
    rw [List.map_map]
    exact map_eq_self fun m hm => volumeMountFromProto_volumeMountToProto (h.volumes m hm)
  have hsteps : (s.spec.initSteps.map initStepToProto).map initStepFromProto =
      s.spec.initSteps.map InitStep.transported := by
    rw [List.map_map]
    exact List.map_congr_left fun st _ => initStepFromProto_initStepToProto st
  have hhealth : (s.spec.health.map healthToProto).map healthFromProto =
      s.spec.health.map HealthCheck.transported := by
    cases hc : s.spec.health with
    | none => rfl
    | some c =>
      exact congrArg some (healthFromProto_healthToProto (h.liveness c hc) (h.readiness c hc))
  have hstrategy : (s.spec.updateStrategy.map updateStrategyToProto).map updateStrategyFromProto =
      s.spec.updateStrategy := by
    cases hu : s.spec.updateStrategy with
    | none => rfl
    | some u =>
      exact congrArg some (updateStrategyFromProto_updateStrategyToProto (h.minServing u hu))
  simp only [specFromProto, serviceToProto, ServiceSpec.transported, hports, hvolumes, hsteps,
    hhealth, hstrategy, toInt32NonNegative_of_fits h.scale, resourcesFromProto_resourcesToProto,
    sentinelFromProto_sentinelToProto h.drainSeconds]

/-- Every message of a service can be read. -/
theorem protoToService_serviceToProto (times : Timestamps) (s : Service) :
    ∃ u, protoToService times.parse (serviceToProto times s) = .ok u ∧ u.id = s.id ∧ u.ns = s.ns ∧
      u.name = s.name ∧ u.spec = specFromProto (serviceToProto times s) ∧
        u.discovery = s.discovery := by
  obtain ⟨m, hm⟩ :
      ∃ m, metadataFromProto times.parse (serviceToProto times s).metadata = .ok m := by
    refine ⟨{ generation := s.metadata.generation
              lastNonZeroScale := toInt32NonNegative s.metadata.lastNonZeroScale
              templateGeneration := s.metadata.templateGeneration
              observedGeneration := s.metadata.observedGeneration }, ?_⟩
    simp only [serviceToProto, metadataFromProto, times.parse_created, times.parse_updated]
    rfl
  rw [protoToService, hm]
  exact ⟨_, rfl, rfl, rfl, rfl, rfl, rfl⟩

theorem overlay_self (d : ServiceDiscovery) : d.overlay d = d := by
  simp [ServiceDiscovery.overlay]

theorem discoveryWithoutVIP_ensure (vip : Option String) (d : Option ServiceDiscovery) :
    discoveryWithoutVIP (ensureServiceDiscoveryVIP vip d) = discoveryWithoutVIP d := by
  unfold ensureServiceDiscoveryVIP
  split
  · rfl
  · split
    · rfl
    · cases d <;> simp [discoveryWithoutVIP]

/-- Merging a block into itself leaves the operator's part of it. -/
theorem discoveryWithoutVIP_merge_self (d : Option ServiceDiscovery) :
    discoveryWithoutVIP (mergeServiceDiscovery d d) = discoveryWithoutVIP d := by
  unfold mergeServiceDiscovery
  rw [overlay_self]
  dsimp only
  split
  · rename_i hempty
    cases d with
    | none => rfl
    | some d =>
      obtain rfl : d = {} := hempty
      rfl
  · rename_i hne
    cases d with
    | none => exact absurd rfl hne
    | some d => rfl

/-- An update whose payload has the spec and the discovery block of the record moves no hash. -/
theorem calculateHash_updateService {r : UpdateRequest} {s : Service}
    (hspec : r.payload.spec = s.spec) (hdisc : r.payload.discovery = s.discovery) :
    (r.updateService s).calculateHash = s.calculateHash := by
  have hupdated : (r.updateService s).spec = r.payload.spec ∧
      (r.updateService s).discovery =
        ensureServiceDiscoveryVIP r.vip
          (mergeServiceDiscovery s.discovery r.payload.discovery) := by
    unfold UpdateRequest.updateService
    split <;> exact ⟨rfl, rfl⟩
  rw [Service.calculateHash, hupdated.1, hupdated.2, hspec, hdisc]
  exact calculateHash_eq_iff.2 ⟨rfl, by
    rw [discoveryWithoutVIP_ensure, discoveryWithoutVIP_merge_self]⟩

/-- The probe has no thresholds, and only what its type needs. -/
def Probe.Sendable (p : Probe) : Prop :=
  p.failureThreshold = 0 ∧ p.successThreshold = 0 ∧
    (p.type = "http" ∧ p.command = [] ∨ p.type = "tcp" ∧ p.path = "" ∧ p.command = [] ∨
      p.type = "exec" ∧ p.path = "" ∧ p.port = 0 ∨
      p.type = "" ∧ p.path = "" ∧ p.port = 0 ∧ p.command = [])

instance (p : Probe) : Decidable p.Sendable := inferInstanceAs (Decidable (_ ∧ _ ∧ _))

/-- The spec uses nothing that has no place in the message. -/
structure ServiceSpec.Sendable (s : ServiceSpec) : Prop where
  imageRegistry : s.imageRegistry = ""
  registry : s.registry = none
  gpu : s.resources.gpu = none
  liveness : ∀ h ∈ s.health, ∀ p ∈ h.liveness, p.Sendable
  readiness : ∀ h ∈ s.health, ∀ p ∈ h.readiness, p.Sendable
  affinity : s.affinity = none
  autoscale : s.autoscale = none
  stepGPU : ∀ step ∈ s.initSteps, ∀ r ∈ step.resources, r.gpu = none
  process : s.process = none
  restartPolicy : s.restartPolicy = .unset

theorem map_eq_self_iff {α : Type*} {f : α → α} {l : List α} : l.map f = l ↔ ∀ a ∈ l, f a = a := by
  refine ⟨fun h => List.map_eq_map_iff.mp (h.trans l.map_id.symm), map_eq_self⟩

theorem option_map_eq_self_iff {α : Type*} {f : α → α} {o : Option α} :
    o.map f = o ↔ ∀ a ∈ o, f a = a := by
  cases o <;> simp

/-- What a probe must be to arrive. -/
theorem Probe.transported_eq_iff (p : Probe) : p.transported = p ↔ p.Sendable := by
  obtain ⟨type, path, host, port, command, delay, interval, timeout, failures, successes⟩ := p
  unfold Probe.transported Probe.Sendable
  split_ifs with hhttp htcp hexec <;> simp_all <;> grind

/-- What resources must be. -/
theorem Resources.transported_eq_iff (r : Resources) : r.transported = r ↔ r.gpu = none := by
  cases r
  simp [Resources.transported, eq_comm]

/-- The part of a spec that is sent is the whole of it exactly if it uses nothing else. -/
theorem ServiceSpec.transported_eq_iff (s : ServiceSpec) : s.transported = s ↔ s.Sendable := by
  have hhealth : s.health.map HealthCheck.transported = s.health ↔
      (∀ h ∈ s.health, ∀ p ∈ h.liveness, p.Sendable) ∧
        ∀ h ∈ s.health, ∀ p ∈ h.readiness, p.Sendable := by
    rw [option_map_eq_self_iff, ← forall₂_and]
    refine forall₂_congr fun h _ => ?_
    cases h
    simp [HealthCheck.transported, option_map_eq_self_iff, Probe.transported_eq_iff]
  have hsteps : s.initSteps.map InitStep.transported = s.initSteps ↔
      ∀ step ∈ s.initSteps, ∀ r ∈ step.resources, r.gpu = none := by
    rw [map_eq_self_iff]
    refine forall₂_congr fun step _ => ?_
    cases step
    simp [InitStep.transported, option_map_eq_self_iff, Resources.transported_eq_iff]
  constructor
  · intro h
    have hfields := fun {α : Type} (f : ServiceSpec → α) => congrArg f h
    obtain ⟨hl, hr⟩ := hhealth.mp (hfields ServiceSpec.health)
    exact
      { imageRegistry := (hfields ServiceSpec.imageRegistry).symm
        registry := (hfields ServiceSpec.registry).symm
        gpu := (Resources.transported_eq_iff _).mp (hfields ServiceSpec.resources)
        liveness := hl
        readiness := hr
        affinity := (hfields ServiceSpec.affinity).symm
        autoscale := (hfields ServiceSpec.autoscale).symm
        stepGPU := hsteps.mp (hfields ServiceSpec.initSteps)
        process := (hfields ServiceSpec.process).symm
        restartPolicy := (hfields ServiceSpec.restartPolicy).symm }
  · intro h
    unfold ServiceSpec.transported
    rw [hhealth.mpr ⟨h.liveness, h.readiness⟩, hsteps.mpr h.stepGPU,
      (Resources.transported_eq_iff _).mpr h.gpu, ← h.imageRegistry, ← h.registry, ← h.affinity,
      ← h.autoscale, ← h.process, ← h.restartPolicy]

/-- The service is read back with its spec and its discovery block, and an update with what was
read moves neither hash. -/
def Service.RoundTrips (times : Timestamps) (s : Service) : Prop :=
  ∃ u, protoToService times.parse (serviceToProto times s) = .ok u ∧
    u.spec = s.spec ∧ u.discovery = s.discovery ∧
    ∀ vip, (UpdateRequest.updateService ⟨u, false, vip⟩ s).calculateHash = s.calculateHash ∧
      (UpdateRequest.updateService ⟨u, false, vip⟩ s).calculateTemplateHash =
        s.calculateTemplateHash

/-- A service whose integers fit makes the round trip exactly if its spec uses nothing that is not
sent: no choice of a registry, no GPU, affinity, autoscaling, process, restart policy or probe
thresholds, and in a probe only what its type needs. -/
theorem service_round_trip (times : Timestamps) {s : Service} (hints : s.spec.IntsFit) :
    s.RoundTrips times ↔ s.spec.Sendable := by
  obtain ⟨u, hu, -, -, -, hspec, hdisc⟩ := protoToService_serviceToProto times s
  rw [specFromProto_serviceToProto times hints] at hspec
  rw [← ServiceSpec.transported_eq_iff, ← hspec]
  constructor
  · rintro ⟨u', hu', hsame, -, -⟩
    cases hu.symm.trans hu'
    exact hsame
  · intro hsame
    refine ⟨u, hu, hsame, hdisc, fun vip => ?_⟩
    have hhash : (UpdateRequest.updateService ⟨u, false, vip⟩ s).calculateHash =
        s.calculateHash := calculateHash_updateService hsame hdisc
    exact ⟨hhash, congrArg Prod.fst hhash⟩

/-- Times whose texts are all readable. -/
def someTimes : Timestamps where
  created := "2024-01-01T00:00:00Z"
  updated := "2024-01-01T00:00:00Z"
  parse _ := .ok ()
  parse_created := rfl
  parse_updated := rfl

/-- A service with the sentinels and the filters in use. -/
def plainService : Service :=
  { id := "1", ns := "default", name := "web", discovery := some { vip := "10.96.0.7" }, spec :=
    { image := "nginx", scale := 2, ports := [{ name := "http", port := 80 }]
      health := some { liveness := some { type := "tcp", port := 80 } }
      initSteps := [{ name := "seed", volumes := some [] }]
      volumes := [{ name := "data", mountPath := "/data", claim := some "data", fsUser := some 0 }]
      updateStrategy := some { minServing := some 0 }, drainSeconds := some 0 } }

/-- A plain service. -/
theorem plainService_round_trip : plainService.RoundTrips someTimes := by
  have hports : ∀ p ∈ plainService.spec.ports,
      Fits p.port ∧ Fits p.targetPort ∧ Fits p.hostPort := by decide +kernel
  have hprobe : Probe.IntsFit { type := "tcp", port := 80 } := by constructor <;> decide +kernel
  have hvolumes : ∀ m ∈ plainService.spec.volumes,
      (∀ n ∈ m.fsUser, Fits n) ∧ ∀ n ∈ m.fsGroup, Fits n := by decide +kernel
  have hints : plainService.spec.IntsFit :=
    { scale := by decide +kernel
      ports := hports
      liveness := by
        rintro _ ⟨⟩ _ ⟨⟩
        exact hprobe
      readiness := by
        rintro _ ⟨⟩ _ ⟨⟩
      volumes := hvolumes
      minServing := by decide +kernel
      drainSeconds := by decide +kernel }
  have hprobeSent : Probe.Sendable { type := "tcp", port := 80 } := by decide +kernel
  refine (service_round_trip someTimes hints).mpr ⟨rfl, rfl, rfl, ?_, ?_, rfl, rfl, ?_, rfl, rfl⟩
  · rintro _ ⟨⟩ _ ⟨⟩
    exact hprobeSent
  · rintro _ ⟨⟩ _ ⟨⟩
  · decide +kernel

/-- A service that uses what is not sent. -/
def pinnedService : Service :=
  { id := "1", ns := "default", name := "web", spec :=
    { image := "nginx", imageRegistry := "mirror", restartPolicy := .never
      resources := { gpu := some { count := 1 } }
      affinity := some { required := ["zone=a"] }
      autoscale := some { enabled := true, min := 1, max := 3, metric := "cpu", target := "80%" }
      health := some { readiness := some { type := "tcp", port := 80, failureThreshold := 5 } } } }

/-- What is not sent is gone, and the update replaces the instances of a service that nobody has
changed. -/
theorem pinnedService_stripped :
    (protoToService someTimes.parse (serviceToProto someTimes pinnedService)).map Service.spec =
      .ok { image := "nginx", health := some { readiness := some { type := "tcp", port := 80 } } } ∧
    ((protoToService someTimes.parse (serviceToProto someTimes pinnedService)).map fun u =>
      decide ((UpdateRequest.updateService ⟨u, false, none⟩ pinnedService).calculateTemplateHash =
        pinnedService.calculateTemplateHash)) = .ok false := by
  decide +kernel

end Rune.Services
