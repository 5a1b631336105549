import Mathlib.Data.List.Sort

/-!
# Service specs and their hashes

What an operator writes about a service, and the two views of it that are hashed:
the template, from which an instance is built, and the desired state. A digest is
represented by the view that is digested, so two hashes are equal exactly when the
views are. The views drop what must not move a generation: the order of mounts, the
assigned address, and the difference between a missing list and an empty one.
-/

namespace Rune.Services

/-- A map of strings, as its entries in key order. -/
abbrev Entries := List (String × String)

/-- What an instance is. -/
inductive RuntimeType where
  | unset
  | container
  | process
  | other (text : String)
  deriving DecidableEq

/-- When an instance is restarted. -/
inductive RestartPolicy where
  | unset
  | always
  | onFailure
  | never
  | other (text : String)
  deriving DecidableEq

/-- Who may mount a volume. -/
inductive AccessMode where
  | unset
  | readWriteOnce
  | readOnlyMany
  | readWriteMany
  | other (text : String)
  deriving DecidableEq

/-- What becomes of a disk. -/
inductive ReclaimPolicy where
  | unset
  | retain
  | delete
  | other (text : String)
  deriving DecidableEq

/-- How a service is updated. -/
inductive UpdateStrategyType where
  | unset
  | rolling
  | recreate
  | other (text : String)
  deriving DecidableEq

/-- When an init step runs. -/
inductive RunIfType where
  | unset
  | freshVolume
  | fileMissing
  | always
  | other (text : String)
  deriving DecidableEq

/-- When an init step is repeated. -/
inductive InitStepRestartPolicy where
  | unset
  | onFailure
  | never
  | other (text : String)
  deriving DecidableEq

/-- Where environment variables come from. -/
structure EnvFromSource where
  secretName : String
  configmapName : String
  ns : String
  envPrefix : String
  deriving DecidableEq

/-- A port of a service. -/
structure ServicePort where
  name : String
  port : ℤ
  targetPort : ℤ := 0
  protocol : String := ""
  hostPort : ℤ := 0
  deriving DecidableEq

/-- A request and a limit. -/
structure ResourceLimit where
  request : String := ""
  limit : String := ""
  deriving DecidableEq

/-- A request for devices. -/
structure GPURequest where
  count : ℤ := 0
  vram : String := ""
  allowHeterogeneous : Bool := false
  deriving DecidableEq

/-- The number of devices requested; a count that is not positive means one. -/
def GPURequest.deviceCount (g : GPURequest) : ℤ := if g.count ≤ 0 then 1 else g.count

/-- What an instance may use. -/
structure Resources where
  cpu : ResourceLimit := {}
  memory : ResourceLimit := {}
  gpu : Option GPURequest := none
  deriving DecidableEq

/-- A probe of an instance. -/
structure Probe where
  type : String
  path : String := ""
  host : String := ""
  port : ℤ := 0
  command : List String := []
  initialDelaySeconds : ℤ := 0
  intervalSeconds : ℤ := 0
  timeoutSeconds : ℤ := 0
  failureThreshold : ℤ := 0
  successThreshold : ℤ := 0
  deriving DecidableEq

/-- The probes of a service. -/
structure HealthCheck where
  liveness : Option Probe := none
  readiness : Option Probe := none
  deriving DecidableEq

/-- Whom a rule allows. -/
structure NetworkPolicyPeer where
  service : String := ""
  ns : String := ""
  serviceSelector : Entries := []
  cidr : String := ""
  deriving DecidableEq

/-- A rule of a network policy: the peers and the ports it speaks of. -/
structure NetworkRule where
  peers : List NetworkPolicyPeer
  ports : List String := []
  deriving DecidableEq

/-- The rules for both directions. -/
structure ServiceNetworkPolicy where
  ingress : List NetworkRule := []
  egress : List NetworkRule := []
  deriving DecidableEq

/-- Where the certificate comes from. -/
structure ExposeServiceTLS where
  secret : String := ""
  auto : Bool := false
  mode : String := ""
  deriving DecidableEq

/-- What clients have to show. -/
structure ExposeClientCert where
  caSecret : String
  mode : String := ""
  deriving DecidableEq

/-- How a service is reached from outside. -/
structure ServiceExpose where
  port : String
  host : String := ""
  path : String := ""
  tls : Option ExposeServiceTLS := none
  allowCIDRs : List String := []
  clientCert : Option ExposeClientCert := none
  deriving DecidableEq

/-- Where instances are placed. -/
structure ServiceAffinity where
  required : List String := []
  preferred : List String := []
  together : List String := []
  avoid : List String := []
  spread : String := ""
  deriving DecidableEq

/-- How a service scales by itself. -/
structure ServiceAutoscale where
  enabled : Bool
  min : ℤ
  max : ℤ
  metric : String
  target : String
  cooldown : String := ""
  step : ℤ := 0
  deriving DecidableEq

/-- A key that is mounted as a file. -/
structure KeyToPath where
  key : String
  path : String
  deriving DecidableEq

/-- A secret or a configmap mounted as files. -/
structure FileMount where
  name : String
  mountPath : String
  sourceName : String
  items : List KeyToPath := []
  deriving DecidableEq

/-- The volume that each replica gets. -/
structure VolumeClaimTemplate where
  storageClassName : String := ""
  size : String := ""
  accessMode : AccessMode := .unset
  parameters : Entries := []
  reclaimPolicy : ReclaimPolicy := .unset
  deriving DecidableEq

/-- A volume of an instance. -/
structure VolumeMount where
  name : String
  mountPath : String
  readOnly : Bool := false
  subPath : String := ""
  claim : Option String := none
  claimTemplate : Option VolumeClaimTemplate := none
  fsUser : Option ℤ := none
  fsGroup : Option ℤ := none
  fsMode : String := ""
  deriving DecidableEq

/-- The filter of system calls. -/
structure SeccompProfile where
  type : String := ""
  localhostProfile : String := ""
  deriving DecidableEq

/-- What a container may do. -/
structure SecurityContext where
  seccompProfile : Option SeccompProfile := none
  capAdd : List String := []
  capDrop : List String := []
  privileged : Bool := false
  deriving DecidableEq

/-- The condition of an init step. -/
structure RunIf where
  type : RunIfType := .unset
  path : String := ""
  volume : String := ""
  deriving DecidableEq

/-- An init step. A mount filter that is missing inherits every mount, an empty
one mounts nothing. -/
structure InitStep where
  name : String
  image : String := ""
  command : String := ""
  args : List String := []
  env : Entries := []
  envFrom : List EnvFromSource := []
  volumes : Option (List String) := none
  secretMounts : Option (List String) := none
  configmapMounts : Option (List String) := none
  resources : Option Resources := none
  runIf : RunIf := {}
  timeout : ℤ := 0
  restartPolicy : InitStepRestartPolicy := .unset
  securityContext : Option SecurityContext := none
  deriving DecidableEq

/-- What a process may do. -/
structure ProcessSecurityContext where
  user : String := ""
  group : String := ""
  readOnlyFS : Bool := false
  capabilities : List String := []
  allowedSyscalls : List String := []
  deniedSyscalls : List String := []
  deriving DecidableEq

/-- A process that is run without a container. -/
structure ProcessSpec where
  command : String
  args : List String := []
  workingDir : String := ""
  securityContext : Option ProcessSecurityContext := none
  deriving DecidableEq

/-- The credentials of a registry. -/
structure RegistryAuth where
  type : String := ""
  username : String := ""
  password : String := ""
  token : String := ""
  region : String := ""
  deriving DecidableEq

/-- The registry of a service. -/
structure ServiceRegistryOverride where
  name : String := ""
  auth : Option RegistryAuth := none
  deriving DecidableEq

/-- What a service waits for. -/
structure DependencyRef where
  service : String := ""
  secret : String := ""
  configmap : String := ""
  ns : String := ""
  deriving DecidableEq

/-- How a service is updated. -/
structure UpdateStrategy where
  type : UpdateStrategyType := .unset
  minServing : Option ℤ := none
  deriving DecidableEq

/-- How a service is found. -/
structure ServiceDiscovery where
  mode : String := ""
  vip : String := ""
  localityPreference : String := ""
  deriving DecidableEq

/-- The fields of a service that an operator writes, apart from its discovery
block. -/
structure ServiceSpec where
  labels : Entries := []
  image : String := ""
  imageRegistry : String := ""
  registry : Option ServiceRegistryOverride := none
  imagePull : String := ""
  imagePullAnonymous : Bool := false
  command : String := ""
  args : List String := []
  env : Entries := []
  envFrom : List EnvFromSource := []
  scale : ℤ := 0
  ports : List ServicePort := []
  resources : Resources := {}
  health : Option HealthCheck := none
  networkPolicy : Option ServiceNetworkPolicy := none
  expose : Option ServiceExpose := none
  affinity : Option ServiceAffinity := none
  autoscale : Option ServiceAutoscale := none
  secretMounts : List FileMount := []
  configmapMounts : List FileMount := []
  volumes : List VolumeMount := []
  initSteps : List InitStep := []
  securityContext : Option SecurityContext := none
  dependencies : List DependencyRef := []
  runtime : RuntimeType := .unset
  process : Option ProcessSpec := none
  restartPolicy : RestartPolicy := .unset
  updateStrategy : Option UpdateStrategy := none
  drainSeconds : Option ℤ := none
  deriving DecidableEq

/-- Sort by a strict comparison. -/
def sortedBy {α : Type} (less : α → α → Bool) (l : List α) : List α :=
  l.insertionSort fun a b => less b a = false

/-- By key and path. -/
def sortedKeyToPaths : List KeyToPath → List KeyToPath :=
  sortedBy fun a b => if a.key ≠ b.key then a.key < b.key else a.path < b.path

/-- The mounts of secrets or configmaps by name, path and source, each with its
items sorted. -/
def sortedFileMounts (mounts : List FileMount) : List FileMount :=
  sortedBy (fun a b =>
      if a.name ≠ b.name then a.name < b.name
      else if a.mountPath ≠ b.mountPath then a.mountPath < b.mountPath
      else a.sourceName < b.sourceName)
    (mounts.map fun m => { m with items := sortedKeyToPaths m.items })

/-- By name and path. -/
def sortedVolumeMounts : List VolumeMount → List VolumeMount :=
  sortedBy fun a b => if a.name ≠ b.name then a.name < b.name else a.mountPath < b.mountPath

/-- The kind a dependency is sorted by: services, then configmaps, then secrets. -/
def DependencyRef.priority (d : DependencyRef) : ℕ :=
  if d.secret ≠ "" then 2 else if d.configmap ≠ "" then 1 else 0

/-- The name of what is waited for. -/
def DependencyRef.getDependencyResourceName (d : DependencyRef) : String :=
  if d.secret ≠ "" then d.secret else if d.configmap ≠ "" then d.configmap else d.service

/-- By namespace, kind and name. -/
def sortedDependencies : List DependencyRef → List DependencyRef :=
  sortedBy fun a b =>
    if a.ns ≠ b.ns then a.ns < b.ns
    else if a.priority ≠ b.priority then a.priority < b.priority
    else a.getDependencyResourceName < b.getDependencyResourceName

/-- Whether a mount uses a claim template is kept, the template itself is not. -/
def volumeMountShapes (mounts : List VolumeMount) : List VolumeMount :=
  (sortedVolumeMounts mounts).map fun m =>
    { m with claimTemplate := m.claimTemplate.map fun _ => {} }

/-- The claim templates, each with the mount it belongs to. -/
def claimTemplates (mounts : List VolumeMount) : List VolumeMount :=
  ((sortedVolumeMounts mounts).filter fun m => m.claimTemplate.isSome).map fun m =>
    { name := m.name, mountPath := m.mountPath, claimTemplate := m.claimTemplate }

/-- The probes without the threshold that replaces nothing. -/
def healthWithoutLivenessThreshold (h : HealthCheck) : HealthCheck :=
  { h with liveness := h.liveness.map fun p => { p with failureThreshold := 0 } }

/-- That threshold. -/
def livenessThreshold (h : Option HealthCheck) : ℤ :=
  ((h.bind HealthCheck.liveness).map Probe.failureThreshold).getD 0

/-- A policy without any rule is no policy. -/
def networkPolicyForHash (np : Option ServiceNetworkPolicy) : Option ServiceNetworkPolicy :=
  np.filter fun p => !(p.ingress.isEmpty && p.egress.isEmpty)

/-- The operator's part of a discovery block; one that says nothing is none. -/
def discoveryWithoutVIP (d : Option ServiceDiscovery) : Option ServiceDiscovery :=
  (d.map fun x => { x with vip := "" }).filter (· ≠ {})

/-- A step as it is written for the hash, where a missing filter and an empty
one read the same. -/
def InitStep.hashed (s : InitStep) : InitStep :=
  { s with
    volumes := some (s.volumes.getD [])
    secretMounts := some (s.secretMounts.getD [])
    configmapMounts := some (s.configmapMounts.getD []) }

/-- What an instance is built from. -/
structure ServiceTemplate where
  image : String
  command : String
  args : List String
  env : Entries
  envFrom : List EnvFromSource
  runtime : RuntimeType
  process : Option ProcessSpec
  ports : List ServicePort
  resources : Resources
  health : Option HealthCheck
  secretMounts : List FileMount
  configmapMounts : List FileMount
  volumes : List VolumeMount
  initSteps : List InitStep
  securityContext : Option SecurityContext
  deriving DecidableEq

/-- What the controllers read from the live service. -/
structure ServiceDesiredState where
  scale : ℤ
  updateStrategy : Option UpdateStrategy
  drainSeconds : Option ℤ
  imageRegistry : String
  registry : Option ServiceRegistryOverride
  imagePull : String
  imagePullAnonymous : Bool
  labels : Entries
  restartPolicy : RestartPolicy
  expose : Option ServiceExpose
  dependencies : List DependencyRef
  networkPolicy : Option ServiceNetworkPolicy
  discovery : Option ServiceDiscovery
  livenessFailures : ℤ
  claimTemplates : List VolumeMount
  affinity : Option ServiceAffinity
  autoscale : Option ServiceAutoscale
  deriving DecidableEq

/-- The fields that replace instances. -/
def ServiceSpec.templateView (s : ServiceSpec) : ServiceTemplate where
  image := s.image
  command := s.command
  args := s.args
  env := s.env
  envFrom := s.envFrom
  runtime := s.runtime
  process := s.process
  ports := s.ports
  resources := { s.resources with
    gpu := s.resources.gpu.map fun g => { g with count := g.deviceCount } }
  health := s.health.map healthWithoutLivenessThreshold
  secretMounts := sortedFileMounts s.secretMounts
  configmapMounts := sortedFileMounts s.configmapMounts
  volumes := volumeMountShapes s.volumes
  initSteps := s.initSteps.map InitStep.hashed
  securityContext := s.securityContext

/-- The fields that do not. -/
def ServiceSpec.desiredStateView (s : ServiceSpec) (discovery : Option ServiceDiscovery) :
    ServiceDesiredState where
  scale := s.scale
  updateStrategy := s.updateStrategy
  drainSeconds := s.drainSeconds
  imageRegistry := s.imageRegistry
  registry := s.registry
  imagePull := s.imagePull
  imagePullAnonymous := s.imagePullAnonymous
  labels := s.labels
  restartPolicy := s.restartPolicy
  expose := s.expose
  dependencies := sortedDependencies s.dependencies
  networkPolicy := networkPolicyForHash s.networkPolicy
  discovery := discoveryWithoutVIP discovery
  livenessFailures := livenessThreshold s.health
  claimTemplates := claimTemplates s.volumes
  affinity := s.affinity
  autoscale := s.autoscale

/-- The hash of everything that a controller acts on. -/
def ServiceSpec.calculateHash (s : ServiceSpec) (discovery : Option ServiceDiscovery) :
    ServiceTemplate × ServiceDesiredState :=
  (s.templateView, s.desiredStateView discovery)

/-- The hash of what an instance is built from. -/
def ServiceSpec.calculateTemplateHash (s : ServiceSpec) : ServiceTemplate := s.templateView

/-- The hash depends on the discovery block only through its operator's part. -/
theorem calculateHash_eq_iff {s t : ServiceSpec} {d e : Option ServiceDiscovery} :
    s.calculateHash d = t.calculateHash e ↔
      s.calculateHash none = t.calculateHash none ∧
        discoveryWithoutVIP d = discoveryWithoutVIP e := by
  simp only [ServiceSpec.calculateHash, ServiceSpec.desiredStateView, Prod.mk.injEq,
    ServiceDesiredState.mk.injEq]
  tauto

/-- A template change is a change of the full hash. -/
theorem calculateTemplateHash_eq {s t : ServiceSpec} {d e : Option ServiceDiscovery}
    (h : s.calculateHash d = t.calculateHash e) :
    s.calculateTemplateHash = t.calculateTemplateHash :=
  congrArg Prod.fst h

end Rune.Services
