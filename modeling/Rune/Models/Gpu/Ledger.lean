import Rune.Core.Capacity
import Rune.Core.Guard

/-!
# GPU requests and the device ledger

The inventory of a node lists its devices; the ledger lists who has claimed
them. A request asks for whole devices or, with a `vram` text, for a share of
one. Memory amounts are integers of bytes, and the parser of the `vram` text is
a parameter: nothing here depends on which texts it accepts.
-/

namespace Rune.Gpu

open Rune.Core

/-- The text parser `ParseMemory`: an error text, or a number of bytes. -/
abbrev MemoryParser := String → Except String Int

/-- One device of a node, as the node's agent reports it. -/
structure GPUDevice where
  uuid : String
  product : String
  vramBytes : Int
  missing : Bool

/-- What kind of thing holds a reservation. -/
inductive GPUResHolder where
  | byInstance
  | idle
  deriving DecidableEq

/-- One claim on one device. -/
structure GPURes where
  deviceUUID : String
  ns : String
  serviceName : String
  instanceID : String
  vramBytes : Int
  wholeDevice : Bool
  holder : GPUResHolder

/-- The claims on one node's devices. -/
structure NodeDeviceLedger where
  nodeID : String
  reservations : List GPURes

/-- `DefaultReservedVRAMFloor`, 512Mi. -/
def reservedVRAMFloor : Int := 512 * 2 ^ 20

/-- `DefaultReservedVRAMPerInstance`, 400Mi. -/
def reservedVRAMPerInstance : Int := 400 * 2 ^ 20

namespace NodeDeviceLedger

/-- Every reservation on the named device. -/
def findReservations (l : NodeDeviceLedger) (deviceUUID : String) : List GPURes :=
  l.reservations.filter fun r => r.deviceUUID = deviceUUID

/-- The bytes claimed on a device; whole-device holders claim no number of bytes. -/
def requestedBytes (l : NodeDeviceLedger) (deviceUUID : String) : Int :=
  (((l.findReservations deviceUUID).filter fun r => !r.wholeDevice).map GPURes.vramBytes).sum

/-- The device is claimed exclusively. -/
def hasWholeDeviceHolder (l : NodeDeviceLedger) (deviceUUID : String) : Bool :=
  (l.findReservations deviceUUID).any GPURes.wholeDevice

/-- The system memory withheld from a device once `incoming` more claims land on it. -/
def reservedBytesWith (l : NodeDeviceLedger) (deviceUUID : String) (incoming : ℕ) : Int :=
  reservedVRAMFloor +
    reservedVRAMPerInstance * ((l.findReservations deviceUUID).length + incoming : ℕ)

end NodeDeviceLedger

/-- A request for accelerators: `count` whole devices, or a share of one by `vram`. -/
structure GPURequest where
  count : Int
  vram : String
  allowHeterogeneous : Bool

/-- The number of whole devices a request implies. -/
def GPURequest.deviceCount (g : GPURequest) : ℕ := if g.count ≤ 0 then 1 else g.count.toNat

/-- The request shares a device rather than taking whole ones. -/
def GPURequest.sharesDevice (g : GPURequest) : Bool := g.vram != ""

/-- `vramBytes` of the admission: what a reservation for the request records. -/
def vramBytes (parseMemory : MemoryParser) (req : GPURequest) : Int :=
  if !req.sharesDevice then 0
  else match parseMemory req.vram with
    | .error _ => 0
    | .ok v => v

/-- The families of seccomp profiles after their aliases are resolved. -/
inductive SeccompProfileType where
  | default
  | unconfined
  | localhost
  | other (name : String)
  deriving DecidableEq

/-- `SeccompProfileType.Canonical`: letter case and aliases do not matter. -/
def SeccompProfileType.canonical (t : String) : SeccompProfileType :=
  match t.toLower with
  | "runtimedefault" => .default
  | "default" => .default
  | "unconfined" => .unconfined
  | "localhost" => .localhost
  | name => .other name

/-- The security settings that the request check reads. -/
structure SecurityContext where
  seccompProfile : Option String
  capAdd : List String
  privileged : Bool

/-- The part of a service spec that the request check reads. -/
structure ServiceSpec where
  gpu : Option GPURequest
  securityContext : Option SecurityContext
  env : List (String × String)

/-- The check of the share a request asks for. -/
def GPURequest.validateVRAM (parseMemory : MemoryParser) (g : GPURequest) : Except String Unit :=
  if g.vram = "" then .ok ()
  else match parseMemory g.vram with
    | .error e => .error ("invalid resources.gpu.vram: " ++ e)
    | .ok v => refuseIf (v ≤ 0) "resources.gpu.vram must be greater than zero"

/-- The checks on the request itself. -/
def GPURequest.validate (parseMemory : MemoryParser) (g : GPURequest) : Except String Unit := do
  refuseIf (g.count < 0) "resources.gpu.count cannot be negative"
  g.validateVRAM parseMemory
  refuseIf (1 < g.count ∧ g.vram ≠ "")
    ("resources.gpu: count > 1 cannot be combined with vram — " ++
      "multi-device requests take whole devices")
  refuseIf (g.allowHeterogeneous = true ∧ g.count ≤ 1)
    "resources.gpu.allowHeterogeneous is meaningful only with count > 1"

/-- The checks on settings that would void the device scoping. -/
def SecurityContext.validateGPU (sc : SecurityContext) : Except String Unit := do
  refuseIf (sc.privileged = true)
    ("resources.gpu cannot be combined with securityContext.privileged: " ++
      "a privileged container sees every GPU on the host, so the reservation would not hold")
  refuseIf (sc.capAdd.length > 0)
    ("resources.gpu cannot be combined with securityContext.capAdd: " ++
      "added capabilities can reach devices outside the reservation")
  refuseIf (sc.seccompProfile.map SeccompProfileType.canonical = some .unconfined)
    ("resources.gpu cannot be combined with seccompProfile: unconfined: " ++
      "an unconfined profile can reach devices outside the reservation")

/-- The checks on variables that Rune sets itself. -/
def validateGPUEnv (env : List (String × String)) : List String → Except String Unit
  | [] => .ok ()
  | k :: ks => do
    refuseIf (∃ entry ∈ env, entry.1 = k)
      ("resources.gpu cannot be combined with a " ++ k ++ " entry in env: " ++
        "Rune sets it from the device assignment")
    validateGPUEnv env ks

/-- `validateGPU`: what every admitted request has passed. -/
def ServiceSpec.validateGPU (parseMemory : MemoryParser) (s : ServiceSpec) : Except String Unit :=
  match s.gpu with
  | none => .ok ()
  | some g => do
    g.validate parseMemory
    s.securityContext.elim (.ok ()) SecurityContext.validateGPU
    validateGPUEnv s.env ["CUDA_VISIBLE_DEVICES", "NVIDIA_VISIBLE_DEVICES"]

/-- A request that a validated spec carries. -/
def GPURequest.Validated (parseMemory : MemoryParser) (g : GPURequest) : Prop :=
  ∃ s : ServiceSpec, s.gpu = some g ∧ s.validateGPU parseMemory = .ok ()

/-- The share a validated request asks for parses to a positive number of bytes. -/
theorem GPURequest.Validated.vram_pos {parseMemory : MemoryParser} {g : GPURequest}
    (h : g.Validated parseMemory) (hs : g.sharesDevice = true) :
    ∃ v, parseMemory g.vram = .ok v ∧ 0 < v := by
  obtain ⟨s, hg, hok⟩ := h
  simp only [ServiceSpec.validateGPU, hg] at hok
  obtain ⟨_, hvalid, _⟩ := bind_eq_ok hok
  obtain ⟨_, _, hrest⟩ := bind_eq_ok hvalid
  obtain ⟨_, hvram, _⟩ := bind_eq_ok hrest
  have hne : g.vram ≠ "" := by simpa [GPURequest.sharesDevice] using hs
  rw [GPURequest.validateVRAM, if_neg hne] at hvram
  rcases hp : parseMemory g.vram with e | v
  · simp [hp] at hvram
  · rw [hp] at hvram
    exact ⟨v, rfl, not_le.mp (refuseIf_eq_ok.mp hvram)⟩

end Rune.Gpu
