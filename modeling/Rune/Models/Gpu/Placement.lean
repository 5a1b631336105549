import Mathlib.Data.List.Sort
import Rune.Core.Keyed
import Rune.Models.Gpu.Ledger

/-!
# Choosing devices for a request

The devices that a request could go on are ranked: own namespace first, then
empty devices, then devices held by other namespaces, and within a rank the
fullest device that fits. A request for several devices takes them from one
product and memory size unless it allows otherwise. The specification of the
choice says what every chosen device has been checked for.
-/

namespace Rune.Gpu

open Rune.Core List

/-- The machine-readable reasons of a refusal. -/
inductive GPUReason where
  | noCapacity
  | deviceMissing
  | inventoryUnknown
  deriving DecidableEq

/-- An error: its text and, where it is an admission refusal, the reason. -/
structure Err where
  reason : Option GPUReason
  message : String

/-- The outcome of choosing devices for a request. -/
structure Placement where
  deviceUUIDs : List String
  crossNamespace : Bool
  otherNamespaces : List String

/-- What a device has left for a new claim, with the system reserve as it will
be once `incoming` claims have landed. -/
def usable (l : NodeDeviceLedger) (dev : GPUDevice) (incoming : ℕ) : Int :=
  let free := dev.vramBytes - l.reservedBytesWith dev.uuid incoming - l.requestedBytes dev.uuid
  if free < 0 then 0 else free

/-- A device under consideration. The tier is 0 for a device of the own
namespace, 1 for an empty one and 2 for one that another namespace is on. -/
structure Candidate where
  dev : GPUDevice
  free : Int
  tier : ℕ
  otherNamespaces : List String

/-- Each text once, in increasing order. -/
def dedupeSorted (texts : List String) : List String := texts.eraseDups.insertionSort (· ≤ ·)

/-- The devices that the last probe still saw. -/
def liveDevices (devices : List GPUDevice) : List GPUDevice := devices.filter fun d => !d.missing

/-- The body of the ranking loop: whether the request could go on the device. -/
def candidateFor (l : NodeDeviceLedger) (ns : String) (req : GPURequest) (need : Int)
    (dev : GPUDevice) : Option Candidate :=
  let held := l.findReservations dev.uuid
  if l.hasWholeDeviceHolder dev.uuid then none
  else if !req.sharesDevice && held.length > 0 then none
  else if req.sharesDevice && usable l dev 1 < need then none
  else
    let others := (held.filter fun r => r.ns ≠ ns).map GPURes.ns
    let free := usable l dev 1
    if held.length = 0 then some ⟨dev, free, 1, []⟩
    else if others.length = 0 then some ⟨dev, free, 0, []⟩
    else some ⟨dev, free, 2, dedupeSorted others⟩

/-- The comparison of the ranking. -/
def Candidate.less (a b : Candidate) : Bool :=
  if a.tier ≠ b.tier then a.tier < b.tier
  else if a.free ≠ b.free then a.free < b.free
  else a.dev.uuid < b.dev.uuid

/-- The devices the request could go on, best first. -/
def rankCandidates (devices : List GPUDevice) (l : NodeDeviceLedger) (ns : String)
    (req : GPURequest) (need : Int) : List Candidate :=
  (devices.filterMap (candidateFor l ns req need)).insertionSort fun a b => b.less a = false

/-- What must agree across the devices of one request: product and memory size. -/
def Candidate.productKey (c : Candidate) : String × Int := (c.dev.product, c.dev.vramBytes)

/-- The search for a group of matching candidates, over the products in the
order of their best-ranked candidate. -/
def sameProductFrom (cands : List Candidate) (want : ℕ) :
    List Candidate → List (String × Int) → Option (List Candidate)
  | [], _ => none
  | c :: cs, seen =>
    if c.productKey ∈ seen then sameProductFrom cands want cs seen
    else
      let group := cands.filter fun d => d.productKey = c.productKey
      if want ≤ group.length then some (group.take want)
      else sameProductFrom cands want cs (c.productKey :: seen)

/-- The first `want` candidates that match each other, in rank order. -/
def sameProduct (cands : List Candidate) (want : ℕ) : Option (List Candidate) :=
  sameProductFrom cands want cands []

/-- A node without GPUs is told apart from one whose GPUs are all gone. -/
def errNoDevices (devices : List GPUDevice) : Err :=
  if devices.length > 0 then
    ⟨some .deviceMissing, "this node's " ++ toString devices.length ++
      " GPUs are all marked missing (" ++ ", ".intercalate (devices.map GPUDevice.uuid) ++
      ") — see `rune describe node`"⟩
  else ⟨some .noCapacity, "this node reports no GPUs"⟩

/-- The quotient rounded to the nearest integer, ties to even, as `%.0f` prints it. -/
def roundHalfEven (a d : Int) : Int :=
  if 2 * (a % d) < d then a / d
  else if d < 2 * (a % d) then a / d + 1
  else if a / d % 2 = 0 then a / d else a / d + 1

/-- A number of bytes for the operator. -/
def humanBytes (b : Int) : String :=
  if 2 ^ 30 ≤ b then toString (roundHalfEven b (2 ^ 30)) ++ "Gi"
  else if 2 ^ 20 ≤ b then toString (roundHalfEven b (2 ^ 20)) ++ "Mi"
  else toString b ++ "B"

/-- Who holds a device, for the text of a refusal. -/
def GPURes.describe (r : GPURes) : String :=
  if r.wholeDevice then r.ns ++ "/" ++ r.serviceName ++ " (whole device)"
  else r.ns ++ "/" ++ r.serviceName ++ " " ++ humanBytes r.vramBytes

/-- One held device in the text of a refusal. -/
def describeHeld (l : NodeDeviceLedger) (dev : GPUDevice) : String :=
  let held := l.findReservations dev.uuid
  if held.length = 0 then ""
  else "\n  " ++ dev.uuid ++ ": " ++ humanBytes (usable l dev 0) ++ " free — held by " ++
    ", ".intercalate (held.map GPURes.describe)

/-- The refusal that names who holds what. -/
def insufficientCapacity (devices : List GPUDevice) (l : NodeDeviceLedger) (req : GPURequest) :
    Err :=
  let head :=
    if req.sharesDevice then "no GPU with " ++ req.vram ++ " free VRAM"
    else "no free GPU for a whole-device request"
  ⟨some .noCapacity, head ++ String.join (devices.map (describeHeld l))⟩

/-- The placement on the chosen candidates. -/
def placementOf (chosen : List Candidate) : Placement where
  deviceUUIDs := chosen.map fun c => c.dev.uuid
  crossNamespace := chosen.any fun c => c.tier = 2
  otherNamespaces :=
    dedupeSorted ((chosen.filter fun c => c.tier = 2).flatMap Candidate.otherNamespaces)

variable (parseMemory : MemoryParser)

/-- The bytes a request needs on its device. -/
def neededBytes (req : GPURequest) : Except Err Int :=
  if req.sharesDevice then
    match parseMemory req.vram with
    | .error e => .error ⟨some .noCapacity,
        "unparseable vram request " ++ req.vram.quote ++ ": " ++ e⟩
    | .ok v => .ok v
  else .ok 0

/-- The candidates a request takes: the best ones, from one product where it must be. -/
def pickCandidates (cands : List Candidate) (want : ℕ) (req : GPURequest) :
    Except Err (List Candidate) :=
  if 1 < want ∧ req.allowHeterogeneous = false then
    match sameProduct cands want with
    | none => .error ⟨some .noCapacity, "service asks for " ++ toString want ++
        " matching GPUs; no " ++ toString want ++ " free devices share a product " ++
        "and memory size (set resources.gpu.allowHeterogeneous to span different cards)"⟩
    | some matched => .ok (matched.take want)
  else .ok (cands.take want)

/-- The devices for a request against the current ledger, or why there are none. -/
def chooseDevices (devices : List GPUDevice) (ledger : Option NodeDeviceLedger) (ns : String)
    (req : GPURequest) : Except Err Placement := do
  let l := ledger.getD ⟨"", []⟩
  let live := liveDevices devices
  refuseIf (live.length = 0) (errNoDevices devices)
  let want := if req.sharesDevice then 1 else req.deviceCount
  refuseIf (live.length < want) ⟨some .noCapacity, "service asks for " ++ toString want ++
    " GPUs; this node has " ++ toString live.length⟩
  let need ← neededBytes parseMemory req
  let cands := rankCandidates live l ns req need
  refuseIf (cands.length < want) (insufficientCapacity live l req)
  let chosen ← pickCandidates cands want req
  pure (placementOf chosen)

variable {parseMemory} {devices : List GPUDevice} {l : NodeDeviceLedger} {ns : String}
  {req : GPURequest} {need : Int}

/-- The device can take the request next to what the ledger has on it. -/
structure CanTake (l : NodeDeviceLedger) (req : GPURequest) (need : Int) (dev : GPUDevice) :
    Prop where
  notExclusive : l.hasWholeDeviceHolder dev.uuid = false
  free : req.sharesDevice = false → l.findReservations dev.uuid = []
  room : req.sharesDevice = true → need ≤ usable l dev 1

/-- A candidate can take the request. -/
theorem candidateFor_spec {dev : GPUDevice} {c : Candidate}
    (h : candidateFor l ns req need dev = some c) : c.dev = dev ∧ CanTake l req need dev := by
  unfold candidateFor at h
  simp only at h
  split_ifs at h with hwhole hheld hroom hempty hothers
  all_goals
    cases h
    simp only [Bool.and_eq_true, Bool.not_eq_true', decide_eq_true_eq, not_and, not_lt]
      at hheld hroom
    refine ⟨rfl, by simpa using hwhole, fun hs => ?_, hroom⟩
    exact length_eq_zero_iff.mp (Nat.le_zero.mp (hheld hs))

/-- So can every ranked one. -/
theorem mem_rankCandidates {c : Candidate} (h : c ∈ rankCandidates devices l ns req need) :
    c.dev ∈ devices ∧ CanTake l req need c.dev := by
  obtain ⟨dev, hdev, hc⟩ := mem_filterMap.mp ((mem_insertionSort _).mp h)
  obtain ⟨rfl, htake⟩ := candidateFor_spec hc
  exact ⟨hdev, htake⟩

/-- No device is ranked twice. -/
theorem rankCandidates_distinct (hd : DistinctKeys GPUDevice.uuid devices) :
    DistinctKeys (fun c : Candidate => c.dev.uuid) (rankCandidates devices l ns req need) := by
  refine DistinctKeys.perm ?_ (perm_insertionSort _ _).symm
  refine List.Nodup.sublist ?_ hd
  induction devices with
  | nil => exact List.Sublist.refl _
  | cons dev devices ih =>
    rcases hc : candidateFor l ns req need dev with _ | c
    · rw [filterMap_cons_none hc]
      exact (ih (hd.sublist (sublist_cons_self _ _))).cons _
    · rw [filterMap_cons_some hc, map_cons, (candidateFor_spec hc).1]
      exact (ih (hd.sublist (sublist_cons_self _ _))).cons_cons _

theorem sameProductFrom_sublist {cands cs matched : List Candidate} {want : ℕ}
    {seen : List (String × Int)} (h : sameProductFrom cands want cs seen = some matched) :
    matched.Sublist cands := by
  induction cs generalizing seen with
  | nil => cases h
  | cons c cs ih =>
    simp only [sameProductFrom] at h
    split_ifs at h
    · exact ih h
    · cases h
      exact (take_sublist _ _).trans filter_sublist
    · exact ih h

/-- The picked candidates are some of the ranked ones, at most as many as asked for. -/
theorem pickCandidates_spec {cands chosen : List Candidate} {want : ℕ}
    (h : pickCandidates cands want req = .ok chosen) :
    chosen.Sublist cands ∧ chosen.length ≤ want := by
  unfold pickCandidates at h
  split_ifs at h with hmatch
  · rcases hp : sameProduct cands want with _ | matched
    · simp [hp] at h
    · obtain rfl : matched.take want = chosen := by simpa [hp] using h
      exact ⟨(take_sublist _ _).trans (sameProductFrom_sublist hp),
        by simp [length_take]⟩
  · obtain rfl : cands.take want = chosen := by simpa using h
    exact ⟨take_sublist _ _, by simp [length_take]⟩

/-- A placement names distinct live devices, each of which can take the request;
a share is placed on at most one. -/
theorem chooseDevices_spec {p : Placement} (hd : DistinctKeys GPUDevice.uuid devices)
    (h : chooseDevices parseMemory devices (some l) ns req = .ok p) :
    ∃ need, neededBytes parseMemory req = .ok need ∧ p.deviceUUIDs.Nodup ∧
      (∀ uuid ∈ p.deviceUUIDs, ∃ dev ∈ devices, dev.uuid = uuid ∧ CanTake l req need dev) ∧
      (req.sharesDevice = true → p.deviceUUIDs.length ≤ 1) := by
  obtain ⟨_, _, h⟩ := bind_eq_ok h
  obtain ⟨_, _, h⟩ := bind_eq_ok h
  obtain ⟨need, hneed, h⟩ := bind_eq_ok h
  obtain ⟨_, _, h⟩ := bind_eq_ok h
  obtain ⟨chosen, hchosen, h⟩ := bind_eq_ok h
  obtain rfl : placementOf chosen = p := Except.ok.inj h
  obtain ⟨hsub, hlen⟩ := pickCandidates_spec hchosen
  have hlive : DistinctKeys GPUDevice.uuid (liveDevices devices) :=
    hd.sublist filter_sublist
  refine ⟨need, hneed, (rankCandidates_distinct hlive).sublist hsub, fun uuid hu => ?_,
    fun hs => ?_⟩
  · obtain ⟨c, hc, rfl⟩ := mem_map.mp hu
    obtain ⟨hmem, htake⟩ := mem_rankCandidates (hsub.subset hc)
    exact ⟨c.dev, mem_of_mem_filter hmem, rfl, htake⟩
  · simpa [placementOf, hs] using hlen

end Rune.Gpu
