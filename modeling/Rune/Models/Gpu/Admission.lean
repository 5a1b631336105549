import Mathlib.Data.List.Infix
import Rune.Core.Interleave
import Rune.Models.Gpu.Placement

/-!
# Admission of GPU requests

Every admission call is a program over the store, whose accesses are single
transactions on one node's ledger row. Capacity is decided inside the
transaction that records the claim. A call on a node without a row creates the
row first, in an access of its own, so other calls can come in between. Each
access may fail for reasons of the store, which is part of the call's input.
-/

namespace Rune.Gpu

open Rune.Core

/-- The ledger rows in the store, by node. -/
abbrev Store := String → Option NodeDeviceLedger

/-- `IsNotFoundError` goes by the text of the error. -/
def isNotFoundError (e : Err) : Bool := decide ("not found".toList <:+: e.message.toList)

/-- The ledger is missing. -/
def errNotFound (nodeID : String) : Err :=
  ⟨none, "resource node_ledger//" ++ nodeID ++ " not found"⟩

/-- The ledger is there already. -/
def errAlreadyExists (nodeID : String) : Err :=
  ⟨none, "resource node_ledger//" ++ nodeID ++ " already exists"⟩

/-- A failure of the store itself, before the callback runs or after it. -/
inductive StoreFault where
  | read (e : Err)
  | commit (e : Err)

/-- What a callback makes of the row it is given. The variables of its caller
that it sets are returned as a value. -/
inductive Mutated (α : Type) where
  | write (l : NodeDeviceLedger) (seen : α)
  | skip (seen : α)
  | fail (e : Err)

/-- What is left of an update: what its callback has set, and its error. -/
structure Updated (α : Type) where
  seen : Option α
  err : Option Err

section Calls

variable {α : Type}

/-- The transaction of an `UpdateFunc`: read the row, run the callback, commit. -/
def updateRow (fault : Option StoreFault) (nodeID : String)
    (mutate : NodeDeviceLedger → Mutated α) (s : Store) : Store × Updated α :=
  match fault with
  | some (.read e) => (s, ⟨none, some e⟩)
  | _ =>
    match s nodeID with
    | none => (s, ⟨none, some (errNotFound nodeID)⟩)
    | some l =>
      match mutate l with
      | .fail e => (s, ⟨none, some e⟩)
      | .skip seen => (s, ⟨some seen, none⟩)
      | .write l' seen =>
        match fault with
        | some (.commit e) => (s, ⟨some seen, some e⟩)
        | _ => (Function.update s nodeID (some l'), ⟨some seen, none⟩)

/-- The transaction of a `Create`: it never replaces a row. -/
def createRow (fault : Option Err) (l : NodeDeviceLedger) (s : Store) : Store × Option Err :=
  match fault with
  | some e => (s, some e)
  | none =>
    match s l.nodeID with
    | some _ => (s, some (errAlreadyExists l.nodeID))
    | none => (Function.update s l.nodeID (some l), none)

/-- The store failures that the three accesses of a call meet. -/
structure Faults where
  update : Option StoreFault
  create : Option Err
  retry : Option StoreFault

/-- `updateLedger`: update the row, creating it first if it is absent. -/
def updateLedger (faults : Faults) (nodeID : String) (mutate : NodeDeviceLedger → Mutated α) :
    Prog Store (Updated α) := do
  let r ← Prog.atomic (updateRow faults.update nodeID mutate)
  if r.err.any isNotFoundError then
    let _ ← Prog.atomic (createRow faults.create ⟨nodeID, []⟩)
    Prog.atomic (updateRow faults.retry nodeID mutate)
  else
    pure r

/-- `mutate`: update the row unless nothing changes; a missing row is a success. -/
def mutate (fault : Option StoreFault) (nodeID : String)
    (fn : NodeDeviceLedger → Option NodeDeviceLedger × α) : Prog Store (Updated α) := do
  let r ← Prog.atomic (updateRow fault nodeID fun l =>
    match fn l with
    | (none, seen) => .skip seen
    | (some l', seen) => .write { l' with nodeID := nodeID } seen)
  pure (if r.err.any isNotFoundError then ⟨r.seen, none⟩ else r)

end Calls

/-- A node as its agent reports it; `probed` is whether the devices are known. -/
structure Node where
  id : String
  devices : List GPUDevice
  probed : Bool

/-- One workload's claim on a node's devices; no holder stands for the default. -/
structure Request where
  nodeID : String
  ns : String
  serviceName : String
  instanceID : String
  holder : Option GPUResHolder
  gpu : GPURequest

/-- No device has been reported yet. -/
def errInventoryUnknown : Err :=
  ⟨some .inventoryUnknown, "waiting for this node's device inventory"⟩

/-- The states of a node in which there is no capacity answer yet. -/
def checkInventory (node : Option Node) (nodeID : String) : Option Err :=
  match node with
  | none => some errInventoryUnknown
  | some node =>
    if !node.probed then some errInventoryUnknown
    else if nodeID ≠ "" ∧ node.id ≠ "" ∧ nodeID ≠ node.id then
      some ⟨none, "gpu: node mismatch — inventory is for " ++ node.id.quote ++
        ", ledger key is " ++ nodeID.quote⟩
    else none

/-- The rows without those that match, and whether any did. -/
def dropWhere (l : NodeDeviceLedger) (p : GPURes → Bool) : NodeDeviceLedger × Bool :=
  ({ l with reservations := l.reservations.filter fun r => !p r }, l.reservations.any p)

/-- The rows that an instance holds as itself. -/
def heldBy (instanceID : String) (r : GPURes) : Bool :=
  r.instanceID = instanceID ∧ r.holder = .byInstance

/-- How one device of a bind resolves against the rows. -/
inductive BindSlot where
  | unmatched
  | bound
  | row (i : ℕ)
  deriving DecidableEq

/-- The scan for the row that a bind takes on one device: the first unbound row
of the service, unless the instance already has a row there. -/
def bindSlot (ns service instanceID want : String) : List GPURes → ℕ → BindSlot → BindSlot
  | [], _, slot => slot
  | r :: rs, i, slot =>
    if r.deviceUUID ≠ want ∨ r.holder ≠ .byInstance ∨ r.ns ≠ ns ∨ r.serviceName ≠ service then
      bindSlot ns service instanceID want rs (i + 1) slot
    else if r.instanceID = instanceID then .bound
    else if r.instanceID = "" ∧ slot = .unmatched then
      bindSlot ns service instanceID want rs (i + 1) (.row i)
    else bindSlot ns service instanceID want rs (i + 1) slot

/-- The row to write for a resolved device, if there is one. -/
def BindSlot.target : BindSlot → Option ℕ
  | .row i => some i
  | _ => none

/-- Fill in the instance ID on one row. -/
def stamp (instanceID : String) (rows : List GPURes) (i : ℕ) : List GPURes :=
  rows.modify i fun r => { r with instanceID := instanceID }

/-- The callback of a bind: all devices are resolved before any row is written.
It leaves the devices that had no row. -/
def bindRows (ns service instanceID : String) (devices : List String) (l : NodeDeviceLedger) :
    Option NodeDeviceLedger × List String :=
  let slot want := bindSlot ns service instanceID want l.reservations 0 .unmatched
  let unmatched := devices.filter fun want => slot want = .unmatched
  let targets := devices.filterMap fun want => (slot want).target
  if unmatched.length > 0 ∨ targets.length = 0 then (none, unmatched)
  else (some { l with reservations := targets.foldl (stamp instanceID) l.reservations }, unmatched)

/-- The first device that is named twice. -/
def namedTwice : List String → List String → Option String
  | [], _ => none
  | d :: ds, seen => if d ∈ seen then some d else namedTwice ds (d :: seen)

/-- An update's error as the result of its call. -/
def Updated.toExcept {α : Type} (r : Updated α) : Except Err Unit :=
  match r.err with
  | some e => .error e
  | none => .ok ()

variable (parseMemory : MemoryParser)

/-- One row for each assigned device. -/
def appendReservations (l : NodeDeviceLedger) (p : Placement) (req : Request) :
    NodeDeviceLedger where
  nodeID := req.nodeID
  reservations := l.reservations ++ p.deviceUUIDs.map fun uuid =>
    { deviceUUID := uuid
      ns := req.ns
      serviceName := req.serviceName
      instanceID := req.instanceID
      vramBytes := vramBytes parseMemory req.gpu
      wholeDevice := !req.gpu.sharesDevice
      holder := req.holder.getD .byInstance }

/-- The callback of a reservation: the write is the check. -/
def placeOn (devices : List GPUDevice) (req : Request) (l : NodeDeviceLedger) :
    Mutated Placement :=
  match chooseDevices parseMemory devices (some l) req.ns req.gpu with
  | .error e => .fail e
  | .ok p => .write (appendReservations parseMemory l p req) p

/-- The body that the two reserving calls share: `prepare` is what is done to
the row before the devices are chosen. -/
def reserveAfter (prepare : NodeDeviceLedger → NodeDeviceLedger) (faults : Faults)
    (node : Option Node) (req : Request) : Prog Store (Except Err Placement) :=
  match checkInventory node req.nodeID with
  | some e => pure (.error e)
  | none => do
    let devices := (node.map Node.devices).getD []
    let r ← updateLedger faults req.nodeID fun l => placeOn parseMemory devices req (prepare l)
    pure (match r.err with
      | some e => .error e
      | none => .ok (r.seen.getD ⟨[], false, []⟩))

/-- Place a request and record the claim. -/
def reserve (faults : Faults) (node : Option Node) (req : Request) :
    Prog Store (Except Err Placement) :=
  reserveAfter parseMemory id faults node req

/-- Release an instance's claims and place a request in one write. -/
def reserveReplacing (faults : Faults) (node : Option Node) (releaseInstanceID : String)
    (req : Request) : Prog Store (Except Err Placement) :=
  reserveAfter parseMemory
    (fun l => if releaseInstanceID ≠ "" then (dropWhere l (heldBy releaseInstanceID)).1 else l)
    faults node req

/-- The body that the two releasing calls share. -/
def releaseWhere (fault : Option StoreFault) (nodeID : String) (p : GPURes → Bool) :
    Prog Store (Except Err Unit) := do
  let r ← mutate fault nodeID fun l =>
    (if (dropWhere l p).2 then some (dropWhere l p).1 else none, ())
  pure r.toExcept

/-- Drop every claim an instance holds. -/
def release (fault : Option StoreFault) (nodeID instanceID : String) :
    Prog Store (Except Err Unit) :=
  if instanceID = "" then pure (.error ⟨none, "gpu: release requires an instance ID"⟩)
  else releaseWhere fault nodeID (heldBy instanceID)

/-- Drop every claim of a service, whatever the holder. -/
def releaseService (fault : Option StoreFault) (nodeID ns service : String) :
    Prog Store (Except Err Unit) :=
  releaseWhere fault nodeID fun r => r.ns = ns ∧ r.serviceName = service

/-- Fill in the instance ID on one unbound row for each named device. -/
def bindInstance (fault : Option StoreFault) (nodeID ns service instanceID : String)
    (devices : List String) : Prog Store (Except Err Unit) :=
  if instanceID = "" then pure (.error ⟨none, "gpu: bind requires an instance ID"⟩)
  else if devices.length = 0 then
    pure (.error ⟨none, "gpu: bind requires at least one device"⟩)
  else match namedTwice devices [] with
    | some d => pure (.error ⟨none, "gpu: device " ++ d ++ " named twice in one bind"⟩)
    | none => do
      let r ← mutate fault nodeID (bindRows ns service instanceID devices)
      let unmatched := r.seen.getD devices
      pure (match r.err with
        | some e => .error e
        | none =>
          if unmatched.length > 0 then
            .error ⟨none, "gpu: no unbound reservation for " ++ ns ++ "/" ++ service ++
              " on device(s) " ++ ", ".intercalate unmatched⟩
          else .ok ())

/-- The calls that write ledgers, with the store failures each one meets. -/
inductive Call where
  | reserve (faults : Faults) (node : Option Node) (req : Request)
  | reserveReplacing (faults : Faults) (node : Option Node) (releaseInstanceID : String)
      (req : Request)
  | bindInstance (fault : Option StoreFault) (nodeID ns service instanceID : String)
      (devices : List String)
  | release (fault : Option StoreFault) (nodeID instanceID : String)
  | releaseService (fault : Option StoreFault) (nodeID ns service : String)

/-- The program of a call; only the reserving calls have a placement to return. -/
def Call.code : Call → Prog Store (Except Err (Option Placement))
  | .reserve faults node req => do
    let r ← Gpu.reserve parseMemory faults node req
    pure (r.map some)
  | .reserveReplacing faults node releaseInstanceID req => do
    let r ← Gpu.reserveReplacing parseMemory faults node releaseInstanceID req
    pure (r.map some)
  | .bindInstance fault nodeID ns service instanceID devices => do
    let r ← Gpu.bindInstance fault nodeID ns service instanceID devices
    pure (r.map fun _ => none)
  | .release fault nodeID instanceID => do
    let r ← Gpu.release fault nodeID instanceID
    pure (r.map fun _ => none)
  | .releaseService fault nodeID ns service => do
    let r ← Gpu.releaseService fault nodeID ns service
    pure (r.map fun _ => none)

end Rune.Gpu
