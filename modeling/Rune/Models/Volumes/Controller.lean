import Rune.Core.Run
import Rune.Models.Volumes.Row

/-!
# The volume controller

The controller follows the rows of volumes through watch events and drives a row
without a status to an available one: it resolves the storage class, marks the row,
calls the driver, and writes the handle. Every write is of the whole row as the
event carried it. A handling is cut where the store is written or the driver is
called; the retry of a failed attempt runs beside the event loop.
-/

namespace Rune.Volumes

open Rune.Core
open Rune.Services (Entries)

/-- A stored storage class. -/
structure StorageClass where
  name : String
  driver : String
  parameters : Entries := []
  isDefault : Bool := false

/-- How a snapshot stands. -/
inductive SnapshotPhase where
  | pending
  | creating
  | ready
  | deleting
  | failed
  deriving DecidableEq

/-- The phase as text. -/
def SnapshotPhase.text : SnapshotPhase → String
  | pending => "Pending"
  | creating => "Creating"
  | ready => "Ready"
  | deleting => "Deleting"
  | failed => "Failed"

/-- What a restore reads of a snapshot. -/
structure Snapshot where
  phase : SnapshotPhase
  driver : String
  handle : String

/-- The calls that make a disk. -/
inductive DriverCall where
  | provision (sizeBytes : ℤ)
  | restoreFromSnapshot (source : String) (sizeBytes : ℤ)

/-- What a handling finds outside the table of volumes: the storage classes, the
drivers, snapshots and secrets, and what the driver answers. -/
structure Backend where
  classes : Except String (List StorageClass)
  driverFor : String → Except String Unit
  snapshots : String → String → Except String Snapshot
  parseMemory : String → Except String ℤ
  resolve : Entries → String → Except String Entries
  call : DriverCall → Except String String

/-- Set an entry of a map that is kept in the order of its keys. -/
def setEntry (k v : String) : Entries → Entries
  | [] => [(k, v)]
  | (k', v') :: rest =>
    if k = k' then (k, v) :: rest
    else if k < k' then (k, v) :: (k', v') :: rest
    else (k', v') :: setEntry k v rest

/-- The parameters of the class under those of the volume. -/
def mergeParameters (cls vol : Entries) : Entries :=
  vol.foldl (fun out e => setEntry e.1 e.2 out) cls

/-- The only class that is marked. -/
def findDefaultStorageClass (classes : List StorageClass) : Except String StorageClass :=
  match classes.filter StorageClass.isDefault with
  | [] => .error "no storage class marked Default"
  | [c] => .ok c
  | c :: d :: _ =>
    .error ("multiple storage classes marked Default (\"" ++ c.name ++ "\" and \"" ++ d.name ++
      "\"); fix one")

/-- The class that a volume names, or the default of the cluster. -/
def resolveStorageClass (b : Backend) (vol : Volume) : Except String StorageClass := do
  let classes ← b.classes
  let name ← if vol.storageClassName = "" then
      ((findDefaultStorageClass classes).map StorageClass.name).mapError fun e =>
        "volume \"" ++ vol.name ++ "\" has empty storageClassName and no default class: " ++ e
    else pure vol.storageClassName
  match classes.find? fun c => c.name = name with
  | some c => pure c
  | none => .error ("get storage class \"" ++ name ++ "\": resource not found")

/-- The size in bytes. -/
def volumeSizeBytes (b : Backend) (vol : Volume) : Except String ℤ :=
  if vol.size = "" then .ok 0
  else match b.parseMemory vol.size with
    | .error e =>
      .error ("volume " ++ vol.ns ++ "/" ++ vol.name ++ ": invalid size \"" ++ vol.size ++
        "\": " ++ e)
    | .ok n =>
      if n < 0 then
        .error ("volume " ++ vol.ns ++ "/" ++ vol.name ++ ": size \"" ++ vol.size ++
          "\" parses to a negative byte count")
      else .ok n

/-- The two parts of a reference, empty where it has no slash. -/
def splitNamespacedRef (ref : String) : String × String :=
  let ns := ref.toList.takeWhile fun c => c ≠ '/'
  match ref.toList.drop ns.length with
  | [] => ("", "")
  | _ :: name => (String.ofList ns, String.ofList name)

/-- The parameter that names the snapshot a volume is restored from. -/
def restoreFromSnapshotParam : String := "rune.io/restoreFromSnapshot"

/-- The driver call of a restore, once the snapshot has been checked. -/
def restoreFromSnapshot (b : Backend) (target : Volume) (cls : StorageClass) (merged : Entries)
    (ref : String) : Except String DriverCall := do
  let (ns, name) := splitNamespacedRef ref
  refuseIf (ns = "" ∨ name = "")
    ("invalid restoreFromSnapshot reference \"" ++ ref ++ "\" (want <namespace>/<name>)")
  let snap ← (b.snapshots ns name).mapError fun e =>
    "get snapshot " ++ ns ++ "/" ++ name ++ ": " ++ e
  refuseIf (snap.phase ≠ .ready)
    ("snapshot " ++ ns ++ "/" ++ name ++ " is in phase \"" ++ snap.phase.text ++
      "\" (must be Ready)")
  refuseIf (snap.driver ≠ "" ∧ snap.driver ≠ cls.driver)
    ("snapshot " ++ ns ++ "/" ++ name ++ " belongs to driver \"" ++ snap.driver ++
      "\" but target storage class uses \"" ++ cls.driver ++ "\"")
  let size ← volumeSizeBytes b target
  let _ ← (b.resolve merged target.ns).mapError fun e =>
    "restoreFromSnapshot: resolve driver parameters: " ++ e
  pure (.restoreFromSnapshot snap.handle size)

/-- The row of one volume, the events that are still to be handled, and what the
controller remembers about it. -/
structure Table where
  row : Volume
  events : List Volume := []
  selfUpdate : Bool := false
  retries : ℕ := 0
  timer : Bool := false
  calls : List DriverCall := []

/-- How far a handling has got: the driver is to be called, or its handle is to be
written. -/
inductive Handling where
  | resolved (vol : Volume) (cls : StorageClass) (merged : Entries)
  | made (vol : Volume)

/-- The limits of the retries; `delay` is the text of the backoff of an attempt. -/
structure Tuning where
  maxAttempts : ℕ
  delay : ℕ → String

/-- The row as a status update writes it. -/
def Volume.withStatus (vol : Volume) (status : VolumeStatus) (reason message : String) : Volume :=
  { vol with status := status, statusReason := reason, message := message }

/-- The row under the class that was resolved for it, where it names none. -/
def Volume.classed (vol : Volume) (cls : StorageClass) : Volume :=
  { vol with
    storageClassName := if vol.storageClassName = "" then cls.name else vol.storageClassName }

namespace Table

variable (t : Table)

/-- Write a row; everybody who watches gets it. -/
def put (vol : Volume) : Table := { t with row := vol, events := t.events ++ [vol] }

/-- A write of the controller, which will skip the event that it causes. -/
def updateStatus (vol : Volume) (status : VolumeStatus) (reason message : String) : Table :=
  { t.put (vol.withStatus status reason message) with selfUpdate := true }

/-- End with a failure. -/
def markFailed (vol : Volume) (reason message : String) : Table :=
  t.updateStatus vol .failed reason message

/-- Forget the attempts and stop the timer. -/
def clearRetry : Table := { t with retries := 0, timer := false }

/-- Count a failed attempt: try again later, or give up. -/
def handleProvisionFail (tune : Tuning) (vol : Volume) (provErr : String) : Table :=
  let attempts := t.retries + 1
  if tune.maxAttempts ≤ attempts then
    t.clearRetry.updateStatus vol .stalled "ProvisionRetriesExhausted"
      ("provision failed after " ++ toString attempts ++ " attempts: " ++ provErr ++
        " (rune volume retry-provision to re-arm)")
  else
    { t with retries := attempts, timer := true }.updateStatus vol .failed
      "ProvisionFailedWillRetry"
      ("attempt " ++ toString attempts ++ "/" ++ toString tune.maxAttempts ++ " failed: " ++
        provErr ++ " (next retry in " ++ tune.delay attempts ++ ")")

/-- Resolve the class and the driver and mark the row. -/
def begin (b : Backend) (vol : Volume) : Table × Option Handling :=
  match resolveStorageClass b vol with
  | .error e => (t.markFailed vol "StorageClassMissing" e, none)
  | .ok cls =>
    let vol := vol.classed cls
    match b.driverFor cls.driver with
    | .error e => (t.markFailed vol "DriverUnavailable" e, none)
    | .ok _ =>
      let merged := mergeParameters cls.parameters vol.parameters
      if vol.status ≠ .provisioning then
        (t.updateStatus vol .provisioning "" "",
          some (.resolved (vol.withStatus .provisioning "" "") cls merged))
      else (t, some (.resolved vol cls merged))

/-- Start to handle a row. Only rows that wait for their disk are handled; a fresh
one starts a new count of attempts. -/
def reconcile (b : Backend) (vol : Volume) : Table × Option Handling :=
  match vol.status with
  | .unset | .pending => t.clearRetry.begin b vol
  | .provisioning => t.begin b vol
  | _ => (t, none)

/-- Call the driver; `adopt` puts the handle into the row. -/
def callDriver (tune : Tuning) (b : Backend) (vol : Volume) (c : DriverCall)
    (adopt : String → Volume) : Table × Option Handling :=
  let t := { t with calls := t.calls ++ [c] }
  match b.call c with
  | .error e => (t.handleProvisionFail tune vol e, none)
  | .ok handle => (t, some (.made (adopt handle)))

/-- The second half of a handling: restore from a snapshot where one is named,
otherwise provision. -/
def provision (tune : Tuning) (b : Backend) (vol : Volume) (cls : StorageClass)
    (merged : Entries) : Table × Option Handling :=
  let ref := (merged.lookup restoreFromSnapshotParam).getD ""
  if ref ≠ "" then
    match restoreFromSnapshot b vol cls merged ref with
    | .error e => (t.handleProvisionFail tune vol e, none)
    | .ok c => t.callDriver tune b vol c fun handle => { vol with handle := handle }
  else
    match volumeSizeBytes b vol with
    | .error e => (t.markFailed vol "InvalidSize" e, none)
    | .ok size =>
      match b.resolve merged vol.ns with
      | .error e => (t.markFailed vol "InvalidParameters" e, none)
      | .ok _ =>
        t.callDriver tune b vol (.provision size) fun handle =>
          { vol with handle := handle, driverParameters := merged }

/-- Go on with a handling. -/
def advance (tune : Tuning) (b : Backend) : Handling → Table × Option Handling
  | .resolved vol cls merged => t.provision tune b vol cls merged
  | .made vol => (t.clearRetry.updateStatus vol .available "" "", none)

end Table

/-- The controller at one volume: the event loop and the retry each have at most
one handling under way. -/
structure Controller where
  table : Table
  loop : Option Handling := none
  retry : Option Handling := none

/-- What can happen. -/
inductive Controller.Step where
  | takeEvent (b : Backend)
  | advanceLoop (b : Backend)
  | fireTimer (b : Backend)
  | advanceRetry (b : Backend)

/-- One step of the controller. -/
def Controller.step (tune : Tuning) (s : Controller) : Step → Option Controller
  | .takeEvent b =>
    match s.loop, s.table.events with
    | none, vol :: rest =>
      if s.table.selfUpdate then
        some { s with table := { s.table with events := rest, selfUpdate := false } }
      else
        let (table, handling) := { s.table with events := rest }.reconcile b vol
        some { s with table := table, loop := handling }
    | _, _ => none
  | .advanceLoop b => s.loop.map fun h =>
    let (table, handling) := s.table.advance tune b h
    { s with table := table, loop := handling }
  | .fireTimer b =>
    match s.table.timer, s.retry with
    | true, none =>
      let table := { s.table with timer := false }
      if table.row.status = .failed then
        let (table, handling) := table.reconcile b { table.row with status := .provisioning }
        some { s with table := table, retry := handling }
      else some { s with table := table }
    | _, _ => none
  | .advanceRetry b => s.retry.map fun h =>
    let (table, handling) := s.table.advance tune b h
    { s with table := table, retry := handling }

end Rune.Volumes
