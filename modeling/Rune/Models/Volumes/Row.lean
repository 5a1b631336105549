import Mathlib.Data.List.Infix
import Rune.Models.Cast.Plan
import Rune.Models.Services.Spec

/-!
# Volume rows and their repository

A row holds what the operator asked for beside what the control plane has made
of it: the handle of the disk, the binding, and for which services it has been
initialized. The repository fills in the identity of a new row and keeps that of
an existing one; every other field of an update is the caller's.
-/

namespace Rune.Volumes

open Rune.Core
open Rune.Cast (OwnedBy)
open Rune.Services (Entries AccessMode ReclaimPolicy)

/-- How a volume stands. -/
inductive VolumeStatus where
  | unset
  | pending
  | provisioning
  | available
  | bound
  | released
  | stalled
  | failed
  deriving DecidableEq

/-- When snapshots are taken. -/
structure SnapshotSchedule where
  cron : String
  retention : ℤ := 0
  deriving DecidableEq

/-- A stored volume. -/
structure Volume where
  id : String := ""
  ns : String
  name : String
  labels : Entries := []
  ownedBy : Option OwnedBy := none
  storageClassName : String := ""
  size : String := ""
  accessMode : AccessMode := .unset
  reclaimPolicy : ReclaimPolicy := .unset
  parameters : Entries := []
  driverParameters : Entries := []
  snapshotSchedule : Option SnapshotSchedule := none
  handle : String := ""
  ownerService : String := ""
  boundNode : String := ""
  boundClaim : String := ""
  status : VolumeStatus := .unset
  statusReason : String := ""
  message : String := ""
  initializedFor : List (String × ℕ) := []
  deriving DecidableEq

/-- A lowercase letter or a digit. -/
def isAlnum (c : Char) : Bool := ('a' ≤ c && c ≤ 'z') || ('0' ≤ c && c ≤ '9')

/-- A label of lower-case letters, digits and hyphens. -/
def validateDNS1123Name (name : String) : Except String Unit := do
  refuseIf (name.utf8ByteSize < 1 ∨ 63 < name.utf8ByteSize)
    "name must be between 1 and 63 characters"
  refuseIf (name.toList.head? = some '-' ∨ name.toList.getLast? = some '-')
    "name cannot start or end with a hyphen"
  refuseIf ((name.toList.all fun c => isAlnum c || c = '-') = false)
    "name can only contain lowercase letters, digits, and hyphens"
  refuseIf (['-', '-'] <:+: name.toList) "name cannot contain consecutive hyphens"

/-- An identifier that may stand in a host path. -/
def validateVolumeID (id : String) : Except String Unit := do
  refuseIf (id.utf8ByteSize = 0 ∨ 253 < id.utf8ByteSize)
    ("volume id \"" ++ id ++ "\": must be 1-253 characters")
  refuseIf ((id.toList.all fun c => isAlnum c || c = '-') = false ∨
      id.toList.head? = some '-' ∨ id.toList.getLast? = some '-')
    ("volume id \"" ++ id ++ "\": only lowercase letters, digits and inner hyphens are allowed")

/-- The identity of a new row; `fresh` is the identifier that would be minted. -/
def Volume.identified (v : Volume) (fresh : String) : Volume :=
  { v with id := if v.id = "" then fresh else v.id }

/-- What a create stores. -/
def createVolume (fresh : String) (v : Volume) : Except String Volume := do
  refuseIf (v.ns = "") "volume: namespace is required"
  refuseIf (v.name = "") "volume: name is required"
  (validateDNS1123Name v.name).mapError fun e => "volume name validation failed: " ++ e
  refuseIf (v.storageClassName = "")
    ("volume \"" ++ v.name ++ "\": storageClassName is required")
  let row := v.identified fresh
  validateVolumeID row.id
  pure { row with status := if row.status = .unset then .pending else row.status }

/-- What an update of the current row stores. -/
def updateVolume (v cur : Volume) : Except String Volume := do
  refuseIf (v.ns = "" ∨ v.name = "") "volume: namespace and name are required"
  let row := v.identified cur.id
  refuseIf (row.id ≠ cur.id)
    ("volume " ++ v.ns ++ "/" ++ v.name ++ ": id is immutable (have \"" ++ cur.id ++
      "\", got \"" ++ row.id ++ "\")")
  pure row

/-- The content of a row: every field, where a row without a status is pending. -/
def Volume.content (v : Volume) : Volume :=
  { v with status := if v.status = .unset then .pending else v.status }

theorem createVolume_eq_ok {fresh : String} {v row : Volume}
    (h : createVolume fresh v = .ok row) : (v.identified fresh).content = row := by
  obtain ⟨_, -, h⟩ := bind_eq_ok h
  obtain ⟨_, -, h⟩ := bind_eq_ok h
  obtain ⟨_, -, h⟩ := bind_eq_ok h
  obtain ⟨_, -, h⟩ := bind_eq_ok h
  obtain ⟨_, -, h⟩ := bind_eq_ok h
  cases h
  rfl

theorem updateVolume_eq_ok {v cur row : Volume} (h : updateVolume v cur = .ok row) :
    v.identified cur.id = row ∧ row.id = cur.id := by
  obtain ⟨_, -, h⟩ := bind_eq_ok h
  obtain ⟨_, hid, h⟩ := bind_eq_ok h
  cases h
  exact ⟨rfl, not_not.mp (refuseIf_eq_ok.mp hid)⟩

end Rune.Volumes
