import Rune.Models.Cast.Plan
import Rune.Models.Services.Spec

/-!
# Service records

The stored record of a service: the operator's spec, the address and the
identity that the control plane assigns, the observed state, and the metadata
with its two generation counters. A write of a spec never starts from the
payload alone. It carries the server's state over from the stored record, or
cleans the payload where there is none.
-/

namespace Rune.Services

open Rune.Cast (OwnedBy)

/-- How a service stands. -/
inductive ServiceStatus where
  | pending
  | running
  | deploying
  | stopping
  | failed
  | deleted
  deriving DecidableEq

/-- The steps of a teardown. -/
inductive FinalizerType where
  | instanceCleanup
  | volumeCleanup
  | other (text : String)
  deriving DecidableEq

/-- The counters of an update in progress. -/
structure UpdateStatus where
  templateGeneration : ℤ
  desired : ℤ
  updated : ℤ
  updatedReady : ℤ
  available : ℤ
  outdated : ℤ
  message : String
  deriving DecidableEq

/-- How a certificate stands. -/
structure IngressCertStatus where
  host : String
  state : String
  lastError : String
  deriving DecidableEq

/-- The counters are 64-bit; `deletionTimestamp` says whether the time is set. -/
structure ServiceMetadata where
  generation : ℤ := 0
  templateGeneration : ℤ := 0
  observedGeneration : ℤ := 0
  ownedBy : Option OwnedBy := none
  lastNonZeroScale : ℤ := 0
  deletionTimestamp : Bool := false
  finalizers : List FinalizerType := []
  deriving DecidableEq

/-- A stored service. -/
structure Service where
  id : String
  ns : String
  name : String
  spec : ServiceSpec := {}
  discovery : Option ServiceDiscovery := none
  status : ServiceStatus := .pending
  statusReason : String := ""
  statusMessage : String := ""
  update : Option UpdateStatus := none
  ingressCert : Option IngressCertStatus := none
  metadata : ServiceMetadata := {}
  deriving DecidableEq

/-- What a change of the generation is told by. -/
def Service.calculateHash (s : Service) : ServiceTemplate × ServiceDesiredState :=
  s.spec.calculateHash s.discovery

/-- What a change of the template is told by. -/
def Service.calculateTemplateHash (s : Service) : ServiceTemplate :=
  s.spec.calculateTemplateHash

/-- The virtual address of a discovery block. -/
def vipOf (d : Option ServiceDiscovery) : String := (d.map ServiceDiscovery.vip).getD ""

/-- A freshly minted identifier. -/
structure Uuid where
  text : String
  nonempty : text ≠ ""

/-- The largest 64-bit integer. -/
def maxInt64 : ℤ := 9223372036854775807

/-- The increment of a 64-bit counter, which wraps around. -/
def increment (g : ℤ) : ℤ := if g = maxInt64 then -maxInt64 - 1 else g + 1

theorem increment_of_ne {g : ℤ} (h : g ≠ maxInt64) : increment g = g + 1 := if_neg h

/-- The operator's fields of one block laid over another; the address is kept. -/
def ServiceDiscovery.overlay (out updated : ServiceDiscovery) : ServiceDiscovery where
  mode := if updated.mode ≠ "" then updated.mode else out.mode
  vip := out.vip
  localityPreference :=
    if updated.localityPreference ≠ "" then updated.localityPreference
    else out.localityPreference

/-- Merge a payload's block into the stored one. A block that says nothing is none. -/
def mergeServiceDiscovery (existing updated : Option ServiceDiscovery) :
    Option ServiceDiscovery :=
  let merged := (existing.getD {}).overlay (updated.getD {})
  if merged = {} then none else some merged

/-- Put the operator's fields of an earlier block back, under the given address. -/
def restoreDiscovery (preImage : Option ServiceDiscovery) (vip : String) :
    Option ServiceDiscovery :=
  match preImage with
  | none => if vip = "" then none else some { vip := vip }
  | some d => some { d with vip := vip }

/-- Clear what the reconciler derives. -/
def resetObservedState (s : Service) : Service :=
  { s with status := .pending, statusReason := "", statusMessage := "", update := none }

/-- The metadata of a spec write: the stored metadata under the rendered owner,
with the counters advanced where the spec moved. -/
def carriedMetadata (stored rendered : Service) : ServiceMetadata :=
  let moved := stored.calculateHash ≠ rendered.calculateHash
  let generation :=
    if moved then increment stored.metadata.generation else stored.metadata.generation
  { stored.metadata with
    ownedBy := rendered.metadata.ownedBy
    generation := generation
    templateGeneration :=
      if moved ∧ stored.calculateTemplateHash ≠ rendered.calculateTemplateHash then generation
      else stored.metadata.templateGeneration
    lastNonZeroScale :=
      if 0 < rendered.spec.scale then rendered.spec.scale else stored.metadata.lastNonZeroScale }

/-- The rendered service with everything but its metadata carried over. -/
def carriedFields (stored rendered : Service) : Service :=
  { resetObservedState rendered with
    id := if stored.id ≠ "" then stored.id else rendered.id
    ingressCert := stored.ingressCert
    discovery := mergeServiceDiscovery stored.discovery rendered.discovery }

/-- Carry the server's state onto a rendered service. An exhausted counter
cannot tell anyone about a change, so the write is refused. -/
def carryServerState (stored rendered : Service) : Except String Service :=
  if stored.metadata.generation = maxInt64 then
    .error ("service " ++ stored.ns ++ "/" ++ stored.name ++
      " has an exhausted generation counter")
  else
    let next := carriedFields stored rendered
    .ok { next with metadata := carriedMetadata stored next }

/-- Zero what the control plane owns on a service about to be created. -/
def sanitizeServerFields (id : Uuid) (s : Service) : Service :=
  { resetObservedState s with
    ingressCert := none
    id := id.text
    discovery := s.discovery.map fun d => { d with vip := "" }
    metadata := { ownedBy := s.metadata.ownedBy } }

/-- The defaults that every create seeds. -/
def seedMetadata (s : Service) : Service :=
  let generation := if s.metadata.generation = 0 then 1 else s.metadata.generation
  { s with metadata := { s.metadata with
      generation := generation
      templateGeneration :=
        if s.metadata.templateGeneration = 0 then generation else s.metadata.templateGeneration
      lastNonZeroScale :=
        if s.metadata.lastNonZeroScale = 0 ∧ 0 < s.spec.scale then s.spec.scale
        else s.metadata.lastNonZeroScale } }

/-- The service provisions volumes of its own, one for each replica. -/
def serviceHasClaimTemplate (s : Service) : Bool :=
  s.spec.volumes.any fun m => m.claimTemplate.isSome

/-- What a deletion has to clean up. -/
def deletionFinalizerList (s : Service) : List FinalizerType :=
  if serviceHasClaimTemplate s then [.instanceCleanup, .volumeCleanup] else [.instanceCleanup]

/-- The tombstone: the teardown is requested and nothing is removed yet. -/
def Service.tombstone (s : Service) (finalizers : List FinalizerType) : Service :=
  { s with
    status := .deleted
    metadata := { s.metadata with deletionTimestamp := true, finalizers := finalizers } }

/-- Delete a service whose record nobody else writes meanwhile. Asking again for
a teardown in progress is not an error. -/
def deleteService (s : Service) : Except String Service :=
  if s.metadata.deletionTimestamp then .ok s
  else if s.status = .deleted then
    .error ("deletion validation failed: service " ++ s.ns ++ "/" ++ s.name ++
      " is already deleted")
  else .ok (s.tombstone (deletionFinalizerList s))

section Facts

variable {stored rendered next : Service}

/-- A merge keeps the stored address. -/
@[simp] theorem vipOf_mergeServiceDiscovery (d e : Option ServiceDiscovery) :
    vipOf (mergeServiceDiscovery d e) = vipOf d := by
  have hvip : ((d.getD {}).overlay (e.getD {})).vip = vipOf d := by cases d <;> rfl
  simp only [mergeServiceDiscovery]
  split_ifs with hempty
  · rw [hempty] at hvip
    simpa [vipOf] using hvip
  · simpa [vipOf] using hvip

@[simp] theorem vipOf_restoreDiscovery (d : Option ServiceDiscovery) (vip : String) :
    vipOf (restoreDiscovery d vip) = vip := by
  cases d with
  | none =>
    by_cases h : vip = "" <;> simp [restoreDiscovery, vipOf, h]
  | some d => rfl

/-- Restoring a block restores the operator's part of it. -/
@[simp] theorem discoveryWithoutVIP_restoreDiscovery (d : Option ServiceDiscovery)
    (vip : String) : discoveryWithoutVIP (restoreDiscovery d vip) = discoveryWithoutVIP d := by
  cases d with
  | none =>
    by_cases h : vip = "" <;> simp [restoreDiscovery, discoveryWithoutVIP, h]
  | some d => simp [restoreDiscovery, discoveryWithoutVIP]

/-- What an apply stores. -/
theorem carryServerState_eq_ok :
    carryServerState stored rendered = .ok next ↔
      stored.metadata.generation ≠ maxInt64 ∧
        { carriedFields stored rendered with
          metadata := carriedMetadata stored (carriedFields stored rendered) } = next := by
  unfold carryServerState
  by_cases h : stored.metadata.generation = maxInt64 <;> simp [h]

/-- What a delete stores. -/
theorem deleteService_eq_ok :
    deleteService stored = .ok next ↔
      (stored.metadata.deletionTimestamp = true ∧ stored = next) ∨
        (stored.metadata.deletionTimestamp = false ∧ stored.status ≠ .deleted ∧
          stored.tombstone (deletionFinalizerList stored) = next) := by
  unfold deleteService
  cases hd : stored.metadata.deletionTimestamp <;> by_cases hs : stored.status = .deleted <;>
    simp [hs]

end Facts

end Rune.Services
