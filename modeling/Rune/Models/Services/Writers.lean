import Rune.Models.Cast.Applier

/-!
# The writers of a service record

Most writers change the stored record in one transaction and decide by what they
find there. Two do not: an update request reads the record and later stores what it
made of that copy, and the dataplane writes the record of a watch event back once
it has found an address for it. Both replace the record as a whole, whatever has
been stored in between.
-/

namespace Rune.Services

/-- Give a block an address, where there is one to give and it has none. -/
def ensureServiceDiscoveryVIP (vip : Option String) (d : Option ServiceDiscovery) :
    Option ServiceDiscovery :=
  match vip with
  | none => d
  | some vip => if vipOf d ≠ "" then d else some { d.getD {} with vip := vip }

/-- A request to update a service, and the address that the allocator has for it. -/
structure UpdateRequest where
  payload : Service
  force : Bool
  vip : Option String

namespace UpdateRequest

/-- The payload with the server's fields of the copy that was read. -/
def updated (r : UpdateRequest) (existing : Service) : Service :=
  { r.payload with
    id := existing.id
    metadata := existing.metadata
    discovery := ensureServiceDiscoveryVIP r.vip
      (mergeServiceDiscovery existing.discovery r.payload.discovery) }

/-- The update changes something. -/
def needsGenUpdate (r : UpdateRequest) (existing : Service) : Bool :=
  r.force || existing.calculateHash != (r.updated existing).calculateHash

/-- The update replaces instances. -/
def needsTemplateUpdate (r : UpdateRequest) (existing : Service) : Bool :=
  r.force || existing.calculateTemplateHash != (r.updated existing).calculateTemplateHash

/-- What the request stores. -/
def updateService (r : UpdateRequest) (existing : Service) : Service :=
  let updated := r.updated existing
  if r.needsGenUpdate existing then
    let generation := increment existing.metadata.generation
    { updated with
      status := .deploying
      metadata := { updated.metadata with
        generation := generation
        templateGeneration :=
          if r.needsTemplateUpdate existing then generation
          else existing.metadata.templateGeneration } }
  else { updated with status := existing.status }

end UpdateRequest

/-- Replace every instance; a stopped service comes back at its last scale. -/
def restartService (s : Service) : Except String Service :=
  if s.status = .deleted then .error ("service " ++ s.ns ++ "/" ++ s.name ++ " is deleted")
  else
    let generation := increment s.metadata.generation
    .ok { s with
      spec := { s.spec with
        scale := if s.spec.scale = 0 then max s.metadata.lastNonZeroScale 1 else s.spec.scale }
      metadata := { s.metadata with
        generation := generation
        templateGeneration := generation } }

/-- Set the scale, and the one that a restart comes back to. -/
def setScale (next lastNonZero : ℤ) (s : Service) : Service :=
  if s.spec.scale = next then s
  else
    { s with
      spec := { s.spec with scale := next }
      metadata := { s.metadata with
        lastNonZeroScale := lastNonZero
        generation := increment s.metadata.generation } }

/-- Set the scale at once. -/
def executeImmediateScaling (target : ℤ) (s : Service) : Service :=
  setScale target
    (if 0 < target then target
      else if 0 < s.spec.scale then s.spec.scale else s.metadata.lastNonZeroScale) s

/-- A gradual change of the scale. -/
structure ScalingOperation where
  currentScale : ℤ
  targetScale : ℤ
  stepSize : ℤ
  deriving DecidableEq

/-- The scale after one step from the one that was read. -/
def ScalingOperation.nextScale (op : ScalingOperation) (scale : ℤ) : ℤ :=
  if scale < op.targetScale then min (scale + op.stepSize) op.targetScale
  else max (scale - op.stepSize) op.targetScale

/-- One step of a gradual scaling, decided by the copy that was read. -/
def processScalingStep (op : ScalingOperation) (seen s : Service) : Service :=
  if seen.spec.scale = op.targetScale ∨ seen.spec.scale = op.nextScale seen.spec.scale then s
  else
    setScale (op.nextScale seen.spec.scale)
      (if 0 < op.targetScale then op.targetScale
        else if 0 < op.currentScale then op.currentScale else s.metadata.lastNonZeroScale) s

/-- What a reconcile pass reports about the service. -/
structure StatusReport where
  status : ServiceStatus
  reason : String
  message : String
  update : Option UpdateStatus
  observedGeneration : ℤ

/-- Report on a service that is not deleted. -/
def updateServiceStatus (r : StatusReport) (s : Service) : Service :=
  if s.status = .deleted then s
  else
    { s with
      status := r.status
      statusReason := r.reason
      statusMessage := r.message
      update := r.update
      metadata := { s.metadata with observedGeneration := r.observedGeneration } }

/-- The record that the dataplane writes back for a watch event, if any: the event's
own, with the address that has been found. -/
def backfill (vip : Option String) (event : Service) : Option Service :=
  if event.status = .deleted ∨ event.id = "" ∨ event.spec.ports = [] ∨ vipOf event.discovery ≠ ""
  then none
  else match vip with
    | none => none
    | some vip =>
      if vip = "" then none
      else some { event with discovery := some { event.discovery.getD {} with vip := vip } }

/-- The event calls for an address that has been found. -/
def NeedsBackfill (vip : Option String) (event : Service) : Prop :=
  event.status ≠ .deleted ∧ event.id ≠ "" ∧ event.spec.ports ≠ [] ∧ vipOf event.discovery = "" ∧
    vip.getD "" ≠ ""

instance (vip : Option String) (event : Service) : Decidable (NeedsBackfill vip event) :=
  inferInstanceAs (Decidable (_ ∧ _))

theorem backfill_eq_none_iff {vip : Option String} {event : Service} :
    backfill vip event = none ↔ ¬ NeedsBackfill vip event := by
  unfold backfill NeedsBackfill
  split_ifs with hskip
  · tauto
  · cases vip with
    | none => simp
    | some v =>
      by_cases hv : v = ""
      · simp [hv]
      · simp only [hv, if_false, Option.getD_some, reduceCtorEq, false_iff, not_not]
        tauto

/-- Ask for the deletion of a service, decided by the copy that was read; the
tombstone goes on the stored record. -/
def handleRealDeletion (seen s : Service) : Except String Service :=
  if seen.metadata.deletionTimestamp then .ok s
  else if seen.status = .deleted then
    .error ("deletion validation failed: service " ++ seen.ns ++ "/" ++ seen.name ++
      " is already deleted")
  else if s.metadata.deletionTimestamp then .ok s
  else .ok (s.tombstone (deletionFinalizerList seen))

/-- Drop a finalizer that has been completed, unless the list has moved on. -/
def popFinalizer (head : FinalizerType) (s : Service) : Service :=
  if s.metadata.finalizers.head? = some head then
    { s with metadata := { s.metadata with finalizers := s.metadata.finalizers.tail } }
  else s

/-- The deletion has been requested. -/
def Service.IsTombstoned (s : Service) : Prop :=
  s.metadata.deletionTimestamp = true ∧ s.status = .deleted

instance (s : Service) : Decidable s.IsTombstoned := inferInstanceAs (Decidable (_ ∧ _))

/-- The ways in which a write moves the counters: not at all, with the generation
alone, or with both where the template may have changed. -/
inductive Advances (old new : Service) : Prop
  | kept (generation : new.metadata.generation = old.metadata.generation)
      (template : new.metadata.templateGeneration = old.metadata.templateGeneration)
      (same : new.calculateTemplateHash = old.calculateTemplateHash)
  | moved (generation : new.metadata.generation = old.metadata.generation + 1)
      (template : new.metadata.templateGeneration = old.metadata.templateGeneration)
      (same : new.calculateTemplateHash = old.calculateTemplateHash)
  | stamped (generation : new.metadata.generation = old.metadata.generation + 1)
      (template : new.metadata.templateGeneration = old.metadata.generation + 1)

section Counters

variable {s new : Service}

/-- An untouched record. -/
theorem Advances.refl (s : Service) : Advances s s := .kept rfl rfl rfl

theorem Advances.generation_le (h : Advances s new) :
    s.metadata.generation ≤ new.metadata.generation := by
  rcases h with ⟨hg, -, -⟩ | ⟨hg, -, -⟩ | ⟨hg, -⟩ <;> omega

/-- An update request moves the counters of the copy it read. -/
theorem advances_updateService (r : UpdateRequest) (h : s.metadata.generation ≠ maxInt64) :
    Advances s (r.updateService s) := by
  have htemplate : (r.updateService s).calculateTemplateHash =
      (r.updated s).calculateTemplateHash := by
    unfold UpdateRequest.updateService
    split <;> rfl
  cases hgen : r.needsGenUpdate s with
  | false =>
    refine .kept (by simp [UpdateRequest.updateService, hgen]; rfl)
      (by simp [UpdateRequest.updateService, hgen]; rfl) ?_
    have hhash : s.calculateHash = (r.updated s).calculateHash := by
      simpa [UpdateRequest.needsGenUpdate] using (Bool.or_eq_false_iff.mp hgen).2
    rw [htemplate]
    exact (calculateTemplateHash_eq hhash).symm
  | true =>
    have hg : (r.updateService s).metadata.generation = s.metadata.generation + 1 := by
      simp [UpdateRequest.updateService, hgen, increment_of_ne h]
    cases htg : r.needsTemplateUpdate s with
    | true =>
      exact .stamped hg (by simp [UpdateRequest.updateService, hgen, htg, increment_of_ne h])
    | false =>
      refine .moved hg (by simp [UpdateRequest.updateService, hgen, htg]) ?_
      have hsame : s.calculateTemplateHash = (r.updated s).calculateTemplateHash := by
        simpa [UpdateRequest.needsTemplateUpdate] using (Bool.or_eq_false_iff.mp htg).2
      rw [htemplate, hsame]

theorem advances_restartService (h : s.metadata.generation ≠ maxInt64)
    (hr : restartService s = .ok new) : Advances s new := by
  unfold restartService at hr
  split at hr
  · cases hr
  · cases hr
    exact .stamped (increment_of_ne h) (increment_of_ne h)

theorem advances_setScale (next lastNonZero : ℤ) (h : s.metadata.generation ≠ maxInt64) :
    Advances s (setScale next lastNonZero s) := by
  unfold setScale
  split
  · exact .refl s
  · exact .moved (increment_of_ne h) rfl rfl

theorem advances_executeImmediateScaling (target : ℤ) (h : s.metadata.generation ≠ maxInt64) :
    Advances s (executeImmediateScaling target s) := advances_setScale _ _ h

theorem advances_processScalingStep (op : ScalingOperation) (seen : Service)
    (h : s.metadata.generation ≠ maxInt64) : Advances s (processScalingStep op seen s) := by
  unfold processScalingStep
  split
  · exact .refl s
  · exact advances_setScale _ _ h

/-- Carrying the server's state over is refused where it would exhaust the counter. -/
theorem advances_carryServerState {rendered : Service}
    (h : carryServerState s rendered = .ok new) : Advances s new := by
  obtain ⟨hmax, rfl⟩ := carryServerState_eq_ok.mp h
  by_cases hmoved : s.calculateHash ≠ (carriedFields s rendered).calculateHash
  · by_cases htemplate : s.calculateTemplateHash ≠ (carriedFields s rendered).calculateTemplateHash
    · exact .stamped (by simp [carriedMetadata, hmoved, increment_of_ne hmax])
        (by simp [carriedMetadata, hmoved, htemplate, increment_of_ne hmax])
    · exact .moved (by simp [carriedMetadata, hmoved, increment_of_ne hmax])
        (by simp [carriedMetadata, htemplate]) (not_not.mp htemplate).symm
  · exact .kept (by simp [carriedMetadata, hmoved]) (by simp [carriedMetadata, hmoved])
      (calculateTemplateHash_eq (not_not.mp hmoved)).symm

end Counters

end Rune.Services
