import Rune.Models.Endpoints.Publish

/-!
# Goroutines that publish and tear down

Every call on the instances of a service is a goroutine: a list of accesses to the store, the
dataplane and the runner that are still to come, and the call of `republishService` that it is in,
if any. The list of a teardown is fixed by the status in the caller's copy when it begins. Other
writers of the store, and the runner that learns an address, are the environment.
-/

namespace Rune.Endpoints

open Rune.Core Rune.Services
open Rune.Rollout (InstanceStatus Time)

/-- Why an instance is restarted. -/
inductive RestartReason
  | manual
  | healthCheckFailure
  | update
  | failure
  deriving DecidableEq

/-- What a caller of `runner.Stop` does when it fails. -/
inductive OnStopError
  | proceed
  | giveUp
  /-- Take the withdrawal back. -/
  | revert
  deriving DecidableEq

/-- An access to what the goroutines share. -/
inductive Instr
  /-- `republishService` with the caller's copy of the service. -/
  | publish (ports : List ServicePort)
  /-- Load the owning service and republish it. -/
  | publishStored
  /-- Write the caller's copy of the instance back. -/
  | store (inst : Instance)
  | withdraw (id : String)
  | revert (id : String)
  | setStopped (id : String)
  | markInstanceFailedInPlace (id : String)
  | stop (id : String) (onError : OnStopError)
  | restart (copy : Instance) (reason : RestartReason)
  /-- The restart has read the instance with this status. -/
  | restartChecked (status : InstanceStatus) (copy : Instance) (reason : RestartReason)
  /-- The loop of a batch withdrawal. -/
  | withdrawAll (ports : Option (List ServicePort)) (todo : List Instance) (anyServing : Bool)
  | promoteToRunningOnReady (id : String) (now : Time)
  | setReady (id : String) (ready : Bool) (now : Time)
  deriving DecidableEq

/-- A goroutine: the publication under way, and what it does next. -/
structure Thread where
  republish : Option Republish := none
  todo : List Instr := []
  deriving DecidableEq

namespace Shared

/-- The stored instance. -/
def find (s : Shared) (id : String) : Option Instance :=
  s.instances.find? fun row => row.id = id

/-- Update the stored instance. -/
def update (s : Shared) (id : String) (mutate : Instance → Option Instance) : Shared :=
  { s with instances := updateFunc id mutate s.instances }

end Shared

/-- Change the status, if it is the expected one. -/
def flip (expected status : InstanceStatus) (fresh : Instance) : Option Instance :=
  if fresh.status ≠ expected then none
  else some { fresh with toInstance := { fresh.toInstance with status := status } }

/-- Change the status only. -/
def setStatus (status : InstanceStatus) (fresh : Instance) : Instance :=
  { fresh with toInstance := { fresh.toInstance with status := status } }

/-- Whether the policy of the service lets the restart happen. -/
def restartAllowed (policy : RestartPolicy) (reason : RestartReason) : Bool :=
  match reason, policy with
  | .manual, _ => true
  | _, .never => false
  | reason, .onFailure => reason = .failure ∨ reason = .healthCheckFailure
  | _, _ => true

/-- What follows once a restart has read the status of the instance. -/
def restartSteps (service : Service) (status : InstanceStatus) (id : String)
    (reason : RestartReason) : List Instr :=
  if service.metadata.deletionTimestamp then []
  else if restartAllowed service.spec.restartPolicy reason = false then []
  else
    (if status = .running then [.withdraw id, .publish service.spec.ports] else []) ++
      [.stop id .proceed, .markInstanceFailedInPlace id]

/-- The first access of a goroutine, and how it goes on; `fails` says whether a stop fails. -/
def Instr.step (s : Shared) (fails : Bool) (rest : List Instr) : Instr → Shared × Thread
  | .publish ports => (s, { republish := some (.list ports), todo := rest })
  | .publishStored => (s, { republish := some (.list s.service.spec.ports), todo := rest })
  | .store inst => (s.update inst.id fun _ => some inst, { todo := rest })
  | .withdraw id => (s.update id (flip .running .terminating), { todo := rest })
  | .revert id =>
    match s.find id with
    | none => (s, {})
    | some _ => (s.update id (flip .terminating .running), { todo := rest })
  | .setStopped id =>
    match s.find id with
    | none => (s, {})
    | some _ => (s.update id fun fresh => some (setStatus .stopped fresh), { todo := rest })
  | .markInstanceFailedInPlace id =>
    (s.update id fun fresh => some (setStatus .failed fresh), { todo := rest })
  | .stop id onError =>
    if fails then
      match onError with
      | .proceed => (s, { todo := rest })
      | .giveUp => (s, {})
      | .revert => (s, { todo := [.revert id, .publishStored] })
    else (s, { todo := rest })
  | .restart copy reason =>
    match s.find copy.id with
    | none => (s, {})
    | some current =>
      if current.containerEverCreated = false ∧
          (current.status = .failed ∨ current.status = .stalled) then (s, {})
      else if current.status = .deleted ∨ current.status = .failed then (s, {})
      else (s, { todo := [.restartChecked current.status copy reason] })
  | .restartChecked status copy reason =>
    (s, { todo := restartSteps s.service status copy.id reason })
  | .withdrawAll ports [] anyServing =>
    match ports with
    | none => (s, { todo := rest })
    | some ports => (s, { todo := if anyServing then .publish ports :: rest else rest })
  | .withdrawAll ports (copy :: todo) anyServing =>
    if copy.status ≠ .running then (s, { todo := .withdrawAll ports todo anyServing :: rest })
    else match s.find copy.id with
      | none => (s, { todo := .withdrawAll ports todo anyServing :: rest })
      | some _ =>
        (s.update copy.id (flip .running .terminating),
          { todo := .withdrawAll ports todo true :: rest })
  | .promoteToRunningOnReady id now =>
    match s.find id with
    | none => (s, {})
    | some current =>
      if current.status ≠ .starting then (s, {})
      else
        (s.update id fun fresh => some
          { fresh with toInstance := { fresh.toInstance with
              status := .running
              lastTransitionAt := some now
              ready := true
              readyChangedAt := some now } },
          { todo := rest })
  | .setReady id ready now =>
    match s.find id with
    | none => (s, {})
    | some current =>
      if current.status ≠ .running ∨ (current.readyChangedAt.isSome ∧ current.ready = ready)
      then (s, {})
      else
        (s.update id fun fresh => some
          { fresh with toInstance := { fresh.toInstance with
              ready := ready
              readyChangedAt := some now } },
          { todo := rest })

/-- The next access of a goroutine; `none` if it has ended. -/
def Thread.step (s : Shared) (fails : Bool) (t : Thread) : Option (Shared × Thread) :=
  match t.republish, t.todo with
  | some r, todo => some ((r.step s).1, { republish := (r.step s).2, todo := todo })
  | none, instr :: rest => some (instr.step s fails rest)
  | none, [] => none

/-- The calls that start a goroutine. -/
inductive Call
  | republishService (ports : List ServicePort)
  | deleteInstance (copy : Instance)
  | stopInstance (copy : Instance)
  | restartInstance (copy : Instance) (reason : RestartReason)
  | withdrawServiceInstances (ports : Option (List ServicePort)) (copies : List Instance)
  | promoteToRunningOnReady (id : String) (now : Time)
  | setReady (id : String) (ready : Bool) (now : Time)

/-- The copy that a deletion writes first, unless it is that of a tombstone. -/
def terminatingCopy (copy : Instance) : Instance :=
  if copy.status = .deleted ∨ copy.status = .failed ∨ copy.status = .stalled then copy
  else { copy with toInstance := { copy.toInstance with status := .terminating } }

/-- What a call does, in order. -/
def Call.start : Call → List Instr
  | .republishService ports => [.publish ports]
  | .deleteInstance copy =>
    (if copy.status = .deleted ∨ copy.status = .failed ∨ copy.status = .stalled then []
      else [.store (terminatingCopy copy)]) ++
    (if copy.status = .running then [.publishStored] else []) ++
    [.stop copy.id .proceed, .store (setStatus .deleted (terminatingCopy copy)), .publishStored]
  | .stopInstance copy =>
    if copy.status = .running then
      [.withdraw copy.id, .publishStored, .stop copy.id .revert, .setStopped copy.id,
        .publishStored]
    else [.stop copy.id .giveUp, .setStopped copy.id, .publishStored]
  | .restartInstance copy reason => [.restart copy reason]
  | .withdrawServiceInstances ports copies => [.withdrawAll ports copies false]
  | .promoteToRunningOnReady id now => [.promoteToRunningOnReady id now, .publishStored]
  | .setReady id ready now => [.setReady id ready now, .publishStored]

/-- The shared state and the goroutines. -/
structure World where
  shared : Shared
  threads : List Thread := []

/-- What can happen. -/
inductive Action
  | call (c : Call)
  /-- The next access of the goroutine. -/
  | step (i : ℕ) (fails : Bool)
  /-- Somebody else stores or removes an instance. -/
  | write (inst : Instance)
  | erase (id : String)
  | learn (runnerIP : Instance → String)
  /-- The service is changed. -/
  | update (spec : ServiceSpec) (metadata : ServiceMetadata)

/-- Store the record in the place of the one with its ID, or as a new one. -/
def upsert (inst : Instance) (rows : List Instance) : List Instance :=
  if rows.any fun row => row.id = inst.id then updateFunc inst.id (fun _ => some inst) rows
  else rows ++ [inst]

namespace World

/-- One step, if it is possible. -/
def step (w : World) : Action → Option World
  | .call c => some { w with threads := w.threads ++ [{ todo := c.start }] }
  | .step i fails =>
    (w.threads[i]?).bind fun t =>
      (t.step w.shared fails).map fun (s, t') => { shared := s, threads := w.threads.set i t' }
  | .write inst =>
    some { w with shared := { w.shared with instances := upsert inst w.shared.instances } }
  | .erase id =>
    some { w with shared :=
      { w.shared with instances := w.shared.instances.filter fun row => row.id ≠ id } }
  | .learn runnerIP => some { w with shared := { w.shared with runnerIP := runnerIP } }
  | .update spec metadata =>
    some { w with shared :=
      { w.shared with service := { w.shared.service with spec := spec, metadata := metadata } } }

end World

/-- Everything but the instances, the addresses and the spec is as it was. -/
structure Shared.SamePublished (s s' : Shared) : Prop where
  serviceID : s'.service.id = s.service.id
  endpoints : s'.endpoints = s.endpoints
  lastPublished : s'.lastPublished = s.lastPublished

theorem Shared.SamePublished.refl (s : Shared) : s.SamePublished s := ⟨rfl, rfl, rfl⟩

/-- An access outside of `republishService` publishes nothing, and the next thing is at
most the beginning of one. -/
theorem Instr.step_frame (s : Shared) (fails : Bool) (rest : List Instr) (instr : Instr) :
    s.SamePublished (instr.step s fails rest).1 ∧
      ∀ r, (instr.step s fails rest).2.republish = some r → ∃ ports, r = .list ports := by
  fun_cases Instr.step s fails rest instr <;>
    refine ⟨⟨rfl, rfl, rfl⟩, fun r hr => ?_⟩ <;>
    first
      | exact ⟨_, (Option.some.inj hr).symm⟩
      | cases hr

/-- Everything that a goroutine can do next. -/
inductive Thread.Moves (s : Shared) (t : Thread) : Shared → Thread → Prop
  | instr (hr : t.republish = none) {instr : Instr} {rest : List Instr}
      (htodo : t.todo = instr :: rest) (fails : Bool) :
    t.Moves s (instr.step s fails rest).1 (instr.step s fails rest).2
  | list {ports : List ServicePort} (hr : t.republish = some (.list ports)) :
    t.Moves s s { t with republish := some (.building ports s.instances []) }
  | skip {ports : List ServicePort} {inst : Instance} {todo : List Instance}
      {eps : List Dataplane.Endpoint}
      (hr : t.republish = some (.building ports (inst :: todo) eps))
      (hep : s.endpointOf ports inst = none) :
    t.Moves s s { t with republish := some (.building ports todo eps) }
  | add {ports : List ServicePort} {inst : Instance} {todo : List Instance}
      {eps : List Dataplane.Endpoint} {ep : Dataplane.Endpoint}
      (hr : t.republish = some (.building ports (inst :: todo) eps))
      (hep : s.endpointOf ports inst = some ep) :
    t.Moves s (s.persistInstanceIP inst ep.ip)
      { t with republish := some (.building ports todo (eps ++ [ep])) }
  | built {ports : List ServicePort} {eps : List Dataplane.Endpoint}
      (hr : t.republish = some (.building ports [] eps)) :
    t.Moves s s { t with republish := some (.comparing eps) }
  | same {eps : List Dataplane.Endpoint} (hr : t.republish = some (.comparing eps))
      (hsame : s.lastPublished = some (endpointsSignature eps)) :
    t.Moves s s { t with republish := none }
  | differ {eps : List Dataplane.Endpoint} (hr : t.republish = some (.comparing eps))
      (hdiffer : s.lastPublished ≠ some (endpointsSignature eps)) :
    t.Moves s s { t with republish := some (.publishing eps) }
  | publish {eps : List Dataplane.Endpoint} (hr : t.republish = some (.publishing eps)) :
    t.Moves s (s.publishService eps) { t with republish := some (.recording eps) }
  | record {eps : List Dataplane.Endpoint} (hr : t.republish = some (.recording eps)) :
    t.Moves s { s with lastPublished := some (endpointsSignature eps) } { t with republish := none }

/-- Every step of a thread is a move. -/
theorem Thread.moves_of_step {s s' : Shared} {fails : Bool} {t t' : Thread}
    (h : t.step s fails = some (s', t')) : t.Moves s s' t' := by
  obtain ⟨republish, todo⟩ := t
  cases republish with
  | none =>
    cases todo with
    | nil => cases h
    | cons instr rest =>
      obtain ⟨rfl, rfl⟩ := Prod.mk.inj (Option.some.inj h)
      exact .instr rfl rfl fails
  | some r =>
    obtain ⟨rfl, rfl⟩ := Prod.mk.inj (Option.some.inj h)
    fun_cases r.step s
    · exact .list rfl
    · exact .built rfl
    · exact .skip rfl ‹_›
    · exact .add rfl ‹_›
    · exact .same rfl ‹_›
    · exact .differ rfl ‹_›
    · exact .publish rfl
    · exact .record rfl

/-- Every step of the world is one. -/
theorem World.moves_of_step {w v : World} {i : ℕ} {fails : Bool}
    (h : w.step (.step i fails) = some v) :
    ∃ t s' t', w.threads[i]? = some t ∧ t.Moves w.shared s' t' ∧
      v = ⟨s', w.threads.set i t'⟩ := by
  obtain ⟨t, ht, h⟩ := Option.bind_eq_some_iff.mp h
  obtain ⟨⟨s', t'⟩, hstep, rfl⟩ := Option.map_eq_some_iff.mp h
  exact ⟨t, s', t', ht, Thread.moves_of_step hstep, rfl⟩

end Rune.Endpoints
