import Rune.Core.Interleave
import Rune.Models.Rollout.Instance

/-!
# The slots of a stateful service

The replicas of a stateful service have stable names, and the instances of one name
are the history of one slot. The reconcile pass lists once and then goes through the
slots in order; the health controller begins restarts. Each is a program whose
accesses to the store and to the runner are single steps; all other answers are
arguments of the program. Runners are found, and starting and stopping succeeds.
-/

namespace Rune.Stateful

open Rune.Core
open Rune.Rollout (InstanceStatus)

/-- A stored instance of one slot, whose name and ordinal are those of the slot. -/
structure Instance where
  status : InstanceStatus
  /-- `FailedAt` is set. -/
  failedAt : Bool := false
  /-- `ContainerEverCreatedAt` is set. -/
  containerEverCreatedAt : Bool := false
  deriving DecidableEq

/-- One slot. An instance is identified by its place in the order of creation. -/
structure Slot where
  instances : List Instance := []
  /-- The instances with a container that is started and not yet stopped. -/
  started : List ℕ := []

/-- A listing passes over deleted instances and over preserved failed ones. -/
def Instance.isListed (inst : Instance) : Bool :=
  !(inst.status == .deleted) && !(inst.status == .failed && inst.failedAt)

/-- No container has ever been created for the instance, and the attempts failed. -/
def Instance.isStuckInCreate (inst : Instance) : Bool :=
  !inst.containerEverCreatedAt && (inst.status == .failed || inst.status == .stalled)

/-- What a listing finds in the slot. -/
def Slot.listed (s : Slot) : List (ℕ × Instance) :=
  (s.instances.zipIdx.filter fun x => x.1.isListed).map Prod.swap

namespace Slot

/-- Overwrite a stored instance. -/
def put (k : ℕ) (inst : Instance) (s : Slot) : Slot :=
  { s with instances := s.instances.set k inst }

/-- Change a stored instance in one transaction. -/
def modify (k : ℕ) (f : Instance → Instance) (s : Slot) : Slot :=
  { s with instances := s.instances.modify k f }

/-- Store an instance. -/
def add (inst : Instance) (s : Slot) : Slot :=
  { s with instances := s.instances ++ [inst] }

/-- A container runs. -/
def start (k : ℕ) (s : Slot) : Slot := { s with started := k :: s.started }

/-- A container is stopped. -/
def stop (k : ℕ) (s : Slot) : Slot := { s with started := s.started.filter (· ≠ k) }

end Slot

/-- An access that only changes the slot. -/
def change (f : Slot → Slot) : Prog Slot Unit := .atomic fun s => (f s, ())

/-- Read an instance. -/
def getInstanceByID (k : ℕ) : Prog Slot (Option Instance) := .atomic fun s => (s, s.instances[k]?)

/-- How an attempt to bring a container up goes. -/
structure Attempt where
  /-- What an earlier attempt left behind is out of the way. -/
  cleared : Bool
  /-- The environment and the mounts resolve. -/
  prepared : Bool
  /-- Whether the init steps succeed, if there are any. -/
  initSteps : Option Bool
  /-- The runner accepts the container. -/
  accepted : Bool
  /-- The service has a readiness probe. -/
  readiness : Bool
  /-- A failure is the last one allowed. -/
  exhausted : Bool

/-- Record a failed attempt, which may be the last. -/
def recordCreateFailure (k : ℕ) (a : Attempt) : Prog Slot Unit :=
  change (·.modify k fun fresh =>
    { fresh with status := if a.exhausted then .stalled else .failed })

/-- The record of an instance whose container has been started. -/
def Instance.launched (inst : Instance) (a : Attempt) : Instance :=
  { inst with
    status := if a.readiness then .starting else .running
    containerEverCreatedAt := true }

/-- Create the container and start it. -/
def launch (k : ℕ) (inst : Instance) (a : Attempt) : Prog Slot (Option Instance) := do
  change (·.put k { inst with status := .starting })
  if a.accepted then
    change (·.start k)
    change (·.put k (inst.launched a))
    return some (inst.launched a)
  else
    recordCreateFailure k a
    return none

/-- Everything after the record exists; gives the instance in the end, or nothing
where the attempt failed. -/
def runCreateAttempt (k : ℕ) (inst : Instance) (a : Attempt) : Prog Slot (Option Instance) :=
  if a.prepared then
    match a.initSteps with
    | none => launch k inst a
    | some true => do
      change (·.put k { inst with status := .initializing })
      launch k inst a
    | some false => do
      change (·.put k { inst with status := .initializing })
      change (·.put k { inst with status := .failed })
      recordCreateFailure k a
      return none
  else do
    recordCreateFailure k a
    return none

/-- Store an instance and start it. -/
def createInstance (a : Attempt) : Prog Slot (Option (ℕ × Instance)) := do
  let k ← .atomic fun s => (s.add { status := .pending }, s.instances.length)
  let created ← runCreateAttempt k { status := .pending } a
  return created.map fun inst => (k, inst)

/-- Try again with an instance whose attempts have failed so far. -/
def retryCreateInstance (k : ℕ) (inst : Instance) (a : Attempt) : Prog Slot Unit := do
  change (·.put k { inst with status := .pending })
  if a.cleared then
    let _ ← runCreateAttempt k { inst with status := .pending } a
    return ()
  else recordCreateFailure k a

/-- Delete an instance, going by the copy that was listed. Failed and stalled
instances are not brought back into a live state on the way. -/
def deleteInstance (k : ℕ) (inst : Instance) : Prog Slot Unit := do
  if !(inst.status == .deleted || inst.status == .failed || inst.status == .stalled) then
    change (·.put k { inst with status := .terminating })
  change (·.stop k)
  change (·.put k { inst with status := .deleted })

/-- Record a failure. -/
def markInstanceFailedInPlace (k : ℕ) : Prog Slot Unit :=
  change (·.modify k fun fresh => { fresh with status := .failed, failedAt := true })

/-- What a restart is told. -/
structure RestartAnswers where
  /-- The service is stored and not being deleted. -/
  wanted : Bool
  /-- The restart policy permits it. -/
  permitted : Bool
  attempt : Attempt

/-- Stop the container but keep it, and put a new instance in its place. -/
def stopAndReplace (k : ℕ) (a : RestartAnswers) : Prog Slot Unit := do
  change (·.stop k)
  markInstanceFailedInPlace k
  match ← createInstance a.attempt with
  | some (new, replacement) => change (·.put new replacement)
  | none => return ()

/-- A running instance is taken out of service before it is replaced. -/
def replace (k : ℕ) (inst : Instance) (a : RestartAnswers) : Prog Slot Unit := do
  if inst.status = .running then
    change (·.modify k fun fresh =>
      if fresh.status = .running then { fresh with status := .terminating } else fresh)
  stopAndReplace k a

/-- What a restart does after its first read. -/
def restartFrom (k : ℕ) (a : RestartAnswers) : Option Instance → Prog Slot Unit
  | none => return ()
  | some current =>
    if current.isStuckInCreate then
      if a.wanted then retryCreateInstance k current a.attempt else return ()
    else if current.status = .deleted ∨ current.status = .failed then return ()
    else if a.wanted && a.permitted then replace k current a
    else return ()

/-- Restart an instance that is read first. -/
def restartInstance (k : ℕ) (a : RestartAnswers) : Prog Slot Unit := do
  let current ← getInstanceByID k
  restartFrom k a current

/-- What a pass is told about one slot. -/
structure SlotAnswers where
  /-- The listed instances that still fit the service. -/
  compatible : ℕ → Bool
  /-- The time of the next attempt has come. -/
  due : Bool
  /-- The instance cannot be updated in place. -/
  recreates : Bool
  /-- The runner removes the container of a deleted instance. -/
  removed : Bool
  attempt : Attempt

/-- Replace an instance. -/
def recreateInstance (k : ℕ) (inst : Instance) (a : SlotAnswers) : Prog Slot Unit := do
  deleteInstance k inst
  if a.removed then
    let _ ← createInstance a.attempt
    return ()
  else return ()

/-- Retry, replace or leave an instance. -/
def reconcileExistingInstance (k : ℕ) (inst : Instance) (a : SlotAnswers) : Prog Slot Unit :=
  if inst.isStuckInCreate then
    if inst.status = .failed && a.due then retryCreateInstance k inst a.attempt else return ()
  else if a.recreates then recreateInstance k inst a
  else return ()

/-- Fill one slot, going by what was listed for it. -/
def fillSlot (a : SlotAnswers) : List (ℕ × Instance) → Prog Slot Unit
  | [] => do
    let _ ← createInstance a.attempt
    return ()
  | (k, inst) :: rest =>
    if a.compatible k then reconcileExistingInstance k inst a
    else do
      deleteInstance k inst
      fillSlot a rest

/-- A pass under way. -/
structure Pass where
  listing : ℕ → List (ℕ × Instance)
  answers : ℕ → SlotAnswers
  /-- The slot it is at. -/
  slot : ℕ
  /-- What is left to do there. -/
  body : Prog Slot Unit

/-- A restart under way, or one that has ended. -/
structure Restart where
  ordinal : ℕ
  body : Prog Slot Unit

/-- The slots, the pass and the restarts under way. -/
structure Node where
  slots : ℕ → Slot
  pass : Option Pass := none
  restarts : List Restart := []

/-- What can happen. -/
inductive Step
  /-- A pass begins with its listing. -/
  | beginPass (answers : ℕ → SlotAnswers)
  /-- The pass makes its next access, or goes on to the next slot. -/
  | pass
  /-- The health controller begins to restart an instance. -/
  | beginRestart (ordinal k : ℕ) (answers : RestartAnswers)
  /-- A restart makes its next access. -/
  | restart (thread : ℕ)

namespace Node

/-- A pass comes to a slot; it ends at the scale. -/
def enter (scale : ℕ) (listing : ℕ → List (ℕ × Instance)) (answers : ℕ → SlotAnswers)
    (slot : ℕ) : Option Pass :=
  if slot < scale then some ⟨listing, answers, slot, fillSlot (answers slot) (listing slot)⟩
  else none

/-- Change one slot. -/
def setSlot (n : Node) (i : ℕ) (s : Slot) : Node :=
  { n with slots := Function.update n.slots i s }

/-- One step; there is at most one pass at a time. -/
def step (scale : ℕ) (n : Node) : Step → Option Node
  | .beginPass answers =>
    match n.pass with
    | some _ => none
    | none => some { n with pass := enter scale (fun i => (n.slots i).listed) answers 0 }
  | .pass =>
    match n.pass with
    | none => none
    | some p =>
      match p.body with
      | .act upd next =>
        some { n.setSlot p.slot (upd (n.slots p.slot)) with
          pass := some { p with body := next (n.slots p.slot) } }
      | .ret _ => some { n with pass := enter scale p.listing p.answers (p.slot + 1) }
  | .beginRestart i k answers =>
    some { n with restarts := n.restarts ++ [⟨i, restartInstance k answers⟩] }
  | .restart thread =>
    match n.restarts[thread]? with
    | some ⟨i, .act upd next⟩ =>
      some { n.setSlot i (upd (n.slots i)) with
        restarts := n.restarts.set thread ⟨i, next (n.slots i)⟩ }
    | _ => none

end Node

end Rune.Stateful
