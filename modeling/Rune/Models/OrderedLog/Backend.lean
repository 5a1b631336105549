import Rune.Models.OrderedLog.Store

/-!
# The single-node backend

The backend object holds the counters that mirror the database. Each operation is
a function of the object, the database and what the environment answers: errors of
the context, of the commit and of the scans. A pass of the pruner commits batch
after batch, so it can stop half way.
-/

namespace Rune.OrderedLog

open Rune.Core

/-- The options of a backend that its logic reads. -/
structure BackendOptions where
  watchBuffer : Int
  retentionMaxEvents : ℕ

/-- Fill in the defaults. -/
def BackendOptions.defaults (o : BackendOptions) : BackendOptions where
  watchBuffer := if o.watchBuffer ≤ 0 then 1024 else o.watchBuffer
  retentionMaxEvents := if o.retentionMaxEvents = 0 then 100000 else o.retentionMaxEvents

/-- A state mutation as a caller proposes it. -/
structure Op where
  opType : Bytes
  body : Bytes
  marshal : Except LogError Bytes

/-- The backend object. -/
structure Backend where
  opts : BackendOptions
  lastSeq : ℕ
  minSeq : ℕ
  appliers : Bytes → Option (Op → Script)
  closed : Bool
  /-- The channel that stops the background work has been closed. -/
  doneClosed : Bool

/-- A new backend object, to be opened before use. -/
def newBadgerBackend (opts : BackendOptions) : Backend where
  opts := opts.defaults
  lastSeq := 0
  minSeq := 0
  appliers := fun _ => none
  closed := false
  doneClosed := false

namespace Backend

/-- Load the counter, then the smallest retained number. The first scan that fails
ends it. -/
def openLog (b : Backend) (d : Disk) (loadErr scanErr : Option LogError) :
    Backend × Except LogError Unit :=
  match loadErr with
  | some err => (b, .error (.loadSeq err))
  | none =>
    let b := { b with lastSeq := d.seq.getD 0 }
    match scanErr with
    | some err => (b, .error (.scanMinSeq err))
    | none => ({ b with minSeq := firstSeq d.events, closed := false }, .ok ())

/-- Close the object, unless it is closed. The stop channel of an object that was
opened again after a close is closed a second time, which panics. -/
def close (b : Backend) : Option Backend :=
  if b.closed then some b
  else if b.doneClosed then none
  else some { b with closed := true, doneClosed := true }

/-- Bind an applier to an operation type. -/
def register (b : Backend) (opType : Bytes) (applier : Option (Op → Script))
    (hasUnmarshaler : Bool) : Backend × Except LogError Unit :=
  if opType = [] then (b, .error .emptyOpType)
  else match applier with
    | none => (b, .error .nilApplier)
    | some a =>
      if !hasUnmarshaler then (b, .error .nilApplier)
      else if (b.appliers opType).isSome then (b, .error (.alreadyRegistered opType))
      else ({ b with appliers := Function.update b.appliers opType (some a) }, .ok ())

/-- The checks of a proposal before it takes the lock. -/
def checkPropose (b : Backend) (ctxErr : Option LogError) (op : Option Op) :
    Except LogError (Op × Script) :=
  if b.closed then .error .closed
  else match op with
    | none => .error .nilOp
    | some op =>
      match b.appliers op.opType with
      | none => .error (.unknownOpType op.opType)
      | some applier =>
        match op.marshal with
        | .error err => .error (.opMarshal err)
        | .ok _ =>
          match ctxErr with
          | some err => .error err
          | none => .ok (op, applier op)

/-- The counters after a commit: the first one into an empty log defines the
smallest number. -/
def committed (b : Backend) (seq : ℕ) : Backend :=
  { b with lastSeq := seq, minSeq := if b.minSeq = 0 then seq else b.minSeq }

/-- Propose an operation. -/
def propose (b : Backend) (d : Disk) (ctxErr : Option LogError) (op : Option Op)
    (commitErr : Option LogError) : Disk × Backend × Except LogError ℕ :=
  match b.checkPropose ctxErr op with
  | .error err => (d, b, .error err)
  | .ok (op, applier) =>
    let nextSeq := b.lastSeq + 1
    match proposeTxn d nextSeq op.opType applier with
    | .error err => (d, b, .error err)
    | .ok (d', _) =>
      match commitErr with
      | some err => (d, b, .error err)
      | none => (d', b.committed nextSeq, .ok nextSeq)

end Backend

/-- What happens to one transaction of the pruner. -/
inductive BatchOutcome
  | committed
  | txnTooBig
  | failed (err : LogError)

/-- How a pass of the pruner ends; `cut` is the end of the process in between. -/
inductive PassEnd
  | finished
  | failed (err : LogError)
  | cut

/-- The loop over the batches. A transaction that is too big is tried again. -/
def pruneBatches (floor : ℕ) :
    List BatchOutcome → List (ℕ × Bytes) → List (ℕ × Bytes) × PassEnd
  | [], es => (es, .cut)
  | .txnTooBig :: outcomes, es => pruneBatches floor outcomes es
  | .failed err :: _, es => (es, .failed err)
  | .committed :: outcomes, es =>
    let batch := pruneBatch floor batchSize es
    if batch.1 < batchSize then (batch.2, .finished)
    else pruneBatches floor outcomes batch.2

/-- The smallest number that a pass keeps; `none` if it keeps everything. -/
def pruneFloor (keep head : ℕ) : Option ℕ :=
  if head = 0 then none
  else if 0 < keep ∧ keep < head then some (head - keep + 1)
  else none

namespace Backend

/-- One pass: delete below the floor batch by batch, then look up what is left. -/
def pruneOnce (b : Backend) (d : Disk) (outcomes : List BatchOutcome)
    (scanErr : Option LogError) : Disk × Backend × PassEnd :=
  match pruneFloor b.opts.retentionMaxEvents b.lastSeq with
  | none => (d, b, .finished)
  | some floor =>
    let pass := pruneBatches floor outcomes d.events
    let d' := { d with events := pass.1 }
    match pass.2 with
    | .finished =>
      match scanErr with
      | some err => (d', b, .failed err)
      | none => (d', { b with minSeq := firstSeq d'.events }, .finished)
    | .failed err => (d', b, .failed err)
    | .cut => (d', b, .cut)

end Backend

/-- The database, the backend object of the running process, and the number of
proposals that have succeeded so far. -/
structure Session where
  disk : Disk
  backend : Option Backend
  proposed : ℕ

/-- One call, with the answers of the environment. -/
inductive Call
  | register (opType : Bytes) (applier : Option (Op → Script)) (hasUnmarshaler : Bool)
  | propose (ctxErr : Option LogError) (op : Option Op) (commitErr : Option LogError)
  | prune (outcomes : List BatchOutcome) (scanErr : Option LogError)
  | close
  /-- Open the closed object again. -/
  | reopen (loadErr scanErr : Option LogError)
  /-- Open the database with a new object, the old one being closed or gone with its
  process. -/
  | restart (loadErr scanErr : Option LogError)

namespace Session

/-- The first session on a database, opened. -/
def init (opts : BackendOptions) (data : Bytes → Option Bytes) : Session where
  disk := .empty data
  backend := some ((newBadgerBackend opts).openLog (.empty data) none none).1
  proposed := 0

/-- Run one call. Calls that need an object are not possible without one, and the
64-bit counter has room for every number of a run. -/
def step (opts : BackendOptions) (s : Session) : Call → Option Session
  | .restart loadErr scanErr =>
    match (newBadgerBackend opts).openLog s.disk loadErr scanErr with
    | (b, .ok ()) => some { s with backend := some b }
    | (_, .error _) => some { s with backend := none }
  | .register opType applier hasUnmarshaler =>
    s.backend.map fun b => { s with backend := some (b.register opType applier hasUnmarshaler).1 }
  | .propose ctxErr op commitErr =>
    (s.backend.filter fun b => b.lastSeq + 1 < 2 ^ 64).map fun b =>
      match b.propose s.disk ctxErr op commitErr with
      | (d, b, .ok _) => { disk := d, backend := some b, proposed := s.proposed + 1 }
      | (d, b, .error _) => { s with disk := d, backend := some b }
  | .prune outcomes scanErr =>
    s.backend.map fun b =>
      match b.pruneOnce s.disk outcomes scanErr with
      | (d, _, .cut) => { s with disk := d, backend := none }
      | (d, b, _) => { s with disk := d, backend := some b }
  | .close => s.backend.map fun b => { s with backend := b.close }
  | .reopen loadErr scanErr =>
    match s.backend with
    | none => none
    | some b =>
      if b.closed then some { s with backend := some (b.openLog s.disk loadErr scanErr).1 }
      else none

end Session

end Rune.OrderedLog
