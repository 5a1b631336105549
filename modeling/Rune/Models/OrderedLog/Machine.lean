import Rune.Models.OrderedLog.Representation

/-!
# The backend as a concurrent machine

Every party moves in atomic steps: a transaction, an access to an atomic counter, a
critical section of the subscriber lock, or one channel operation. `proposeMu` is
held by a proposal from its check to the end of its publication, and by a watch from
its backfill to its registration; what the holder does next is part of the lock's
state. A channel operation that Go answers with a panic ends the process.
-/

namespace Rune.OrderedLog

open Rune.Core

/-- What the holder of `proposeMu` has done so far. Subscriptions are numbered in the
order of their watches. -/
inductive Lock
  | free
  /-- A proposal has seen the backend open. -/
  | proposing
  /-- Its transaction is committed. -/
  | committed (ev : Event)
  /-- The counter in memory is stored. -/
  | stored (ev : Event)
  /-- The smallest number has been set, if there was none. -/
  | swapped (ev : Event)
  /-- It publishes to a snapshot of the subscribers. -/
  | sending (ev : Event) (todo : List ℕ)
  /-- The buffer of a subscriber was full. -/
  | dropping (ev : Event) (sub : ℕ) (todo : List ℕ)
  /-- A watch has filled its buffer and is about to register. -/
  | registering (sub : ℕ)

/-- How far a watch has come. -/
inductive WatchPhase
  /-- It has seen the backend open. -/
  | entered
  /-- Its position is not compacted. -/
  | checked
  | backfilled
  /-- It has returned its channel, and its goroutine waits. -/
  | live
  /-- Its goroutine has removed the subscription. -/
  | detached
  | failed (err : LogError)

/-- A call of `Watch`, with its subscription. -/
structure Watch where
  /-- The position the caller asked for. -/
  fromSeq : ℕ
  /-- The last number delivered into the channel. -/
  sent : ℕ
  phase : WatchPhase
  /-- The channel's buffer. -/
  buffer : List Event
  chClosed : Bool
  cancelled : Bool
  /-- The head of the log at the backfill. -/
  head : ℕ
  /-- What the consumer has taken out of the channel. -/
  received : List Event

/-- A pass of the pruner, between two of its steps. -/
inductive Pruner
  | deleting (floor : ℕ)
  | scanning
  /-- The scan's result is not stored yet. -/
  | scanned (first : ℕ)
  | ended

/-- How far `Close` has come. -/
inductive ClosePhase
  | opened
  | flagged
  | doneClosed
  | finished
  deriving DecidableEq

/-- The channel operations that Go answers with a panic. -/
inductive Panic
  | closeOfClosed
  | sendOnClosed
  deriving DecidableEq

/-- The state of a process with one backend. -/
structure Machine where
  opts : BackendOptions
  disk : Disk
  lastSeq : ℕ
  minSeq : ℕ
  closing : ClosePhase
  /-- The registered subscriptions; `none` once `Close` has dropped the map. -/
  subs : Option (List ℕ)
  watches : List Watch
  lock : Lock
  pruners : List Pruner
  panicked : Option Panic

namespace Machine

variable (m : Machine)

/-- `Close` has been called. -/
def closed : Bool := m.closing != .opened

/-- The channel that ends every watch's goroutine has been closed. -/
def done : Bool := m.closing == .doneClosed || m.closing == .finished

/-- The capacity of a subscription's channel. -/
def capacity : ℕ := m.opts.watchBuffer.toNat

/-- A backend that has just been opened on a database. -/
def opened (opts : BackendOptions) (d : Disk) : Machine where
  opts := opts.defaults
  disk := d
  lastSeq := d.seq.getD 0
  minSeq := firstSeq d.events
  closing := .opened
  subs := some []
  watches := []
  lock := .free
  pruners := []
  panicked := none

/-- Change one watch. -/
def setWatch (i : ℕ) (w : Watch) : Machine := { m with watches := m.watches.set i w }

/-- Take a subscription out of the map and close its channel. -/
def removeSub (i : ℕ) (w : Watch) : Machine :=
  let m := { m with subs := m.subs.map fun subs : List ℕ => subs.erase i }
  if w.chClosed then { m with panicked := some .closeOfClosed }
  else m.setWatch i { w with chClosed := true }

end Machine

/-- The steps of a proposal. -/
inductive ProposeStep
  /-- Take the lock and see the backend open. -/
  | begin
  | commit (opType : Bytes) (applier : Script) (commitErr : Option LogError)
  | storeLastSeq
  | swapMinSeq
  /-- Copy the subscriber map, in whatever order it is ranged over. -/
  | snapshot (order : List ℕ)
  | send
  | drop
  | finish

/-- One step of the proposal that holds the lock. The 64-bit counter has room for
every number of a run. -/
def Machine.proposeStep (m : Machine) : ProposeStep → Option Machine
  | .begin =>
    match m.lock with
    | .free => if m.closed then none else some { m with lock := .proposing }
    | _ => none
  | .commit opType applier commitErr =>
    match m.lock with
    | .proposing =>
      if 2 ^ 64 ≤ m.lastSeq + 1 then none
      else match proposeTxn m.disk (m.lastSeq + 1) opType applier, commitErr with
        | .ok (d, ev), none => some { m with disk := d, lock := .committed ev }
        | _, _ => some { m with lock := .free }
    | _ => none
  | .storeLastSeq =>
    match m.lock with
    | .committed ev => some { m with lastSeq := ev.seq, lock := .stored ev }
    | _ => none
  | .swapMinSeq =>
    match m.lock with
    | .stored ev =>
      some { m with minSeq := if m.minSeq = 0 then ev.seq else m.minSeq, lock := .swapped ev }
    | _ => none
  | .snapshot order =>
    match m.lock with
    | .swapped ev =>
      match m.subs with
      | none => some { m with lock := .free }
      | some subs => if order.isPerm subs then some { m with lock := .sending ev order } else none
    | _ => none
  | .send =>
    match m.lock with
    | .sending ev (i :: todo) =>
      match m.watches[i]? with
      | none => none
      | some w =>
        if w.chClosed then some { m with panicked := some .sendOnClosed }
        else if w.buffer.length < m.capacity then
          some { m with
              watches := m.watches.set i { w with buffer := w.buffer ++ [ev], sent := ev.seq }
              lock := .sending ev todo }
        else some { m with lock := .dropping ev i todo }
    | _ => none
  | .drop =>
    match m.lock with
    | .dropping ev i todo =>
      match m.watches[i]? with
      | none => none
      | some w => some { m.removeSub i w with lock := .sending ev todo }
    | _ => none
  | .finish =>
    match m.lock with
    | .sending _ [] => some { m with lock := .free }
    | _ => none

/-- Deliver stored events into a fresh channel until it is full. What does not fit is
left out without an error. -/
def deliverBackfill (capacity : ℕ) :
    List (ℕ × Bytes) → List Event → ℕ → Except LogError (List Event × ℕ)
  | [], buffer, sent => .ok (buffer, sent)
  | e :: es, buffer, sent =>
    match decodeEvent e.2 with
    | .error err => .error (.decodeBackfillEvent err)
    | .ok ev =>
      if buffer.length < capacity then deliverBackfill capacity es (buffer ++ [ev]) ev.seq
      else .ok (buffer, sent)

/-- The backfill of a watch: nothing if it is at the head, else a scan from the key
behind its position on. -/
def backfill (capacity head fromSeq : ℕ) (events : List (ℕ × Bytes)) :
    Except LogError (List Event × ℕ) :=
  if head ≤ fromSeq then .ok ([], fromSeq)
  else deliverBackfill capacity (events.dropWhile fun e => e.1 < fromSeq + 1) [] fromSeq

/-- The steps of a watch, of its goroutine and of its consumer. -/
inductive WatchStep
  | check
  | backfill
  | register
  /-- The goroutine sees the context or the backend done and removes the subscription. -/
  | detach
  /-- The consumer receives one event. -/
  | read
  /-- The caller's context ends. -/
  | cancel

/-- One step of the watch `w` with the number `i`. -/
def Machine.watchStep (m : Machine) (i : ℕ) (w : Watch) : WatchStep → Option Machine
  | .check =>
    match w.phase with
    | .entered =>
      if 0 < m.minSeq ∧ w.fromSeq + 1 < m.minSeq then
        some (m.setWatch i { w with phase := .failed .compacted })
      else some (m.setWatch i { w with phase := .checked })
    | _ => none
  | .backfill =>
    match w.phase, m.lock with
    | .checked, .free =>
      match OrderedLog.backfill m.capacity m.lastSeq w.fromSeq m.disk.events with
      | .error err => some (m.setWatch i { w with phase := .failed err })
      | .ok (buffer, sent) =>
        some { m with
            watches := m.watches.set i
              { w with phase := .backfilled, buffer, sent, head := m.lastSeq }
            lock := .registering i }
    | _, _ => none
  | .register =>
    match w.phase, m.lock with
    | .backfilled, .registering j =>
      if i ≠ j then none
      else match m.subs with
        | none =>
          if w.chClosed then some { m with panicked := some .closeOfClosed }
          else some { m with
              watches := m.watches.set i { w with phase := .failed .closed, chClosed := true }
              lock := .free }
        | some subs =>
          some { m with
              watches := m.watches.set i { w with phase := .live }
              subs := some (i :: subs)
              lock := .free }
    | _, _ => none
  | .detach =>
    match w.phase with
    | .live =>
      if w.cancelled || m.done then some (m.removeSub i { w with phase := .detached }) else none
    | _ => none
  | .read =>
    match w.phase, w.buffer with
    | .live, ev :: rest =>
      some (m.setWatch i { w with buffer := rest, received := w.received ++ [ev] })
    | .detached, ev :: rest =>
      some (m.setWatch i { w with buffer := rest, received := w.received ++ [ev] })
    | _, _ => none
  | .cancel => some (m.setWatch i { w with cancelled := true })

/-- The steps of `Close`. -/
inductive CloseStep
  | flag
  | closeDone
  | dropSubs

/-- Cancel the contexts of the given subscriptions. -/
def cancelSubs (subs : List ℕ) (watches : List Watch) : List Watch :=
  watches.mapIdx fun i w => if i ∈ subs then { w with cancelled := true } else w

/-- One step of `Close`. -/
def Machine.closeStep (m : Machine) : CloseStep → Option Machine
  | .flag => if m.closing = .opened then some { m with closing := .flagged } else none
  | .closeDone => if m.closing = .flagged then some { m with closing := .doneClosed } else none
  | .dropSubs =>
    if m.closing = .doneClosed then
      some { m with closing := .finished, subs := none,
                    watches := cancelSubs (m.subs.getD []) m.watches }
    else none

/-- The steps of a pass of the pruner behind the one that computes its floor. -/
inductive PruneStep
  | batch
  | scan
  | store
  | abort

/-- One step of a pass of the pruner. -/
def Machine.pruneStep (m : Machine) (j : ℕ) (p : Pruner) : PruneStep → Option Machine
  | .batch =>
    match p with
    | .deleting floor =>
      let batch := pruneBatch floor batchSize m.disk.events
      let next : Pruner := if batch.1 < batchSize then .scanning else .deleting floor
      some { m with disk := { m.disk with events := batch.2 }, pruners := m.pruners.set j next }
    | _ => none
  | .scan =>
    match p with
    | .scanning => some { m with pruners := m.pruners.set j (.scanned (firstSeq m.disk.events)) }
    | _ => none
  | .store =>
    match p with
    | .scanned first => some { m with minSeq := first, pruners := m.pruners.set j .ended }
    | _ => none
  | .abort => some { m with pruners := m.pruners.set j .ended }

/-- One atomic step of one party. -/
inductive Action
  | propose (a : ProposeStep)
  /-- A call of `Watch` that sees the backend open. -/
  | newWatch (fromSeq : ℕ)
  | watch (i : ℕ) (a : WatchStep)
  | close (a : CloseStep)
  /-- A pass of the pruner starts and has something to delete. -/
  | newPruner
  | prune (j : ℕ) (a : PruneStep)

/-- A watch that has just been called. -/
def newWatch (fromSeq : ℕ) : Watch where
  fromSeq := fromSeq
  sent := fromSeq
  phase := .entered
  buffer := []
  chClosed := false
  cancelled := false
  head := 0
  received := []

/-- One step of the machine; nothing moves after a panic. -/
def Machine.step (m : Machine) (a : Action) : Option Machine :=
  if m.panicked.isSome then none
  else match a with
    | .propose a => m.proposeStep a
    | .newWatch fromSeq =>
      if m.closed then none else some { m with watches := m.watches ++ [newWatch fromSeq] }
    | .watch i a =>
      match m.watches[i]? with
      | none => none
      | some w => m.watchStep i w a
    | .close a => m.closeStep a
    | .newPruner =>
      match pruneFloor m.opts.retentionMaxEvents m.lastSeq with
      | none => none
      | some floor => some { m with pruners := m.pruners ++ [.deleting floor] }
    | .prune j a =>
      match m.pruners[j]? with
      | none => none
      | some p => m.pruneStep j p a

section Watches

variable {ws : List Watch} {i j : ℕ} {v w w' : Watch} {subs : List ℕ}

/-- A watch stays where it is when another one is called. -/
theorem getElem?_newWatch (hw : ws[i]? = some w) : (ws ++ [w'])[i]? = some w := by
  rw [List.getElem?_append_left (List.getElem?_eq_some_iff.mp hw).1, hw]

/-- Cancelling contexts does nothing else to a watch. -/
theorem getElem?_cancelSubs (hw : ws[i]? = some w) :
    ∃ v, (cancelSubs subs ws)[i]? = some v ∧ (v = { w with cancelled := true } ∨ v = w) := by
  refine ⟨if i ∈ subs then { w with cancelled := true } else w, ?_, ?_⟩
  · rw [cancelSubs, List.getElem?_mapIdx, hw]
    rfl
  · split
    · exact Or.inl rfl
    · exact Or.inr rfl

theorem getElem?_cancelSubs_cases (hv : (cancelSubs subs ws)[j]? = some v) :
    ∃ w, ws[j]? = some w ∧ (v = { w with cancelled := true } ∨ v = w) := by
  have hmap := hv
  rw [cancelSubs, List.getElem?_mapIdx] at hmap
  obtain ⟨w, hw, _⟩ := Option.map_eq_some_iff.mp hmap
  obtain ⟨v', hv', hcases⟩ : ∃ v', (cancelSubs subs ws)[j]? = some v' ∧ _ :=
    getElem?_cancelSubs hw
  cases hv'.symm.trans hv
  exact ⟨w, hw, hcases⟩

end Watches

/-- The steps of the machine with their guards, one constructor for each outcome. -/
inductive Moves (m : Machine) : Action → Machine → Prop
  | begin (hl : m.lock = .free) :
      Moves m (.propose .begin) { m with lock := .proposing }
  | commit {opType : Bytes} {applier : Script} {d : Disk} {ev : Event}
      (hl : m.lock = .proposing) (hroom : m.lastSeq + 1 < 2 ^ 64)
      (htxn : proposeTxn m.disk (m.lastSeq + 1) opType applier = .ok (d, ev)) :
      Moves m (.propose (.commit opType applier none)) { m with disk := d, lock := .committed ev }
  | commitFailed {opType : Bytes} {applier : Script} {commitErr : Option LogError}
      (hl : m.lock = .proposing) :
      Moves m (.propose (.commit opType applier commitErr)) { m with lock := .free }
  | storeLastSeq {ev : Event} (hl : m.lock = .committed ev) :
      Moves m (.propose .storeLastSeq) { m with lastSeq := ev.seq, lock := .stored ev }
  | swapMinSeq {ev : Event} (hl : m.lock = .stored ev) :
      Moves m (.propose .swapMinSeq)
        { m with minSeq := if m.minSeq = 0 then ev.seq else m.minSeq, lock := .swapped ev }
  | snapshotClosed {ev : Event} {order : List ℕ} (hl : m.lock = .swapped ev)
      (hs : m.subs = none) : Moves m (.propose (.snapshot order)) { m with lock := .free }
  | snapshot {ev : Event} {order subs : List ℕ} (hl : m.lock = .swapped ev)
      (hs : m.subs = some subs) (hp : order.Perm subs) :
      Moves m (.propose (.snapshot order)) { m with lock := .sending ev order }
  | sendClosed {ev : Event} {i : ℕ} {todo : List ℕ} {w : Watch}
      (hl : m.lock = .sending ev (i :: todo)) (hw : m.watches[i]? = some w)
      (hc : w.chClosed = true) :
      Moves m (.propose .send) { m with panicked := some .sendOnClosed }
  | send {ev : Event} {i : ℕ} {todo : List ℕ} {w : Watch}
      (hl : m.lock = .sending ev (i :: todo)) (hw : m.watches[i]? = some w)
      (ho : w.chClosed = false) :
      Moves m (.propose .send)
        { m with
            watches := m.watches.set i { w with buffer := w.buffer ++ [ev], sent := ev.seq }
            lock := .sending ev todo }
  | sendFull {ev : Event} {i : ℕ} {todo : List ℕ} {w : Watch}
      (hl : m.lock = .sending ev (i :: todo)) (hw : m.watches[i]? = some w)
      (ho : w.chClosed = false) :
      Moves m (.propose .send) { m with lock := .dropping ev i todo }
  | drop {ev : Event} {i : ℕ} {todo : List ℕ} {w : Watch}
      (hl : m.lock = .dropping ev i todo) (hw : m.watches[i]? = some w) :
      Moves m (.propose .drop) { m.removeSub i w with lock := .sending ev todo }
  | finish {ev : Event} (hl : m.lock = .sending ev []) :
      Moves m (.propose .finish) { m with lock := .free }
  | newWatch (fromSeq : ℕ) :
      Moves m (.newWatch fromSeq) { m with watches := m.watches ++ [newWatch fromSeq] }
  | checkFailed {i : ℕ} {w : Watch} (hw : m.watches[i]? = some w) (hp : w.phase = .entered) :
      Moves m (.watch i .check) (m.setWatch i { w with phase := .failed .compacted })
  | check {i : ℕ} {w : Watch} (hw : m.watches[i]? = some w) (hp : w.phase = .entered) :
      Moves m (.watch i .check) (m.setWatch i { w with phase := .checked })
  | backfillFailed {i : ℕ} {w : Watch} {err : LogError} (hw : m.watches[i]? = some w)
      (hp : w.phase = .checked) (hl : m.lock = .free) :
      Moves m (.watch i .backfill) (m.setWatch i { w with phase := .failed err })
  | backfill {i : ℕ} {w : Watch} {buffer : List Event} {sent : ℕ} (hw : m.watches[i]? = some w)
      (hp : w.phase = .checked) (hl : m.lock = .free)
      (hb : OrderedLog.backfill m.capacity m.lastSeq w.fromSeq m.disk.events =
        .ok (buffer, sent)) :
      Moves m (.watch i .backfill)
        { m with
            watches := m.watches.set i
              { w with phase := .backfilled, buffer, sent, head := m.lastSeq }
            lock := .registering i }
  | registerClosed {i : ℕ} {w : Watch} (hw : m.watches[i]? = some w)
      (hp : w.phase = .backfilled) (hl : m.lock = .registering i) (ho : w.chClosed = false) :
      Moves m (.watch i .register)
        { m with
            watches := m.watches.set i { w with phase := .failed .closed, chClosed := true }
            lock := .free }
  | registerPanic {i : ℕ} {w : Watch} (hw : m.watches[i]? = some w)
      (hp : w.phase = .backfilled) (hl : m.lock = .registering i) (hc : w.chClosed = true) :
      Moves m (.watch i .register) { m with panicked := some .closeOfClosed }
  | register {i : ℕ} {w : Watch} {subs : List ℕ} (hw : m.watches[i]? = some w)
      (hp : w.phase = .backfilled) (hl : m.lock = .registering i) (hs : m.subs = some subs) :
      Moves m (.watch i .register)
        { m with
            watches := m.watches.set i { w with phase := .live }
            subs := some (i :: subs)
            lock := .free }
  | detach {i : ℕ} {w : Watch} (hw : m.watches[i]? = some w) (hp : w.phase = .live)
      (hd : w.cancelled = true ∨ m.done = true) :
      Moves m (.watch i .detach) (m.removeSub i { w with phase := .detached })
  | read {i : ℕ} {w : Watch} {ev : Event} {rest : List Event} (hw : m.watches[i]? = some w)
      (hb : w.buffer = ev :: rest) :
      Moves m (.watch i .read)
        (m.setWatch i { w with buffer := rest, received := w.received ++ [ev] })
  | cancel {i : ℕ} {w : Watch} (hw : m.watches[i]? = some w) :
      Moves m (.watch i .cancel) (m.setWatch i { w with cancelled := true })
  | closeFlag (hc : m.closing = .opened) :
      Moves m (.close .flag) { m with closing := .flagged }
  | closeDone (hc : m.closing = .flagged) :
      Moves m (.close .closeDone) { m with closing := .doneClosed }
  | dropSubs (hc : m.closing = .doneClosed) :
      Moves m (.close .dropSubs)
        { m with closing := .finished, subs := none,
                 watches := cancelSubs (m.subs.getD []) m.watches }
  | newPruner {floor : ℕ} (hf : pruneFloor m.opts.retentionMaxEvents m.lastSeq = some floor) :
      Moves m .newPruner { m with pruners := m.pruners ++ [.deleting floor] }
  | batch {j floor : ℕ} {next : Pruner} (hp : m.pruners[j]? = some (.deleting floor))
      (hn : next = .scanning ∨ next = .deleting floor) :
      Moves m (.prune j .batch)
        { m with disk := { m.disk with events := (pruneBatch floor batchSize m.disk.events).2 },
                 pruners := m.pruners.set j next }
  | scan {j : ℕ} : Moves m (.prune j .scan)
      { m with pruners := m.pruners.set j (.scanned (firstSeq m.disk.events)) }
  | store {j first : ℕ} : Moves m (.prune j .store)
      { m with minSeq := first, pruners := m.pruners.set j .ended }
  | abort {j : ℕ} : Moves m (.prune j .abort) { m with pruners := m.pruners.set j .ended }

namespace Machine

variable {m m' : Machine}

/-- A step of a proposal. -/
theorem proposeStep_moves {a : ProposeStep} (h : m.proposeStep a = some m') :
    Moves m (.propose a) m' := by
  revert h
  fun_cases m.proposeStep a <;> rintro ⟨⟩
  · exact .begin ‹_›
  · exact .commit ‹_› (not_le.mp ‹_›) ‹_›
  · exact .commitFailed ‹_›
  · exact .storeLastSeq ‹_›
  · exact .swapMinSeq ‹_›
  · exact .snapshotClosed ‹_› ‹_›
  · exact .snapshot ‹_› ‹_› (List.isPerm_iff.mp ‹_›)
  · exact .sendClosed ‹_› ‹_› ‹_›
  · exact .send ‹_› ‹_› (Bool.eq_false_iff.mpr ‹_›)
  · exact .sendFull ‹_› ‹_› (Bool.eq_false_iff.mpr ‹_›)
  · exact .drop ‹_› ‹_›
  · exact .finish ‹_›

/-- A step of a watch. -/
theorem watchStep_moves {i : ℕ} {w : Watch} {a : WatchStep} (hw : m.watches[i]? = some w)
    (h : m.watchStep i w a = some m') : Moves m (.watch i a) m' := by
  revert h
  fun_cases m.watchStep i w a <;> rintro ⟨⟩
  · exact .checkFailed hw ‹_›
  · exact .check hw ‹_›
  · exact .backfillFailed hw ‹_› ‹_›
  · exact .backfill hw ‹_› ‹_› ‹_›
  · exact .registerPanic hw ‹_› (not_not.mp ‹_› ▸ ‹_›) ‹_›
  · exact .registerClosed hw ‹_› (not_not.mp ‹_› ▸ ‹_›) (Bool.eq_false_iff.mpr ‹_›)
  · exact .register hw ‹_› (not_not.mp ‹_› ▸ ‹_›) ‹_›
  · exact .detach hw ‹_› (Bool.or_eq_true_iff.mp ‹_›)
  · exact .read hw ‹_›
  · exact .read hw ‹_›
  · exact .cancel hw

/-- A step of `Close`. -/
theorem closeStep_moves {a : CloseStep} (h : m.closeStep a = some m') :
    Moves m (.close a) m' := by
  revert h
  fun_cases m.closeStep a <;> rintro ⟨⟩
  · exact .closeFlag ‹_›
  · exact .closeDone ‹_›
  · exact .dropSubs ‹_›

/-- A step of the pruner. -/
theorem pruneStep_moves {j : ℕ} {p : Pruner} {a : PruneStep} (hp : m.pruners[j]? = some p)
    (h : m.pruneStep j p a = some m') : Moves m (.prune j a) m' := by
  revert h
  fun_cases m.pruneStep j p a <;> rintro ⟨⟩
  · exact .batch hp (ite_eq_or_eq _ _ _)
  · exact .scan
  · exact .store
  · exact .abort

/-- A step is one of the moves, made by a machine that has not panicked. -/
theorem step_moves {a : Action} (h : m.step a = some m') : m.panicked = none ∧ Moves m a m' := by
  revert h
  fun_cases m.step a <;> intro h <;> try cases h
  all_goals refine ⟨by simpa using ‹¬ m.panicked.isSome = true›, ?_⟩
  · exact proposeStep_moves h
  · exact .newWatch _
  · exact watchStep_moves ‹_› h
  · exact closeStep_moves h
  · exact .newPruner ‹_›
  · exact pruneStep_moves ‹_› h

end Machine

end Rune.OrderedLog
