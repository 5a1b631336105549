import Rune.Core.Run
import Rune.Models.Scaling.Operation

/-!
# Crashes and recovery

One operation and its service, in a process that may crash between any two of its writes
and be started again. Three threads of the process work on the operation: the watch loop
on its created event, the recovery that every start runs, and the goroutine of a gradual
operation. A crash loses all three, with the event; only the rows of the store survive.
-/

namespace Rune.Scaling

open Rune.Core Rune.Services

/-- The age past which recovery gives an operation up, in nanoseconds. -/
def recoveryLimit : ℤ := 3600000000000

/-- What the watch loop has done of the created event, with the event's copy of the row. -/
inductive Event
  | pending (op : Operation)
  | completing (op : Operation)
  | applying (op : Operation)
  | handled

/-- The next step of the watch loop; it may start a goroutine, unless one is registered. -/
def Event.step (registered : Bool) (r : Rows) : Event → Option (Rows × Event × Option Worker)
  | .pending op =>
    match op.mode with
    | .gradual => some (r, .handled, if registered then none else some { op := op })
    | .immediate => some (r, .completing op, none)
  | .completing op => some ({ r with op := op.completeOperation }, .applying op, none)
  | .applying op =>
    some ({ r with service := executeImmediateScaling op.targetScale r.service }, .handled, none)
  | .handled => none

/-- Everything that a step of the watch loop can do. -/
inductive Event.Moves (registered : Bool) (r : Rows) :
    Event → Rows → Event → Option Worker → Prop
  | spawn {op : Operation} (hmode : op.mode = .gradual) (hfree : registered = false) :
    Event.Moves registered r (.pending op) r .handled (some { op := op })
  | refuse {op : Operation} (hmode : op.mode = .gradual) (htaken : registered = true) :
    Event.Moves registered r (.pending op) r .handled none
  | take {op : Operation} (hmode : op.mode = .immediate) :
    Event.Moves registered r (.pending op) r (.completing op) none
  | record {op : Operation} :
    Event.Moves registered r (.completing op) { r with op := op.completeOperation }
      (.applying op) none
  | apply {op : Operation} :
    Event.Moves registered r (.applying op)
      { r with service := executeImmediateScaling op.targetScale r.service } .handled none

theorem Event.moves_of_step {registered : Bool} {r r' : Rows} {e e' : Event}
    {started : Option Worker} (h : e.step registered r = some (r', e', started)) :
    Event.Moves registered r e r' e' started := by
  revert h
  fun_cases e.step registered r <;> rintro ⟨⟩
  · cases registered
    · exact .spawn ‹_› rfl
    · exact .refuse ‹_› rfl
  · exact .take ‹_›
  · exact .record
  · exact .apply

/-- How far the start of a process has come with the operation. The second round looks for
operations at their target. -/
inductive Recovery
  | list
  | found (op : Operation)
  | failing (op : Operation) (reason : String)
  | completing (op : Operation)
  | recording (op : Operation)
  | applying (op : Operation)
  | relist
  | refound (op : Operation)
  | recompleting (op : Operation)
  | done
  deriving DecidableEq

/-- What recovery does with an operation in progress once it has read the service. -/
def Recovery.recoverOperation (elapsed : ℤ) (registered : Bool) (service : Service)
    (op : Operation) : Recovery × Option Worker :=
  if recoveryLimit < elapsed then
    (.failing op "Operation timed out during server recovery", none)
  else if service.spec.scale = op.targetScale then (.completing op, none)
  else match op.mode with
    | .gradual =>
      if registered then
        (.failing op ("Failed to recover: scaling operation already in progress for service " ++
          service.name), none)
      else (.relist, some { op := op })
    | .immediate => (.recording op, none)

/-- The next read or write of recovery, `elapsed` after the start of the operation. -/
def Recovery.step (elapsed : ℤ) (registered : Bool) (r : Rows) :
    Recovery → Option (Rows × Recovery × Option Worker)
  | .list => some (r, if r.op.status ≠ .inProgress then .relist else .found r.op, none)
  | .found op => some (r, recoverOperation elapsed registered r.service op)
  | .failing op reason => some ({ r with op := op.failOperation reason }, .relist, none)
  | .completing op => some ({ r with op := op.completeOperation }, .relist, none)
  | .recording op => some ({ r with op := op.completeOperation }, .applying op, none)
  | .applying op =>
    some ({ r with service := executeImmediateScaling op.targetScale r.service }, .relist, none)
  | .relist => some (r, if r.op.status ≠ .inProgress then .done else .refound r.op, none)
  | .refound op =>
    some (r, if r.service.spec.scale = op.targetScale then .recompleting op else .done, none)
  | .recompleting op => some ({ r with op := op.completeOperation }, .done, none)
  | .done => none

/-- Everything that a step of recovery can do. -/
inductive Recovery.Moves (elapsed : ℤ) (registered : Bool) (r : Rows) :
    Recovery → Rows → Recovery → Option Worker → Prop
  | skip (hstatus : r.op.status ≠ .inProgress) :
    Recovery.Moves elapsed registered r .list r .relist none
  | find (hstatus : r.op.status = .inProgress) :
    Recovery.Moves elapsed registered r .list r (.found r.op) none
  | stale {op : Operation} (hold : recoveryLimit < elapsed) (reason : String) :
    Recovery.Moves elapsed registered r (.found op) r (.failing op reason) none
  | arrived {op : Operation} (hscale : r.service.spec.scale = op.targetScale) :
    Recovery.Moves elapsed registered r (.found op) r (.completing op) none
  | spawn {op : Operation} (hmode : op.mode = .gradual) (hfree : registered = false) :
    Recovery.Moves elapsed registered r (.found op) r .relist (some { op := op })
  | refuse {op : Operation} (htaken : registered = true) (reason : String) :
    Recovery.Moves elapsed registered r (.found op) r (.failing op reason) none
  | take {op : Operation} (hmode : op.mode = .immediate) :
    Recovery.Moves elapsed registered r (.found op) r (.recording op) none
  | fail {op : Operation} {reason : String} :
    Recovery.Moves elapsed registered r (.failing op reason)
      { r with op := op.failOperation reason } .relist none
  | complete {op : Operation} :
    Recovery.Moves elapsed registered r (.completing op)
      { r with op := op.completeOperation } .relist none
  | record {op : Operation} :
    Recovery.Moves elapsed registered r (.recording op)
      { r with op := op.completeOperation } (.applying op) none
  | apply {op : Operation} :
    Recovery.Moves elapsed registered r (.applying op)
      { r with service := executeImmediateScaling op.targetScale r.service } .relist none
  | leave (hstatus : r.op.status ≠ .inProgress) :
    Recovery.Moves elapsed registered r .relist r .done none
  | refind (hstatus : r.op.status = .inProgress) :
    Recovery.Moves elapsed registered r .relist r (.refound r.op) none
  | away {op : Operation} : Recovery.Moves elapsed registered r (.refound op) r .done none
  | rearrived {op : Operation} (hscale : r.service.spec.scale = op.targetScale) :
    Recovery.Moves elapsed registered r (.refound op) r (.recompleting op) none
  | recomplete {op : Operation} :
    Recovery.Moves elapsed registered r (.recompleting op)
      { r with op := op.completeOperation } .done none

theorem Recovery.moves_recoverOperation (elapsed : ℤ) (registered : Bool) (r : Rows)
    (op : Operation) :
    Recovery.Moves elapsed registered r (.found op) r
      (recoverOperation elapsed registered r.service op).1
      (recoverOperation elapsed registered r.service op).2 := by
  fun_cases recoverOperation elapsed registered r.service op
  · exact .stale ‹_› _
  · exact .arrived ‹_›
  · exact .refuse ‹_› _
  · exact .spawn ‹_› (Bool.eq_false_iff.mpr ‹_›)
  · exact .take ‹_›

theorem Recovery.moves_of_step {elapsed : ℤ} {registered : Bool} {r r' : Rows}
    {rc rc' : Recovery} {started : Option Worker}
    (h : rc.step elapsed registered r = some (r', rc', started)) :
    Recovery.Moves elapsed registered r rc r' rc' started := by
  revert h
  fun_cases rc.step elapsed registered r <;> intro h <;> try cases h
  · split
    · exact .skip ‹_›
    · exact .find (not_not.mp ‹_›)
  · rename_i op
    have hmoves := moves_recoverOperation elapsed registered r op
    obtain ⟨rfl, hresult⟩ := Prod.mk.inj (Option.some.inj h)
    rwa [hresult] at hmoves
  · exact .fail
  · exact .complete
  · exact .record
  · exact .apply
  · split
    · exact .leave ‹_›
    · exact .refind (not_not.mp ‹_›)
  · split
    · exact .rearrived ‹_›
    · exact .away
  · exact .recomplete

/-- The goroutines of a process. -/
structure Process where
  event : Event := .handled
  recovery : Recovery := .list
  worker : Option Worker := none

/-- The stored rows, whether the service has been at the target since the operation was
created, and the process, if it is up. -/
structure World where
  rows : Rows
  reached : Bool
  process : Option Process

/-- What can happen. -/
inductive Move
  | crash
  | restart
  | handle
  | recover (elapsed : ℤ)
  | work
  /-- Someone else stores the service. -/
  | write (service : Service)
  deriving DecidableEq

/-- The service is at the target of the operation. -/
def Rows.AtTarget (r : Rows) : Prop := r.service.spec.scale = r.op.targetScale

instance (r : Rows) : Decidable r.AtTarget := inferInstanceAs (Decidable (_ = _))

namespace World

/-- The operation has just been created, with recovery of the process at some point. -/
def start (service : Service) (op : Operation) (recovery : Recovery) : World where
  rows := ⟨service, op⟩
  reached := decide (Rows.AtTarget ⟨service, op⟩)
  process := some { event := .pending op, recovery := recovery }

/-- Store the rows. -/
def put (w : World) (r : Rows) (process : Option Process) : World where
  rows := r
  reached := w.reached || decide r.AtTarget
  process := process

/-- One step, if it is possible. -/
def step (w : World) (m : Move) : Option World :=
  match m, w.process with
  | .write service, _ => some (w.put { w.rows with service := service } w.process)
  | .restart, none => some { w with process := some {} }
  | .crash, some _ => some { w with process := none }
  | .handle, some p =>
    (p.event.step p.worker.isSome w.rows).map fun (r, event, started) =>
      w.put r (some { p with event := event, worker := p.worker.or started })
  | .recover elapsed, some p =>
    (p.recovery.step elapsed p.worker.isSome w.rows).map fun (r, recovery, started) =>
      w.put r (some { p with recovery := recovery, worker := p.worker.or started })
  | .work, some p =>
    p.worker.map fun wk =>
      match wk.step w.rows with
      | (r, .goes next) => w.put r (some { p with worker := some next })
      | (r, .ends) => w.put r (some { p with worker := none })
      | (r, .panics) => w.put r none
  | _, _ => none

/-- Everything that a move can do. -/
inductive Moves (w : World) : Move → World → Prop
  | write (service : Service) :
    Moves w (.write service) (w.put { w.rows with service := service } w.process)
  | restart (hdown : w.process = none) : Moves w .restart { w with process := some {} }
  | crash {p : Process} (hup : w.process = some p) : Moves w .crash { w with process := none }
  | handle {p : Process} (hup : w.process = some p) {r : Rows} {event : Event}
      {started : Option Worker}
      (h : Event.Moves p.worker.isSome w.rows p.event r event started) :
    Moves w .handle (w.put r (some { p with event := event, worker := p.worker.or started }))
  | recover {p : Process} (hup : w.process = some p) {elapsed : ℤ} {r : Rows}
      {recovery : Recovery} {started : Option Worker}
      (h : Recovery.Moves elapsed p.worker.isSome w.rows p.recovery r recovery started) :
    Moves w (.recover elapsed)
      (w.put r (some { p with recovery := recovery, worker := p.worker.or started }))
  | goes {p : Process} (hup : w.process = some p) {wk next : Worker} (hwk : p.worker = some wk)
      {r : Rows} (h : wk.Moves w.rows r (.goes next)) :
    Moves w .work (w.put r (some { p with worker := some next }))
  | ends {p : Process} (hup : w.process = some p) {wk : Worker} (hwk : p.worker = some wk)
      {r : Rows} (h : wk.Moves w.rows r .ends) :
    Moves w .work (w.put r (some { p with worker := none }))
  | panics {p : Process} (hup : w.process = some p) {wk : Worker} (hwk : p.worker = some wk)
      {r : Rows} (h : wk.Moves w.rows r .panics) : Moves w .work (w.put r none)

/-- Every step of the world is a move. -/
theorem moves_of_step {w v : World} {m : Move} (h : w.step m = some v) : w.Moves m v := by
  unfold step at h
  split at h
  case h_1 service =>
    cases h
    exact .write service
  case h_2 hdown =>
    cases h
    exact .restart hdown
  case h_3 hup =>
    cases h
    exact .crash hup
  case h_4 p hup =>
    obtain ⟨⟨r, event, started⟩, hstep, rfl⟩ := Option.map_eq_some_iff.mp h
    exact .handle hup (Event.moves_of_step hstep)
  case h_5 p hup =>
    obtain ⟨⟨r, recovery, started⟩, hstep, rfl⟩ := Option.map_eq_some_iff.mp h
    exact .recover hup (Recovery.moves_of_step hstep)
  case h_6 p hup =>
    obtain ⟨wk, hwk, rfl⟩ := Option.map_eq_some_iff.mp h
    have hmove := wk.moves_step w.rows
    generalize wk.step w.rows = result at hmove ⊢
    obtain ⟨r, _ | _ | _⟩ := result
    · exact .goes hup hwk hmove
    · exact .ends hup hwk hmove
    · exact .panics hup hwk hmove
  case h_7 => cases h

end World

end Rune.Scaling
