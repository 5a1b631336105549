import Rune.Models.Services.Writers

/-!
# Scaling operations

A scaling operation is a stored row of its own. An immediate one is recorded as completed
and then changes the scale. A gradual one has a goroutine that takes a step, looks whether
the row still says that it is in progress, and waits for the next tick. Every read and
every write of the goroutine is a step of its own here, since the store may change between
any two of them.
-/

namespace Rune.Scaling

open Rune.Services

/-- At once or step by step. -/
inductive ScalingMode
  | immediate
  | gradual
  deriving DecidableEq

/-- How an operation stands. -/
inductive ScalingOperationStatus
  | inProgress
  | completed
  | failed
  | cancelled
  deriving DecidableEq

/-- The row of a scaling operation. -/
structure Operation extends ScalingOperation where
  interval : ℤ
  status : ScalingOperationStatus
  mode : ScalingMode
  failureReason : String := ""
  deriving DecidableEq

/-- What a request asks for. -/
structure ScalingOperationParams where
  currentScale : ℤ
  targetScale : ℤ
  stepSize : ℤ
  intervalSeconds : ℤ
  isGradual : Bool

/-- The row that a request for scaling stores. -/
def ScalingOperationParams.createScalingOperation (p : ScalingOperationParams) : Operation where
  currentScale := p.currentScale
  targetScale := p.targetScale
  stepSize := p.stepSize
  interval := p.intervalSeconds
  status := .inProgress
  mode := if p.isGradual then .gradual else .immediate

namespace Operation

/-- The operation has reached its target. -/
def completeOperation (op : Operation) : Operation :=
  { op with status := .completed }

/-- The operation is given up. -/
def failOperation (reason : String) (op : Operation) : Operation :=
  { op with status := .failed, failureReason := reason }

/-- The row with the scale that the service has. -/
def withScale (scale : ℤ) (op : Operation) : Operation :=
  { op with toScalingOperation := { op.toScalingOperation with currentScale := scale } }

@[simp] theorem completeOperation_status (op : Operation) :
    op.completeOperation.status = .completed := rfl

@[simp] theorem completeOperation_targetScale (op : Operation) :
    op.completeOperation.targetScale = op.targetScale := rfl

@[simp] theorem withScale_status (scale : ℤ) (op : Operation) :
    (op.withScale scale).status = op.status := rfl

end Operation

@[simp] theorem setScale_scale (next lastNonZero : ℤ) (s : Service) :
    (setScale next lastNonZero s).spec.scale = next := by
  unfold setScale
  split
  · assumption
  · rfl

@[simp] theorem executeImmediateScaling_scale (target : ℤ) (s : Service) :
    (executeImmediateScaling target s).spec.scale = target :=
  setScale_scale _ _ s

variable {op : ScalingOperation}

/-- A step that has somewhere to go from the scale that was read writes the next one, over
whatever scale is stored by then. -/
theorem processScalingStep_scale {seen : Service} (s : Service)
    (htarget : seen.spec.scale ≠ op.targetScale)
    (hnext : seen.spec.scale ≠ op.nextScale seen.spec.scale) :
    (processScalingStep op seen s).spec.scale = op.nextScale seen.spec.scale := by
  rw [processScalingStep, if_neg (by simp [htarget, hnext])]
  exact setScale_scale _ _ s

/-- The number of replicas that are missing or too many. -/
def distance (target scale : ℤ) : ℕ :=
  (scale - target).natAbs

@[simp] theorem distance_self (target : ℤ) : distance target target = 0 := by
  simp [distance]

/-- A positive step size brings every step closer to the target. -/
theorem distance_nextScale_lt {scale : ℤ} (hstep : 1 ≤ op.stepSize) (h : scale ≠ op.targetScale) :
    distance op.targetScale (op.nextScale scale) < distance op.targetScale scale := by
  unfold distance ScalingOperation.nextScale
  split <;> omega

theorem nextScale_ne {scale : ℤ} (hstep : 1 ≤ op.stepSize) (h : scale ≠ op.targetScale) :
    scale ≠ op.nextScale scale := by
  intro heq
  have hlt := distance_nextScale_lt hstep h
  rw [← heq] at hlt
  exact Nat.lt_irrefl _ hlt

/-- Where the goroutine stands: what it has read in this step, and what it does next. -/
inductive Stage
  | start
  | gotOp (current : Operation)
  | gotService (current : Operation) (service : Service)
  | synced (current : Operation) (service : Service)
  | completing (current : Operation)
  | check
  | waiting
  | ending
  deriving DecidableEq

/-- The goroutine, with the operation that it was handed. -/
structure Worker where
  op : Operation
  initial : Bool := true
  stage : Stage := .start
  deriving DecidableEq

/-- The worker comes to a stage. -/
def Worker.at (wk : Worker) (stage : Stage) : Worker :=
  { wk with stage := stage }

@[simp] theorem Worker.at_op (wk : Worker) (stage : Stage) : (wk.at stage).op = wk.op := rfl

@[simp] theorem Worker.at_stage (wk : Worker) (stage : Stage) : (wk.at stage).stage = stage := rfl

/-- The rows of the store that the goroutine reads and writes. -/
structure Rows where
  service : Service
  op : Operation

/-- How a step of the worker ends. -/
inductive Outcome
  | goes (wk : Worker)
  | ends
  /-- A ticker with no positive interval takes the process down. -/
  | panics

/-- The next read or write of the goroutine. -/
def Worker.step (wk : Worker) (r : Rows) : Rows × Outcome :=
  match wk.stage with
  | .start =>
    if r.op.status ≠ .inProgress then (r, .goes (wk.at .check))
    else (r, .goes (wk.at (.gotOp r.op)))
  | .gotOp current => (r, .goes (wk.at (.gotService current r.service)))
  | .gotService current service =>
    if current.currentScale ≠ service.spec.scale then
      let current := current.withScale service.spec.scale
      ({ r with op := current }, .goes (wk.at (.synced current service)))
    else (r, .goes (wk.at (.synced current service)))
  | .synced current service =>
    if service.spec.scale = wk.op.targetScale then (r, .goes (wk.at (.completing current)))
    else
      ({ r with service := processScalingStep wk.op.toScalingOperation service r.service },
        .goes (wk.at (if wk.op.nextScale service.spec.scale = wk.op.targetScale
          then .completing current else .check)))
  | .completing current => ({ r with op := current.completeOperation }, .goes (wk.at .check))
  | .check =>
    if r.op.status ≠ .inProgress then (r, .goes (wk.at .ending))
    else if wk.initial ∧ wk.op.interval ≤ 0 then (r, .panics)
    else (r, .goes { wk with initial := false, stage := .waiting })
  | .waiting => (r, .goes (wk.at .start))
  | .ending => (r, .ends)

/-- Everything that one step of the goroutine can do. -/
inductive Worker.Moves (wk : Worker) (r : Rows) : Rows → Outcome → Prop
  | skip (hstage : wk.stage = .start) (hstatus : r.op.status ≠ .inProgress) :
    wk.Moves r r (.goes (wk.at .check))
  | read (hstage : wk.stage = .start) (hstatus : r.op.status = .inProgress) :
    wk.Moves r r (.goes (wk.at (.gotOp r.op)))
  | fetch {current : Operation} (hstage : wk.stage = .gotOp current) :
    wk.Moves r r (.goes (wk.at (.gotService current r.service)))
  | sync {current : Operation} {seen : Service} (hstage : wk.stage = .gotService current seen) :
    wk.Moves r { r with op := current.withScale seen.spec.scale }
      (.goes (wk.at (.synced (current.withScale seen.spec.scale) seen)))
  | same {current : Operation} {seen : Service} (hstage : wk.stage = .gotService current seen) :
    wk.Moves r r (.goes (wk.at (.synced current seen)))
  | reached {current : Operation} {seen : Service} (hstage : wk.stage = .synced current seen)
      (hseen : seen.spec.scale = wk.op.targetScale) :
    wk.Moves r r (.goes (wk.at (.completing current)))
  | arrive {current : Operation} {seen : Service} (hstage : wk.stage = .synced current seen)
      (hseen : seen.spec.scale ≠ wk.op.targetScale)
      (hnext : wk.op.nextScale seen.spec.scale = wk.op.targetScale) :
    wk.Moves r { r with service := processScalingStep wk.op.toScalingOperation seen r.service }
      (.goes (wk.at (.completing current)))
  | approach {current : Operation} {seen : Service} (hstage : wk.stage = .synced current seen)
      (hseen : seen.spec.scale ≠ wk.op.targetScale)
      (hnext : wk.op.nextScale seen.spec.scale ≠ wk.op.targetScale) :
    wk.Moves r { r with service := processScalingStep wk.op.toScalingOperation seen r.service }
      (.goes (wk.at .check))
  | complete {current : Operation} (hstage : wk.stage = .completing current) :
    wk.Moves r { r with op := current.completeOperation } (.goes (wk.at .check))
  | finish (hstage : wk.stage = .check) (hstatus : r.op.status ≠ .inProgress) :
    wk.Moves r r (.goes (wk.at .ending))
  | panic (hstage : wk.stage = .check) (hinterval : wk.op.interval ≤ 0) : wk.Moves r r .panics
  | wait (hstage : wk.stage = .check) (hstatus : r.op.status = .inProgress) :
    wk.Moves r r (.goes { wk with initial := false, stage := .waiting })
  | tick (hstage : wk.stage = .waiting) : wk.Moves r r (.goes (wk.at .start))
  | leave (hstage : wk.stage = .ending) : wk.Moves r r .ends

/-- Every step of the worker is a move. -/
theorem Worker.moves_step (wk : Worker) (r : Rows) : wk.Moves r (wk.step r).1 (wk.step r).2 := by
  fun_cases wk.step r
  · exact .skip ‹_› ‹_›
  · exact .read ‹_› (not_not.mp ‹_›)
  · exact .fetch ‹_›
  · exact .sync ‹_›
  · exact .same ‹_›
  · exact .reached ‹_› ‹_›
  · rename_i current seen hstage hseen
    by_cases hnext : wk.op.nextScale seen.spec.scale = wk.op.targetScale
    · simp only [hnext, if_true]
      exact .arrive hstage hseen hnext
    · simp only [hnext, if_false]
      exact .approach hstage hseen hnext
  · exact .complete ‹_›
  · exact .finish ‹_› ‹_›
  · rename_i hstage _ hpanic
    exact .panic hstage hpanic.2
  · exact .wait ‹_› (not_not.mp ‹_›)
  · exact .tick ‹_›
  · exact .leave ‹_›

/-- A gradual scaling from one replica to three, one at a time. -/
def upToThree : ScalingOperationParams where
  currentScale := 1
  targetScale := 3
  stepSize := 1
  intervalSeconds := 30
  isGradual := true

/-- A request for five replicas at once. -/
def fiveAtOnce : ScalingOperationParams where
  currentScale := 2
  targetScale := 5
  stepSize := 1
  intervalSeconds := 30
  isGradual := false

/-- A service with one replica. -/
def oneReplica : Service where
  id := "5f0c"
  ns := "default"
  name := "web"
  spec := { scale := 1 }

end Rune.Scaling
