import Rune.Models.Scaling.Applied

/-!
# Operations come to an end

From every state that crashes and restarts can lead to, a process that is left alone
finishes the operation: as long as it is in progress some thread will still record it, and
every step of a thread lowers a rank. The distance to the target bounds the steps that a
goroutine still takes, so the rank needs a positive step size, and a ticker needs a
positive interval.
-/

namespace Rune.Scaling

open Rune.Core Rune.Services

/-- Recovery has not yet decided what to do with the operation. -/
def Recovery.Early : Recovery → Prop
  | .list | .found _ => True
  | .failing _ _ | .completing _ | .recording _ | .applying _ | .relist | .refound _
  | .recompleting _ | .done => False

/-- Recovery has not come across the operation: it is yet to list the operations, it has
listed others, or it has ended. -/
def Recovery.Blank : Recovery → Prop
  | .list | .relist | .done => True
  | .found _ | .failing _ _ | .completing _ | .recording _ | .applying _ | .refound _
  | .recompleting _ => False

theorem Recovery.Blank.cases {rc : Recovery} (h : rc.Blank) :
    rc = .list ∨ rc = .relist ∨ rc = .done := by
  cases rc <;> first | exact h.elim | simp

/-- Recovery will record the operation, or start its goroutine. -/
def Recovery.Owns : Recovery → Prop
  | .list | .found _ | .completing _ | .recording _ => True
  | .failing _ _ | .applying _ | .relist | .refound _ | .recompleting _ | .done => False

/-- The watch loop will record the operation, or start its goroutine. -/
def Event.Owns : Event → Prop
  | .pending _ | .completing _ => True
  | .applying _ | .handled => False

/-- What holds in a process that is up: an operation in progress has an owner, and only
one thread may still start a goroutine, if there is none. -/
structure Process.Steady (status : ScalingOperationStatus) (p : Process) : Prop where
  owner : status = .inProgress → p.event.Owns ∨ p.recovery.Owns ∨ p.worker ≠ none
  alone : p.recovery.Early → p.event = .handled ∧ p.worker = none
  pending : ∀ op, p.event = .pending op → p.worker = none
  failing : ∀ op reason, p.recovery ≠ .failing op reason
  ending : ∀ wk, p.worker = some wk → wk.stage = .ending → status = .completed

/-- The operation is under way or completed, and nobody gives it up. -/
structure World.Steady (q : Request) (w : World) : Prop where
  copies : w.Copies q
  status : w.rows.op.status = .inProgress ∨ w.rows.op.status = .completed
  process : ∀ p, w.process = some p → p.Steady w.rows.op.status

/-- Recovery looks at the operation within the limit. -/
def Move.InTime : Move → Prop
  | .recover elapsed => elapsed ≤ recoveryLimit
  | .crash | .restart | .handle | .work | .write _ => True

instance : ∀ m : Move, Decidable m.InTime
  | .recover elapsed => inferInstanceAs (Decidable (elapsed ≤ recoveryLimit))
  | .crash | .restart | .handle | .work | .write _ => isTrue trivial

/-- Besides, nothing crashes and nobody else stores the service. -/
def Move.Undisturbed : Move → Prop
  | .recover elapsed => elapsed ≤ recoveryLimit
  | .restart | .handle | .work => True
  | .crash | .write _ => False

/-- A gradual operation moves at every step and has a ticker to wait for. -/
def Request.Paced (q : Request) : Prop :=
  q.mode = .gradual → 1 ≤ q.stepSize ∧ 1 ≤ q.interval

section Steady

variable {q : Request} {r r' : Rows} {p : Process} {status status' : ScalingOperationStatus}

/-- Recovery has moved on without starting a goroutine. -/
theorem Process.Steady.recover (h : p.Steady status) {rc : Recovery}
    (howner : status' = .inProgress → p.event.Owns ∨ rc.Owns ∨ p.worker ≠ none)
    (hearly : rc.Early → p.recovery.Early) (hfailing : ∀ op reason, rc ≠ .failing op reason)
    (hstatus : status = .completed → status' = .completed) :
    Process.Steady status' { p with recovery := rc, worker := p.worker.or none } := by
  rw [Option.or_none]
  exact ⟨howner, fun he => h.alone (hearly he), h.pending, hfailing,
    fun wk hwk hend => hstatus (h.ending wk hwk hend)⟩

/-- The watch loop has moved on without starting a goroutine. -/
theorem Process.Steady.handle (h : p.Steady status)
    (hevent : p.event ≠ .handled) {e : Event}
    (howner : status' = .inProgress → e.Owns ∨ p.recovery.Owns ∨ p.worker ≠ none)
    (hpending : ∀ op, e ≠ .pending op) (hstatus : status = .completed → status' = .completed) :
    Process.Steady status' { p with event := e, worker := p.worker.or none } := by
  rw [Option.or_none]
  exact ⟨howner, fun he => absurd (h.alone he).1 hevent, fun op hop => absurd hop (hpending op),
    h.failing, fun wk hwk hend => hstatus (h.ending wk hwk hend)⟩

/-- The event handler. -/
theorem Event.Moves.steady {e' : Event} {started : Option Worker}
    (hmove : Event.Moves p.worker.isSome r p.event r' e' started) (h : p.Steady r.op.status)
    (hstatus : r.op.status = .inProgress ∨ r.op.status = .completed) :
    (r'.op.status = .inProgress ∨ r'.op.status = .completed) ∧
      Process.Steady r'.op.status { p with event := e', worker := p.worker.or started } := by
  obtain ⟨event, recovery, worker⟩ := p
  cases hmove with
  | spawn hmode hfree =>
    obtain rfl : worker = none := by simpa using hfree
    refine ⟨hstatus, fun _ => Or.inr (Or.inr (by simp)), fun hearly => ?_, ?_, h.failing, ?_⟩
    · cases (h.alone hearly).1
    · rintro _ ⟨⟩
    · rintro wk ⟨⟩ ⟨⟩
  | refuse hmode htaken =>
    obtain rfl : worker = none := h.pending _ rfl
    cases htaken
  | take =>
    exact ⟨hstatus, h.handle (by simp) (fun _ => Or.inl trivial) (by simp) id⟩
  | record =>
    exact ⟨Or.inr rfl, h.handle (by simp) nofun (by simp) fun _ => rfl⟩
  | apply =>
    exact ⟨hstatus, h.handle (by simp) (fun hs => Or.inr ((h.owner hs).resolve_left id))
      (by simp) id⟩

/-- The recovery. -/
theorem Recovery.Moves.steady {rc' : Recovery} {elapsed : ℤ} {started : Option Worker}
    (hmove : Recovery.Moves elapsed p.worker.isSome r p.recovery r' rc' started)
    (htime : elapsed ≤ recoveryLimit) (h : p.Steady r.op.status)
    (hstatus : r.op.status = .inProgress ∨ r.op.status = .completed) :
    (r'.op.status = .inProgress ∨ r'.op.status = .completed) ∧
      Process.Steady r'.op.status { p with recovery := rc', worker := p.worker.or started } := by
  obtain ⟨event, recovery, worker⟩ := p
  cases hmove with
  | skip hne | leave hne =>
    exact ⟨hstatus, h.recover (fun hs => absurd hs hne) nofun (by simp) id⟩
  | find =>
    exact ⟨hstatus,
      h.recover (fun _ => Or.inr (Or.inl trivial)) (fun _ => trivial) (by simp) id⟩
  | stale hold => exact absurd htime (not_le.mpr hold)
  | arrived | take =>
    exact ⟨hstatus,
      h.recover (fun _ => Or.inr (Or.inl trivial)) nofun (by simp) id⟩
  | spawn hmode hfree =>
    obtain ⟨rfl, rfl⟩ : event = .handled ∧ worker = none := h.alone trivial
    refine ⟨hstatus, fun _ => Or.inr (Or.inr (by simp)), nofun, ?_, by simp, ?_⟩
    · rintro _ ⟨⟩
    · rintro wk ⟨⟩ ⟨⟩
  | refuse htaken =>
    obtain ⟨-, rfl⟩ : event = .handled ∧ worker = none := h.alone trivial
    cases htaken
  | fail => exact absurd rfl (h.failing _ _)
  | complete | record | recomplete =>
    exact ⟨Or.inr rfl, h.recover nofun nofun (by simp)
      fun _ => rfl⟩
  | _ =>
    refine ⟨hstatus, h.recover (fun hs => ?_) nofun (by simp) id⟩
    rcases h.owner hs with hevent | hrecovery | hworker
    · exact Or.inl hevent
    · exact hrecovery.elim
    · exact Or.inr (Or.inr hworker)

/-- What a step of the goroutine leaves to the others. -/
theorem Worker.Moves.steady {wk : Worker} {o : Outcome} (hmove : wk.Moves r r' o)
    (hcopies : wk.Copies q) (hwk : p.worker = some wk) (h : p.Steady r.op.status)
    (hstatus : r.op.status = .inProgress ∨ r.op.status = .completed) :
    (r'.op.status = .inProgress ∨ r'.op.status = .completed) ∧
      (∀ next, o = .goes next → Process.Steady r'.op.status { p with worker := some next }) ∧
      (o = .ends → Process.Steady r'.op.status { p with worker := none }) := by
  have hnone : p.worker ≠ none := by simp [hwk]
  have hgoes : ∀ {status : ScalingOperationStatus} (next : Worker),
      (next.stage = .ending → status = .completed) →
      Process.Steady status { p with worker := some next } := by
    intro status next hend
    refine ⟨fun _ => Or.inr (Or.inr (by simp)), fun he => absurd (h.alone he).2 hnone,
      fun op hop => absurd (h.pending op hop) hnone, h.failing, ?_⟩
    rintro wk ⟨⟩
    exact hend
  have hto : ∀ {status : ScalingOperationStatus} {stage : Stage},
      (stage = .ending → status = .completed) → ∀ next, Outcome.goes (wk.at stage) = .goes next →
      Process.Steady status { p with worker := some next } := by
    rintro status stage hend next ⟨⟩
    exact hgoes _ hend
  cases hmove with
  | skip | read | fetch | same | reached | arrive | approach | tick =>
    exact ⟨hstatus, hto nofun, nofun⟩
  | sync hstage =>
    have hcurrent := hcopies.stage _ (by rw [hstage]; exact List.mem_cons_self)
    exact ⟨Or.inl hcurrent.status, hto nofun, nofun⟩
  | complete => exact ⟨Or.inr rfl, hto nofun, nofun⟩
  | finish hstage hne =>
    exact ⟨hstatus, hto fun _ => hstatus.resolve_left hne, nofun⟩
  | panic => exact ⟨hstatus, fun _ ho => (nomatch ho), fun ho => nomatch ho⟩
  | wait =>
    refine ⟨hstatus, ?_, nofun⟩
    rintro next ⟨⟩
    exact hgoes _ nofun
  | leave hstage =>
    have hcompleted := h.ending wk hwk hstage
    refine ⟨hstatus, fun _ ho => (nomatch ho), fun _ => ⟨fun hs => ?_, ?_, ?_, h.failing, ?_⟩⟩
    · rw [hcompleted] at hs
      cases hs
    · exact fun he => ⟨(h.alone he).1, rfl⟩
    · exact fun _ _ => rfl
    · rintro wk ⟨⟩

/-- A goroutine of a paced operation never panics. -/
theorem Worker.Moves.not_panics {wk : Worker} (hcopies : wk.Copies q) (hpaced : q.Paced) :
    ¬ wk.Moves r r' .panics := by
  intro hmove
  cases hmove with
  | panic hstage hle =>
    have hpositive := (hpaced hcopies.mode).2
    have hinterval : wk.op.interval = q.interval := congrArg Request.interval hcopies.op.request
    omega

end Steady

/-- One move of the world. -/
theorem World.Steady.move {q : Request} {w v : World} {m : Move} (h : w.Steady q)
    (hpaced : q.Paced) (hm : m.InTime) (hmove : w.Moves m v) : v.Steady q := by
  have hcopies := h.copies.move hmove
  cases hmove with
  | write service => exact ⟨hcopies, h.status, h.process⟩
  | restart =>
    refine ⟨hcopies, h.status, ?_⟩
    rintro p ⟨⟩
    exact ⟨fun _ => Or.inr (Or.inl trivial), fun _ => ⟨rfl, rfl⟩, fun _ _ => rfl, by simp,
      fun _ hwk => nomatch hwk⟩
  | crash => exact ⟨hcopies, h.status, fun p hp => nomatch hp⟩
  | handle hup hmove =>
    obtain ⟨hstatus, hp⟩ := hmove.steady (h.process _ hup) h.status
    refine ⟨hcopies, hstatus, ?_⟩
    rintro p ⟨⟩
    exact hp
  | recover hup hmove =>
    obtain ⟨hstatus, hp⟩ := hmove.steady hm (h.process _ hup) h.status
    refine ⟨hcopies, hstatus, ?_⟩
    rintro p ⟨⟩
    exact hp
  | goes hup hwk hmove =>
    obtain ⟨hstatus, hp, -⟩ :=
      hmove.steady ((h.copies.process _ hup).worker _ hwk) hwk (h.process _ hup) h.status
    refine ⟨hcopies, hstatus, ?_⟩
    rintro p ⟨⟩
    exact hp _ rfl
  | ends hup hwk hmove =>
    obtain ⟨hstatus, -, hp⟩ :=
      hmove.steady ((h.copies.process _ hup).worker _ hwk) hwk (h.process _ hup) h.status
    refine ⟨hcopies, hstatus, ?_⟩
    rintro p ⟨⟩
    exact hp rfl
  | panics hup hwk hmove =>
    exact absurd hmove (Worker.Moves.not_panics ((h.copies.process _ hup).worker _ hwk) hpaced)

/-! ## The rank

A cycle of the goroutine takes eight steps and brings the service closer to the target, so
eight times the distance bounds what is left of it. A thread that may still start the
goroutine carries that much for it.
-/

/-- The steps left to the handler. -/
def Event.rank (d : ℕ) : Event → ℕ
  | .pending _ => 8 * d + 9
  | .completing _ => 2
  | .applying _ => 1
  | .handled => 0

/-- The steps left to the recovery. -/
def Recovery.rank (d : ℕ) : Recovery → ℕ
  | .list => 8 * d + 14
  | .found _ => 8 * d + 13
  | .recording _ => 5
  | .failing _ _ | .completing _ | .applying _ => 4
  | .relist => 3
  | .refound _ => 2
  | .recompleting _ => 1
  | .done => 0

/-- After the service has been read, what was read decides the next scale. -/
def Stage.rank (target : ℤ) (d : ℕ) (status : ScalingOperationStatus) : Stage → ℕ
  | .check => if status = .inProgress then 8 * d + 10 else 2
  | .waiting => 8 * d + 9
  | .start => 8 * d + 8
  | .gotOp _ => 8 * d + 7
  | .gotService _ seen => 8 * distance target seen.spec.scale + 6
  | .synced _ seen => 8 * distance target seen.spec.scale + 5
  | .completing _ => 3
  | .ending => 1

/-- The steps left to the worker. -/
def workerRank (target : ℤ) (d : ℕ) (status : ScalingOperationStatus) : Option Worker → ℕ
  | none => 0
  | some wk => wk.stage.rank target d status

/-- The steps left to the process. -/
def Process.rank (target : ℤ) (r : Rows) (p : Process) : ℕ :=
  p.event.rank (distance target r.service.spec.scale) +
    p.recovery.rank (distance target r.service.spec.scale) +
    workerRank target (distance target r.service.spec.scale) r.op.status p.worker

/-- The steps left. -/
def World.rank (target : ℤ) (w : World) : ℕ :=
  match w.process with
  | none => 8 * distance target w.rows.service.spec.scale + 15
  | some p => p.rank target w.rows

section Rank

variable {q : Request} {r r' : Rows} {p : Process} {target : ℤ} {d d' : ℕ}

theorem Event.rank_mono (h : d' ≤ d) (e : Event) : e.rank d' ≤ e.rank d := by
  cases e <;> simp only [Event.rank] <;> omega

theorem Event.rank_eq {e : Event} (h : ∀ op, e ≠ .pending op) : e.rank d' = e.rank d := by
  cases e with
  | pending op => exact absurd rfl (h op)
  | _ => rfl

theorem Recovery.rank_mono (h : d' ≤ d) (rc : Recovery) : rc.rank d' ≤ rc.rank d := by
  cases rc <;> simp only [Recovery.rank] <;> omega

theorem Recovery.rank_eq {rc : Recovery} (h : ¬ rc.Early) : rc.rank d' = rc.rank d := by
  cases rc with
  | list | found => exact absurd trivial h
  | _ => rfl

/-- A goroutine has no more to do once the service is closer or the row is recorded. -/
theorem workerRank_mono {status status' : ScalingOperationStatus} (h : d' ≤ d)
    (hstatus : status' = status ∨ status' ≠ .inProgress) (worker : Option Worker) :
    workerRank target d' status' worker ≤ workerRank target d status worker := by
  cases worker with
  | none => exact le_rfl
  | some wk =>
    simp only [workerRank]
    cases wk.stage with
    | check =>
      simp only [Stage.rank]
      rcases hstatus with rfl | hne
      · split <;> omega
      · rw [if_neg hne]
        split <;> omega
    | _ =>
      simp only [Stage.rank]
      omega

/-- An operation that is applied at once leaves no distance. -/
theorem distance_applied {op : Operation} (h : op.CopyOf q) (s : Service) :
    distance q.targetScale (executeImmediateScaling op.targetScale s).spec.scale = 0 := by
  rw [executeImmediateScaling_scale, h.targetScale, distance_self]

/-- The rank after the row was recorded or the service put to the target, by the thread
whose own share has fallen. -/
theorem Process.rank_lt {e : Event} {rc : Recovery}
    (hd : distance target r'.service.spec.scale ≤ distance target r.service.spec.scale)
    (hstatus : r'.op.status = r.op.status ∨ r'.op.status ≠ .inProgress)
    (hlt : e.rank (distance target r'.service.spec.scale) +
        rc.rank (distance target r'.service.spec.scale) <
      p.event.rank (distance target r.service.spec.scale) +
        p.recovery.rank (distance target r.service.spec.scale)) :
    Process.rank target r' { p with event := e, recovery := rc, worker := p.worker.or none } <
      p.rank target r := by
  have hworker : workerRank target _ _ p.worker ≤ workerRank target _ _ p.worker :=
    workerRank_mono hd hstatus p.worker
  simp only [Process.rank, Option.or_none]
  omega

/-- The event handler lowers the rank. -/
theorem Event.Moves.rank_lt {e' : Event} {started : Option Worker}
    (hmove : Event.Moves p.worker.isSome r p.event r' e' started)
    (hcopies : ∀ op ∈ p.event.copies, op.CopyOf q) :
    Process.rank q.targetScale r' { p with event := e', worker := p.worker.or started } <
      p.rank q.targetScale r := by
  obtain ⟨event, recovery, worker⟩ := p
  cases hmove with
  | spawn hmode hfree =>
    obtain rfl : worker = none := by simpa using hfree
    simp only [Process.rank, Event.rank, workerRank, Stage.rank, Option.none_or]
    omega
  | refuse | take =>
    refine Process.rank_lt le_rfl (Or.inl rfl) ?_
    simp only [Event.rank]
    omega
  | record =>
    refine Process.rank_lt le_rfl (Or.inr (by simp)) ?_
    simp only [Event.rank]
    omega
  | apply =>
    have hzero := distance_applied (hcopies _ List.mem_cons_self) r.service
    have hrecovery := recovery.rank_mono
      (Nat.zero_le (distance q.targetScale r.service.spec.scale))
    refine Process.rank_lt (by simp only [hzero, Nat.zero_le]) (Or.inl rfl) ?_
    simp only [Event.rank, hzero]
    omega

/-- So does the recovery. -/
theorem Recovery.Moves.rank_lt {rc' : Recovery} {elapsed : ℤ} {started : Option Worker}
    (hmove : Recovery.Moves elapsed p.worker.isSome r p.recovery r' rc' started)
    (hcopies : ∀ op ∈ p.recovery.copies, op.CopyOf q) :
    Process.rank q.targetScale r' { p with recovery := rc', worker := p.worker.or started } <
      p.rank q.targetScale r := by
  obtain ⟨event, recovery, worker⟩ := p
  cases hmove with
  | spawn hmode hfree =>
    obtain rfl : worker = none := by simpa using hfree
    simp only [Process.rank, Recovery.rank, workerRank, Stage.rank, Option.none_or]
    omega
  | skip | find | stale | arrived | refuse | take | leave | refind | away | rearrived =>
    refine Process.rank_lt le_rfl (Or.inl rfl) ?_
    simp only [Recovery.rank]
    omega
  | fail | complete | record | recomplete =>
    refine Process.rank_lt le_rfl (Or.inr (by simp [Operation.failOperation])) ?_
    simp only [Recovery.rank]
    omega
  | apply =>
    have hzero := distance_applied (hcopies _ List.mem_cons_self) r.service
    have hevent := event.rank_mono (Nat.zero_le (distance q.targetScale r.service.spec.scale))
    refine Process.rank_lt (by simp only [hzero, Nat.zero_le]) (Or.inl rfl) ?_
    simp only [Recovery.rank, hzero]
    omega

/-- A step of the goroutine, with what it stores and where it goes next. -/
theorem Worker.Moves.rank_lt {wk next : Worker} (hmove : wk.Moves r r' (.goes next))
    (hcopies : wk.Copies q) (hpaced : q.Paced) :
    next.stage.rank q.targetScale (distance q.targetScale r'.service.spec.scale) r'.op.status <
      wk.stage.rank q.targetScale (distance q.targetScale r.service.spec.scale) r.op.status := by
  cases hmove with
  | skip hstage hstatus | finish hstage hstatus =>
    simp only [hstage, Worker.at_stage, Stage.rank, if_neg hstatus]
    omega
  | read hstage | fetch hstage | sync hstage | same hstage | reached hstage | arrive hstage
  | tick hstage =>
    simp only [hstage, Worker.at_stage, Stage.rank]
    omega
  | approach hstage hseen hnext =>
    have hstep : 1 ≤ wk.op.stepSize := by
      have hsize : wk.op.stepSize = q.stepSize := congrArg Request.stepSize hcopies.op.request
      rw [hsize]
      exact (hpaced hcopies.mode).1
    have hscale := processScalingStep_scale r.service hseen (nextScale_ne hstep hseen)
    have hlt := distance_nextScale_lt hstep hseen
    rw [hcopies.op.targetScale] at hlt
    simp only [hstage, Worker.at_stage, Stage.rank, hscale]
    split <;> omega
  | complete hstage =>
    simp only [hstage, Worker.at_stage, Stage.rank, Operation.completeOperation_status,
      reduceCtorEq, if_false]
    omega
  | wait hstage hstatus =>
    simp only [hstage, Stage.rank, if_pos hstatus]
    omega

end Rank

/-- With a goroutine at work the share of the other threads does not depend on the
distance. -/
theorem Process.Steady.rank_eq {p : Process} {status : ScalingOperationStatus}
    (h : p.Steady status) {wk : Worker} (hwk : p.worker = some wk) (d d' : ℕ) :
    p.event.rank d' = p.event.rank d ∧ p.recovery.rank d' = p.recovery.rank d := by
  have hnone : p.worker ≠ none := by simp [hwk]
  exact ⟨Event.rank_eq fun op hop => hnone (h.pending op hop),
    Recovery.rank_eq fun he => hnone (h.alone he).2⟩

/-- So does every undisturbed move. -/
theorem World.Steady.rank_lt {q : Request} {w v : World} {m : Move} (h : w.Steady q)
    (hpaced : q.Paced) (hm : m.Undisturbed) (hmove : w.Moves m v) :
    v.rank q.targetScale < w.rank q.targetScale := by
  cases hmove with
  | write | crash => exact hm.elim
  | restart hdown =>
    simp only [World.rank, hdown, Process.rank, Event.rank, Recovery.rank, workerRank]
    omega
  | handle hup hmove =>
    have hlt := hmove.rank_lt (h.copies.process _ hup).event
    simpa only [World.rank, World.put, hup] using hlt
  | recover hup hmove =>
    have hlt := hmove.rank_lt (h.copies.process _ hup).recovery
    simpa only [World.rank, World.put, hup] using hlt
  | @goes p hup wk next hwk r hmove =>
    have hlt := hmove.rank_lt ((h.copies.process _ hup).worker _ hwk) hpaced
    obtain ⟨hevent, hrecovery⟩ := (h.process _ hup).rank_eq hwk
      (distance q.targetScale w.rows.service.spec.scale)
      (distance q.targetScale r.service.spec.scale)
    simp only [World.rank, World.put, hup, Process.rank, hwk, workerRank, hevent, hrecovery]
    omega
  | ends hup hwk hmove =>
    cases hmove with
    | leave hstage =>
      simp only [World.rank, World.put, hup, Process.rank, hwk, workerRank, hstage, Stage.rank]
      omega
  | panics hup hwk hmove =>
    exact absurd hmove (Worker.Moves.not_panics ((h.copies.process _ hup).worker _ hwk) hpaced)

namespace World

/-- An operation that is recorded as completed has been at its target. -/
def Applied (w : World) : Prop :=
  w.rows.op.status = .completed → w.reached = true

/-- Nothing is left to do unless the process crashes or somebody else stores the service. -/
def Stuck (w : World) : Prop :=
  ∀ m : Move, m.Undisturbed → w.step m = none

/-- A process that is left alone comes to a halt, with the operation completed. -/
def Finishes (w : World) : Prop :=
  ∃ bound, ∀ run v, exec World.step w run = some v → (∀ m ∈ run, m.Undisturbed) →
    run.length ≤ bound ∧ (v.Stuck → v.rows.op.status = .completed)

variable {q : Request} {w v : World}

/-- A stuck world is done. -/
theorem Steady.completed_of_stuck (h : w.Steady q) (hstuck : w.Stuck) :
    w.rows.op.status = .completed := by
  refine h.status.resolve_left fun hstatus => ?_
  cases hp : w.process with
  | none =>
    have hnone := hstuck .restart trivial
    simp [step, hp] at hnone
  | some p =>
    rcases (h.process p hp).owner hstatus with hevent | hrecovery | hworker
    · have hnone := hstuck .handle trivial
      simp only [step, hp, Option.map_eq_none_iff] at hnone
      cases he : p.event with
      | pending op =>
        simp only [he, Event.step] at hnone
        split at hnone <;> cases hnone
      | completing op => simp [he, Event.step] at hnone
      | _ =>
        rw [he] at hevent
        exact hevent
    · have hnone := hstuck (.recover 0) (show (0 : ℤ) ≤ recoveryLimit by decide)
      simp only [step, hp, Option.map_eq_none_iff] at hnone
      cases hr : p.recovery with
      | list | found | completing | recording => simp [hr, Recovery.step] at hnone
      | _ =>
        rw [hr] at hrecovery
        exact hrecovery
    · have hnone := hstuck .work trivial
      simp only [step, hp, Option.map_eq_none_iff] at hnone
      exact hworker hnone

/-- A steady world finishes. -/
theorem Steady.finishes (h : w.Steady q) (hpaced : q.Paced) : w.Finishes := by
  have hstep : ∀ s m t, World.Steady q s → m.Undisturbed → World.step s m = some t →
      World.Steady q t ∧ t.rank q.targetScale < s.rank q.targetScale := by
    intro s m t hs hm hst
    have hmoves := moves_of_step hst
    refine ⟨hs.move hpaced ?_ hmoves, hs.rank_lt hpaced hm hmoves⟩
    cases m with
    | recover elapsed => exact hm
    | _ => trivial
  refine ⟨w.rank q.targetScale, fun run v hrun hmoves => ?_⟩
  have halong : Along World.step (fun _ m => m.Undisturbed) w run :=
    Along.of_forall (fun m hm _ => hmoves m hm) w
  refine ⟨exec_length_le_rank (World.rank q.targetScale) hstep h halong hrun, fun hstuck => ?_⟩
  exact (exec_invariant_along (fun s m t hs hm hst => (hstep s m t hs hm hst).1) h halong
    hrun).completed_of_stuck hstuck

variable {service : Service} {op : Operation} {recovery : Recovery}

/-- Where a run starts. -/
theorem start_copies (hop : op.status = .inProgress) (hblank : recovery.Blank) :
    (start service op recovery).Copies op.request := by
  refine ⟨rfl, ?_⟩
  rintro p ⟨⟩
  refine ⟨fun copy hcopy => ?_, fun copy hcopy => ?_, fun _ hwk => nomatch hwk⟩
  · obtain rfl := List.mem_singleton.mp hcopy
    exact ⟨rfl, hop⟩
  · rcases hblank.cases with rfl | rfl | rfl <;> cases hcopy

/-- Where a run starts. -/
theorem start_backed (hop : op.status = .inProgress) (hblank : recovery.Blank)
    (hmode : op.mode = .gradual) : (start service op recovery).Backed op.request := by
  refine ⟨start_copies hop hblank, hmode, decide_eq_true, fun hc => ?_, ?_⟩
  · have hc : op.status = .completed := hc
    rw [hop] at hc
    cases hc
  · rintro p ⟨⟩
    refine ⟨trivial, ?_, fun _ hwk => nomatch hwk⟩
    rcases hblank.cases with rfl | rfl | rfl <;> trivial

/-- Where a run starts. -/
theorem start_steady (hop : op.status = .inProgress) (hblank : recovery.Blank)
    (hlisted : recovery ≠ .list) : (start service op recovery).Steady op.request := by
  refine ⟨start_copies hop hblank, Or.inl hop, ?_⟩
  rintro p ⟨⟩
  refine ⟨fun _ => Or.inl trivial, fun hearly => ?_, fun _ _ => rfl, ?_, fun _ hwk => nomatch hwk⟩
  · rcases hblank.cases with rfl | rfl | rfl
    · exact absurd rfl hlisted
    · exact hearly.elim
    · exact hearly.elim
  · rintro copy reason rfl
    exact hblank

/-- Once the service has been at the target, it has been. -/
theorem reached_step (h : w.reached = true) {m : Move} (hstep : w.step m = some v) :
    v.reached = true := by
  cases moves_of_step hstep with
  | restart | crash => exact h
  | _ => exact (put_reached _ _ _).mpr (Or.inl h)

end World

/-- The watch loop records an immediate operation before it writes the scale. -/
theorem exec_recorded {service : Service} {op : Operation} {recovery : Recovery}
    (himmediate : op.mode = .immediate) (hscale : service.spec.scale ≠ op.targetScale) :
    ∃ w, exec World.step (World.start service op recovery) [.handle, .handle] = some w ∧
      ¬ w.Applied := by
  have htake : (World.start service op recovery).step .handle =
      some (World.put (World.start service op recovery) ⟨service, op⟩
        (some { event := .completing op, recovery := recovery })) := by
    simp [World.step, World.start, Event.step, himmediate]
  refine ⟨_, exec_cons.mpr ⟨_, htake, exec_cons.mpr ⟨_, rfl, rfl⟩⟩, fun happlied => ?_⟩
  have hreached := happlied rfl
  simp [World.put, World.start, Rows.AtTarget, hscale] at hreached

/-- The record of a completed operation is true in every run exactly if the operation is gradual
or had nothing to change. A paced operation that was created after recovery had listed the
operations is completed in the end, from every state that crashes and restarts within the limit
lead to. -/
theorem completed_applied_iff {service : Service} {op : Operation} {recovery : Recovery}
    (hop : op.status = .inProgress) (hblank : recovery.Blank) :
    ((∀ run w, exec World.step (World.start service op recovery) run = some w → w.Applied) ↔
      op.mode = .gradual ∨ service.spec.scale = op.targetScale) ∧
    (recovery ≠ .list → op.request.Paced → ∀ run w,
      exec World.step (World.start service op recovery) run = some w →
        (∀ m ∈ run, m.InTime) → w.Finishes) := by
  refine ⟨⟨fun h => ?_, ?_⟩, fun hlisted hpaced run w hrun htime => ?_⟩
  · by_contra hnot
    obtain ⟨hmode, hscale⟩ := not_or.mp hnot
    have himmediate : op.mode = .immediate := by
      cases hm : op.mode with
      | immediate => rfl
      | gradual => exact absurd hm hmode
    obtain ⟨w, hrun, hnotApplied⟩ := exec_recorded himmediate hscale
    exact hnotApplied (h _ w hrun)
  · rintro (hmode | hscale) run w hrun hcompleted
    · have hbacked := exec_invariant
        (fun s m t (hs : World.Backed op.request s) hst => hs.move (World.moves_of_step hst))
        (World.start_backed hop hblank hmode) hrun
      exact hbacked.completed hcompleted
    · have hstart : (World.start service op recovery).reached = true := decide_eq_true hscale
      exact exec_invariant (fun s m t hs hst => World.reached_step hs hst) hstart hrun
  · have halong : Along World.step (fun _ m => m.InTime) _ run :=
      Along.of_forall (fun m hm _ => htime m hm) (World.start service op recovery)
    have hsteady := exec_invariant_along
      (fun s m t (hs : World.Steady op.request s) hm hst =>
        hs.move hpaced hm (World.moves_of_step hst))
      (World.start_steady hop hblank hlisted) halong hrun
    exact hsteady.finishes hpaced

/-- A target of three. -/
theorem completed_applied_iff_upToThree :
    (∀ run w, exec World.step (World.start oneReplica upToThree.createScalingOperation .done) run =
      some w → w.Applied) ∧
    (∀ run w, exec World.step (World.start oneReplica upToThree.createScalingOperation .done) run =
      some w → (∀ m ∈ run, m.InTime) → w.Finishes) := by
  obtain ⟨hiff, hfinishes⟩ :=
    @completed_applied_iff oneReplica upToThree.createScalingOperation .done rfl trivial
  exact ⟨hiff.mpr (Or.inl rfl), hfinishes (by decide) fun _ => by decide⟩

/-- A crash between the two writes of an immediate operation, and a new start. -/
def crashBetween : List Move :=
  [.handle, .handle, .crash, .restart, .recover 0, .recover 0]

/-- The row stays completed and the scale is never written: recovery only looks at
operations in progress, and nothing is left to do. -/
theorem completed_never_applied :
    ∃ w, exec World.step (World.start oneReplica fiveAtOnce.createScalingOperation .done)
        crashBetween = some w ∧
      (∀ m ∈ crashBetween, m.InTime) ∧ ¬ w.Applied ∧ w.Stuck ∧ w.rows.service = oneReplica := by
  refine ⟨_, rfl, by decide, fun happlied => ?_, fun m hm => ?_, rfl⟩
  · exact absurd (happlied rfl) (by decide)
  · cases m with
    | restart | handle | recover | work => rfl
    | crash | write => exact hm.elim

end Rune.Scaling
