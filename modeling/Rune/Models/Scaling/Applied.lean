import Rune.Models.Scaling.Recovery

/-!
# Completed operations have been applied

Whatever a thread writes back is a copy of the row that it read while the operation was in
progress. A gradual operation is recorded as completed only by a thread that has seen the service
at the target or has put it there, so its record is true across crashes and restarts. An immediate
one is recorded first and applied afterwards: a crash in between leaves a completed row that no
recovery looks at again.
-/

namespace Rune.Scaling

open Rune.Core Rune.Services

/-- What was asked for; no writer of the row changes it. -/
structure Request where
  targetScale : ℤ
  stepSize : ℤ
  interval : ℤ
  mode : ScalingMode

/-- What an operation asks for. -/
def Operation.request (op : Operation) : Request :=
  ⟨op.targetScale, op.stepSize, op.interval, op.mode⟩

/-- A copy of the row that was read while the operation was in progress. -/
structure Operation.CopyOf (q : Request) (op : Operation) : Prop where
  request : op.request = q
  status : op.status = .inProgress

namespace Operation.CopyOf

variable {q : Request} {op : Operation}

theorem targetScale (h : op.CopyOf q) : op.targetScale = q.targetScale :=
  congrArg Request.targetScale h.request

theorem mode (h : op.CopyOf q) : op.mode = q.mode :=
  congrArg Request.mode h.request

theorem withScale (h : op.CopyOf q) (scale : ℤ) : (op.withScale scale).CopyOf q :=
  ⟨h.request, h.status⟩

end Operation.CopyOf

/-- The copies that the handler holds. -/
def Event.copies : Event → List Operation
  | .pending op | .completing op | .applying op => [op]
  | .handled => []

/-- The copies that the recovery holds. -/
def Recovery.copies : Recovery → List Operation
  | .found op | .failing op _ | .completing op | .recording op | .applying op | .refound op
  | .recompleting op => [op]
  | .list | .relist | .done => []

/-- The copies that a stage holds. -/
def Stage.copies : Stage → List Operation
  | .gotOp op | .gotService op _ | .synced op _ | .completing op => [op]
  | .start | .check | .waiting | .ending => []

/-- A goroutine is handed a copy and reads others. -/
structure Worker.Copies (q : Request) (wk : Worker) : Prop where
  op : wk.op.CopyOf q
  mode : q.mode = .gradual
  stage : ∀ op ∈ wk.stage.copies, op.CopyOf q

/-- All copies of the process are of the request. -/
structure Process.Copies (q : Request) (p : Process) : Prop where
  event : ∀ op ∈ p.event.copies, op.CopyOf q
  recovery : ∀ op ∈ p.recovery.copies, op.CopyOf q
  worker : ∀ wk, p.worker = some wk → wk.Copies q

/-- The row asks for what was asked for, and so does every copy. -/
structure World.Copies (q : Request) (w : World) : Prop where
  row : w.rows.op.request = q
  process : ∀ p, w.process = some p → p.Copies q

section Copies

variable {q : Request} {r r' : Rows}

/-- A new goroutine starts from the copy it is handed. -/
theorem Worker.Copies.started {op : Operation} (h : op.CopyOf q) (hmode : op.mode = .gradual) :
    Worker.Copies q { op := op } :=
  ⟨h, h.mode ▸ hmode, fun _ hop => nomatch hop⟩

/-- The event handler. -/
theorem Event.Moves.copies {e e' : Event} {registered : Bool} {started : Option Worker}
    (hmove : Event.Moves registered r e r' e' started) (hrow : r.op.request = q)
    (h : ∀ op ∈ e.copies, op.CopyOf q) :
    r'.op.request = q ∧ (∀ op ∈ e'.copies, op.CopyOf q) ∧
      ∀ wk, started = some wk → wk.Copies q := by
  cases hmove with
  | spawn hmode =>
    refine ⟨hrow, nofun, fun wk hwk => ?_⟩
    cases hwk
    exact .started (h _ List.mem_cons_self) hmode
  | refuse | apply => exact ⟨hrow, fun _ hop => (nomatch hop), fun _ hwk => nomatch hwk⟩
  | take => exact ⟨hrow, h, fun _ hwk => nomatch hwk⟩
  | record => exact ⟨(h _ List.mem_cons_self).request, h, fun _ hwk => nomatch hwk⟩

/-- The recovery. -/
theorem Recovery.Moves.copies {rc rc' : Recovery} {elapsed : ℤ} {registered : Bool}
    {started : Option Worker} (hmove : Recovery.Moves elapsed registered r rc r' rc' started)
    (hrow : r.op.request = q) (h : ∀ op ∈ rc.copies, op.CopyOf q) :
    r'.op.request = q ∧ (∀ op ∈ rc'.copies, op.CopyOf q) ∧
      ∀ wk, started = some wk → wk.Copies q := by
  have hnone : ∀ wk : Worker, none = some wk → wk.Copies q := fun _ hwk => nomatch hwk
  have hempty : ∀ op : Operation, op ∈ [] → op.CopyOf q := nofun
  have hread : r.op.status = .inProgress → ∀ op ∈ [r.op], op.CopyOf q := by
    intro hstatus op hop
    obtain rfl := List.mem_singleton.mp hop
    exact ⟨hrow, hstatus⟩
  cases hmove with
  | skip | leave | away | apply => exact ⟨hrow, hempty, hnone⟩
  | find hstatus | refind hstatus => exact ⟨hrow, hread hstatus, hnone⟩
  | stale | arrived | refuse | take | rearrived => exact ⟨hrow, h, hnone⟩
  | spawn hmode =>
    refine ⟨hrow, hempty, fun wk hwk => ?_⟩
    cases hwk
    exact .started (h _ List.mem_cons_self) hmode
  | fail | complete | recomplete => exact ⟨(h _ List.mem_cons_self).request, hempty, hnone⟩
  | record => exact ⟨(h _ List.mem_cons_self).request, h, hnone⟩

/-- The worker. -/
theorem Worker.Moves.copies {wk : Worker} {o : Outcome} (hmove : wk.Moves r r' o)
    (hrow : r.op.request = q) (h : wk.Copies q) :
    r'.op.request = q ∧ ∀ next, o = .goes next → next.Copies q := by
  have hempty : ∀ op : Operation, op ∈ [] → op.CopyOf q := nofun
  have hgoes : ∀ {stage : Stage}, (∀ op ∈ stage.copies, op.CopyOf q) →
      ∀ next, Outcome.goes (wk.at stage) = .goes next → next.Copies q := by
    rintro stage hstage next ⟨⟩
    exact ⟨h.op, h.mode, hstage⟩
  have hsame : ∀ {a b : Stage}, wk.stage = a → b.copies = a.copies →
      ∀ op ∈ b.copies, op.CopyOf q := by
    intro a b ha hb
    rw [hb, ← ha]
    exact h.stage
  have hcurrent : ∀ {a : Stage} {op : Operation}, wk.stage = a → a.copies = [op] →
      op.CopyOf q := by
    intro a op ha hop
    exact h.stage op (by simp [ha, hop])
  cases hmove with
  | skip | finish | tick | approach => exact ⟨hrow, hgoes hempty⟩
  | read hstage hstatus =>
    refine ⟨hrow, hgoes fun op hop => ?_⟩
    obtain rfl := List.mem_singleton.mp hop
    exact ⟨hrow, hstatus⟩
  | fetch hstage | same hstage | reached hstage | arrive hstage =>
    exact ⟨hrow, hgoes (hsame hstage rfl)⟩
  | sync hstage =>
    have hcopy := hcurrent hstage rfl
    refine ⟨hcopy.request, hgoes fun op hop => ?_⟩
    obtain rfl := List.mem_singleton.mp hop
    exact hcopy.withScale _
  | complete hstage => exact ⟨(hcurrent hstage rfl).request, hgoes hempty⟩
  | panic | leave => exact ⟨hrow, fun _ hnext => nomatch hnext⟩
  | wait =>
    refine ⟨hrow, ?_⟩
    rintro next ⟨⟩
    exact ⟨h.op, h.mode, hempty⟩

/-- The goroutine after a thread may have started one. -/
theorem or_cases {a b : Option Worker} {wk : Worker} (h : a.or b = some wk) :
    a = some wk ∨ b = some wk :=
  (Option.or_eq_some_iff.mp h).imp_right And.right

/-- One move of the world. -/
theorem World.Copies.move {w v : World} {m : Move} (h : w.Copies q) (hmove : w.Moves m v) :
    v.Copies q := by
  cases hmove with
  | write service => exact ⟨h.row, h.process⟩
  | restart =>
    refine ⟨h.row, ?_⟩
    rintro p ⟨⟩
    exact ⟨fun _ hop => (nomatch hop), fun _ hop => (nomatch hop), fun _ hwk => nomatch hwk⟩
  | crash => exact ⟨h.row, fun p hp => nomatch hp⟩
  | handle hup hmove =>
    have hp := h.process _ hup
    obtain ⟨hrow, hevent, hstarted⟩ := hmove.copies h.row hp.event
    refine ⟨hrow, ?_⟩
    rintro p ⟨⟩
    exact ⟨hevent, hp.recovery, fun wk hwk => (or_cases hwk).elim (hp.worker wk) (hstarted wk)⟩
  | recover hup hmove =>
    have hp := h.process _ hup
    obtain ⟨hrow, hrecovery, hstarted⟩ := hmove.copies h.row hp.recovery
    refine ⟨hrow, ?_⟩
    rintro p ⟨⟩
    exact ⟨hp.event, hrecovery, fun wk hwk => (or_cases hwk).elim (hp.worker wk) (hstarted wk)⟩
  | goes hup hwk hmove =>
    have hp := h.process _ hup
    obtain ⟨hrow, hnext⟩ := hmove.copies h.row (hp.worker _ hwk)
    refine ⟨hrow, ?_⟩
    rintro p ⟨⟩
    refine ⟨hp.event, hp.recovery, ?_⟩
    rintro wk ⟨⟩
    exact hnext _ rfl
  | ends hup hwk hmove =>
    have hp := h.process _ hup
    refine ⟨(hmove.copies h.row (hp.worker _ hwk)).1, ?_⟩
    rintro p ⟨⟩
    exact ⟨hp.event, hp.recovery, fun wk hwk => nomatch hwk⟩
  | panics hup hwk hmove =>
    have hp := h.process _ hup
    exact ⟨(hmove.copies h.row (hp.worker _ hwk)).1, fun p hp => nomatch hp⟩

end Copies

/-- A completion that is due has reached its target. -/
def Event.Backed (reached : Prop) : Event → Prop
  | .completing _ => reached
  | .pending _ | .applying _ | .handled => True

/-- A completion that is due has reached its target. -/
def Recovery.Backed (reached : Prop) : Recovery → Prop
  | .completing _ | .recording _ | .recompleting _ => reached
  | .list | .found _ | .failing _ _ | .applying _ | .relist | .refound _ | .done => True

/-- A goroutine completes the operation when it has seen the target or written it. -/
def Stage.Backed (target : ℤ) (reached : Prop) : Stage → Prop
  | .gotService _ seen | .synced _ seen => seen.spec.scale = target → reached
  | .completing _ => reached
  | .start | .gotOp _ | .check | .waiting | .ending => True

/-- So has every completion of the process. -/
structure Process.Backed (target : ℤ) (reached : Prop) (p : Process) : Prop where
  event : p.event.Backed reached
  recovery : p.recovery.Backed reached
  worker : ∀ wk, p.worker = some wk → wk.stage.Backed target reached

/-- The service has been at the target if it is there, if the row is recorded as
completed, or if a thread is about to record that. -/
structure World.Backed (q : Request) (w : World) : Prop where
  copies : w.Copies q
  mode : q.mode = .gradual
  atTarget : w.rows.AtTarget → w.reached
  completed : w.rows.op.status = .completed → w.reached
  process : ∀ p, w.process = some p → p.Backed q.targetScale w.reached

section Backed

variable {q : Request} {r r' : Rows} {reached : Prop}

theorem Event.Backed.mono {p : Prop} (hmono : reached → p) {e : Event} (h : e.Backed reached) :
    e.Backed p := by
  cases e with
  | completing => exact hmono h
  | _ => trivial

theorem Recovery.Backed.mono {p : Prop} (hmono : reached → p) {rc : Recovery}
    (h : rc.Backed reached) : rc.Backed p := by
  cases rc with
  | completing | recording | recompleting => exact hmono h
  | _ => trivial

theorem Stage.Backed.mono {p : Prop} (hmono : reached → p) {target : ℤ} {stage : Stage}
    (h : stage.Backed target reached) : stage.Backed target p := by
  cases stage with
  | gotService | synced => exact fun hseen => hmono (h hseen)
  | completing => exact hmono h
  | _ => trivial

theorem Process.Backed.mono {p : Prop} (hmono : reached → p) {target : ℤ} {pr : Process}
    (h : pr.Backed target reached) : pr.Backed target p :=
  ⟨h.event.mono hmono, h.recovery.mono hmono, fun wk hwk => (h.worker wk hwk).mono hmono⟩

/-- The event handler. -/
theorem Event.Moves.backed {e e' : Event} {registered : Bool} {started : Option Worker}
    (hmove : Event.Moves registered r e r' e' started) (hcopies : ∀ op ∈ e.copies, op.CopyOf q)
    (hmode : q.mode = .gradual) (h : e.Backed reached)
    (hcompleted : r.op.status = .completed → reached) :
    (r'.op.status = .completed → reached) ∧ e'.Backed reached ∧
      ∀ wk, started = some wk → wk.stage = .start := by
  cases hmove with
  | spawn =>
    refine ⟨hcompleted, trivial, ?_⟩
    rintro wk ⟨⟩
    rfl
  | refuse | apply => exact ⟨hcompleted, trivial, fun _ hwk => nomatch hwk⟩
  | take himm =>
    have hgradual := (hcopies _ List.mem_cons_self).mode.trans hmode
    rw [himm] at hgradual
    cases hgradual
  | record => exact ⟨fun _ => h, trivial, fun _ hwk => nomatch hwk⟩

/-- The recovery. -/
theorem Recovery.Moves.backed {rc rc' : Recovery} {elapsed : ℤ} {registered : Bool}
    {started : Option Worker} (hmove : Recovery.Moves elapsed registered r rc r' rc' started)
    (hrow : r.op.request = q) (hcopies : ∀ op ∈ rc.copies, op.CopyOf q)
    (hmode : q.mode = .gradual) (h : rc.Backed reached) (hat : r.AtTarget → reached)
    (hcompleted : r.op.status = .completed → reached) :
    (r'.op.status = .completed → reached) ∧ rc'.Backed reached ∧
      ∀ wk, started = some wk → wk.stage = .start := by
  have hnone : ∀ wk : Worker, none = some wk → wk.stage = .start := fun _ hwk => nomatch hwk
  have hseen : ∀ op ∈ rc.copies, r.service.spec.scale = op.targetScale → reached := by
    intro op hop hscale
    apply hat
    rw [Rows.AtTarget, hscale, (hcopies op hop).targetScale, ← hrow]
    rfl
  cases hmove with
  | skip | find | stale | refuse | leave | refind | away | apply =>
    exact ⟨hcompleted, trivial, hnone⟩
  | arrived hscale | rearrived hscale =>
    exact ⟨hcompleted, hseen _ List.mem_cons_self hscale, hnone⟩
  | spawn =>
    refine ⟨hcompleted, trivial, ?_⟩
    rintro wk ⟨⟩
    rfl
  | take himm =>
    have hgradual := (hcopies _ List.mem_cons_self).mode.trans hmode
    rw [himm] at hgradual
    cases hgradual
  | fail => exact ⟨fun hfailed => (nomatch hfailed), trivial, hnone⟩
  | _ => exact ⟨fun _ => h, trivial, hnone⟩

/-- The worker. -/
theorem Worker.Moves.backed {wk : Worker} {o : Outcome} (hmove : wk.Moves r r' o)
    (hrow : r.op.request = q) (hcopies : wk.Copies q) (h : wk.stage.Backed q.targetScale reached)
    (hat : r.AtTarget → reached) (hcompleted : r.op.status = .completed → reached) :
    (r'.op.status = .completed → reached ∨ r'.AtTarget) ∧
      ∀ next, o = .goes next → next.stage.Backed q.targetScale (reached ∨ r'.AtTarget) := by
  have hgoes : ∀ {stage : Stage} {p : Prop}, stage.Backed q.targetScale p →
      ∀ next, Outcome.goes (wk.at stage) = .goes next → next.stage.Backed q.targetScale p := by
    rintro stage p hstage next ⟨⟩
    exact hstage
  have hcompleted' : r.op.status = .completed → reached ∨ r.AtTarget :=
    fun hc => Or.inl (hcompleted hc)
  cases hmove with
  | skip | read | finish | tick => exact ⟨hcompleted', hgoes trivial⟩
  | fetch hstage =>
    refine ⟨hcompleted', hgoes fun hseen => Or.inl (hat ?_)⟩
    rw [Rows.AtTarget, hseen, ← hrow]
    rfl
  | sync hstage =>
    rw [hstage] at h
    have hcurrent := hcopies.stage _ (by rw [hstage]; exact List.mem_cons_self)
    refine ⟨fun hc => ?_, hgoes fun hseen => Or.inl (h hseen)⟩
    rw [Operation.withScale_status, hcurrent.status] at hc
    cases hc
  | same hstage =>
    rw [hstage] at h
    exact ⟨hcompleted', hgoes fun hseen => Or.inl (h hseen)⟩
  | reached hstage hseen =>
    rw [hstage] at h
    exact ⟨hcompleted', hgoes (Or.inl (h (hseen.trans hcopies.op.targetScale)))⟩
  | arrive hstage hseen hnext =>
    have hscale := (processScalingStep_scale r.service hseen (hnext.symm ▸ hseen)).trans hnext
    refine ⟨fun hc => Or.inl (hcompleted hc), hgoes (Or.inr ?_)⟩
    rw [Rows.AtTarget, hscale, hcopies.op.targetScale, ← hrow]
    rfl
  | approach hstage => exact ⟨fun hc => Or.inl (hcompleted hc), hgoes trivial⟩
  | complete hstage =>
    rw [hstage] at h
    exact ⟨fun _ => Or.inl h, hgoes trivial⟩
  | panic | leave => exact ⟨hcompleted', fun _ hnext => nomatch hnext⟩
  | wait =>
    refine ⟨hcompleted', ?_⟩
    rintro next ⟨⟩
    trivial

end Backed

namespace World

variable {q : Request} {w v : World}

@[simp] theorem put_reached (w : World) (r : Rows) (p : Option Process) :
    (w.put r p).reached = true ↔ w.reached = true ∨ r.AtTarget := by
  simp [put]

/-- Rows that are backed, stored by threads that are. -/
theorem Backed.put {r : Rows} {p : Option Process} (hcopies : (w.put r p).Copies q)
    (hmode : q.mode = .gradual)
    (hcompleted : r.op.status = .completed → w.reached = true ∨ r.AtTarget)
    (hprocess : ∀ pr, p = some pr → pr.Backed q.targetScale (w.reached = true ∨ r.AtTarget)) :
    (w.put r p).Backed q where
  copies := hcopies
  mode := hmode
  atTarget hat := (put_reached w r p).mpr (Or.inr hat)
  completed hc := (put_reached w r p).mpr (hcompleted hc)
  process pr hpr := (hprocess pr hpr).mono (put_reached w r p).mpr

/-- One move of the world. -/
theorem Backed.move {m : Move} (h : w.Backed q) (hmove : w.Moves m v) : v.Backed q := by
  have hcopies := h.copies.move hmove
  have hin : ∀ {x : Prop}, w.reached = true → w.reached = true ∨ x := Or.inl
  cases hmove with
  | write service =>
    exact .put hcopies h.mode (fun hc => hin (h.completed hc)) fun p hp =>
      (h.process p hp).mono hin
  | restart =>
    refine ⟨hcopies, h.mode, h.atTarget, h.completed, ?_⟩
    rintro p ⟨⟩
    exact ⟨trivial, trivial, fun _ hwk => nomatch hwk⟩
  | crash => exact ⟨hcopies, h.mode, h.atTarget, h.completed, fun p hp => nomatch hp⟩
  | handle hup hmove =>
    have hp := h.process _ hup
    obtain ⟨hcompleted, hevent, hstarted⟩ :=
      hmove.backed (h.copies.process _ hup).event h.mode hp.event h.completed
    refine .put hcopies h.mode (fun hc => hin (hcompleted hc)) ?_
    rintro p ⟨⟩
    refine ⟨hevent.mono hin, hp.recovery.mono hin, fun wk hwk => ?_⟩
    rcases or_cases hwk with hold | hnew
    · exact (hp.worker wk hold).mono hin
    · rw [hstarted wk hnew]
      trivial
  | recover hup hmove =>
    have hp := h.process _ hup
    obtain ⟨hcompleted, hrecovery, hstarted⟩ := hmove.backed h.copies.row
      (h.copies.process _ hup).recovery h.mode hp.recovery h.atTarget h.completed
    refine .put hcopies h.mode (fun hc => hin (hcompleted hc)) ?_
    rintro p ⟨⟩
    refine ⟨hp.event.mono hin, hrecovery.mono hin, fun wk hwk => ?_⟩
    rcases or_cases hwk with hold | hnew
    · exact (hp.worker wk hold).mono hin
    · rw [hstarted wk hnew]
      trivial
  | goes hup hwk hmove =>
    have hp := h.process _ hup
    obtain ⟨hcompleted, hnext⟩ := hmove.backed h.copies.row
      ((h.copies.process _ hup).worker _ hwk) (hp.worker _ hwk) h.atTarget h.completed
    refine .put hcopies h.mode hcompleted ?_
    rintro p ⟨⟩
    refine ⟨hp.event.mono hin, hp.recovery.mono hin, ?_⟩
    rintro wk ⟨⟩
    exact hnext _ rfl
  | ends hup hwk hmove =>
    have hp := h.process _ hup
    have hcompleted := (hmove.backed h.copies.row
      ((h.copies.process _ hup).worker _ hwk) (hp.worker _ hwk) h.atTarget h.completed).1
    refine .put hcopies h.mode hcompleted ?_
    rintro p ⟨⟩
    exact ⟨hp.event.mono hin, hp.recovery.mono hin, fun wk hwk => nomatch hwk⟩
  | panics hup hwk hmove =>
    have hp := h.process _ hup
    have hcompleted := (hmove.backed h.copies.row
      ((h.copies.process _ hup).worker _ hwk) (hp.worker _ hwk) h.atTarget h.completed).1
    exact .put hcopies h.mode hcompleted fun p hp => nomatch hp

end World

end Rune.Scaling
