import Rune.Models.Volumes.Controller

/-!
# Provisioning after a restart

The attempts, the timer and the events live in the memory of the process. A new process watches
the rows, which tells it of later writes only, and lists none. So a row that waits for its disk
when the process stops is not taken up again by the next one.
-/

namespace Rune.Volumes

open Rune.Core List

/-- The row waits for its disk. -/
def VolumeStatus.waits : VolumeStatus → Bool
  | .unset | .pending | .provisioning => true
  | _ => false

/-- The controller has come to an end with the row. -/
def Volume.Final (vol : Volume) : Prop :=
  vol.status = .available ∨ vol.status = .stalled ∨
    vol.status = .failed ∧ vol.statusReason ≠ "ProvisionFailedWillRetry"

namespace Controller

/-- A new process has nothing but the stored row. -/
def restart (s : Controller) : Controller := { table := { row := s.table.row } }

/-- The new process comes to an end with the row, with as many attempts as are allowed. -/
def Resumes (tune : Tuning) (s : Controller) : Prop :=
  ∃ acts u, exec (Controller.step tune) s.restart acts = some u ∧
    u.table.calls.length ≤ tune.maxAttempts ∧ u.table.row.Final

variable {tune : Tuning} {s u : Controller}

/-- A row that does not wait is not taken up. -/
theorem reconcile_of_not_waits {t : Table} {b : Backend} {vol : Volume}
    (h : vol.status.waits = false) : t.reconcile b vol = (t, none) := by
  unfold Table.reconcile
  split
  · simp_all [VolumeStatus.waits]
  · simp_all [VolumeStatus.waits]
  · simp_all [VolumeStatus.waits]
  · rfl

/-- There is nothing that a new process can do: no event, no timer and no handling. -/
theorem step_restart (a : Controller.Step) : s.restart.step tune a = none := by
  cases a <;> rfl

/-- Every run of a new process is the empty one. -/
theorem eq_restart_of_exec {acts : List Controller.Step}
    (h : exec (Controller.step tune) s.restart acts = some u) : u = s.restart := by
  cases acts with
  | nil => exact (Option.some.inj h).symm
  | cons a acts =>
    obtain ⟨t, hstep, -⟩ := exec_cons.mp h
    rw [step_restart] at hstep
    cases hstep

/-- Whatever the process was at when it stopped, the next one ends with the row only if there was
nothing left to do for it. A row that waits for its disk or for its next attempt is never final. -/
theorem resumes_iff_final (tune : Tuning) (s : Controller) :
    s.Resumes tune ↔ s.table.row.Final := by
  constructor
  · rintro ⟨acts, u, hrun, -, hfinal⟩
    rw [eq_restart_of_exec hrun] at hfinal
    exact hfinal
  · intro hfinal
    exact ⟨[], s.restart, rfl, Nat.zero_le _, hfinal⟩

end Controller

/-- Two attempts are allowed. -/
def twice : Tuning := ⟨2, fun _ => "1s"⟩

/-- Every driver call fails. -/
def brokenDriver : Backend where
  classes := .ok [{ name := "fast", driver := "do-volume" }]
  driverFor _ := .ok ()
  snapshots _ _ := .error ""
  parseMemory _ := .ok 0
  resolve params _ := .ok params
  call _ := .error "quota"

/-- A row that has just been created. -/
def pendingRow : Volume :=
  { ns := "default", name := "data", storageClassName := "fast", status := .pending }

/-- The process stops when it has marked the row, and the row stays as it is. -/
theorem provisioning_stuck :
    ∃ s, exec (Controller.step twice) { table := { row := pendingRow, events := [pendingRow] } }
        [.takeEvent brokenDriver] = some s ∧ s.table.row.status = .provisioning ∧
      ∀ acts u, exec (Controller.step twice) s.restart acts = some u →
        u.table.row.status = .provisioning := by
  refine ⟨_, rfl, rfl, fun acts u hrun => ?_⟩
  rw [Controller.eq_restart_of_exec hrun]
  rfl

end Rune.Volumes
