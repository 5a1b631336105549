import Mathlib.Algebra.Order.Ring.Nat
import Rune.Core.Cellwise

/-!
# Probe loops

`AddInstance` starts a monitor for an instance that has none. The monitor reads the health checks
of the service, starts the readiness loop and becomes the liveness loop. A loop ends with the
context of the controller only: a probe of an instance that is not monitored any more returns,
and the loop goes on.
-/

namespace Rune.Health.Monitors

open Rune.Core List

/-- The health checks of a service, with a readiness probe or without. The liveness loop runs
in both cases. -/
structure Checks where
  readiness : Bool

/-- The registration of an instance: the health checks of its service, and whether a monitor
runs. -/
structure Entry where
  health : Option Checks
  monitoring : Bool

/-- A goroutine of `monitorInstance`: before it has read the registration, in its loop, or on its
way out. -/
inductive Monitor where
  | starting
  | looping
  | exiting
deriving DecidableEq

/-- The registration under an ID, and the goroutines that were started for the ID and run. -/
structure Cell where
  entry : Option Entry := none
  monitors : List Monitor := []
  readinessLoops : ℕ := 0

/-- What can happen. -/
inductive Op where
  | addInstance (health : Option Checks)
  | removeInstance
  | read
  | leave
  | probe (removes : Bool)

/-- The liveness loops that run. -/
def Cell.livenessLoops (c : Cell) : ℕ := c.monitors.count .looping

/-- All loops that run. -/
def Cell.loops (c : Cell) : ℕ := c.livenessLoops + c.readinessLoops

/-- Start a goroutine for the entry. -/
def Cell.startMonitorLocked (c : Cell) (health : Option Checks) : Cell :=
  { c with entry := some ⟨health, true⟩, monitors := .starting :: c.monitors }

/-- Have the instance monitored. -/
def Cell.addInstance (c : Cell) (health : Option Checks) : Cell :=
  match c.entry, health with
  | some ⟨_, true⟩, _ => { c with entry := some ⟨health, true⟩ }
  | some ⟨_, false⟩, _ => c.startMonitorLocked health
  | none, none => { c with entry := some ⟨none, false⟩ }
  | none, some _ => c.startMonitorLocked health

/-- A monitor that starts reads the registration, and starts the loops or gives up. -/
def Cell.monitorInstance (c : Cell) : Cell :=
  match c.entry with
  | some ⟨some checks, _⟩ =>
    { c with
      monitors := .looping :: c.monitors.erase .starting
      readinessLoops := c.readinessLoops + checks.readiness.toNat }
  | _ => { c with monitors := .exiting :: c.monitors.erase .starting }

/-- One step. -/
def Cell.step (c : Cell) : Op → Cell
  | .addInstance health => c.addInstance health
  | .removeInstance => { c with entry := none }
  | .read => if .starting ∈ c.monitors then c.monitorInstance else c
  | .leave =>
    if .exiting ∈ c.monitors then
      { c with
        entry := c.entry.map fun e => { e with monitoring := false }
        monitors := c.monitors.erase .exiting }
    else c
  | .probe removes => if 0 < c.loops ∧ removes then { c with entry := none } else c

/-- The cells of all IDs after a sequence of operations. -/
def run {Id : Type} [DecidableEq Id] (ops : List (Id × Op)) : Id → Cell :=
  touchAll Prod.fst (fun a c => c.step a.2) (fun _ => {}) ops

/-- The operation leaves the instance in the map. -/
def Op.Keeps : Op → Prop
  | .removeInstance => False
  | .probe removes => removes = false
  | _ => True

instance : ∀ op : Op, Decidable op.Keeps
  | .removeInstance => isFalse id
  | .probe removes => inferInstanceAs (Decidable (removes = false))
  | .addInstance _ | .read | .leave => isTrue trivial

/-- What runs for an ID from which nothing was removed. -/
inductive Cell.Orderly : Cell → Prop
  | absent : Orderly {}
  | idle (health : Option Checks) : Orderly ⟨some ⟨health, false⟩, [], 0⟩
  | starting (health : Option Checks) : Orderly ⟨some ⟨health, true⟩, [.starting], 0⟩
  | exiting (health : Option Checks) : Orderly ⟨some ⟨health, true⟩, [.exiting], 0⟩
  | looping (health : Option Checks) {n : ℕ} (h : n ≤ 1) :
    Orderly ⟨some ⟨health, true⟩, [.looping], n⟩

theorem Cell.Orderly.step {c : Cell} (h : c.Orderly) {op : Op} (hop : op.Keeps) :
    (c.step op).Orderly := by
  cases op with
  | addInstance health =>
    cases h with
    | absent => cases health <;> constructor
    | looping _ h => exact .looping _ h
    | _ => constructor
  | removeInstance => exact hop.elim
  | read =>
    cases h with
    | starting health =>
      cases health with
      | none => exact .exiting _
      | some checks => exact .looping _ (by simpa using! Bool.toNat_le checks.readiness)
    | looping _ h => exact .looping _ h
    | _ => constructor
  | leave =>
    cases h with
    | looping _ h => exact .looping _ h
    | _ => constructor
  | probe removes =>
    cases hop
    simpa [Cell.step] using h

theorem Cell.Orderly.bounds {c : Cell} (h : c.Orderly) :
    c.livenessLoops ≤ 1 ∧ c.readinessLoops ≤ 1 ∧ c.loops ≤ 2 * c.entry.isSome.toNat := by
  cases h with
  | looping health h =>
    refine ⟨?_, h, ?_⟩ <;> simp only [Cell.loops, Cell.livenessLoops, count_singleton_self]
    · exact Nat.le_refl _
    · exact Nat.add_le_add_left h 1
  | _ => simp [Cell.loops, Cell.livenessLoops]

variable {Id : Type} [DecidableEq Id]

theorem orderly_run {ops : List (Id × Op)} (h : ∀ o ∈ ops, o.2.Keeps) (id : Id) :
    (run ops id).Orderly := by
  rw [run, touchAll_apply]
  refine foldlRecOn _ _ .absent fun c hc o ho => ?_
  exact hc.step (h o (mem_filter.mp ho).1)

/-- As long as no instance is dropped from the map, an instance has one liveness and one readiness
loop at most, and an ID that is not monitored has none. -/
theorem loops_bounded {ops : List (Id × Op)} (h : ∀ o ∈ ops, o.2.Keeps) :
    (∀ id, (run ops id).livenessLoops ≤ 1 ∧ (run ops id).readinessLoops ≤ 1 ∧
      ((run ops id).entry = none → (run ops id).loops = 0)) ∧
    ∀ ids : List Id, (ids.map fun id => (run ops id).loops).sum ≤
      2 * ids.countP fun id => (run ops id).entry.isSome := by
  have hbounds := fun id => (orderly_run h id).bounds
  constructor
  · intro id
    obtain ⟨hlive, hready, hloops⟩ := hbounds id
    refine ⟨hlive, hready, fun hnone => ?_⟩
    simpa [hnone] using hloops
  · intro ids
    induction ids with
    | nil => simp
    | cons id ids ih =>
      have hid := (hbounds id).2.2
      rw [map_cons, sum_cons, countP_cons]
      cases hentry : (run ops id).entry.isSome <;> simp [hentry] at hid ⊢ <;> omega

theorem loops_bounded_two :
    (run [(0, .addInstance (some ⟨true⟩)), (0, .read), (0, .addInstance none),
      (1, .addInstance none)] 0).livenessLoops ≤ 1 :=
  ((loops_bounded (by decide)).1 0).1

/-- The loops of an instance that was removed go on, and probe it again once it is added under the
same ID, beside those of the new monitor. -/
theorem loops_pile_up :
    ((run [(0, .addInstance (some ⟨true⟩)), (0, .read), (0, .removeInstance),
        (0, .probe false), (0, .probe false)] 0).loops = 2 ∧
      (run [(0, .addInstance (some ⟨true⟩)), (0, .read), (0, .removeInstance),
        (0, .addInstance (some ⟨true⟩)), (0, .read)] 0).loops = 4) := by
  decide

end Rune.Health.Monitors
