import Rune.Models.Volumes.Controller

/-!
# Reclaiming the disk of a deleted volume

The row is gone when the controller learns that it was deleted, so the controller goes by what the
delete event carries. The store makes that out of the stored bytes without knowing their type, and
the controller takes up a typed row only.
-/

namespace Rune.Volumes

open Rune.Core

/-- What a delete event carries: a row, or what its bytes decode to where no type is given. -/
inductive Payload where
  | typed (vol : Volume)
  | generic

/-- `Delete` of the store decodes the bytes into an interface, which makes a map of them. -/
def badgerPayload (_ : Volume) : Payload := .generic

section

variable (preserveOnDelete : Bool) (b : Backend)

/-- The reclaim path: the handle that `Delete` of the driver is called with, if it is called. -/
def handleDeleted (vol : Volume) : Except String (Option String) :=
  if vol.handle = "" then .ok none
  else match vol.reclaimPolicy with
    | .retain | .unset | .other _ => .ok none
    | .delete =>
      match resolveStorageClass b vol with
      | .error _ => .ok none
      | .ok cls =>
        if cls.driver = "" ∨ preserveOnDelete = true ∧ cls.driver = "local" then .ok none
        else do
          (b.driverFor cls.driver).mapError fun e =>
            "reclaim: driver \"" ++ cls.driver ++ "\": " ++ e
          let _ ← (b.resolve (mergeParameters cls.parameters vol.parameters) vol.ns).mapError
            fun e => "reclaim: resolve driver parameters: " ++ e
          pure (some vol.handle)

/-- The policy of the row asks for its disk to be deleted. -/
def reclaims (vol : Volume) : Bool :=
  vol.handle ≠ "" && vol.reclaimPolicy = .delete &&
    !(preserveOnDelete &&
      (resolveStorageClass b vol).toOption.any fun cls => cls.driver = "local")

/-- The storage class of the row exists and its driver works. -/
structure Works (vol : Volume) (cls : StorageClass) : Prop where
  resolved : resolveStorageClass b vol = .ok cls
  named : cls.driver ≠ ""
  driver : b.driverFor cls.driver = .ok ()
  params : ∃ params, b.resolve (mergeParameters cls.parameters vol.parameters) vol.ns = .ok params

end

/-- What the controller learns of. -/
inductive Event where
  | stored (vol : Volume)
  | deleted (payload : Payload)

/-- The rows by namespace and name, the events not yet handled, the deleted rows, and the handles
that `Delete` of the driver was called with. -/
structure World where
  rows : String × String → Option Volume
  events : List Event := []
  deleted : List Volume := []
  deleteCalls : List String := []

/-- What can happen. -/
inductive World.Action where
  /-- Anybody creates or updates a row, the controller included. -/
  | put (vol : Volume)
  | delete (ns name : String)
  /-- The controller handles the next event. -/
  | handle

variable {payload : Volume → Payload} {preserveOnDelete : Bool} {b : Backend}

/-- What the handling of an event calls the driver with. -/
def Event.reclaimed (preserveOnDelete : Bool) (b : Backend) : Event → Option String
  | .deleted (.typed vol) => (handleDeleted preserveOnDelete b vol).toOption.join
  | .deleted .generic | .stored _ => none

/-- One step, if it is possible. -/
def World.step (payload : Volume → Payload) (preserveOnDelete : Bool) (b : Backend) (w : World) :
    Action → Option World
  | .put vol => some { w with
      rows := Function.update w.rows (vol.ns, vol.name) (some vol)
      events := w.events ++ [.stored vol] }
  | .delete ns name => (w.rows (ns, name)).map fun vol => { w with
      rows := Function.update w.rows (ns, name) none
      events := w.events ++ [.deleted (payload vol)]
      deleted := w.deleted ++ [vol] }
  | .handle =>
    match w.events with
    | [] => none
    | e :: rest => some { w with
        events := rest
        deleteCalls := w.deleteCalls ++ (e.reclaimed preserveOnDelete b).toList }

theorem handleDeleted_of_not_reclaims {vol : Volume} (h : reclaims preserveOnDelete b vol = false) :
    (handleDeleted preserveOnDelete b vol).toOption.join = none := by
  fun_cases handleDeleted preserveOnDelete b vol <;> try rfl
  rename_i hhandle hpolicy cls hcls hdeletes
  have hkept : preserveOnDelete = true ∧ cls.driver = "local" := by
    simpa [reclaims, hhandle, hpolicy, hcls, Except.toOption] using h
  exact absurd (.inr hkept) hdeletes

theorem handleDeleted_of_reclaims {vol : Volume} {cls : StorageClass} (hworks : Works b vol cls)
    (h : reclaims preserveOnDelete b vol = true) :
    (handleDeleted preserveOnDelete b vol).toOption.join = some vol.handle := by
  obtain ⟨hcls, hnamed, hdriver, params, hparams⟩ := hworks
  obtain ⟨⟨hhandle, hpolicy⟩, hkept⟩ :
      (vol.handle ≠ "" ∧ vol.reclaimPolicy = .delete) ∧
        ¬ (preserveOnDelete = true ∧ cls.driver = "local") := by
    simpa [reclaims, hcls, Except.toOption, ← Bool.not_eq_true, imp_iff_not_or] using h
  unfold handleDeleted
  rw [if_neg hhandle, hpolicy]
  simp only [hcls]
  rw [if_neg (not_or.mpr ⟨hnamed, hkept⟩), hdriver, hparams]
  rfl

namespace World

/-- What was called and what the events will call is what the deleted rows ask for. -/
def Settled (preserveOnDelete : Bool) (b : Backend) (w : World) : Prop :=
  w.deleteCalls ++ w.events.filterMap (Event.reclaimed preserveOnDelete b) =
    (w.deleted.filter (reclaims preserveOnDelete b)).map Volume.handle

/-- The class of a deleted row with a disk exists and its driver works, and the event of a row
that asks for its disk to be deleted carries the row. -/
def Carried (payload : Volume → Payload) (preserveOnDelete : Bool) (b : Backend) (w : World) :
    Action → Prop
  | .delete ns name => ∀ vol ∈ w.rows (ns, name), vol.handle ≠ "" →
      (∃ cls, Works b vol cls) ∧
        (reclaims preserveOnDelete b vol = true → payload vol = .typed vol)
  | .put _ | .handle => True

theorem reclaimed_payload {w : World} {ns name : String} {vol : Volume}
    (hc : w.Carried payload preserveOnDelete b (.delete ns name))
    (hrow : w.rows (ns, name) = some vol) (hpayload : payload vol = .generic ∨
      payload vol = .typed vol) :
    (Event.deleted (payload vol)).reclaimed preserveOnDelete b =
      if reclaims preserveOnDelete b vol then some vol.handle else none := by
  by_cases h : reclaims preserveOnDelete b vol = true
  · have hhandle : vol.handle ≠ "" := by
      intro hempty
      simp [reclaims, hempty] at h
    obtain ⟨⟨cls, hworks⟩, htyped⟩ := hc vol hrow hhandle
    rw [htyped h, if_pos h]
    exact handleDeleted_of_reclaims hworks h
  · rw [if_neg h]
    rcases hpayload with hp | hp
    · rw [hp]
      rfl
    · rw [hp]
      exact handleDeleted_of_not_reclaims (Bool.eq_false_iff.mpr h)

/-- One step. -/
theorem Settled.step {w t : World} {a : Action}
    (hpayload : ∀ vol, payload vol = .generic ∨ payload vol = .typed vol)
    (h : w.Settled preserveOnDelete b) (hc : w.Carried payload preserveOnDelete b a)
    (hstep : w.step payload preserveOnDelete b a = some t) : t.Settled preserveOnDelete b := by
  unfold Settled at h ⊢
  cases a with
  | put vol =>
    cases hstep
    rw [← h]
    simp [Event.reclaimed]
  | delete ns name =>
    obtain ⟨vol, hrow, rfl⟩ := Option.map_eq_some_iff.mp hstep
    simp only [List.filterMap_append, List.filter_append, List.map_append, ← h,
      List.append_assoc, List.filterMap_cons, reclaimed_payload hc hrow (hpayload vol)]
    cases hr : reclaims preserveOnDelete b vol <;> simp [hr]
  | handle =>
    cases hevents : w.events with
    | nil => simp [World.step, hevents] at hstep
    | cons e rest =>
      simp only [World.step, hevents, Option.some.injEq] at hstep
      subst hstep
      rw [← h, hevents]
      cases hr : e.reclaimed preserveOnDelete b <;> simp [hr]

end World

/-- Once every event is handled, the driver was called once for each deleted row whose policy asks
for it, with its handle, and for no other. The event of such a row has to carry the row. -/
theorem reclaimed_exactly_once {rows : String × String → Option Volume}
    {acts : List World.Action} {w : World}
    (hpayload : ∀ vol, payload vol = .generic ∨ payload vol = .typed vol)
    (hrun : exec (World.step payload preserveOnDelete b) { rows } acts = some w)
    (hcarried : Along (World.step payload preserveOnDelete b)
      (World.Carried payload preserveOnDelete b) { rows } acts)
    (hidle : w.events = []) :
    w.deleteCalls = (w.deleted.filter (reclaims preserveOnDelete b)).map Volume.handle := by
  have hstart : World.Settled preserveOnDelete b { rows } := rfl
  have hend : w.Settled preserveOnDelete b := exec_invariant_along
    (fun _ _ _ h hc hstep => World.Settled.step hpayload h hc hstep) hstart hcarried hrun
  rw [World.Settled, hidle] at hend
  simpa using hend

/-- One class, and everything succeeds. -/
def oneClass : Backend where
  classes := .ok [{ name := "fast", driver := "do-volume" }]
  driverFor _ := .ok ()
  snapshots _ _ := .error ""
  parseMemory _ := .ok 0
  resolve params _ := .ok params
  call _ := .ok "h"

/-- A provisioned row under a policy. -/
def provisioned (policy : Services.ReclaimPolicy) : Volume :=
  { ns := "default", name := "data", storageClassName := "fast", reclaimPolicy := policy
    handle := "h1", status := .available }

/-- A row is created under a policy and deleted. -/
def putAndDelete (policy : Services.ReclaimPolicy) : List World.Action :=
  [.put (provisioned policy), .delete "default" "data", .handle, .handle]

/-- A row whose disk goes with it and one whose disk stays are deleted. -/
def deleteBoth : List World.Action :=
  [.put (provisioned .delete), .put { provisioned .retain with name := "logs", handle := "h2" },
    .delete "default" "logs", .delete "default" "data", .handle, .handle, .handle, .handle]

/-- With events that carry the row, one of the two disks is deleted. -/
theorem reclaimed_exactly_once_typed :
    ∃ w, exec (World.step .typed false oneClass) { rows := fun _ => none } deleteBoth = some w ∧
      w.deleted.length = 2 ∧ w.deleteCalls = ["h1"] := by
  have hcarried : Along (World.step .typed false oneClass)
      (World.Carried .typed false oneClass) { rows := fun _ => none } deleteBoth := by
    refine ⟨trivial, fun s₁ h₁ => ⟨trivial, fun s₂ h₂ => ⟨?_, fun s₃ h₃ => ⟨?_, fun _ _ =>
      Along.of_forall (by simp [World.Carried]) _⟩⟩⟩⟩ <;> cases h₁ <;> cases h₂ <;>
      try cases h₃
    all_goals
      intro vol hvol _
      cases hvol
      exact ⟨⟨_, rfl, by decide, rfl, _, rfl⟩, fun _ => rfl⟩
  exact ⟨_, rfl, rfl, reclaimed_exactly_once (fun _ => .inr rfl) rfl hcarried rfl⟩

/-- No disk was deleted, and none will be for the events that wait. -/
structure World.Untouched (preserveOnDelete : Bool) (b : Backend) (w : World) : Prop where
  calls : w.deleteCalls = []
  events : ∀ e ∈ w.events, e.reclaimed preserveOnDelete b = none

/-- The store's own events leave it so. -/
theorem World.Untouched.step {w t : World} {a : Action} (h : w.Untouched preserveOnDelete b)
    (hstep : w.step badgerPayload preserveOnDelete b a = some t) :
    t.Untouched preserveOnDelete b := by
  obtain ⟨hcalls, hevents⟩ := h
  cases a with
  | put vol =>
    cases hstep
    exact ⟨hcalls, List.forall_mem_append.mpr ⟨hevents, by simp [Event.reclaimed]⟩⟩
  | delete ns name =>
    obtain ⟨vol, -, rfl⟩ := Option.map_eq_some_iff.mp hstep
    exact ⟨hcalls, List.forall_mem_append.mpr ⟨hevents, by simp [badgerPayload, Event.reclaimed]⟩⟩
  | handle =>
    cases hhead : w.events with
    | nil => simp [World.step, hhead] at hstep
    | cons e rest =>
      rw [hhead] at hevents
      obtain ⟨hnone, hrest⟩ := List.forall_mem_cons.mp hevents
      simp only [World.step, hhead, Option.some.injEq] at hstep
      subst hstep
      exact ⟨by simp [hcalls, hnone], hrest⟩

/-- With the store's own events `Delete` of the driver is never called. -/
theorem deleteCalls_eq_nil_of_badgerPayload {rows : String × String → Option Volume}
    {acts : List World.Action} {w : World}
    (hrun : exec (World.step badgerPayload preserveOnDelete b) { rows } acts = some w) :
    w.deleteCalls = [] := by
  have hstart : World.Untouched preserveOnDelete b { rows } := ⟨rfl, by simp⟩
  exact (exec_invariant (fun _ _ _ h hstep => World.Untouched.step h hstep) hstart hrun).calls

/-- The store's own event carries no row, so the disk of a row that asks for it is not deleted. -/
theorem reclaim_never_runs :
    ∃ w, exec (World.step badgerPayload false oneClass) { rows := fun _ => none }
        (putAndDelete .delete) = some w ∧ w.events = [] ∧ w.deleted = [provisioned .delete] ∧
      reclaims false oneClass (provisioned .delete) = true ∧ w.deleteCalls = [] :=
  ⟨_, rfl, rfl, rfl, by decide, rfl⟩

end Rune.Volumes
