import Rune.Models.Cast.Applier
import Rune.Models.Volumes.Controller

/-!
# Casting a release with a volume again

The applier writes the rendered volume over the stored row. The repository keeps the
identity and nothing else, so the row loses its handle, its binding and its status,
and the controller takes it for one that waits for its disk. From then on either the
driver has been asked for another disk, or no copy of the row, stored, in an event
or being handled, has a handle.
-/

namespace Rune.Volumes

open Rune.Core
open Rune.Cast (OwnedBy applyVia volumeRepo Row)
open Rune.Services (Entries AccessMode ReclaimPolicy Uuid)

/-- A volume as a cast file has it. -/
structure VolumeEntry where
  ns : String := ""
  name : String
  labels : Entries := []
  storageClassName : String := ""
  size : String := ""
  accessMode : AccessMode := .unset
  reclaimPolicy : ReclaimPolicy := .unset
  parameters : Entries := []
  snapshotSchedule : Option SnapshotSchedule := none

/-- The rendered volume of an entry. -/
def VolumeEntry.render (v : VolumeEntry) : Except String Volume := do
  refuseIf (v.name = "") "volume name is required"
  refuseIf (v.storageClassName = "") ("volume \"" ++ v.name ++ "\": storageClassName is required")
  refuseIf (v.size = "") ("volume \"" ++ v.name ++ "\": size is required")
  pure {
    ns := if v.ns = "" then "default" else v.ns
    name := v.name
    labels := v.labels
    storageClassName := v.storageClassName
    size := v.size
    accessMode := if v.accessMode = .unset then .readWriteOnce else v.accessMode
    reclaimPolicy := v.reclaimPolicy
    parameters := v.parameters
    snapshotSchedule := v.snapshotSchedule }

/-- The steps of a run: casts that render the volume, and those of the controller. -/
inductive RecastStep where
  | cast (entry : VolumeEntry) (stamp : OwnedBy) (fresh : Uuid)
  | control (a : Controller.Step)

/-- Apply the rendered volume to the stored row. A write reaches the controller as
an event. -/
def Controller.cast (s : Controller) (p : Volume) (stamp : OwnedBy) (fresh : Uuid) :
    Controller :=
  let touch := applyVia (volumeRepo fresh) stamp (some p) ("volume " ++ p.name) .none
    (some (.volume s.table.row))
  match touch.error, touch.row with
  | none, some (.volume row) => { s with table := s.table.put row }
  | _, _ => s

/-- One step of a run. Only casts that render this volume are steps. -/
def Controller.recast (tune : Tuning) (s : Controller) : RecastStep → Option Controller
  | .cast entry stamp fresh =>
    match entry.render with
    | .error _ => none
    | .ok p =>
      if p.ns = s.table.row.ns ∧ p.name = s.table.row.name then some (s.cast p stamp fresh)
      else none
  | .control a => s.step tune a

/-- The row has its disk and the controller is idle. -/
structure Settled (s : Controller) : Prop where
  provisioned : s.table.row.handle ≠ ""
  events : s.table.events = []
  timer : s.table.timer = false
  loop : s.loop = none
  retry : s.retry = none
  calls : s.table.calls = []

/-- The row is on the disk it was on, with its binding, and no other disk has been
asked for. -/
structure KeepsDisk (before : Volume) (t : Table) : Prop where
  id : t.row.id = before.id
  handle : t.row.handle = before.handle
  boundNode : t.row.boundNode = before.boundNode
  boundClaim : t.row.boundClaim = before.boundClaim
  ownerService : t.row.ownerService = before.ownerService
  initializedFor : t.row.initializedFor = before.initializedFor
  calls : t.calls = []

/-- The stored row and the rows in the events have no handle. -/
def Table.Bare (t : Table) : Prop := t.row.handle = "" ∧ ∀ v ∈ t.events, v.handle = ""

/-- The row of a handling has no handle. -/
def bareHandling : Option Handling → Prop
  | none => True
  | some (.resolved vol _ _) => vol.handle = ""
  | some (.made _) => False

/-- Another disk has been asked for, or the old one is lost. -/
def DiskLost (s : Controller) : Prop :=
  s.table.calls ≠ [] ∨ s.table.Bare ∧ bareHandling s.loop ∧ bareHandling s.retry

section Table

variable {t : Table} {vol : Volume} {b : Backend} {tune : Tuning}

theorem Table.Bare.put (h : t.Bare) (hvol : vol.handle = "") : (t.put vol).Bare := by
  refine ⟨hvol, fun v hv => ?_⟩
  rcases List.mem_append.mp hv with hv | hv
  · exact h.2 v hv
  · rw [List.mem_singleton.mp hv, hvol]

/-- Another disk has been asked for, or neither a stored row nor the one in hand has a handle,
nor what is under way elsewhere. -/
def Table.Lost (t : Table) (vol : Volume) (other : Option Handling) : Prop :=
  t.calls ≠ [] ∨ t.Bare ∧ vol.handle = "" ∧ bareHandling other

/-- The same with a handling in place of the row. -/
def LostIn (r : Table × Option Handling) (other : Option Handling) : Prop :=
  r.1.calls ≠ [] ∨ r.1.Bare ∧ bareHandling r.2 ∧ bareHandling other

variable {other : Option Handling}

theorem Table.Lost.updateStatus (h : t.Lost vol other) (status : VolumeStatus)
    (reason message : String) {next : Option Handling}
    (hnext : vol.handle = "" → bareHandling next) :
    LostIn (t.updateStatus vol status reason message, next) other :=
  h.imp_right fun h => ⟨h.1.put h.2.1, hnext h.2.1, h.2.2⟩

theorem Table.Lost.handleProvisionFail (h : t.Lost vol other) (e : String) :
    LostIn (t.handleProvisionFail tune vol e, none) other := by
  fun_cases t.handleProvisionFail tune vol e
  · exact Table.Lost.updateStatus h _ _ _ fun _ => trivial
  · exact Table.Lost.updateStatus h _ _ _ fun _ => trivial

theorem lostIn_callDriver (c : DriverCall) (adopt : String → Volume) :
    LostIn (t.callDriver tune b vol c adopt) other := by
  have hcalls : t.calls ++ [c] ≠ [] := by simp
  fun_cases t.callDriver tune b vol c adopt
  · exact Table.Lost.handleProvisionFail (.inl hcalls) _
  · exact .inl hcalls

theorem Table.Lost.reconcile (h : t.Lost vol other) : LostIn (t.reconcile b vol) other := by
  have hbegin : ∀ t : Table, t.Lost vol other → LostIn (t.begin b vol) other := by
    intro t h
    fun_cases t.begin b vol
    · exact h.updateStatus _ _ _ fun _ => trivial
    · refine Table.Lost.updateStatus ?_ _ _ _ fun _ => trivial
      exact h
    · refine Table.Lost.updateStatus ?_ _ _ _ id
      exact h
    · exact h
  fun_cases t.reconcile b vol
  · exact hbegin _ h
  · exact hbegin _ h
  · exact hbegin _ h
  · exact h.imp_right fun h => ⟨h.1, trivial, h.2.2⟩

theorem LostIn.advance {handling : Handling} (h : LostIn (t, some handling) other) :
    LostIn (t.advance tune b handling) other := by
  fun_cases t.advance tune b handling
  · fun_cases t.provision tune b _ _ _
    · exact Table.Lost.handleProvisionFail h _
    · exact lostIn_callDriver _ _
    · exact Table.Lost.updateStatus h _ _ _ fun _ => trivial
    · exact Table.Lost.updateStatus h _ _ _ fun _ => trivial
    · exact lostIn_callDriver _ _
  · exact .inl (h.resolve_right fun h => h.2.1)

end Table

section Steps

variable {s s' : Controller} {tune : Tuning}

/-- What a cast renders has no handle and no identity. -/
theorem render_eq_ok {entry : VolumeEntry} {p : Volume} (h : entry.render = .ok p) :
    p.handle = "" ∧ p.id = "" ∧ p.ns ≠ "" ∧ p.name ≠ "" := by
  obtain ⟨_, hname, h⟩ := bind_eq_ok h
  obtain ⟨_, -, h⟩ := bind_eq_ok h
  obtain ⟨_, -, h⟩ := bind_eq_ok h
  cases h
  have hne : entry.name ≠ "" := by simpa using refuseIf_eq_ok.mp hname
  refine ⟨rfl, rfl, ?_, hne⟩
  by_cases hns : entry.ns = "" <;> simp [hns]

/-- A cast writes what it renders under the identity of the row. -/
theorem cast_eq {p : Volume} (hp : p.id = "" ∧ p.ns ≠ "" ∧ p.name ≠ "") (stamp : OwnedBy)
    (fresh : Uuid) :
    s.cast p stamp fresh =
      { s with table := s.table.put { p with id := s.table.row.id, ownedBy := some stamp } } := by
  simp [Controller.cast, applyVia, volumeRepo, Row.volume?, Cast.Fault.sees, Cast.commit,
    updateVolume, Volume.identified, refuseIf, hp, Except.map, bind, Except.bind, pure, Except.pure]

/-- A cast. -/
theorem DiskLost.cast (h : DiskLost s) {entry : VolumeEntry} {p : Volume}
    (hp : entry.render = .ok p) (stamp : OwnedBy) (fresh : Uuid) :
    DiskLost (s.cast p stamp fresh) := by
  obtain ⟨hhandle, hrest⟩ := render_eq_ok hp
  rw [cast_eq hrest]
  rcases h with h | ⟨hbare, hloop, hretry⟩
  · exact Or.inl h
  · exact Or.inr ⟨hbare.put hhandle, hloop, hretry⟩

/-- One step of the controller. -/
theorem DiskLost.step (h : DiskLost s) {a : Controller.Step} (hs : s.step tune a = some s') :
    DiskLost s' := by
  have hswap : ∀ {t : Table} {x y : Option Handling}, LostIn (t, x) y → LostIn (t, y) x :=
    fun h => h.imp_right fun ⟨hbare, hx, hy⟩ => ⟨hbare, hy, hx⟩
  have hrest : ∀ {vol : Volume} {rest : List Volume}, s.table.events = vol :: rest →
      s.table.Bare → vol.handle = "" ∧ Table.Bare { s.table with events := rest } :=
    fun hevents hbare => ⟨hbare.2 _ (by simp [hevents]), hbare.1,
      fun v hv => hbare.2 v (by simp [hevents, hv])⟩
  revert hs
  fun_cases s.step tune a <;> intro hs <;> try cases hs
  · exact h.imp_right (And.imp_left fun hbare => (hrest ‹_› hbare).2)
  · rename_i hevents _ _ table handling hresult
    change LostIn (table, handling) s.retry
    rw [← hresult]
    exact Table.Lost.reconcile (h.imp_right fun ⟨hbare, _, hretry⟩ =>
      ⟨(hrest hevents hbare).2, (hrest hevents hbare).1, hretry⟩)
  · obtain ⟨handling, hloop, rfl⟩ := Option.map_eq_some_iff.mp hs
    have hlost : LostIn (s.table, s.loop) s.retry := h
    rw [hloop] at hlost
    exact hlost.advance
  · rename_i table handling hresult
    refine hswap (t := table) (x := handling) ?_
    rw [← hresult]
    exact Table.Lost.reconcile (h.imp_right fun ⟨hbare, hloop, _⟩ => ⟨hbare, hbare.1, hloop⟩)
  · exact h
  · obtain ⟨handling, hretry, rfl⟩ := Option.map_eq_some_iff.mp hs
    have hlost : LostIn (s.table, s.retry) s.loop := hswap h
    rw [hretry] at hlost
    exact hswap hlost.advance

/-- No step brings the disk back. -/
theorem DiskLost.recast (h : DiskLost s) {a : RecastStep} (hs : s.recast tune a = some s') :
    DiskLost s' := by
  cases a with
  | cast entry stamp fresh =>
    simp only [Controller.recast] at hs
    split at hs
    · cases hs
    · rename_i p hp
      split_ifs at hs
      cases hs
      exact h.cast hp stamp fresh
  | control a =>
    exact h.step hs

/-- From a settled controller only a cast can be the next step, and it loses the
disk. -/
theorem Settled.recast (h : Settled s) {a : RecastStep} (hs : s.recast tune a = some s') :
    (∃ entry stamp fresh, a = .cast entry stamp fresh) ∧ DiskLost s' := by
  cases a with
  | cast entry stamp fresh =>
    refine ⟨⟨entry, stamp, fresh, rfl⟩, ?_⟩
    simp only [Controller.recast] at hs
    split at hs
    · cases hs
    · rename_i p hp
      split_ifs at hs
      cases hs
      obtain ⟨hhandle, hrest⟩ := render_eq_ok hp
      rw [cast_eq hrest]
      refine Or.inr ⟨⟨hhandle, fun v hv => ?_⟩, ?_, ?_⟩
      · have hv : v = { p with id := s.table.row.id, ownedBy := some stamp } := by
          simpa [Table.put, h.events] using hv
        rw [hv]
        exact hhandle
      · simp [h.loop, bareHandling]
      · simp [h.retry, bareHandling]
  | control a =>
    cases a <;> simp [Controller.recast, Controller.step, h.loop, h.retry, h.events, h.timer] at hs

/-- A volume keeps its disk exactly in the runs in which nothing is cast. -/
theorem keepsDisk_iff (h : Settled s) {run : List RecastStep}
    (hrun : exec (Controller.recast tune) s run = some s') :
    KeepsDisk s.table.row s'.table ↔ ∀ entry stamp fresh,
      RecastStep.cast entry stamp fresh ∉ run := by
  cases run with
  | nil =>
    cases hrun
    simpa using ⟨rfl, rfl, rfl, rfl, rfl, rfl, h.calls⟩
  | cons a run =>
    obtain ⟨t, ht, hrest⟩ := exec_cons.mp hrun
    obtain ⟨⟨entry, stamp, fresh, rfl⟩, hlost⟩ := h.recast ht
    have hend : DiskLost s' := exec_invariant (fun _ _ _ hs hstep => hs.recast hstep) hlost hrest
    refine iff_of_false (fun hkeeps => ?_) fun hnone => hnone entry stamp fresh List.mem_cons_self
    rcases hend with hcalls | ⟨hbare, -⟩
    · exact hcalls hkeeps.calls
    · exact h.provisioned (hkeeps.handle ▸ hbare.1)

end Steps

/-- A row with a disk. -/
def boundRow : Volume where
  id := "vol"
  ns := "prod"
  name := "data"
  storageClassName := "local"
  size := "1Gi"
  handle := "disk-1"
  boundNode := "node"
  boundClaim := "db-0"
  status := .bound

/-- A volume on its disk, bound to an instance. -/
def boundVolume : Controller where
  table := { row := boundRow }

/-- The entry that renders it. -/
def dataEntry : VolumeEntry where
  ns := "prod"
  name := "data"
  storageClassName := "local"
  size := "1Gi"

/-- A backend with one class, whose driver makes a new disk each time. -/
def localBackend : Backend where
  classes := .ok [⟨"local", "local", [], true⟩]
  driverFor _ := .ok ()
  snapshots _ _ := .error "not found"
  parseMemory _ := .ok 1073741824
  resolve params _ := .ok params
  call _ := .ok "disk-2"

/-- The example's volume. -/
theorem boundVolume_settled : Settled boundVolume :=
  ⟨by decide, rfl, rfl, rfl, rfl, rfl⟩

/-- The release is cast again with the volume as it is, and the controller does what follows. -/
def recastRun : List RecastStep :=
  [.cast dataEntry ⟨"api", 2, "runeset"⟩ ⟨"fresh", by decide⟩,
    .control (.takeEvent localBackend), .control (.advanceLoop localBackend),
    .control (.advanceLoop localBackend), .control (.takeEvent localBackend),
    .control (.takeEvent localBackend)]

/-- The bound volume does not keep its disk, for there is a cast in the run. -/
theorem keepsDisk_iff_recastRun :
    ∃ s, exec (Controller.recast ⟨5, fun _ => "2s"⟩) boundVolume recastRun = some s ∧
      ¬ KeepsDisk boundVolume.table.row s.table := by
  obtain ⟨s, hs⟩ : ∃ s,
      exec (Controller.recast ⟨5, fun _ => "2s"⟩) boundVolume recastRun = some s := ⟨_, rfl⟩
  refine ⟨s, hs, fun hkeeps => ?_⟩
  exact (keepsDisk_iff boundVolume_settled hs).mp hkeeps _ _ _ List.mem_cons_self

/-- The row is wiped by the cast, the controller asks for a second disk, and the volume moves
to it. -/
theorem recast_moves_volume :
    ∃ s, exec (Controller.recast ⟨5, fun _ => "2s"⟩) boundVolume recastRun = some s ∧
      s.table.events = [] ∧ s.loop = none ∧ s.table.row.handle = "disk-2" ∧
      ¬ KeepsDisk boundVolume.table.row s.table := by
  refine ⟨_, rfl, rfl, rfl, rfl, fun h => ?_⟩
  have hcalls := h.calls
  revert hcalls
  decide

end Rune.Volumes
