import Rune.Models.Mounts.Stranded

/-!
# Whose disk a call touches

The mount table of the host lists what is mounted where, and several disks can be stacked at one
path. Before it unmounts, detaches or mounts, the agent looks the disk up in the table. Each call
of the driver is logged with the table at that moment. A device is what the table says of a disk.
-/

namespace Rune.Mounts

open List

open Rune.Volumes (Volume)

variable {δ : Type} [DecidableEq δ]

/-- What is mounted where, at one path from the bottom to the top. -/
abbrev Table (δ : Type) := List (String × δ)

namespace Table

/-- What is mounted at a path, the oldest first. -/
def stack (t : Table δ) (p : String) : List δ := (t.filter (·.1 = p)).map (·.2)

/-- Where a device is mounted. -/
def mountPoints (t : Table δ) (d : δ) : List String := (t.filter (·.2 = d)).map (·.1)

/-- What a path shows. -/
def top? (t : Table δ) (p : String) : Option δ := (t.stack p).getLast?

/-- Mount a disk; where it is visible already, a driver does nothing. -/
def mount (t : Table δ) (d : δ) (p : String) : Table δ :=
  if t.top? p = some d then t else t ++ [(p, d)]

/-- Take the top mount away. -/
def unmount : Table δ → String → Table δ
  | [], _ => []
  | e :: t, p => if e.1 = p ∧ t.all (·.1 ≠ p) then t else e :: unmount t p

/-- Nothing is mounted here, or this disk is what is visible. -/
def Own (t : Table δ) (d : δ) (p : String) : Prop := t.stack p = [] ∨ t.top? p = some d

instance (t : Table δ) (d : δ) (p : String) : Decidable (t.Own d p) :=
  inferInstanceAs (Decidable (_ ∨ _))

omit [DecidableEq δ] in
theorem unmount_sublist (t : Table δ) (p : String) : (t.unmount p).Sublist t := by
  induction t with
  | nil => exact .slnil
  | cons e t ih =>
    unfold unmount
    split
    · exact .cons e (.refl t)
    · exact ih.cons_cons e

omit [DecidableEq δ] in
/-- What is mounted at the other paths stays. -/
theorem stack_unmount {p q : String} (hne : q ≠ p) (t : Table δ) :
    (t.unmount p).stack q = t.stack q := by
  induction t with
  | nil => rfl
  | cons e t ih =>
    unfold unmount
    split
    · next h =>
      have : e.1 ≠ q := fun he => hne (he.symm.trans h.1)
      simp [stack, this]
    · simp only [stack, filter_cons] at ih ⊢
      split
      · rw [map_cons, map_cons, ih]
      · exact ih

/-- A mount of its own path. -/
theorem nodup_mount {t : Table δ} (ht : t.Nodup) {d : δ} {p : String} (hown : t.Own d p) :
    (t.mount d p).Nodup := by
  unfold mount
  split
  · exact ht
  · next h =>
    refine ht.append (nodup_singleton _) (disjoint_singleton.mpr fun hmem => ?_)
    have hstack := hown.resolve_right h
    exact ne_nil_of_mem (mem_map_of_mem (mem_filter.mpr ⟨hmem, by simp⟩)) hstack

/-- Where no disk is mounted twice at one path, the paths of a disk are distinct. -/
theorem nodup_mountPoints {t : Table δ} (ht : t.Nodup) (d : δ) : (t.mountPoints d).Nodup := by
  refine (ht.filter _).map_on fun e he e' he' heq => Prod.ext heq ?_
  have h := of_decide_eq_true (mem_filter.mp he).2
  have h' := of_decide_eq_true (mem_filter.mp he').2
  exact h.trans h'.symm

/-- The paths under the mount root where the disk is mounted: those where it is visible, and those
where it is buried. -/
def ownMounts (root : String) (t : Table δ) (d : δ) : List String × List String :=
  ((t.mountPoints d).filter fun p => (root ++ "/").toList.isPrefixOf p.toList).partition
    fun p => t.top? p = some d

end Table

/-- The calls of the driver that a mount or a disk depends on. -/
inductive Op (δ : Type) where
  | attach
  | mount (d : δ) (target : String)
  | unmount (d : δ) (p : String)
  | detach (d : δ)
  deriving DecidableEq

/-- The call touches no disk but its own. -/
def Op.Safe (t : Table δ) : Op δ → Prop
  | .attach => True
  | .mount d p | .unmount d p => t.Own d p
  | .detach d => t.mountPoints d = []

/-- What the driver does with its calls, by their number: the device that an attach gives, whether
a call takes effect, and whether it says so. -/
structure Driver (δ : Type) where
  attach : ℕ → Option δ
  works : ℕ → Bool
  succeeds : ℕ → Bool

/-- A tracked mount with its device and path. -/
structure Mounted (δ : Type) extends TrackedMount where
  device : δ
  target : String
  deriving DecidableEq

/-- The table of the host, the mounts, and the calls made so far. -/
structure Subsystem (δ : Type) where
  table : Table δ
  mounts : List (Mounted δ) := []
  parked : List (Mounted δ) := []
  log : List (Table δ × Op δ) := []

namespace Subsystem

section Model

variable (node root : String) (drv : Driver δ) (s : Subsystem δ)

/-- Call the driver, after which the table is `t`. -/
def perform (op : Op δ) (t : Table δ) : Subsystem δ :=
  { s with log := s.log ++ [(s.table, op)], table := t }

/-- Unmount, if the driver works. -/
def unmount (d : δ) (p : String) : Subsystem δ :=
  s.perform (.unmount d p) (if drv.works s.log.length then s.table.unmount p else s.table)

/-- Mount, if the driver works. -/
def mount (d : δ) (p : String) : Subsystem δ :=
  s.perform (.mount d p) (if drv.works s.log.length then s.table.mount d p else s.table)

/-- Unmount the disk wherever else it was visible when the loop began. -/
def unmountLeftovers (m : Mounted δ) (top : List String) : Subsystem δ :=
  top.foldl (fun s p => if p = m.target then s else s.unmount drv m.device p) s

/-- Detach a disk that is not mounted. The answer tells whether it is off the node. -/
def detach (d : δ) : Subsystem δ × Bool :=
  if s.table.mountPoints d = [] then
    (s.perform (.detach d) s.table, drv.succeeds s.log.length)
  else (s, false)

/-- Unmount the device everywhere and detach it. -/
def tearDown (m : Mounted δ) : Subsystem δ × Bool :=
  let s := if s.table.Own m.device m.target then s.unmount drv m.device m.target else s
  (s.unmountLeftovers drv m (s.table.ownMounts root m.device).1).detach drv m.device

/-- Take a mount down, or park it. -/
def release (m : Mounted δ) : Subsystem δ :=
  let (s, detached) := s.tearDown root drv m
  let others := s.parked.filter (·.handle ≠ m.handle)
  { s with parked := if detached then others else m :: others }

/-- The key makes a path of two plain parts. -/
def pathSafeKey (key : String) : Bool :=
  let parts := key.toList.splitOn '/'
  parts.length = 2 && parts.all fun p =>
    p ≠ [] && p ≠ ['.'] && p ≠ ['.', '.'] && p.all fun c => c ≠ '\\' && c ≠ '\x00'

/-- Where to mount a volume: its own path, or the one without the namespace where its disk is
visible there. -/
def mountTarget (vol : Volume) (d : δ) : Option String :=
  let target := root ++ "/" ++ mountKey vol
  let legacy := root ++ "/" ++ vol.id
  let nsDir := root ++ "/" ++ (if vol.ns = "" then "default" else vol.ns)
  if pathSafeKey (mountKey vol) = false then none
  else if s.table.stack target ≠ [] then
    if s.table.top? target = some d then some target else none
  else if vol.id ≠ "" ∧ s.table.top? legacy = some d then some legacy
  else if s.table.stack nsDir ≠ [] then none
  else some target

/-- Attach and mount a disk. -/
def bringUp (vol : Volume) : Subsystem δ :=
  match drv.attach s.log.length with
  | none => s
  | some d =>
    let s := s.perform .attach s.table
    match s.mountTarget root vol d with
    | none => (s.detach drv d).1
    | some target =>
      let t := s.mount drv d target
      if drv.succeeds s.log.length then
        { t with
          mounts := ⟨⟨mountKey vol, vol.ns, vol.name, vol.handle⟩, d, target⟩ :: t.mounts
          parked := t.parked.filter (·.handle ≠ vol.handle) }
      else (t.detach drv d).1

/-- Compare a row with what is tracked. -/
def reconcile (vol : Volume) : Subsystem δ :=
  match shouldMount node vol, s.mounts.find? (·.key = mountKey vol) with
  | true, none => s.bringUp root drv vol
  | false, some m => { s with mounts := s.mounts.erase m }.release root drv m
  | true, some m =>
    if m.handle ≠ vol.handle then
      ({ s with mounts := s.mounts.erase m }.release root drv m).bringUp root drv vol
    else s
  | false, none => s

/-- Retry the parked disks that no row wants and that are not buried; `failing` are those whose
row or driver cannot be read. -/
def retryParked (rows : List Volume) (failing : List String) : Subsystem δ :=
  s.parked.foldl (fun s m =>
    if Agent.stillWanted node { rows := rows } m.toTrackedMount ∨ m.handle ∈ failing ∨
      (s.table.ownMounts root m.device).2 ≠ [] then s else s.release root drv m) s

/-- The calls of the subsystem, and what others do to the table between them. -/
inductive Call (δ : Type) where
  | bringUp (vol : Volume)
  | reconcile (vol : Volume)
  | release (m : Mounted δ)
  | retryParked (rows : List Volume) (failing : List String)
  | change (t : Table δ)

/-- One call. -/
def call : Call δ → Subsystem δ
  | .bringUp vol => s.bringUp root drv vol
  | .reconcile vol => s.reconcile node root drv vol
  | .release m => s.release root drv m
  | .retryParked rows failing => s.retryParked node root drv rows failing
  | .change t => { s with table := t }

end Model

variable {node root : String} {drv : Driver δ} {s : Subsystem δ}

/-- No disk is mounted twice at one path, and every call so far was safe. -/
structure Sound (s : Subsystem δ) : Prop where
  table : s.table.Nodup
  log : ∀ e ∈ s.log, e.2.Safe e.1

/-- One operation. -/
theorem Sound.perform (hs : s.Sound) {op : Op δ} {t : Table δ} (hop : op.Safe s.table)
    (ht : t.Nodup) : (s.perform op t).Sound := by
  refine ⟨ht, fun e he => ?_⟩
  rcases mem_append.mp he with he | he
  · exact hs.log e he
  · exact mem_singleton.mp he ▸ hop

/-- An unmount. -/
theorem Sound.unmount (hs : s.Sound) {d : δ} {p : String} (hown : s.table.Own d p) :
    (s.unmount drv d p).Sound := by
  refine hs.perform hown ?_
  split
  · exact hs.table.sublist (s.table.unmount_sublist p)
  · exact hs.table

/-- A mount. -/
theorem Sound.mount (hs : s.Sound) {d : δ} {p : String} (hown : s.table.Own d p) :
    (s.mount drv d p).Sound := by
  refine hs.perform hown ?_
  split
  · exact Table.nodup_mount hs.table hown
  · exact hs.table

/-- A detach. -/
theorem Sound.detach (hs : s.Sound) (d : δ) : (s.detach drv d).1.Sound := by
  unfold Subsystem.detach
  split
  · next h => exact hs.perform h hs.table
  · exact hs

/-- The leftover paths are distinct, so unmounting one of them leaves the disk visible at those
that follow. -/
theorem Sound.unmountLeftovers {m : Mounted δ} {top : List String} (hs : s.Sound)
    (hnodup : top.Nodup) (htop : ∀ p ∈ top, s.table.top? p = some m.device) :
    (s.unmountLeftovers drv m top).Sound := by
  induction top generalizing s with
  | nil => exact hs
  | cons p top ih =>
    obtain ⟨hp, hnodup⟩ := nodup_cons.mp hnodup
    have hrest : ∀ q ∈ top, s.table.top? q = some m.device :=
      fun q hq => htop q (mem_cons_of_mem p hq)
    rw [Subsystem.unmountLeftovers, foldl_cons]
    split
    · exact ih hs hnodup hrest
    · refine ih (hs.unmount (Or.inr (htop p mem_cons_self))) hnodup fun q hq => ?_
      have hne : q ≠ p := fun h => hp (h ▸ hq)
      rw [← hrest q hq]
      simp only [Subsystem.unmount, Subsystem.perform, Table.top?]
      split
      · rw [Table.stack_unmount hne]
      · rfl

/-- A teardown. -/
theorem Sound.tearDown (hs : s.Sound) (m : Mounted δ) : (s.tearDown root drv m).1.Sound := by
  have hfirst : (if s.table.Own m.device m.target then s.unmount drv m.device m.target
      else s).Sound := by
    split
    · next hown => exact hs.unmount hown
    · exact hs
  refine Sound.detach (hfirst.unmountLeftovers ?_ fun p hp => ?_) _
  · rw [Table.ownMounts, partition_eq_filter_filter]
    exact ((Table.nodup_mountPoints hfirst.table _).filter _).filter _
  · rw [Table.ownMounts, partition_eq_filter_filter] at hp
    exact of_decide_eq_true (mem_filter.mp hp).2

/-- A release. -/
theorem Sound.release (hs : s.Sound) (m : Mounted δ) : (s.release root drv m).Sound := by
  have h : (s.tearDown root drv m).1.Sound := hs.tearDown m
  unfold Subsystem.release
  exact ⟨h.table, h.log⟩

/-- The target is free, or the disk is visible there. -/
theorem own_mountTarget {vol : Volume} {d : δ} {target : String}
    (h : s.mountTarget root vol d = some target) : s.table.Own d target := by
  simp only [mountTarget] at h
  split at h
  · cases h
  split at h
  · obtain ⟨htop, heq⟩ := Option.ite_none_right_eq_some.mp h
    exact Or.inr (Option.some.inj heq ▸ htop)
  next hfree =>
    split at h
    · next hlegacy => exact Or.inr (Option.some.inj h ▸ hlegacy.2)
    · obtain ⟨-, heq⟩ := Option.ite_none_left_eq_some.mp h
      exact Or.inl (Option.some.inj heq ▸ not_not.mp hfree)

/-- A bring-up. -/
theorem Sound.bringUp (hs : s.Sound) (vol : Volume) : (s.bringUp root drv vol).Sound := by
  have hattach : (s.perform .attach s.table).Sound := hs.perform trivial hs.table
  have hmount {d : δ} {target : String}
      (htarget : (s.perform .attach s.table).mountTarget root vol d = some target) :
      ((s.perform .attach s.table).mount drv d target).Sound :=
    hattach.mount (own_mountTarget htarget)
  fun_cases s.bringUp root drv vol
  · exact hs
  · exact hattach.detach _
  · rename_i htarget _ _
    exact ⟨(hmount htarget).table, (hmount htarget).log⟩
  · rename_i htarget _ _
    exact (hmount htarget).detach _

/-- One row. -/
theorem Sound.reconcile (hs : s.Sound) (vol : Volume) :
    (s.reconcile node root drv vol).Sound := by
  have hforget : ∀ m, { s with mounts := s.mounts.erase m }.Sound := fun _ => ⟨hs.table, hs.log⟩
  fun_cases s.reconcile node root drv vol
  · exact hs.bringUp vol
  · exact (hforget _).release _
  · exact ((hforget _).release _).bringUp vol
  · exact hs
  · exact hs

/-- The parked ones. -/
theorem Sound.retryParked (hs : s.Sound) (rows : List Volume) (failing : List String) :
    (s.retryParked node root drv rows failing).Sound := by
  refine foldlRecOn _ _ hs fun s hs m _ => ?_
  split
  · exact hs
  · exact hs.release m

/-- Where no disk is mounted twice at one path to begin with and nobody else mounts one so, a path
is unmounted or mounted only where it is free or its top is the volume's own disk, and a disk is
detached only when it is mounted nowhere. -/
theorem only_own_disk_touched {calls : List (Call δ)} (htable : s.table.Nodup) (hlog : s.log = [])
    (hcalls : ∀ t, .change t ∈ calls → t.Nodup) :
    ∀ e ∈ (calls.foldl (call node root drv) s).log, e.2.Safe e.1 := by
  have hs : s.Sound := ⟨htable, by simp [hlog]⟩
  refine (foldlRecOn _ _ hs fun s hs c hc => ?_ : Sound _).log
  cases c with
  | bringUp vol => exact hs.bringUp vol
  | reconcile vol => exact hs.reconcile vol
  | release m => exact hs.release m
  | retryParked rows failing => exact hs.retryParked rows failing
  | change t => exact ⟨hcalls t hc, hs.log⟩

/-- A driver whose every call works, for disks `1` and `2`. -/
def working : Driver ℕ := ⟨fun _ => some 1, fun _ => true, fun _ => true⟩

/-- Volume `v1`, mounted at its own path. -/
def dataMount : Mounted ℕ :=
  ⟨⟨"default/v1", "default", "data", "disk-1"⟩, 1, "/mnt/default/v1"⟩

/-- The volume is released from this table. -/
def released (t : Table ℕ) : Subsystem ℕ :=
  [Call.release dataMount].foldl (call "n1" "/mnt" working) { table := t }

/-- The disk is also visible at its old path, over another disk. Both its mounts go. -/
theorem only_own_disk_touched_stacked :
    (released [("/mnt/v1", 2), ("/mnt/v1", 1), ("/mnt/default/v1", 1)]).log.map (·.2) =
        [.unmount 1 "/mnt/default/v1", .unmount 1 "/mnt/v1", .detach 1] ∧
      ∀ e ∈ (released [("/mnt/v1", 2), ("/mnt/v1", 1), ("/mnt/default/v1", 1)]).log,
        e.2.Safe e.1 :=
  ⟨by decide +kernel, only_own_disk_touched (by decide) rfl (by simp)⟩

/-- The disk is mounted twice at its old path, with another disk between. The path is listed
twice, and the second time the other disk is unmounted. -/
theorem other_disk_unmounted :
    ∃ e ∈ (released [("/mnt/v1", 1), ("/mnt/v1", 2), ("/mnt/v1", 1)]).log,
      e.2 = .unmount 1 "/mnt/v1" ∧ e.1.top? "/mnt/v1" = some 2 ∧ ¬ e.2.Safe e.1 := by
  refine ⟨([("/mnt/v1", 1), ("/mnt/v1", 2)], .unmount 1 "/mnt/v1"), by decide +kernel, rfl,
    by decide +kernel, ?_⟩
  change ¬ Table.Own _ _ _
  decide +kernel

end Subsystem

end Rune.Mounts
