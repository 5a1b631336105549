import Rune.Core.Run
import Rune.Models.Volumes.Row

/-!
# The disks that a node holds

The agent of a node attaches the disks of the volumes that are bound to it and lets go of the
others. A disk that is mounted is tracked in memory. One whose teardown leaves it attached is
parked, in memory and in a file, and retried. Which of its exits a bring-up or a teardown takes is
the answer of the driver and the mount table.
-/

namespace Rune.Mounts

open Rune.Core List
open Rune.Volumes (Volume VolumeStatus)

/-- The key under which a mount is tracked. -/
def mountKey (vol : Volume) : String :=
  (if vol.ns = "" then "default" else vol.ns) ++ "/" ++ (if vol.id = "" then vol.name else vol.id)

/-- The row asks for a mount on the node. -/
def shouldMount (node : String) (vol : Volume) : Bool :=
  vol.boundNode = node && vol.handle ≠ "" && (vol.status = .available || vol.status = .bound)

/-- What the agent remembers of a mount. -/
structure TrackedMount where
  key : String
  ns : String
  name : String
  handle : String
  deriving DecidableEq

/-- What the loop has to look at: a row, a deletion with the row if its event carries one, or a
parked disk. -/
inductive Task where
  | row (vol : Volume)
  | deleted (ns name : String) (body : Option Volume)
  | retry (m : TrackedMount)

/-- What the loop is at: it tears a disk down, perhaps to bring a volume up after it, or it is
about to attach, to mount, or to detach again. -/
inductive Job where
  | idle
  | release (m : TrackedMount) (next : Option Volume)
  | attach (vol : Volume)
  | mount (vol : Volume)
  | undo (vol : Volume)
  deriving DecidableEq

namespace Job

/-- The disk that is being torn down. -/
def leaving : Job → Option String
  | release m _ => some m.handle
  | _ => none

/-- The volume that is being brought up. -/
def coming : Job → Option Volume
  | idle => none
  | release _ next => next
  | attach vol | mount vol | undo vol => some vol

end Job

/-- The rows, and the agent of a node with the disks attached to it. -/
structure Agent where
  rows : List Volume := []
  queue : List Task := []
  mounts : List TrackedMount := []
  parked : List TrackedMount := []
  parkedFile : List TrackedMount := []
  attached : List String := []
  job : Job := .idle

/-- What can happen. -/
inductive Step where
  | write (vol : Volume)
  | delete (ns name : String) (body : Option Volume)
  /-- The retry tick; `listed` tells that the store lists the rows. -/
  | tick (listed : Bool)
  /-- The loop takes the next task; `go` tells that a parked disk can be retried. -/
  | take (go : Bool)
  /-- The job goes on; `ok` is what the driver answers. -/
  | advance (ok : Bool)
  /-- The subsystem stops and detaches the tracked disks in `gone`, unless the time for it has
  expired; another one starts. -/
  | stop (expired : Bool) (gone : List String) (listed : Bool)
  /-- The process ends; another one starts. -/
  | crash (listed : Bool)

namespace Agent

section Model

variable (node : String) (s : Agent)

/-- Remember a disk that could not be detached. -/
def park (m : TrackedMount) : Agent :=
  let parked := m :: s.parked.filter (·.handle ≠ m.handle)
  { s with parked := parked, parkedFile := parked }

/-- Forget a parked disk. -/
def unpark (handle : String) : Agent :=
  let parked := s.parked.filter (·.handle ≠ handle)
  { s with parked := parked, parkedFile := if parked = s.parked then s.parkedFile else parked }

/-- The disk is off the node. -/
def detach (handle : String) : Agent :=
  { s with attached := s.attached.filter (· ≠ handle) }

/-- A tracked mount that is torn down is forgotten first. -/
def release (m : TrackedMount) (next : Option Volume) : Agent :=
  { s with mounts := s.mounts.erase m, job := .release m next }

/-- Compare a row with what is tracked. -/
def reconcile (vol : Volume) : Agent :=
  match shouldMount node vol, s.mounts.find? (·.key = mountKey vol) with
  | true, none => { s with job := .attach vol }
  | false, some m => s.release m none
  | true, some m => if m.handle ≠ vol.handle then s.release m (some vol) else s
  | false, none => s

/-- Release the mount of a row that is gone. -/
def handleDeleted (ns name : String) (body : Option Volume) : Agent :=
  let found := match body with
    | some vol => s.mounts.find? (·.key = mountKey vol)
    | none => s.mounts.find? fun m => m.ns = ns ∧ m.name = name
  match found with
  | some m => s.release m none
  | none => s

/-- A row asks for the disk again. -/
def stillWanted (m : TrackedMount) : Bool :=
  (s.rows.find? fun vol => vol.ns = m.ns ∧ vol.name = m.name).any fun vol =>
    vol.handle = m.handle && shouldMount node vol

/-- What follows a release. -/
def bringUp : Option Volume → Job
  | none => .idle
  | some vol => .attach vol

/-- Go on with the job. A volume is brought up only where its key is not tracked. -/
def advance (ok : Bool) : Job → Agent
  | .idle => s
  | .release m next =>
    let s := if ok then (s.detach m.handle).unpark m.handle else s.park m
    { s with job := bringUp next }
  | .attach vol =>
    if ok then { s with attached := vol.handle :: s.attached, job := .mount vol }
    else { s with job := .idle }
  | .mount vol =>
    if ok then
      let s := s.unpark vol.handle
      { s with mounts := ⟨mountKey vol, vol.ns, vol.name, vol.handle⟩ :: s.mounts, job := .idle }
    else { s with job := .undo vol }
  | .undo vol =>
    let s := if ok then s.detach vol.handle else s
    { s with job := .idle }

/-- `drainMounts`, after `Stop` has forgotten the tracked disks: one that stays attached is parked.
Where the time has expired nothing is done. -/
def drainMounts (expired : Bool) (gone : List String) : Agent :=
  if s.mounts = [] ∨ expired then { s with mounts := [] }
  else
    let left := s.mounts.filter (·.handle ∉ gone)
    let parked := left ++ s.parked.filter fun p => left.all (·.handle ≠ p.handle)
    { s with
      mounts := [], parked := parked, parkedFile := parked
      attached := s.attached.filter fun h => ¬ (h ∈ gone ∧ h ∈ s.mounts.map (·.handle)) }

/-- The rows of other names. -/
def others (ns name : String) : List Volume :=
  s.rows.filter fun r => ¬ (r.ns = ns ∧ r.name = name)

/-- What the retry tick queues. -/
def listing (listed : Bool) : List Task := if listed then s.rows.map .row else []

/-- Start again from the file system. -/
def start (listed : Bool) : Agent :=
  { s with mounts := [], parked := s.parkedFile, queue := s.listing listed, job := .idle }

/-- Take a task up. -/
def handle (go : Bool) : Task → Agent
  | .row vol => s.reconcile node vol
  | .deleted ns name body => s.handleDeleted ns name body
  | .retry m => if go ∧ s.stillWanted node m = false then s.release m none else s

/-- One step, if it is possible. -/
def step : Step → Option Agent
  | .write vol =>
    some { s with rows := vol :: s.others vol.ns vol.name, queue := s.queue ++ [.row vol] }
  | .delete ns name body =>
    some { s with rows := s.others ns name, queue := s.queue ++ [.deleted ns name body] }
  | .tick listed =>
    if s.job = .idle then
      some { s with queue := s.parked.map .retry ++ s.listing listed ++ s.queue }
    else none
  | .take go =>
    match s.job, s.queue with
    | .idle, task :: rest => some ({ s with queue := rest }.handle node go task)
    | _, _ => none
  | .advance ok => if s.job = .idle then none else some (s.advance ok s.job)
  | .stop expired gone listed =>
    if s.job = .idle then some ((s.drainMounts expired gone).start listed) else none
  | .crash listed => some (s.start listed)

/-- The disk is tracked. -/
def InMounts (h : String) : Prop := ∃ m ∈ s.mounts, m.handle = h

/-- The disk is parked, in memory and in the file. -/
def Parked (h : String) : Prop :=
  (∃ m ∈ s.parked, m.handle = h) ∧ ∃ m ∈ s.parkedFile, m.handle = h

/-- A row asks for the disk. -/
def Wanted (h : String) : Prop := ∃ vol ∈ s.rows, vol.handle = h ∧ shouldMount node vol = true

instance (h : String) : Decidable (s.InMounts h) := by unfold InMounts; infer_instance

instance (h : String) : Decidable (s.Parked h) := by unfold Parked; infer_instance

instance (h : String) : Decidable (s.Wanted node h) := by unfold Wanted; infer_instance

/-- Somebody answers for the disk. -/
def Held (h : String) : Prop := s.InMounts h ∨ s.Parked h ∨ s.Wanted node h

/-- The loop has nothing left to do. -/
structure Idle : Prop where
  job : s.job = .idle
  queue : s.queue = []

instance : Decidable s.Idle :=
  decidable_of_iff (s.job = .idle ∧ s.queue = []) ⟨fun h => ⟨h.1, h.2⟩, fun h => ⟨h.1, h.2⟩⟩

/-- The row of this name may become `new`: a disk that it stops to want is tracked or parked, or
not attached. -/
def MayBecome (ns name : String) (new : Option Volume) : Prop :=
  ∀ old ∈ s.rows, old.ns = ns ∧ old.name = name → shouldMount node old = true →
    old.handle ∈ s.attached → s.InMounts old.handle ∨ s.Parked old.handle ∨
      ∃ vol ∈ new, vol.handle = old.handle ∧ shouldMount node vol = true

instance (ns name : String) (new : Option Volume) : Decidable (s.MayBecome node ns name new) := by
  unfold MayBecome
  infer_instance

/-- Every attached disk is parked or wanted. -/
def Kept : Prop := ∀ h ∈ s.attached, s.Parked h ∨ s.Wanted node h

instance : Decidable (s.Kept node) := inferInstanceAs (Decidable (∀ h ∈ s.attached, _ ∨ _))

/-- Rows change while the loop is idle, and the process ends, or stops when its time has expired,
while every attached disk is parked or wanted. -/
def Orderly : Step → Prop
  | .write vol => s.Idle ∧ s.MayBecome node vol.ns vol.name (some vol)
  | .delete ns name _ => s.Idle ∧ s.MayBecome node ns name none
  | .stop expired _ _ => expired = true → s.Kept node
  | .crash _ => s.Kept node
  | _ => True

instance : ∀ a, Decidable (s.Orderly node a)
  | .write vol => inferInstanceAs (Decidable (_ ∧ s.MayBecome node vol.ns vol.name (some vol)))
  | .delete ns name _ => inferInstanceAs (Decidable (_ ∧ s.MayBecome node ns name none))
  | .stop expired _ _ => inferInstanceAs (Decidable (expired = true → s.Kept node))
  | .crash _ => inferInstanceAs (Decidable (s.Kept node))
  | .tick _ | .take _ | .advance _ => isTrue trivial

end Model

variable {node : String} {s : Agent}

/-- What holds between any two steps of the loop. -/
structure Sound (node : String) (s : Agent) : Prop where
  parkedFile : s.parkedFile = s.parked
  queue : ∀ vol, .row vol ∈ s.queue → vol ∈ s.rows
  coming : ∀ vol ∈ s.job.coming, vol ∈ s.rows ∧ shouldMount node vol = true
  attached : ∀ h ∈ s.attached, h ∈ s.job.leaving ∨ s.Held node h

/-- Where the file and the memory agree, a parked disk is in both. -/
theorem parked_iff (hfile : s.parkedFile = s.parked) {h : String} :
    s.Parked h ↔ ∃ m ∈ s.parked, m.handle = h := by
  rw [Parked, hfile, and_self]

theorem mem_rows_of_listing {listed : Bool} {vol : Volume} (h : .row vol ∈ s.listing listed) :
    vol ∈ s.rows := by
  unfold listing at h
  split at h
  · obtain ⟨_, hmem, heq⟩ := mem_map.mp h
    exact Task.row.inj heq ▸ hmem
  · exact nomatch h

theorem unpark_parkedFile (hfile : s.parkedFile = s.parked) (handle : String) :
    (s.unpark handle).parkedFile = (s.unpark handle).parked := by
  simp only [unpark]
  split
  · next h => rw [h, hfile]
  · rfl

/-- A disk that is not unparked keeps its owner. -/
theorem Held.unpark (hfile : s.parkedFile = s.parked) {h handle : String} (hheld : s.Held node h)
    (hne : h ≠ handle) : (s.unpark handle).Held node h := by
  refine hheld.imp_right (Or.imp_left fun hparked => ?_)
  obtain ⟨m, hmem, rfl⟩ := (parked_iff hfile).mp hparked
  exact (parked_iff (unpark_parkedFile hfile handle)).mpr
    ⟨m, mem_filter.mpr ⟨hmem, decide_eq_true hne⟩, rfl⟩

/-- Parking a disk gives it an owner, and leaves every other disk its own. -/
theorem Held.park {h : String} {m : TrackedMount} (hheld : h ≠ m.handle → s.Held node h) :
    (s.park m).Held node h := by
  by_cases heq : h = m.handle
  · exact Or.inr (Or.inl ⟨⟨m, mem_cons_self, heq.symm⟩, m, mem_cons_self, heq.symm⟩)
  · refine (hheld heq).imp_right (Or.imp_left fun hparked => ?_)
    obtain ⟨p, hmem, rfl⟩ := hparked.1
    have hmem' : p ∈ (s.park m).parked :=
      mem_cons_of_mem _ (mem_filter.mpr ⟨hmem, decide_eq_true heq⟩)
    exact ⟨⟨p, hmem', rfl⟩, p, hmem', rfl⟩

/-- The disk of a mount that is torn down is the job's own; the other mounts stay. -/
theorem Sound.release (hs : s.Sound node) (hidle : s.job = .idle) (m : TrackedMount)
    {next : Option Volume}
    (hnext : ∀ vol ∈ next, vol ∈ s.rows ∧ shouldMount node vol = true) :
    (s.release m next).Sound node := by
  refine ⟨hs.parkedFile, hs.queue, hnext, fun h hmem => ?_⟩
  by_cases heq : m.handle = h
  · exact Or.inl (congrArg some heq)
  · have hheld := (hs.attached h hmem).resolve_left (by rw [hidle]; nofun)
    refine Or.inr (hheld.imp_left ?_)
    rintro ⟨m', hmem', rfl⟩
    exact ⟨m', (mem_erase_of_ne fun he => heq (congrArg _ he.symm)).mpr hmem', rfl⟩

/-- One row. -/
theorem Sound.reconcile (hs : s.Sound node) (hidle : s.job = .idle) {vol : Volume}
    (hvol : vol ∈ s.rows) : (s.reconcile node vol).Sound node := by
  fun_cases s.reconcile node vol
  · refine ⟨hs.parkedFile, hs.queue, fun v hv => ?_, fun h hmem => ?_⟩
    · exact Option.some.inj hv ▸ ⟨hvol, ‹_›⟩
    · exact Or.inr ((hs.attached h hmem).resolve_left (by rw [hidle]; nofun))
  · exact hs.release hidle _ fun _ h => nomatch h
  · refine hs.release hidle _ fun v hv => ?_
    exact Option.some.inj hv ▸ ⟨hvol, ‹_›⟩
  · exact hs
  · exact hs

/-- One task. -/
theorem Sound.handle (hs : s.Sound node) (hidle : s.job = .idle) (go : Bool) {task : Task}
    (htask : ∀ vol, task = .row vol → vol ∈ s.rows) : (s.handle node go task).Sound node := by
  have hrelease (m : TrackedMount) : (s.release m none).Sound node :=
    hs.release hidle m fun _ h => nomatch h
  fun_cases s.handle node go task
  · exact hs.reconcile hidle (htask _ rfl)
  · simp only [handleDeleted]
    split
    · exact hrelease _
    · exact hs
  · exact hrelease _
  · exact hs

/-- The volume that a job brings up still wants its disk. -/
theorem Sound.wanted_coming (hs : s.Sound node) {vol : Volume} (h : s.job.coming = some vol) :
    s.Wanted node vol.handle := by
  obtain ⟨hmem, hwant⟩ := hs.coming vol h
  exact ⟨vol, hmem, rfl, hwant⟩

/-- A teardown that detaches its disk leaves the others theirs; one that does not parks it. -/
theorem Sound.advance_release (hs : s.Sound node) {m : TrackedMount} {next : Option Volume}
    (hjob : s.job = .release m next) (ok : Bool) : (s.advance ok (.release m next)).Sound node := by
  have hcoming : ∀ vol ∈ (bringUp next).coming, vol ∈ s.rows ∧ shouldMount node vol = true := by
    intro vol hvol
    refine hs.coming vol ?_
    rw [hjob]
    cases next with
    | none => exact nomatch hvol
    | some _ => exact hvol
  have hheld : ∀ h ∈ s.attached, h ≠ m.handle → s.Held node h := fun h hmem hne =>
    (hs.attached h hmem).resolve_left fun hleaving =>
      hne (Option.some.inj ((congrArg Job.leaving hjob).symm.trans hleaving)).symm
  cases ok with
  | true =>
    refine ⟨unpark_parkedFile hs.parkedFile _, hs.queue, hcoming, fun h hmem => Or.inr ?_⟩
    obtain ⟨hmem, hne⟩ := mem_filter.mp hmem
    exact (hheld h hmem (of_decide_eq_true hne)).unpark hs.parkedFile (of_decide_eq_true hne)
  | false =>
    exact ⟨rfl, hs.queue, hcoming, fun h hmem => Or.inr (Held.park (hheld h hmem))⟩

/-- One step of a job. -/
theorem Sound.advance (hs : s.Sound node) (ok : Bool) : (s.advance ok s.job).Sound node := by
  have hheld : s.job.leaving = none → ∀ h ∈ s.attached, s.Held node h := fun hnone h hmem =>
    (hs.attached h hmem).resolve_left (by rw [hnone]; nofun)
  cases hjob : s.job with
  | idle => exact hs
  | release m next => exact hs.advance_release hjob ok
  | attach vol =>
    have hwanted := hs.wanted_coming (congrArg Job.coming hjob)
    have hheld := hheld (congrArg Job.leaving hjob)
    cases ok with
    | true =>
      refine ⟨hs.parkedFile, hs.queue, fun v hv => ?_, fun h hmem => Or.inr ?_⟩
      · exact hs.coming v (hjob ▸ hv)
      · rcases mem_cons.mp hmem with rfl | hmem
        · exact Or.inr (Or.inr hwanted)
        · exact hheld h hmem
    | false =>
      exact ⟨hs.parkedFile, hs.queue, (fun _ h => nomatch h), fun h hmem => Or.inr (hheld h hmem)⟩
  | mount vol =>
    have hheld := hheld (congrArg Job.leaving hjob)
    cases ok with
    | true =>
      refine ⟨unpark_parkedFile hs.parkedFile _, hs.queue, (fun _ h => nomatch h),
        fun h hmem => Or.inr ?_⟩
      by_cases heq : vol.handle = h
      · exact Or.inl ⟨_, mem_cons_self, heq⟩
      · refine ((hheld h hmem).unpark hs.parkedFile (Ne.symm heq)).imp_left ?_
        exact fun ⟨m, hm, heq⟩ => ⟨m, mem_cons_of_mem _ hm, heq⟩
    | false =>
      refine ⟨hs.parkedFile, hs.queue, fun v hv => ?_, fun h hmem => Or.inr (hheld h hmem)⟩
      exact hs.coming v (hjob ▸ hv)
  | undo vol =>
    have hheld := hheld (congrArg Job.leaving hjob)
    cases ok with
    | true =>
      exact ⟨hs.parkedFile, hs.queue, (fun _ h => nomatch h), fun h hmem =>
        Or.inr (hheld h (mem_filter.mp hmem).1)⟩
    | false =>
      exact ⟨hs.parkedFile, hs.queue, (fun _ h => nomatch h), fun h hmem => Or.inr (hheld h hmem)⟩

/-- A start of the agent. -/
theorem Sound.start (listed : Bool) (hheld : s.Kept node) : (s.start listed).Sound node := by
  refine ⟨rfl, fun _ h => mem_rows_of_listing h, (fun _ h => nomatch h),
    fun h hmem => Or.inr (Or.inr ?_)⟩
  exact (hheld h hmem).imp_left fun hparked => ⟨hparked.2, hparked.2⟩

/-- A drained disk is detached or parked. -/
theorem Sound.drainMounts (hs : s.Sound node) (hidle : s.job = .idle) {expired : Bool}
    (hexpired : expired = true → s.Kept node) (gone : List String) :
    (s.drainMounts expired gone).Kept node := by
  have hheld : ∀ h ∈ s.attached, s.Held node h := fun h hmem =>
    (hs.attached h hmem).resolve_left (by rw [hidle]; nofun)
  unfold Agent.drainMounts
  split_ifs with hskip
  · rcases hskip with hnone | htime
    · intro h hmem
      rcases hheld h hmem with ⟨m, hm, -⟩ | hkept
      · exact nomatch hnone ▸ hm
      · exact hkept
    · exact hexpired htime
  intro h hmem
  obtain ⟨hmem, hstays⟩ := mem_filter.mp hmem
  rcases hheld h hmem with ⟨m, hm, rfl⟩ | hp | hwanted
  · have hleft : m.handle ∉ gone := fun hgone =>
      of_decide_eq_true hstays ⟨hgone, mem_map_of_mem hm⟩
    have hin : m ∈ s.mounts.filter (·.handle ∉ gone) := mem_filter.mpr ⟨hm, decide_eq_true hleft⟩
    exact Or.inl ⟨⟨m, mem_append_left _ hin, rfl⟩, m, mem_append_left _ hin, rfl⟩
  · obtain ⟨p, hpm, rfl⟩ := hp.1
    refine Or.inl (and_self_iff.mpr ?_)
    by_cases hall : (s.mounts.filter (·.handle ∉ gone)).all (·.handle ≠ p.handle)
    · exact ⟨p, mem_append_right _ (mem_filter.mpr ⟨hpm, hall⟩), rfl⟩
    · simp only [all_eq_true, not_forall, decide_eq_true_eq, not_not] at hall
      obtain ⟨m, hm, heq⟩ := hall
      exact ⟨m, mem_append_left _ hm, heq⟩
  · exact Or.inr hwanted

/-- A row that may become `new` leaves every attached disk an owner. -/
theorem Sound.held_of_mayBecome (hs : s.Sound node) (hidle : s.Idle) {ns name : String}
    {new : Option Volume} (hnew : s.MayBecome node ns name new) {queue : List Task} :
    ∀ h ∈ s.attached, { s with rows := new.toList ++ s.others ns name, queue := queue }.Held
      node h := by
  intro h hmem
  have hwant : ∀ {vol}, vol ∈ new.toList ++ s.others ns name → shouldMount node vol = true →
      { s with rows := new.toList ++ s.others ns name, queue := queue }.Held node vol.handle :=
    fun hvol hw => Or.inr (Or.inr ⟨_, hvol, rfl, hw⟩)
  rcases (hs.attached h hmem).resolve_left (by rw [hidle.job]; nofun) with
    hm | hp | ⟨old, hold, rfl, hw⟩
  · exact Or.inl hm
  · exact Or.inr (Or.inl hp)
  · by_cases hrow : old.ns = ns ∧ old.name = name
    · rcases hnew old hold hrow hw hmem with hm | hp | ⟨vol, hvol, heq, hw⟩
      · exact Or.inl hm
      · exact Or.inr (Or.inl hp)
      · rw [← heq]
        exact hwant (mem_append_left _ (Option.mem_toList.mpr hvol)) hw
    · exact hwant (mem_append_right _
        (mem_filter.mpr ⟨hold, decide_eq_true hrow⟩)) hw

/-- Every step keeps the invariant. -/
theorem Sound.step {a : Step} {t : Agent} (hs : s.Sound node) (hc : s.Orderly node a)
    (h : Agent.step node s a = some t) : t.Sound node := by
  cases a with
  | write vol =>
    cases h
    refine ⟨hs.parkedFile, fun v hv => ?_, ?_, fun h hmem =>
      Or.inr (hs.held_of_mayBecome hc.1 hc.2 h hmem)⟩
    · rw [hc.1.queue] at hv
      exact Task.row.inj (mem_singleton.mp hv) ▸ mem_cons_self
    · rw [hc.1.job]
      exact fun _ h => nomatch h
  | delete ns name body =>
    cases h
    refine ⟨hs.parkedFile, fun v hv => ?_, ?_, fun h hmem =>
      Or.inr (hs.held_of_mayBecome hc.1 hc.2 h hmem)⟩
    · rw [hc.1.queue] at hv
      exact nomatch mem_singleton.mp hv
    · rw [hc.1.job]
      exact fun _ h => nomatch h
  | tick listed =>
    obtain ⟨-, heq⟩ := Option.ite_none_right_eq_some.mp h
    cases heq
    refine ⟨hs.parkedFile, fun vol hvol => ?_, hs.coming, hs.attached⟩
    rcases mem_append.mp hvol with hvol | hvol
    · rcases mem_append.mp hvol with hvol | hvol
      · obtain ⟨_, _, heq⟩ := mem_map.mp hvol
        exact nomatch heq
      · exact mem_rows_of_listing hvol
    · exact hs.queue vol hvol
  | take go =>
    simp only [Agent.step] at h
    split at h
    · next task rest hjob hqueue =>
      cases h
      have hrest : ({ s with queue := rest } : Agent).Sound node :=
        ⟨hs.parkedFile, fun vol hvol => hs.queue vol (hqueue ▸ mem_cons_of_mem _ hvol),
          hs.coming, hs.attached⟩
      refine hrest.handle hjob go fun vol htask => hs.queue vol ?_
      rw [hqueue, htask]
      exact mem_cons_self
    · exact nomatch h
  | advance ok =>
    obtain ⟨-, heq⟩ := Option.ite_none_left_eq_some.mp h
    exact Option.some.inj heq ▸ hs.advance ok
  | stop expired gone listed =>
    obtain ⟨hidle, heq⟩ := Option.ite_none_right_eq_some.mp h
    exact Option.some.inj heq ▸ Sound.start listed (hs.drainMounts hidle hc gone)
  | crash listed =>
    exact Option.some.inj h ▸ Sound.start listed hc

/-- Whenever the loop is idle, an attached disk is tracked, or parked in memory and in the file,
or wanted by a row bound to this node, if a row lets go of its disk only while the disk is tracked
or parked, and the process ends, or stops with its time expired, only while every disk is parked or
wanted. -/
theorem no_disk_stranded {steps : List Step} (hrun : exec (step node) {} steps = some s)
    (hsteps : Along (step node) (Orderly node) {} steps) (hidle : s.Idle) :
    ∀ h ∈ s.attached, s.InMounts h ∨ s.Parked h ∨ s.Wanted node h := by
  have hstart : Sound node {} := ⟨rfl, by simp, by simp [Job.coming], by simp⟩
  have hs : s.Sound node :=
    exec_invariant_along (fun _ _ _ hs hc h => Sound.step hs hc h) hstart hsteps hrun
  exact fun h hmem => (hs.attached h hmem).resolve_left (by rw [hidle.job]; nofun)

/-- The row of one volume, bound to `node` or to none. -/
def dataRow (node : String) : Volume :=
  { ns := "default", name := "data", handle := "disk-1", boundNode := node, status := .bound }

/-- A disk is mounted, its row unbound, and its teardown fails: it is parked. -/
def unbound : List Step :=
  [.write (dataRow "n1"), .take true, .advance true, .advance true, .write (dataRow ""),
    .take true, .advance false, .stop true [] true, .take true]

/-- A disk that is parked. -/
theorem no_disk_stranded_parked : ∃ s, exec (step "n1") {} unbound = some s ∧
    s.attached = ["disk-1"] ∧
    (s.InMounts "disk-1" ∨ s.Parked "disk-1" ∨ s.Wanted "n1" "disk-1") := by
  obtain ⟨s, hrun, hattached, hidle⟩ : ∃ s, exec (step "n1") {} unbound = some s ∧
      s.attached = ["disk-1"] ∧ s.Idle := ⟨_, rfl, rfl, rfl, rfl⟩
  have hsteps : Along (step "n1") (Orderly "n1") {} unbound := by decide +kernel
  refine ⟨s, hrun, hattached, no_disk_stranded hrun hsteps hidle _ ?_⟩
  rw [hattached]
  exact mem_singleton_self _

/-- A disk is attached, the mount is refused and the detach fails. When its row is unbound,
nothing is left that knows of it. Nor is there when the row of a tracked disk is unbound and the
subsystem stops, with its time expired, before it has seen this. -/
theorem disk_stranded :
    (∃ s : Agent, exec (step "n1") {} [.write (dataRow "n1"), .take true, .advance true,
        .advance false, .advance false, .write (dataRow ""), .take true] = some s ∧
      s.Idle ∧ s.attached = ["disk-1"] ∧ ¬ s.Held "n1" "disk-1") ∧
    ∃ s : Agent, exec (step "n1") {} [.write (dataRow "n1"), .take true, .advance true,
        .advance true, .write (dataRow ""), .stop true [] true, .take true] = some s ∧
      s.Idle ∧ s.attached = ["disk-1"] ∧ ¬ s.Held "n1" "disk-1" := by
  have hnobody : ∀ s : Agent, s.mounts = [] → s.parked = [] → s.rows = [dataRow ""] →
      ¬ s.Held "n1" "disk-1" := by
    rintro s hm hp hr (⟨m, hmem, -⟩ | ⟨⟨m, hmem, -⟩, -⟩ | ⟨vol, hvol, -, hwant⟩)
    · exact nomatch hm ▸ hmem
    · exact nomatch hp ▸ hmem
    · obtain rfl := mem_singleton.mp (hr ▸ hvol)
      exact absurd hwant (by decide)
  constructor
  · exact ⟨_, rfl, ⟨rfl, rfl⟩, rfl, hnobody _ rfl rfl rfl⟩
  · exact ⟨_, rfl, ⟨rfl, rfl⟩, rfl, hnobody _ rfl rfl rfl⟩

end Agent

end Rune.Mounts
