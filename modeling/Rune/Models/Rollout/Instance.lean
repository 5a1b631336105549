import Mathlib.Data.List.Sort

/-!
# Instances as the update planner sees them

An `InstanceView` is one live instance with its compatibility class and the
readiness facts the budget turns on. `newInstanceView` derives those facts from
the stored instance; the chain from available over ready to running is a
consequence of that derivation and not a premise.
-/

namespace Rune.Rollout

/-- An instant, as its distance in nanoseconds from the zero time. -/
abbrev Time := Int

/-- A duration in nanoseconds. -/
abbrev Duration := Int

/-- `time.Second`. -/
def second : Duration := 1000000000

/-- The outcome of comparing an instance with its service's current template. -/
inductive CompatClass
  | ok
  | broken
  | outdated
  deriving DecidableEq

/-- The stored lifecycle status of an instance. -/
inductive InstanceStatus
  | pending
  | running
  | stopped
  | failed
  | deleted
  | terminating
  | stalled
  | created
  | starting
  | exited
  | unknown
  | initializing
  deriving DecidableEq

/-- The fields of a stored instance that classification by readiness reads. -/
structure Instance where
  id : String
  name : String
  status : InstanceStatus
  ready : Bool
  /-- The zero time when the record predates the field. -/
  createdAt : Time
  lastTransitionAt : Option Time
  readyChangedAt : Option Time
  deriving DecidableEq

/-- An instance with no recorded readiness verdict counts as ready. -/
def Instance.isReady (i : Instance) : Bool := i.readyChangedAt.isNone || i.ready

/-- One instance with its class and readiness facts. -/
structure InstanceView where
  inst : Instance
  cls : CompatClass
  /-- The stored status is running: the instance is in the endpoint set. -/
  running : Bool
  /-- Running, and not withdrawn by its readiness probe. -/
  ready : Bool
  /-- Ready, and held running for at least the minimum-ready window. -/
  available : Bool
  /-- Already being torn down. -/
  terminating : Bool
  deriving DecidableEq

namespace InstanceView

/-- The key under which the planner remembers a retirement. -/
def id (v : InstanceView) : String := v.inst.id

/-- The instance is in the dataplane's endpoint set. -/
def routed (v : InstanceView) : Bool := v.running && !v.terminating

/-- The only notion of carrying traffic that the availability budget counts. -/
def serving (v : InstanceView) : Bool := v.available && !v.terminating && v.cls != .broken

/-- What the dataplane can use: in the endpoint set and able to answer, whether
or not the minimum-ready window has passed. -/
def working (v : InstanceView) : Bool := v.ready && !v.terminating && v.cls != .broken

/-- The readiness facts of a view are ordered as `newInstanceView` derives them. -/
@[mk_iff] structure Staged (v : InstanceView) : Prop where
  ready_of_available : v.available = true → v.ready = true
  running_of_ready : v.ready = true → v.running = true

instance (v : InstanceView) : Decidable v.Staged :=
  decidable_of_iff' _ v.staged_iff

variable {v : InstanceView}

/-- Serving is the stronger of the two notions of carrying traffic. -/
theorem Staged.working_of_serving (h : v.Staged) (hs : v.serving = true) : v.working = true := by
  simp only [serving, working, Bool.and_eq_true] at hs ⊢
  exact ⟨⟨h.ready_of_available hs.1.1, hs.1.2⟩, hs.2⟩

theorem Staged.not_serving_of_not_ready (h : v.Staged) (hr : v.ready = false) :
    v.serving = false := by
  cases ha : v.available with
  | false => simp [serving, ha]
  | true => simp [h.ready_of_available ha] at hr

theorem not_serving_of_broken (h : v.cls = .broken) : v.serving = false := by
  simp [serving, h]

theorem not_serving_of_terminating (h : v.terminating = true) : v.serving = false := by
  simp [serving, h]

theorem not_working_of_terminating (h : v.terminating = true) : v.working = false := by
  simp [working, h]

end InstanceView

/-- The later of the last status change and the last readiness change, where
the minimum-ready window starts. -/
def Instance.readySince (inst : Instance) : Option Time :=
  match inst.readyChangedAt, inst.lastTransitionAt with
  | some changed, none => some changed
  | some changed, some since => if since < changed then some changed else some since
  | none, since => since

/-- Derive the readiness facts of a live instance. An instance with no recorded
transition counts as available once it is ready. -/
def newInstanceView (inst : Instance) (cls : CompatClass) (minReady : Duration) (now : Time) :
    InstanceView :=
  let running := inst.status == .running
  let ready := running && inst.isReady
  let available := match inst.readySince with
    | some since =>
      if ready && decide (0 < minReady) then decide (minReady ≤ now - since) else ready
    | none => ready
  { inst, cls, running, ready, available, terminating := inst.status == .terminating }

/-- The comparison of `sortOldestFirst`: by creation time, and by name where
neither instance has one. -/
def Instance.createdBefore (a b : Instance) : Bool :=
  if a.createdAt ≠ 0 ∨ b.createdAt ≠ 0 then decide (a.createdAt < b.createdAt)
  else decide (a.name < b.name)

/-- The comparison is by creation time, and by name where both times are the zero time. -/
theorem Instance.createdBefore_iff {a b : Instance} : a.createdBefore b = true ↔
    a.createdAt < b.createdAt ∨ a.createdAt = 0 ∧ b.createdAt = 0 ∧ a.name < b.name := by
  unfold Instance.createdBefore
  split_ifs with h
  · rw [decide_eq_true_iff]
    exact ⟨.inl, fun h' => h'.resolve_right fun h' => h.elim (· h'.1) (· h'.2.1)⟩
  · obtain ⟨ha, hb⟩ := not_or.mp h
    rw [decide_eq_true_iff, not_not.mp ha, not_not.mp hb]
    simp

/-- Of two instances of different age, every third one is younger than the one or older than the
other. -/
theorem Instance.createdBefore_or {a c : Instance} (h : c.createdBefore a = true) (b : Instance) :
    b.createdBefore a = true ∨ c.createdBefore b = true := by
  simp only [Instance.createdBefore_iff] at h ⊢
  rcases h with h | ⟨hc, ha, h⟩
  · rcases lt_or_ge b.createdAt a.createdAt with hb | hb
    · exact .inl (.inl hb)
    · exact .inr (.inl (h.trans_le hb))
  · rw [hc, ha]
    rcases lt_trichotomy b.createdAt 0 with hb | hb | hb
    · exact .inl (.inl hb)
    · by_cases hname : b.name < a.name
      · exact .inl (.inr ⟨hb, rfl, hname⟩)
      · refine .inr (.inr ⟨rfl, hb, String.not_le.mp fun hle => ?_⟩)
        exact String.not_le.mpr h (String.le_trans (String.not_lt.mp hname) hle)
    · exact .inr (.inl hb)

/-- Of two instances at most one is older. -/
theorem Instance.createdBefore_asymm {a b : Instance} (h : a.createdBefore b = true) :
    b.createdBefore a = false := by
  rw [← Bool.not_eq_true, Instance.createdBefore_iff]
  rw [Instance.createdBefore_iff] at h
  rintro (h' | h')
  · rcases h with h | h
    · exact h.asymm h'
    · exact h'.ne (h.2.1.trans h.1.symm)
  · rcases h with h | h
    · exact h.ne (h'.2.1.trans h'.1.symm)
    · exact String.lt_asymm h.2.2 h'.2.2

/-- The comparison of the sort is total. -/
instance : Std.Total fun a b : InstanceView => b.inst.createdBefore a.inst = false where
  total a b := by
    cases h : b.inst.createdBefore a.inst with
    | false => exact .inl rfl
    | true => exact .inr (Instance.createdBefore_asymm h)

/-- The comparison of the sort is transitive. -/
instance : IsTrans InstanceView fun a b => b.inst.createdBefore a.inst = false where
  trans a b c hab hbc := by
    rw [← Bool.not_eq_true] at hab hbc ⊢
    exact fun h => (Instance.createdBefore_or h b.inst).elim hab hbc

/-- Stable sort by creation time, oldest first. -/
def sortOldestFirst (vs : List InstanceView) : List InstanceView :=
  vs.insertionSort fun a b => b.inst.createdBefore a.inst = false

theorem sortOldestFirst_perm (vs : List InstanceView) : (sortOldestFirst vs).Perm vs :=
  List.perm_insertionSort _ vs

@[simp] theorem length_sortOldestFirst (vs : List InstanceView) :
    (sortOldestFirst vs).length = vs.length := (sortOldestFirst_perm vs).length_eq

theorem mem_sortOldestFirst {vs : List InstanceView} {v : InstanceView} :
    v ∈ sortOldestFirst vs ↔ v ∈ vs := (sortOldestFirst_perm vs).mem_iff

end Rune.Rollout
