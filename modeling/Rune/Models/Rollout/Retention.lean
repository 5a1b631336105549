import Mathlib.Data.List.Dedup
import Rune.Models.Rollout.Instance

/-!
# How long failed instances are kept

The sweep sorts the failed instances of a service, those with logs first and newer before older
ones, and walks over them: an instance goes if it is too old or if too many stand before it.
The ones that go for their age are still counted.
-/

namespace Rune.Rollout.Retention

open List

/-- The fields of a stored instance that the sweep reads. -/
structure Instance where
  id : String
  ns : String
  serviceName : String
  status : InstanceStatus
  failedAt : Option ℤ := none
  lastLogs : List UInt8 := []
  deriving DecidableEq

variable (ttl : ℤ) (cap : ℕ) (now : ℤ)

/-- The instance has failed and is kept for a while. -/
def Instance.isTombstone (inst : Instance) : Bool :=
  inst.status = .failed ∧ inst.failedAt.isSome

/-- The service of an instance. -/
def Instance.key (inst : Instance) : String := inst.ns ++ "/" ++ inst.serviceName

/-- The failure is longer ago than is kept. -/
def Instance.tooOld (inst : Instance) : Bool := 0 < ttl ∧ ttl < now - inst.failedAt.getD 0

/-- The order of the tombstones of a service. -/
def Instance.ahead (x y : Instance) : Bool :=
  if x.lastLogs.isEmpty ≠ y.lastLogs.isEmpty then !x.lastLogs.isEmpty
  else y.failedAt.getD 0 < x.failedAt.getD 0

/-- The tombstones of a service in their order. -/
def tombs (instances : List Instance) (key : String) : List Instance :=
  (instances.filter fun inst => inst.isTombstone ∧ inst.key = key).insertionSort
    fun x y => y.ahead x = false

/-- The walk over the tombstones of a service: those that are evicted. -/
def evictions (tombs : List Instance) : List Instance :=
  (tombs.zipIdx.filter fun (t, i) => t.tooOld ttl now ∨ 0 < cap ∧ cap ≤ i).map Prod.fst

/-- The instances that are given to `DeleteInstance`. In which order the services come is left
open by the source. -/
def gcFailedInstances (instances : List Instance) : List Instance :=
  ((instances.filter Instance.isTombstone).map Instance.key).dedup.flatMap fun key =>
    evictions ttl cap now (tombs instances key)

/-- The tombstones of the same service that have not expired and are ahead of this one. -/
def freshAhead (instances : List Instance) (t : Instance) : ℕ :=
  instances.countP fun x => x.isTombstone ∧ x.ns = t.ns ∧ x.serviceName = t.serviceName ∧
    ¬ x.tooOld ttl now ∧ x.ahead t

/-- The tombstones under the same key that are ahead of this one, whether they have expired or
not. -/
def keyAhead (instances : List Instance) (t : Instance) : ℕ :=
  instances.countP fun x => x.isTombstone ∧ x.key = t.key ∧ x.ahead t

variable {ttl cap now} {instances : List Instance} {t : Instance} {key : String}

theorem mem_tombs :
    t ∈ tombs instances key ↔ t ∈ instances ∧ t.isTombstone = true ∧ t.key = key := by
  simp [tombs, mem_insertionSort]

/-- What is evicted. -/
theorem mem_evictions {l : List Instance} :
    t ∈ evictions ttl cap now l ↔
      ∃ i, l[i]? = some t ∧ (t.tooOld ttl now = true ∨ 0 < cap ∧ cap ≤ i) := by
  simp [evictions, mem_zipIdx_iff_getElem?]

/-- In a list in strict order, the place of an element is the number of those ahead of it. -/
theorem countP_of_getElem? {α : Type} {r : α → α → Bool} (hself : ∀ a, r a a = false)
    {l : List α} (h : l.Pairwise fun x y => r x y = true ∧ r y x = false) {i : ℕ} {a : α}
    (hi : l[i]? = some a) : l.countP (fun x => r x a) = i := by
  induction l generalizing i with
  | nil => cases hi
  | cons x l ih =>
    obtain ⟨hx, hl⟩ := pairwise_cons.mp h
    cases i with
    | zero =>
      obtain rfl : x = a := by simpa using hi
      rw [countP_cons_of_neg (by simp [hself]), countP_eq_zero]
      exact fun y hy => by simp [(hx y hy).2]
    | succ i =>
      rw [getElem?_cons_succ] at hi
      have hpos : r x a = true := (hx a (mem_of_getElem? hi)).1
      rw [countP_cons, ih hl hi, if_pos hpos]

theorem ahead_self (x : Instance) : x.ahead x = false := by simp [Instance.ahead]

/-- Two tombstones that failed at different times are in a strict order. -/
theorem ahead_of_not {x y : Instance} (hx : x.isTombstone = true) (hy : y.isTombstone = true)
    (hne : x.failedAt ≠ y.failedAt) (h : y.ahead x = false) : x.ahead y = true := by
  simp only [Instance.isTombstone, decide_eq_true_eq, Option.isSome_iff_exists] at hx hy
  obtain ⟨-, a, ha⟩ := hx
  obtain ⟨-, b, hb⟩ := hy
  simp only [ha, hb, ne_eq, Option.some.injEq] at hne
  simp only [Instance.ahead, ha, hb, Option.getD_some] at h ⊢
  grind

/-- The place of a tombstone among those of its service. -/
theorem keyAhead_of_getElem? {i : ℕ}
    (hdistinct : ((instances.filter Instance.isTombstone).map Instance.failedAt).Nodup)
    (hi : (tombs instances key)[i]? = some t) : keyAhead instances t = i := by
  obtain ⟨-, -, rfl⟩ := mem_tombs.mp (mem_of_getElem? hi)
  let r : Instance → Instance → Prop := fun x y => y.ahead x = false
  have : Std.Total r := ⟨fun x y => by simp only [r, Instance.ahead]; grind⟩
  have : IsTrans Instance r := ⟨fun x y z => by simp only [r, Instance.ahead]; grind⟩
  have hperm : (tombs instances t.key).Perm
      (instances.filter fun x => x.isTombstone ∧ x.key = t.key) := perm_insertionSort r _
  have hsorted : (tombs instances t.key).Pairwise r := pairwise_insertionSort r _
  have htimes : (tombs instances t.key).Pairwise fun x y => x.failedAt ≠ y.failedAt := by
    refine pairwise_map.mp ((hperm.map _).nodup_iff.mpr (hdistinct.sublist ?_))
    exact (monotone_filter_right _ fun x hx => (by simpa using hx : _ ∧ _).1).map _
  have htomb : ∀ x ∈ tombs instances t.key, x.isTombstone = true := fun x hx =>
    (mem_tombs.mp hx).2.1
  have hcount : keyAhead instances t = (tombs instances t.key).countP fun x => x.ahead t := by
    rw [hperm.countP_eq, countP_filter]
    refine countP_congr fun x _ => ?_
    simp only [decide_eq_true_eq, Bool.and_eq_true]
    tauto
  rw [hcount]
  refine countP_of_getElem? ahead_self ((hsorted.and htimes).imp_of_mem ?_) hi
  intro x y hx hy ⟨hnot, hne⟩
  exact ⟨ahead_of_not (htomb x hx) (htomb y hy) hne hnot, hnot⟩

/-- A failed instance goes exactly if it is too old or if enough others under its key are ahead of
it. -/
theorem mem_gcFailedInstances (hcap : 0 < cap)
    (hdistinct : ((instances.filter Instance.isTombstone).map Instance.failedAt).Nodup) :
    t ∈ gcFailedInstances ttl cap now instances ↔
      t ∈ instances ∧ t.isTombstone = true ∧
        (t.tooOld ttl now = true ∨ cap ≤ keyAhead instances t) := by
  simp only [gcFailedInstances, mem_flatMap, mem_dedup]
  constructor
  · rintro ⟨key, -, hev⟩
    obtain ⟨i, hi, hgoes⟩ := mem_evictions.mp hev
    obtain ⟨hin, htomb, rfl⟩ := mem_tombs.mp (mem_of_getElem? hi)
    rw [keyAhead_of_getElem? hdistinct hi]
    exact ⟨hin, htomb, hgoes.imp_right And.right⟩
  · rintro ⟨hin, htomb, hgoes⟩
    obtain ⟨i, hi⟩ := mem_iff_getElem?.mp (mem_tombs.mpr ⟨hin, htomb, rfl⟩)
    rw [keyAhead_of_getElem? hdistinct hi] at hgoes
    exact ⟨t.key, mem_map_of_mem (mem_filter.mpr ⟨hin, htomb⟩),
      mem_evictions.mpr ⟨i, hi, hgoes.imp_right fun h => ⟨hcap, h⟩⟩⟩

theorem freshAhead_le_keyAhead : freshAhead ttl now instances t ≤ keyAhead instances t := by
  refine countP_mono_left fun x _ hx => ?_
  obtain ⟨htomb, hns, hservice, -, hahead⟩ := of_decide_eq_true hx
  exact decide_eq_true ⟨htomb, by rw [Instance.key, hns, hservice]; rfl, hahead⟩

/-- The failed instances that go are those that are too old or have enough unexpired ones of their
service ahead of them, and no other instance goes, exactly if no unexpired one gets behind the cap
by those ahead of it that have expired or only share its key. -/
theorem mem_gcFailedInstances_iff (hcap : 0 < cap)
    (hdistinct : ((instances.filter Instance.isTombstone).map Instance.failedAt).Nodup) :
    (∀ t, t ∈ gcFailedInstances ttl cap now instances ↔
      t ∈ instances ∧ t.isTombstone = true ∧
        (t.tooOld ttl now = true ∨ cap ≤ freshAhead ttl now instances t)) ↔
    ∀ t ∈ instances, t.isTombstone = true → t.tooOld ttl now = false →
      cap ≤ keyAhead instances t → cap ≤ freshAhead ttl now instances t := by
  simp only [mem_gcFailedInstances hcap hdistinct]
  constructor
  · intro hgoes t hin htomb hyoung hcount
    obtain ⟨-, -, hold | hfresh⟩ := (hgoes t).mp ⟨hin, htomb, .inr hcount⟩
    · exact absurd (hyoung.symm.trans hold) Bool.false_ne_true
    · exact hfresh
  · intro hcount t
    refine and_congr_right fun hin => and_congr_right fun htomb => or_congr_right' fun hyoung => ?_
    exact ⟨hcount t hin htomb (by simpa using hyoung), freshAhead_le_keyAhead.trans'⟩

/-- A failed instance of `web`, with logs or without. -/
def webFailed (id : String) (failedAt : ℤ) (logs : Bool) : Instance where
  id := id
  ns := "default"
  serviceName := "web"
  status := .failed
  failedAt := some failedAt
  lastLogs := if logs then [1] else []

/-- One tombstone that has expired and three that have not. -/
def threeFresh : List Instance :=
  [webFailed "a" 1 true, webFailed "b" 18 true, webFailed "c" 19 true, webFailed "d" 17 false]

/-- An expired tombstone is ahead of a fresh one, but the cap is not reached by the two; the one
that goes beside it has two fresh ones ahead of it. -/
theorem mem_gcFailedInstances_iff_threeFresh :
    webFailed "a" 1 true ∈ gcFailedInstances 10 2 20 threeFresh ∧
      webFailed "b" 18 true ∉ gcFailedInstances 10 2 20 threeFresh ∧
      webFailed "c" 19 true ∉ gcFailedInstances 10 2 20 threeFresh ∧
      webFailed "d" 17 false ∈ gcFailedInstances 10 2 20 threeFresh := by
  have hgoes :=
    (@mem_gcFailedInstances_iff 10 2 20 threeFresh (by decide) (by decide)).mpr (by decide)
  simp only [hgoes]
  decide

/-- An expired tombstone with logs takes the place of a fresh one without: it is evicted with
none that is kept ahead of it. -/
theorem fresh_tombstone_evicted :
    webFailed "b" 19 false ∈
      gcFailedInstances 10 1 20 [webFailed "a" 1 true, webFailed "b" 19 false] ∧
    (webFailed "b" 19 false).tooOld 10 20 = false ∧
    freshAhead 10 20 [webFailed "a" 1 true, webFailed "b" 19 false]
      (webFailed "b" 19 false) = 0 := by
  decide

end Rune.Rollout.Retention
