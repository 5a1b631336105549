import Rune.Core.Run
import Rune.Models.Rollout.Floor
import Rune.Models.Rollout.Tick

/-!
# Convergence of rolling updates

A tick plans, applies the plan and lets the fleet settle: current-template instances
become serving and ready instances become available, while outdated instances keep
their readiness. After the first tick nothing is broken. From there on every tick
that sees an outdated instance retires one or creates a replacement, so there are at
most as many such ticks as outdated instances times the scale; two more reach the
desired scale.
-/

namespace Rune.Rollout

open Rune.Core UpdateInput List

/-- What happens to an instance between two ticks. -/
def settle (v : InstanceView) : InstanceView :=
  if v.cls = .ok then { v with running := true, ready := true, available := true }
  else if v.ready then { v with available := true }
  else v

@[simp] theorem settle_cls (v : InstanceView) : (settle v).cls = v.cls := by
  unfold settle
  split_ifs <;> rfl

@[simp] theorem settle_id (v : InstanceView) : (settle v).id = v.id := by
  unfold settle
  split_ifs <;> rfl

@[simp] theorem settle_terminating (v : InstanceView) :
    (settle v).terminating = v.terminating := by
  unfold settle
  split_ifs <;> rfl

theorem settle_available_of_ok {v : InstanceView} (h : v.cls = .ok) :
    (settle v).available = true := by
  simp [settle, h]

theorem settle_available_of_ready {v : InstanceView} (h : (settle v).ready = true) :
    (settle v).available = true := by
  by_cases hc : v.cls = .ok
  · exact settle_available_of_ok hc
  · by_cases hr : v.ready = true
    · simp [settle, hc, hr]
    · simp [settle, hc, hr] at h

/-- Plan, apply, create and settle. -/
def Tick (u : UpdateInput) (t : List InstanceView) : Prop :=
  ∃ fresh, Creates u fresh ∧ t = (applyPlan u fresh).map settle

/-- A fleet of distinct instances, none of which is tearing down. -/
structure Fleet (s : List InstanceView) : Prop where
  distinct : DistinctKeys InstanceView.id s
  not_terminating : ∀ v ∈ s, v.terminating = false

/-- A fleet as a tick leaves it. -/
structure Settled (s : List InstanceView) : Prop extends Fleet s where
  not_broken : ∀ v ∈ s, v.cls ≠ .broken
  available_of_ok : ∀ v ∈ s, v.cls = .ok → v.available = true
  available_of_ready : ∀ v ∈ s, v.ready = true → v.available = true

variable {u : UpdateInput} {s t : List InstanceView}

@[simp] theorem countP_isClass_map_settle (c : CompatClass) (l : List InstanceView) :
    (l.map settle).countP (InstanceView.isClass c) = l.countP (InstanceView.isClass c) := by
  rw [countP_map]
  congr 1
  funext v
  simp [InstanceView.isClass]

/-- Whatever the fleet was before, a tick leaves it settled. -/
theorem Tick.settled (h : Tick u t) (hs : Fleet u.instances) : Settled t := by
  obtain ⟨fresh, hf, rfl⟩ := h
  have hmem : ∀ w ∈ (applyPlan u fresh).map settle, ∃ v ∈ applyPlan u fresh, settle v = w :=
    fun w hw => mem_map.mp hw
  refine { distinct := ?_, not_terminating := ?_, not_broken := ?_, available_of_ok := ?_,
           available_of_ready := ?_ }
  · have hid : (InstanceView.id ∘ settle) = InstanceView.id := funext settle_id
    rw [DistinctKeys, map_map, hid]
    exact hf.distinct
  · intro w hw
    obtain ⟨v, hv, rfl⟩ := hmem w hw
    rw [settle_terminating]
    rcases mem_applyPlan.mp hv with ⟨hm, _⟩ | hm
    · exact hs.not_terminating v hm
    · exact hf.not_terminating v hm
  · intro w hw
    obtain ⟨v, hv, rfl⟩ := hmem w hw
    rw [settle_cls]
    exact not_broken_of_mem_applyPlan hf hs.distinct hs.not_terminating hv
  · intro w hw hc
    obtain ⟨v, _, rfl⟩ := hmem w hw
    exact settle_available_of_ok (by simpa using hc)
  · intro w hw hr
    obtain ⟨v, _, rfl⟩ := hmem w hw
    exact settle_available_of_ready hr

section Counts

variable (h : Tick u t) (hs : Fleet u.instances)
include h hs

theorem Tick.outdatedCount_add :
    outdatedCount t + u.retired.countP (InstanceView.isClass .outdated) =
      outdatedCount u.instances := by
  obtain ⟨fresh, hf, rfl⟩ := h
  rw [outdatedCount, countP_isClass_map_settle]
  exact hf.outdated_applyPlan hs.distinct

theorem Tick.okCount_add : okCount t + u.retired.countP (InstanceView.isClass .ok) =
    okCount u.instances + (planUpdate u).create.toNat + u.repair.length := by
  obtain ⟨fresh, hf, rfl⟩ := h
  rw [okCount, countP_isClass_map_settle]
  exact hf.ok_applyPlan hs.distinct

end Counts

theorem create_eq : u.create = max 0 (min (u.scale + u.allowance - u.survivors.length)
    (u.scale - u.currentTemplate - u.repair.length)) := u.create_eq_max

theorem planUpdate_create_of_not_recreates (hr : u.recreates = false) :
    (planUpdate u).create = u.create := by
  rw [planUpdate_create, hr, if_neg (by decide)]

namespace Settled

variable (hs : Settled u.instances)
include hs

theorem nonTerminating_eq : u.nonTerminating = u.instances :=
  filter_eq_self.mpr fun v hv => by simp [hs.not_terminating v hv]

theorem broken_eq : u.broken = [] := by
  apply filter_eq_nil_iff.mpr
  intro v hv
  simpa using hs.not_broken v (by simpa only [hs.nonTerminating_eq] using hv)

theorem repair_eq : u.repair = [] := by
  rw [repair, hs.broken_eq, filter_nil]

theorem outdated_length : u.outdated.length = outdatedCount u.instances := by
  rw [outdated, hs.nonTerminating_eq, outdatedCount, countP_eq_length_filter]
  rfl

theorem length_eq :
    u.instances.length = outdatedCount u.instances + okCount u.instances := by
  have hbroken : brokenCount u.instances = 0 :=
    countP_eq_zero_of_forall fun v hv => beq_eq_false_iff_ne.mpr (hs.not_broken v hv)
  rw [length_eq_counts, hbroken, Nat.add_zero]

theorem serving_of_ok {v : InstanceView} (hv : v ∈ u.instances) (hc : v.cls = .ok) :
    v.serving = true := by
  simp [InstanceView.serving, hs.available_of_ok v hv hc, hs.not_terminating v hv, hc]

theorem serving_of_ready {v : InstanceView} (hv : v ∈ u.instances) (hr : v.ready = true) :
    v.serving = true := by
  simp [InstanceView.serving, hs.available_of_ready v hv hr, hs.not_terminating v hv,
    hs.not_broken v hv]

/-- With nothing broken and every current instance serving, scale-down reaches
a current instance only after all the outdated ones. -/
theorem order_split : ∃ old new, u.order = old ++ new ∧
    (∀ v ∈ old, v.isClass .outdated = true) ∧ (∀ v ∈ new, v.isClass .outdated = false) ∧
    old.length = outdatedCount u.instances := by
  have hfresh : (splitByAvailability u.current).1 = [] := by
    apply filter_eq_nil_iff.mpr
    intro v hv
    obtain ⟨hm, hc⟩ := mem_filter.mp hv
    rw [hs.nonTerminating_eq] at hm
    simp [hs.serving_of_ok hm (by simpa using hc)]
  refine ⟨sortOldestFirst (splitByAvailability u.outdated).1 ++
    sortOldestFirst (splitByAvailability u.outdated).2,
    sortOldestFirst (splitByAvailability u.current).2, ?_, ?_, ?_, ?_⟩
  · rw [order, excessOrder, hs.broken_eq, hfresh]
    simp [sortOldestFirst]
  · intro v hv
    simp only [mem_append, mem_sortOldestFirst, splitByAvailability, mem_filter] at hv
    rcases hv with hv | hv
    · exact (mem_filter.mp hv.1).2
    · exact (mem_filter.mp hv.1).2
  · intro v hv
    simp only [mem_sortOldestFirst, splitByAvailability, mem_filter] at hv
    have hc := (mem_filter.mp hv.1).2
    simp only [beq_iff_eq] at hc
    simp [InstanceView.isClass, hc]
  · rw [← hs.outdated_length, ← (splitByAvailability_perm u.outdated).length_eq]
    simp

/-- Scale-down takes outdated instances as long as there are any. -/
theorem countP_retireExcess : u.retireExcess.countP (InstanceView.isClass .outdated) =
    min u.excess.toNat (outdatedCount u.instances) := by
  obtain ⟨old, new, horder, hold, hnew, hlen⟩ := hs.order_split
  rw [retireExcess, horder, take_append, countP_append,
    countP_eq_length.mpr fun v hv => hold v (mem_of_mem_take hv),
    countP_eq_zero_of_forall fun v hv => hnew v (mem_of_mem_take hv), length_take, hlen,
    Nat.add_zero]

theorem currentTemplate_add (hr : u.recreates = false) :
    u.currentTemplate + u.retired.countP (InstanceView.isClass .ok) = okCount u.instances := by
  have hcongr : ∀ l : List InstanceView, l ⊆ u.instances →
      l.countP (fun v => !v.terminating && v.cls == .ok) =
        l.countP (InstanceView.isClass .ok) := by
    intro l hl
    apply countP_congr
    intro v hv
    simp [hs.not_terminating v (hl hv)]
  have hret : u.retired ⊆ u.instances := by
    simpa only [hs.nonTerminating_eq] using retired_subset (u := u) hs.distinct
  have hcount := countP_remaining (u := u) hs.distinct fun v => !v.terminating && v.cls == .ok
  rw [hcongr _ hret, hcongr u.instances (List.Subset.refl _)] at hcount
  rw [currentTemplate_eq hr]
  exact_mod_cast hcount

/-- With no excess everything survives step 1. -/
theorem survivors_eq (hex : u.excess ≤ 0) : u.survivors = u.instances := by
  rw [survivors_eq_without, retireExcess_eq_nil hex, hs.nonTerminating_eq]
  exact without_nil_keys _ _

theorem mem_liveOutdated_iff (hex : u.excess ≤ 0) {v : InstanceView} :
    v ∈ u.liveOutdated ↔ v ∈ u.instances ∧ v.cls = .outdated := by
  rw [mem_liveOutdated, hs.survivors_eq hex]

/-- Nothing is charged against step 3b on behalf of current-template instances. -/
theorem waiting_eq_zero : u.waiting = 0 := by
  have hcount : u.instances.countP (fun v => v.cls == .ok && !v.terminating &&
      !isRetired u.retireUnrouted v && !v.serving) = 0 := by
    apply countP_eq_zero_of_forall
    intro v hv
    by_cases hc : v.cls = .ok
    · simp [hs.serving_of_ok hv hc]
    · simp [hc]
  rw [waiting]
  exact_mod_cast hcount

/-- If nothing outdated is retired, no outdated instance is withdrawn while
step 3b has budget, so all of them serve. -/
theorem serving_of_none_retired (hcreates : u.createsBlocked = false) (hex : u.excess ≤ 0)
    (hr : u.recreates = false) (hnone : ∀ v ∈ u.retired, v.cls ≠ .outdated)
    (hbudget : 0 < u.unreadyBudget) :
    (∀ v ∈ u.instances, v.serving = true) ∧ u.traded = [] ∧ u.retireUnready = [] := by
  have hdist : u.Distinct := hs.distinct
  have hret := retired_eq_of_steps hdist hr
  have hnil : ∀ l : List InstanceView, l ⊆ u.liveOutdated → l ⊆ u.retired → l = [] := by
    intro l hlive hl
    apply eq_nil_iff_forall_not_mem.mpr
    intro v hv
    exact hnone v (hl hv) (mem_liveOutdated.mp (hlive hv)).2
  have hunrouted : u.unrouted = [] := hnil _ u.unrouted_subset fun v hv => by simp [hret, hv]
  have hunready : u.unready = [] := hnil _ u.unready_subset fun v hv => by simp [hret, hv]
  have htraded : u.traded = [] := hnil _ u.traded_subset fun v hv => by simp [hret, hv]
  have hrouted : u.retireUnrouted = [] := by
    rw [retireUnrouted_eq hdist, retireExcess_eq_nil hex, hunrouted, append_nil]
  refine ⟨?_, htraded, by rw [retireUnready_eq hdist, hrouted, hunready, append_nil]⟩
  have hwithdrawn : u.withdrawn = [] := by
    rw [unready, hcreates] at hunready
    rcases take_eq_nil_iff.mp hunready with hzero | hw
    · omega
    · exact hw
  intro v hv
  cases hc : v.cls with
  | ok => exact hs.serving_of_ok hv hc
  | broken => exact absurd hc (hs.not_broken v hv)
  | outdated =>
    have hlive : v ∈ u.liveOutdated := (hs.mem_liveOutdated_iff hex).mpr ⟨hv, hc⟩
    have hrunning : v.running = true := by
      have hm := filter_eq_nil_iff.mp hunrouted v hlive
      simpa [InstanceView.routed, hs.not_terminating v hv] using hm
    have hready := filter_eq_nil_iff.mp hwithdrawn v hlive
    apply hs.serving_of_ready hv
    simpa [hrunning, hrouted, isRetired] using hready

variable (hparams : u.params.Derived u.scale) (hcreates : u.createsBlocked = false)
include hparams hcreates

/-- A tick that retires nothing outdated, although nothing is in excess, has
room for a replacement. -/
theorem create_pos (ho : 0 < outdatedCount u.instances) (hex : u.excess ≤ 0)
    (hr : u.recreates = false) (hnone : ∀ v ∈ u.retired, v.cls ≠ .outdated) :
    0 < u.create ∧ (okCount u.instances : Int) < u.scale := by
  have hlen := hs.length_eq
  have hallow : u.allowance = u.params.extra := by
    rw [allowance, hs.outdated_length, if_pos ho]
  have hlive : u.live = u.instances.length := by rw [live, hs.survivors_eq hex]
  have hcreate := create_eq (u := u)
  rw [hs.survivors_eq hex] at hcreate
  have hcur := hs.currentTemplate_add hr
  have hrepair : u.repair.length = 0 := by rw [hs.repair_eq, length_nil]
  have hextra := hparams.extra_nonneg
  by_cases hfew : (u.instances.length : Int) < u.scale
  · omega
  have hbudget : u.unreadyBudget = max u.params.dip 1 - max (u.scale - u.live) 0 - u.waiting := rfl
  have hwaiting := hs.waiting_eq_zero
  obtain ⟨hserving, htraded, hnoneUnready⟩ :=
    hs.serving_of_none_retired hcreates hex hr hnone (by omega)
  have havail : u.available = u.instances.length := by
    rw [available, hs.survivors_eq hex, countP_eq_length.mpr hserving]
  obtain ⟨v, hv, hc⟩ := countP_pos_iff.mp ho
  have hmem : v ∈ u.liveOutdated :=
    (hs.mem_liveOutdated_iff hex).mpr ⟨hv, InstanceView.isClass_iff.mp hc⟩
  have hspent : u.retireBudget ≤ 0 := by
    have hstands : v ∈ u.budgetedOutdated := by
      rw [mem_budgetedOutdated, hnoneUnready]
      exact ⟨hmem, not_mem_nil⟩
    rcases take_eq_nil_iff.mp htraded with hzero | hnil
    · omega
    · rw [hnil] at hstands
      cases hstands
  have hretire : u.retireBudget = u.available - (u.scale - u.params.dip) := rfl
  cases hparams with
  | rolling _ _ _ hstep => omega
  | recreate ht _ _ =>
    have htrue := recreates_iff.mpr ⟨ht, ne_nil_of_mem hmem⟩
    rw [htrue] at hr
    cases hr

/-- Every tick of an update in flight retires an outdated instance, or leaves the
outdated ones alone and creates a replacement below the scale. -/
theorem progress (h : Tick u t) (ho : 0 < outdatedCount u.instances) :
    outdatedCount t < outdatedCount u.instances ∨
      outdatedCount t = outdatedCount u.instances ∧ okCount u.instances < okCount t ∧
        (okCount u.instances : Int) < u.scale := by
  have hdist : u.Distinct := hs.distinct
  have hout := h.outdatedCount_add hs.toFleet
  have hok := h.okCount_add hs.toFleet
  by_cases hsome : ∃ v ∈ u.retired, v.isClass .outdated = true
  · left
    have hpos := countP_pos_iff.mpr hsome
    omega
  right
  have hnone : ∀ v ∈ u.retired, v.cls ≠ .outdated := by
    intro v hv hc
    exact hsome ⟨v, hv, InstanceView.isClass_iff.mpr hc⟩
  have hex : u.excess ≤ 0 := by
    by_contra hpos
    have hcount := hs.countP_retireExcess
    have hgt : 0 < u.retireExcess.countP (InstanceView.isClass .outdated) := by omega
    obtain ⟨v, hv, hc⟩ := countP_pos_iff.mp hgt
    exact hsome ⟨v, retireExcess_subset_retired hdist hv, hc⟩
  have hr : u.recreates = false := by
    apply Bool.eq_false_iff.mpr
    intro hr
    obtain ⟨v, hv⟩ := exists_mem_of_ne_nil _ (recreates_iff.mp hr).2
    have hmem : v ∈ u.retired := by
      rw [retired, if_pos hr]
      exact mem_append_right _ hv
    exact hnone v hmem (mem_liveOutdated.mp hv).2
  obtain ⟨hcreate, hroom⟩ := hs.create_pos hparams hcreates ho hex hr hnone
  have hplan := planUpdate_create_of_not_recreates hr
  have hzero : u.retired = [] := by
    apply eq_nil_iff_forall_not_mem.mpr
    intro v hv
    rcases mem_retired hdist hv with hv' | hv'
    · rw [retireExcess_eq_nil hex] at hv'
      cases hv'
    · exact hnone v hv (mem_liveOutdated.mp hv').2
  rw [hzero, countP_nil] at hout hok
  omega

end Settled

namespace Settled

variable (hs : Settled u.instances) (ho : outdatedCount u.instances = 0)
include hs ho

theorem cls_eq_ok {v : InstanceView} (hv : v ∈ u.instances) : v.cls = .ok := by
  have hno := countP_eq_zero.mp ho v hv
  have hnb := hs.not_broken v hv
  cases hc : v.cls <;> simp_all [InstanceView.isClass]

theorem liveOutdated_eq_nil : u.liveOutdated = [] := by
  refine eq_nil_iff_forall_not_mem.mpr fun v hv => ?_
  have hok := hs.cls_eq_ok ho (hs.nonTerminating_eq ▸ u.liveOutdated_subset hv)
  rw [(mem_liveOutdated.mp hv).2] at hok
  cases hok

theorem recreates_eq_false : u.recreates = false := by
  apply Bool.eq_false_iff.mpr
  intro hr
  exact (recreates_iff.mp hr).2 (hs.liveOutdated_eq_nil ho)

/-- Only scale-down retires. -/
theorem retired_eq : u.retired = u.retireExcess := by
  have hnil := hs.liveOutdated_eq_nil ho
  have hunrouted := subset_nil.mp (hnil ▸ u.unrouted_subset)
  have hunready := subset_nil.mp (hnil ▸ u.unready_subset)
  have htraded := subset_nil.mp (hnil ▸ u.traded_subset)
  rw [retired_eq_of_steps hs.distinct (hs.recreates_eq_false ho), hunrouted, hunready, htraded]
  simp only [append_nil]

theorem allowance_eq_zero : u.allowance = 0 := by
  rw [allowance, hs.outdated_length, ho, if_neg (by decide)]

theorem excess_eq : u.excess = okCount u.instances - u.scale := by
  have hlen := hs.length_eq
  have hallow := hs.allowance_eq_zero ho
  have hex : u.excess = u.nonTerminating.length - (u.scale + u.allowance) := rfl
  rw [hs.nonTerminating_eq] at hex
  omega

theorem countP_retired_ok :
    u.retired.countP (InstanceView.isClass .ok) = min u.excess.toNat (okCount u.instances) := by
  have hlen := hs.length_eq
  have hall : ∀ v ∈ u.retireExcess, v.isClass .ok = true := fun v hv =>
    InstanceView.isClass_iff.mpr (hs.cls_eq_ok ho (hs.nonTerminating_eq ▸ u.retireExcess_subset hv))
  rw [hs.retired_eq ho, countP_eq_length.mpr hall, retireExcess, length_take,
    length_order, hs.nonTerminating_eq, hlen, ho, Nat.zero_add]

/-- The next tick reaches the scale exactly. -/
theorem finish (hscale : 0 ≤ u.scale) (h : Tick u t) :
    outdatedCount t = 0 ∧ (okCount t : Int) = u.scale := by
  have hr := hs.recreates_eq_false ho
  have hout := h.outdatedCount_add hs.toFleet
  have hok := h.okCount_add hs.toFleet
  have hcur := hs.currentTemplate_add hr
  have hretired := hs.countP_retired_ok ho
  have hex := hs.excess_eq ho
  have hlen := hs.length_eq
  have hsur := length_survivors (u := u) hs.distinct
  have hexlen := u.length_retireExcess
  have hallow := hs.allowance_eq_zero ho
  have hcreate := create_eq (u := u)
  have hrepair : u.repair.length = 0 := by rw [hs.repair_eq, length_nil]
  have hplan := planUpdate_create_of_not_recreates hr
  rw [hs.nonTerminating_eq] at hsur hexlen
  omega

/-- At the scale the planner has nothing left to do. -/
theorem planUpdate_eq_empty (hk : (okCount u.instances : Int) = u.scale) :
    (planUpdate u).create = 0 ∧ (planUpdate u).retire = [] ∧ (planUpdate u).repair = [] ∧
      (planUpdate u).holding = false := by
  have hr := hs.recreates_eq_false ho
  have hex := hs.excess_eq ho
  have hnil : u.retired = [] := by
    rw [hs.retired_eq ho, retireExcess_eq_nil (by omega)]
  have hcur := hs.currentTemplate_add hr
  rw [hnil, countP_nil] at hcur
  refine ⟨?_, ?_, ?_, ?_⟩
  · rw [planUpdate_create_of_not_recreates hr, create_eq]
    omega
  · rw [planUpdate_retire, hnil, map_nil]
  · rw [planUpdate_repair, hs.repair_eq, map_nil]
  · rw [planUpdate_holding, hr, hs.liveOutdated_eq_nil ho]
    rfl

end Settled

/-- How far a fleet is from its last tick with an outdated instance. -/
def updateRank (scale : Int) (s : List InstanceView) : ℕ :=
  outdatedCount s * (scale.toNat + 1) + (scale.toNat - okCount s)

/-- Every tick lowers the rank. -/
theorem Settled.updateRank_lt {scale : Int} {params : UpdateParams} (hs : Settled s)
    (hparams : params.Derived scale) (h : Tick (fleetInput scale params s) t)
    (ho : outdatedCount s ≠ 0) : updateRank scale t < updateRank scale s := by
  have hprogress := Settled.progress (u := fleetInput scale params s) hs hparams rfl h
    (Nat.pos_of_ne_zero ho)
  simp only [fleetInput] at hprogress
  unfold updateRank
  rcases hprogress with hlt | ⟨heq, hk, hroom⟩
  · have hmul : (outdatedCount t + 1) * (scale.toNat + 1) ≤
        outdatedCount s * (scale.toNat + 1) := Nat.mul_le_mul_right _ hlt
    rw [Nat.add_mul] at hmul
    omega
  · rw [heq]
    omega

/-- Repeated ticks reach exactly the desired scale at the current template, and
from then on every plan is empty. -/
theorem rolling_update_converges (scale : Int) (params : UpdateParams) (hscale : 0 ≤ scale)
    (hparams : params.Derived scale) (s : ℕ → List InstanceView)
    (hdistinct : DistinctKeys InstanceView.id (s 0)) (hlive : ∀ v ∈ s 0, v.terminating = false)
    (hrun : ∀ n, Tick (fleetInput scale params (s n)) (s (n + 1))) :
    ∃ N, ∀ n, N ≤ n →
      ((s n).length : Int) = scale ∧ (∀ v ∈ s n, v.cls = .ok) ∧
      (planUpdate (fleetInput scale params (s n))).create = 0 ∧
      (planUpdate (fleetInput scale params (s n))).retire = [] ∧
      (planUpdate (fleetInput scale params (s n))).repair = [] ∧
      (planUpdate (fleetInput scale params (s n))).holding = false := by
  have hfleet : ∀ n, Fleet (s n) := by
    intro n
    induction n with
    | zero => exact ⟨hdistinct, hlive⟩
    | succ n ih => exact ((hrun n).settled ih).toFleet
  have hsettled : ∀ n, Settled (s (n + 1)) := fun n => (hrun n).settled (hfleet n)
  obtain ⟨m, _, _, hm⟩ := exists_goal_of_rank (fun n => s (n + 1))
    (updateRank scale) (fun x => outdatedCount x = 0)
    (fun n ho => (hsettled n).updateRank_lt hparams (hrun (n + 1)) ho) 0
  have hscaled : ∀ n, m + 2 ≤ n →
      outdatedCount (s n) = 0 ∧ (okCount (s n) : Int) = scale := by
    intro n hn
    induction n, hn using Nat.le_induction with
    | base =>
      exact Settled.finish (u := fleetInput scale params (s (m + 1))) (hsettled m) hm hscale
        (hrun (m + 1))
    | succ n hn ih =>
      obtain ⟨k, rfl⟩ : ∃ k, n = k + 1 := ⟨n - 1, by omega⟩
      exact Settled.finish (u := fleetInput scale params (s (k + 1))) (hsettled k) ih.1 hscale
        (hrun (k + 1))
  refine ⟨m + 2, ?_⟩
  intro n hn
  obtain ⟨ho, hk⟩ := hscaled n hn
  obtain ⟨k, rfl⟩ : ∃ k, n = k + 1 := ⟨n - 1, by omega⟩
  let u := fleetInput scale params (s (k + 1))
  have hs : Settled u.instances := hsettled k
  refine ⟨?_, ?_, hs.planUpdate_eq_empty ho hk⟩
  · have hlen : (s (k + 1)).length = outdatedCount (s (k + 1)) + okCount (s (k + 1)) :=
      hs.length_eq
    omega
  · exact fun v hv => hs.cls_eq_ok ho hv

/-- A serving instance of the given class. -/
def servingView (id : String) (cls : CompatClass) : InstanceView where
  inst := ⟨id, id, .running, true, 0, none, none⟩
  cls := cls
  running := true
  ready := true
  available := true
  terminating := false

/-- A service of one instance, replaced with a surge. -/
def surgeOfOne : ℕ → List InstanceView
  | 0 => [servingView "old" .outdated]
  | 1 => [servingView "old" .outdated, servingView "new" .ok]
  | _ => [servingView "new" .ok]

/-- The example ticks. -/
theorem surgeOfOne_tick (n : ℕ) :
    Tick (fleetInput 1 midRollout.params (surgeOfOne n)) (surgeOfOne (n + 1)) := by
  match n with
  | 0 => exact ⟨[servingView "new" .ok], ⟨by decide, by decide, by decide, by decide⟩, by decide⟩
  | 1 => exact ⟨[], ⟨by decide, by decide, by decide, by decide⟩, by decide⟩
  | n + 2 =>
    change Tick (fleetInput 1 midRollout.params [servingView "new" .ok]) [servingView "new" .ok]
    exact ⟨[], ⟨by decide, by decide, by decide, by decide⟩, by decide⟩

/-- A fleet of one. -/
theorem rolling_update_converges_surgeOfOne : ∃ N, ∀ n, N ≤ n →
    ((surgeOfOne n).length : Int) = 1 ∧ ∀ v ∈ surgeOfOne n, v.cls = .ok := by
  have hparams : midRollout.params.Derived 1 := .rolling rfl (by decide) (by decide) (by decide)
  obtain ⟨N, h⟩ := rolling_update_converges 1 midRollout.params (by decide) hparams surgeOfOne
    (by decide) (by decide) surgeOfOne_tick
  exact ⟨N, fun n hn => ⟨(h n hn).1, (h n hn).2.1⟩⟩

/-- The rollout of a service, with whatever parameters its spec resolves to, is over after a number
of ticks that its scale and its outdated instances bound. -/
theorem service_rollout_bounded (svc : Service) (hscale : 0 ≤ svc.scale)
    (s : ℕ → List InstanceView) (hfleet : Fleet (s 0))
    (hrun : ∀ n, Tick (fleetInput svc.scale svc.resolveUpdateParams (s n)) (s (n + 1))) (n : ℕ)
    (hn : outdatedCount (s 0) * (svc.scale.toNat + 1) + svc.scale.toNat + 2 ≤ n) :
    outdatedCount (s n) = 0 ∧ (okCount (s n) : Int) = svc.scale := by
  have hsettled : ∀ k, Settled (s (k + 1)) := by
    intro k
    induction k with
    | zero => exact (hrun 0).settled hfleet
    | succ k ih => exact (hrun (k + 1)).settled ih.toFleet
  obtain ⟨m, -, hm, hgoal⟩ := exists_goal_of_rank (fun k => s (k + 1)) (updateRank svc.scale)
    (fun x => outdatedCount x = 0)
    (fun k => (hsettled k).updateRank_lt svc.resolveUpdateParams_derived (hrun (k + 1))) 0
  have hrank : updateRank svc.scale (s (0 + 1)) ≤
      outdatedCount (s 0) * (svc.scale.toNat + 1) + svc.scale.toNat := by
    have hle := Nat.le.intro ((hrun 0).outdatedCount_add hfleet)
    exact Nat.add_le_add (Nat.mul_le_mul_right _ hle) (Nat.sub_le _ _)
  have hdone : ∀ k, m ≤ k → outdatedCount (s (k + 1)) = 0 := by
    intro k hk
    induction k, hk using Nat.le_induction with
    | base => exact hgoal
    | succ k _ ih => exact ((hsettled k).finish ih hscale (hrun (k + 1))).1
  obtain ⟨k, rfl⟩ : ∃ k, n = k + 2 := ⟨n - 2, by omega⟩
  exact (hsettled k).finish (hdone k (by omega)) hscale (hrun (k + 1))

/-- From its second tick on, the surge of one is over in time. -/
theorem service_rollout_bounded_surgeOfOne : outdatedCount (surgeOfOne 6) = 0 :=
  (service_rollout_bounded ⟨1, [], .container, [], none, none, true⟩ (by decide)
    (fun n => surgeOfOne (n + 1)) ⟨by decide, by decide⟩ (by
      rintro (_ | n) <;> simp only [zero_add, surgeOfOne] <;>
        exact ⟨[], ⟨by decide, by decide, by decide, by decide⟩, by decide⟩) 5 (by decide)).1

end Rune.Rollout
