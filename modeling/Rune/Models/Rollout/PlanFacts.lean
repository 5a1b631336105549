import Rune.Core.Keyed
import Rune.Models.Rollout.Plan

/-!
# What each step of the planner retires

The two retirement loops have closed forms as soon as the IDs are distinct. The
survivors of step 1 are the tail of the scale-down ranking, and the whole list
of retired views is a part of the instances that are not tearing down, so that
every count after the plan is a count before it minus a count of the retired.
-/

namespace Rune.Rollout

open Rune.Core List

/-- No two views of the input are of the same instance. -/
def UpdateInput.Distinct (u : UpdateInput) : Prop := DistinctKeys InstanceView.id u.instances

/-- The views left when the given instances are removed. -/
def removeInstances (gone : List Instance) (vs : List InstanceView) : List InstanceView :=
  without InstanceView.id (gone.map Instance.id) vs

theorem removeInstances_map_inst (rs vs : List InstanceView) :
    removeInstances (rs.map InstanceView.inst) vs =
      without InstanceView.id (rs.map InstanceView.id) vs := by
  rw [removeInstances, map_map]
  rfl

theorem isRetired_iff {retired : List InstanceView} {v : InstanceView} :
    isRetired retired v = true ↔ v.id ∈ retired.map InstanceView.id := decide_eq_true_iff

theorem not_isRetired_iff {retired : List InstanceView} {v : InstanceView} :
    isRetired retired v = false ↔ v.id ∉ retired.map InstanceView.id := decide_eq_false_iff_not

/-- Retiring one view does not change the verdict on views with another ID. -/
theorem isRetired_append_singleton {retired : List InstanceView} {v w : InstanceView}
    (h : w.id ≠ v.id) : isRetired (retired ++ [v]) w = isRetired retired w := by
  simp [isRetired, h]

/-- The filters that the loops compute do not notice the views already passed. -/
theorem filter_append_singleton {vs retired : List InstanceView} {v : InstanceView}
    (eligible : InstanceView → Bool) (h : DistinctKeys InstanceView.id (v :: vs)) :
    (vs.filter fun w => eligible w && !isRetired (retired ++ [v]) w) =
      vs.filter fun w => eligible w && !isRetired retired w := by
  apply filter_congr
  intro w hw
  have hne : w.id ≠ v.id := fun he =>
    (nodup_cons.mp h).1 (he ▸ mem_map_of_mem hw)
  rw [isRetired_append_singleton hne]

/-- The unbudgeted loop retires the eligible views in order. -/
theorem retireAll_eq (eligible : InstanceView → Bool) (retired vs : List InstanceView)
    (h : DistinctKeys InstanceView.id vs) :
    retireAll eligible retired vs =
      retired ++ vs.filter fun v => eligible v && !isRetired retired v := by
  induction vs generalizing retired with
  | nil => simp [retireAll]
  | cons v vs ih =>
    have hvs : DistinctKeys InstanceView.id vs := h.sublist (sublist_cons_self v vs)
    by_cases he : (eligible v && !isRetired retired v) = true
    · rw [retireAll, if_pos he, ih _ hvs, filter_append_singleton eligible h,
        filter_cons, if_pos he, append_assoc, singleton_append]
    · rw [retireAll, if_neg he, ih _ hvs, filter_cons, if_neg he]

/-- The budgeted loop retires the first eligible views that the budget covers. -/
theorem retireUpTo_eq (eligible : InstanceView → Bool) (budget : Int)
    (retired vs : List InstanceView) (h : DistinctKeys InstanceView.id vs) :
    retireUpTo eligible budget retired vs = retired ++
      (vs.filter fun v => eligible v && !isRetired retired v).take budget.toNat := by
  induction vs generalizing budget retired with
  | nil => simp [retireUpTo]
  | cons v vs ih =>
    have hvs : DistinctKeys InstanceView.id vs := h.sublist (sublist_cons_self v vs)
    rw [retireUpTo]
    by_cases hb : budget ≤ 0
    · rw [if_pos hb, Int.toNat_of_nonpos hb, take_zero, append_nil]
    rw [if_neg hb]
    by_cases he : (eligible v && !isRetired retired v) = true
    · have hn : budget.toNat = (budget - 1).toNat + 1 := by omega
      rw [if_pos he, ih _ _ hvs, filter_append_singleton eligible h, filter_cons, if_pos he, hn,
        take_succ_cons, append_assoc, singleton_append]
    · rw [if_neg he, ih _ _ hvs, filter_cons, if_neg he]

theorem splitByAvailability_perm (vs : List InstanceView) :
    ((splitByAvailability vs).1 ++ (splitByAvailability vs).2).Perm vs := by
  have h := filter_append_perm (fun v : InstanceView => !v.serving) vs
  simpa only [splitByAvailability, Bool.not_not] using h

/-- The part of the ranking that does not serve. -/
def excessFront (broken outdated current : List InstanceView) : List InstanceView :=
  broken ++ sortOldestFirst (splitByAvailability outdated).1 ++
    sortOldestFirst (splitByAvailability current).1

/-- The part of the ranking that serves. -/
def excessBack (outdated current : List InstanceView) : List InstanceView :=
  sortOldestFirst (splitByAvailability outdated).2 ++
    sortOldestFirst (splitByAvailability current).2

/-- The front and the back of the order. -/
theorem excessOrder_eq (broken outdated current : List InstanceView) :
    excessOrder broken outdated current =
      excessFront broken outdated current ++ excessBack outdated current := by
  simp only [excessOrder, excessFront, excessBack, append_assoc]

theorem not_serving_of_mem_excessFront {broken outdated current : List InstanceView}
    (hb : ∀ v ∈ broken, v.cls = .broken) {v : InstanceView}
    (hv : v ∈ excessFront broken outdated current) : v.serving = false := by
  simp only [excessFront, mem_append, mem_sortOldestFirst, splitByAvailability, mem_filter] at hv
  rcases hv with (hv | hv) | hv
  · exact InstanceView.not_serving_of_broken (hb v hv)
  · simpa using hv.2
  · simpa using hv.2

theorem serving_of_mem_excessBack {outdated current : List InstanceView} {v : InstanceView}
    (hv : v ∈ excessBack outdated current) : v.serving = true := by
  simp only [excessBack, mem_append, mem_sortOldestFirst, splitByAvailability, mem_filter] at hv
  rcases hv with hv | hv
  · exact hv.2
  · exact hv.2

/-- The ranking only reorders the three classes. -/
theorem excessOrder_perm (broken outdated current : List InstanceView) :
    (excessOrder broken outdated current).Perm (broken ++ outdated ++ current) := by
  have ho := ((sortOldestFirst_perm (splitByAvailability outdated).1).append
    (sortOldestFirst_perm (splitByAvailability outdated).2)).trans
      (splitByAvailability_perm outdated)
  have hc := ((sortOldestFirst_perm (splitByAvailability current).1).append
    (sortOldestFirst_perm (splitByAvailability current).2)).trans
      (splitByAvailability_perm current)
  rw [perm_iff_count] at ho hc ⊢
  intro v
  have hov := ho v
  have hcv := hc v
  simp only [excessOrder, count_append] at hov hcv ⊢
  omega

namespace UpdateInput

variable {u : UpdateInput}

theorem mem_nonTerminating {v : InstanceView} :
    v ∈ u.nonTerminating ↔ v ∈ u.instances ∧ v.terminating = false := by
  simp [nonTerminating]

theorem mem_outdated {v : InstanceView} :
    v ∈ u.outdated ↔ v ∈ u.nonTerminating ∧ v.cls = .outdated := by
  simp [outdated]

/-- The extra copy is allowed while some instance that stays is outdated. -/
theorem allowance_eq (u : UpdateInput) : u.allowance =
    if ∃ v ∈ u.instances, v.terminating = false ∧ v.cls = .outdated then u.params.extra else 0 := by
  unfold allowance
  congr 1
  rw [length_pos_iff_exists_mem]
  simp only [mem_outdated, mem_nonTerminating, and_assoc]

theorem cls_of_mem_broken {v : InstanceView} (h : v ∈ u.broken) : v.cls = .broken := by
  simpa using (mem_filter.mp h).2

/-- The three classes partition the instances that are not tearing down. -/
theorem classes_perm (u : UpdateInput) :
    (u.broken ++ u.outdated ++ u.current).Perm u.nonTerminating := by
  rw [perm_iff_count]
  intro v
  have hcount (c : CompatClass) : (u.nonTerminating.filter fun w => w.cls == c).count v =
      if v.cls = c then u.nonTerminating.count v else 0 := by
    split
    · rename_i hc
      exact count_filter (by simp [hc])
    · rename_i hc
      apply count_eq_zero.mpr
      intro hm
      exact hc (by simpa using (mem_filter.mp hm).2)
  simp only [broken, outdated, current, count_append, hcount]
  cases v.cls <;> simp

/-- The ranking of an input lists each instance that is not tearing down once. -/
theorem order_perm (u : UpdateInput) : u.order.Perm u.nonTerminating :=
  (excessOrder_perm _ _ _).trans u.classes_perm

@[simp] theorem length_order (u : UpdateInput) : u.order.length = u.nonTerminating.length :=
  u.order_perm.length_eq

theorem Distinct.nonTerminating (h : u.Distinct) :
    DistinctKeys InstanceView.id u.nonTerminating := DistinctKeys.sublist h filter_sublist

theorem Distinct.order (h : u.Distinct) : DistinctKeys InstanceView.id u.order :=
  DistinctKeys.perm h.nonTerminating u.order_perm.symm

/-- What scale-down keeps: the tail of the ranking. -/
def kept (u : UpdateInput) : List InstanceView := u.order.drop u.excess.toNat

theorem survivors_eq_without (u : UpdateInput) :
    u.survivors = without InstanceView.id (u.retireExcess.map InstanceView.id)
      u.nonTerminating := by
  simp only [survivors, without, nonTerminating, filter_filter, isRetired]
  apply filter_congr
  intro v _
  by_cases hm : v.id ∈ u.retireExcess.map InstanceView.id <;> cases v.terminating <;>
    simp only [hm, not_true_eq_false, not_false_eq_true, decide_true, decide_false] <;> rfl

/-- The survivors of step 1 are exactly what scale-down keeps. -/
theorem survivors_perm (h : u.Distinct) : u.survivors.Perm u.kept := by
  rw [survivors_eq_without]
  apply without_perm h.nonTerminating
  exact perm_take_append_drop u.order_perm.symm u.excess.toNat

theorem mem_survivors {v : InstanceView} : v ∈ u.survivors ↔
    v ∈ u.nonTerminating ∧ v.id ∉ u.retireExcess.map InstanceView.id := by
  rw [survivors_eq_without, mem_without]

theorem Distinct.survivors (h : u.Distinct) : DistinctKeys InstanceView.id u.survivors :=
  DistinctKeys.sublist h filter_sublist

theorem mem_liveOutdated {v : InstanceView} :
    v ∈ u.liveOutdated ↔ v ∈ u.survivors ∧ v.cls = .outdated := by
  simp [liveOutdated]

theorem Distinct.liveOutdated (h : u.Distinct) : DistinctKeys InstanceView.id u.liveOutdated :=
  DistinctKeys.sublist h.survivors filter_sublist

theorem not_terminating_of_mem_liveOutdated {v : InstanceView} (h : v ∈ u.liveOutdated) :
    v.terminating = false :=
  (mem_nonTerminating.mp (mem_survivors.mp (mem_liveOutdated.mp h).1).1).2

/-- The ranking puts everything that does not serve in front, so scale-down
costs a serving instance only once the others are used up. -/
theorem available_eq_min (h : u.Distinct) :
    u.survivors.countP InstanceView.serving =
      min (u.nonTerminating.countP InstanceView.serving)
        (u.nonTerminating.length - u.excess.toNat) := by
  have hfront : ∀ v ∈ excessFront u.broken u.outdated u.current, v.serving = false :=
    fun v hv => not_serving_of_mem_excessFront (fun w hw => cls_of_mem_broken hw) hv
  have hback : ∀ v ∈ excessBack u.outdated u.current, v.serving = true :=
    fun v hv => serving_of_mem_excessBack hv
  have hsplit : u.order = excessFront u.broken u.outdated u.current ++
      excessBack u.outdated u.current := excessOrder_eq _ _ _
  have hlength : u.nonTerminating.length = (excessFront u.broken u.outdated u.current).length +
      (excessBack u.outdated u.current).length := by
    rw [← length_order, hsplit, length_append]
  have hserving : u.nonTerminating.countP InstanceView.serving =
      (excessBack u.outdated u.current).length := by
    rw [← u.order_perm.countP_eq, hsplit, countP_append, countP_eq_zero_of_forall hfront,
      countP_eq_length.mpr hback, Nat.zero_add]
  rw [(survivors_perm h).countP_eq, kept, hsplit, countP_drop_append hfront hback, hserving,
    hlength]

/-- The views that step 3 retires. -/
def unrouted (u : UpdateInput) : List InstanceView := u.liveOutdated.filter fun v => !v.routed

/-- The views that step 3b may choose from. -/
def withdrawn (u : UpdateInput) : List InstanceView :=
  u.liveOutdated.filter fun v => v.running && !v.ready && !isRetired u.retireUnrouted v

/-- The views that step 3b retires. -/
def unready (u : UpdateInput) : List InstanceView :=
  if u.createsBlocked then [] else u.withdrawn.take u.unreadyBudget.toNat

/-- The views that step 4 retires. -/
def traded (u : UpdateInput) : List InstanceView := u.budgetedOutdated.take u.retireBudget.toNat

/-- Every view that the plan retires. -/
def retired (u : UpdateInput) : List InstanceView :=
  if u.recreates then u.retireExcess ++ u.liveOutdated else u.retireBudgeted

theorem retireUnrouted_eq (h : u.Distinct) : u.retireUnrouted = u.retireExcess ++ u.unrouted := by
  rw [retireUnrouted, retireAll_eq _ _ _ h.liveOutdated]
  congr 1
  apply filter_congr
  intro v hv
  have hn := (mem_survivors.mp (mem_liveOutdated.mp hv).1).2
  rw [not_isRetired_iff.mpr hn, Bool.not_false, Bool.and_true]

theorem retireUnready_eq (h : u.Distinct) : u.retireUnready = u.retireUnrouted ++ u.unready := by
  unfold retireUnready unready
  split
  · rw [append_nil]
  · rw [retireUpTo_eq _ _ _ _ h.liveOutdated]
    rfl

/-- Before step 4 the outdated survivors not yet retired are only reordered. -/
theorem budgetedOutdated_perm (u : UpdateInput) :
    u.budgetedOutdated.Perm (u.liveOutdated.filter fun v => !isRetired u.retireUnready v) :=
  ((sortOldestFirst_perm _).append (sortOldestFirst_perm _)).trans (splitByAvailability_perm _)

theorem mem_budgetedOutdated {v : InstanceView} : v ∈ u.budgetedOutdated ↔
    v ∈ u.liveOutdated ∧ v.id ∉ u.retireUnready.map InstanceView.id := by
  simp only [u.budgetedOutdated_perm.mem_iff, mem_filter, Bool.not_eq_true', not_isRetired_iff]

theorem unrouted_subset (u : UpdateInput) : u.unrouted ⊆ u.liveOutdated :=
  filter_sublist.subset

theorem unready_sublist (u : UpdateInput) : u.unready.Sublist u.withdrawn := by
  unfold unready
  split
  · exact nil_sublist _
  · exact take_sublist _ _

theorem unready_subset (u : UpdateInput) : u.unready ⊆ u.liveOutdated :=
  (u.unready_sublist.trans filter_sublist).subset

theorem traded_subset (u : UpdateInput) : u.traded ⊆ u.liveOutdated := fun _ hv =>
  (mem_budgetedOutdated.mp (take_subset _ _ hv)).1

theorem running_of_mem_unready {v : InstanceView} (h : v ∈ u.unready) :
    v.running = true ∧ v.ready = false := by
  have hw := (mem_filter.mp (u.unready_sublist.subset h)).2
  simp only [Bool.and_eq_true, Bool.not_eq_true'] at hw
  exact hw.1

theorem not_running_of_mem_unrouted {v : InstanceView} (h : v ∈ u.unrouted) :
    v.running = false := by
  have hr := (mem_filter.mp h).2
  have ht := not_terminating_of_mem_liveOutdated (u.unrouted_subset h)
  simpa [InstanceView.routed, ht] using hr

theorem liveOutdated_subset (u : UpdateInput) : u.liveOutdated ⊆ u.nonTerminating := fun _ hv =>
  (mem_survivors.mp (mem_liveOutdated.mp hv).1).1

theorem retireExcess_subset (u : UpdateInput) : u.retireExcess ⊆ u.nonTerminating := fun _ hv =>
  u.order_perm.subset (take_subset _ _ hv)

/-- No excess, nothing to retire. -/
theorem retireExcess_eq_nil (h : u.excess ≤ 0) : u.retireExcess = [] := by
  rw [retireExcess, Int.toNat_of_nonpos h, take_zero]

/-- When a plan recreates. -/
theorem recreates_iff : u.recreates = true ↔
    u.params.type = .recreate ∧ u.liveOutdated ≠ [] := by
  rw [recreates, Bool.and_eq_true, Bool.not_eq_true', isEmpty_eq_false_iff, beq_iff_eq]

theorem Distinct.retireExcess (h : u.Distinct) : DistinctKeys InstanceView.id u.retireExcess :=
  DistinctKeys.sublist h.order (take_sublist _ _)

theorem Distinct.retireUnrouted (h : u.Distinct) :
    DistinctKeys InstanceView.id u.retireUnrouted := by
  rw [retireUnrouted_eq h]
  refine h.retireExcess.append (h.liveOutdated.sublist filter_sublist) ?_
  intro v hv
  exact (mem_survivors.mp (mem_liveOutdated.mp (u.unrouted_subset hv)).1).2

theorem Distinct.retireUnready (h : u.Distinct) :
    DistinctKeys InstanceView.id u.retireUnready := by
  rw [retireUnready_eq h]
  refine h.retireUnrouted.append
    (h.liveOutdated.sublist (u.unready_sublist.trans filter_sublist)) ?_
  intro v hv
  have hw := (mem_filter.mp (u.unready_sublist.subset hv)).2
  simp only [Bool.and_eq_true, Bool.not_eq_true', not_isRetired_iff] at hw
  exact hw.2

theorem Distinct.retireBudgeted (h : u.Distinct) :
    DistinctKeys InstanceView.id u.retireBudgeted := by
  have hb : DistinctKeys InstanceView.id u.budgetedOutdated :=
    (h.liveOutdated.sublist filter_sublist).perm u.budgetedOutdated_perm.symm
  refine h.retireUnready.append (hb.sublist (take_sublist _ _)) ?_
  intro v hv
  exact (mem_budgetedOutdated.mp (take_subset _ _ hv)).2

/-- No instance is retired twice. -/
theorem Distinct.retired (h : u.Distinct) : DistinctKeys InstanceView.id u.retired := by
  unfold UpdateInput.retired
  split
  · refine h.retireExcess.append h.liveOutdated ?_
    intro v hv
    exact (mem_survivors.mp (mem_liveOutdated.mp hv).1).2
  · exact h.retireBudgeted

theorem retireBudgeted_eq (h : u.Distinct) :
    u.retireBudgeted = u.retireExcess ++ u.unrouted ++ u.unready ++ u.traded := by
  rw [retireBudgeted, retireUnready_eq h, retireUnrouted_eq h, traded]

/-- What the four steps retire. -/
theorem retired_eq_of_steps (h : u.Distinct) (hr : u.recreates = false) :
    u.retired = u.retireExcess ++ u.unrouted ++ u.unready ++ u.traded := by
  rw [retired, hr, if_neg (by decide), retireBudgeted_eq h]

/-- Behind step 1 only outdated instances are retired. -/
theorem mem_retired {v : InstanceView} (h : u.Distinct) (hv : v ∈ u.retired) :
    v ∈ u.retireExcess ∨ v ∈ u.liveOutdated := by
  unfold retired at hv
  split at hv
  · exact mem_append.mp hv
  · rw [retireBudgeted_eq h] at hv
    simp only [mem_append] at hv
    rcases hv with ((hv | hv) | hv) | hv
    · exact Or.inl hv
    · exact Or.inr (u.unrouted_subset hv)
    · exact Or.inr (u.unready_subset hv)
    · exact Or.inr (u.traded_subset hv)

/-- Only instances that are not tearing down are retired. -/
theorem retired_subset (h : u.Distinct) : u.retired ⊆ u.nonTerminating := by
  intro v hv
  rcases mem_retired h hv with hv | hv
  · exact u.retireExcess_subset hv
  · exact u.liveOutdated_subset hv

theorem countP_survivors (h : u.Distinct) (p : InstanceView → Bool) :
    u.survivors.countP p + u.retireExcess.countP p = u.nonTerminating.countP p := by
  rw [survivors_eq_without]
  exact countP_without h.nonTerminating h.retireExcess u.retireExcess_subset p

/-- A property that a terminating instance never has is counted over the others. -/
theorem countP_nonTerminating {p : InstanceView → Bool}
    (hp : ∀ v : InstanceView, v.terminating = true → p v = false) :
    u.nonTerminating.countP p = u.instances.countP p := by
  rw [nonTerminating, countP_filter]
  apply countP_congr
  intro v _
  cases ht : v.terminating with
  | false => simp
  | true => simp [hp v ht]

/-- Survivors and excess are all there are. -/
theorem length_survivors (h : u.Distinct) :
    u.survivors.length + u.retireExcess.length = u.nonTerminating.length := by
  simpa only [countP_true] using countP_survivors h fun _ => true

theorem length_retireExcess (u : UpdateInput) :
    u.retireExcess.length = min u.excess.toNat u.nonTerminating.length := by
  rw [retireExcess, length_take, length_order]

theorem allowance_nonneg (hp : 0 ≤ u.params.extra) : 0 ≤ u.allowance := by
  unfold allowance
  split
  · exact hp
  · exact le_rfl

end UpdateInput

open UpdateInput

theorem planUpdate_retire (u : UpdateInput) :
    (planUpdate u).retire = u.retired.map InstanceView.inst := by
  unfold planUpdate retired
  split <;> rfl

theorem planUpdate_repair (u : UpdateInput) :
    (planUpdate u).repair = u.repair.map InstanceView.inst := by
  unfold planUpdate
  split <;> rfl

theorem UpdateInput.create_eq_max (u : UpdateInput) :
    u.create = max 0 (min u.createBudget u.useful) := by
  unfold UpdateInput.create
  grind

/-- What a plan creates. -/
theorem planUpdate_create (u : UpdateInput) :
    (planUpdate u).create = if u.recreates then 0 else u.create := by
  unfold planUpdate
  split <;> rfl

/-- When a plan holds. -/
theorem planUpdate_holding (u : UpdateInput) : (planUpdate u).holding = if u.recreates then false
    else !u.liveOutdated.isEmpty && u.create == 0 && u.retireBudgeted.isEmpty := by
  unfold planUpdate
  split
  · rfl
  · simp only [isEmpty_map]

variable {u : UpdateInput}

/-- Every count after the plan is the count before it minus the retired. -/
theorem countP_remaining (h : u.Distinct) (p : InstanceView → Bool) :
    (removeInstances (planUpdate u).retire u.instances).countP p + u.retired.countP p =
      u.instances.countP p := by
  rw [planUpdate_retire, removeInstances_map_inst]
  refine countP_without h h.retired ?_ p
  intro v hv
  exact (mem_nonTerminating.mp (retired_subset h hv)).1

/-- Where step 3 and later steps run, they retire from the survivors of step 1. -/
theorem countP_remaining_of_steps (h : u.Distinct) (hr : u.recreates = false)
    {p : InstanceView → Bool} (hp : ∀ v : InstanceView, v.terminating = true → p v = false) :
    (removeInstances (planUpdate u).retire u.instances).countP p +
      (u.unrouted.countP p + u.unready.countP p + u.traded.countP p) = u.survivors.countP p := by
  have hrem := countP_remaining h p
  have hsur := countP_survivors h p
  have hnt := countP_nonTerminating (u := u) hp
  rw [retired_eq_of_steps h hr] at hrem
  simp only [countP_append] at hrem
  omega

theorem planUpdate_create_nonneg (u : UpdateInput) : 0 ≤ (planUpdate u).create := by
  rw [planUpdate_create, u.create_eq_max]
  split
  · exact le_rfl
  · exact le_max_left _ _

/-- What the plan leaves standing and creates stays within the scale and the allowance. -/
theorem length_add_create_le (hscale : 0 ≤ u.scale) (hextra : 0 ≤ u.params.extra)
    (h : u.Distinct) : (u.nonTerminating.length : Int) + (planUpdate u).create ≤
      u.scale + u.allowance + u.retired.length := by
  have hex : u.excess = u.nonTerminating.length - (u.scale + u.allowance) := rfl
  have hsur := length_survivors h
  have hexlen := u.length_retireExcess
  have hnonneg := allowance_nonneg hextra
  rw [planUpdate_create]
  by_cases hr : u.recreates = true
  · have hlen : u.retired.length = u.retireExcess.length + u.liveOutdated.length := by
      rw [retired, if_pos hr, length_append]
    rw [if_pos hr]
    omega
  · have hlen : u.retireExcess.length ≤ u.retired.length := by
      rw [retired_eq_of_steps h (Bool.eq_false_iff.mpr hr)]
      simp only [length_append]
      omega
    have hcb : u.createBudget = u.scale + u.allowance - u.survivors.length := rfl
    have hmin := u.create_eq_max
    rw [if_neg hr]
    omega

/-- The planner's own count of current-template instances is what remains of them. -/
theorem currentTemplate_eq (hr : u.recreates = false) : u.currentTemplate =
    ((removeInstances (planUpdate u).retire u.instances).countP
      (fun v => !v.terminating && v.cls == .ok) : Int) := by
  rw [planUpdate_retire, removeInstances_map_inst, retired, hr, without,
    countP_filter, currentTemplate]
  congr 2
  funext v
  by_cases hm : v.id ∈ u.retireBudgeted.map InstanceView.id
  · simp [hm, isRetired_iff.mpr hm]
  · simp [hm, not_isRetired_iff.mpr hm]

end Rune.Rollout
