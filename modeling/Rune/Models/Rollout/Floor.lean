import Rune.Models.Rollout.PlanFacts

/-!
# Availability floor, traffic floor and surge cap

One tick of the planner against the three bounds it is meant to keep. The
availability floor, counted by the planner's own `serving`, and the surge cap hold
for every input. Counted by what the dataplane can use, the floor depends on
scale-down alone: its ranking does not look at instances inside their minimum-ready
window.
-/

namespace Rune.Rollout

open Rune.Core UpdateInput List

instance (u : UpdateInput) : Decidable u.Distinct :=
  inferInstanceAs (Decidable (DistinctKeys InstanceView.id u.instances))

variable {u : UpdateInput}

/-- Step 3 and step 3b retire nothing that carries traffic by either notion. -/
theorem unrouted_unready_not_ready (hs : ∀ v ∈ u.instances, v.Staged) {v : InstanceView}
    (hv : v ∈ u.unrouted ∨ v ∈ u.unready) : v.ready = false := by
  rcases hv with hv | hv
  · have hr := not_running_of_mem_unrouted hv
    have hm := (mem_nonTerminating.mp (u.liveOutdated_subset (u.unrouted_subset hv))).1
    cases hready : v.ready with
    | false => rfl
    | true => simp [(hs v hm).running_of_ready hready] at hr
  · exact (running_of_mem_unready hv).2

/-- Where a property needs readiness, only step 4 costs any of it. -/
theorem countP_remaining_of_ready (h : u.Distinct) (hs : ∀ v ∈ u.instances, v.Staged)
    (hr : u.recreates = false) {p : InstanceView → Bool}
    (ht : ∀ v : InstanceView, v.terminating = true → p v = false)
    (hp : ∀ v ∈ u.instances, v.ready = false → p v = false) :
    (removeInstances (planUpdate u).retire u.instances).countP p + u.traded.countP p =
      u.survivors.countP p := by
  have hmem : ∀ v ∈ u.liveOutdated, v ∈ u.instances := fun v hv =>
    (mem_nonTerminating.mp (u.liveOutdated_subset hv)).1
  have hunrouted : u.unrouted.countP p = 0 := countP_eq_zero_of_forall fun v hv =>
    hp v (hmem v (u.unrouted_subset hv)) (unrouted_unready_not_ready hs (Or.inl hv))
  have hunready : u.unready.countP p = 0 := countP_eq_zero_of_forall fun v hv =>
    hp v (hmem v (u.unready_subset hv)) (unrouted_unready_not_ready hs (Or.inr hv))
  have hcount := countP_remaining_of_steps h hr ht
  omega

/-- The budget bounds the traded ones. -/
theorem countP_traded_le (p : InstanceView → Bool) :
    u.traded.countP p ≤ u.retireBudget.toNat := countP_take_le _ _

theorem rolling_of_not_recreates_of_pos (hp : u.params.Derived u.scale)
    (hf : 0 < u.scale - u.params.dip) : u.recreates = false := by
  cases hp with
  | rolling ht _ _ _ => simp [recreates, ht]
  | recreate _ _ hd => omega

/-- Removing the retired instances leaves at least the smaller of what served
before and the scale minus the dip. -/
theorem serving_floor (u : UpdateInput) (hscale : 0 ≤ u.scale)
    (hparams : u.params.Derived u.scale) (hdistinct : u.Distinct)
    (hstaged : ∀ v ∈ u.instances, v.Staged) :
    min (u.instances.countP InstanceView.serving : Int) (u.scale - u.params.dip) ≤
      (removeInstances (planUpdate u).retire u.instances).countP InstanceView.serving := by
  by_cases hf : u.scale - u.params.dip ≤ 0
  · exact (min_le_right _ _).trans (hf.trans (Int.natCast_nonneg _))
  have hr := rolling_of_not_recreates_of_pos hparams (by omega)
  have hcount := countP_remaining_of_ready hdistinct hstaged hr
    (fun v => InstanceView.not_serving_of_terminating)
    (fun v hv => (hstaged v hv).not_serving_of_not_ready)
  have htraded := countP_traded_le (u := u) InstanceView.serving
  have havail := available_eq_min hdistinct
  have hbefore := countP_nonTerminating (u := u)
    (fun v => InstanceView.not_serving_of_terminating)
  have hle := List.countP_le_length (p := InstanceView.serving) (l := u.nonTerminating)
  have hallow := allowance_nonneg hparams.extra_nonneg
  have hdip := hparams.dip_nonneg hscale
  have hex : u.excess = u.nonTerminating.length - (u.scale + u.allowance) := rfl
  have hbudget : u.retireBudget = u.survivors.countP InstanceView.serving -
      (u.scale - u.params.dip) := rfl
  omega

/-- A surging rollout with its first replacement serving. -/
def midRollout : UpdateInput where
  scale := 2
  params :=
    { type := .rolling, extra := 1, dip := 0, minReady := 0, stallDeadline := 0, drain := 0 }
  instances :=
    [{ inst := ⟨"a", "a", .running, true, 1, none, none⟩, cls := .outdated, running := true,
       ready := true, available := true, terminating := false },
     { inst := ⟨"b", "b", .running, true, 2, none, none⟩, cls := .outdated, running := true,
       ready := true, available := true, terminating := false },
     { inst := ⟨"c", "c", .running, true, 3, none, none⟩, cls := .ok, running := true,
       ready := true, available := true, terminating := false }]
  createsBlocked := false

/-- The example's parameters. -/
theorem midRollout_derived : midRollout.params.Derived midRollout.scale :=
  .rolling rfl (by decide) (by decide) (by decide)

/-- A tick amid a rollout. -/
theorem serving_floor_midRollout :
    min (midRollout.instances.countP InstanceView.serving : Int)
        (midRollout.scale - midRollout.params.dip) ≤
      (removeInstances (planUpdate midRollout).retire midRollout.instances).countP
        InstanceView.serving :=
  serving_floor midRollout (by decide) midRollout_derived (by decide) (by decide)

/-- The number of instances an update may not fall below. -/
def UpdateInput.floor (u : UpdateInput) : Int := max (u.scale - u.params.dip) 0

/-- The floor, counted by what the dataplane can use, is not breached by the plan. -/
def TrafficFloor (u : UpdateInput) : Prop :=
  u.floor ≤ u.instances.countP InstanceView.working →
    u.floor ≤ (removeInstances (planUpdate u).retire u.instances).countP InstanceView.working

/-- In a scale-down `w` is worth more than `v`: it serves and `v` does not. Of two that are alike in
this it has the newer template, then it is the younger one, and then it is further back in the
list. -/
def Outranks (vs : List InstanceView) (w v : InstanceView) : Prop :=
  if v.serving ≠ w.serving then w.serving = true
  else if v.cls ≠ w.cls then v.cls = .broken ∨ w.cls = .ok
  else v.inst.createdBefore w.inst = true ∨
    w.inst.createdBefore v.inst = false ∧ [v, w].Sublist vs

instance (vs : List InstanceView) (w v : InstanceView) : Decidable (Outranks vs w v) := by
  unfold Outranks
  infer_instance

/-- Of the working instances, at least as many as the floor asks for are outranked by fewer
instances than a scale-down leaves room for. -/
def ScaleDownKeepsFloor (u : UpdateInput) : Prop :=
  u.floor ≤ u.instances.countP InstanceView.working →
    u.floor ≤ u.instances.countP fun v => v.working ∧
      ((u.instances.countP fun w => w.terminating = false ∧ Outranks u.instances w v : ℕ) : Int) <
        u.scale + if ∃ w ∈ u.instances, w.terminating = false ∧ w.cls = .outdated
          then u.params.extra else 0

/-- The two views stand in this order in the ranking: whichever of them works knows of it. -/
def Ranked (vs : List InstanceView) (v w : InstanceView) : Prop :=
  (v.working = true → Outranks vs w v) ∧ (w.working = true → ¬ Outranks vs v w)

/-- Alike views are ranked by their age and by their place in the list. -/
theorem ranked_sortOldestFirst {vs group : List InstanceView} (hvs : vs.Nodup)
    (hsub : group.Sublist vs) {b : Bool} {c : CompatClass}
    (hgroup : ∀ v ∈ group, v.serving = b ∧ v.cls = c) :
    (sortOldestFirst group).Pairwise (Ranked vs) := by
  refine (pairwise_insertionSort_stable (hvs.sublist hsub)).imp_of_mem fun {v w} hv hw hvw => ?_
  obtain ⟨hsv, hcv⟩ := hgroup v ((mem_insertionSort _).mp hv)
  obtain ⟨hsw, hcw⟩ := hgroup w ((mem_insertionSort _).mp hw)
  obtain ⟨hage, hplace⟩ := hvw
  have hpair : v.inst.createdBefore w.inst = false → [v, w].Sublist vs :=
    fun h => (hplace h).trans hsub
  simp only [Ranked, Outranks, hsv, hsw, hcv, hcw, ne_eq, not_true_eq_false, if_false, hage]
  refine ⟨fun _ => ?_, fun _ => ?_⟩
  · cases h : v.inst.createdBefore w.inst with
    | true => exact .inl rfl
    | false => exact .inr ⟨trivial, hpair h⟩
  · rintro (h | ⟨h, hswap⟩)
    · cases h
    · exact Nodup.not_pair_sublist_swap hvs (hpair h) hswap

/-- A broken view stands before every other one, one that does not serve before one that does, and
the old template before the new one. -/
theorem ranked_of_tier {vs : List InstanceView} {v w : InstanceView}
    (h : v.cls = .broken ∨ v.serving = false ∧ w.serving = true ∨
      v.serving = w.serving ∧ v.cls = .outdated ∧ w.cls = .ok) : Ranked vs v w := by
  rcases h with hv | ⟨hv, hw⟩ | ⟨hs, hv, hw⟩
  · have hserving := InstanceView.not_serving_of_broken hv
    refine ⟨fun hwork => by simp [InstanceView.working, hv] at hwork, fun hwork => ?_⟩
    have hw : w.cls ≠ .broken := fun hw => by simp [InstanceView.working, hw] at hwork
    simp [Outranks, hv, hw, hserving]
  · simp [Ranked, Outranks, hv, hw]
  · simp [Ranked, Outranks, hs, hv, hw]

/-- The ranking of the planner ranks the working instances by their worth. -/
theorem order_ranked (h : u.Distinct) : u.order.Pairwise (Ranked u.instances) := by
  have hnodup : u.instances.Nodup := Nodup.of_map _ h
  have hgroup : ∀ {c} {p : InstanceView → Bool} {b : Bool},
      (∀ v, p v = true → v.serving = b) →
      (sortOldestFirst ((u.nonTerminating.filter fun v => v.cls == c).filter p)).Pairwise
        (Ranked u.instances) := by
    intro c p b hp
    refine ranked_sortOldestFirst hnodup
      (filter_sublist.trans (filter_sublist.trans filter_sublist)) (b := b) (c := c) fun v hv => ?_
    simp only [mem_filter, beq_iff_eq] at hv
    exact ⟨hp v hv.2, hv.1.2⟩
  have hbroken : u.broken.Pairwise (Ranked u.instances) :=
    pairwise_of_forall_mem_list fun v hv w _ => ranked_of_tier (.inl (cls_of_mem_broken hv))
  simp only [order, excessOrder, splitByAvailability, UpdateInput.outdated, UpdateInput.current]
  refine pairwise_append.mpr ⟨pairwise_append.mpr ⟨pairwise_append.mpr ⟨pairwise_append.mpr
    ⟨hbroken, hgroup (b := false) (by simp), ?_⟩, hgroup (b := false) (by simp), ?_⟩,
    hgroup (b := true) (by simp), ?_⟩, hgroup (b := true) (by simp), ?_⟩ <;>
  · intro v hv w hw
    simp only [mem_append, mem_sortOldestFirst, mem_filter, broken] at hv hw
    apply ranked_of_tier
    grind

/-- No view is worth more than itself. -/
theorem not_outranks_self {vs : List InstanceView} (hvs : vs.Nodup) (v : InstanceView) :
    ¬ Outranks vs v v := by
  have hage : v.inst.createdBefore v.inst = false := by
    cases h : v.inst.createdBefore v.inst with
    | false => rfl
    | true => exact h.symm.trans (Instance.createdBefore_asymm h)
  simp [Outranks, hage, nodup_iff_sublist.mp hvs v]

/-- The working instances that a scale-down keeps. -/
theorem countP_working_kept (h : u.Distinct) :
    u.kept.countP InstanceView.working = u.instances.countP fun v => v.working ∧
      ((u.instances.countP fun w => w.terminating = false ∧ Outranks u.instances w v : ℕ) : Int) <
        u.scale + u.allowance := by
  have hnodup : u.instances.Nodup := Nodup.of_map _ h
  have hcount : ∀ v, u.order.countP (fun w => decide (Outranks u.instances w v)) =
      u.instances.countP fun w => w.terminating = false ∧ Outranks u.instances w v := by
    intro v
    rw [u.order_perm.countP_eq, nonTerminating, countP_filter]
    exact countP_congr fun w _ => by simp [and_comm]
  have hex : u.excess = u.nonTerminating.length - (u.scale + u.allowance) := rfl
  rw [kept, countP_drop_of_ranked (r := fun v w => Outranks u.instances w v) (order_ranked h)
    fun v _ => not_outranks_self hnodup v, u.order_perm.countP_eq, nonTerminating, countP_filter]
  refine countP_congr fun v hv => ?_
  cases hw : v.working with
  | false => simp
  | true =>
    have hlive : v.terminating = false := by
      by_contra ht
      rw [InstanceView.not_working_of_terminating (Bool.eq_true_of_not_eq_false ht)] at hw
      cases hw
    have hlt : u.order.countP (fun w => decide (Outranks u.instances w v)) < u.order.length := by
      refine lt_of_le_of_ne countP_le_length fun heq => ?_
      have hself := countP_eq_length.mp heq v (u.order_perm.mem_iff.mpr
        (mem_nonTerminating.mpr ⟨hv, hlive⟩))
      exact not_outranks_self hnodup v (of_decide_eq_true hself)
    rw [hcount, length_order] at hlt ⊢
    simp only [hlive, Bool.not_false, Bool.and_true, Bool.true_and, decide_eq_true_eq, true_and]
    omega

/-- Every serving survivor of scale-down also works. -/
theorem serving_le_working (hstaged : ∀ v ∈ u.instances, v.Staged) :
    u.survivors.countP InstanceView.serving ≤ u.survivors.countP InstanceView.working := by
  apply List.countP_mono_left
  intro v hv hserve
  exact (hstaged v (mem_nonTerminating.mp (mem_survivors.mp hv).1).1).working_of_serving hserve

/-- The traffic floor is kept exactly where scale-down keeps it: no later step can breach it, since
every serving instance works, and none can repair it. -/
theorem trafficFloor_iff (u : UpdateInput) (hparams : u.params.Derived u.scale)
    (hdistinct : u.Distinct) (hstaged : ∀ v ∈ u.instances, v.Staged) :
    TrafficFloor u ↔ ScaleDownKeepsFloor u := by
  unfold TrafficFloor ScaleDownKeepsFloor UpdateInput.floor
  rw [← u.allowance_eq, ← countP_working_kept hdistinct]
  by_cases hf : u.scale - u.params.dip ≤ 0
  · rw [max_eq_right hf]
    exact ⟨fun _ _ => Int.natCast_nonneg _, fun _ _ => Int.natCast_nonneg _⟩
  have hr := rolling_of_not_recreates_of_pos hparams (by omega)
  have hcount := countP_remaining_of_ready hdistinct hstaged hr
    (fun v => InstanceView.not_working_of_terminating)
    (p := InstanceView.working) (fun v _ hready => by simp [InstanceView.working, hready])
  have hkept : u.survivors.countP InstanceView.working = u.kept.countP InstanceView.working :=
    (survivors_perm hdistinct).countP_eq _
  have htraded := countP_traded_le (u := u) InstanceView.working
  have hserving := serving_le_working hstaged
  have hbudget : u.retireBudget = u.survivors.countP InstanceView.serving -
      (u.scale - u.params.dip) := rfl
  constructor
  · intro h hbefore
    omega
  · intro h hbefore
    omega

/-- Scale-down from two current instances to one, where the older one is inside
its minimum-ready window and the younger one is still starting. -/
def windowScaleDown : UpdateInput where
  scale := 1
  params :=
    { type := .rolling, extra := 1, dip := 0, minReady := 0, stallDeadline := 0, drain := 0 }
  instances :=
    [{ inst := ⟨"a", "a", .running, true, 1, none, none⟩, cls := .ok, running := true,
       ready := true, available := false, terminating := false },
     { inst := ⟨"b", "b", .starting, false, 2, none, none⟩, cls := .ok, running := false,
       ready := false, available := false, terminating := false }]
  createsBlocked := false

/-- The same scale-down with the ages the other way round. -/
def windowScaleDownYoung : UpdateInput :=
  { windowScaleDown with instances := windowScaleDown.instances.map fun v =>
      { v with inst := { v.inst with createdAt := 3 - v.inst.createdAt } } }

/-- The excess goes, and the working instance stays. -/
theorem trafficFloor_iff_windowScaleDownYoung :
    (planUpdate windowScaleDownYoung).retire.length = 1 ∧ TrafficFloor windowScaleDownYoung :=
  ⟨by decide, (trafficFloor_iff windowScaleDownYoung (.rolling rfl (by decide) (by decide)
    (by decide)) (by decide) (by decide)).mpr (by unfold ScaleDownKeepsFloor; decide)⟩

/-- The only working instance is retired and the one that serves nobody is kept. -/
theorem trafficFloor_fails_windowScaleDown :
    0 ≤ windowScaleDown.scale ∧ windowScaleDown.params.Derived windowScaleDown.scale ∧
      windowScaleDown.Distinct ∧ (∀ v ∈ windowScaleDown.instances, v.Staged) ∧
      ¬ TrafficFloor windowScaleDown := by
  refine ⟨by decide, .rolling rfl (by decide) (by decide) (by decide), by decide, by decide, ?_⟩
  intro h
  exact absurd (h (by decide)) (by decide)

/-- What the plan leaves standing and creates never exceeds the scale plus the allowance of an
update in flight, and a plan that creates never ends above the scale with current-template
instances. -/
theorem surge_cap (u : UpdateInput) (hscale : 0 ≤ u.scale) (hextra : 0 ≤ u.params.extra)
    (hdistinct : u.Distinct) :
    (u.instances.countP (fun v => !v.terminating) : Int) - (planUpdate u).retire.length +
        (planUpdate u).create ≤
      u.scale + (if ∃ v ∈ u.instances, v.terminating = false ∧ v.cls = .outdated
        then u.params.extra else 0) ∧
    (0 < (planUpdate u).create →
      ((removeInstances (planUpdate u).retire u.instances).countP
          (fun v => !v.terminating && v.cls == .ok) : Int) +
        (planUpdate u).repair.length + (planUpdate u).create ≤ u.scale) := by
  have hallow := u.allowance_eq
  have hretire : (planUpdate u).retire.length = u.retired.length := by
    rw [planUpdate_retire, List.length_map]
  have hrepair : (planUpdate u).repair.length = u.repair.length := by
    rw [planUpdate_repair, List.length_map]
  have hnt : u.instances.countP (fun v => !v.terminating) = u.nonTerminating.length :=
    List.countP_eq_length_filter
  have hcap := length_add_create_le hscale hextra hdistinct
  refine ⟨by omega, ?_⟩
  intro hpos
  rw [planUpdate_create] at hpos ⊢
  by_cases hr : u.recreates = true
  · rw [if_pos hr] at hpos
    exact absurd hpos (lt_irrefl 0)
  · have hcur := currentTemplate_eq (Bool.eq_false_iff.mpr hr)
    have huse : u.useful = u.scale - u.currentTemplate - u.repair.length := rfl
    have hmin := u.create_eq_max
    rw [if_neg hr] at hpos ⊢
    omega

/-- The same rollout before its first replacement is created. -/
def rolloutStart : UpdateInput := { midRollout with instances := midRollout.instances.take 2 }

/-- The first tick of a rollout. -/
theorem surge_cap_rolloutStart :
    0 < (planUpdate rolloutStart).create ∧
      ((removeInstances (planUpdate rolloutStart).retire rolloutStart.instances).countP
          (fun v => !v.terminating && v.cls == .ok) : Int) +
        (planUpdate rolloutStart).repair.length + (planUpdate rolloutStart).create ≤
          rolloutStart.scale :=
  ⟨by decide, (surge_cap rolloutStart (by decide) (by decide) (by decide)).2 (by decide)⟩

end Rune.Rollout
