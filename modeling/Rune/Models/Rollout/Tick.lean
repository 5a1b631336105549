import Rune.Models.Rollout.PlanFacts

/-!
# Applying a plan

One reconcile pass removes the retired and the repaired instances and creates
one current-template instance for each repair and each planned create. The
created instances are arbitrary up to their class and the freshness of their
IDs. The counts of each class after the pass follow from the plan's counts.
-/

namespace Rune.Rollout

open Rune.Core UpdateInput List

/-- The class of the view is `c`. -/
def InstanceView.isClass (c : CompatClass) (v : InstanceView) : Bool := v.cls == c

variable {v : InstanceView}

@[simp] theorem InstanceView.isClass_iff {c : CompatClass} :
    v.isClass c = true ↔ v.cls = c := beq_iff_eq

/-- The planner's input for a fleet while creates are not blocked. -/
def fleetInput (scale : Int) (params : UpdateParams) (s : List InstanceView) : UpdateInput where
  scale := scale
  params := params
  instances := s
  createsBlocked := false

/-- The outdated instances of a fleet. -/
def outdatedCount (s : List InstanceView) : ℕ := s.countP (InstanceView.isClass .outdated)

/-- The current-template instances of a fleet. -/
def okCount (s : List InstanceView) : ℕ := s.countP (InstanceView.isClass .ok)

/-- The instances of a fleet that have to be repaired. -/
def brokenCount (s : List InstanceView) : ℕ := s.countP (InstanceView.isClass .broken)

/-- The three classes account for the whole fleet. -/
theorem length_eq_counts (s : List InstanceView) :
    s.length = outdatedCount s + okCount s + brokenCount s := by
  induction s with
  | nil => rfl
  | cons v s ih =>
    simp only [outdatedCount, okCount, brokenCount, countP_cons, length_cons] at ih ⊢
    cases hc : v.cls <;> simp [InstanceView.isClass, hc] <;> omega

/-- Every view that the plan takes out of the fleet. -/
def UpdateInput.gone (u : UpdateInput) : List InstanceView := u.retired ++ u.repair

/-- The fleet after the plan is executed and before the next observation. -/
def applyPlan (u : UpdateInput) (fresh : List InstanceView) : List InstanceView :=
  removeInstances ((planUpdate u).retire ++ (planUpdate u).repair) u.instances ++ fresh

/-- The instances a pass creates: as many as the plan asks for, at the current
template, with IDs that no instance of the fleet has. -/
structure Creates (u : UpdateInput) (fresh : List InstanceView) : Prop where
  length_eq : fresh.length = (planUpdate u).create.toNat + (planUpdate u).repair.length
  cls_eq : ∀ v ∈ fresh, v.cls = .ok
  not_terminating : ∀ v ∈ fresh, v.terminating = false
  distinct : DistinctKeys InstanceView.id (applyPlan u fresh)

variable {u : UpdateInput} {fresh : List InstanceView}

theorem removeInstances_gone (u : UpdateInput) :
    removeInstances ((planUpdate u).retire ++ (planUpdate u).repair) u.instances =
      without InstanceView.id (u.gone.map InstanceView.id) u.instances := by
  rw [planUpdate_retire, planUpdate_repair, ← map_append, removeInstances_map_inst, gone]

theorem mem_repair : v ∈ u.repair ↔
    v ∈ u.nonTerminating ∧ v.cls = .broken ∧ v.id ∉ u.retireExcess.map InstanceView.id := by
  simp only [repair, broken, mem_filter, beq_iff_eq, Bool.not_eq_true', not_isRetired_iff,
    and_assoc]

theorem retireExcess_subset_retired (h : u.Distinct) : u.retireExcess ⊆ u.retired := by
  intro v hv
  unfold retired
  split
  · exact mem_append_left _ hv
  · rw [retireBudgeted_eq h]
    simp only [mem_append]
    exact Or.inl (Or.inl (Or.inl hv))

/-- No instance is both retired and repaired. -/
theorem UpdateInput.Distinct.gone (h : u.Distinct) : DistinctKeys InstanceView.id u.gone := by
  refine h.retired.append (h.nonTerminating.sublist ?_) ?_
  · exact filter_sublist.trans filter_sublist
  intro v hv hm
  obtain ⟨hnt, hcls, hex⟩ := mem_repair.mp hv
  obtain ⟨w, hw, hid⟩ := mem_map.mp hm
  rcases mem_retired h hw with hw' | hw'
  · exact hex (hid ▸ mem_map_of_mem hw')
  · have he := h.nonTerminating.eq_of_key (u.liveOutdated_subset hw') hnt hid
    have ho := (mem_liveOutdated.mp hw').2
    rw [he, hcls] at ho
    cases ho

/-- Only what is there goes. -/
theorem gone_subset (h : u.Distinct) : u.gone ⊆ u.instances := by
  intro v hv
  rcases mem_append.mp hv with hv | hv
  · exact (mem_nonTerminating.mp (retired_subset h hv)).1
  · exact (mem_nonTerminating.mp (mem_repair.mp hv).1).1

/-- Who is there after a plan. -/
theorem mem_applyPlan : v ∈ applyPlan u fresh ↔
    (v ∈ u.instances ∧ v.id ∉ u.gone.map InstanceView.id) ∨ v ∈ fresh := by
  rw [applyPlan, removeInstances_gone, mem_append, mem_without]

/-- What a pass does to the number of instances with a property. -/
theorem countP_applyPlan (h : u.Distinct) (fresh : List InstanceView) (p : InstanceView → Bool) :
    (applyPlan u fresh).countP p + (u.retired.countP p + u.repair.countP p) =
      u.instances.countP p + fresh.countP p := by
  have hw := countP_without h h.gone (gone_subset h) p
  rw [gone, countP_append] at hw
  rw [applyPlan, removeInstances_gone, countP_append, gone]
  omega

/-- Repair removes broken instances only. -/
theorem countP_repair_eq_zero {c : CompatClass} (hc : c ≠ .broken) :
    u.repair.countP (InstanceView.isClass c) = 0 := by
  apply countP_eq_zero_of_forall
  intro v hv
  simp [InstanceView.isClass, (mem_repair.mp hv).2.1, hc.symm]

theorem Creates.countP_ok (hf : Creates u fresh) :
    fresh.countP (InstanceView.isClass .ok) = (planUpdate u).create.toNat + u.repair.length := by
  rw [countP_eq_length.mpr fun v hv => InstanceView.isClass_iff.mpr (hf.cls_eq v hv),
    hf.length_eq, planUpdate_repair, length_map]

theorem Creates.countP_outdated (hf : Creates u fresh) :
    fresh.countP (InstanceView.isClass .outdated) = 0 := by
  apply countP_eq_zero_of_forall
  intro v hv
  simp [InstanceView.isClass, hf.cls_eq v hv]

/-- Outdated instances leave the fleet only by retirement. -/
theorem Creates.outdated_applyPlan (hf : Creates u fresh) (h : u.Distinct) :
    (applyPlan u fresh).countP (InstanceView.isClass .outdated) +
        u.retired.countP (InstanceView.isClass .outdated) =
      u.instances.countP (InstanceView.isClass .outdated) := by
  have hcount := countP_applyPlan h fresh (InstanceView.isClass .outdated)
  have hrepair := countP_repair_eq_zero (u := u) (c := .outdated) (by decide)
  have hfresh := hf.countP_outdated
  omega

/-- Current-template instances are created for the plan's creates and repairs. -/
theorem Creates.ok_applyPlan (hf : Creates u fresh) (h : u.Distinct) :
    (applyPlan u fresh).countP (InstanceView.isClass .ok) +
        u.retired.countP (InstanceView.isClass .ok) =
      u.instances.countP (InstanceView.isClass .ok) + (planUpdate u).create.toNat +
        u.repair.length := by
  have hcount := countP_applyPlan h fresh (InstanceView.isClass .ok)
  have hrepair := countP_repair_eq_zero (u := u) (c := .ok) (by decide)
  have hfresh := hf.countP_ok
  omega

/-- A broken instance is retired as excess or repaired. -/
theorem mem_gone_of_broken (h : u.Distinct) (hv : v ∈ u.nonTerminating) (hb : v.cls = .broken) :
    v ∈ u.retired ∨ v ∈ u.repair := by
  by_cases hex : v.id ∈ u.retireExcess.map InstanceView.id
  · obtain ⟨w, hw, hid⟩ := mem_map.mp hex
    obtain rfl := h.nonTerminating.eq_of_key (u.retireExcess_subset hw) hv hid
    exact Or.inl (retireExcess_subset_retired h hw)
  · exact Or.inr (mem_repair.mpr ⟨hv, hb, hex⟩)

/-- A pass leaves no broken instance of the fleet standing. -/
theorem not_broken_of_mem_applyPlan (hf : Creates u fresh) (h : u.Distinct)
    (hnt : ∀ w ∈ u.instances, w.terminating = false) (hv : v ∈ applyPlan u fresh) :
    v.cls ≠ .broken := by
  intro hb
  rcases mem_applyPlan.mp hv with ⟨hm, hgone⟩ | hm
  · have hmem := mem_gone_of_broken h (mem_nonTerminating.mpr ⟨hm, hnt v hm⟩) hb
    exact hgone (mem_map_of_mem (mem_append.mpr hmem))
  · rw [hf.cls_eq v hm] at hb
    cases hb

/-- A view of the input is in a part of the input as soon as its instance is. -/
theorem mem_of_inst_mem (h : u.Distinct) {l : List InstanceView} (hl : l ⊆ u.instances)
    (hv : v ∈ u.instances) (hmem : v.inst ∈ l.map InstanceView.inst) : v ∈ l := by
  obtain ⟨w, hw, he⟩ := mem_map.mp hmem
  obtain rfl := DistinctKeys.eq_of_key h (hl hw) hv (congrArg Instance.id he)
  exact hw

/-- The plan retires and repairs listed instances that are not tearing down, each at most once and
in one of the two ways, and deals with every broken one; an instance of the current template is
retired only as excess. -/
theorem plan_well_formed (h : u.Distinct) :
    DistinctKeys Instance.id ((planUpdate u).retire ++ (planUpdate u).repair) ∧
    (∀ inst ∈ (planUpdate u).retire ++ (planUpdate u).repair,
      ∃ v ∈ u.instances, v.inst = inst ∧ v.terminating = false) ∧
    (∀ v ∈ u.instances, v.terminating = false → v.cls = .broken →
      Xor (v.inst ∈ (planUpdate u).retire) (v.inst ∈ (planUpdate u).repair)) ∧
    0 ≤ (planUpdate u).create ∧
    ∀ v ∈ u.instances, v.cls = .ok → v.inst ∈ (planUpdate u).retire →
      u.scale + (if ∃ w ∈ u.instances, w.terminating = false ∧ w.cls = .outdated
        then u.params.extra else 0) < u.instances.countP (fun w => !w.terminating) := by
  have hretired : u.retired ⊆ u.instances := fun v hv =>
    gone_subset h (mem_append_left _ hv)
  have hrepair : u.repair ⊆ u.instances := fun v hv =>
    gone_subset h (mem_append_right _ hv)
  rw [planUpdate_retire, planUpdate_repair, ← map_append]
  refine ⟨?_, fun inst hinst => ?_, fun v hv ht hb => ?_, planUpdate_create_nonneg u,
    fun v hv hok hmem => ?_⟩
  · rw [DistinctKeys, map_map]
    exact h.gone
  · obtain ⟨v, hv, rfl⟩ := mem_map.mp hinst
    have hlive : v ∈ u.nonTerminating := by
      rcases mem_append.mp hv with hv | hv
      · exact retired_subset h hv
      · exact (mem_repair.mp hv).1
    exact ⟨v, (mem_nonTerminating.mp hlive).1, rfl, (mem_nonTerminating.mp hlive).2⟩
  · have hnot : v ∈ u.retired → v ∉ u.repair := fun hr hp => h.gone.disjoint hr hp rfl
    rcases mem_gone_of_broken h (mem_nonTerminating.mpr ⟨hv, ht⟩) hb with hr | hp
    · exact Or.inl ⟨mem_map_of_mem hr, fun hp => hnot hr (mem_of_inst_mem h hrepair hv hp)⟩
    · exact Or.inr ⟨mem_map_of_mem hp, fun hr => hnot (mem_of_inst_mem h hretired hv hr) hp⟩
  · rcases mem_retired h (mem_of_inst_mem h hretired hv hmem) with hw | hw
    · by_contra hle
      have hex : u.excess = u.nonTerminating.length - (u.scale + u.allowance) := rfl
      rw [← u.allowance_eq, countP_eq_length_filter, ← nonTerminating] at hle
      rw [retireExcess_eq_nil (by omega)] at hw
      cases hw
    · rw [(mem_liveOutdated.mp hw).2] at hok
      cases hok

/-- A service scaled down to one: the broken instance and the older of the other two go. -/
def scaledDown : UpdateInput where
  scale := 1
  params :=
    { type := .rolling, extra := 1, dip := 0, minReady := 0, stallDeadline := 0, drain := 0 }
  instances :=
    [{ inst := ⟨"a", "a", .failed, false, 1, none, none⟩, cls := .broken, running := false,
       ready := false, available := false, terminating := false },
     { inst := ⟨"b", "b", .running, true, 2, none, none⟩, cls := .ok, running := true,
       ready := true, available := true, terminating := false },
     { inst := ⟨"c", "c", .running, true, 3, none, none⟩, cls := .ok, running := true,
       ready := true, available := true, terminating := false }]
  createsBlocked := false

/-- A fleet scaled down. -/
theorem plan_well_formed_scaledDown :
    DistinctKeys Instance.id ((planUpdate scaledDown).retire ++ (planUpdate scaledDown).repair) ∧
      scaledDown.scale < scaledDown.instances.countP (fun w => !w.terminating) := by
  have hdistinct : DistinctKeys InstanceView.id scaledDown.instances := by decide
  obtain ⟨hkeys, -, -, -, hexcess⟩ := plan_well_formed (u := scaledDown) hdistinct
  have hb : scaledDown.instances[1] ∈ scaledDown.instances := getElem_mem _
  have hlt := hexcess _ hb rfl (by decide)
  rw [if_neg (by decide), Int.add_zero] at hlt
  exact ⟨hkeys, hlt⟩

end Rune.Rollout
