import Rune.Models.Rollout.Floor
import Rune.Models.Rollout.Tick

/-!
# The warm fleet under a bad template

The old fleet is running but withdrawn by its readiness probe, and no replacement
ever serves: a created instance stays unready, or crashes and is then broken. Step
3b charges its budget for missing slots and for replacements that do not serve yet.
A broken replacement is neither, so every crash lets one more warm instance go,
unless the fleet stands above the scale by as many.
-/

namespace Rune.Rollout

open Rune.Core UpdateInput List

/-- What a tick under a bad template shows of an instance: the old ones stay as they
are, and a replacement crashes or does not serve. -/
def BadObservation (v w : InstanceView) : Prop :=
  if v.cls = .outdated then w = v
  else w.id = v.id ∧ w.terminating = false ∧ (w.cls = .broken ∨ w.cls = .ok ∧ w.serving = false)

/-- Plan, apply, create and observe. -/
def BadTick (u : UpdateInput) (t : List InstanceView) : Prop :=
  ∃ fresh, Creates u fresh ∧ List.Forall₂ BadObservation (applyPlan u fresh) t

/-- An old instance that runs and is not ready. -/
structure WarmView (v : InstanceView) : Prop where
  outdated : v.cls = .outdated
  running : v.running = true
  not_ready : v.ready = false
  not_available : v.available = false
  not_terminating : v.terminating = false

/-- `N` ticks of a bad template over a fleet that starts at the scale and is warm. -/
structure BadRun (scale : Int) (params : UpdateParams) (s : ℕ → List InstanceView) (N : ℕ) :
    Prop where
  length_start : ((s 0).length : Int) = scale
  distinct_start : DistinctKeys InstanceView.id (s 0)
  warm_start : ∀ v ∈ s 0, WarmView v
  tick : ∀ n < N, BadTick (fleetInput scale params (s n)) (s (n + 1))

/-- The original instances that are no longer in the fleet after `n` ticks. Old views
do not change, so these are the retired ones. -/
def lostCount (s : ℕ → List InstanceView) (n : ℕ) : ℕ := (s 0).countP fun v => decide (v ∉ s n)

/-- How many replacements step 3b lets wait at a time. -/
def UpdateParams.waitLimit (p : UpdateParams) : Int := max p.dip 1

/-- Every crashed replacement stands above the scale, or the whole fleet is within
the limit. -/
def CrashesCovered (scale : Int) (params : UpdateParams) (s : List InstanceView) : Prop :=
  (brokenCount s : Int) ≤ max (s.length - scale) 0 ∨ scale ≤ params.waitLimit

/-- What holds of the fleet at every tick: nothing serves, the old instances are as they
were, and the surge cap is kept. -/
structure WarmFleet (scale : Int) (params : UpdateParams) (s₀ s : List InstanceView) : Prop where
  distinct : DistinctKeys InstanceView.id s
  not_terminating : ∀ v ∈ s, v.terminating = false
  original : ∀ v ∈ s, v.cls = .outdated → v ∈ s₀
  not_serving : ∀ v ∈ s, v.cls = .ok → v.serving = false
  length_le : (s.length : Int) ≤ scale + params.extra

variable {scale : Int} {params : UpdateParams} {s₀ s t : List InstanceView} {v w : InstanceView}
  {l m : List InstanceView}

theorem WarmView.not_serving (h : WarmView v) : v.serving = false := by
  simp [InstanceView.serving, h.not_available]

theorem BadObservation.id_eq (h : BadObservation v w) : w.id = v.id := by
  unfold BadObservation at h
  split at h
  · rw [h]
  · exact h.1

/-- An instance seen as outdated was outdated before and has not changed. -/
theorem BadObservation.eq_of_outdated (h : BadObservation v w) (hw : w.cls = .outdated) :
    w = v := by
  unfold BadObservation at h
  split at h
  · exact h
  · rcases h.2.2 with hc | hc
    · rw [hc] at hw
      cases hw
    · rw [hc.1] at hw
      cases hw

theorem BadObservation.outdated_iff (h : BadObservation v w) :
    w.cls = .outdated ↔ v.cls = .outdated := by
  constructor
  · intro hw
    rw [← h.eq_of_outdated hw, hw]
  · intro hv
    rw [BadObservation, if_pos hv] at h
    rw [h, hv]

theorem ids_of_observed (h : List.Forall₂ BadObservation l m) :
    m.map InstanceView.id = l.map InstanceView.id := by
  induction h with
  | nil => rfl
  | cons hvw _ ih => rw [map_cons, map_cons, hvw.id_eq, ih]

theorem outdatedCount_of_observed (h : List.Forall₂ BadObservation l m) :
    outdatedCount m = outdatedCount l := by
  induction h with
  | nil => rfl
  | @cons v w l m hvw _ ih =>
    have hclass : w.isClass .outdated = v.isClass .outdated := by
      rw [Bool.eq_iff_iff, InstanceView.isClass_iff, InstanceView.isClass_iff, hvw.outdated_iff]
    unfold outdatedCount at ih ⊢
    rw [countP_cons, countP_cons, hclass, ih]

theorem exists_of_mem_observed (h : List.Forall₂ BadObservation l m) (hw : w ∈ m) :
    ∃ v ∈ l, BadObservation v w := by
  induction h with
  | nil => cases hw
  | @cons v w' l m hvw _ ih =>
    rcases mem_cons.mp hw with rfl | hw
    · exact ⟨v, mem_cons_self, hvw⟩
    · obtain ⟨v', hv', ho⟩ := ih hw
      exact ⟨v', mem_cons_of_mem _ hv', ho⟩

section Step

variable {u : UpdateInput} (hw : WarmFleet u.scale u.params s₀ u.instances)
include hw

theorem WarmFleet.nonTerminating_eq : u.nonTerminating = u.instances :=
  filter_eq_self.mpr fun v hv => by simp [hw.not_terminating v hv]

/-- A tick keeps the invariant. -/
theorem WarmFleet.step (hscale : 0 ≤ u.scale) (hextra : 0 ≤ u.params.extra)
    (hwarm : ∀ v ∈ s₀, WarmView v) (h : BadTick u t) : WarmFleet u.scale u.params s₀ t := by
  obtain ⟨fresh, hf, hobs⟩ := h
  have hdist : u.Distinct := hw.distinct
  have hold : ∀ v ∈ applyPlan u fresh, v.cls = .outdated → v ∈ s₀ := by
    intro v hv hc
    rcases mem_applyPlan.mp hv with ⟨hm, _⟩ | hm
    · exact hw.original v hm hc
    · rw [hf.cls_eq v hm] at hc
      cases hc
  refine { distinct := ?_, not_terminating := ?_, original := ?_, not_serving := ?_,
           length_le := ?_ }
  · rw [DistinctKeys, ids_of_observed hobs]
    exact hf.distinct
  · intro w hmem
    obtain ⟨v, hv, hvw⟩ := exists_of_mem_observed hobs hmem
    by_cases hc : v.cls = .outdated
    · have he : w = v := by rwa [BadObservation, if_pos hc] at hvw
      rw [he]
      exact (hwarm v (hold v hv hc)).not_terminating
    · rw [BadObservation, if_neg hc] at hvw
      exact hvw.2.1
  · intro w hmem hc
    obtain ⟨v, hv, hvw⟩ := exists_of_mem_observed hobs hmem
    have he := hvw.eq_of_outdated hc
    rw [he]
    exact hold v hv (hvw.outdated_iff.mp hc)
  · intro w hmem hc
    obtain ⟨v, _, hvw⟩ := exists_of_mem_observed hobs hmem
    have hne : v.cls ≠ .outdated := by
      intro hv
      rw [hvw.outdated_iff.mpr hv] at hc
      cases hc
    rw [BadObservation, if_neg hne] at hvw
    rcases hvw.2.2 with hb | hok
    · rw [hb] at hc
      cases hc
    · exact hok.2
  · have hcount := countP_applyPlan hdist fresh fun _ => true
    simp only [countP_true] at hcount
    have hcap := length_add_create_le hscale hextra hdist
    have hcreate := planUpdate_create_nonneg u
    have hlen := hobs.length_eq
    have hfresh := hf.length_eq
    rw [planUpdate_repair, length_map] at hfresh
    rw [hw.nonTerminating_eq] at hcap
    have hallow : u.allowance ≤ u.params.extra := by
      unfold allowance
      split
      · exact le_rfl
      · exact hextra
    omega

theorem BadTick.outdatedCount_add (h : BadTick u t) :
    outdatedCount t + u.retired.countP (InstanceView.isClass .outdated) =
      outdatedCount u.instances := by
  obtain ⟨fresh, hf, hobs⟩ := h
  rw [outdatedCount_of_observed hobs]
  exact hf.outdated_applyPlan hw.distinct

variable (ho : 0 < outdatedCount u.instances)
include ho

/-- While an old instance stands there is no excess. -/
theorem WarmFleet.excess_nonpos : u.excess ≤ 0 := by
  have hlen : u.outdated.length = outdatedCount u.instances := by
    rw [outdated, hw.nonTerminating_eq, outdatedCount, countP_eq_length_filter]
    rfl
  have hex : u.excess = u.nonTerminating.length - (u.scale + u.allowance) := rfl
  have hle := hw.length_le
  rw [hw.nonTerminating_eq, allowance, hlen] at hex
  omega

theorem WarmFleet.survivors_eq : u.survivors = u.instances := by
  rw [survivors_eq_without, retireExcess_eq_nil (hw.excess_nonpos ho), hw.nonTerminating_eq]
  exact without_nil_keys _ _

variable (hwarm : ∀ v ∈ s₀, WarmView v)
include hwarm

theorem WarmFleet.warm_of_mem_liveOutdated {v : InstanceView} (hv : v ∈ u.liveOutdated) :
    WarmView v := by
  rw [mem_liveOutdated, hw.survivors_eq ho] at hv
  exact hwarm v (hw.original v hv.1 hv.2)

/-- Step 3 has nothing to retire: the old instances run. -/
theorem WarmFleet.retireUnrouted_eq_nil : u.retireUnrouted = [] := by
  have hunrouted : u.unrouted = [] := by
    apply filter_eq_nil_iff.mpr
    intro v hv
    have hv' := hw.warm_of_mem_liveOutdated ho hwarm hv
    simp [InstanceView.routed, hv'.running, hv'.not_terminating]
  rw [retireUnrouted_eq hw.distinct, retireExcess_eq_nil (hw.excess_nonpos ho), hunrouted,
    append_nil]

/-- Every current-template instance is charged as waiting. -/
theorem WarmFleet.waiting_eq : u.waiting = okCount u.instances := by
  rw [waiting]
  congr 1
  apply countP_congr
  intro v hv
  rw [hw.retireUnrouted_eq_nil ho hwarm]
  by_cases hc : v.cls = .ok
  · simp [hc, hw.not_terminating v hv, isRetired, hw.not_serving v hv hc]
  · simp [hc]

/-- The budget of step 3b is short of the replacements in flight that crashed. -/
theorem WarmFleet.unreadyBudget_eq : u.unreadyBudget = u.params.waitLimit -
    (u.scale - outdatedCount u.instances) + brokenCount u.instances -
      max (u.instances.length - u.scale) 0 := by
  have hbudget : u.unreadyBudget =
      max u.params.dip 1 - max (u.scale - u.live) 0 - u.waiting := rfl
  have hlive : u.live = u.instances.length := by rw [live, hw.survivors_eq ho]
  have hlimit : u.params.waitLimit = max u.params.dip 1 := rfl
  have hwait := hw.waiting_eq ho hwarm
  have hlen := length_eq_counts u.instances
  omega

/-- Below the limit, old instances are retired by step 3b alone. -/
theorem WarmFleet.countP_retired (hcreates : u.createsBlocked = false)
    (htype : u.params.type = .rolling) (hlimit : u.params.waitLimit < u.scale) :
    u.retired.countP (InstanceView.isClass .outdated) =
      min u.unreadyBudget.toNat (outdatedCount u.instances) := by
  have hdist : u.Distinct := hw.distinct
  have hr : u.recreates = false := by simp [recreates, htype]
  have hrouted := hw.retireUnrouted_eq_nil ho hwarm
  have hexcess := retireExcess_eq_nil (hw.excess_nonpos ho)
  have hwithdrawn : u.withdrawn = u.liveOutdated := by
    apply filter_eq_self.mpr
    intro v hv
    have hv' := hw.warm_of_mem_liveOutdated ho hwarm hv
    simp [hv'.running, hv'.not_ready, hrouted, isRetired]
  have hlen : u.liveOutdated.length = outdatedCount u.instances := by
    rw [liveOutdated, hw.survivors_eq ho, outdatedCount, countP_eq_length_filter]
    rfl
  have htraded : u.traded = [] := by
    have havail : u.survivors.countP InstanceView.serving = 0 := by
      apply countP_eq_zero_of_forall
      intro v hv
      rw [hw.survivors_eq ho] at hv
      cases hc : v.cls with
      | ok => exact hw.not_serving v hv hc
      | broken => exact InstanceView.not_serving_of_broken hc
      | outdated => exact (hwarm v (hw.original v hv hc)).not_serving
    have hbudget : u.retireBudget = u.survivors.countP InstanceView.serving -
        (u.scale - u.params.dip) := rfl
    have hdip : u.params.dip ≤ u.params.waitLimit := le_max_left _ _
    have hnone : u.retireBudget.toNat = 0 := by omega
    rw [traded, hnone, take_zero]
  have hunrouted : u.unrouted = [] := by
    have happend := retireUnrouted_eq hdist
    rw [hrouted] at happend
    exact (append_eq_nil_iff.mp happend.symm).2
  have hall : ∀ v ∈ u.liveOutdated.take u.unreadyBudget.toNat,
      v.isClass .outdated = true := by
    intro v hv
    exact InstanceView.isClass_iff.mpr (mem_liveOutdated.mp (mem_of_mem_take hv)).2
  rw [retired_eq_of_steps hdist hr, hexcess, hunrouted, htraded, unready, hcreates,
    if_neg (by decide), hwithdrawn, nil_append, nil_append, append_nil,
    countP_eq_length.mpr hall, length_take, hlen]

end Step

namespace BadRun

variable {s : ℕ → List InstanceView} {N : ℕ}

/-- The fleet of every tick meets the invariant. -/
theorem warmFleet (h : BadRun scale params s N) (hscale : 0 ≤ scale) (hextra : 0 ≤ params.extra)
    (n : ℕ) (hn : n ≤ N) : WarmFleet scale params (s 0) (s n) := by
  induction n with
  | zero =>
    refine ⟨h.distinct_start, fun v hv => (h.warm_start v hv).not_terminating, fun v hv _ => hv,
      fun v hv _ => (h.warm_start v hv).not_serving, ?_⟩
    rw [h.length_start]
    omega
  | succ n ih =>
    exact WarmFleet.step (u := fleetInput scale params (s n)) (ih (by omega)) hscale hextra
      h.warm_start (h.tick n hn)

/-- An original instance is either in the fleet or lost. -/
theorem lostCount_add (h : BadRun scale params s N) (hscale : 0 ≤ scale)
    (hextra : 0 ≤ params.extra) (n : ℕ) (hn : n ≤ N) :
    (lostCount s n + outdatedCount (s n) : Int) = scale := by
  have hw := h.warmFleet hscale hextra n hn
  have hperm : ((s 0).filter fun v => decide (v ∈ s n)).Perm
      ((s n).filter (InstanceView.isClass .outdated)) := by
    rw [perm_ext_iff_of_nodup (List.Nodup.filter _ h.distinct_start.of_map)
      (List.Nodup.filter _ hw.distinct.of_map)]
    intro v
    simp only [mem_filter, decide_eq_true_iff, InstanceView.isClass_iff]
    constructor
    · rintro ⟨hv, hm⟩
      exact ⟨hm, (h.warm_start v hv).outdated⟩
    · rintro ⟨hm, hc⟩
      exact ⟨hw.original v hm hc, hm⟩
  have hcount : (s 0).countP (fun v => decide (v ∈ s n)) = outdatedCount (s n) := by
    rw [countP_eq_length_filter, hperm.length_eq, outdatedCount, countP_eq_length_filter]
  have hsplit := length_eq_countP_add_countP (fun v => decide (v ∈ s n)) (l := s 0)
  have hlost : lostCount s n =
      (s 0).countP fun v => decide ¬decide (v ∈ s n) = true := by
    unfold lostCount
    congr 1
    funext v
    simp only [decide_eq_true_iff]
  have hstart := h.length_start
  omega

/-- A tick stays within the limit exactly where it finds the crashes covered. -/
theorem lostCount_succ_le_iff (h : BadRun scale params s N) (hscale : 0 ≤ scale)
    (hextra : 0 ≤ params.extra) (htype : params.type = .rolling) {n : ℕ} (hn : n < N)
    (hle : (lostCount s n : Int) ≤ params.waitLimit) :
    (lostCount s (n + 1) : Int) ≤ params.waitLimit ↔ CrashesCovered scale params (s n) := by
  have hnow := h.lostCount_add hscale hextra n (Nat.le_of_lt hn)
  have hnext := h.lostCount_add hscale hextra (n + 1) hn
  by_cases hlimit : scale ≤ params.waitLimit
  · exact iff_of_true (by omega) (Or.inr hlimit)
  have hw := h.warmFleet hscale hextra n (Nat.le_of_lt hn)
  let u := fleetInput scale params (s n)
  have ho : 0 < outdatedCount u.instances := by
    have hdef : u.instances = s n := rfl
    rw [hdef]
    omega
  have hadd := BadTick.outdatedCount_add (u := u) hw (h.tick n hn)
  have hretired := WarmFleet.countP_retired (u := u) hw ho h.warm_start rfl htype
    (not_le.mp hlimit)
  have hbudget := WarmFleet.unreadyBudget_eq (u := u) hw ho h.warm_start
  simp only [u, fleetInput] at hadd hretired hbudget ho
  constructor
  · intro hlost
    left
    omega
  · rintro (hcovered | hcovered)
    · omega
    · exact absurd hcovered hlimit

end BadRun

/-- Over a whole run under a bad template at most `max dip 1` of the original instances
are retired, exactly if every tick finds its crashed replacements covered. -/
theorem warm_fleet_survives_iff (scale : Int) (params : UpdateParams) (hscale : 1 ≤ scale)
    (hparams : params.Derived scale) (htype : params.type = .rolling)
    (s : ℕ → List InstanceView) (N : ℕ) (hrun : BadRun scale params s N) :
    (∀ n ≤ N, (lostCount s n : Int) ≤ max params.dip 1) ↔
      ∀ n < N, CrashesCovered scale params (s n) := by
  have hs : 0 ≤ scale := by omega
  have hextra := hparams.extra_nonneg
  constructor
  · intro h n hn
    exact (hrun.lostCount_succ_le_iff hs hextra htype hn (h n (Nat.le_of_lt hn))).mp (h (n + 1) hn)
  · intro h n hn
    induction n with
    | zero =>
      have hzero : lostCount s 0 = 0 := by
        apply countP_eq_zero_of_forall
        intro v hv
        simp [hv]
      omega
    | succ n ih =>
      exact (hrun.lostCount_succ_le_iff hs hextra htype hn (ih (Nat.le_of_lt hn))).mpr (h n hn)

/-- A running instance that no probe has reported ready. -/
def unreadyView (id : String) (cls : CompatClass) : InstanceView where
  inst := ⟨id, id, .running, false, 0, none, none⟩
  cls := cls
  running := true
  ready := false
  available := false
  terminating := false

/-- Two warm instances, surging: the replacements stay unready. -/
def unreadyLoop : ℕ → List InstanceView
  | 0 => [unreadyView "a" .outdated, unreadyView "b" .outdated]
  | 1 => [unreadyView "b" .outdated, unreadyView "c" .ok]
  | _ => [unreadyView "b" .outdated, unreadyView "c" .ok, unreadyView "d" .ok]

/-- The same two instances: the first replacement crashes. -/
def crashLoop : ℕ → List InstanceView
  | 0 => [unreadyView "a" .outdated, unreadyView "b" .outdated]
  | 1 => [unreadyView "b" .outdated, unreadyView "c" .broken]
  | _ => [unreadyView "d" .ok, unreadyView "e" .ok]

instance (v w : InstanceView) : Decidable (BadObservation v w) :=
  inferInstanceAs (Decidable (if v.cls = .outdated then w = v else _))

theorem warmView_unreadyView (id : String) : WarmView (unreadyView id .outdated) :=
  ⟨rfl, rfl, rfl, rfl, rfl⟩

/-- The two instances that both rollouts start from. -/
theorem warmView_start :
    ∀ v ∈ [unreadyView "a" .outdated, unreadyView "b" .outdated], WarmView v := by
  intro v hv
  simp only [mem_cons, not_mem_nil, or_false] at hv
  rcases hv with rfl | rfl
  · exact warmView_unreadyView "a"
  · exact warmView_unreadyView "b"

/-- The first run is a bad one. -/
theorem unreadyLoop_badRun : BadRun 2 midRollout.params unreadyLoop 3 := by
  refine ⟨by decide, by decide, warmView_start, fun n hn => ?_⟩
  match n with
  | 0 => exact ⟨[unreadyView "c" .ok], ⟨by decide, by decide, by decide, by decide⟩, by decide⟩
  | 1 => exact ⟨[unreadyView "d" .ok], ⟨by decide, by decide, by decide, by decide⟩, by decide⟩
  | 2 => exact ⟨[], ⟨by decide, by decide, by decide, by decide⟩, by decide⟩

/-- So is the second. -/
theorem crashLoop_badRun : BadRun 2 midRollout.params crashLoop 2 := by
  refine ⟨by decide, by decide, warmView_start, fun n hn => ?_⟩
  match n with
  | 0 => exact ⟨[unreadyView "c" .ok], ⟨by decide, by decide, by decide, by decide⟩, by decide⟩
  | 1 =>
    exact ⟨[unreadyView "d" .ok, unreadyView "e" .ok],
      ⟨by decide, by decide, by decide, by decide⟩, by decide⟩

/-- While the replacements only stay unready, at most one warm instance is lost. -/
theorem warm_fleet_survives_unreadyLoop :
    BadRun 2 midRollout.params unreadyLoop 3 ∧
      ∀ n ≤ 3, (lostCount unreadyLoop n : Int) ≤ max midRollout.params.dip 1 := by
  refine ⟨unreadyLoop_badRun, (warm_fleet_survives_iff 2 midRollout.params (by decide)
    (.rolling rfl (by decide) (by decide) (by decide)) rfl unreadyLoop 3
    unreadyLoop_badRun).mpr ?_⟩
  intro n hn
  match n with
  | 0 => exact Or.inl (by decide)
  | 1 => exact Or.inl (by decide)
  | 2 => exact Or.inl (by decide)

/-- One crash later the whole warm fleet is gone although nothing has ever served. -/
theorem warm_fleet_lost_crashLoop :
    midRollout.params.Derived 2 ∧ BadRun 2 midRollout.params crashLoop 2 ∧
      max midRollout.params.dip 1 < (lostCount crashLoop 2 : Int) :=
  ⟨.rolling rfl (by decide) (by decide) (by decide), crashLoop_badRun, by decide⟩

end Rune.Rollout
