import Mathlib.Data.Nat.Digits.Defs
import Mathlib.Data.String.Basic
import Rune.Models.Rollout.Instance

/-!
# Scaling a stateful service down

Every reconcile pass first removes what is above the scale and then fills the
slots. The excess is chosen by age, the oldest first, and the slots go by name.
With one replica for each ordinal the two agree exactly if every replica below
the new scale is younger than every one above it; then one pass is enough.
-/

namespace Rune.Stateful

open List

open Rune.Rollout (Time)

/-- The stable name of a slot. -/
def generateInstanceName (service : String) (index : ℕ) : String :=
  service ++ "-" ++ toString index

/-- A name has one ordinal. -/
theorem generateInstanceName_injective (service : String) :
    Function.Injective (generateInstanceName service) := by
  intro i j h
  have hdigits : toString i = toString j := (String.append_right_inj _).mp h
  rw [← @Nat.ofDigitChars_ten_toDigits i, String.ofList_injective hdigits,
    Nat.ofDigitChars_ten_toDigits]

/-- A listed instance of a stateful service. -/
structure Replica where
  id : String
  name : String
  createdAt : Time
  deriving DecidableEq

/-- The listed replicas, with all that have been deleted and created so far. -/
structure Replicas where
  live : List Replica
  deleted : List Replica := []
  created : List Replica := []

/-- What one pass meets: which replicas still fit the service, and the identity
and the time that a new replica of a slot gets. -/
structure Tick where
  compatible : Replica → Bool
  id : ℕ → String
  now : ℕ → Time

/-- The order in which a scale-down keeps replicas; names decide where both have
no creation time. -/
def newer (a b : Replica) : Bool :=
  if a.createdAt ≠ 0 ∨ b.createdAt ≠ 0 then b.createdAt < a.createdAt else a.name < b.name

/-- In the order of removal. -/
def newestFirst (l : List Replica) : List Replica :=
  l.insertionSort fun a b => newer b a = false

/-- Delete replicas. -/
def Replicas.delete (r : Replicas) (gone : List Replica) : Replicas :=
  { r with live := r.live.filter (· ∉ gone), deleted := r.deleted ++ gone }

/-- Remove what is above the scale. -/
def scaleDownService (scale : ℕ) (r : Replicas) : Replicas :=
  if r.live.length ≤ scale then r else r.delete ((newestFirst r.live).drop scale)

/-- Fill one slot: replicas of its name are deleted up to the first that fits, and
a new one is created where none does. -/
def ensureSlot (service : String) (tick : Tick) (listed : List Replica) (r : Replicas) (i : ℕ) :
    Replicas :=
  let named := listed.filter fun x => x.name = generateInstanceName service i
  let r := r.delete (named.takeWhile fun x => !tick.compatible x)
  if named.any tick.compatible then r
  else
    let new : Replica := ⟨tick.id i, generateInstanceName service i, tick.now i⟩
    { r with live := r.live ++ [new], created := r.created ++ [new] }

/-- Fill the slots, going by one listing. -/
def ensureStatefulInstances (service : String) (scale : ℕ) (tick : Tick) (r : Replicas) :
    Replicas :=
  (List.range scale).foldl (ensureSlot service tick r.live) r

/-- One reconcile pass. -/
def pass (service : String) (scale : ℕ) (tick : Tick) (r : Replicas) : Replicas :=
  ensureStatefulInstances service scale tick (scaleDownService scale r)

/-- The replicas after the first passes. -/
def afterPasses (service : String) (scale : ℕ) (ticks : ℕ → Tick) (start : List Replica) :
    ℕ → Replicas
  | 0 => { live := start }
  | k + 1 => pass service scale (ticks k) (afterPasses service scale ticks start k)

section Scale

variable {service : String} {m n : ℕ} {start : List Replica} {ticks : ℕ → Tick}

/-- Exactly the replicas from the new scale on are ever deleted, none is created,
and the passes come to rest at the slots below the scale. -/
structure KeepsLowOrdinals (service : String) (m : ℕ) (start : List Replica)
    (run : ℕ → Replicas) : Prop where
  deleted : ∀ x, (∃ k, x ∈ (run k).deleted) ↔
    x ∈ start ∧ ∃ j, m ≤ j ∧ x.name = generateInstanceName service j
  created : ∀ k, (run k).created = []
  settles : ∃ k, (∀ j, k ≤ j → run j = run k) ∧
    ((run k).live.map Replica.name).Perm ((List.range m).map (generateInstanceName service))

/-- Every replica below the new scale is younger than every one above it. -/
def LowOrdinalsNewer (service : String) (m : ℕ) (start : List Replica) : Prop :=
  ∀ x ∈ start, ∀ y ∈ start, ∀ i < m, ∀ j, m ≤ j →
    x.name = generateInstanceName service i → y.name = generateInstanceName service j →
      y.createdAt < x.createdAt

/-- The replica is in a slot below the scale. -/
def isLow (service : String) (m : ℕ) (x : Replica) : Bool :=
  x.name ∈ (List.range m).map (generateInstanceName service)

theorem isLow_iff {x : Replica} :
    isLow service m x = true ↔ ∃ i < m, x.name = generateInstanceName service i := by
  simp [isLow, eq_comm]

/-- Where there is one replica for each ordinal, one for each ordinal below the
scale is low. -/
theorem low_names (hmn : m ≤ n)
    (hnames : (start.map Replica.name).Perm ((List.range n).map (generateInstanceName service))) :
    ((start.filter (isLow service m)).map Replica.name).Perm
      ((List.range m).map (generateInstanceName service)) := by
  have hrange : (range n).filter
      (fun i => generateInstanceName service i ∈
        (range m).map (generateInstanceName service)) = range m := by
    obtain ⟨d, rfl⟩ := Nat.exists_eq_add_of_le hmn
    simp only [mem_map_of_injective (generateInstanceName_injective service), mem_range]
    rw [range_add, filter_append,
      filter_eq_self.mpr (by simp), filter_eq_nil_iff.mpr (by simp), append_nil]
  have hfilter : (start.filter (isLow service m)).map Replica.name =
      (start.map Replica.name).filter
        (· ∈ (range m).map (generateInstanceName service)) := by
    rw [filter_map]
    rfl
  rw [hfilter]
  refine (hnames.filter _).trans ?_
  rw [filter_map]
  exact (List.Perm.of_eq hrange).map _

theorem newer_eq_false {a b : Replica} :
    newer b a = false ↔ b.createdAt < a.createdAt ∨
      b.createdAt = a.createdAt ∧ (a.createdAt = 0 → a.name ≤ b.name) := by
  unfold newer
  split_ifs with hzero
  · simp only [decide_eq_false_iff_not, Int.not_lt]
    refine ⟨fun h => (lt_or_eq_of_le h).imp id fun he => ⟨he, fun h0 => ?_⟩,
      fun h => h.elim le_of_lt fun h => le_of_eq h.1⟩
    rw [he, h0] at hzero
    simp at hzero
  · simp only [decide_eq_false_iff_not, not_lt]
    have ha : a.createdAt = 0 := by
      by_contra h
      exact hzero (Or.inr h)
    have hb : b.createdAt = 0 := by
      by_contra h
      exact hzero (Or.inl h)
    simp [ha, hb]

instance : Std.Total fun a b : Replica => newer b a = false where
  total a b := by
    simp only [newer_eq_false]
    rcases lt_trichotomy a.createdAt b.createdAt with h | h | h
    · exact Or.inr (Or.inl h)
    · rcases le_total a.name b.name with hn | hn
      · exact Or.inl (Or.inr ⟨h.symm, fun _ => hn⟩)
      · exact Or.inr (Or.inr ⟨h, fun _ => hn⟩)
    · exact Or.inl (Or.inl h)

instance : IsTrans Replica fun a b => newer b a = false where
  trans a b c hab hbc := by
    simp only [newer_eq_false] at hab hbc ⊢
    rcases hab with hab | ⟨hab, habn⟩ <;> rcases hbc with hbc | ⟨hbc, hbcn⟩
    · exact Or.inl (hbc.trans hab)
    · exact Or.inl (hbc ▸ hab)
    · exact Or.inl (hab ▸ hbc)
    · exact Or.inr ⟨hbc.trans hab, fun h0 => (habn h0).trans (hbcn (hab.trans h0))⟩

/-- What a scale-down removes is older than what it keeps. -/
theorem older_of_excess (htimes : (start.map Replica.createdAt).Nodup) {x y : Replica}
    (hx : x ∈ (newestFirst start).take m) (hy : y ∈ (newestFirst start).drop m) :
    y.createdAt < x.createdAt := by
  have hperm : (newestFirst start).Perm start := perm_insertionSort _ _
  have hsorted : (newestFirst start).Pairwise fun a b => newer b a = false :=
    pairwise_insertionSort _ _
  have hnodup : (newestFirst start).Nodup :=
    hperm.nodup_iff.mpr (List.Nodup.of_map _ htimes)
  rw [← take_append_drop m (newestFirst start)] at hsorted hnodup
  rcases newer_eq_false.mp ((pairwise_append.mp hsorted).2.2 x hx y hy) with h | ⟨h, -⟩
  · exact h
  · have hxs : x ∈ start := hperm.subset (mem_of_mem_take hx)
    have hys : y ∈ start := hperm.subset (mem_of_mem_drop hy)
    have hxy : y = x := inj_on_of_nodup_map htimes hys hxs h
    exact absurd hxy.symm ((nodup_append.mp hnodup).2.2 x hx y hy)

/-- Exactly as many replicas are low as the scale keeps. If all that are removed
are high, all that are kept are low, and the other way round. -/
theorem kept_low_iff (hlow : (start.filter (isLow service m)).length = m) (hm : m ≤ start.length) :
    (∀ x ∈ (newestFirst start).drop m, isLow service m x = false) ↔
      ∀ x ∈ (newestFirst start).take m, isLow service m x = true := by
  have hperm : (newestFirst start).Perm start := perm_insertionSort _ _
  have hcount : ((newestFirst start).take m).countP (isLow service m) +
      ((newestFirst start).drop m).countP (isLow service m) = m := by
    rw [← countP_append, take_append_drop, hperm.countP_eq, countP_eq_length_filter, hlow]
  have hlen : ((newestFirst start).take m).length = m := by
    rw [length_take, hperm.length_eq]
    omega
  constructor
  · intro h
    have hzero : ((newestFirst start).drop m).countP (isLow service m) = 0 :=
      countP_eq_zero.mpr fun x hx => by simp [h x hx]
    exact countP_eq_length.mp (by omega)
  · intro h x hx
    have hall := countP_eq_length.mpr h
    have hzero : ((newestFirst start).drop m).countP (isLow service m) = 0 := by omega
    simpa using countP_eq_zero.mp hzero x hx

/-- Slots that are filled by what fits are left alone. -/
theorem ensureStatefulInstances_of_filled {tick : Tick} {r : Replicas}
    (hcompat : ∀ x, tick.compatible x = true)
    (hfilled : ∀ i < m, ∃ x ∈ r.live, x.name = generateInstanceName service i) :
    ensureStatefulInstances service m tick r = r := by
  have hdelete : ∀ r : Replicas, r.delete [] = r := fun r => by simp [Replicas.delete]
  have hslot : ∀ i < m, ensureSlot service tick r.live r i = r := by
    intro i hi
    obtain ⟨x, hx, hname⟩ := hfilled i hi
    have hany : (r.live.filter fun x => x.name = generateInstanceName service i).any
        tick.compatible = true :=
      any_eq_true.mpr ⟨x, by simp [hx, hname], hcompat x⟩
    have hstale : (r.live.filter fun x => x.name = generateInstanceName service i).takeWhile
        (fun x => !tick.compatible x) = [] := by
      cases r.live.filter fun x => x.name = generateInstanceName service i <;> simp [hcompat]
    simp [ensureSlot, hany, hstale, hdelete]
  have hall : ∀ l : List ℕ, (∀ i ∈ l, i < m) →
      l.foldl (ensureSlot service tick r.live) r = r := by
    intro l hl
    induction l with
    | nil => rfl
    | cons i l ih =>
      rw [foldl_cons, hslot i (hl i mem_cons_self)]
      exact ih fun j hj => hl j (mem_cons_of_mem i hj)
  exact hall _ fun i hi => mem_range.mp hi

/-- Low replicas alone, one for each slot, are at rest. -/
theorem pass_of_low {tick : Tick} {r : Replicas} (hcompat : ∀ x, tick.compatible x = true)
    (hnames : (r.live.map Replica.name).Perm
      ((List.range m).map (generateInstanceName service))) :
    pass service m tick r = r := by
  have hlen : r.live.length = m := by
    have h := hnames.length_eq
    simpa using h
  rw [pass, scaleDownService, if_pos (by omega)]
  refine ensureStatefulInstances_of_filled hcompat fun i hi => ?_
  have hmem : generateInstanceName service i ∈ r.live.map Replica.name :=
    hnames.mem_iff.mpr (mem_map_of_mem (mem_range.mpr hi))
  obtain ⟨x, hx, hname⟩ := mem_map.mp hmem
  exact ⟨x, hx, hname⟩

/-- The first pass starts by deleting the oldest. -/
theorem first_deleted (hmn : m < start.length) :
    (scaleDownService m { live := start }).deleted = (newestFirst start).drop m ∧
      (scaleDownService m { live := start }).created = [] := by
  rw [scaleDownService, if_neg (by simpa using hmn)]
  exact ⟨rfl, rfl⟩

/-- Deletions are never taken back. -/
theorem deleted_subset_ensure {tick : Tick} {r : Replicas} {x : Replica} (hx : x ∈ r.deleted) :
    x ∈ (ensureStatefulInstances service m tick r).deleted := by
  have hslot : ∀ (listed : List Replica) (r : Replicas) (i : ℕ), x ∈ r.deleted →
      x ∈ (ensureSlot service tick listed r i).deleted := by
    intro listed r i hx
    simp only [ensureSlot]
    split_ifs <;> exact mem_append_left _ hx
  unfold ensureStatefulInstances
  generalize r.live = listed
  induction range m generalizing r with
  | nil => exact hx
  | cons i l ih => exact ih (hslot listed r i hx)

/-- With one replica for each ordinal, those that are not low are the others. -/
theorem isLow_eq_false_iff
    (hnames : (start.map Replica.name).Perm ((List.range n).map (generateInstanceName service)))
    {x : Replica} (hx : x ∈ start) :
    isLow service m x = false ↔ ∃ j, m ≤ j ∧ x.name = generateInstanceName service j := by
  rw [← Bool.not_eq_true, isLow_iff]
  constructor
  · intro hlow
    obtain ⟨j, -, hj⟩ := mem_map.mp (hnames.subset (mem_map_of_mem hx))
    exact ⟨j, not_lt.mp fun hlt => hlow ⟨j, hlt, hj.symm⟩, hj.symm⟩
  · rintro ⟨j, hmj, hj⟩ ⟨i, him, hi⟩
    have hij : i = j := generateInstanceName_injective service (hi.symm.trans hj)
    omega

/-- Where the low ordinals are the newer ones, a scale-down removes all others. -/
theorem excess_high (hmn : m < n)
    (hnames : (start.map Replica.name).Perm ((List.range n).map (generateInstanceName service)))
    (htimes : (start.map Replica.createdAt).Nodup) (h : LowOrdinalsNewer service m start) :
    ∀ x ∈ (newestFirst start).drop m, isLow service m x = false := by
  have hlen : start.length = n := by simpa using hnames.length_eq
  have hlow : (start.filter (isLow service m)).length = m := by
    simpa using (low_names hmn.le hnames).length_eq
  have hmem : ∀ {x}, x ∈ newestFirst start → x ∈ start :=
    fun hx => (perm_insertionSort _ _).subset hx
  rw [kept_low_iff hlow (by omega)]
  intro w hw
  by_contra hhigh
  rw [Bool.not_eq_true] at hhigh
  have hsome : ∃ z ∈ (newestFirst start).drop m, isLow service m z = true := by
    by_contra hnone
    have hall := (kept_low_iff hlow (by omega)).mp fun z hz => by
      by_contra hz'
      exact hnone ⟨z, hz, by simpa using hz'⟩
    rw [hall w hw] at hhigh
    cases hhigh
  obtain ⟨z, hz, hzlow⟩ := hsome
  obtain ⟨i, him, hi⟩ := isLow_iff.mp hzlow
  obtain ⟨j, hmj, hj⟩ := (isLow_eq_false_iff hnames (hmem (mem_of_mem_take hw))).mp hhigh
  have hnewer := h z (hmem (mem_of_mem_drop hz)) w (hmem (mem_of_mem_take hw)) i him j hmj
    hi hj
  exact lt_asymm hnewer (older_of_excess htimes hw hz)

/-- Every replica is kept or removed by a scale-down. -/
theorem mem_take_or_drop (k : ℕ) {x : Replica} (hx : x ∈ start) :
    x ∈ (newestFirst start).take k ∨ x ∈ (newestFirst start).drop k := by
  have hmem : x ∈ newestFirst start := (perm_insertionSort _ _).mem_iff.mpr hx
  rwa [← take_append_drop k (newestFirst start), mem_append] at hmem

/-- What a scale-down leaves when it removes exactly the others. -/
theorem live_of_excess_high (hlow : (start.filter (isLow service m)).length = m)
    (hm : m ≤ start.length)
    (h : ∀ x ∈ (newestFirst start).drop m, isLow service m x = false) :
    start.filter (· ∉ (newestFirst start).drop m) = start.filter (isLow service m) := by
  have hkept := (kept_low_iff hlow hm).mp h
  refine filter_congr fun x hx => ?_
  rcases mem_take_or_drop m hx with htake | hdrop
  · have hlowx := hkept x htake
    have hnot : x ∉ (newestFirst start).drop m := fun hdrop => by
      rw [h x hdrop] at hlowx
      cases hlowx
    simp [hnot, hlowx]
  · simp [hdrop, h x hdrop]

/-- If only the others are ever deleted, then the low ordinals are newer. -/
theorem lowOrdinalsNewer_of_keeps (hmn : m < n)
    (hnames : (start.map Replica.name).Perm ((List.range n).map (generateInstanceName service)))
    (htimes : (start.map Replica.createdAt).Nodup)
    (h : KeepsLowOrdinals service m start (afterPasses service m ticks start)) :
    LowOrdinalsNewer service m start := by
  have hlen : start.length = n := by simpa using hnames.length_eq
  have hlow : (start.filter (isLow service m)).length = m := by
    simpa using (low_names hmn.le hnames).length_eq
  obtain ⟨hdeleted, -⟩ := @first_deleted m start (by omega)
  have hexcess : ∀ z ∈ (newestFirst start).drop m, isLow service m z = false := by
    intro z hz
    have hmem : z ∈ (afterPasses service m ticks start 1).deleted :=
      deleted_subset_ensure (by rwa [afterPasses, hdeleted])
    obtain ⟨hzs, hhigh⟩ := (h.deleted z).mp ⟨1, hmem⟩
    exact (isLow_eq_false_iff hnames hzs).mpr hhigh
  have hkept := (kept_low_iff hlow (by omega)).mp hexcess
  intro x hx y hy i him j hmj hi hj
  have hxlow : isLow service m x = true := isLow_iff.mpr ⟨i, him, hi⟩
  have hyhigh : isLow service m y = false := (isLow_eq_false_iff hnames hy).mpr ⟨j, hmj, hj⟩
  refine older_of_excess htimes ((mem_take_or_drop m hx).resolve_right fun hdrop => ?_)
    ((mem_take_or_drop m hy).resolve_left fun htake => ?_)
  · rw [hexcess x hdrop] at hxlow
    cases hxlow
  · rw [hkept y htake] at hyhigh
    cases hyhigh

/-- Where a scale-down removes exactly the others, nothing happens after it. -/
theorem afterPasses_of_excess_high (hmn : m < n)
    (hnames : (start.map Replica.name).Perm ((List.range n).map (generateInstanceName service)))
    (hcompat : ∀ k x, (ticks k).compatible x = true)
    (hlive : (scaleDownService m { live := start }).live = start.filter (isLow service m)) (k : ℕ) :
    afterPasses service m ticks start (k + 1) = scaleDownService m { live := start } := by
  have hlownames := low_names hmn.le hnames
  induction k with
  | zero =>
    refine ensureStatefulInstances_of_filled (hcompat 0) fun i hi => ?_
    have hmem := hlownames.mem_iff.mpr
      (mem_map_of_mem (f := generateInstanceName service) (mem_range.mpr hi))
    rw [← hlive] at hmem
    obtain ⟨x, hx, hname⟩ := mem_map.mp hmem
    exact ⟨x, hx, hname⟩
  | succ k ih =>
    rw [afterPasses, ih]
    exact pass_of_low (hcompat _) (by rw [hlive]; exact hlownames)

/-- Scaling down keeps the low ordinals exactly where they are newer than the
others. -/
theorem keepsLowOrdinals_iff (hmn : m < n)
    (hnames : (start.map Replica.name).Perm ((List.range n).map (generateInstanceName service)))
    (htimes : (start.map Replica.createdAt).Nodup)
    (hcompat : ∀ k x, (ticks k).compatible x = true) :
    KeepsLowOrdinals service m start (afterPasses service m ticks start) ↔
      LowOrdinalsNewer service m start := by
  refine ⟨lowOrdinalsNewer_of_keeps hmn hnames htimes, fun h => ?_⟩
  have hlen : start.length = n := by simpa using hnames.length_eq
  have hlownames := low_names hmn.le hnames
  have hlow : (start.filter (isLow service m)).length = m := by simpa using hlownames.length_eq
  have hm : m ≤ start.length := by omega
  obtain ⟨hdeleted, hcreated⟩ := @first_deleted m start (by omega)
  have hexcess := excess_high hmn hnames htimes h
  have hlive : (scaleDownService m { live := start }).live = start.filter (isLow service m) := by
    rw [scaleDownService, if_neg (show ¬ start.length ≤ m by omega)]
    exact live_of_excess_high hlow hm hexcess
  have hrest := @afterPasses_of_excess_high service m n start ticks hmn hnames hcompat hlive
  refine ⟨fun x => ⟨?_, fun ⟨hx, hhigh⟩ => ⟨1, ?_⟩⟩, fun k => ?_, 1, fun j hj => ?_, ?_⟩
  · rintro ⟨_ | k, hk⟩
    · cases hk
    · rw [hrest, hdeleted] at hk
      have hxs := (perm_insertionSort _ _).subset (mem_of_mem_drop hk)
      exact ⟨hxs, (isLow_eq_false_iff hnames hxs).mp (hexcess x hk)⟩
  · rw [hrest 0, hdeleted]
    refine (mem_take_or_drop m hx).resolve_left fun htake => ?_
    have hxlow := (kept_low_iff hlow hm).mp hexcess x htake
    rw [(isLow_eq_false_iff hnames hx).mpr hhigh] at hxlow
    cases hxlow
  · rcases k with _ | k
    · rfl
    · rw [hrest, hcreated]
  · obtain ⟨k, rfl⟩ := Nat.exists_eq_add_of_le' hj
    rw [hrest, hrest 0]
  · rw [hrest 0, hlive]
    exact hlownames

end Scale

/-- Passes that find every replica fitting and date new ones after `3`. -/
def laterTicks (k : ℕ) : Tick where
  compatible _ := true
  id i := s!"new-{k}-{i}"
  now i := 3 + k + i

/-- Two slots, the first of which was filled again later. -/
def refilledSlots : List Replica := [⟨"a", "db-0", 2⟩, ⟨"b", "db-1", 1⟩]

/-- A gap that was refilled. -/
theorem keepsLowOrdinals_of_refilled :
    KeepsLowOrdinals "db" 1 refilledSlots (afterPasses "db" 1 laterTicks refilledSlots) := by
  refine (keepsLowOrdinals_iff (n := 2) (by decide) ?_ (by decide) fun _ _ => rfl).mpr ?_
  · decide
  · intro x hx y hy i hi j hj hxi hyj
    obtain rfl : i = 0 := by omega
    have hx' : x = ⟨"a", "db-0", 2⟩ := by
      rcases mem_pair.mp hx with rfl | rfl
      · rfl
      · exact absurd hxi (by decide)
    subst hx'
    rcases mem_pair.mp hy with rfl | rfl
    · have h0 : 0 = j := generateInstanceName_injective "db" (hxi.symm.trans hyj)
      omega
    · decide

/-- Two slots filled in order. -/
def filledSlots : List Replica := [⟨"a", "db-0", 1⟩, ⟨"b", "db-1", 2⟩]

/-- Scaled from two to one, the passes delete the replica of the first slot, make a
new one for it, and then delete the other. -/
theorem scale_down_deletes_first_slot :
    (filledSlots.map Replica.name = (List.range 2).map (generateInstanceName "db") ∧
      (filledSlots.map Replica.createdAt).Nodup) ∧
      (afterPasses "db" 1 laterTicks filledSlots 1).deleted = [⟨"a", "db-0", 1⟩] ∧
      (afterPasses "db" 1 laterTicks filledSlots 1).created = [⟨"new-0-0", "db-0", 3⟩] ∧
      (afterPasses "db" 1 laterTicks filledSlots 2).live = [⟨"new-0-0", "db-0", 3⟩] ∧
      ¬ KeepsLowOrdinals "db" 1 filledSlots (afterPasses "db" 1 laterTicks filledSlots) := by
  refine ⟨by decide, by decide, by decide, by decide, fun h => ?_⟩
  exact absurd (h.created 1) (by decide)

end Rune.Stateful
