import Mathlib.Data.List.Nodup
import Mathlib.Data.List.Perm.Subperm
import Mathlib.Data.List.Sort

/-!
# Lists of keyed items

Items carry a key, and a list is addressed through the keys of its items. The
central fact is that taking the keys of `r` out of a list that splits into `r`
and a rest leaves exactly the rest: every count over what is left is then a
count over the rest. The counting lemmas are for lists in which the items of
one kind all stand behind the items of the other kind, and for lists that are
ranked by a relation between their items.
-/

namespace Rune.Core

open List

variable {α κ : Type*} (key : α → κ)

/-- No two items of the list carry the same key. -/
def DistinctKeys (l : List α) : Prop := (l.map key).Nodup

instance [DecidableEq κ] (l : List α) : Decidable (DistinctKeys key l) :=
  inferInstanceAs (Decidable (List.Nodup _))

variable {key} {l l' r : List α}

theorem DistinctKeys.perm (h : DistinctKeys key l) (hp : l.Perm l') :
    DistinctKeys key l' := (hp.map key).nodup_iff.mp h

theorem DistinctKeys.sublist (h : DistinctKeys key l) (hs : l'.Sublist l) :
    DistinctKeys key l' := List.Nodup.sublist (hs.map key) h

/-- Keys on the two sides of a split never meet. -/
theorem DistinctKeys.disjoint (h : DistinctKeys key (l ++ l')) {a b : α} (ha : a ∈ l)
    (hb : b ∈ l') : key a ≠ key b := by
  have hd := disjoint_of_nodup_append (by simpa only [DistinctKeys, map_append] using h)
  intro he
  exact hd (mem_map_of_mem ha) (he ▸ mem_map_of_mem hb)

/-- Two lists with distinct keys join to one when no key of the second is in the first. -/
theorem DistinctKeys.append (h : DistinctKeys key l) (h' : DistinctKeys key l')
    (hd : ∀ b ∈ l', key b ∉ l.map key) : DistinctKeys key (l ++ l') := by
  rw [DistinctKeys, map_append]
  refine nodup_append.mpr ⟨h, h', ?_⟩
  intro k hk k' hk' he
  obtain ⟨b, hb, rfl⟩ := mem_map.mp hk'
  exact hd b hb (he ▸ hk)

/-- In a list with distinct keys an item is determined by its key. -/
theorem DistinctKeys.eq_of_key (h : DistinctKeys key l) {a b : α} (ha : a ∈ l) (hb : b ∈ l)
    (he : key a = key b) : a = b :=
  inj_on_of_nodup_map h ha hb he

variable [DecidableEq κ]

variable (key) in
/-- The items whose key is not one of `ks`. -/
def without (ks : List κ) (l : List α) : List α := l.filter fun a => decide (key a ∉ ks)

variable (key) in
@[simp] theorem without_nil_keys (l : List α) : without key [] l = l := by simp [without]

variable (key) in
theorem mem_without {ks : List κ} {a : α} :
    a ∈ without key ks l ↔ a ∈ l ∧ key a ∉ ks := by simp [without]

/-- Taking out the keys of one side of a split leaves the other side. -/
theorem without_append {rest : List α} (h : DistinctKeys key (r ++ rest)) :
    without key (r.map key) (r ++ rest) = rest := by
  have hr : r.filter (fun a => decide (key a ∉ r.map key)) = [] := by
    apply filter_eq_nil_iff.mpr
    intro a ha
    simpa only [decide_eq_true_eq, not_not] using mem_map_of_mem ha
  have hrest : rest.filter (fun a => decide (key a ∉ r.map key)) = rest := by
    apply filter_eq_self.mpr
    intro b hb
    simp only [decide_eq_true_eq, mem_map, not_exists, not_and]
    intro a ha
    exact h.disjoint ha hb
  rw [without, filter_append, hr, hrest, nil_append]

/-- The same for a list that only splits up to order. -/
theorem without_perm {rest : List α} (h : DistinctKeys key l) (hp : l.Perm (r ++ rest)) :
    (without key (r.map key) l).Perm rest := by
  have hf : (without key (r.map key) l).Perm (without key (r.map key) (r ++ rest)) := hp.filter _
  rwa [without_append (h.perm hp)] at hf

omit [DecidableEq κ] in
/-- A part of a list whose keys are distinct splits the list. -/
theorem exists_perm_append_of_subset (hr : DistinctKeys key r) (hsub : r ⊆ l) :
    ∃ rest, l.Perm (r ++ rest) := by
  obtain ⟨r', hp, hs⟩ := List.Nodup.subperm (List.Nodup.of_map key hr) hsub
  obtain ⟨rest, hrest⟩ := hs.exists_perm_append
  exact ⟨rest, hrest.trans (hp.append_right rest)⟩

/-- Counting over what is left after taking the keys of a part out. -/
theorem countP_without (h : DistinctKeys key l) (hr : DistinctKeys key r) (hsub : r ⊆ l)
    (p : α → Bool) : (without key (r.map key) l).countP p + r.countP p = l.countP p := by
  obtain ⟨rest, hp⟩ := exists_perm_append_of_subset hr hsub
  rw [(without_perm h hp).countP_eq, hp.countP_eq, countP_append, Nat.add_comm]

omit [DecidableEq κ] in
/-- A list splits into its first `n` items and the others. -/
theorem perm_take_append_drop (hp : l.Perm l') (n : ℕ) : l.Perm (l'.take n ++ l'.drop n) := by
  rwa [take_append_drop]

section Counting

variable {p : α → Bool}

theorem countP_eq_zero_of_forall {l : List α} (h : ∀ a ∈ l, p a = false) : l.countP p = 0 := by
  rw [countP_eq_zero]
  intro a ha
  simp [h a ha]

/-- Where the chosen items all stand behind the others, dropping from the
front costs a chosen item only once the others are used up. -/
theorem countP_drop_append {xs ys : List α} (hx : ∀ a ∈ xs, p a = false)
    (hy : ∀ a ∈ ys, p a = true) (n : ℕ) :
    ((xs ++ ys).drop n).countP p = min ys.length (xs.length + ys.length - n) := by
  have hxd : (xs.drop n).countP p = 0 :=
    countP_eq_zero_of_forall fun a ha => hx a (mem_of_mem_drop ha)
  have hyd : (ys.drop (n - xs.length)).countP p = (ys.drop (n - xs.length)).length :=
    countP_eq_length.mpr fun a ha => hy a (mem_of_mem_drop ha)
  rw [drop_append, countP_append, hyd, length_drop]
  omega

/-- At most `n` items are chosen among the first `n`. -/
theorem countP_take_le (l : List α) (n : ℕ) : (l.take n).countP p ≤ n :=
  Nat.le_trans countP_le_length (length_take_le n l)

end Counting

/-- Dropping the first items of a ranked list keeps those that few enough items outrank. -/
theorem countP_drop_of_ranked {p : α → Bool} {r : α → α → Prop} [DecidableRel r] {l : List α}
    (hl : l.Pairwise fun a b => (p a = true → r a b) ∧ (p b = true → ¬ r b a))
    (hirr : ∀ a ∈ l, ¬ r a a) (n : ℕ) :
    (l.drop n).countP p = l.countP fun a => p a && decide (l.countP (r a ·) + n < l.length) := by
  induction l generalizing n with
  | nil => rw [drop_nil]; rfl
  | cons a l ih =>
    cases n with
    | zero =>
      refine countP_congr fun b hb => ?_
      have hlt : (a :: l).countP (r b ·) < (a :: l).length := by
        refine lt_of_le_of_ne countP_le_length fun heq => ?_
        exact hirr b hb (by simpa using countP_eq_length.mp heq b hb)
      rw [Nat.add_zero, decide_eq_true hlt, Bool.and_true]
    | succ n =>
      obtain ⟨ha, hl⟩ := pairwise_cons.mp hl
      have hhead :
          (p a && decide ((a :: l).countP (r a ·) + (n + 1) < (a :: l).length)) = false := by
        cases hp : p a with
        | false => rfl
        | true =>
          have hall : l.countP (r a ·) = l.length :=
            countP_eq_length.mpr fun b hb => decide_eq_true ((ha b hb).1 hp)
          simp [hall, hirr a mem_cons_self]
      rw [drop_succ_cons, ih hl (fun b hb => hirr b (mem_cons_of_mem _ hb)),
        countP_cons_of_neg (by rw [hhead]; exact Bool.false_ne_true)]
      refine countP_congr fun b hb => ?_
      cases hp : p b with
      | false => rfl
      | true => simp [(ha b hb).2 hp, ← Nat.add_assoc]

/-- Two items of a list without repetitions stand in one order only. -/
theorem Nodup.not_pair_sublist_swap {a b : α} {l : List α} (hl : l.Nodup) (h : [a, b] <+ l) :
    ¬ [b, a] <+ l := by
  induction l with
  | nil => exact absurd h (by simp)
  | cons c l ih =>
    obtain ⟨hc, hl⟩ := nodup_cons.mp hl
    cases h with
    | cons _ h =>
      intro h'
      cases h' with
      | cons _ h' => exact ih hl h h'
      | cons_cons _ h' => exact hc (h.subset (by simp))
    | cons_cons _ h =>
      intro h'
      cases h' with
      | cons _ h' => exact hc (h'.subset (by simp))
      | cons_cons _ h' => exact hc (h.subset (by simp))

/-- Two items of a list stand in one order or in the other. -/
theorem pair_sublist_or_swap {a b : α} {l : List α} (ha : a ∈ l) (hb : b ∈ l) (hne : a ≠ b) :
    [a, b] <+ l ∨ [b, a] <+ l := by
  induction l with
  | nil => cases ha
  | cons c l ih =>
    rcases mem_cons.mp ha with rfl | ha'
    · exact .inl ((singleton_sublist.mpr (mem_of_ne_of_mem hne.symm hb)).cons_cons _)
    · rcases mem_cons.mp hb with rfl | hb'
      · exact .inr ((singleton_sublist.mpr ha').cons_cons _)
      · exact (ih ha' hb').imp (.cons _) (.cons _)

/-- An insertion sort leaves items that it does not tell apart as they were. -/
theorem pairwise_insertionSort_stable {r : α → α → Prop} [DecidableRel r] [Std.Total r]
    [IsTrans α r] {l : List α} (hl : l.Nodup) :
    (l.insertionSort r).Pairwise fun a b => r a b ∧ (r b a → [a, b] <+ l) := by
  rw [pairwise_iff_forall_sublist]
  intro a b hab
  have hsorted := (perm_insertionSort r l).nodup_iff.mpr hl
  refine ⟨pairwise_iff_forall_sublist.mp (pairwise_insertionSort r l) hab, fun hba => ?_⟩
  have hne : a ≠ b := by
    rintro rfl
    exact nodup_iff_sublist.mp hsorted a hab
  have hmem : ∀ x ∈ [a, b], x ∈ l := fun x hx => (mem_insertionSort r).mp (hab.subset hx)
  refine (pair_sublist_or_swap (hmem a (by simp)) (hmem b (by simp)) hne).resolve_right ?_
  exact fun h => Nodup.not_pair_sublist_swap hsorted hab (pair_sublist_insertionSort hba h)

end Rune.Core
