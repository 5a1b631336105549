import Mathlib.Data.List.Pairwise
import Mathlib.Data.List.TakeDrop

/-!
# Binary search without an order

The search halves an interval, and whatever the test is, it stops where the test fails just
before and holds at the place itself. What stands behind the cut is what passes the test if
and only if nothing that passes stands before something that fails.
-/

namespace Rune.Core

open List

/-- The first place at which the test holds, if it holds from there on. -/
def searchBetween (f : ℕ → Bool) (i j : ℕ) : ℕ :=
  if i < j then
    let h := (i + j) / 2
    if f h then searchBetween f i h else searchBetween f (h + 1) j
  else i
termination_by j - i

/-- The search stops at a border of the test. -/
structure Border (f : ℕ → Bool) (n r : ℕ) : Prop where
  le : r ≤ n
  before : ∀ k, k + 1 = r → f k = false
  here : r < n → f r = true

/-- The search ends at a border. -/
theorem border_searchBetween (f : ℕ → Bool) {n i j : ℕ} (hij : i ≤ j) (hjn : j ≤ n)
    (hi : ∀ k, k + 1 = i → f k = false) (hj : j < n → f j = true) :
    Border f n (searchBetween f i j) := by
  fun_induction searchBetween f i j with
  | case1 i j hlt h hf ih => exact ih (by omega) (by omega) hi fun _ => hf
  | case2 i j hlt h hf ih =>
    refine ih (by omega) hjn ?_ hj
    rintro k ⟨⟩
    simpa using hf
  | case3 i j hlt =>
    obtain rfl : i = j := by omega
    exact ⟨hjn, hi, hj⟩

variable {α : Type*} (p : α → Bool)

/-- The place in a list at which the search stops. -/
def searchList (l : List α) : ℕ := searchBetween (fun i => l[i]?.any p) 0 l.length

/-- No item that passes the test stands before one that fails it. -/
def Parted (l : List α) : Prop := l.Pairwise fun a b => p a = true → p b = true

variable {p} {l : List α}

/-- So does that of a list. -/
theorem border_searchList : Border (fun i => l[i]?.any p) l.length (searchList p l) :=
  border_searchBetween _ (Nat.zero_le _) (Nat.le_refl _) (by simp) (by simp)

theorem Parted.mono (h : Parted p l) {i j : ℕ} (hij : i ≤ j) (hj : j < l.length)
    (hi : l[i]?.any p = true) : l[j]?.any p = true := by
  rcases Nat.eq_or_lt_of_le hij with rfl | hlt
  · exact hi
  · have hp := pairwise_iff_getElem.mp h i j (by omega) hj hlt
    rw [getElem?_eq_getElem (by omega)] at hi
    rw [getElem?_eq_getElem hj]
    exact hp hi

/-- What is cut off is what fails the test exactly in a list that is parted. -/
theorem drop_searchList_eq_filter_iff :
    l.drop (searchList p l) = l.filter p ↔ Parted p l := by
  have hsplit : l.filter p =
      (l.take (searchList p l)).filter p ++ (l.drop (searchList p l)).filter p := by
    rw [← filter_append, take_append_drop]
  constructor
  · intro h
    have hbehind : ∀ b ∈ l.drop (searchList p l), p b = true := fun b hb =>
      (mem_filter.mp (h ▸ hb)).2
    rw [← h, filter_eq_self.mpr hbehind, eq_comm, append_left_eq_self] at hsplit
    rw [Parted, ← take_append_drop (searchList p l) l, pairwise_append]
    refine ⟨pairwise_of_forall_mem_list fun a ha _ _ hpa => ?_,
      pairwise_of_forall_mem_list fun _ _ b hb _ => hbehind b hb,
      fun _ _ b hb _ => hbehind b hb⟩
    exact absurd hpa (filter_eq_nil_iff.mp hsplit a ha)
  · intro h
    obtain ⟨hle, hbefore, hhere⟩ := border_searchList (p := p) (l := l)
    have hfront : ∀ a ∈ l.take (searchList p l), ¬ p a = true := by
      intro a ha hpa
      obtain ⟨i, hi, rfl⟩ := mem_take_iff_getElem.mp ha
      obtain ⟨k, hk⟩ : ∃ k, k + 1 = searchList p l := ⟨searchList p l - 1, by omega⟩
      have hlast := h.mono (i := i) (j := k) (by omega) (by omega)
        (by simpa [getElem?_eq_getElem (show i < l.length by omega)] using hpa)
      rw [hbefore k hk] at hlast
      cases hlast
    have hback : ∀ b ∈ l.drop (searchList p l), p b = true := by
      intro b hb
      obtain ⟨i, hi, rfl⟩ := mem_drop_iff_getElem.mp hb
      have hpb := h.mono (Nat.le_add_right _ i) (by omega) (hhere (by omega))
      rwa [getElem?_eq_getElem (by omega)] at hpb
    rw [hsplit, filter_eq_nil_iff.mpr hfront, filter_eq_self.mpr hback, nil_append]

end Rune.Core
