import Mathlib.Data.Int.Init
import Mathlib.Data.List.Basic
import Mathlib.Data.Set.Function

/-!
# Texts joined by a separator

Joining texts by a separator that none of them contains loses nothing, except that no
text at all and one empty text are joined to the same. Numbers are written with digits
and a sign, so a separator that is neither never occurs in one.
-/

namespace Rune.Core

open List

/-- The text does not contain the separator. -/
def Avoids (c : Char) (s : String) : Prop := c ∉ s.toList

instance (c : Char) (s : String) : Decidable (Avoids c s) :=
  inferInstanceAs (Decidable (_ ∉ _))

/-- The texts in order, with the separator between any two. -/
def joinWith (c : Char) (xs : List String) : String :=
  String.intercalate (String.singleton c) xs

theorem toList_joinWith (c : Char) (xs : List String) :
    (joinWith c xs).toList = [c].intercalate (xs.map String.toList) := by
  rw [joinWith, String.toList_intercalate, String.toList_singleton]

variable {c : Char} {xs : List String}

/-- Splitting at the separator gives the texts back. -/
theorem splitOn_joinWith (h : ∀ x ∈ xs, Avoids c x) (hne : xs ≠ []) :
    (joinWith c xs).toList.splitOn c = xs.map String.toList := by
  rw [toList_joinWith]
  refine splitOn_intercalate c ?_ (by simpa using hne)
  intro l hl
  obtain ⟨x, hx, rfl⟩ := mem_map.mp hl
  exact h x hx

/-- The parts can be told from the text. -/
theorem joinWith_inj {ys : List String} (hx : ∀ x ∈ xs, Avoids c x) (hy : ∀ y ∈ ys, Avoids c y)
    (hxne : xs ≠ []) (hyne : ys ≠ []) (h : joinWith c xs = joinWith c ys) : xs = ys := by
  have hsplit := congrArg (fun s => s.toList.splitOn c) h
  simp only [splitOn_joinWith hx hxne, splitOn_joinWith hy hyne] at hsplit
  exact map_injective_iff.mpr (fun _ _ => String.toList_injective) hsplit

/-- A join of texts that are not empty is empty only if there are none. -/
theorem joinWith_eq_empty (hne : ∀ x ∈ xs, x ≠ "") (h : joinWith c xs = "") : xs = [] := by
  cases xs with
  | nil => rfl
  | cons x rest =>
    have hlist := congrArg String.toList h
    rw [toList_joinWith] at hlist
    have hx : x.toList = [] := by
      cases rest with
      | nil => simpa [intercalate] using hlist
      | cons y rest => simp [intercalate] at hlist
    exact absurd (String.toList_eq_nil_iff.mp hx) (hne x mem_cons_self)

/-- Lists of texts that are not empty are determined by their join, the empty list
included. -/
theorem joinWith_inj_of_ne {ys : List String} (hx : ∀ x ∈ xs, Avoids c x ∧ x ≠ "")
    (hy : ∀ y ∈ ys, Avoids c y ∧ y ≠ "") (h : joinWith c xs = joinWith c ys) : xs = ys := by
  by_cases hxne : xs = []
  · subst hxne
    exact (joinWith_eq_empty (fun y hmem => (hy y hmem).2) h.symm).symm
  · by_cases hyne : ys = []
    · subst hyne
      exact joinWith_eq_empty (fun x hmem => (hx x hmem).2) h
    · exact joinWith_inj (fun x hmem => (hx x hmem).1) (fun y hmem => (hy y hmem).1) hxne hyne h

/-- A join avoids what its texts and its separator avoid. -/
theorem avoids_joinWith {d : Char} (hcd : c ≠ d) (h : ∀ x ∈ xs, Avoids c x) :
    Avoids c (joinWith d xs) := by
  rw [Avoids, toList_joinWith]
  induction xs with
  | nil => simp [intercalate]
  | cons x rest ih =>
    have hrest := ih fun y hy => h y (mem_cons_of_mem _ hy)
    have hx : c ∉ x.toList := h x mem_cons_self
    cases rest with
    | nil => simpa [intercalate] using hx
    | cons y rest =>
      simp only [map_cons, intercalate_cons_cons, mem_append, mem_singleton, not_or] at hrest ⊢
      exact ⟨⟨hx, hcd⟩, hrest⟩

/-- Items that are determined by their texts are, up to order, determined by the list of
the texts in any order. -/
theorem perm_of_perm_map {α β : Type*} {f : α → β} {s : Set α} (hf : s.InjOn f) {xs ys : List α}
    (hx : ∀ x ∈ xs, x ∈ s) (hy : ∀ y ∈ ys, y ∈ s) (h : (xs.map f).Perm (ys.map f)) :
    xs.Perm ys := by
  cases xs with
  | nil =>
    have hnil : ys.map f = [] := List.Perm.nil_eq h |>.symm
    rw [map_eq_nil_iff.mp hnil]
  | cons x rest =>
    have : Nonempty α := ⟨x⟩
    have hback : ∀ {l : List α}, (∀ a ∈ l, a ∈ s) →
        (l.map f).map (Function.invFunOn f s) = l := by
      intro l hl
      rw [map_map]
      exact (map_congr_left fun a ha => hf.leftInvOn_invFunOn (hl a ha)).trans (map_id l)
    rw [← hback hx, ← hback hy]
    exact h.map _

theorem avoids_natRepr (hc : c.isDigit = false) (n : ℕ) : Avoids c n.repr := by
  intro hmem
  rw [Nat.toList_repr] at hmem
  have hdigit := Nat.isDigit_of_mem_toDigits (by decide) (by decide) hmem
  rw [hc] at hdigit
  cases hdigit

theorem avoids_intRepr (hc : c.isDigit = false) (hsign : c ≠ '-') (n : ℤ) : Avoids c n.repr := by
  cases n with
  | ofNat m => exact avoids_natRepr hc m
  | negSucc m =>
    have hm := avoids_natRepr hc (m + 1)
    simp only [Avoids, Int.repr, String.toList_append, mem_append] at hm ⊢
    rintro (h | h)
    · exact hsign (mem_singleton.mp h)
    · exact hm h

theorem intRepr_injective : Function.Injective Int.repr := by
  have hnat : ∀ {m n : ℕ}, m.repr = n.repr → m = n := by
    intro m n h
    have hdigits : Nat.toDigits 10 m = Nat.toDigits 10 n := by
      simpa only [Nat.toList_repr] using congrArg String.toList h
    rw [← Nat.ofDigitChars_ten_toDigits (n := m), hdigits, Nat.ofDigitChars_ten_toDigits]
  have hsign : ∀ m n : ℕ, m.repr ≠ "-" ++ n.repr := by
    intro m n h
    have hmem : '-' ∈ m.repr.toList := by
      rw [h, String.toList_append]
      exact mem_append_left _ mem_cons_self
    exact avoids_natRepr rfl m hmem
  intro a b h
  cases a with
  | ofNat m =>
    cases b with
    | ofNat n => exact congrArg Int.ofNat (hnat h)
    | negSucc n => exact absurd h (hsign m (n + 1))
  | negSucc m =>
    cases b with
    | ofNat n => exact absurd h.symm (hsign n (m + 1))
    | negSucc n =>
      have hlist := congrArg String.toList h
      simp only [Int.repr, String.toList_append, append_cancel_left_eq] at hlist
      have hsucc := hnat (String.toList_injective hlist)
      exact congrArg Int.negSucc (Nat.succ.inj hsucc)

end Rune.Core
