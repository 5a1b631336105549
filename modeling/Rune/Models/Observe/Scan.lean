import Rune.Models.Observe.Parse

/-!
# White space and identifiers

White space is taken off at the two ends of a text, and identifiers hold none.
-/

namespace Rune.Observe

open Rune.Core List
open Policy (isSpace trimSpace)

/-- A text that does not end with white space. -/
def Sealed (s : Text) : Prop := ∀ c ∈ s.getLast?, isSpace c = false

/-- A text that does not begin with white space either. -/
@[mk_iff] structure Tidy (s : Text) : Prop where
  head : ∀ c ∈ s.head?, isSpace c = false
  last : Sealed s

variable {s : Text} {c : Char}

theorem Sealed.append {t : Text} (hs : Sealed s) (ht : Sealed t) : Sealed (s ++ t) := by
  intro c hc
  rw [getLast?_append] at hc
  cases hlast : t.getLast? with
  | none =>
    rw [hlast] at hc
    exact hs c hc
  | some d =>
    exact ht c (hlast ▸ hc)

theorem sealed_concat (s : Text) (hc : isSpace c = false) : Sealed (s ++ [c]) := by
  intro d hd
  obtain rfl : c = d := by simpa using hd
  exact hc

theorem Tidy.append {t : Text} (hs : Tidy s) (hne : s ≠ []) (ht : Sealed t) : Tidy (s ++ t) := by
  refine ⟨fun c hc => ?_, hs.last.append ht⟩
  rw [head?_append_of_ne_nil _ hne] at hc
  exact hs.head c hc

theorem tidy_cons (hc : isSpace c = false) (hs : Sealed (c :: s)) : Tidy (c :: s) := by
  refine ⟨fun d hd => ?_, hs⟩
  obtain rfl : c = d := by simpa using hd
  exact hc

theorem tidy_of_forall (h : ∀ c ∈ s, isSpace c = false) : Tidy s :=
  ⟨fun c hc => h c (mem_of_head? hc), fun c hc => h c (mem_of_getLast? hc)⟩

/-- Nothing to trim. -/
theorem trimSpace_of_tidy (h : Tidy s) : trimSpace s = s := by
  have hkeep {l : Text} (hl : ∀ c ∈ l.head?, isSpace c = false) : l.dropWhile isSpace = l := by
    cases l with
    | nil => rfl
    | cons c l => rw [dropWhile_cons_of_neg (by simp [hl c rfl])]
  have hlast : ∀ c ∈ s.reverse.head?, isSpace c = false := by
    rw [head?_reverse]
    exact h.last
  rw [trimSpace, hkeep h.head, hkeep hlast, reverse_reverse]

/-- The space before a range is taken off. -/
theorem trimSpace_append_space (s : Text) : trimSpace (s ++ [' ']) = trimSpace s := by
  rw [trimSpace, trimSpace, dropWhile_append]
  split
  · rename_i hs
    rw [isEmpty_iff.1 hs]
    rfl
  · rw [reverse_append]
    rfl

theorem isSpace_eq_false (hlow : 0x20 < c.toNat) (hhigh : c.toNat < 0x80) : isSpace c = false := by
  simp only [isSpace, mem_cons, not_mem_nil, or_false, Bool.or_eq_false_iff,
    Bool.and_eq_false_imp, decide_eq_true_eq, decide_eq_false_iff_not]
  omega

theorem isIdentChar_range (h : isIdentChar c = true) : 0x20 < c.toNat ∧ c.toNat < 0x80 := by
  simp only [isIdentChar, isAlpha, Bool.or_eq_true, Bool.and_eq_true, beq_iff_eq,
    decide_eq_true_eq, Char.le_def, UInt32.le_iff_toNat_le] at h
  have h' : c = '_' ∨ (48 ≤ c.toNat ∧ c.toNat ≤ 122) := by
    rcases h with ((h | h) | h) | h
    · exact Or.inl h
    · exact Or.inr ⟨le_trans (by decide) h.1, h.2⟩
    · exact Or.inr ⟨le_trans (by decide) h.1, le_trans h.2 (by decide)⟩
    · exact Or.inr ⟨h.1, le_trans h.2 (by decide)⟩
  rcases h' with rfl | h'
  · decide
  · omega

theorem isSpace_of_isIdentChar (h : isIdentChar c = true) : isSpace c = false :=
  isSpace_eq_false (isIdentChar_range h).1 (isIdentChar_range h).2

/-- The labels of a query. -/
@[mk_iff] structure Ident (s : Text) : Prop where
  head : ∃ c ∈ s.head?, isAlpha c = true
  all : ∀ c ∈ s, isIdentChar c = true

instance decidableIdent (s : Text) : Decidable (Ident s) :=
  decidable_of_iff (s.head?.any isAlpha = true ∧ s.all isIdentChar = true)
    (by simp [ident_iff, Option.any_eq_true])

theorem Ident.ne_nil (h : Ident s) : s ≠ [] := by
  rintro rfl
  obtain ⟨c, hc, -⟩ := h.head
  simp at hc

theorem Ident.tidy (h : Ident s) : Tidy s :=
  tidy_of_forall fun c hc => isSpace_of_isIdentChar (h.all c hc)

end Rune.Observe
