import Mathlib.Data.List.Infix

/-!
# Cutting a text at a token

A text is cut at the first occurrence of a token, at the last occurrence of a character, or
after the characters of a class. Where the part before the token avoids its first character,
the part after the character avoids it, or the next character is not of the class, the cut
falls where the text was joined.
-/

namespace Rune.Core

open List

variable {α : Type*} [DecidableEq α]

/-- What stands before the first occurrence of a token, and what after it. -/
def cut (tok : List α) : List α → Option (List α × List α)
  | [] => if tok = [] then some ([], []) else none
  | c :: s =>
    if tok <+: c :: s then some ([], (c :: s).drop tok.length)
    else (cut tok s).map fun p => (c :: p.1, p.2)

/-- What stands before the last occurrence of a character, and what after it. -/
def cutLast (c : α) : List α → Option (List α × List α)
  | [] => none
  | x :: s =>
    match cutLast c s with
    | some p => some (x :: p.1, p.2)
    | none => if x = c then some ([], s) else none

variable {s tok : List α}

theorem cut_cons_of_not_isPrefix {c : α} (h : ¬ tok <+: c :: s) :
    cut tok (c :: s) = (cut tok s).map fun p => (c :: p.1, p.2) := by
  rw [cut, if_neg h]

theorem cut_cons_of_ne {t c : α} (h : c ≠ t) :
    cut (t :: tok) (c :: s) = (cut (t :: tok) s).map fun p => (c :: p.1, p.2) :=
  cut_cons_of_not_isPrefix fun hp => h (cons_prefix_cons.1 hp).1.symm

/-- The part that avoids the first character of the token is passed over. -/
theorem cut_append_of_notMem {t : α} {a : List α} (h : t ∉ a) (s : List α) :
    cut (t :: tok) (a ++ s) = (cut (t :: tok) s).map fun p => (a ++ p.1, p.2) := by
  induction a with
  | nil => simp
  | cons c a ih =>
    rw [mem_cons, not_or] at h
    rw [cons_append, cut_cons_of_ne fun hc => h.1 hc.symm, ih h.2, Option.map_map]
    rfl

/-- The first occurrence is found. -/
theorem cut_append_append {t : α} {a : List α} (h : t ∉ a) (b : List α) :
    cut (t :: tok) (a ++ (t :: tok ++ b)) = some (a, b) := by
  have hp : t :: tok <+: t :: (tok ++ b) := prefix_append (t :: tok) b
  rw [cut_append_of_notMem h, cons_append, cut]
  simp

omit [DecidableEq α]

theorem pair_infix_cons {a b c : α} :
    [a, b] <:+: c :: s ↔ (a = c ∧ s.head? = some b) ∨ [a, b] <:+: s := by
  have hhead : [b] <+: s ↔ s.head? = some b := by
    cases s with
    | nil => simp
    | cons d s => simp [cons_prefix_cons, eq_comm]
  rw [infix_cons_iff, cons_prefix_cons, hhead]

/-- A part that avoids the first character is passed over. -/
theorem pair_infix_of_append {a b : α} {e : List α} (ha : a ∉ e) (h : [a, b] <:+: e ++ s) :
    [a, b] <:+: s := by
  induction e with
  | nil => exact h
  | cons c e ih =>
    rw [mem_cons, not_or] at ha
    rw [cons_append, pair_infix_cons] at h
    rcases h with ⟨hac, -⟩ | h
    · exact absurd hac ha.1
    · exact ih ha.2 h

variable [DecidableEq α]

theorem cutLast_eq_none {c : α} (h : c ∉ s) : cutLast c s = none := by
  induction s with
  | nil => rfl
  | cons x s ih =>
    rw [mem_cons, not_or] at h
    rw [cutLast, ih h.2]
    exact if_neg fun hx => h.1 hx.symm

/-- The last occurrence is found. -/
theorem cutLast_append_cons {c : α} {b : List α} (h : c ∉ b) (a : List α) :
    cutLast c (a ++ c :: b) = some (a, b) := by
  induction a with
  | nil => rw [nil_append, cutLast, cutLast_eq_none h, if_pos rfl]
  | cons x a ih => rw [cons_append, cutLast, ih]

omit [DecidableEq α] in
theorem span_append_of_stop {p : α → Bool} {a b : List α} (ha : ∀ x ∈ a, p x = true)
    (hb : ∀ x ∈ b.head?, p x = false) : (a ++ b).span p = (a, b) := by
  rw [span_eq_takeWhile_dropWhile, takeWhile_append_of_pos ha, dropWhile_append_of_pos ha]
  cases b with
  | nil => simp
  | cons x b => simp [hb x rfl]

end Rune.Core
