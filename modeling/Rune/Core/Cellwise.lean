import Mathlib.Data.List.Basic

/-!
# Sequences of operations on single cells

A store is a family of cells. An operation is addressed to one cell by its key:
it replaces the content of that cell, looks at no other, and may fail. A
sequence of operations stops at the first failure. What a sequence does to one
cell is what its operations addressed to that cell do, in their order; this
reduces facts about stores to facts about single cells.
-/

namespace Rune.Core

open List

variable {κ σ α ε : Type*} [DecidableEq κ] (key : α → κ) (op : α → σ → σ)

/-- One operation, on the cell it is addressed to. -/
def touch (s : κ → σ) (a : α) : κ → σ := Function.update s (key a) (op a (s (key a)))

/-- A sequence of operations none of which fails. -/
def touchAll (s : κ → σ) (l : List α) : κ → σ := l.foldl (touch key op) s

variable {key op}

@[simp] theorem touchAll_nil (s : κ → σ) : touchAll key op s [] = s := rfl

@[simp] theorem touchAll_cons (s : κ → σ) (a : α) (l : List α) :
    touchAll key op s (a :: l) = touchAll key op (touch key op s a) l := rfl

/-- One sequence after another. -/
theorem touchAll_append (s : κ → σ) (l m : List α) :
    touchAll key op s (l ++ m) = touchAll key op (touchAll key op s l) m :=
  foldl_append

variable {s : κ → σ} {l : List α}

theorem touch_of_ne {a : α} {k : κ} (h : key a ≠ k) : touch key op s a k = s k :=
  Function.update_of_ne (Ne.symm h) _ _

theorem touch_self (s : κ → σ) (a : α) : touch key op s a (key a) = op a (s (key a)) :=
  Function.update_self _ _ _

/-- A sequence acts on a cell through the operations addressed to it. -/
theorem touchAll_apply (s : κ → σ) (l : List α) (k : κ) :
    touchAll key op s l k = (l.filter fun a => key a = k).foldl (fun c a => op a c) (s k) := by
  induction l generalizing s with
  | nil => rfl
  | cons a l ih =>
    rw [touchAll_cons, ih]
    by_cases h : key a = k
    · subst h
      simp [touch_self]
    · simp [h, touch_of_ne h]

/-- A cell that no operation is addressed to keeps its content. -/
theorem touchAll_of_forall_ne {k : κ} (h : ∀ a ∈ l, key a ≠ k) : touchAll key op s l k = s k := by
  rw [touchAll_apply, filter_eq_nil_iff.mpr (by simpa using h), foldl_nil]

/-- Among operations with distinct keys one is addressed to its cell alone. -/
theorem filter_key_of_nodup (hd : (l.map key).Nodup) {a : α} (ha : a ∈ l) :
    (l.filter fun b => key b = key a) = [a] := by
  induction l with
  | nil => cases ha
  | cons b l ih =>
    obtain ⟨hb, hd⟩ := nodup_cons.mp hd
    rcases mem_cons.mp ha with rfl | ha
    · have hrest : (l.filter fun b => key b = key a) = [] := by
        refine filter_eq_nil_iff.mpr fun c hc he => ?_
        have hka : key c = key a := by simpa using he
        exact hb (hka ▸ mem_map_of_mem hc)
      simp [hrest]
    · have hne : key b ≠ key a := fun he => hb (he ▸ mem_map_of_mem ha)
      simp [hne, ih hd ha]

/-- Operations with distinct keys act once on each cell. -/
theorem touchAll_of_mem (hd : (l.map key).Nodup) {a : α} (ha : a ∈ l) :
    touchAll key op s l (key a) = op a (s (key a)) := by
  rw [touchAll_apply, filter_key_of_nodup hd ha, foldl_cons, foldl_nil]

variable (key op) (fails : α → σ → Option ε)

/-- How a sequence of operations ended: the store, the operations that were
performed, the failed one included, and the failure. -/
structure Halt (κ σ α ε : Type*) where
  store : κ → σ
  done : List α
  error : Option ε

/-- Perform the operations up to the first one that fails. -/
def attempt (s : κ → σ) : List α → Halt κ σ α ε
  | [] => ⟨s, [], none⟩
  | a :: l =>
    match fails a (s (key a)) with
    | some e => ⟨touch key op s a, [a], some e⟩
    | none =>
      let rest := attempt (touch key op s a) l
      ⟨rest.store, a :: rest.done, rest.error⟩

/-- No operation of the sequence fails. Unlike an attempt, the sequence goes on
past a failure. -/
def succeed (s : κ → σ) : List α → Bool
  | [] => true
  | a :: l => (fails a (s (key a))).isNone && succeed (touch key op s a) l

variable {key op fails}

/-- The store is what the operations performed have made of it. -/
theorem attempt_store (s : κ → σ) (l : List α) :
    (attempt key op fails s l).store = touchAll key op s (attempt key op fails s l).done := by
  induction l generalizing s with
  | nil => rfl
  | cons a l ih =>
    rw [attempt]
    split
    · rfl
    · simpa using ih (touch key op s a)

/-- A sequence that ended without a failure was performed whole. -/
theorem attempt_done_of_ok (h : (attempt key op fails s l).error = none) :
    (attempt key op fails s l).done = l := by
  induction l generalizing s with
  | nil => rfl
  | cons a l ih =>
    rw [attempt] at h ⊢
    split at h
    · cases h
    · exact congrArg _ (ih h)

/-- What was performed is the start of the sequence. -/
theorem done_prefix_of_attempt (s : κ → σ) (l : List α) :
    (attempt key op fails s l).done <+: l := by
  induction l generalizing s with
  | nil => exact prefix_rfl
  | cons a l ih =>
    rw [attempt]
    split
    · exact prefix_cons_inj a |>.mpr nil_prefix
    · exact (prefix_cons_inj a).mpr (ih _)

/-- Every operation before the last one performed succeeded on the store it met;
so did the last one, where there was no failure. -/
theorem attempt_succeeds {before after : List α} {a : α}
    (hdone : (attempt key op fails s l).done = before ++ a :: after)
    (h : after ≠ [] ∨ (attempt key op fails s l).error = none) :
    fails a (touchAll key op s before (key a)) = none := by
  induction l generalizing s before with
  | nil => simp [attempt] at hdone
  | cons b l ih =>
    rw [attempt] at hdone h
    split at hdone
    · rename_i e he
      rw [he] at h
      rcases before with _ | ⟨c, before⟩
      · obtain ⟨-, rfl⟩ := cons.inj hdone
        simp at h
      · simp at hdone
    · rename_i hok
      rw [hok] at h
      rcases before with _ | ⟨c, before⟩
      · obtain ⟨rfl, -⟩ := cons.inj hdone
        simpa using hok
      · obtain ⟨rfl, hrest⟩ := cons.inj hdone
        have hf := ih hrest h
        exact hf

/-- Where every operation succeeds on the store it meets, there is no failure. -/
theorem attempt_ok (h : ∀ before a after, l = before ++ a :: after →
      fails a (touchAll key op s before (key a)) = none) :
    (attempt key op fails s l).error = none := by
  induction l generalizing s with
  | nil => rfl
  | cons a l ih =>
    have ha : fails a (s (key a)) = none := h [] a l rfl
    rw [attempt, ha]
    refine ih fun before b after hl => ?_
    exact h (a :: before) b after (by rw [hl]; rfl)

variable (op fails)

/-- Operations on one cell, none of which fails. -/
def Goes : σ → List α → Prop
  | _, [] => True
  | c, a :: l => fails a c = none ∧ Goes (op a c) l

variable {op fails}

/-- Both parts succeed. -/
theorem goes_append {c : σ} {m : List α} :
    Goes op fails c (l ++ m) ↔
      Goes op fails c l ∧ Goes op fails (l.foldl (fun c a => op a c) c) m := by
  induction l generalizing c with
  | nil => simp [Goes]
  | cons a l ih => simp [Goes, ih, and_assoc]

/-- What every operation that does not fail preserves holds at the end. -/
theorem Goes.foldl {P : σ → Prop} {c : σ} (h : Goes op fails c l) (hc : P c)
    (hstep : ∀ a ∈ l, ∀ c, P c → fails a c = none → P (op a c)) :
    P (l.foldl (fun c a => op a c) c) := by
  induction l generalizing c with
  | nil => exact hc
  | cons a l ih =>
    exact ih h.2 (hstep a mem_cons_self c hc h.1)
      fun b hb => hstep b (mem_cons_of_mem a hb)

/-- A sequence of which nothing fails goes well at each cell. -/
theorem succeed_goes (h : succeed key op fails s l = true) (k : κ) :
    Goes op fails (s k) (l.filter fun a => key a = k) := by
  induction l generalizing s with
  | nil => trivial
  | cons a l ih =>
    obtain ⟨ha, hl⟩ := Bool.and_eq_true_iff.mp h
    have hrest := ih hl
    by_cases hk : key a = k
    · subst hk
      rw [touch_self] at hrest
      simpa [Goes] using ⟨by simpa using ha, hrest⟩
    · rw [touch_of_ne hk] at hrest
      simpa [hk] using hrest

end Rune.Core
