import Mathlib.Algebra.Order.Group.Nat

/-!
# Runs of partial step functions

A system is a step function that may refuse an action. A run is a list of
actions executed from a start state. `Along` says that a condition on the state
before each step and its action holds all along the run; the invariant rules
take what one step preserves to what a whole run preserves. The ranking rule is
for infinite sequences of states.
-/

namespace Rune.Core

section Parties

variable {α : Type*} {l : List α} {i j : ℕ} {a b : α}

/-- The parties after one of them has moved. -/
theorem getElem?_set_cases (h : (l.set i a)[j]? = some b) :
    j = i ∧ b = a ∨ j ≠ i ∧ l[j]? = some b := by
  by_cases hij : j = i
  · subst hij
    rw [List.getElem?_set_self'] at h
    obtain ⟨-, -, rfl⟩ := Option.map_eq_some_iff.mp h
    exact Or.inl ⟨rfl, rfl⟩
  · exact Or.inr ⟨hij, by rwa [List.getElem?_set_ne (Ne.symm hij)] at h⟩

/-- The parties after another one has begun. -/
theorem getElem?_concat_cases (h : (l ++ [a])[j]? = some b) :
    l[j]? = some b ∨ j = l.length ∧ b = a := by
  rcases lt_or_ge j l.length with hlt | hge
  · rw [List.getElem?_append_left hlt] at h
    exact .inl h
  · have hlen := (List.getElem?_eq_some_iff.mp h).1
    rw [List.length_append, List.length_singleton] at hlen
    obtain rfl : j = l.length := by omega
    exact .inr ⟨rfl, by simpa using h.symm⟩

end Parties

variable {σ α : Type*} (step : σ → α → Option σ)

/-- Execute a list of actions; the run stops being one where a step is refused. -/
def exec : σ → List α → Option σ
  | s, [] => some s
  | s, a :: as => (step s a).bind fun t => exec t as

/-- The condition holds before every step of the run that is executed. -/
def Along (cond : σ → α → Prop) : σ → List α → Prop
  | _, [] => True
  | s, a :: as => cond s a ∧ ∀ t, step s a = some t → Along cond t as

variable {step}

@[simp] theorem exec_nil (s : σ) : exec step s [] = some s := rfl

variable {as : List α} {cond p q : σ → α → Prop}

/-- One step and the rest. -/
theorem exec_cons {s u : σ} {a : α} :
    exec step s (a :: as) = some u ↔ ∃ t, step s a = some t ∧ exec step t as = some u := by
  simp only [exec, Option.bind_eq_some_iff]

/-- A run over two lists of actions passes through the state the first one ends in. -/
theorem exec_append {s u : σ} {bs : List α} :
    exec step s (as ++ bs) = some u ↔
      ∃ t, exec step s as = some t ∧ exec step t bs = some u := by
  induction as generalizing s with
  | nil => simp
  | cons a as ih =>
    simp only [List.cons_append, exec_cons, ih]
    constructor
    · rintro ⟨t, ht, v, hv, hu⟩
      exact ⟨v, ⟨t, ht, hv⟩, hu⟩
    · rintro ⟨v, ⟨t, ht, hv⟩, hu⟩
      exact ⟨t, ht, v, hv, hu⟩

/-- A condition that can be decided can be decided along a run. -/
instance Along.decidable {cond : σ → α → Prop} [∀ s a, Decidable (cond s a)] :
    ∀ (s : σ) (as : List α), Decidable (Along step cond s as)
  | _, [] => isTrue trivial
  | s, a :: as =>
    match h : step s a with
    | none => decidable_of_iff (cond s a) ⟨fun hc => ⟨hc, fun t ht => by simp [h] at ht⟩, And.left⟩
    | some u =>
      have : Decidable (Along step cond u as) := Along.decidable u as
      decidable_of_iff (cond s a ∧ Along step cond u as) (by simp [Along, h])

/-- A condition that the actions of a run meet in every state holds along it. -/
theorem Along.of_forall (h : ∀ a ∈ as, ∀ s, cond s a) (s : σ) : Along step cond s as := by
  induction as generalizing s with
  | nil => trivial
  | cons a as ih =>
    exact ⟨h a List.mem_cons_self s, fun t _ => ih (fun b hb => h b (List.mem_cons_of_mem _ hb)) t⟩

/-- A condition that implies another does so along every run. -/
theorem Along.mono (h : ∀ s a, p s a → q s a) {s : σ} (hp : Along step p s as) :
    Along step q s as := by
  induction as generalizing s with
  | nil => trivial
  | cons a as ih => exact ⟨h s a hp.1, fun t ht => ih (hp.2 t ht)⟩

/-- Two conditions at once. -/
theorem Along.and {s : σ} (hp : Along step p s as) (hq : Along step q s as) :
    Along step (fun s a => p s a ∧ q s a) s as := by
  induction as generalizing s with
  | nil => trivial
  | cons a as ih => exact ⟨⟨hp.1, hq.1⟩, fun t ht => ih (hp.2 t ht) (hq.2 t ht)⟩

/-- A condition that holds along a run holds along its first part and, from where
that ends, along the rest. -/
theorem Along.split {s t : σ} {bs : List α} (h : Along step cond s (as ++ bs))
    (hexec : exec step s as = some t) : Along step cond s as ∧ Along step cond t bs := by
  induction as generalizing s with
  | nil =>
    obtain rfl : s = t := by simpa using hexec
    exact ⟨trivial, h⟩
  | cons a as ih =>
    obtain ⟨u, hu, hrest⟩ := exec_cons.mp hexec
    have hsplit := ih (h.2 u hu) hrest
    refine ⟨⟨h.1, fun v hv => ?_⟩, hsplit.2⟩
    cases hu.symm.trans hv
    exact hsplit.1

/-- A condition that holds along the first part of a run and, from where that ends, along
the rest holds along the run. -/
theorem Along.append {s : σ} {bs : List α} (has : Along step cond s as)
    (hbs : ∀ t, exec step s as = some t → Along step cond t bs) : Along step cond s (as ++ bs) := by
  induction as generalizing s with
  | nil => exact hbs s rfl
  | cons a as ih =>
    exact ⟨has.1, fun t ht => ih (has.2 t ht) fun u hu => hbs u (exec_cons.mpr ⟨t, ht, hu⟩)⟩

/-- What every step that meets the condition preserves, the run preserves. -/
theorem exec_invariant_along {inv : σ → Prop}
    (hstep : ∀ s a t, inv s → cond s a → step s a = some t → inv t) {s t : σ} (hs : inv s)
    (hc : Along step cond s as) (h : exec step s as = some t) : inv t := by
  induction as generalizing s with
  | nil =>
    obtain rfl : s = t := by simpa using h
    exact hs
  | cons a as ih =>
    obtain ⟨u, hu, hrest⟩ := exec_cons.mp h
    exact ih (hstep s a u hs hc.1 hu) (hc.2 u hu) hrest

/-- What every step preserves, every run preserves. -/
theorem exec_invariant {inv : σ → Prop} (hstep : ∀ s a t, inv s → step s a = some t → inv t)
    {s t : σ} (hs : inv s) (h : exec step s as = some t) : inv t :=
  exec_invariant_along (fun s a t hi _ => hstep s a t hi) hs
    (Along.of_forall (fun _ _ _ => trivial) s) h

/-- If every step that meets the condition lowers a rank, a run is no longer than its rank. -/
theorem exec_length_le_rank {inv : σ → Prop} (rank : σ → ℕ)
    (hstep : ∀ s a t, inv s → cond s a → step s a = some t → inv t ∧ rank t < rank s) {s t : σ}
    (hs : inv s) (hc : Along step cond s as) (h : exec step s as = some t) :
    as.length ≤ rank s := by
  induction as generalizing s with
  | nil => exact Nat.zero_le _
  | cons a as ih =>
    obtain ⟨u, hu, hrest⟩ := exec_cons.mp h
    obtain ⟨hinv, hlt⟩ := hstep s a u hs hc.1 hu
    exact (Nat.succ_le_succ (ih hinv (hc.2 u hu) hrest)).trans hlt

/-- Two conditions that agree before every step of the runs that meet one of them
agree along every run. -/
theorem along_iff (inv : σ → Prop) (hiff : ∀ s, ∀ a ∈ as, inv s → (p s a ↔ q s a))
    (hstep : ∀ s, ∀ a ∈ as, ∀ t, inv s → q s a → step s a = some t → inv t) {s : σ} (hs : inv s) :
    Along step p s as ↔ Along step q s as := by
  induction as generalizing s with
  | nil => exact Iff.rfl
  | cons a as ih =>
    have hrest : ∀ t, q s a → step s a = some t → (Along step p t as ↔ Along step q t as) :=
      fun t hq ht => ih (fun s b hb => hiff s b (List.mem_cons_of_mem _ hb))
        (fun s b hb => hstep s b (List.mem_cons_of_mem _ hb))
        (hstep s a List.mem_cons_self t hs hq ht)
    constructor
    · rintro ⟨hp, hafter⟩
      have hq := (hiff s a List.mem_cons_self hs).mp hp
      exact ⟨hq, fun t ht => (hrest t hq ht).mp (hafter t ht)⟩
    · rintro ⟨hq, hafter⟩
      exact ⟨(hiff s a List.mem_cons_self hs).mpr hq,
        fun t ht => (hrest t hq ht).mpr (hafter t ht)⟩

section Ranking

variable (s : ℕ → σ) (rank : σ → ℕ) (goal : σ → Prop)

/-- A sequence whose rank falls at every state short of the goal reaches the
goal within its first rank many steps. -/
theorem exists_goal_of_rank (h : ∀ n, ¬ goal (s n) → rank (s (n + 1)) < rank (s n)) (k : ℕ) :
    ∃ n, k ≤ n ∧ n ≤ k + rank (s k) ∧ goal (s n) := by
  induction hr : rank (s k) using Nat.strong_induction_on generalizing k with
  | _ r ih =>
    by_cases hg : goal (s k)
    · exact ⟨k, le_rfl, Nat.le_add_right _ _, hg⟩
    · have hlt := h k hg
      obtain ⟨n, hk, hn, hgn⟩ := ih (rank (s (k + 1))) (by omega) (k + 1) rfl
      exact ⟨n, by omega, by omega, hgn⟩

end Ranking

end Rune.Core
