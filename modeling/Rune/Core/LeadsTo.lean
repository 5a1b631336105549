import Mathlib.Data.Nat.Find
import Mathlib.Order.Basic

/-!
# Leads-to over infinite sequences

`LeadsTo p q` says that every moment at which `p` holds is followed, at once or
later, by one at which `q` holds. Moments are natural numbers, so the two
predicates may speak of the states and of the actions of an infinite run.
-/

namespace Rune.Core

/-- Whenever `p` holds, `q` holds then or later. -/
def LeadsTo (p q : ℕ → Prop) : Prop := ∀ n, p n → ∃ m, n ≤ m ∧ q m

namespace LeadsTo

variable {p q r : ℕ → Prop}

/-- Chains compose. -/
theorem trans (hpq : LeadsTo p q) (hqr : LeadsTo q r) : LeadsTo p r := by
  intro n hp
  obtain ⟨m, hnm, hq⟩ := hpq n hp
  obtain ⟨k, hmk, hr⟩ := hqr m hq
  exact ⟨k, hnm.trans hmk, hr⟩

/-- The ranking rule: when `p` with a given rank leads to the goal or to `p` with
a smaller rank, `p` leads to the goal. -/
theorem of_rank (rank : ℕ → ℕ)
    (h : ∀ n, p n → ∃ m, n ≤ m ∧ (q m ∨ p m ∧ rank m < rank n)) : LeadsTo p q := by
  intro n
  induction hr : rank n using Nat.strong_induction_on generalizing n with
  | _ k ih =>
    intro hp
    obtain ⟨m, hnm, hq | ⟨hpm, hlt⟩⟩ := h n hp
    · exact ⟨m, hnm, hq⟩
    · obtain ⟨j, hmj, hq⟩ := ih (rank m) (hr ▸ hlt) m rfl hpm
      exact ⟨j, hnm.trans hmj, hq⟩

end LeadsTo

/-- What holds now and is kept by every step but an event `e` still holds when the
first such event comes. -/
theorem holds_at_first_event {p e : ℕ → Prop} {n : ℕ} (hp : p n)
    (hkeep : ∀ m, n ≤ m → p m → ¬ e m → p (m + 1)) (he : ∃ m, n ≤ m ∧ e m) :
    ∃ m, n ≤ m ∧ p m ∧ e m := by
  classical
  have hex : ∃ i, e (n + i) := by
    obtain ⟨m, hnm, hm⟩ := he
    exact ⟨m - n, by rwa [Nat.add_sub_cancel' hnm]⟩
  have hbefore : ∀ i, i ≤ Nat.find hex → p (n + i) := by
    intro i
    induction i with
    | zero => exact fun _ => hp
    | succ i ih =>
      intro hi
      exact hkeep (n + i) (Nat.le_add_right n i) (ih (Nat.le_of_succ_le hi)) (Nat.find_min hex hi)
  exact ⟨n + Nat.find hex, Nat.le_add_right _ _, hbefore _ le_rfl, Nat.find_spec hex⟩

end Rune.Core
