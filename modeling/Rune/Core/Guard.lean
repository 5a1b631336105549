import Mathlib.Data.Nat.Basic

/-!
# Sequences of checks

A check refuses with an error or lets the next one run. These rules read off
what a sequence of checks that succeeded has established.
-/

namespace Rune.Core

variable {ε α β : Type}

/-- Refuse with the error where the condition holds. -/
def refuseIf (c : Prop) [Decidable c] (e : ε) : Except ε Unit := if c then .error e else .ok ()

/-- A check that succeeded did not find its condition. -/
theorem refuseIf_eq_ok {c : Prop} [Decidable c] {e : ε} {u : Unit} :
    refuseIf c e = .ok u ↔ ¬ c := by
  by_cases hc : c <;> simp [refuseIf, hc]

/-- A sequence that succeeded did so in both of its parts. -/
theorem bind_eq_ok {x : Except ε α} {f : α → Except ε β} {b : β}
    (h : x >>= f = .ok b) : ∃ a, x = .ok a ∧ f a = .ok b := by
  cases x with
  | error e => cases h
  | ok a => exact ⟨a, rfl, h⟩

/-- A mapped result that succeeded is the image of one. -/
theorem map_eq_ok {x : Except ε α} {f : α → β} {b : β} (h : x.map f = .ok b) :
    ∃ a, x = .ok a ∧ f a = b := by
  cases x with
  | error e => cases h
  | ok a => exact ⟨a, rfl, Except.ok.inj h⟩

end Rune.Core
