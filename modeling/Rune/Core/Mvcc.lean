import Mathlib.Data.List.Basic
import Mathlib.Data.List.Induction

/-!
# Optimistic transactions

The state of a store is the replay of the writes of its commits. A transaction reads
from a snapshot, which is a number of commits, and may commit if none of the later ones
has written a key that it read. It then finds under those keys what is stored now, so
that it could as well have run at the moment of its commit.
-/

namespace Rune.Core

variable {κ ν γ : Type*} [DecidableEq κ]

/-- Apply writes in order. -/
def replay (init : κ → ν) (ws : List (κ × ν)) : κ → ν :=
  ws.foldl (fun db w => Function.update db w.1 w.2) init

/-- One log after another. -/
theorem replay_append (init : κ → ν) (ws vs : List (κ × ν)) :
    replay init (ws ++ vs) = replay (replay init ws) vs := List.foldl_append

theorem replay_concat (init : κ → ν) (ws : List (κ × ν)) (k : κ) (v : ν) :
    replay init (ws ++ [(k, v)]) = Function.update (replay init ws) k v := by
  rw [replay_append]
  rfl

/-- A key that is not written keeps its value. -/
theorem replay_of_unwritten {init : κ → ν} {ws : List (κ × ν)} {k : κ}
    (h : ∀ w ∈ ws, w.1 ≠ k) : replay init ws k = init k := by
  induction ws generalizing init with
  | nil => rfl
  | cons w ws ih =>
    have hrest : replay (Function.update init w.1 w.2) ws k = Function.update init w.1 w.2 k :=
      ih fun v hv => h v (List.mem_cons_of_mem _ hv)
    exact hrest.trans (Function.update_of_ne (Ne.symm (h w List.mem_cons_self)) _ _)

/-- A key that is written has the value that was written, whatever was there. -/
theorem replay_of_written {init init' : κ → ν} {ws : List (κ × ν)} {k : κ}
    (h : k ∈ ws.map Prod.fst) : replay init ws k = replay init' ws k := by
  induction ws using List.reverseRecOn with
  | nil => cases h
  | append_singleton ws w ih =>
    rw [replay_concat, replay_concat]
    by_cases hk : k = w.1
    · subst hk
      simp
    · rw [Function.update_of_ne hk, Function.update_of_ne hk]
      refine ih ?_
      simpa [hk] using h

variable (writes : γ → List (κ × ν))

/-- What is stored after the commits. -/
def stored (init : κ → ν) (log : List γ) : κ → ν := replay init (log.flatMap writes)

/-- No commit since the snapshot has written one of the keys. -/
def Unchanged (log : List γ) (snapshot : ℕ) (reads : List κ) : Prop :=
  ∀ c ∈ log.drop snapshot, ∀ w ∈ writes c, w.1 ∉ reads

instance (log : List γ) (snapshot : ℕ) (reads : List κ) :
    Decidable (Unchanged writes log snapshot reads) := by
  unfold Unchanged
  infer_instance

variable {writes}

/-- What a commit adds. -/
theorem stored_concat (init : κ → ν) (log : List γ) (c : γ) :
    stored writes init (log ++ [c]) = replay (stored writes init log) (writes c) := by
  simp only [stored, List.flatMap_append, List.flatMap_singleton, replay_append]

/-- A transaction that may commit has read what is stored now. -/
theorem stored_take_of_unchanged {init : κ → ν} {log : List γ} {snapshot : ℕ} {reads : List κ}
    {k : κ} (h : Unchanged writes log snapshot reads) (hk : k ∈ reads) :
    stored writes init (log.take snapshot) k = stored writes init log k := by
  have hsplit : stored writes init log k =
      replay (stored writes init (log.take snapshot)) ((log.drop snapshot).flatMap writes) k := by
    simp only [stored, ← replay_append, ← List.flatMap_append, List.take_append_drop]
  rw [hsplit, replay_of_unwritten]
  intro w hw hkey
  obtain ⟨c, hc, hwc⟩ := List.mem_flatMap.mp hw
  exact h c hc w hwc (hkey ▸ hk)

end Rune.Core
