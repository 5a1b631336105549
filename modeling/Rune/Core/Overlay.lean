import Mathlib.Data.List.AList
import Mathlib.Data.List.Induction

/-!
# Maps copied over one another

A map is filled from another by setting its entries one by one, and an overlay is
filled from several maps in turn. What is found under a key is the entry of the last
map that has the key, so the order of the maps matters exactly for the keys that
more than one of them has.
-/

namespace Rune.Core

variable {ι κ α β : Type*} [DecidableEq κ]

/-- Set the entries of a map in another one. -/
def fill (f : α → β) (m : AList fun _ : κ => α) (into : AList fun _ : κ => β) :
    AList fun _ : κ => β :=
  m.entries.foldl (fun acc e => acc.insert e.1 (f e.2)) into

/-- Fill a map from several others, each with a tag, in the given order. -/
def overlay (f : ι → α → β) (layers : List (Σ _ : ι, AList fun _ : κ => α)) :
    AList fun _ : κ => β :=
  layers.foldl (fun acc layer => fill (f layer.1) layer.2 acc) ∅

theorem lookup_insert_ite (m : AList fun _ : κ => α) (k a : κ) (b : α) :
    (m.insert a b).lookup k = if k = a then some b else m.lookup k := by
  split
  · subst_vars
    exact AList.lookup_insert m
  · rename_i hk
    exact AList.lookup_insert_ne hk

theorem lookup_erase_ite (m : AList fun _ : κ => α) (k a : κ) :
    (m.erase a).lookup k = if k = a then none else m.lookup k := by
  split
  · subst_vars
    exact AList.lookup_erase _ m
  · rename_i hk
    exact AList.lookup_erase_ne hk

variable {f : ι → α → β} {layers : List (Σ _ : ι, AList fun _ : κ => α)} {k : κ}

/-- What is filled in comes first. -/
theorem lookup_fill (f : α → β) (m : AList fun _ : κ => α) (into : AList fun _ : κ => β) :
    (fill f m into).lookup k = ((m.lookup k).map f).or (into.lookup k) := by
  obtain ⟨l, hl⟩ := m
  simp only [fill, AList.lookup]
  induction l generalizing into with
  | nil => rfl
  | cons e l ih =>
    obtain ⟨hnew, hrest⟩ := List.nodupKeys_cons.mp hl
    rw [List.foldl_cons, ih _ hrest]
    change ((l.dlookup k).map f).or ((into.insert e.1 (f e.2)).lookup k) = _
    by_cases hk : k = e.1
    · subst hk
      rw [List.dlookup_eq_none.mpr hnew, List.dlookup_cons_eq, AList.lookup_insert]
      rfl
    · rw [List.dlookup_cons_ne _ e hk, AList.lookup_insert_ne hk]
      rfl

/-- The last map to be copied wins. -/
theorem lookup_overlay_concat (layer : Σ _ : ι, AList fun _ : κ => α) :
    (overlay f (layers ++ [layer])).lookup k =
      ((layer.2.lookup k).map (f layer.1)).or ((overlay f layers).lookup k) := by
  rw [overlay, List.foldl_append]
  exact lookup_fill _ _ _

/-- Two overlays of the same maps find the entry of the same map. -/
theorem lookup_overlay_eq_map :
    (overlay f layers).lookup k = ((overlay Prod.mk layers).lookup k).map fun p => f p.1 p.2 := by
  induction layers using List.reverseRecOn with
  | nil => rfl
  | append_singleton layers layer ih =>
    rw [lookup_overlay_concat, lookup_overlay_concat, ih]
    cases layer.2.lookup k <;> rfl

/-- No layer has the key. -/
theorem lookup_overlay_eq_none :
    (overlay f layers).lookup k = none ↔ ∀ layer ∈ layers, k ∉ layer.2 := by
  induction layers using List.reverseRecOn with
  | nil => simp [overlay]
  | append_singleton layers layer ih =>
    rw [lookup_overlay_concat, Option.or_eq_none_iff, Option.map_eq_none_iff,
      AList.lookup_eq_none, ih, List.forall_mem_append, List.forall_mem_singleton, and_comm]

/-- What is found comes from one of the maps. -/
theorem exists_of_lookup_overlay {b : β} (h : (overlay f layers).lookup k = some b) :
    ∃ layer ∈ layers, ∃ a, layer.2.lookup k = some a ∧ f layer.1 a = b := by
  induction layers using List.reverseRecOn with
  | nil => cases h
  | append_singleton layers layer ih =>
    rw [lookup_overlay_concat] at h
    cases hlayer : layer.2.lookup k with
    | some a =>
      rw [hlayer] at h
      exact ⟨layer, by simp, a, hlayer, Option.some.inj h⟩
    | none =>
      rw [hlayer] at h
      obtain ⟨found, hmem, a, ha⟩ := ih h
      exact ⟨found, List.mem_append_left _ hmem, a, ha⟩

/-- A key that only one of the maps has is found with that map's entry, whatever the
order. -/
theorem lookup_overlay_of_unique {layer : Σ _ : ι, AList fun _ : κ => α} {a : α}
    (hmem : layer ∈ layers) (ha : layer.2.lookup k = some a)
    (hunique : ∀ other ∈ layers, k ∈ other.2 → other = layer) :
    (overlay f layers).lookup k = some (f layer.1 a) := by
  induction layers using List.reverseRecOn with
  | nil => cases hmem
  | append_singleton layers last ih =>
    rw [lookup_overlay_concat]
    by_cases hlast : k ∈ last.2
    · obtain rfl : last = layer := hunique last (by simp) hlast
      rw [ha]
      rfl
    · rw [AList.lookup_eq_none.mpr hlast]
      have hin : layer ∈ layers := by
        rcases List.mem_append.mp hmem with hin | hin
        · exact hin
        · obtain rfl := List.mem_singleton.mp hin
          exact absurd (AList.lookup_isSome.mp (by simp [ha])) hlast
      exact ih hin fun other hother => hunique other (List.mem_append_left _ hother)

end Rune.Core
