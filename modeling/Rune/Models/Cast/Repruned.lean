import Rune.Models.Cast.Revert

/-!
# Prunes and their reverts

A record may list a resource twice, so a resource may be pruned more than once
in a cast, and reverted as often. The first prune decides the outcome, since it
fixes the pre-image: later prunes find nothing left to delete, and later reverts
write the same row again.
-/

namespace Rune.Cast

open Rune.Core
open Rune.Services
open Rune.Volumes

/-- Carry out changes to one resource. -/
def Applier.performAll (a : Applier) (c : Cell) (l : List Strike) : Cell :=
  l.foldl (fun c s => a.performCell s c) c

/-- Revert changes to one resource. -/
def Applier.revertAll (a : Applier) (c : Cell) (l : List Strike) : Cell :=
  l.foldl (fun c s => a.revertCell s c) c

/-- What the prunes of one resource leave of it, `s` being the first of them. -/
abbrev Applier.pruned (a : Applier) (s : Strike) (rest : List Strike) (row : Option Row) : Cell :=
  a.performAll (a.performCell s ⟨row, none⟩) rest

/-- The reverts of the prunes. -/
abbrev Strike.undos (s : Strike) (rest : List Strike) : List Strike :=
  rest.reverse.map Strike.undo ++ [s.undo]

section Prunes

variable {a : Applier} {s t : Strike} {rest : List Strike} {row : Option Row} {c : Cell}

theorem performAll_of_forall {P : Cell → Prop} (hc : P c)
    (h : ∀ t ∈ rest, ∀ c, P c → P (a.performCell t c)) : P (a.performAll c rest) := by
  induction rest generalizing c with
  | nil => exact hc
  | cons t rest ih =>
    exact ih (h t List.mem_cons_self c hc) fun u hu => h u (List.mem_cons_of_mem t hu)

theorem perform_of_prune (ht : t.change.action = .prune) (row : Option Row) :
    a.perform t row = a.prune t.change.ref t.fault row := if_pos ht

/-- The service is there under its pre-image, or under none. -/
def Kept (service : Service) (c : Cell) : Prop :=
  (c.image = some none ∨ c.image = some (some (.service service))) ∧
    ∃ x, c.row = some (.service x) ∧ (Row.service service).Same (.service x)

theorem image_performCell_of_some {image : Option Row} (h : c.image = some image) (t : Strike) :
    (a.performCell t c).image = some image := by
  simp [performCell_image, h]

variable {service : Service}

/-- A prune keeps it. -/
theorem Kept.prune (h : Kept service c) (ht : t.change.action = .prune) :
    Kept service (a.performCell t c) := by
  obtain ⟨himage, x, hrow, hx⟩ := h
  refine ⟨himage.imp (image_performCell_of_some · t) (image_performCell_of_some · t), ?_⟩
  simp only [Applier.performCell, perform_of_prune ht, hrow]
  by_cases hkind : t.change.ref.resourceType = .service
  · obtain ⟨y, hy, hsame⟩ := @deleteServiceRow_same t.fault x
    refine ⟨y, ?_, same_trans hx hsame⟩
    simpa [Applier.prune, hkind, pruneService] using hy
  · have hother : rowOf t.change.ref (some (.service x)) = none := by
      simp [Row.kind, Ne.symm hkind]
    exact ⟨x, prune_row_of_other_kind hother, hx⟩

/-- So does a revert that succeeds. -/
theorem Kept.revert (h : Kept service c) (hok : a.revertFails t.undo c = none) :
    Kept service (a.revertCell t.undo c) := by
  obtain ⟨himage, x, hrow, hx⟩ := h
  refine ⟨himage, ?_⟩
  by_cases hkind : t.change.ref.resourceType = .service
  · obtain ⟨r, _ | pi⟩ := c
    · rcases himage with himage | himage <;> cases himage
    cases hrow
    have hcall : a.revertRow t.change.ref .none ⟨some (.service x), some pi⟩ =
        revertService (a.fresh t.change.ref.key) pi .none (some (.service x)) := by
      simp [Applier.revertRow, hkind]
    simp only [Applier.revertFails, Applier.revertCell, Strike.undo, hcall] at hok ⊢
    exact revertService_present hx
      (himage.imp (fun h => Option.some.inj h) (fun h => Option.some.inj h)) hok
  · refine ⟨x, ?_, hx⟩
    rw [← hrow]
    rcases himage with himage | himage
    · refine revertCell_of_absent himage ?_
      simp [hrow, Row.kind, Ne.symm hkind]
    · exact revertCell_of_other_kind himage (Ne.symm hkind) hok

section Via

variable {α : Type} {repo : Repo α} {payload : Option α} {cur : α}

/-- The row is deleted and remembered. -/
def Lost (repo : Repo α) (cur : α) (c : Cell) : Prop :=
  c.image = some (some (repo.toRow cur)) ∧ c.row = none

/-- The row has been written again from its pre-image. -/
def Back (repo : Repo α) (cur : α) (c : Cell) : Prop :=
  c.image = some (some (repo.toRow cur)) ∧
    ∃ x, c.row = some (repo.toRow x) ∧ repo.identity x ≠ some "" ∧
      (repo.identity cur ≠ some "" → (repo.toRow cur).Same (repo.toRow x))

theorem Back.restored_iff (h : Back repo cur c) :
    Restored (some (repo.toRow cur)) c.row ↔ repo.identity cur ≠ some "" := by
  obtain ⟨-, x, hrow, hx, hsame⟩ := h
  rw [hrow, restored_some]
  refine ⟨fun h => ?_, hsame⟩
  rw [repo.same_identity h]
  exact hx

theorem row_none_prune (hrow : c.row = none) (ht : t.change.action = .prune) :
    (a.performCell t c).row = none := by
  simp only [Applier.performCell, perform_of_prune ht, hrow]
  exact prune_row_of_other_kind rfl

/-- The revert of the kind that was pruned brings the row back. -/
theorem Handles.revert_back (h : Handles a repo payload s) (hc : Lost repo cur c ∨ Back repo cur c)
    (hok : a.revertFails s.undo c = none) : Back repo cur (a.revertCell s.undo c) := by
  obtain ⟨r, _ | pi⟩ := c
  · rcases hc with hc | hc <;> cases hc.1
  have hpi : pi.image = some (repo.toRow cur) := by
    rcases hc with hc | hc <;> exact Option.some.inj hc.1
  simp only [Applier.revertFails, Strike.undo, h.revert, hpi] at hok
  refine ⟨congrArg some hpi, ?_⟩
  simp only [Applier.revertCell, Strike.undo, h.revert, hpi]
  rcases hc with ⟨-, hrow⟩ | ⟨-, x, hrow, hx, hsame⟩ <;> dsimp only at hrow <;> subst hrow
  · obtain ⟨y, hy, hback⟩ := revertVia_gone hok
    exact ⟨y, hback, repo.create_identity hy, (repo.create_same hy).mpr⟩
  · obtain ⟨y, hy, hback⟩ := revertVia_present hok
    refine ⟨y, hback, ?_, fun hcur => ?_⟩
    · rwa [repo.update_identity hy]
    · exact repo.update_same hy (repo.same_identity (hsame hcur)).symm

/-- Other reverts of the same resource leave it or bring it back. -/
theorem Handles.revert_any (h : Handles a repo payload s) (hkey : t.key = s.key)
    (hc : Lost repo cur c ∨ Back repo cur c) (hok : a.revertFails t.undo c = none) :
    Lost repo cur (a.revertCell t.undo c) ∨ Back repo cur (a.revertCell t.undo c) := by
  by_cases hkind : t.change.ref.resourceType = s.change.ref.resourceType
  · obtain ⟨hcell, hfails⟩ := @revertCell_congr a s t hkind hkey
    rw [hfails] at hok
    rw [hcell]
    exact Or.inr (h.revert_back hc hok)
  · have hother : (repo.toRow cur).kind ≠ t.change.ref.resourceType := by
      rw [h.kind]
      exact Ne.symm hkind
    rcases hc with ⟨himage, hrow⟩ | ⟨himage, hrow⟩
    · exact Or.inl ⟨himage, (revertCell_of_other_kind himage hother hok).trans hrow⟩
    · refine Or.inr ⟨himage, ?_⟩
      rwa [revertCell_of_other_kind himage hother hok]

end Via

/-- What is kept is restored. -/
theorem restored_of_kept (h : Kept service c) : Restored (some (.service service)) c.row := by
  obtain ⟨-, x, hrow, hx⟩ := h
  rw [hrow, restored_some]
  exact hx

/-- Prunes of a service, the first of which finds it, and their reverts. -/
theorem Kept.restored (h : Kept service (a.performCell s ⟨row, none⟩))
    (hrest : ∀ t ∈ rest, t.change.action = .prune)
    (hgo : Goes a.revertCell a.revertFails (a.pruned s rest row) (s.undos rest)) :
    Restored (some (.service service)) (a.revertAll (a.pruned s rest row) (s.undos rest)).row := by
  have hpruned : Kept service (a.pruned s rest row) :=
    performAll_of_forall h fun t ht c hc => hc.prune (hrest t ht)
  refine restored_of_kept (hgo.foldl hpruned fun u hu c hc hok => ?_)
  obtain ⟨t, rfl⟩ : ∃ t : Strike, t.undo = u := by
    rcases List.mem_append.mp hu with hu | hu
    · obtain ⟨t, -, rfl⟩ := List.mem_map.mp hu
      exact ⟨t, rfl⟩
    · exact ⟨s, (List.mem_singleton.mp hu).symm⟩
  exact hc.revert hok

/-- A prune that found nothing fails, and its revert does nothing. -/
theorem restored_of_nothing_found (himage : (a.performCell s ⟨row, none⟩).image = some none)
    (hrow : rowOf s.change.ref row = none) (hs : s.change.action = .prune) :
    Restored row (a.revertCell s.undo (a.performCell s ⟨row, none⟩)).row := by
  have hsame : (a.performCell s ⟨row, none⟩).row = row := by
    simp only [Applier.performCell, perform_of_prune hs]
    exact prune_row_of_other_kind hrow
  rw [revertCell_of_absent himage (by rw [hsame, hrow]), hsame]
  exact restored_refl row

section Via

variable {α : Type} {repo : Repo α} {payload : Option α} {cur : α}

/-- Prunes of a row that is deleted and remembered, and their reverts. -/
theorem Handles.back_of_lost (h : Handles a repo payload s)
    (hlost : Lost repo cur (a.performCell s ⟨row, none⟩))
    (hrest : ∀ t ∈ rest, t.change.action = .prune ∧ t.key = s.key)
    (hgo : Goes a.revertCell a.revertFails (a.pruned s rest row) (s.undos rest)) :
    Back repo cur (a.revertAll (a.pruned s rest row) (s.undos rest)) := by
  have hpruned : Lost repo cur (a.pruned s rest row) :=
    performAll_of_forall hlost fun t ht c hc =>
      ⟨image_performCell_of_some hc.1 t, row_none_prune hc.2 (hrest t ht).1⟩
  obtain ⟨hfirst, hlast⟩ := goes_append.mp hgo
  have hmid := hfirst.foldl (P := fun c => Lost repo cur c ∨ Back repo cur c) (Or.inl hpruned)
    fun u hu c hc hok => by
      obtain ⟨t, ht, rfl⟩ := List.mem_map.mp hu
      exact h.revert_any (hrest t (List.mem_reverse.mp ht)).2 hc hok
  rw [Applier.revertAll, List.foldl_append]
  exact h.revert_back hmid hlast.1

/-- A deleted row that was not remembered stays away. -/
theorem row_none_of_unseen (himage : (a.performCell s ⟨row, none⟩).image = some none)
    (hrow : (a.performCell s ⟨row, none⟩).row = none)
    (hrest : ∀ t ∈ rest, t.change.action = .prune) {l : List Strike} :
    (a.revertAll (a.pruned s rest row) (l.map Strike.undo)).row = none := by
  have hpruned : (a.pruned s rest row).image = some none ∧ (a.pruned s rest row).row = none :=
    @performAll_of_forall a rest _ (fun c => c.image = some none ∧ c.row = none) ⟨himage, hrow⟩
      fun t ht c hc => ⟨image_performCell_of_some hc.1 t, row_none_prune hc.2 (hrest t ht)⟩
  suffices hgen : ∀ c : Cell, c.image = some none → c.row = none →
      (a.revertAll c (l.map Strike.undo)).row = none from hgen _ hpruned.1 hpruned.2
  induction l with
  | nil => exact fun c _ hc => hc
  | cons t l ih =>
    intro c himage hrow
    have hback : (a.revertCell t.undo c).row = none := by
      rw [revertCell_of_absent himage (by rw [hrow]; rfl), hrow]
    exact ih _ himage hback

/-- A row that its prune has left alone is written over with itself. -/
theorem Handles.restored_of_spared (h : Handles a repo payload s)
    (himage : c.image = some (some (repo.toRow cur))) (hrow : c.row = some (repo.toRow cur))
    (hok : a.revertFails s.undo c = none) :
    Restored (some (repo.toRow cur)) (a.revertCell s.undo c).row := by
  obtain ⟨r, _ | pi⟩ := c
  · cases himage
  have hpi : pi.image = some (repo.toRow cur) := Option.some.inj himage
  subst hrow
  simp only [Applier.revertFails, Strike.undo, h.revert, hpi] at hok
  simp only [Applier.revertCell, Strike.undo, h.revert, hpi]
  obtain ⟨y, hy, hback⟩ := revertVia_present hok
  rw [hback, restored_some]
  exact repo.update_same hy rfl

/-- What a prune remembers, what it leaves and how it ends. -/
theorem Handles.pruned_cell (h : Handles a repo payload s) (hs : s.change.action = .prune)
    (row : Option Row) :
    (a.performCell s ⟨row, none⟩).image =
        some ((s.fault.sees (row.bind repo.ofRow)).map repo.toRow) ∧
      (a.performCell s ⟨row, none⟩).row =
        (commitDelete (row.bind repo.ofRow).isSome s.fault row).1 ∧
      a.performFails s ⟨row, none⟩ =
        (commitDelete (row.bind repo.ofRow).isSome s.fault row).2 := by
  refine ⟨?_, ?_, ?_⟩
  · rw [performCell_image, perform_of_prune hs, h.prune]
    rfl
  · simp only [Applier.performCell, perform_of_prune hs, h.prune]
    rfl
  · simp only [Applier.performFails, perform_of_prune hs, h.prune]
    rfl

/-- A row that the repository does not find is not one of its kind. -/
theorem Handles.rowOf_eq_none (h : Handles a repo payload s)
    (hfound : row.bind repo.ofRow = none) : rowOf s.change.ref row = none := by
  cases row with
  | none => rfl
  | some r =>
    have hkind : r.kind ≠ s.change.ref.resourceType := by
      intro hkind
      have hsome := h.found r hkind
      rw [Option.bind_some] at hfound
      simp [hfound] at hsome
    simp [hkind]

/-- Prunes of a secret, a configmap or a volume, and their reverts. -/
theorem Handles.prune_restored_iff (h : Handles a repo payload s) (hs : s.change.action = .prune)
    (hrest : ∀ t ∈ rest, t.change.action = .prune ∧ t.key = s.key)
    (hok : rest ≠ [] → a.performFails s ⟨row, none⟩ = none)
    (hgo : Goes a.revertCell a.revertFails (a.pruned s rest row) (s.undos rest)) :
    Restored row (a.revertAll (a.pruned s rest row) (s.undos rest)).row ↔
      RecoverableVia repo payload.isSome s row := by
  obtain ⟨himage, hperformed, hfails⟩ := h.pruned_cell hs row
  cases hfound : row.bind repo.ofRow with
  | none =>
    rw [hfound] at himage hfails
    obtain rfl : rest = [] := by
      by_contra hne
      rw [hok hne] at hfails
      cases hfails
    have hnone := h.rowOf_eq_none hfound
    have hsees : s.fault.sees (none : Option α) = none := by cases s.fault <;> rfl
    rw [hsees] at himage
    have hback := restored_of_nothing_found himage hnone hs
    refine iff_of_true hback fun cur hcur => ?_
    rw [hfound] at hcur
    cases hcur
  | some cur =>
    obtain rfl := eq_toRow_of_bind hfound
    rw [hfound] at himage hperformed hfails
    have hrec : RecoverableVia repo payload.isSome s (some (repo.toRow cur)) ↔
        s.fault ≠ .read ∧ (s.fault ≠ .write false → repo.identity cur ≠ some "") := by
      simp [RecoverableVia, hs]
    rw [hrec]
    cases hfault : s.fault with
    | none =>
      have hlost : Lost repo cur (a.performCell s ⟨some (repo.toRow cur), none⟩) := by
        rw [hfault] at himage hperformed
        exact ⟨himage, hperformed⟩
      rw [(h.back_of_lost hlost hrest hgo).restored_iff]
      simp
    | read =>
      rw [hfault] at himage hperformed
      have hgone := @row_none_of_unseen a s rest _ himage hperformed (fun t ht => (hrest t ht).1)
        (rest.reverse ++ [s])
      rw [List.map_append, List.map_singleton] at hgone
      rw [hgone]
      simp [Restored]
    | write landed =>
      rw [hfault] at himage hperformed hfails
      obtain rfl : rest = [] := by
        by_contra hne
        rw [hok hne] at hfails
        cases hfails
      cases landed with
      | true =>
        have hlost : Lost repo cur (a.performCell s ⟨some (repo.toRow cur), none⟩) :=
          ⟨himage, hperformed⟩
        rw [(h.back_of_lost hlost hrest hgo).restored_iff]
        simp
      | false =>
        have hback := h.restored_of_spared himage hperformed hgo.1
        exact iff_of_true hback ⟨by simp, by simp⟩

end Via

/-- Prunes of one resource, and their reverts. -/
theorem prune_restored_iff (hs : s.change.action = .prune)
    (howned : ownedKind s.change.ref.resourceType = true)
    (hrest : ∀ t ∈ rest, t.change.action = .prune ∧ t.key = s.key)
    (hok : rest ≠ [] → a.performFails s ⟨row, none⟩ = none)
    (hgo : Goes a.revertCell a.revertFails (a.pruned s rest row) (s.undos rest)) :
    Restored row (a.revertAll (a.pruned s rest row) (s.undos rest)).row ↔ a.Recoverable s row := by
  rcases service_or_handles a s howned with hkind | ⟨α, repo, payload, h⟩
  · have hrec : a.Recoverable s row := by
      simp [Applier.Recoverable, hkind, RecoverableService, hs]
    have himage : (a.performCell s ⟨row, none⟩).image =
        some ((s.fault.sees (row.bind Row.service?)).map .service) := by
      rw [performCell_image, perform_of_prune hs]
      simp [Applier.prune, hkind, pruneService, Cell.image]
    cases hfound : row.bind Row.service? with
    | none =>
      have hnone : rowOf s.change.ref row = none := by
        rcases row with _ | r
        · rfl
        · cases r <;> simp_all [Row.kind, Row.service?]
      have hfails : a.performFails s ⟨row, none⟩ = some "service not found" := by
        simp [Applier.performFails, perform_of_prune hs, Applier.prune, hkind, pruneService,
          deleteServiceRow, hfound]
      obtain rfl : rest = [] := by
        by_contra hne
        rw [hok hne] at hfails
        cases hfails
      have hsees : s.fault.sees (none : Option Service) = none := by cases s.fault <;> rfl
      rw [hfound, hsees] at himage
      have hback := restored_of_nothing_found himage hnone hs
      exact iff_of_true hback hrec
    | some service =>
      obtain rfl := eq_service_of_bind hfound
      obtain ⟨x, hx, hsame⟩ := @deleteServiceRow_same s.fault service
      have hkept : Kept service (a.performCell s ⟨some (.service service), none⟩) := by
        refine ⟨?_, x, ?_, hsame⟩
        · rw [himage]
          cases s.fault <;> simp [Fault.sees, Row.service?]
        · simpa [Applier.performCell, perform_of_prune hs, Applier.prune, hkind,
            pruneService] using hx
      exact iff_of_true (hkept.restored (fun t ht => (hrest t ht).1) hgo) hrec
  · rw [h.prune_restored_iff hs hrest hok hgo, h.recoverable]

end Prunes

end Rune.Cast
