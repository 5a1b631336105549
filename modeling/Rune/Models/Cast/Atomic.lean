import Rune.Models.Cast.Releases
import Rune.Models.Cast.Repruned

/-!
# All or nothing

A cast with `Atomic` that fails reverts every change it has begun. Resource by
resource the outcome is that of the changes addressed to it; these are one apply,
or prunes. Where every revert succeeds the cast has left no trace exactly if the
first change of each resource can be taken back from what it met.
-/

namespace Rune.Cast

open Rune.Core List
open Rune.Services
open Rune.Volumes

/-- The changes of a plan in the order of their execution. -/
def script (plan : Plan) (x : Strikes) : List Strike :=
  strike x.applies (splitForExecution plan).1 ++ strike x.prunes (splitForExecution plan).2

/-- The first change that a list of changes makes to a resource. -/
def firstChange (l : List Strike) (key : String) : Option Strike :=
  l.find? fun s => s.key = key && ownedKind s.change.ref.resourceType

section Cell

variable {a : Applier} {row : Option Row} {l : List Strike}

theorem performAll_of_not_owned (h : ∀ t ∈ l, ownedKind t.change.ref.resourceType = false) :
    a.performAll ⟨row, none⟩ l = ⟨row, none⟩ := by
  refine performAll_of_forall (P := fun c => c = ⟨row, none⟩) rfl fun t ht c hc => ?_
  rw [hc, performCell_of_not_owned (h t ht)]

theorem revertAll_of_not_owned {c : Cell}
    (h : ∀ t ∈ l, ownedKind t.change.ref.resourceType = false) :
    a.revertAll c (l.map Strike.undo) = c := by
  induction l with
  | nil => rfl
  | cons t l ih =>
    have hl := ih fun u hu => h u (mem_cons_of_mem t hu)
    rw [map_cons, Applier.revertAll, foldl_cons, revertCell_of_not_owned (h t mem_cons_self)]
    exact hl

theorem performAll_append_of_not_owned {s : Strike} {rest : List Strike}
    (h : ∀ t ∈ l, ownedKind t.change.ref.resourceType = false) :
    a.performAll ⟨row, none⟩ (l ++ s :: rest) =
      a.performAll (a.performCell s ⟨row, none⟩) rest := by
  have hl := @performAll_of_not_owned a row l h
  rw [Applier.performAll] at hl
  rw [Applier.performAll, foldl_append, hl]
  rfl

theorem revertAll_append_of_not_owned {c : Cell} {undone : List Strike}
    (h : ∀ t ∈ l, ownedKind t.change.ref.resourceType = false) :
    a.revertAll c (undone ++ l.map Strike.undo) = a.revertAll c undone := by
  conv_lhs => rw [Applier.revertAll, foldl_append]
  exact revertAll_of_not_owned h

/-- The reverts that the changes to one resource are followed by. -/
def undos (l : List Strike) : List Strike :=
  (l.reverse.filter fun s => s.change.action ≠ .reference).map Strike.undo

theorem undos_of_prunes (h : ∀ t ∈ l, t.change.action = .prune) :
    undos l = l.reverse.map Strike.undo := by
  have hall : l.reverse.filter (fun s => s.change.action ≠ .reference) = l.reverse := by
    refine filter_eq_self.mpr fun t ht => ?_
    simp [h t (mem_reverse.mp ht)]
  rw [undos, hall]

/-- The changes to one resource and their reverts, none of which fails: one apply, or prunes of
which only the last may fail. -/
theorem restored_iff_firstChange {key : String} (hkey : ∀ t ∈ l, t.key = key)
    (hshape : (∃ s, l = [s] ∧ s.change.action ≠ .prune) ∨ ∀ t ∈ l, t.change.action = .prune)
    (href : ∀ t ∈ l, t.change.action = .reference → ownedKind t.change.ref.resourceType = false)
    (hok : ∀ before t after, l = before ++ t :: after → after ≠ [] →
      a.performFails t (a.performAll ⟨row, none⟩ before) = none)
    (hgo : Goes a.revertCell a.revertFails (a.performAll ⟨row, none⟩ l) (undos l)) :
    Restored row (a.revertAll (a.performAll ⟨row, none⟩ l) (undos l)).row ↔
      ∀ s, firstChange l key = some s → a.Recoverable s row := by
  cases hfirst : firstChange l key with
  | none =>
    have hother : ∀ t ∈ l, ownedKind t.change.ref.resourceType = false := by
      intro t ht
      have hnot := find?_eq_none.mp hfirst t ht
      simpa [hkey t ht] using hnot
    rw [performAll_of_not_owned hother, undos, revertAll_of_not_owned fun t ht =>
      hother t (mem_reverse.mp (mem_filter.mp ht).1)]
    simp [restored_refl]
  | some s =>
    obtain ⟨hs, before, rest, rfl, hbefore⟩ := find?_eq_some_iff_append.mp hfirst
    obtain ⟨hkeys, howned⟩ : s.key = key ∧ ownedKind s.change.ref.resourceType = true := by
      simpa using hs
    have hother : ∀ t ∈ before, ownedKind t.change.ref.resourceType = false := by
      intro t ht
      have hnot := hbefore t ht
      simpa [hkey t (mem_append_left _ ht)] using hnot
    have hrec : (∀ s', some s = some s' → a.Recoverable s' row) ↔ a.Recoverable s row := by
      simp
    rw [hrec]
    rcases hshape with ⟨s', hl, hprune⟩ | hprune
    · obtain ⟨rfl, rfl, rfl⟩ : before = [] ∧ s = s' ∧ rest = [] := by
        cases before <;> simp_all
      have hundo : undos ([] ++ [s]) = [s.undo] := by
        have hact : s.change.action ≠ .reference := fun hact => by
          rw [href s (by simp) hact] at howned
          cases howned
        simp [undos, hact]
      rw [hundo] at hgo ⊢
      exact apply_restored_iff hprune howned hgo.1
    · have hundo : undos (before ++ s :: rest) =
          (rest.reverse.map Strike.undo ++ [s.undo]) ++ before.reverse.map Strike.undo := by
        rw [undos_of_prunes hprune]
        simp
      rw [hundo, performAll_append_of_not_owned hother] at hgo ⊢
      rw [revertAll_append_of_not_owned fun t ht => hother t (mem_reverse.mp ht)]
      refine prune_restored_iff (hprune s (by simp)) howned (fun t ht => ?_) (fun hne => ?_)
        (goes_append.mp hgo).1
      · have hmem : t ∈ before ++ s :: rest := by simp [ht]
        exact ⟨hprune t hmem, (hkey t hmem).trans hkeys.symm⟩
      · have hsucc := hok before s rest rfl hne
        rwa [performAll_of_not_owned hother] at hsucc

end Cell

theorem revertsOf_eq_undos {faults : ℕ → Fault} (h : ∀ i, faults i = .none) (done : List Strike) :
    revertsOf done faults = undos done := by
  rw [revertsOf, strike_of_forall_none h, filter_map, map_map]
  rfl

/-- The undos of one key. -/
theorem filter_undos (done : List Strike) (key : String) :
    (undos done).filter (fun s => s.key = key) = undos (done.filter fun s => s.key = key) := by
  have hcomm : ∀ l : List Strike,
      (l.filter fun s => s.change.action ≠ .reference).filter (fun s => s.key = key) =
        (l.filter fun s => s.key = key).filter fun s => s.change.action ≠ .reference := by
    intro l
    simp only [filter_filter, Bool.and_comm]
  simp only [undos, filter_map, ← filter_reverse]
  rw [← hcomm]
  rfl

namespace Fleet

variable {w : Fleet} {r : CastRequest} {p : Prepared} {n : ℕ} {plan : Plan}

/-- The applies of a plan are about the desired resources, each under its key. -/
theorem applies_keys (h : w.planOf r = .ok plan) :
    ((splitForExecution plan).1.map fun c => c.ref.key).Perm
      (r.spec.resources.map OwnerRef.key) := by
  obtain ⟨cs, hcs, h⟩ := bind_eq_ok h
  cases h
  have hprunes : (planPrunes (w.recordSeen r) r.spec.resources).filter
      (fun c => c.action ≠ .prune) = [] := by
    refine filter_eq_nil_iff.mpr fun c hc => ?_
    obtain ⟨ref, -, rfl⟩ := mem_map.mp hc
    simp
  have happlies : cs.filter (fun c => c.action ≠ .prune) = cs :=
    filter_eq_self.mpr fun c hc => by simpa using (planAll_spec hcs).2 c hc
  have hperm : (splitForExecution ⟨r.spec.name, r.spec.ns,
      cs ++ planPrunes (w.recordSeen r) r.spec.resources⟩).1.Perm cs := by
    refine (perm_insertionSort _ _).trans ?_
    rw [filter_append, hprunes, happlies, append_nil]
  refine (hperm.map _).trans ?_
  rw [← planAll_refs hcs, map_map]
  rfl

/-- A pruned key is not one the cast names. -/
theorem prunes_keys (h : w.planOf r = .ok plan) {c : PlannedChange}
    (hc : c ∈ (splitForExecution plan).2) : c.ref.key ∉ r.spec.resources.map OwnerRef.key := by
  obtain ⟨hmem, haction⟩ := mem_prunes.mp hc
  rcases (mem_planOf h c).mp hmem with ⟨d, -, hplanned⟩ | ⟨ref, -, hkey, rfl⟩
  · exact absurd haction (planDesired_spec hplanned).2.2
  · exact hkey

/-- Only shared kinds are referenced. -/
theorem not_owned_of_reference (h : w.planOf r = .ok plan) {c : PlannedChange}
    (hc : c ∈ plan.changes) (haction : c.action = .reference) :
    ownedKind c.ref.resourceType = false := by
  rcases (mem_planOf h c).mp hc with ⟨d, -, hplanned⟩ | ⟨ref, -, -, rfl⟩
  · obtain ⟨rfl, howning, -⟩ := planDesired_spec hplanned
    have hshared : isSharedClusterKind c.ref.resourceType = true := by
      simpa [PlannedChange.owning, haction] using howning
    cases hkind : c.ref.resourceType <;> simp_all [isSharedClusterKind, ownedKind]
  · cases haction

/-- With distinct desired resources, what a cast does to a resource is one apply,
or prunes. -/
theorem executed_shape (h : w.planOf r = .ok plan)
    (hdistinct : (r.spec.resources.map OwnerRef.key).Nodup) {a : Applier} {x : Strikes}
    {rows : Rows} (key : String) :
    (∃ s, (a.run plan x rows).done.filter (fun s => s.key = key) = [s] ∧
        s.change.action ≠ .prune) ∨
      ∀ t ∈ (a.run plan x rows).done.filter (fun s => s.key = key), t.change.action = .prune := by
  obtain ⟨applied, pruned, hdone, happlied, hpruned⟩ := @run_done a plan x rows
  have hprune : ∀ t ∈ pruned, t.change ∈ (splitForExecution plan).2 := fun t ht => by
    have hmem := mem_map_of_mem (f := Strike.change) (hpruned.subset ht)
    rwa [map_change_strike] at hmem
  have happly : ∀ t ∈ applied, t.change ∈ (splitForExecution plan).1 := fun t ht => by
    have hmem := mem_map_of_mem (f := Strike.change) (happlied.subset ht)
    rwa [map_change_strike] at hmem
  have hnodup : (applied.map Strike.key).Nodup := by
    refine List.Nodup.sublist (happlied.sublist.map Strike.key) ?_
    rw [map_key_strike]
    exact (applies_keys h).nodup_iff.mpr hdistinct
  rw [hdone, filter_append]
  cases hfound : applied.filter (fun s => s.key = key) with
  | nil =>
    refine Or.inr fun t ht => ?_
    exact (mem_prunes.mp (hprune t (mem_filter.mp ht).1)).2
  | cons s others =>
    obtain ⟨hs, hkey⟩ : s ∈ applied ∧ s.key = key := by
      have hmem : s ∈ applied.filter (fun s => s.key = key) := hfound ▸ mem_cons_self
      simpa using hmem
    have halone : s :: others = [s] := by
      rw [← hfound, ← hkey]
      exact filter_key_of_nodup hnodup hs
    have hnone : pruned.filter (fun s => s.key = key) = [] := by
      refine filter_eq_nil_iff.mpr fun t ht hk => ?_
      refine prunes_keys h (hprune t ht) ?_
      have hwant := (applies_keys h).subset (mem_map_of_mem (happly s hs))
      have heq : t.change.ref.key = s.change.ref.key := by
        have htk : t.key = key := by simpa using hk
        exact htk.trans hkey.symm
      rwa [heq]
    exact Or.inl ⟨s, by rw [halone, hnone]; rfl, (mem_applies.mp (happly s hs)).2⟩

theorem firstChange_filter (l : List Strike) (key : String) :
    firstChange (l.filter fun s => s.key = key) key = firstChange l key := by
  simp only [firstChange, find?_filter]
  congr 1
  funext s
  by_cases hs : s.key = key <;> simp [hs]

/-- One resource after the changes of a cast and after their reverts. -/
theorem restored_at (hplan : w.planOf r = .ok plan)
    (hdistinct : (r.spec.resources.map OwnerRef.key).Nodup) {a : Applier} {x : Strikes}
    (hsucceed : succeed Strike.key a.revertCell a.revertFails (a.run plan x w.rows).store
      (undos (a.run plan x w.rows).done) = true) (key : String) :
    Restored (w.rows key) (rowsOf (touchAll Strike.key a.revertCell (a.run plan x w.rows).store
        (undos (a.run plan x w.rows).done)) key) ↔
      ∀ s, firstChange ((a.run plan x w.rows).done.filter fun s => s.key = key) key = some s →
        a.Recoverable s (w.rows key) := by
  have hstart : (a.run plan x w.rows).store key =
      a.performAll ⟨w.rows key, none⟩ ((a.run plan x w.rows).done.filter fun s => s.key = key) := by
    rw [run_store, touchAll_apply]
    rfl
  have hgo := succeed_goes hsucceed key
  rw [filter_undos, hstart] at hgo
  rw [rowsOf, touchAll_apply, filter_undos, hstart]
  refine restored_iff_firstChange (fun t ht => by simpa using (mem_filter.mp ht).2)
    (executed_shape hplan hdistinct key) (fun t ht haction => ?_) (fun before t after hl hne => ?_)
    hgo
  · exact not_owned_of_reference hplan (mem_changes_of_mem_done (mem_filter.mp ht).1) haction
  · obtain ⟨l₁, l₂, hdone, hbefore, hafter⟩ := filter_eq_append_iff.mp hl
    obtain ⟨m₁, m₂, rfl, hskip, hkey, hafter⟩ := filter_eq_cons_iff.mp hafter
    have hm₂ : m₂ ≠ [] := by
      rintro rfl
      exact hne hafter.symm
    have hsplit : (a.run plan x w.rows).done = (l₁ ++ m₁) ++ t :: m₂ := by
      rw [hdone, append_assoc]
    have hmet : (l₁ ++ m₁).filter (fun s => s.key = key) = before := by
      rw [filter_append, hbefore, filter_eq_nil_iff.mpr hskip, append_nil]
    have hkey : t.key = key := by simpa using hkey
    have hsucc := run_succeeds hsplit hm₂
    rwa [touchAll_apply, hkey, hmet] at hsucc

/-- Nothing is left of the cast: every resource is what it was, and the record
owns and references what the previous record did. -/
structure RolledBack (w w' : Fleet) (r : CastRequest) : Prop where
  rows : ∀ key, Restored (w.rows key) (w'.rows key)
  record : ∃ rel, w'.records (releaseKey r.spec.ns r.spec.name) = some rel ∧
    rel.owns = ownsOf (w.records (releaseKey r.spec.ns r.spec.name)) ∧
    rel.references =
      ((w.records (releaseKey r.spec.ns r.spec.name)).map Release.references).getD []

/-- The atomic cast fails when it has begun the first `n` of its changes, and
every revert succeeds. -/
structure FailsAtomically (w : Fleet) (r : CastRequest) (p : Prepared) (n : ℕ) : Prop where
  atomic : r.spec.atomic = true
  distinct : (r.spec.resources.map OwnerRef.key).Nodup
  read : r.recordUnread = false
  prepared : w.prepared r = .ok p
  failed : ((w.applier r).run p.plan r.strikes w.rows).error.isSome = true
  begun : ((w.applier r).run p.plan r.strikes w.rows).done = (script p.plan r.strikes).take n
  undisturbed : ∀ i, r.strikes.reverts i = .none
  reverted : succeed Strike.key (w.applier r).revertCell (w.applier r).revertFails
    ((w.applier r).run p.plan r.strikes w.rows).store
    (revertsOf ((w.applier r).run p.plan r.strikes w.rows).done r.strikes.reverts) = true
  settled : r.settled = true
  completed : r.crash = .never

/-- What the cast leaves behind. -/
theorem cast_of_failsAtomically (h : FailsAtomically w r p n) :
    (w.cast r).rows = rowsOf (touchAll Strike.key (w.applier r).revertCell
        ((w.applier r).run p.plan r.strikes w.rows).store
        (undos ((w.applier r).run p.plan r.strikes w.rows).done)) ∧
      (w.cast r).records (releaseKey r.spec.ns r.spec.name) = some { p.rel with
        status := .failed
        owns := ownsOf (w.recordSeen r)
        references := ((w.recordSeen r).map Release.references).getD [] } := by
  obtain ⟨hspec, hprev, hrel⟩ := prepared_fields h.prepared
  obtain ⟨e, he⟩ := Option.isSome_iff_exists.mp h.failed
  have hatomic : p.spec.atomic = true := hspec ▸ h.atomic
  simp only [cast, h.prepared, h.completed, h.settled, if_true, Applier.execute, he, hatomic,
    h.reverted, ← revertsOf_eq_undos h.undisturbed, hprev, true_and]
  simp [saved, hrel, pendingRelease]

/-- An atomic cast that fails, with every revert succeeding, has left nothing
behind exactly if the first change of each resource could be taken back. -/
theorem rolledBack_iff (h : FailsAtomically w r p n) :
    RolledBack w (w.cast r) r ↔
      ∀ key s, firstChange ((script p.plan r.strikes).take n) key = some s →
        (w.applier r).Recoverable s (w.rows key) := by
  obtain ⟨hrows, hrecord⟩ := cast_of_failsAtomically h
  have hseen : w.recordSeen r = w.records (releaseKey r.spec.ns r.spec.name) := by
    simp [recordSeen, h.read]
  obtain ⟨hplan, -⟩ := prepared_eq_ok h.prepared
  have hcell : ∀ key, Restored (w.rows key) ((w.cast r).rows key) ↔
      ∀ s, firstChange ((script p.plan r.strikes).take n) key = some s →
        (w.applier r).Recoverable s (w.rows key) := by
    intro key
    rw [← h.begun, ← firstChange_filter, hrows]
    exact restored_at hplan h.distinct (revertsOf_eq_undos h.undisturbed _ ▸ h.reverted) key
  constructor
  · intro hback key
    exact (hcell key).mp (hback.rows key)
  · intro hrec
    refine ⟨fun key => (hcell key).mpr (hrec key), _, hrecord, ?_, ?_⟩ <;> rw [← hseen]

end Fleet

/-- A fleet whose only resource is the given one, deployed by a release. -/
def deployedOnce (ref : OwnerRef) (row : Row) : Fleet where
  rows := Function.update (fun _ => none) ref.key (some row)
  records := Function.update (fun _ => none) (releaseKey "prod" "api")
    (some ⟨"id", "api", "prod", .deployed, 1, [ref], []⟩)

/-- An atomic cast of the next revision whose only update lands and still reports
an error. -/
def landedCast (ref : OwnerRef) (payloads : Payloads) : CastRequest where
  spec := ⟨"api", "prod", [ref], false, false, true⟩
  payloads := payloads
  secretLimits := ⟨64, 1024⟩
  configLimits := ⟨64, 1024⟩
  fresh := fun _ => mintedId
  strikes := { applies := fun _ => .write true }

/-- The cast of one updated resource, once it is prepared. -/
def landedPrepared (ref : OwnerRef) : Prepared where
  spec := ⟨"api", "prod", [ref], false, false, true⟩
  rel := ⟨"id", "api", "prod", .pending, 2, [ref], []⟩
  prev := some ⟨"id", "api", "prod", .deployed, 1, [ref], []⟩
  plan := ⟨"api", "prod", [⟨ref, .update, none⟩]⟩

/-- A secret of the release. -/
def dbRef : OwnerRef := ⟨.secret, "prod", "db"⟩

/-- The release of the secret. -/
def dbDeployed : Fleet :=
  deployedOnce dbRef
    (.secret { ns := "prod", name := "db", data := [("k", "old")]
               ownedBy := some ⟨"api", 1, "runeset"⟩ })

/-- A cast that changes the secret. -/
def dbCast : CastRequest :=
  landedCast dbRef ⟨fun _ => none,
    fun _ => some { ns := "prod", name := "db", data := [("k", "new")] }, fun _ => none,
    fun _ => none⟩

/-- An update of a secret that lands with an error is taken back. -/
theorem rolledBack_secret :
    Fleet.FailsAtomically dbDeployed dbCast (landedPrepared dbRef) 1 ∧
      Fleet.RolledBack dbDeployed (dbDeployed.cast dbCast) dbCast := by
  have h : Fleet.FailsAtomically dbDeployed dbCast (landedPrepared dbRef) 1 :=
    ⟨rfl, by decide, rfl, rfl, by decide, by decide, fun _ => rfl, by decide, rfl, rfl⟩
  refine ⟨h, (Fleet.rolledBack_iff h).mpr fun key s hs => ?_⟩
  have hmem : s ∈ [(⟨⟨dbRef, .update, none⟩, .write true⟩ : Strike)] :=
    mem_of_find?_eq_some hs
  obtain rfl := mem_singleton.mp hmem
  intro cur _
  simp

/-- A service of the release. -/
def webRef : OwnerRef := ⟨.service, "prod", "web"⟩

/-- The service as it is stored. -/
def webService : Service where
  id := "svc"
  ns := "prod"
  name := "web"
  spec := { image := "web:1" }
  metadata := ⟨1, 1, 1, some ⟨"api", 1, "runeset"⟩, 0, false, []⟩

/-- The release of the service. -/
def webDeployed : Fleet := deployedOnce webRef (.service webService)

/-- A cast that changes the service. -/
def webCast : CastRequest :=
  landedCast webRef ⟨fun _ => some { webService with spec := { image := "web:2" } },
    fun _ => none, fun _ => none, fun _ => none⟩

/-- An update of a service that lands with an error is not taken back: the service
keeps the new image. -/
theorem landed_service_update_kept :
    Fleet.FailsAtomically webDeployed webCast (landedPrepared webRef) 1 ∧
      ¬ Fleet.RolledBack webDeployed (webDeployed.cast webCast) webCast := by
  refine ⟨?_, fun h => ?_⟩
  · exact ⟨rfl, by decide, rfl, rfl, by decide, by decide, fun _ => rfl, by decide, rfl, rfl⟩
  · have hkept : (((webDeployed.cast webCast).rows webRef.key).bind Row.service?).map
        Service.calculateHash ≠ some webService.calculateHash := by decide
    obtain ⟨r', hrow, hsame⟩ := h.rows webRef.key
    rw [hrow] at hkept
    cases r' with
    | service s => exact hkept (congrArg some hsame.1.symm)
    | _ => exact hsame

end Rune.Cast
