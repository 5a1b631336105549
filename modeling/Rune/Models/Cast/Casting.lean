import Rune.Models.Cast.Applier
import Rune.Models.Cast.Execution

/-!
# A whole cast against the stored rows

A cast looks its resources up, plans, records its intent, and hands the planned
changes to the applier one after the other: applies, verification, prunes. With
`Atomic` a failure sends every change that was begun back through the applier,
last one first. The planning half is the one of the abstract casts; it is linked
to them at the end.
-/

namespace Rune.Cast

open Rune.Core
open Rune.Services
open Rune.Volumes

/-- The kind of a row. -/
def Row.kind : Row → ResourceType
  | service _ => .service
  | secret _ => .secret
  | configmap _ => .configmap
  | volume _ => .volume

/-- The row of a reference, where it is one of the reference's kind. -/
def rowOf (ref : OwnerRef) (row : Option Row) : Option Row :=
  row.filter fun r => r.kind = ref.resourceType

@[simp] theorem rowOf_none (ref : OwnerRef) : rowOf ref none = none := rfl

@[simp] theorem rowOf_some (ref : OwnerRef) (r : Row) :
    rowOf ref (some r) = if r.kind = ref.resourceType then some r else none := by
  simp [rowOf, Option.filter_some]

/-- The lookup over the stored rows. A read that fails reports a missing row,
and so does a kind that no release owns. -/
def liveLookup (rows : Rows) (unread : OwnerRef → Bool) : LiveLookup := fun ref =>
  if unread ref then .ok ⟨false, none⟩
  else match rowOf ref (rows ref.key) with
    | none => .ok ⟨false, none⟩
    | some r => .ok ⟨true, r.ownedBy⟩

/-- A cast that has been planned and recorded. -/
structure Prepared where
  spec : ReleaseSpec
  rel : Release
  prev : Option Release
  plan : Plan

/-- Plan a cast over a lookup and validate the plan. -/
def prepareOver (spec : ReleaseSpec) (prev : Option Release) (live : LiveLookup)
    (admission : Plan → Option String) (saveError : Option String) :
    Except CastError Prepared := do
  let p ← (buildPlan spec.name spec.ns spec.resources prev live spec.adopt).mapError
    CastError.lookup
  passOn .denied (admission p)
  refuseIf (p.applyable = false) .conflicts
  refuseIf (spec.detach = true ∧ p.hasPrune = true) .detachWouldPrune
  passOn .notSaved saveError
  pure ⟨spec, pendingRelease spec prev p, prev, p⟩

/-- The abstract cast that a prepared one is the start of. -/
def Prepared.execution (p : Prepared) : Execution :=
  ⟨p.spec, p.rel, p.prev, [], [],
    .applying (splitForExecution p.plan).1 (splitForExecution p.plan).2⟩

/-- Planning is the same on both levels, up to how the record and the live
resources are read. -/
theorem prepare_eq_prepareOver (spec : ReleaseSpec) (env : Surroundings)
    (record : Option Release) (live : Cluster) :
    prepare spec env record live =
      readRecord env.read record >>= fun prev =>
        Prepared.execution <$>
          prepareOver spec prev (lookupIn live env.lookupError) env.admission env.saveError := by
  simp only [prepare, prepareOver, map_bind, map_pure]
  rfl

/-- What goes wrong while a cast is executed, change by change. -/
structure Strikes where
  applies : ℕ → Fault := fun _ => .none
  verify : Option String := none
  prunes : ℕ → Fault := fun _ => .none
  reverts : ℕ → Fault := fun _ => .none

/-- The changes with the faults that strike them. -/
def strike (faults : ℕ → Fault) (changes : List PlannedChange) : List Strike :=
  changes.mapIdx fun i c => ⟨c, faults i⟩

/-- The cells at the start of a cast: nothing has been touched. -/
def untouched (rows : Rows) (key : String) : Cell := ⟨rows key, none⟩

namespace Applier

variable (a : Applier)

/-- Carry out changes up to the first failure. -/
def attemptChanges (cells : String → Cell) (l : List Strike) : Halt String Cell Strike String :=
  attempt Strike.key a.performCell a.performFails cells l

/-- Apply, verify, prune. -/
def run (plan : Plan) (x : Strikes) (rows : Rows) : Halt String Cell Strike String :=
  let todo := splitForExecution plan
  let applied := a.attemptChanges (untouched rows) (strike x.applies todo.1)
  match applied.error, x.verify with
  | some _, _ => applied
  | none, some e => { applied with error := some e }
  | none, none =>
    let pruned := a.attemptChanges applied.store (strike x.prunes todo.2)
    ⟨pruned.store, applied.done ++ pruned.done, pruned.error⟩

end Applier

/-- The reverts of the changes that were begun, last one first; references are
skipped. -/
def revertsOf (done : List Strike) (faults : ℕ → Fault) : List Strike :=
  strike faults ((done.reverse.map Strike.change).filter fun c => c.action ≠ .reference)

/-- How a cast ended. -/
structure Ended where
  rows : Rows
  record : Release
  error : Option String

/-- The stored rows of a family of cells. -/
def rowsOf (cells : String → Cell) : Rows := fun k => (cells k).row

/-- Execute a prepared cast and settle its record. A clean rollback restores the
owned set of the previous revision. -/
def Applier.execute (a : Applier) (p : Prepared) (x : Strikes) (rows : Rows) : Ended :=
  let h := a.run p.plan x rows
  match h.error with
  | none => ⟨rowsOf h.store, { p.rel with status := .deployed }, none⟩
  | some e =>
    if p.spec.atomic then
      let reverts := revertsOf h.done x.reverts
      let back := rowsOf (touchAll Strike.key a.revertCell h.store reverts)
      if succeed Strike.key a.revertCell a.revertFails h.store reverts then
        ⟨back,
          { p.rel with
            status := .failed
            owns := ownsOf p.prev
            references := (p.prev.map Release.references).getD [] },
          some (e ++ " (atomic: this revision's changes were rolled back)")⟩
      else ⟨back, { p.rel with status := .failed }, some (e ++ "\natomic rollback incomplete")⟩
    else ⟨rowsOf h.store, { p.rel with status := .failed }, some e⟩

section Facts

variable {a : Applier} {plan : Plan} {x : Strikes} {rows : Rows}

@[simp] theorem map_change_strike (faults : ℕ → Fault) (l : List PlannedChange) :
    (strike faults l).map Strike.change = l := by
  apply List.ext_getElem?
  intro i
  simp [strike, List.getElem?_mapIdx, Function.comp_def]

theorem map_key_strike (faults : ℕ → Fault) (l : List PlannedChange) :
    (strike faults l).map Strike.key = l.map fun c => c.ref.key := by
  conv_rhs => rw [← map_change_strike faults l, List.map_map]
  rfl

/-- Changes that nothing strikes. -/
theorem strike_of_forall_none {faults : ℕ → Fault} (h : ∀ i, faults i = .none)
    (l : List PlannedChange) : strike faults l = l.map fun c => ⟨c, .none⟩ := by
  apply List.ext_getElem?
  intro i
  simp [strike, List.getElem?_mapIdx, h]

/-- The store at the end is what the executed changes have made of it. -/
theorem run_store :
    (a.run plan x rows).store =
      touchAll Strike.key a.performCell (untouched rows) (a.run plan x rows).done := by
  simp only [Applier.run, Applier.attemptChanges]
  split
  · exact attempt_store _ _
  · exact attempt_store _ _
  · rw [touchAll_append, ← attempt_store, ← attempt_store]

/-- The executed changes are the planned ones, applies before prunes, up to where
the cast stopped. -/
theorem run_done :
    ∃ applied pruned, (a.run plan x rows).done = applied ++ pruned ∧
      applied <+: strike x.applies (splitForExecution plan).1 ∧
      pruned <+: strike x.prunes (splitForExecution plan).2 := by
  simp only [Applier.run, Applier.attemptChanges]
  split
  · exact ⟨_, [], (List.append_nil _).symm, done_prefix_of_attempt _ _, List.nil_prefix⟩
  · exact ⟨_, [], (List.append_nil _).symm, done_prefix_of_attempt _ _, List.nil_prefix⟩
  · exact ⟨_, _, rfl, done_prefix_of_attempt _ _, done_prefix_of_attempt _ _⟩

/-- What is executed was planned. -/
theorem mem_changes_of_mem_done {s : Strike}
    (h : s ∈ (a.run plan x rows).done) : s.change ∈ plan.changes := by
  obtain ⟨applied, pruned, hdone, happlied, hpruned⟩ := @run_done a plan x rows
  rw [hdone] at h
  rcases List.mem_append.mp h with h | h
  · have hmem := List.mem_map_of_mem (f := Strike.change) (happlied.subset h)
    rw [map_change_strike] at hmem
    exact (mem_applies.mp hmem).1
  · have hmem := List.mem_map_of_mem (f := Strike.change) (hpruned.subset h)
    rw [map_change_strike] at hmem
    exact (mem_prunes.mp hmem).1

/-- Every change before the last one executed has succeeded on what it met. -/
theorem run_succeeds {before after : List Strike} {s : Strike}
    (hdone : (a.run plan x rows).done = before ++ s :: after) (hne : after ≠ []) :
    a.performFails s (touchAll Strike.key a.performCell (untouched rows) before s.key) = none := by
  simp only [Applier.run, Applier.attemptChanges] at hdone
  split at hdone
  · exact attempt_succeeds hdone (Or.inl hne)
  · exact attempt_succeeds hdone (Or.inl hne)
  · rename_i herror _
    have hprune : ∀ later : List Strike,
        (attempt Strike.key a.performCell a.performFails
          (attempt Strike.key a.performCell a.performFails (untouched rows)
            (strike x.applies (splitForExecution plan).1)).store
          (strike x.prunes (splitForExecution plan).2)).done = later ++ s :: after →
        before = (attempt Strike.key a.performCell a.performFails (untouched rows)
          (strike x.applies (splitForExecution plan).1)).done ++ later →
        a.performFails s (touchAll Strike.key a.performCell (untouched rows) before s.key) =
          none := by
      intro later hlater hbefore
      rw [hbefore, touchAll_append, ← attempt_store]
      exact attempt_succeeds hlater (Or.inl hne)
    rcases List.append_eq_append_iff.mp hdone with ⟨later, hbefore, hlater⟩ | ⟨mid, hmid, hrest⟩
    · exact hprune later hlater hbefore
    · rcases mid with _ | ⟨s', mid⟩
      · exact hprune [] (by simpa using hrest.symm) (by simpa using hmid.symm)
      · obtain ⟨rfl, -⟩ := List.cons.inj hrest
        exact attempt_succeeds hmid (Or.inr herror)

end Facts

section Kinds

variable {a : Applier} {ref : OwnerRef} {f : Fault} {row : Option Row}

/-- The row is gone, or is a service on its way out. -/
def isGone (row : Option Row) : Bool := row.isNone || terminatingImage row

theorem bind_eq_none_of_kind {α : Type} {kind : ResourceType} {ofRow : Row → Option α}
    (hof : ∀ r, r.kind ≠ kind → ofRow r = none) (hkind : ref.resourceType = kind)
    (h : rowOf ref row = none) : row.bind ofRow = none := by
  cases row with
  | none => rfl
  | some r =>
    refine hof r fun hr => ?_
    simp [hr, hkind] at h

/-- A prune acts on rows of its kind only. -/
theorem prune_row_of_other_kind (h : rowOf ref row = none) : (a.prune ref f row).row = row := by
  unfold Applier.prune
  split
  · rename_i hkind
    have hrow : row.bind Row.service? = none :=
      bind_eq_none_of_kind (fun r hr => by cases r <;> simp_all [Row.kind, Row.service?]) hkind h
    simp [pruneService, deleteServiceRow, hrow]
  · rename_i hkind
    have hrow : row.bind (secretRepo a.secretLimits).ofRow = none :=
      bind_eq_none_of_kind (fun r hr => by cases r <;> simp_all [Row.kind, secretRepo, Row.secret?])
        hkind h
    simp [pruneVia, hrow, commitDelete]
  · rename_i hkind
    have hrow : row.bind (configmapRepo a.configLimits (a.fresh ref.key).text).ofRow = none :=
      bind_eq_none_of_kind
        (fun r hr => by cases r <;> simp_all [Row.kind, configmapRepo, Row.configmap?]) hkind h
    simp [pruneVia, hrow, commitDelete]
  · rename_i hkind
    have hrow : row.bind (volumeRepo (a.fresh ref.key)).ofRow = none :=
      bind_eq_none_of_kind
        (fun r hr => by cases r <;> simp_all [Row.kind, volumeRepo, Row.volume?]) hkind h
    simp [pruneVia, hrow, commitDelete]
  · rfl

/-- The kinds that releases own. -/
def ownedKind : ResourceType → Bool
  | .service | .secret | .configmap | .volume => true
  | _ => false

theorem ownedKind_kind (r : Row) : ownedKind r.kind = true := by cases r <;> rfl

theorem prune_of_not_owned (h : ownedKind ref.resourceType = false) :
    a.prune ref f row = { row := row } := by
  unfold Applier.prune
  split <;> simp_all [ownedKind]

end Kinds

end Rune.Cast
