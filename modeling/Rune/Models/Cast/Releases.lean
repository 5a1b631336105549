import Rune.Models.Cast.Casting

/-!
# Several releases on one cluster

The stored rows and the records of all releases. Casts of any releases follow
each other, each with whatever goes wrong in it and possibly cut short by a
crash; releases are uninstalled; rows disappear by other means, and the teardown
of a service completes some time after it was asked for.
-/

namespace Rune.Cast

open Rune.Core
open Rune.Services
open Rune.Volumes

/-- The stored rows, and the release records by namespace and name. -/
structure Fleet where
  rows : Rows
  records : String → Option Release

/-- The key of a release record. -/
def releaseKey (ns name : String) : String := ns ++ "/" ++ name

/-- Where the process dies while it executes a cast, if it does. -/
inductive Crash where
  | never
  | afterChanges (n : ℕ)
  | afterReverts (n : ℕ)

/-- A cast with everything it meets. Reads that fail are taken for missing
records and rows. -/
structure CastRequest where
  spec : ReleaseSpec
  payloads : Payloads
  admitService : Service → Option String := fun _ => none
  secretLimits : Limits
  configLimits : Limits
  fresh : String → Uuid
  /-- The read of the record for the revision of the stamp fails. -/
  revisionUnread : Bool := false
  /-- The read of the record for the plan fails. -/
  recordUnread : Bool := false
  unread : OwnerRef → Bool := fun _ => false
  admission : Plan → Option String := fun _ => none
  saveError : Option String := none
  strikes : Strikes := {}
  settled : Bool := true
  crash : Crash := .never

namespace Fleet

variable (w : Fleet)

/-- The revision that the cast stamps, from a read of the record of its own. -/
def revision (r : CastRequest) : ℕ :=
  if r.revisionUnread then 1
  else ((w.records (releaseKey r.spec.ns r.spec.name)).map fun rel => rel.revision + 1).getD 1

/-- The record of the previous revision as the plan reads it. -/
def recordSeen (r : CastRequest) : Option Release :=
  if r.recordUnread then none else w.records (releaseKey r.spec.ns r.spec.name)

/-- The plan of a cast. -/
def planOf (r : CastRequest) : Except String Plan :=
  buildPlan r.spec.name r.spec.ns r.spec.resources (w.recordSeen r) (liveLookup w.rows r.unread)
    r.spec.adopt

/-- The cast as it is prepared. -/
def prepared (r : CastRequest) : Except CastError Prepared :=
  prepareOver r.spec (w.recordSeen r) (liveLookup w.rows r.unread) r.admission r.saveError

/-- The applier of a cast, under the stamp of the revision. -/
def applier (r : CastRequest) : Applier where
  payloads := r.payloads
  stamp := ⟨r.spec.name, w.revision r, "runeset"⟩
  admitService := r.admitService
  secretLimits := r.secretLimits
  configLimits := r.configLimits
  fresh := r.fresh

/-- Write a release record. -/
def saved (rel : Release) : Fleet :=
  { w with records := Function.update w.records (releaseKey rel.ns rel.name) (some rel) }

/-- A cast. The record is written when the cast is prepared and when it ends; a
crash leaves the rows where they are and the record pending. -/
def cast (r : CastRequest) : Fleet :=
  match w.prepared r with
  | .error _ => w
  | .ok p =>
    let a := w.applier r
    let h := a.run p.plan r.strikes w.rows
    match r.crash with
    | .never =>
      let ended := a.execute p r.strikes w.rows
      { w.saved (if r.settled then ended.record else p.rel) with rows := ended.rows }
    | .afterChanges n =>
      { w.saved p.rel with
        rows := rowsOf (touchAll Strike.key a.performCell (untouched w.rows) (h.done.take n)) }
    | .afterReverts n =>
      { w.saved p.rel with
        rows := rowsOf (touchAll Strike.key a.revertCell h.store
          ((revertsOf h.done r.strikes.reverts).take n)) }

end Fleet

/-- The order of deletion: services, secrets, configmaps, volumes. -/
def deletionRank : ResourceType → ℕ
  | .service => 0
  | .secret => 1
  | .configmap => 2
  | .volume => 3
  | _ => 4

/-- The order in which an uninstall prunes. -/
def reverseDependencyOrder (refs : List OwnerRef) : List OwnerRef :=
  refs.insertionSort fun a b => deletionRank a.resourceType ≤ deletionRank b.resourceType

/-- An uninstall with everything it meets. -/
structure UninstallRequest where
  ns : String
  name : String
  keepVolumes : Bool := false
  purge : Bool := false
  recordUnread : Bool := false
  admission : List PlannedChange → Option String := fun _ => none
  marked : Bool := true
  faults : ℕ → Fault := fun _ => .none
  settled : Bool := true

/-- The prunes of an uninstall. -/
def UninstallRequest.prunes (u : UninstallRequest) (rel : Release) : List PlannedChange :=
  ((reverseDependencyOrder rel.owns).filter fun ref =>
    !(u.keepVolumes && ref.resourceType = .volume)).map fun ref => ⟨ref, .prune, none⟩

/-- The record at the end of an uninstall that pruned everything. -/
def UninstallRequest.retired (u : UninstallRequest) (rel : Release) : Option Release :=
  if u.purge then none else some { rel with status := .uninstalled, owns := [] }

/-- An identifier as the store hands one out. -/
def mintedId : Uuid := ⟨"id", by decide⟩

/-- An applier without anything to apply. -/
def bareApplier : Applier where
  payloads := ⟨fun _ => none, fun _ => none, fun _ => none, fun _ => none⟩
  stamp := ⟨"", 0, ""⟩
  admitService := fun _ => none
  secretLimits := ⟨0, 0⟩
  configLimits := ⟨0, 0⟩
  fresh := fun _ => mintedId

namespace Fleet

variable (w : Fleet)

/-- The record that an uninstall reads. -/
def recordFound (u : UninstallRequest) : Option Release :=
  if u.recordUnread then none else w.records (releaseKey u.ns u.name)

/-- The prunes of an uninstall, carried out up to the first failure. -/
def pruned (u : UninstallRequest) (rel : Release) : Halt String Cell Strike String :=
  bareApplier.attemptChanges (untouched w.rows) (strike u.faults (u.prunes rel))

/-- The error of an uninstall names the prune that failed. -/
def uninstallError (done : List Strike) (e : String) : String :=
  "prune " ++ (done.getLast?.map Strike.key).getD "" ++ " during uninstall: " ++ e

/-- Uninstall a release. The owned set stays as it was recorded until every prune
has succeeded. -/
def uninstall (u : UninstallRequest) : Fleet × Option String :=
  match w.recordFound u with
  | none =>
    (w, some ("release " ++ u.ns ++ "/" ++ u.name ++ " not found: " ++
      if u.recordUnread then storeError else "resource not found"))
  | some rel =>
    match u.admission (u.prunes rel) with
    | some e => (w, some e)
    | none =>
      let key := releaseKey u.ns u.name
      let marked : Option Release := some (if u.marked then { rel with status := .uninstalling }
        else rel)
      let h := w.pruned u rel
      match h.error with
      | some e =>
        (⟨rowsOf h.store, Function.update w.records key marked⟩, some (uninstallError h.done e))
      | none =>
        if u.settled then
          (⟨rowsOf h.store, Function.update w.records key (u.retired rel)⟩, none)
        else (⟨rowsOf h.store, Function.update w.records key marked⟩, some storeError)

/-- The steps of a run. -/
inductive Step where
  | cast (r : CastRequest)
  | uninstall (u : UninstallRequest)
  | removed (key : String)
  | tornDown (key : String)

/-- One step of a run. A teardown completes only where one was asked for. -/
def step : Step → Option Fleet
  | .cast r => some (w.cast r)
  | .uninstall u => some (w.uninstall u).1
  | .removed key => some { w with rows := Function.update w.rows key none }
  | .tornDown key =>
    if terminatingImage (w.rows key) then some { w with rows := Function.update w.rows key none }
    else none

section Facts

variable {w : Fleet} {r : CastRequest}

/-- What the plan of a cast consists of. -/
theorem mem_planOf {p : Plan} (h : w.planOf r = .ok p) (c : PlannedChange) :
    c ∈ p.changes ↔
      (∃ d ∈ r.spec.resources, planDesired r.spec.name ((ownsOf (w.recordSeen r)).map OwnerRef.key)
          (liveLookup w.rows r.unread) r.spec.adopt d = .ok c) ∨
        ∃ ref ∈ ownsOf (w.recordSeen r), ref.key ∉ r.spec.resources.map OwnerRef.key ∧
          c = ⟨ref, .prune, none⟩ := by
  obtain ⟨cs, hcs, h⟩ := bind_eq_ok h
  cases h
  simp only [List.mem_append, mem_planAll hcs, planPrunes, List.mem_map, List.mem_filter,
    decide_eq_true_eq]
  refine or_congr_right (exists_congr fun ref => ?_)
  tauto

/-- A prepared cast has its plan, and the plan has no conflict. -/
theorem prepared_eq_ok {p : Prepared} (h : w.prepared r = .ok p) :
    w.planOf r = .ok p.plan ∧ ∀ c ∈ p.plan.changes, c.conflict = none := by
  obtain ⟨plan, hplan, h⟩ := bind_eq_ok h
  obtain ⟨_, -, h⟩ := bind_eq_ok h
  obtain ⟨_, happly, h⟩ := bind_eq_ok h
  obtain ⟨_, -, h⟩ := bind_eq_ok h
  obtain ⟨_, -, h⟩ := bind_eq_ok h
  cases h
  constructor
  · unfold planOf
    rcases hbuild : buildPlan r.spec.name r.spec.ns r.spec.resources (w.recordSeen r)
        (liveLookup w.rows r.unread) r.spec.adopt with e | plan'
    · simp [hbuild, Except.mapError] at hplan
    · simpa [hbuild, Except.mapError] using hplan
  · have hall := refuseIf_eq_ok.mp happly
    simpa [Plan.applyable] using hall

/-- A prepared cast keeps its request, the record it has read, and the intent. -/
theorem prepared_fields {p : Prepared} (h : w.prepared r = .ok p) :
    p.spec = r.spec ∧ p.prev = w.recordSeen r ∧
      p.rel = pendingRelease r.spec (w.recordSeen r) p.plan := by
  obtain ⟨plan, -, h⟩ := bind_eq_ok h
  obtain ⟨_, -, h⟩ := bind_eq_ok h
  obtain ⟨_, -, h⟩ := bind_eq_ok h
  obtain ⟨_, -, h⟩ := bind_eq_ok h
  obtain ⟨_, -, h⟩ := bind_eq_ok h
  cases h
  exact ⟨rfl, rfl, rfl⟩

end Facts

end Fleet

end Rune.Cast
