import Rune.Core.Cellwise
import Rune.Models.Cast.Rows

/-!
# The applier of a cast

Apply, prune and revert, resource by resource. Each call reads and writes the row of
one key, and remembers what the row was before the cast first touched it. The read
or the write of a call may fail, and a failed write may have landed. Secrets,
configmaps and volumes go through one definition over their repositories. For
services, what was there is remembered only once the write has succeeded.
-/

namespace Rune.Cast

open Rune.Core
open Rune.Services
open Rune.Volumes

/-- What goes wrong inside one call. -/
inductive Fault where
  | none
  | read
  | write (landed : Bool)
  deriving DecidableEq

/-- What a read finds; a failed one is taken for a missing row. -/
def Fault.sees {α : Type} (f : Fault) (row : Option α) : Option α :=
  match f with
  | .read => Option.none
  | _ => row

/-- The rendered objects of a cast, by key. -/
structure Payloads where
  services : String → Option Service
  secrets : String → Option Secret
  configmaps : String → Option Configmap
  volumes : String → Option Volume

/-- What is fixed for the calls of one cast. -/
structure Applier where
  payloads : Payloads
  stamp : OwnedBy
  admitService : Service → Option String
  secretLimits : Limits
  configLimits : Limits
  fresh : String → Uuid

/-- The row before the cast first touched it, if any, and what the cast did to it: the generations
it wrote and whether it asked for the teardown. -/
structure PreImage where
  image : Option Row
  appliedGeneration : ℤ := 0
  appliedTemplateGeneration : ℤ := 0
  pruned : Bool := false

/-- One resource during a cast: its row and its pre-image. -/
structure Cell where
  row : Option Row
  pre : Option PreImage := none

/-- The outcome of one call on a row. -/
structure Touch where
  captured : Option (Option Row) := none
  applied : Option (ℤ × ℤ) := none
  pruned : Bool := false
  row : Option Row
  error : Option String := none

/-- The text of a store that failed. -/
def storeError : String := "store operation failed"

/-- Write the row that a call arrived at, unless it arrived at an error. -/
def commit (f : Fault) (row : Option Row) (attempt : Except String Row) :
    Option Row × Option String :=
  match attempt, f with
  | .error e, _ => (row, some e)
  | .ok new, .write landed => (if landed then some new else row, some storeError)
  | .ok new, _ => (some new, Option.none)

/-- Remove the row, where there is one of the right kind. -/
def commitDelete (found : Bool) (f : Fault) (row : Option Row) : Option Row × Option String :=
  match found, f with
  | false, _ => (row, some "resource not found")
  | true, .write landed => (if landed then Option.none else row, some storeError)
  | true, _ => (Option.none, Option.none)

/-- A create is refused where the key is taken. -/
def unlessTaken (row : Option Row) (attempt : Except String Row) : Except String Row := do
  let new ← attempt
  refuseIf (row.isSome = true) "resource already exists"
  pure new

section Via

variable {α : Type} (repo : Repo α)

/-- Apply a payload: update the row found, or create one. -/
def applyVia (stamp : OwnedBy) (payload : Option α) (what : String) (f : Fault)
    (row : Option Row) : Touch :=
  match payload with
  | none => { row := row, error := some ("no rendered payload for " ++ what) }
  | some p =>
    let p := repo.stamped p stamp
    match f.sees (row.bind repo.ofRow) with
    | some cur =>
      let written := commit f row ((repo.update p cur).map repo.toRow)
      { captured := some (some (repo.toRow cur)), row := written.1, error := written.2 }
    | none =>
      let written := commit f row (unlessTaken row ((repo.create p).map repo.toRow))
      { captured := some none, row := written.1, error := written.2 }

/-- Prune: remember the row found and delete it. -/
def pruneVia (f : Fault) (row : Option Row) : Touch :=
  let written := commitDelete (row.bind repo.ofRow).isSome f row
  { captured := some (f.sees (row.bind repo.ofRow) |>.map repo.toRow)
    row := written.1
    error := written.2 }

/-- Revert to the remembered row: delete what the cast created, otherwise write
the row back. -/
def revertVia (image : Option Row) (f : Fault) (row : Option Row) : Option Row × Option String :=
  match image with
  | none =>
    if (f.sees (row.bind repo.ofRow)).isSome then
      commitDelete (row.bind repo.ofRow).isSome f row
    else (row, none)
  | some image =>
    match repo.ofRow image with
    | none => (row, some "pre-image lost")
    | some p =>
      match f.sees (row.bind repo.ofRow) with
      | some cur => commit f row ((repo.update p cur).map repo.toRow)
      | none => commit f row (unlessTaken row ((repo.create p).map repo.toRow))

end Via

/-- The rendered service under the stamp of the cast. -/
def stampedService (stamp : OwnedBy) (s : Service) : Service :=
  { s with metadata := { s.metadata with ownedBy := some stamp } }

/-- The record that an apply writes over the stored one. -/
def appliedService (key : String) (svc stored : Service) : Except String Service := do
  refuseIf (stored.metadata.deletionTimestamp = true)
    (key ++ " is being deleted; cast again once teardown finishes")
  carryServerState stored svc

/-- The record that an apply creates. -/
def createdService (admission : Service → Option String) (fresh : Uuid) (svc : Service) :
    Except String Service :=
  let created := sanitizeServerFields fresh svc
  match admission created with
  | some e => .error e
  | none => .ok (seedMetadata created)

/-- Apply a service: one transaction on the stored record, or a create. The
transaction that fails leaves nothing behind to revert to. -/
def applyService (a : Applier) (key : String) (f : Fault) (row : Option Row) : Touch :=
  match a.payloads.services key with
  | none => { row := row, error := some ("no rendered payload for service " ++ key) }
  | some p =>
    let svc := stampedService a.stamp p
    if f = .read then { row := row, error := some storeError }
    else match row.bind Row.service? with
      | some stored =>
        match appliedService key svc stored with
        | .error e => { row := row, error := some e }
        | .ok next =>
          let written := commit f row (.ok (.service next))
          match written.2 with
          | some e => { row := written.1, error := some e }
          | none =>
            { captured := some (some (.service stored))
              applied := some (next.metadata.generation, next.metadata.templateGeneration)
              row := written.1 }
      | none =>
        let written := commit f row
          (unlessTaken row ((createdService a.admitService (a.fresh key) svc).map .service))
        { captured := some none, row := written.1, error := written.2 }

/-- Ask for the teardown of the service in the row. -/
def deleteServiceRow (f : Fault) (row : Option Row) : Option Row × Option String :=
  match row.bind Row.service? with
  | none => (row, some "service not found")
  | some s => commit f row ((deleteService s).map .service)

/-- Ask for the teardown of a service. -/
def pruneService (f : Fault) (row : Option Row) : Touch :=
  let written := deleteServiceRow f row
  { captured := some (f.sees (row.bind Row.service?) |>.map .service)
    pruned := written.2.isNone
    row := written.1
    error := written.2 }

/-- The record that a revert writes over the live one. The counters move forward
off what is live, and only a teardown of this cast is lifted. -/
def revertedService (pre cur : Service) (pruned : Bool) : Except String Service := do
  let next ← carryServerState cur pre
  let next := { next with discovery := restoreDiscovery pre.discovery (vipOf cur.discovery) }
  pure <| if pruned then
      { next with metadata := { next.metadata with deletionTimestamp := false, finalizers := [] } }
    else next

/-- The record that a revert creates in place of one that is gone. -/
def recreatedService (fresh : Uuid) (pre : Service) (pi : PreImage) : Service :=
  let next := sanitizeServerFields fresh pre
  let reached := max pre.metadata.generation pi.appliedGeneration
  let generation := if reached < maxInt64 then reached + 1 else reached
  seedMetadata { next with
    id := pre.id
    metadata := { pre.metadata with
      deletionTimestamp := false
      finalizers := []
      generation := generation
      templateGeneration :=
        if pre.metadata.templateGeneration < pi.appliedTemplateGeneration then generation
        else pre.metadata.templateGeneration } }

/-- Undo what was done to a service. -/
def revertService (fresh : Uuid) (pi : PreImage) (f : Fault) (row : Option Row) :
    Option Row × Option String :=
  match pi.image with
  | none =>
    if (f.sees (row.bind Row.service?)).isSome then deleteServiceRow f row else (row, none)
  | some image =>
    match image.service? with
    | none => (row, some "pre-image lost")
    | some pre =>
      if f = .read then (row, some storeError)
      else match row.bind Row.service? with
        | some cur => commit f row ((revertedService pre cur pi.pruned).map .service)
        | none =>
          if pi.pruned then
            commit f row (unlessTaken row (.ok (.service (recreatedService fresh pre pi))))
          else (row, none)

namespace Applier

variable (a : Applier)

/-- Apply the resource of a reference; shared kinds are never materialized. -/
def apply (ref : OwnerRef) (f : Fault) (row : Option Row) : Touch :=
  match ref.resourceType with
  | .service => applyService a ref.key f row
  | .secret =>
    applyVia (secretRepo a.secretLimits) a.stamp (a.payloads.secrets ref.key)
      ("secret " ++ ref.key) f row
  | .configmap =>
    applyVia (configmapRepo a.configLimits (a.fresh ref.key).text) a.stamp
      (a.payloads.configmaps ref.key) ("configmap " ++ ref.key) f row
  | .volume =>
    applyVia (volumeRepo (a.fresh ref.key)) a.stamp (a.payloads.volumes ref.key)
      ("volume " ++ ref.key) f row
  | _ => { row := row }

/-- Prune the resource of a reference; shared kinds are never pruned. -/
def prune (ref : OwnerRef) (f : Fault) (row : Option Row) : Touch :=
  match ref.resourceType with
  | .service => pruneService f row
  | .secret => pruneVia (secretRepo a.secretLimits) f row
  | .configmap => pruneVia (configmapRepo a.configLimits (a.fresh ref.key).text) f row
  | .volume => pruneVia (volumeRepo (a.fresh ref.key)) f row
  | _ => { row := row }

/-- Restore the resource of a reference. A resource without a pre-image was
never written. -/
def revertRow (ref : OwnerRef) (f : Fault) (c : Cell) : Option Row × Option String :=
  match c.pre with
  | none => (c.row, none)
  | some pi =>
    match ref.resourceType with
    | .service => revertService (a.fresh ref.key) pi f c.row
    | .secret => revertVia (secretRepo a.secretLimits) pi.image f c.row
    | .configmap =>
      revertVia (configmapRepo a.configLimits (a.fresh ref.key).text) pi.image f c.row
    | .volume => revertVia (volumeRepo (a.fresh ref.key)) pi.image f c.row
    | _ => (c.row, none)

end Applier

/-- The service in a remembered row was being torn down already. -/
def terminatingImage (image : Option Row) : Bool :=
  match image.bind Row.service? with
  | some s => s.metadata.deletionTimestamp
  | none => false

/-- Remember a call: the first one fixes the image, every one may add to what the
cast did. -/
def remember (pre : Option PreImage) (t : Touch) : Option PreImage :=
  (pre <|> t.captured.map fun image => ({ image := image } : PreImage)).map fun pi =>
    { pi with
      appliedGeneration := max pi.appliedGeneration ((t.applied.map Prod.fst).getD 0)
      appliedTemplateGeneration :=
        max pi.appliedTemplateGeneration ((t.applied.map Prod.snd).getD 0)
      pruned := pi.pruned || (t.pruned && !terminatingImage pi.image) }

/-- A planned change with what goes wrong in carrying it out. -/
structure Strike where
  change : PlannedChange
  fault : Fault := .none
  deriving DecidableEq

/-- The key of the row that a change is about. -/
def Strike.key (s : Strike) : String := s.change.ref.key

/-- Carry out a change: prunes delete, everything else is applied. -/
def Applier.perform (a : Applier) (s : Strike) (row : Option Row) : Touch :=
  if s.change.action = .prune then a.prune s.change.ref s.fault row
  else a.apply s.change.ref s.fault row

/-- Carry a change out and remember the row before it. -/
def Applier.performCell (a : Applier) (s : Strike) (c : Cell) : Cell :=
  let t := a.perform s c.row
  ⟨t.row, remember c.pre t⟩

/-- The error of a change. -/
def Applier.performFails (a : Applier) (s : Strike) (c : Cell) : Option String :=
  (a.perform s c.row).error

/-- Undo a change. -/
def Applier.revertCell (a : Applier) (s : Strike) (c : Cell) : Cell :=
  { c with row := (a.revertRow s.change.ref s.fault c).1 }

/-- The error of a revert. -/
def Applier.revertFails (a : Applier) (s : Strike) (c : Cell) : Option String :=
  (a.revertRow s.change.ref s.fault c).2

section Calls

variable {α : Type} {repo : Repo α} {a : Applier} {f : Fault} {row : Option Row}

/-- A write leaves the row or stores what the call arrived at. -/
theorem commit_row (f : Fault) (row : Option Row) (x : Except String Row) :
    (commit f row x).1 = row ∨ ∃ new, x = .ok new ∧ (commit f row x).1 = some new := by
  rcases x with e | new
  · exact Or.inl rfl
  · rcases f with _ | _ | landed
    · exact Or.inr ⟨new, rfl, rfl⟩
    · exact Or.inr ⟨new, rfl, rfl⟩
    · cases landed
      · exact Or.inl rfl
      · exact Or.inr ⟨new, rfl, rfl⟩

/-- A delete leaves the row or removes it. -/
theorem commitDelete_row (found : Bool) (f : Fault) (row : Option Row) :
    (commitDelete found f row).1 = row ∨ (commitDelete found f row).1 = none := by
  cases found with
  | false => exact Or.inl rfl
  | true =>
    rcases f with _ | _ | landed
    · exact Or.inr rfl
    · exact Or.inr rfl
    · cases landed
      · exact Or.inl rfl
      · exact Or.inr rfl

theorem unlessTaken_eq_ok {x : Except String Row} {new : Row}
    (h : unlessTaken row x = .ok new) : x = .ok new ∧ row = none := by
  obtain ⟨new', hx, h⟩ := bind_eq_ok h
  obtain ⟨_, htaken, h⟩ := bind_eq_ok h
  cases h
  exact ⟨hx, by simpa using refuseIf_eq_ok.mp htaken⟩

theorem appliedService_eq_ok {key : String} {svc stored next : Service}
    (h : appliedService key svc stored = .ok next) :
    stored.metadata.deletionTimestamp = false ∧ carryServerState stored svc = .ok next := by
  obtain ⟨_, hdel, h⟩ := bind_eq_ok h
  exact ⟨by simpa using refuseIf_eq_ok.mp hdel, h⟩

theorem createdService_eq_ok {admission : Service → Option String} {fresh : Uuid}
    {svc new : Service} (h : createdService admission fresh svc = .ok new) :
    seedMetadata (sanitizeServerFields fresh svc) = new := by
  simp only [createdService] at h
  split at h
  · cases h
  · exact Except.ok.inj h

end Calls

end Rune.Cast
