import Rune.Core.Run
import Rune.Models.Cast.Plan

/-!
# Casts of one release

A cast is prepared, which plans it and records its intent, and is then executed step
by step: the applies, the verification, the prunes and the final record. Any step
may fail, a failed step may have landed, and the process may crash between any two
steps. With `Atomic` a failure reverts what was touched. Other releases may adopt
resources, and resources may be removed, at any time.
-/

namespace Rune.Cast

/-- A live resource: its stamp, and whether the release of this development
created it and no other release has adopted it since. -/
structure Resource where
  ownedBy : Option OwnedBy
  mine : Bool

/-- The live resources, by key. -/
abbrev Cluster := String → Option Resource

/-- The rendered description of a release, as far as casting it reads it. -/
structure ReleaseSpec where
  name : String
  ns : String
  resources : List OwnerRef
  adopt : Bool
  detach : Bool
  atomic : Bool

/-- Why a cast was not prepared. -/
inductive CastError where
  | record (text : String)
  | lookup (text : String)
  | denied (text : String)
  | conflicts
  | detachWouldPrune
  | notSaved (text : String)

/-- The text of an error. -/
def CastError.text : CastError → String
  | record text | lookup text | denied text | notSaved text => text
  | conflicts =>
    "release plan has unresolved conflicts; pass --adopt or resolve ownership"
  | detachWouldPrune => "--detach is not allowed for a plan that prunes resources"

/-- How the read of the previous record goes. A store error that the adapter
does not tell from an absent record makes the record look absent. -/
inductive RecordRead where
  | stored
  | takenForAbsent
  | failed (text : String)

/-- What a cast meets while it is prepared. -/
structure Surroundings where
  read : RecordRead
  lookupError : OwnerRef → Option String
  admission : Plan → Option String
  saveError : Option String

/-- What a prepared cast is about to do next. -/
inductive Phase where
  | applying (todo prunes : List PlannedChange)
  | pruning (todo : List PlannedChange)
  | reverting (todo : List PlannedChange) (clean : Bool)
  | failing

/-- A prepared cast on its way: the changes begun so far, and the state of every
touched resource before it was first touched. -/
structure Execution where
  spec : ReleaseSpec
  rel : Release
  prev : Option Release
  begun : List PlannedChange
  pre : List (String × Option Resource)
  phase : Phase

/-- The lookup over the live resources. -/
def lookupIn (live : Cluster) (lookupError : OwnerRef → Option String) : LiveLookup := fun ref =>
  match lookupError ref with
  | some e => .error e
  | none =>
    match live ref.key with
    | none => .ok ⟨false, none⟩
    | some r => .ok ⟨true, r.ownedBy⟩

/-- The record of the previous revision as the cast reads it. -/
def readRecord (read : RecordRead) (record : Option Release) : Except CastError (Option Release) :=
  match read with
  | .stored => .ok record
  | .takenForAbsent => .ok none
  | .failed e => .error (.record e)

/-- The pending record of a planned cast. -/
def pendingRelease (spec : ReleaseSpec) (prev : Option Release) (p : Plan) : Release where
  id := (prev.map Release.id).getD ""
  name := spec.name
  ns := spec.ns
  status := .pending
  revision := (prev.map fun r => r.revision + 1).getD 1
  owns := (partitionOwnership p).1
  references := (partitionOwnership p).2

/-- The error a callee reported, if any, as an error of the cast. -/
def passOn (wrap : String → CastError) : Option String → Except CastError Unit
  | none => .ok ()
  | some e => .error (wrap e)

/-- Plan a cast and validate the plan. The returned cast is the one whose
pending record is saved; where there is an error, nothing is. -/
def prepare (spec : ReleaseSpec) (env : Surroundings) (record : Option Release) (live : Cluster) :
    Except CastError Execution := do
  let prev ← readRecord env.read record
  let p ← (buildPlan spec.name spec.ns spec.resources prev (lookupIn live env.lookupError)
    spec.adopt).mapError CastError.lookup
  passOn .denied (env.admission p)
  Core.refuseIf (p.applyable = false) .conflicts
  Core.refuseIf (spec.detach = true ∧ p.hasPrune = true) .detachWouldPrune
  passOn .notSaved env.saveError
  let todo := splitForExecution p
  pure ⟨spec, pendingRelease spec prev p, prev, [], [], .applying todo.1 todo.2⟩

/-- How one call of the applier goes; a failed one may have landed. -/
inductive Outcome where
  | ok
  | failed (landed : Bool)
  deriving DecidableEq

/-- The call has had its effect. -/
def Outcome.lands : Outcome → Bool
  | ok => true
  | failed landed => landed

/-- The stamp of the cast. -/
def Execution.stamp (e : Execution) : OwnedBy := ⟨e.spec.name, e.rel.revision, "runeset"⟩

/-- An apply that lands makes its resource live under the cast's stamp;
references are never materialized. -/
def Execution.land (e : Execution) (live : Cluster) (c : PlannedChange) : Cluster :=
  if c.action = .reference then live
  else Function.update live c.ref.key
    (some ⟨some e.stamp, ((live c.ref.key).map Resource.mine).getD true⟩)

/-- Record the state of a resource before it is first touched. -/
def Execution.capture (e : Execution) (live : Cluster) (c : PlannedChange) : Execution :=
  { e with
    begun := e.begun ++ [c]
    pre :=
      if c.ref.key ∈ e.pre.map Prod.fst then e.pre
      else e.pre ++ [(c.ref.key, live c.ref.key)] }

/-- The failure path: with `Atomic`, everything begun is reverted, last first. -/
def Execution.fail (e : Execution) : Execution :=
  if e.spec.atomic then
    { e with phase := .reverting (e.begun.reverse.filter fun c => c.action ≠ .reference) true }
  else { e with phase := .failing }

/-- Continue in the given phase, or on the failure path. -/
def Execution.proceed (e : Execution) (phase : Phase) : Outcome → Execution
  | .ok => { e with phase := phase }
  | .failed _ => e.fail

/-- The next apply. -/
def Execution.applyNext (e : Execution) (o : Outcome) (live : Cluster) :
    Option (Cluster × Execution) :=
  match e.phase with
  | .applying (c :: todo) prunes =>
    some (if o.lands then e.land live c else live,
      (e.capture live c).proceed (.applying todo prunes) o)
  | _ => none

/-- The verification, once everything is applied. -/
def Execution.verify (e : Execution) (o : Outcome) : Option Execution :=
  match e.phase with
  | .applying [] prunes => some (e.proceed (.pruning prunes) o)
  | _ => none

/-- The next prune. -/
def Execution.pruneNext (e : Execution) (o : Outcome) (live : Cluster) :
    Option (Cluster × Execution) :=
  match e.phase with
  | .pruning (c :: todo) =>
    some (if o.lands then Function.update live c.ref.key none else live,
      (e.capture live c).proceed (.pruning todo) o)
  | _ => none

/-- The next revert: the resource gets back the state it had before the cast. -/
def Execution.revertNext (e : Execution) (o : Outcome) (live : Cluster) :
    Option (Cluster × Execution) :=
  match e.phase with
  | .reverting (c :: todo) clean =>
    let restored := match e.pre.lookup c.ref.key with
      | some before => Function.update live c.ref.key before
      | none => live
    some (if o.lands then restored else live,
      { e with phase := .reverting todo (clean && o = .ok) })
  | _ => none

/-- The record that ends the cast, once there is nothing left to do. A clean
rollback restores the owned set of the previous revision. -/
def Execution.final (e : Execution) : Option Release :=
  match e.phase with
  | .pruning [] => some { e.rel with status := .deployed }
  | .failing => some { e.rel with status := .failed }
  | .reverting [] true => some
      { e.rel with
        status := .failed
        owns := ownsOf e.prev
        references := (e.prev.map Release.references).getD [] }
  | .reverting [] false => some { e.rel with status := .failed }
  | _ => none

/-- One release: its identity, the live resources, its record and the cast in
progress. -/
structure World where
  name : String
  ns : String
  live : Cluster
  record : Option Release
  running : Option Execution

/-- The steps of a run. -/
inductive Step where
  | prepare (spec : ReleaseSpec) (env : Surroundings)
  | apply (o : Outcome)
  | verify (o : Outcome)
  | prune (o : Outcome)
  | revert (o : Outcome)
  | save (ok : Bool)
  | crash
  | adopted (key : String) (stamp : OwnedBy)
  | removed (key : String)

/-- The cast in progress acts on the live resources. -/
def World.act (w : World) (f : Execution → Cluster → Option (Cluster × Execution)) :
    Option World :=
  match w.running with
  | none => none
  | some e => (f e w.live).map fun r => { w with live := r.1, running := some r.2 }

/-- One step of a run. Casts follow each other; the record is written when a
cast is prepared and when it ends. -/
def World.step (w : World) : Step → Option World
  | .prepare spec env =>
    if w.running.isSome ∨ spec.name ≠ w.name ∨ spec.ns ≠ w.ns then none
    else match prepare spec env w.record w.live with
      | .error _ => some w
      | .ok e => some { w with record := some e.rel, running := some e }
  | .apply o => w.act fun e live => e.applyNext o live
  | .verify o => w.act fun e live => (e.verify o).map fun e' => (live, e')
  | .prune o => w.act fun e live => e.pruneNext o live
  | .revert o => w.act fun e live => e.revertNext o live
  | .save ok =>
    match w.running.bind Execution.final with
    | none => none
    | some rel => some { w with record := if ok then some rel else w.record, running := none }
  | .crash => some { w with running := none }
  | .adopted key stamp =>
    match w.live key with
    | none => none
    | some _ =>
      if stamp.release = w.name then none
      else some { w with live := Function.update w.live key (some ⟨some stamp, false⟩) }
  | .removed key => some { w with live := Function.update w.live key none }

/-- The steps of a run with their guards, one constructor for each outcome. -/
inductive Moves (w : World) : Step → World → Prop where
  | refused {spec : ReleaseSpec} {env : Surroundings} : Moves w (.prepare spec env) w
  | prepared {spec : ReleaseSpec} {env : Surroundings} {e : Execution} (hrun : w.running = none)
      (hname : spec.name = w.name) (hns : spec.ns = w.ns)
      (hp : prepare spec env w.record w.live = .ok e) :
      Moves w (.prepare spec env) { w with record := some e.rel, running := some e }
  | applied {o : Outcome} {e : Execution} {c : PlannedChange} {todo prunes : List PlannedChange}
      (he : w.running = some e) (hphase : e.phase = .applying (c :: todo) prunes) :
      Moves w (.apply o)
        { w with
          live := if o.lands then e.land w.live c else w.live
          running := some ((e.capture w.live c).proceed (.applying todo prunes) o) }
  | verified {o : Outcome} {e : Execution} {prunes : List PlannedChange}
      (he : w.running = some e) (hphase : e.phase = .applying [] prunes) :
      Moves w (.verify o) { w with running := some (e.proceed (.pruning prunes) o) }
  | pruned {o : Outcome} {e : Execution} {c : PlannedChange} {todo : List PlannedChange}
      (he : w.running = some e) (hphase : e.phase = .pruning (c :: todo)) :
      Moves w (.prune o)
        { w with
          live := if o.lands then Function.update w.live c.ref.key none else w.live
          running := some ((e.capture w.live c).proceed (.pruning todo) o) }
  | reverted {o : Outcome} {e e' : Execution} {live : Cluster} {c : PlannedChange}
      {todo : List PlannedChange} {clean : Bool} (he : w.running = some e)
      (hphase : e.phase = .reverting (c :: todo) clean)
      (hr : e.revertNext o w.live = some (live, e')) :
      Moves w (.revert o) { w with live := live, running := some e' }
  | saved {ok : Bool} {e : Execution} {rel : Release} (he : w.running = some e)
      (hf : e.final = some rel) :
      Moves w (.save ok) { w with record := if ok then some rel else w.record, running := none }
  | crashed : Moves w .crash { w with running := none }
  | adopted {key : String} {stamp : OwnedBy} (hother : stamp.release ≠ w.name) :
      Moves w (.adopted key stamp)
        { w with live := Function.update w.live key (some ⟨some stamp, false⟩) }
  | removed {key : String} :
      Moves w (.removed key) { w with live := Function.update w.live key none }

namespace World

variable {w w' : World}

theorem act_eq_some {f : Execution → Cluster → Option (Cluster × Execution)}
    (h : w.act f = some w') :
    ∃ e r, w.running = some e ∧ f e w.live = some r ∧
      w' = { w with live := r.1, running := some r.2 } := by
  unfold act at h
  rcases he : w.running with _ | e
  · simp [he] at h
  · rw [he] at h
    obtain ⟨r, hr, rfl⟩ := Option.map_eq_some_iff.mp h
    exact ⟨e, r, rfl, hr, rfl⟩

/-- Every step is one of the moves. -/
theorem step_moves {a : Step} (h : w.step a = some w') : Moves w a w' := by
  revert h
  fun_cases w.step a <;> intro h <;> try cases h
  · exact .refused
  · rename_i hbusy e hprepare
    push Not at hbusy
    obtain ⟨hidle, hname, hns⟩ := hbusy
    exact .prepared (by simpa using hidle) hname hns hprepare
  · obtain ⟨e, ⟨live', e'⟩, he, hf, rfl⟩ := act_eq_some h
    unfold Execution.applyNext at hf
    split at hf <;> cases hf
    exact .applied he ‹_›
  · obtain ⟨e, ⟨live', e'⟩, he, hf, rfl⟩ := act_eq_some h
    obtain ⟨e₁, hverify, heq⟩ := Option.map_eq_some_iff.mp hf
    cases heq
    unfold Execution.verify at hverify
    split at hverify <;> cases hverify
    exact .verified he ‹_›
  · obtain ⟨e, ⟨live', e'⟩, he, hf, rfl⟩ := act_eq_some h
    unfold Execution.pruneNext at hf
    split at hf <;> cases hf
    exact .pruned he ‹_›
  · obtain ⟨e, ⟨live', e'⟩, he, hf, rfl⟩ := act_eq_some h
    have hr := hf
    unfold Execution.revertNext at hf
    split at hf
    · exact .reverted he ‹_› hr
    · cases hf
  · rename_i rel hfinal
    obtain ⟨e, he, hf⟩ := Option.bind_eq_some_iff.mp hfinal
    exact .saved he hf
  · exact .crashed
  · exact .adopted ‹_›
  · exact .removed

end World

end Rune.Cast
