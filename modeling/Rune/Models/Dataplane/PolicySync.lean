import Rune.Models.Dataplane.PolicyTables
import Rune.Models.Store.Watch

/-!
# The dataplane beside the store

At its start the dataplane reads all services, takes their policies over, and only then subscribes
to the events of the store; where the reading fails it goes on without them. A write is committed
first and announced later, to whoever is subscribed by then. Handling an event can itself write: a
service without an address is stored again with the one that was found, as the event had it.
-/

namespace Rune.Dataplane

open Rune.Core Rune.Policy Rune.Services
open Rune.Store (WatchEventType WatchSub scopes)

/-- An event of the store about a service. The resource is there if it is a service record; that
of a deletion is not. -/
structure ServiceEvent where
  type : WatchEventType
  key : NamespacedName
  resource : Option Service

/-- How far the dataplane has come with its start. -/
inductive SyncPhase
  | stopped
  | listed (todo : List Service)
  | watching
  deriving DecidableEq

/-- The stored services, the events on their way and the tables. -/
structure PolicyWorld (Net : Type) where
  rows : AList fun _ : NamespacedName => Service
  /-- Events of committed writes that are still to be enqueued. -/
  announcing : List ServiceEvent := []
  /-- Events delivered to the watch that are still to be handled. -/
  queue : List ServiceEvent := []
  phase : SyncPhase := .stopped
  tables : PolicyTables Net := {}

/-- The watch of the dataplane, over the services of all namespaces. -/
def serviceWatch : WatchSub Service := { resourceType := some .service, ns := "" }

/-- How often an event is enqueued to the watch. -/
def deliveries (k : NamespacedName) : ℕ :=
  (scopes ⟨.service, k.ns, k.name⟩).count serviceWatch.key

namespace PolicyWorld

/-- What can happen. -/
inductive Action
  /-- A creation or an update is committed. -/
  | write (key : NamespacedName) (svc : Service)
  /-- A hard deletion is committed. -/
  | remove (key : NamespacedName)
  | announce (i : ℕ)
  /-- `ListAll`; the order of the rows is left open. -/
  | list (order : List Service)
  | listFails
  | reconcile (vip : Option String) (bound : Bool)
  | subscribe
  /-- Handle an event; `stored` tells whether the store takes what is written back. -/
  | handle (vip : Option String) (bound stored : Bool)

variable {Net : Type}

/-- Commit a write, or a deletion where there is no record. -/
def commit (w : PolicyWorld Net) (k : NamespacedName) (r : Option Service) : PolicyWorld Net :=
  let type := if r = none then .deleted else if w.rows.lookup k = none then .created else .updated
  { w with
    rows := match r with
      | some svc => w.rows.insert k svc
      | none => w.rows.erase k
    announcing := w.announcing ++ List.replicate (deliveries k) ⟨type, k, r⟩ }

/-- Enqueue an event, if there is a subscription. -/
def emitWatchEvent (w : PolicyWorld Net) (i : ℕ) (e : ServiceEvent) : PolicyWorld Net :=
  { w with
    announcing := w.announcing.eraseIdx i
    queue := if w.phase = .watching then w.queue ++ [e] else w.queue }

end PolicyWorld

section Step

variable {Net : Type} (parseCIDR : String → Option Net)

/-- Handle an event; one without a service record is passed over. -/
def PolicyTables.handleServiceWatchEvent (t : PolicyTables Net) (vip : Option String)
    (bound : Bool) (e : ServiceEvent) : PolicyTables Net :=
  match e.resource with
  | none => t
  | some svc =>
    if e.type = .deleted ∨ svc.status = .deleted then t.dropPolicy svc.id
    else t.reconcileOneService parseCIDR vip bound svc

/-- The record that handling the event writes back. -/
def ServiceEvent.backfill (e : ServiceEvent) (vip : Option String) : Option Service :=
  if e.type = .deleted then none else e.resource.bind (Services.backfill vip)

namespace PolicyWorld

/-- Write a record back. An update of a row that is gone fails. -/
def writeBack (w : PolicyWorld Net) (svc : Service) : PolicyWorld Net :=
  if (w.rows.lookup ⟨svc.ns, svc.name⟩).isSome then w.commit ⟨svc.ns, svc.name⟩ (some svc) else w

/-- One step, if it is possible. -/
def step (w : PolicyWorld Net) : Action → Option (PolicyWorld Net)
  | .write k svc => some (w.commit k (some svc))
  | .remove k => if (w.rows.lookup k).isSome then some (w.commit k none) else none
  | .announce i => w.announcing[i]?.map (w.emitWatchEvent i)
  | .list order =>
    if w.phase = .stopped ∧ order.Perm (w.rows.entries.map Sigma.snd) then
      some { w with phase := .listed order }
    else none
  | .listFails => if w.phase = .stopped then some { w with phase := .listed [] } else none
  | .reconcile vip bound =>
    match w.phase with
    | .listed (svc :: todo) =>
      some { w with
        phase := .listed todo
        tables := w.tables.reconcileOneService parseCIDR vip bound svc }
    | _ => none
  | .subscribe => if w.phase = .listed [] then some { w with phase := .watching } else none
  | .handle vip bound stored =>
    match w.queue with
    | [] => none
    | e :: queue =>
      let handled := { w with
        queue := queue
        tables := w.tables.handleServiceWatchEvent parseCIDR vip bound e }
      match e.backfill vip with
      | none => some handled
      | some svc => some (if stored then handled.writeBack svc else handled)

/-- The dataplane has started, every write is announced and every event handled. -/
def Settled (w : PolicyWorld Net) : Prop :=
  w.phase = .watching ∧ w.announcing = [] ∧ w.queue = []

/-- The tables hold the policies of the stored services that are not deleted, and
nothing else. -/
structure Enforced (w : PolicyWorld Net) : Prop where
  stored : ∀ k svc, w.rows.lookup k = some svc → svc.status ≠ .deleted →
    w.tables.policies.lookup svc.id = compile parseCIDR svc ∧
      w.tables.policyByName.lookup k = compile parseCIDR svc
  only_ids : ∀ id c, w.tables.policies.lookup id = some c →
    ∃ k svc, w.rows.lookup k = some svc ∧ svc.status ≠ .deleted ∧ svc.id = id
  only_names : ∀ k c, w.tables.policyByName.lookup k = some c →
    ∃ svc, w.rows.lookup k = some svc ∧ svc.status ≠ .deleted

variable (home : String → NamespacedName)

/-- A write that the dataplane can follow: not between its reading and its subscription, after the
earlier writes of the name have been announced, filed under its name, and leaving no other
service's policy behind. -/
@[mk_iff]
structure MayCommit (w : PolicyWorld Net) (k : NamespacedName) (r : Option Service) : Prop where
  noGap : w.phase = .stopped ∨ w.phase = .watching
  announced : ∀ e ∈ w.announcing, e.key ≠ k
  filed : ∀ svc ∈ r, Filed home k svc
  same : ∀ old ∈ w.rows.lookup k, ∀ s ∈ policed parseCIDR old, ∃ svc ∈ r, s.id = svc.id

instance (w : PolicyWorld Net) (k : NamespacedName) (r : Option Service) :
    Decidable (w.MayCommit parseCIDR home k r) :=
  decidable_of_iff' _ (mayCommit_iff parseCIDR home w k r)

/-- Every write can be followed, a deleted service that is read at the start has no policy, and
where the reading fails no service has one. -/
def Orderly (w : PolicyWorld Net) : Action → Prop
  | .write k svc => w.MayCommit parseCIDR home k (some svc)
  | .remove k => w.MayCommit parseCIDR home k none
  | .list order => ∀ svc ∈ order, svc.status = .deleted → compile parseCIDR svc = none
  | .listFails => ∀ row ∈ w.rows.entries, policed parseCIDR row.2 = none
  | .handle vip _ stored => stored = true → ∀ e ∈ w.queue.head?, ∀ svc ∈ e.backfill vip,
    (w.rows.lookup ⟨svc.ns, svc.name⟩).isSome →
      w.MayCommit parseCIDR home ⟨svc.ns, svc.name⟩ (some svc)
  | _ => True

instance (w : PolicyWorld Net) : (a : Action) → Decidable (w.Orderly parseCIDR home a)
  | .write _ _ | .remove _ => inferInstanceAs (Decidable (MayCommit _ _ _ _ _))
  | .list order => inferInstanceAs (Decidable (∀ svc ∈ order, _ → _))
  | .listFails => inferInstanceAs (Decidable (∀ row ∈ w.rows.entries, _))
  | .handle vip _ _ =>
    inferInstanceAs (Decidable (_ → ∀ e ∈ w.queue.head?, ∀ svc ∈ e.backfill vip, _))
  | .announce _ | .reconcile _ _ | .subscribe => inferInstanceAs (Decidable True)

end PolicyWorld

end Step

end Rune.Dataplane
