import Rune.Core.Delimited
import Rune.Models.Dataplane.Published
import Rune.Models.Rollout.Instance
import Rune.Models.Services.Record

/-!
# Publishing the endpoints of a service

A call of `republishService` lists the instances, builds an endpoint for every running instance of
the service that has an address, and publishes the set if its signature is not the one recorded
last; the signature is recorded afterwards. The signature is a text; it determines the set as long
as no separator occurs in what it is made of.
-/

namespace Rune.Endpoints

open Rune.Core Rune.Services Rune.Dataplane
open Rune.Rollout (InstanceStatus Time)

/-- A stored instance, with what the publishing and the teardowns read. -/
structure Instance extends Rune.Rollout.Instance where
  serviceName : String
  containerIP : String := ""
  ip : String := ""
  containerEverCreated : Bool := true
  deriving DecidableEq

namespace Endpoint

/-- What the signature keeps of an endpoint. -/
structure Face where
  instanceID : String
  ip : String
  port : ℤ
  protocol : String
  healthy : Bool
  deriving DecidableEq

/-- What a change is told by. -/
def face (ep : Dataplane.Endpoint) : Face :=
  ⟨ep.instanceID, ep.ip, ep.port, ep.protocol, ep.healthy⟩

/-- The endpoint as a part of the signature. -/
def Face.text (f : Face) : String :=
  joinWith '|' [f.instanceID, f.ip, f.port.repr, f.protocol, if f.healthy then "true" else "false"]

/-- No separator occurs in the texts of the endpoint. -/
def Face.Plain (f : Face) : Prop :=
  ∀ s ∈ [f.instanceID, f.ip, f.protocol], Avoids '|' s ∧ Avoids ',' s

instance (f : Face) : Decidable f.Plain :=
  inferInstanceAs (Decidable (∀ s ∈ _, _))

theorem Face.Plain.fields {f : Face} (h : f.Plain) {c : Char} (hc : c = '|' ∨ c = ',') :
    ∀ s ∈ [f.instanceID, f.ip, f.port.repr, f.protocol, if f.healthy then "true" else "false"],
      Avoids c s := by
  have hmem : ∀ s ∈ [f.instanceID, f.ip, f.protocol], Avoids c s := by
    intro s hs
    rcases hc with rfl | rfl
    · exact (h s hs).1
    · exact (h s hs).2
  have hport : Avoids c f.port.repr := by
    rcases hc with rfl | rfl
    · exact avoids_intRepr rfl (by decide) f.port
    · exact avoids_intRepr rfl (by decide) f.port
  have hhealthy : Avoids c (if f.healthy then "true" else "false") := by
    rcases hc with rfl | rfl <;> cases f.healthy <;> decide
  simp only [List.forall_mem_cons] at hmem ⊢
  exact ⟨hmem.1, hmem.2.1, hport, hmem.2.2.1, hhealthy, by simp⟩

/-- A text determines its endpoint. -/
theorem Face.text_inj {f g : Face} (hf : f.Plain) (hg : g.Plain) (h : f.text = g.text) :
    f = g := by
  have hfields := joinWith_inj (hf.fields (Or.inl rfl)) (hg.fields (Or.inl rfl)) (by simp)
    (by simp) h
  obtain ⟨id, ip, port, protocol, healthy⟩ := f
  obtain ⟨id', ip', port', protocol', healthy'⟩ := g
  simp only [List.cons.injEq, and_true] at hfields
  obtain ⟨rfl, rfl, hport, rfl, hhealthy⟩ := hfields
  obtain rfl := intRepr_injective hport
  have hsame : healthy = healthy' := by
    cases healthy <;> cases healthy' <;> simp_all
  rw [hsame]

theorem Face.Plain.text {f : Face} (h : f.Plain) : Avoids ',' f.text ∧ f.text ≠ "" := by
  refine ⟨avoids_joinWith (by decide) (h.fields (Or.inr rfl)), fun hempty => ?_⟩
  have hlist := congrArg String.toList hempty
  rw [Face.text, toList_joinWith] at hlist
  simp [List.intercalate] at hlist

end Endpoint

open Endpoint (face Face)

/-- The text that stands for a set of endpoints, whatever its order. -/
def endpointsSignature (eps : List Dataplane.Endpoint) : String :=
  joinWith ',' ((eps.map fun ep => (face ep).text).insertionSort (· ≤ ·))

/-- No separator occurs in the texts of the endpoints. -/
def Plain (eps : List Dataplane.Endpoint) : Prop := ∀ ep ∈ eps, (face ep).Plain

instance (eps : List Dataplane.Endpoint) : Decidable (Plain eps) :=
  inferInstanceAs (Decidable (∀ ep ∈ eps, _))

/-- Without separators the signature determines the endpoints up to their order. -/
theorem perm_of_endpointsSignature {eps eps' : List Dataplane.Endpoint} (h : Plain eps)
    (h' : Plain eps') (hsig : endpointsSignature eps = endpointsSignature eps') :
    (eps.map face).Perm (eps'.map face) := by
  have htexts : ∀ {xs : List Dataplane.Endpoint}, Plain xs →
      ∀ s ∈ (xs.map fun ep => (face ep).text).insertionSort (· ≤ ·), Avoids ',' s ∧ s ≠ "" := by
    intro xs hxs s hs
    obtain ⟨ep, hep, rfl⟩ := List.mem_map.mp ((List.mem_insertionSort _).mp hs)
    exact (hxs ep hep).text
  have hsorted := joinWith_inj_of_ne (htexts h) (htexts h') hsig
  have hperm : (eps.map fun ep => (face ep).text).Perm (eps'.map fun ep => (face ep).text) :=
    (List.perm_insertionSort (· ≤ ·) _).symm.trans
      (hsorted ▸ List.perm_insertionSort (· ≤ ·) _)
  refine perm_of_perm_map (f := Face.text) (s := {f | f.Plain})
    (fun f hf g hg => Face.text_inj hf hg) ?_ ?_ ?_
  · simpa [Plain] using h
  · simpa [Plain] using h'
  · rw [List.map_map, List.map_map]
    exact hperm

/-- What the goroutines share: the service row, the instances of its namespace, the addresses that
the runner knows, the published endpoints and the recorded signature. -/
structure Shared where
  service : Service
  nodeID : String
  instances : List Instance
  runnerIP : Instance → String
  endpoints : List Dataplane.Endpoint
  lastPublished : Option String := none

/-- Change the stored record of an instance; `none` skips the write. -/
def updateFunc (id : String) (mutate : Instance → Option Instance) (rows : List Instance) :
    List Instance :=
  rows.map fun row => if row.id = id then (mutate row).getD row else row

/-- The port that the endpoints carry: the target of the first one. -/
def primaryPort : List ServicePort → ℤ
  | [] => 0
  | p :: _ => if p.targetPort ≠ 0 then p.targetPort else p.port

/-- The protocol of the first port. -/
def primaryProto : List ServicePort → String
  | [] => "TCP"
  | p :: _ => if p.protocol ≠ "" then p.protocol else "TCP"

namespace Shared

/-- The address to publish; the runner is asked only if none is stored. -/
def instanceEndpointIP (s : Shared) (inst : Instance) : String :=
  if inst.containerIP ≠ "" then inst.containerIP else s.runnerIP inst

/-- Store the address of an instance, if it is new. -/
def persistInstanceIP (s : Shared) (inst : Instance) (ip : String) : Shared :=
  { s with
    instances := updateFunc inst.id
      (fun fresh =>
        if fresh.containerIP = ip ∧ fresh.ip = ip then none
        else some { fresh with containerIP := ip, ip := ip }) s.instances }

/-- The endpoint of an instance, if it is a running one of the service with an address. -/
def endpointOf (s : Shared) (ports : List ServicePort) (inst : Instance) :
    Option Dataplane.Endpoint :=
  if inst.serviceName ≠ s.service.name ∨ inst.status ≠ .running ∨ s.instanceEndpointIP inst = ""
  then none
  else some
    { instanceID := inst.id
      ip := s.instanceEndpointIP inst
      port := primaryPort ports
      protocol := primaryProto ports
      metadata := if s.nodeID ≠ "" then [("node_id", s.nodeID)] else []
      healthy := inst.isReady }

/-- A service without an ID has nothing published for it. -/
def publishService (s : Shared) (eps : List Dataplane.Endpoint) : Shared :=
  if s.service.id = "" then s else { s with endpoints := eps }

end Shared

/-- How far a call has come, with the ports of the service copy that it was given. -/
inductive Republish
  | list (ports : List ServicePort)
  | building (ports : List ServicePort) (todo : List Instance) (eps : List Dataplane.Endpoint)
  | comparing (eps : List Dataplane.Endpoint)
  | publishing (eps : List Dataplane.Endpoint)
  | recording (eps : List Dataplane.Endpoint)
  deriving DecidableEq

/-- The next read or write of the call; `none` is its end. -/
def Republish.step (s : Shared) : Republish → Shared × Option Republish
  | .list ports => (s, some (.building ports s.instances []))
  | .building _ [] eps => (s, some (.comparing eps))
  | .building ports (inst :: todo) eps =>
    match s.endpointOf ports inst with
    | none => (s, some (.building ports todo eps))
    | some ep => (s.persistInstanceIP inst ep.ip, some (.building ports todo (eps ++ [ep])))
  | .comparing eps =>
    if s.lastPublished = some (endpointsSignature eps) then (s, none)
    else (s, some (.publishing eps))
  | .publishing eps => (s.publishService eps, some (.recording eps))
  | .recording eps => ({ s with lastPublished := some (endpointsSignature eps) }, none)

end Rune.Endpoints
