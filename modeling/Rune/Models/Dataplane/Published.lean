import Mathlib.Data.Countable.Basic
import Mathlib.Logic.Equiv.List
import Rune.Core.BigEndian
import Rune.Core.Guard
import Rune.Models.Dataplane.LocalInstances
import Rune.Models.Services.Spec

/-!
# What is published on the log

Endpoint sets and local-instance records are published as operations of the ordered log.
An operation replaces or removes the value of one key, and the mutation of its event
says the same once more for the watchers. The content of the keys is at every sequence
number the replay of the operations before it.
-/

namespace Rune.Dataplane

open Rune.Core Rune.Services

/-- An endpoint of a service. -/
structure Endpoint where
  instanceID : String
  ip : String
  port : ℤ
  protocol : String
  metadata : Entries
  healthy : Bool
  deriving DecidableEq

/-- The endpoints of a service, as they are published. -/
structure ServiceEndpoints where
  serviceID : String
  endpoints : List Endpoint

/-- An encoding that reads back what it has written. Other bytes may be refused. -/
structure Json (α : Type) where
  marshal : α → Bytes
  unmarshal : Bytes → Option α
  unmarshal_marshal : ∀ x, unmarshal (marshal x) = some x

attribute [simp] Json.unmarshal_marshal

/-- The encodings of the two kinds of payload. -/
structure Codec where
  endpoints : Json ServiceEndpoints
  localInstances : Json LocalInstances

/-- A value is set or removed. -/
inductive MutationKind
  | put
  | delete
  deriving DecidableEq

/-- What the value is of. -/
inductive ResourceKind
  | endpoints
  | localInstances
  deriving DecidableEq

/-- A change of one value. -/
structure Mutation where
  kind : MutationKind
  resourceType : ResourceKind
  name : String
  payload : Bytes := []

/-- An operation of the log. -/
inductive Op
  | updateEndpoints (serviceID : String) (endpoints : List Endpoint)
  | deleteEndpoints (serviceID : String)
  | updateLocalInstances (nodeID : String) (instances : Idents)
  | deleteLocalInstances (nodeID : String)

/-- The values by name. -/
abbrev Values := AList fun _ : String => Bytes

/-- The values of the keys `endpoints/<serviceID>` and `local_instances/<nodeID>`, each
under its ID. -/
structure Keys where
  endpoints : Values := ∅
  localInstances : Values := ∅

/-- Set the value of a key that must have an ID, and say so. -/
def applyUpdate (resourceType : ResourceKind) (required id : String) (payload : Bytes)
    (vs : Values) : Except String (Values × List Mutation) := do
  refuseIf (id = "") required
  pure (vs.insert id payload, [⟨.put, resourceType, id, payload⟩])

/-- Remove a value; the name must be given. -/
def applyDelete (resourceType : ResourceKind) (required id : String) (vs : Values) :
    Except String (Values × List Mutation) := do
  refuseIf (id = "") required
  pure (vs.erase id, [{ kind := .delete, resourceType, name := id }])

/-- The refusal of an endpoint operation without an ID. -/
def errServiceIDRequired : String := "endpoints: service ID required"

/-- The refusal of an instance operation without a node. -/
def errNodeIDRequired : String := "localinstances: node ID required"

/-- Apply an operation to the content of the keys. -/
def Op.apply (c : Codec) (k : Keys) : Op → Except String (Keys × List Mutation)
  | .updateEndpoints id eps =>
    (applyUpdate .endpoints errServiceIDRequired id (c.endpoints.marshal ⟨id, eps⟩)
      k.endpoints).map fun (vs, ms) => ({ k with endpoints := vs }, ms)
  | .deleteEndpoints id =>
    (applyDelete .endpoints errServiceIDRequired id k.endpoints).map fun (vs, ms) =>
      ({ k with endpoints := vs }, ms)
  | .updateLocalInstances id instances =>
    (applyUpdate .localInstances errNodeIDRequired id (c.localInstances.marshal ⟨id, instances⟩)
      k.localInstances).map fun (vs, ms) => ({ k with localInstances := vs }, ms)
  | .deleteLocalInstances id =>
    (applyDelete .localInstances errNodeIDRequired id k.localInstances).map fun (vs, ms) =>
      ({ k with localInstances := vs }, ms)

/-- The endpoint list that is stored for a service. -/
def Keys.endpointsOf (c : Codec) (k : Keys) (serviceID : String) : Option (List Endpoint) :=
  (k.endpoints.lookup serviceID).bind fun v =>
    (c.endpoints.unmarshal v).map ServiceEndpoints.endpoints

/-- The addresses that are stored for a node. -/
def Keys.instancesOf (c : Codec) (k : Keys) (nodeID : String) : Option Idents :=
  (k.localInstances.lookup nodeID).bind fun v =>
    (c.localInstances.unmarshal v).map LocalInstances.instances

/-- Every value names the ID it is stored under, which is not empty. -/
structure Keys.Owned (c : Codec) (k : Keys) : Prop where
  endpoints : ∀ id, ∀ v ∈ k.endpoints.lookup id,
    id ≠ "" ∧ ∃ eps, c.endpoints.unmarshal v = some ⟨id, eps⟩
  localInstances : ∀ id, ∀ v ∈ k.localInstances.lookup id,
    id ≠ "" ∧ ∃ instances, c.localInstances.unmarshal v = some ⟨id, instances⟩

section Appliers

variable {c : Codec} {k k' : Keys} {op : Op} {ms : List Mutation} {resourceType : ResourceKind}
  {required id : String} {payload : Bytes} {vs vs' : Values}

theorem applyUpdate_eq_ok (h : applyUpdate resourceType required id payload vs = .ok (vs', ms)) :
    id ≠ "" ∧ vs' = vs.insert id payload ∧ ms = [⟨.put, resourceType, id, payload⟩] := by
  obtain ⟨u, hcheck, hrest⟩ := bind_eq_ok h
  obtain ⟨rfl, rfl⟩ := Prod.mk.inj (Except.ok.inj hrest)
  exact ⟨refuseIf_eq_ok.mp hcheck, rfl, rfl⟩

theorem applyDelete_eq_ok (h : applyDelete resourceType required id vs = .ok (vs', ms)) :
    id ≠ "" ∧ vs' = vs.erase id ∧ ms = [⟨.delete, resourceType, id, []⟩] := by
  obtain ⟨u, hcheck, hrest⟩ := bind_eq_ok h
  obtain ⟨rfl, rfl⟩ := Prod.mk.inj (Except.ok.inj hrest)
  exact ⟨refuseIf_eq_ok.mp hcheck, rfl, rfl⟩

/-- An applied operation sets or removes the value of one key and reports just that. -/
theorem Op.apply_cases (h : op.apply c k = .ok (k', ms)) :
    (∃ id eps, id ≠ "" ∧
      k' = { k with endpoints := k.endpoints.insert id (c.endpoints.marshal ⟨id, eps⟩) } ∧
      ms = [⟨.put, .endpoints, id, c.endpoints.marshal ⟨id, eps⟩⟩]) ∨
    (∃ id, id ≠ "" ∧ k' = { k with endpoints := k.endpoints.erase id } ∧
      ms = [⟨.delete, .endpoints, id, []⟩]) ∨
    (∃ id instances, id ≠ "" ∧
      k' = { k with localInstances :=
        k.localInstances.insert id (c.localInstances.marshal ⟨id, instances⟩) } ∧
      ms = [⟨.put, .localInstances, id, c.localInstances.marshal ⟨id, instances⟩⟩]) ∨
    ∃ id, id ≠ "" ∧ k' = { k with localInstances := k.localInstances.erase id } ∧
      ms = [⟨.delete, .localInstances, id, []⟩] := by
  cases op <;> obtain ⟨⟨vs, ms'⟩, hop, hk⟩ := map_eq_ok h <;> obtain ⟨rfl, rfl⟩ := Prod.mk.inj hk
  case updateEndpoints id eps =>
    obtain ⟨hid, rfl, rfl⟩ := applyUpdate_eq_ok hop
    exact .inl ⟨id, eps, hid, rfl, rfl⟩
  case deleteEndpoints id =>
    obtain ⟨hid, rfl, rfl⟩ := applyDelete_eq_ok hop
    exact .inr (.inl ⟨id, hid, rfl, rfl⟩)
  case updateLocalInstances id instances =>
    obtain ⟨hid, rfl, rfl⟩ := applyUpdate_eq_ok hop
    exact .inr (.inr (.inl ⟨id, instances, hid, rfl, rfl⟩))
  case deleteLocalInstances id =>
    obtain ⟨hid, rfl, rfl⟩ := applyDelete_eq_ok hop
    exact .inr (.inr (.inr ⟨id, hid, rfl, rfl⟩))

/-- What holds of the values of all keys holds after one has been set. -/
theorem forall_lookup_insert {p : String → Bytes → Prop} (hp : p id payload)
    (h : ∀ i, ∀ v ∈ vs.lookup i, p i v) : ∀ i, ∀ v ∈ (vs.insert id payload).lookup i, p i v := by
  intro i v hv
  rw [lookup_insert_ite] at hv
  split at hv
  · cases hv
    subst_vars
    exact hp
  · exact h i v hv

theorem forall_lookup_erase {p : String → Bytes → Prop} (h : ∀ i, ∀ v ∈ vs.lookup i, p i v) :
    ∀ i, ∀ v ∈ (vs.erase id).lookup i, p i v := by
  intro i v hv
  rw [lookup_erase_ite] at hv
  split at hv
  · cases hv
  · exact h i v hv

/-- Every operation keeps the values under their IDs. -/
theorem Keys.Owned.apply (ho : k.Owned c) (h : op.apply c k = .ok (k', ms)) : k'.Owned c := by
  rcases Op.apply_cases h with ⟨id, eps, hid, rfl, _⟩ | ⟨id, hid, rfl, _⟩ |
    ⟨id, instances, hid, rfl, _⟩ | ⟨id, hid, rfl, _⟩
  · exact ⟨forall_lookup_insert ⟨hid, eps, c.endpoints.unmarshal_marshal _⟩ ho.endpoints,
      ho.localInstances⟩
  · exact ⟨forall_lookup_erase ho.endpoints, ho.localInstances⟩
  · exact ⟨ho.endpoints, forall_lookup_insert
      ⟨hid, instances, c.localInstances.unmarshal_marshal _⟩ ho.localInstances⟩
  · exact ⟨ho.endpoints, forall_lookup_erase ho.localInstances⟩

end Appliers

instance countableString : Countable String :=
  Function.Injective.countable (f := fun s : String => s.toList.map Char.toNat) fun _ _ h =>
    String.toList_injective
      (List.map_injective_iff.mpr (fun _ _ hc => Char.ext (UInt32.toNat_inj.mp hc)) h)

instance : Countable ServiceEndpoints :=
  Function.Injective.countable
    (f := fun se => (se.serviceID, se.endpoints.map fun e =>
      (e.instanceID, e.ip, e.port, e.protocol, e.metadata, e.healthy)))
    fun ⟨_, _⟩ ⟨_, _⟩ h => by
      obtain ⟨rfl, h⟩ := Prod.mk.inj h
      congr
      refine List.map_injective_iff.mpr (fun e e' he => ?_) h
      obtain ⟨⟩ := e
      obtain ⟨⟩ := e'
      simpa using he

instance : Countable LocalInstances :=
  Function.Injective.countable
    (f := fun li => (li.nodeID, li.instances.entries.map fun e =>
      (e.1, e.2.instanceID, e.2.service, e.2.ns)))
    fun ⟨_, _⟩ ⟨_, _⟩ h => by
      obtain ⟨rfl, h⟩ := Prod.mk.inj h
      congr
      refine AList.ext (List.map_injective_iff.mpr (fun e e' he => ?_) h)
      obtain ⟨i, ⟨⟩⟩ := e
      obtain ⟨i', ⟨⟩⟩ := e'
      simpa using he

/-- Whatever can be counted can be encoded. -/
theorem nonempty_json (α : Type) [Countable α] : Nonempty (Json α) := by
  obtain ⟨f, hf⟩ := exists_injective_nat α
  classical
  refine ⟨⟨fun x => List.replicate (f x) 0, fun bs =>
    if h : ∃ x, f x = bs.length then some h.choose else none, fun x => ?_⟩⟩
  have hx : ∃ y, f y = (List.replicate (f x) (0 : UInt8)).length := ⟨x, by simp⟩
  rw [dif_pos hx]
  refine congrArg some (hf ?_)
  rw [hx.choose_spec, List.length_replicate]

theorem nonempty_codec : Nonempty Codec := by
  obtain ⟨endpoints⟩ := nonempty_json ServiceEndpoints
  obtain ⟨localInstances⟩ := nonempty_json LocalInstances
  exact ⟨⟨endpoints, localInstances⟩⟩

end Rune.Dataplane
