import Rune.Core.Overlay
import Rune.Models.Policy.Compile
import Rune.Models.Services.Writers

/-!
# The policy tables of a node

The dataplane keeps each compiled policy under the ID of its service and again under its namespace
and name, and remembers which name an ID last had. The tables are meant to give for every name the
service whose policy holds there. They do as long as an ID belongs to one name and a name does not
change hands between two services with policies: the code never looks at the other service.
-/

namespace Rune.Dataplane

open Rune.Core Rune.Policy Rune.Services

/-- The name of a service. -/
structure NamespacedName where
  ns : String
  name : String
  deriving DecidableEq

/-- What rules need to know about a destination. -/
structure ServiceMeta where
  ident : NamespacedName
  portNames : AList fun _ : ℤ => List String

/-- What is remembered about a service. -/
def metaOf (svc : Service) : ServiceMeta :=
  { ident := ⟨svc.ns, nameOf svc⟩, portNames := portNames svc.spec.ports }

/-- The policies by ID and by name, and what is known about each ID. -/
structure PolicyTables (Net : Type) where
  policies : AList fun _ : String => Compiled Net := ∅
  policyByName : AList fun _ : NamespacedName => Compiled Net := ∅
  svcMeta : AList fun _ : String => ServiceMeta := ∅

/-- Give a service the address that was resolved for it. There is none where the resolver
is missing or fails. -/
def enrichServiceVIP (vip : Option String) (svc : Service) : Option Service :=
  if vipOf svc.discovery ≠ "" then some svc
  else vip.map fun vip => { svc with discovery := some { svc.discovery.getD {} with vip := vip } }

namespace PolicyTables

variable {Net : Type}

/-- Drop what the tables hold for a service that goes away. -/
def dropPolicy (t : PolicyTables Net) (id : String) : PolicyTables Net :=
  match t.svcMeta.lookup id with
  | some m =>
    { policies := t.policies.erase id
      policyByName := t.policyByName.erase m.ident
      svcMeta := t.svcMeta.erase id }
  | none => { t with policies := t.policies.erase id }

/-- Free the name that a service had before. -/
def freeOldName (t : PolicyTables Net) (id : String) (ident : NamespacedName) :
    PolicyTables Net :=
  match t.svcMeta.lookup id with
  | some prev =>
    if prev.ident ≠ ident then { t with policyByName := t.policyByName.erase prev.ident } else t
  | none => t

variable (parseCIDR : String → Option Net)

/-- Replace or drop the policy of a service. -/
def syncPolicy (t : PolicyTables Net) (svc : Service) : PolicyTables Net :=
  if svc.id = "" then t
  else
    let m := metaOf svc
    let t := t.freeOldName svc.id m.ident
    match compile parseCIDR svc with
    | none =>
      { policies := t.policies.erase svc.id
        policyByName := t.policyByName.erase m.ident
        svcMeta := t.svcMeta.insert svc.id m }
    | some c =>
      { policies := t.policies.insert svc.id c
        policyByName := t.policyByName.insert m.ident c
        svcMeta := t.svcMeta.insert svc.id m }

/-- The policy goes first, since everything after it can fail. `bound` says that the address could
be put on the loopback interface; registering then syncs the policy once more. -/
def reconcileOneService (t : PolicyTables Net) (vip : Option String) (bound : Bool)
    (svc : Service) : PolicyTables Net :=
  if svc.id = "" then t
  else
    let t := t.syncPolicy parseCIDR svc
    if svc.spec.ports = [] then t
    else match enrichServiceVIP vip svc with
      | none => t
      | some svc => if bound then t.syncPolicy parseCIDR svc else t

end PolicyTables

/-- The service whose policy holds under each name. -/
abbrev Registry := NamespacedName → Option Service

/-- The record is stored under its own name, and the name is the one that its ID belongs
to. -/
@[mk_iff] structure Filed (home : String → NamespacedName) (k : NamespacedName) (svc : Service) :
    Prop where
  id_ne : svc.id ≠ ""
  name_ne : svc.name ≠ ""
  key_eq : k = ⟨svc.ns, svc.name⟩
  home_eq : home svc.id = k

instance (home : String → NamespacedName) (k : NamespacedName) (svc : Service) :
    Decidable (Filed home k svc) :=
  decidable_of_iff' _ (filed_iff home k svc)

section Refinement

variable {Net : Type} (parseCIDR : String → Option Net) (home : String → NamespacedName)

/-- The tables hold the policies of the registered services and no others. -/
structure PolicyTables.Holds (t : PolicyTables Net) (o : Registry) : Prop where
  filed : ∀ k svc, o k = some svc → Filed home k svc
  policies : ∀ id, t.policies.lookup id =
    (o (home id)).bind fun svc => if svc.id = id then compile parseCIDR svc else none
  byName : ∀ k, t.policyByName.lookup k = (o k).bind (compile parseCIDR)
  home_of_meta : ∀ id m, t.svcMeta.lookup id = some m → m.ident = home id
  known : ∀ k svc, o k = some svc → (t.svcMeta.lookup svc.id).isSome

variable {parseCIDR home} {t : PolicyTables Net} {o : Registry} {k : NamespacedName}
  {svc : Service}

namespace Filed

theorem ident_eq (h : Filed home k svc) : (metaOf svc).ident = k := by
  simp [metaOf, nameOf, h.name_ne, h.key_eq]

theorem discovery (h : Filed home k svc) (d : Option ServiceDiscovery) :
    Filed home k { svc with discovery := d } :=
  ⟨h.id_ne, h.name_ne, h.key_eq, h.home_eq⟩

end Filed

/-- Finding an address changes nothing else. -/
theorem enrichServiceVIP_spec {vip : Option String} {found : Service}
    (h : enrichServiceVIP vip svc = some found) : ∃ d, found = { svc with discovery := d } := by
  unfold enrichServiceVIP at h
  split at h
  · obtain rfl : svc = found := by simpa using h
    exact ⟨svc.discovery, rfl⟩
  · obtain ⟨address, -, rfl⟩ := Option.map_eq_some_iff.mp h
    exact ⟨_, rfl⟩

/-- The service whose policy holds for a stored record. -/
def policed (parseCIDR : String → Option Net) (svc : Service) : Option Service :=
  if svc.status = .deleted ∨ compile parseCIDR svc = none then none else some svc

/-- The services with a policy. -/
theorem policed_eq_some {s : Service} :
    policed parseCIDR svc = some s ↔
      s = svc ∧ svc.status ≠ .deleted ∧ compile parseCIDR svc ≠ none := by
  unfold policed
  split
  · tauto
  · rename_i h
    rw [not_or] at h
    simp [h, eq_comm]

theorem policed_of_deleted (h : svc.status = .deleted) : policed parseCIDR svc = none :=
  if_pos (Or.inl h)

namespace PolicyTables

/-- Where the tables start. -/
theorem holds_empty : Holds parseCIDR home ({} : PolicyTables Net) fun _ => none where
  filed _ _ h := nomatch h
  policies _ := AList.lookup_empty _
  byName _ := AList.lookup_empty _
  home_of_meta id m h := by simp [AList.lookup_empty] at h
  known _ _ h := nomatch h

/-- Tables that differ only in what they hold for one name. -/
theorem Holds.update {t' : PolicyTables Net} {new : Option Service}
    (h : t.Holds parseCIDR home o)
    (hnew : ∀ s ∈ new, Filed home k s ∧ (t'.svcMeta.lookup s.id).isSome)
    (hpolicies : ∀ id, t'.policies.lookup id =
      if home id = k then new.bind fun s => if s.id = id then compile parseCIDR s else none
      else t.policies.lookup id)
    (hbyName : ∀ k', t'.policyByName.lookup k' =
      if k' = k then new.bind (compile parseCIDR) else t.policyByName.lookup k')
    (hmeta : ∀ id, t'.svcMeta.lookup id = t.svcMeta.lookup id ∨
      home id = k ∧ ∀ m ∈ t'.svcMeta.lookup id, m.ident = k) :
    t'.Holds parseCIDR home (Function.update o k new) := by
  refine ⟨fun k' s hs => ?_, fun id => ?_, fun k' => ?_, fun id m hm => ?_, fun k' s hs => ?_⟩
  · by_cases hk : k' = k
    · subst hk
      exact (hnew s (by simpa using hs)).1
    · exact h.filed k' s (by simpa [hk] using hs)
  · rw [hpolicies, h.policies]
    by_cases hk : home id = k
    · simp [hk]
    · simp [hk]
  · rw [hbyName, h.byName]
    by_cases hk : k' = k
    · simp [hk]
    · simp [hk]
  · rcases hmeta id with hsame | ⟨hhome, hident⟩
    · exact h.home_of_meta id m (hsame ▸ hm)
    · rw [hident m hm, hhome]
  · by_cases hk : k' = k
    · subst hk
      exact (hnew s (by simpa using hs)).2
    · have ho : o k' = some s := by simpa [hk] using hs
      have hhome : home s.id ≠ k := (h.filed k' s ho).home_eq ▸ hk
      rw [(hmeta s.id).resolve_right fun hother => hhome hother.1]
      exact h.known k' s ho

/-- An ID that is not registered under its name has no policy. -/
theorem Holds.lookup_other {id : String} (h : t.Holds parseCIDR home o) (hhome : home id = k)
    (hid : ∀ s ∈ o k, s.id ≠ id) : t.policies.lookup id = none := by
  rw [h.policies, hhome]
  cases ho : o k with
  | none => rfl
  | some s => simp [hid s ho]

/-- A service whose ID keeps its name frees no other. -/
theorem Holds.freeOldName_eq (h : t.Holds parseCIDR home o) (hf : Filed home k svc) :
    t.freeOldName svc.id k = t := by
  unfold freeOldName
  split
  · rename_i prev hprev
    have hsame : prev.ident = k := by rw [h.home_of_meta _ _ hprev, hf.home_eq]
    simp [hsame]
  · rfl

/-- What the tables hold after a sync. -/
theorem Holds.lookup_syncPolicy (h : t.Holds parseCIDR home o) (hf : Filed home k svc) :
    (∀ id, (t.syncPolicy parseCIDR svc).policies.lookup id =
      if id = svc.id then compile parseCIDR svc else t.policies.lookup id) ∧
    (∀ k', (t.syncPolicy parseCIDR svc).policyByName.lookup k' =
      if k' = k then compile parseCIDR svc else t.policyByName.lookup k') ∧
    ∀ id, (t.syncPolicy parseCIDR svc).svcMeta.lookup id =
      if id = svc.id then some (metaOf svc) else t.svcMeta.lookup id := by
  simp only [syncPolicy, if_neg hf.id_ne, hf.ident_eq, h.freeOldName_eq hf]
  cases compile parseCIDR svc with
  | none =>
    exact ⟨fun _ => lookup_erase_ite _ _ _, fun _ => lookup_erase_ite _ _ _,
      fun _ => lookup_insert_ite _ _ _ _⟩
  | some c =>
    exact ⟨fun _ => lookup_insert_ite _ _ _ _, fun _ => lookup_insert_ite _ _ _ _,
      fun _ => lookup_insert_ite _ _ _ _⟩

/-- A sync registers the service under its name, if the name is free or the service's
own. -/
theorem Holds.syncPolicy (h : t.Holds parseCIDR home o) (hf : Filed home k svc)
    (hid : ∀ s ∈ o k, s.id = svc.id) :
    (t.syncPolicy parseCIDR svc).Holds parseCIDR home (Function.update o k (some svc)) := by
  obtain ⟨hpolicies, hbyName, hmeta⟩ := h.lookup_syncPolicy hf
  refine h.update (fun s hs => ?_) (fun id => ?_) hbyName fun id => ?_
  · cases hs
    exact ⟨hf, by simp [hmeta]⟩
  · rw [hpolicies]
    by_cases heq : id = svc.id
    · simp [heq, hf.home_eq]
    · by_cases hk : home id = k
      · rw [if_neg heq, h.lookup_other hk fun s hs => hid s hs ▸ Ne.symm heq]
        simp [Ne.symm heq]
      · rw [if_neg heq, if_neg hk]
  · rw [hmeta]
    by_cases heq : id = svc.id
    · exact Or.inr ⟨heq ▸ hf.home_eq, by simp [heq, hf.ident_eq]⟩
    · exact Or.inl (if_neg heq)

/-- What is registered under a name may be replaced by what has the same policy. -/
theorem Holds.replace {old new : Option Service}
    (h : t.Holds parseCIDR home (Function.update o k old))
    (hnew : ∀ s ∈ new, Filed home k s ∧ ∃ s' ∈ old, s'.id = s.id)
    (hpolicy : ∀ id, (old.bind fun s => if s.id = id then compile parseCIDR s else none) =
      new.bind fun s => if s.id = id then compile parseCIDR s else none)
    (hname : old.bind (compile parseCIDR) = new.bind (compile parseCIDR)) :
    t.Holds parseCIDR home (Function.update o k new) := by
  have htwice : Function.update (Function.update o k old) k new = Function.update o k new :=
    Function.update_idem ..
  rw [← htwice]
  refine h.update (fun s hs => ?_) (fun id => ?_) (fun k' => ?_) fun id => Or.inl rfl
  · obtain ⟨hf, s', hs', hid⟩ := hnew s hs
    exact ⟨hf, hid ▸ h.known k s' (by simpa using hs')⟩
  · split
    · rename_i hk
      rw [h.policies, hk, Function.update_self, hpolicy]
    · rfl
  · split
    · rename_i hk
      rw [h.byName, hk, Function.update_self, hname]
    · rfl

/-- Reconciling a record registers the service under its name, whatever becomes of its
address. -/
theorem Holds.reconcileOneService (h : t.Holds parseCIDR home o) (hf : Filed home k svc)
    (hid : ∀ s ∈ o k, s.id = svc.id) (vip : Option String) (bound : Bool) :
    (t.reconcileOneService parseCIDR vip bound svc).Holds parseCIDR home
      (Function.update o k (some svc)) := by
  have hsync := h.syncPolicy hf hid
  unfold PolicyTables.reconcileOneService
  rw [if_neg hf.id_ne]
  split
  · exact hsync
  · split
    · exact hsync
    · rename_i found hfound
      split
      · obtain ⟨d, rfl⟩ : ∃ d, found = { svc with discovery := d } := enrichServiceVIP_spec hfound
        have hagain := hsync.syncPolicy (hf.discovery d) (by simp)
        rw [Function.update_idem] at hagain
        exact hagain.replace (by simpa using hf) (by simp [compile_discovery])
          (by simp [compile_discovery])
      · exact hsync

/-- Reconciling a record registers what has a policy, if a deleted record has none. -/
theorem Holds.reconcileOneService_policed (h : t.Holds parseCIDR home o)
    (hf : Filed home k svc) (hid : ∀ s ∈ o k, s.id = svc.id)
    (hdeleted : svc.status = .deleted → compile parseCIDR svc = none) (vip : Option String)
    (bound : Bool) :
    (t.reconcileOneService parseCIDR vip bound svc).Holds parseCIDR home
      (Function.update o k (policed parseCIDR svc)) := by
  have hsome := h.reconcileOneService hf hid vip bound
  unfold policed
  split
  · rename_i hskip
    have hnone : compile parseCIDR svc = none := hskip.elim hdeleted fun hnone => hnone
    exact hsome.replace (by simp) (by simp [hnone]) (by simp [hnone])
  · exact hsome

/-- An ID that is not known has nothing registered under its name. -/
theorem Holds.free_of_unknown {id : String} (h : t.Holds parseCIDR home o)
    (hid : ∀ s ∈ o k, s.id = id) (hunknown : t.svcMeta.lookup id = none) : o k = none := by
  cases ho : o k with
  | none => rfl
  | some s =>
    have hknown := h.known k s ho
    rw [hid s ho, hunknown] at hknown
    cases hknown

/-- What the tables hold after a drop. -/
theorem Holds.lookup_dropPolicy {id : String} (h : t.Holds parseCIDR home o)
    (hhome : home id = k) (hid : ∀ s ∈ o k, s.id = id) :
    (∀ id', (t.dropPolicy id).policies.lookup id' =
      if id' = id then none else t.policies.lookup id') ∧
    (∀ k', (t.dropPolicy id).policyByName.lookup k' =
      if k' = k then none else t.policyByName.lookup k') ∧
    ∀ id', (t.dropPolicy id).svcMeta.lookup id' =
      if id' = id then none else t.svcMeta.lookup id' := by
  cases hm : t.svcMeta.lookup id with
  | some m =>
    have hident : m.ident = k := (h.home_of_meta id m hm).trans hhome
    simp only [PolicyTables.dropPolicy, hm, hident]
    exact ⟨fun _ => lookup_erase_ite _ _ _, fun _ => lookup_erase_ite _ _ _,
      fun _ => lookup_erase_ite _ _ _⟩
  | none =>
    simp only [PolicyTables.dropPolicy, hm]
    refine ⟨fun _ => lookup_erase_ite _ _ _, fun k' => ?_, fun id' => ?_⟩
    · split
      · rename_i hk
        rw [hk, h.byName, h.free_of_unknown hid hm]
        rfl
      · rfl
    · split
      · rename_i heq
        rw [heq, hm]
      · rfl

/-- A drop frees the name of the service. -/
theorem Holds.dropPolicy {id : String} (h : t.Holds parseCIDR home o) (hhome : home id = k)
    (hid : ∀ s ∈ o k, s.id = id) :
    (t.dropPolicy id).Holds parseCIDR home (Function.update o k none) := by
  obtain ⟨hpolicies, hbyName, hmeta⟩ := h.lookup_dropPolicy hhome hid
  refine h.update (by simp) (fun id' => ?_) hbyName fun id' => ?_
  · rw [hpolicies]
    by_cases heq : id' = id
    · simp [heq, hhome]
    · by_cases hk : home id' = k
      · rw [if_neg heq, if_pos hk, h.lookup_other hk fun s hs => hid s hs ▸ Ne.symm heq]
        rfl
      · rw [if_neg heq, if_neg hk]
  · rw [hmeta]
    by_cases heq : id' = id
    · exact Or.inr ⟨heq ▸ hhome, by simp [heq]⟩
    · exact Or.inl (if_neg heq)

end PolicyTables

end Refinement

end Rune.Dataplane
