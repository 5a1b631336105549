import Rune.Models.Vip.Cooldown
import Rune.Models.Services.Writers

/-!
# What becomes of the VIP of a deleted service

Creating a service allocates its VIP, and so does everyone who resolves it. The
teardown of a service works off its finalizers and removes the record; neither it nor
the dataplane's unregistration calls `Release`, and nobody else does.
-/

namespace Rune.Vip

open Rune.Core Rune.Services

/-- The allocator with its release worker, and the stored services. -/
structure Cluster where
  vips : World
  services : List Service := []

/-- What can happen. -/
inductive ClusterAction where
  /-- A create request; `accepted` says whether it passes the checks that come after
  the allocation. -/
  | create (svc : Service) (accepted : Bool) (fault : Fault)
  /-- An update request, the dataplane or the DNS zone asks for the VIP of a stored
  service. -/
  | resolve (ns name : String) (fault : Fault)
  | delete (ns name : String)
  /-- A reconcile pass over a service being deleted; `done` says whether the work of
  its first finalizer is done. -/
  | reconcileDeletion (ns name : String) (done : Bool)
  | flush (now : ℤ)
  | proposeRelease (entry first : ℕ) (fault : Fault) (now : ℤ)
  | restart (desired : String) (routeOk : Bool) (fault : Fault)

namespace Cluster

/-- The stored service. -/
def find? (c : Cluster) (ns name : String) : Option Service :=
  c.services.find? fun s => s.ns = ns ∧ s.name = name

/-- Change the allocator. -/
def setAlloc (c : Cluster) (a : Allocator) : Cluster :=
  { c with vips := { c.vips with alloc := a } }

/-- Rewrite the record of a service. -/
def write (c : Cluster) (ns name : String) (f : Service → Service) : Cluster :=
  { c with services := c.services.map fun r => if r.ns = ns ∧ r.name = name then f r else r }

/-- Remove the record of a service. -/
def remove (c : Cluster) (ns name : String) : Cluster :=
  { c with services := c.services.filter fun r => ¬ (r.ns = ns ∧ r.name = name) }

/-- `CreateService`: the address comes first. A service that exists is updated in place
and keeps its identifier. -/
def create (c : Cluster) (svc : Service) (accepted : Bool) (fault : Fault) : Cluster :=
  match c.vips.alloc.allocate svc.id fault with
  | (a, .error _) => c.setAlloc a
  | (a, .ok ip) =>
    if accepted = false ∨ (c.find? svc.ns svc.name).isSome then c.setAlloc a
    else { c.setAlloc a with services := c.services ++
      [{ svc with discovery := some { svc.discovery.getD {} with vip := ipString ip } }] }

/-- `reconcileDeletion`: the first finalizer, or the removal of the record. -/
def reconcileDeletion (c : Cluster) (s : Service) (done : Bool) : Cluster :=
  match s.metadata.finalizers with
  | [] => c.remove s.ns s.name
  | head :: _ => if done then c.write s.ns s.name (popFinalizer head) else c

/-- One step, if it is possible. A restart loses the queue and the worker's list. -/
def step (c : Cluster) : ClusterAction → Option Cluster
  | .create svc accepted fault => some (c.create svc accepted fault)
  | .resolve ns name fault =>
    (c.find? ns name).map fun s => c.setAlloc (c.vips.alloc.allocate s.id fault).1
  | .delete ns name =>
    (c.find? ns name).map fun _ => c.write ns name fun s => (deleteService s).toOption.getD s
  | .reconcileDeletion ns name done =>
    (c.find? ns name).bind fun s =>
      if s.metadata.deletionTimestamp then some (c.reconcileDeletion s done) else none
  | .flush now => (c.vips.step (.flush now)).map fun w => { c with vips := w }
  | .proposeRelease entry first fault now =>
    (c.vips.step (.proposeRelease entry first fault now)).map fun w => { c with vips := w }
  | .restart desired routeOk fault =>
    some { c with vips := { alloc :=
      ({ c.vips.alloc with mirror := {} }.bootstrap desired routeOk fault).1 } }

/-- The addresses in the record. -/
def lookup (c : Cluster) (id : String) : Option String :=
  c.vips.alloc.persisted.allocatedVIPs.lookup id

/-- The service outlives the action: a request that gets an address stores its service,
and no record is removed. -/
def Lasting (c : Cluster) : ClusterAction → Prop
  | .create svc accepted fault =>
    (c.vips.alloc.allocate svc.id fault).2.toBool = true →
      accepted = true ∧ c.find? svc.ns svc.name = none
  | .reconcileDeletion ns name _ => ∀ s ∈ c.find? ns name, s.metadata.finalizers ≠ []
  | _ => True

instance Lasting.decidable (c : Cluster) : (a : ClusterAction) → Decidable (c.Lasting a)
  | .create _ _ _ => inferInstanceAs (Decidable (_ → _))
  | .reconcileDeletion _ _ _ => inferInstanceAs (Decidable (∀ s ∈ _, _))
  | .resolve _ _ _ | .delete _ _ | .flush _ | .proposeRelease _ _ _ _ | .restart _ _ _ =>
    isTrue trivial

end Cluster

namespace Allocator

variable {a : Allocator} {op : Op} {first : ℕ} {fault : Fault}

/-- A proposal leaves the record alone, or it writes and mirrors it. -/
theorem persisted_propose (a : Allocator) (op : Op) (first : ℕ) (fault : Fault) :
    (a.propose op first fault).1.persisted = a.persisted ∨
      Writes a.persisted op (a.propose op first fault).1.persisted ∧
        (a.propose op first fault).2 = .ok () ∧
        (a.propose op first fault).1.mirror = (a.propose op first fault).1.persisted := by
  cases hf : fault.late with
  | true =>
    left
    cases fault with
    | none | refused | save => cases hf
    | encode | commit => cases happly : op.apply a.persisted first <;> simp [propose, happly]
  | false =>
    rcases a.propose_cases op first hf with ⟨he, -⟩ | ⟨r, happly, hok, he⟩
    · exact .inl (by rw [he])
    · rw [hok, he]
      cases hs : r.saved with
      | none => exact .inl rfl
      | some cn =>
        exact .inr ⟨writes_of_apply happly hs, rfl, by rw [mirror_of_saved happly hs]; rfl⟩

/-- `Allocate` gives at most its own service an address, and then it returns one. -/
theorem lookup_allocate (a : Allocator) (s : String) (fault : Fault) (t : String) :
    (a.allocate s fault).1.persisted.allocatedVIPs.lookup t =
        a.persisted.allocatedVIPs.lookup t ∨
      t = s ∧ a.persisted.allocatedVIPs.lookup s = none ∧
        (a.allocate s fault).2.toBool = true := by
  unfold allocate
  split_ifs
  · exact .inl rfl
  · cases hl : a.mirror.allocatedVIPs.lookup s with
    | some existing => exact .inl rfl
    | none =>
      have hp := persisted_propose a (.allocate s) 0 fault
      rcases hres : a.propose (.allocate s) 0 fault with ⟨a', err | _⟩
      · rw [hres] at hp
        rcases hp with he | ⟨-, hok, -⟩
        · exact .inl (by rw [← he])
        · cases hok
      · rw [hres] at hp
        rcases hp with he | ⟨hw, -, hm⟩
        · left
          rw [← he]
          dsimp only
          split <;> rfl
        · dsimp only at hw hm ⊢
          rw [hm]
          obtain ⟨cn, hcn⟩ : ∃ cn, a'.persisted = cn := ⟨_, rfl⟩
          rw [hcn] at hw ⊢
          cases hw with
          | allocate _ ip rest hcidr hnew hpick =>
            rw [lookup_insert_ite, if_pos rfl]
            by_cases ht : t = s
            · exact .inr ⟨ht, hnew, rfl⟩
            · left
              rw [hcn]
              rw [lookup_insert_ite, if_neg ht]

end Allocator

namespace Cluster

variable {c c' : Cluster}

/-- Every allocated address belongs to a stored service. -/
def Backed (c : Cluster) : Prop := ∀ id ip, c.lookup id = some ip → ∃ s ∈ c.services, s.id = id

/-- Services keep their identifiers, and the record gains no entry. -/
theorem Backed.of_subset (h : c.Backed)
    (hl : ∀ id ip, c'.lookup id = some ip → c.lookup id = some ip)
    (hs : ∀ s ∈ c.services, ∃ s' ∈ c'.services, s'.id = s.id) : c'.Backed := by
  intro id ip hip
  obtain ⟨s, hmem, rfl⟩ := h id ip (hl id ip hip)
  exact hs s hmem

/-- A write of a record. -/
theorem Backed.write (h : c.Backed) (ns name : String) {f : Service → Service}
    (hf : ∀ s, (f s).id = s.id) : (c.write ns name f).Backed := by
  refine h.of_subset (fun _ _ hip => hip) fun s hs => ?_
  refine ⟨if s.ns = ns ∧ s.name = name then f s else s, List.mem_map_of_mem hs, ?_⟩
  split
  · exact hf s
  · rfl

theorem id_deleteService (s : Service) : ((deleteService s).toOption.getD s).id = s.id := by
  unfold deleteService
  split_ifs <;> rfl

theorem id_popFinalizer (head : FinalizerType) (s : Service) : (popFinalizer head s).id = s.id := by
  unfold popFinalizer
  split_ifs <;> rfl

variable {id ip : String}

/-- Only an allocation adds to the record. -/
theorem lookup_of_writes {cur cn : ClusterNetwork} {op : Op} (hw : Writes cur op cn)
    (hop : ∀ s, op ≠ .allocate s) (h : cn.allocatedVIPs.lookup id = some ip) :
    cur.allocatedVIPs.lookup id = some ip := by
  cases hw with
  | bootstrap cidr hcidr => cases h
  | allocate s => exact absurd rfl (hop s)
  | release vip owner hne howner =>
    rw [lookup_erase_ite] at h
    split_ifs at h with he
    exact h

variable {fault : Fault}

theorem lookup_of_propose {a : Allocator} {op : Op} {first : ℕ} (hop : ∀ s, op ≠ .allocate s)
    (h : (a.propose op first fault).1.persisted.allocatedVIPs.lookup id = some ip) :
    a.persisted.allocatedVIPs.lookup id = some ip := by
  rcases a.persisted_propose op first fault with he | ⟨hw, -, -⟩
  · rwa [he] at h
  · exact lookup_of_writes hw hop h

/-- `Bootstrap` writes the record only through its proposal. -/
theorem persisted_bootstrap (a : Allocator) (desired : String) (routeOk : Bool) (fault : Fault) :
    (a.bootstrap desired routeOk fault).1.persisted = a.persisted ∨
      (a.bootstrap desired routeOk fault).1.persisted =
        (a.propose (.bootstrap desired) 0 fault).1.persisted := by
  fun_cases a.bootstrap desired routeOk fault <;> try exact .inl rfl
  all_goals
    rename_i hp
    exact .inr (by rw [hp])

theorem lookup_of_bootstrap {a : Allocator} {desired : String} {routeOk : Bool}
    (h : (a.bootstrap desired routeOk fault).1.persisted.allocatedVIPs.lookup id = some ip) :
    a.persisted.allocatedVIPs.lookup id = some ip := by
  rcases persisted_bootstrap a desired routeOk fault with he | he
  · rwa [he] at h
  · rw [he] at h
    exact lookup_of_propose (by simp) h

/-- The worker takes at most one address away. -/
theorem lookup_of_proposeRelease {w w' : World} {entry first : ℕ} {now : ℤ}
    (ht : w.step (.proposeRelease entry first fault now) = some w')
    (h : w'.alloc.persisted.allocatedVIPs.lookup id = some ip) :
    w.alloc.persisted.allocatedVIPs.lookup id = some ip := by
  simp only [World.step] at ht
  cases hj : w.ready[entry]? with
  | none => simp [hj] at ht
  | some vip =>
    have hkeep : ∀ a, (w.alloc.propose (.release vip) first fault).1 = a →
        a.persisted.allocatedVIPs.lookup id = some ip →
        w.alloc.persisted.allocatedVIPs.lookup id = some ip := by
      rintro a rfl hip
      exact lookup_of_propose (by simp) hip
    rw [hj] at ht
    rcases hp : w.alloc.propose (.release vip) first fault with ⟨a, err | _⟩
    · simp only [hp] at ht
      cases ht
      exact hkeep a (by rw [hp]) h
    · simp only [hp] at ht
      cases ht
      exact hkeep a (by rw [hp]) h

/-- A create request that every service outlives. -/
theorem Backed.create (h : c.Backed) {svc : Service} {accepted : Bool}
    (hl : c.Lasting (.create svc accepted fault)) : (c.create svc accepted fault).Backed := by
  have hlookup := c.vips.alloc.lookup_allocate svc.id fault
  simp only [Cluster.Lasting] at hl
  unfold Cluster.create
  rcases hp : c.vips.alloc.allocate svc.id fault with ⟨a, err | ip⟩
  · rw [hp] at hlookup
    intro id vip hvip
    rcases hlookup id with he | ⟨-, -, hok⟩
    · exact h id vip (he.symm.trans hvip)
    · cases hok
  · rw [hp] at hlookup hl
    obtain ⟨haccepted, hnone⟩ := hl rfl
    dsimp only
    rw [if_neg (by simp [haccepted, hnone])]
    intro id vip hvip
    rcases hlookup id with he | ⟨rfl, -, -⟩
    · obtain ⟨s, hs, hid⟩ := h id vip (he.symm.trans hvip)
      exact ⟨s, List.mem_append_left _ hs, hid⟩
    · exact ⟨_, List.mem_append_right _ List.mem_cons_self, rfl⟩

/-- One action that every service outlives. -/
theorem Backed.step (h : c.Backed) {a : ClusterAction} (hl : c.Lasting a)
    (ht : c.step a = some c') : c'.Backed := by
  cases a with
  | create svc accepted fault =>
    cases ht
    exact h.create hl
  | resolve ns name fault =>
    simp only [Cluster.step, Option.map_eq_some_iff] at ht
    obtain ⟨s, hs, rfl⟩ := ht
    intro id ip hip
    rcases c.vips.alloc.lookup_allocate s.id fault id with he | ⟨rfl, -⟩
    · exact h id ip (he.symm.trans hip)
    · exact ⟨s, List.mem_of_find?_eq_some hs, rfl⟩
  | delete ns name =>
    simp only [Cluster.step, Option.map_eq_some_iff] at ht
    obtain ⟨s, -, rfl⟩ := ht
    exact h.write ns name id_deleteService
  | reconcileDeletion ns name done =>
    simp only [Cluster.step, Option.bind_eq_some_iff] at ht
    obtain ⟨s, hs, ht⟩ := ht
    split_ifs at ht
    cases ht
    unfold Cluster.reconcileDeletion
    cases hfin : s.metadata.finalizers with
    | nil => exact absurd hfin (hl s hs)
    | cons head rest =>
      split_ifs
      · exact h.write s.ns s.name (id_popFinalizer head)
      · exact h
  | flush now =>
    simp only [Cluster.step, Option.map_eq_some_iff] at ht
    obtain ⟨w, hw, rfl⟩ := ht
    simp only [World.step] at hw
    split_ifs at hw
    cases hw
    exact h
  | proposeRelease entry first fault now =>
    simp only [Cluster.step, Option.map_eq_some_iff] at ht
    obtain ⟨w, hw, rfl⟩ := ht
    exact h.of_subset (fun _ _ hip => lookup_of_proposeRelease hw hip) fun s hs => ⟨s, hs, rfl⟩
  | restart desired routeOk fault =>
    cases ht
    exact h.of_subset (fun id ip hip => lookup_of_bootstrap
      (a := { c.vips.alloc with mirror := {} }) hip) fun s hs => ⟨s, hs, rfl⟩

/-- As long as no record is removed and every request that gets an address stores its
service, there are no more allocated addresses than services. -/
theorem vip_entries_le_services {acts : List ClusterAction}
    (hlasting : Along step Lasting { vips := { alloc := {} } } acts)
    (h : exec step { vips := { alloc := {} } } acts = some c) :
    c.vips.alloc.persisted.allocatedVIPs.entries.length ≤ c.services.length := by
  have hbacked : c.Backed := exec_invariant_along (fun _ _ _ h hl ht => h.step hl ht)
    (fun id ip hip => by cases hip) hlasting h
  have hkeys := c.vips.alloc.persisted.allocatedVIPs.nodupKeys
  have hsub : c.vips.alloc.persisted.allocatedVIPs.keys ⊆ c.services.map Service.id := by
    intro id hid
    obtain ⟨ip, hip⟩ := Option.isSome_iff_exists.mp (AList.lookup_isSome.mpr hid)
    obtain ⟨s, hs, rfl⟩ := hbacked id ip hip
    exact List.mem_map_of_mem hs
  have hle := (List.subperm_of_subset hkeys hsub).length_le
  simpa [AList.keys, List.keys] using hle

/-- A service as a create request brings it. -/
def webService : Service := { id := "id-1", ns := "default", name := "web" }

/-- Two services are created and one of them is being deleted: the work of its first finalizer is
done, the cooldown passes and the process starts anew. -/
def deletionUnderWay : List ClusterAction :=
  [.restart "10.0.0.0/29" true .none, .create webService true .none,
    .create { webService with id := "id-2", name := "db" } true .none,
    .resolve "default" "db" .none, .delete "default" "db",
    .reconcileDeletion "default" "db" true, .flush releaseCooldown,
    .restart "10.0.0.0/29" true .none]

/-- A deletion under way. -/
theorem vip_entries_le_services_web :
    ∃ c, exec step { vips := { alloc := {} } } deletionUnderWay = some c ∧
      c.services.length = 2 ∧
      c.vips.alloc.persisted.allocatedVIPs.entries.length ≤ c.services.length := by
  have hlasting : Along step Lasting { vips := { alloc := {} } } deletionUnderWay := by
    decide +kernel
  obtain ⟨c, hc, htwo⟩ : ∃ c, exec step { vips := { alloc := {} } } deletionUnderWay = some c ∧
      c.services.length = 2 := ⟨_, rfl, by decide +kernel⟩
  exact ⟨c, hc, htwo, vip_entries_le_services hlasting hc⟩

/-- In a network with one usable address the only service is created and deleted, the cooldown
passes and the process starts anew. The next service does not get an address. -/
theorem vip_leaked_by_deletion :
    ∃ c, exec step { vips := { alloc := {} } } [.restart "10.0.0.0/30" true .none,
        .create webService true .none, .delete "default" "web",
        .reconcileDeletion "default" "web" true, .reconcileDeletion "default" "web" true,
        .flush releaseCooldown, .restart "10.0.0.0/30" true .none] = some c ∧
      c.services = [] ∧ c.vips.alloc.persisted.allocatedVIPs.entries.length = 1 ∧
      (c.vips.alloc.allocate "id-2" .none).2 =
        .error (.propose (.applier .cidrExhausted)) := by
  refine ⟨_, rfl, ?_, ?_, ?_⟩ <;> decide +kernel

end Cluster

end Rune.Vip
