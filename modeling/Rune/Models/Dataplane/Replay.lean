import Rune.Models.Dataplane.Published

/-!
# The tables of a node are a replay of the log

A node fills its endpoint cache and its table of local instances from a snapshot, applies the
events that follow, and after a compaction fills them from a new snapshot. Filling removes
nothing. So the tables are the content of the log at the node's position exactly as long as no
record that they hold has lost its key by the time of a snapshot.
-/

namespace Rune.Dataplane

open Rune.Core List

/-- What a node makes of the log. -/
structure Tables where
  cache : AList fun _ : String => List Endpoint := ∅
  localInstances : LocalInstancesTable

/-- A record that a range over the snapshot visits; with a record of a node, the order in
which the table is rebuilt. -/
inductive Found
  | endpoints (value : Bytes)
  | localInstances (value : Bytes) (order : Visits)

namespace Tables

/-- Set the record in its table. A malformed one is skipped. -/
def hydrateOne (c : Codec) (t : Tables) : Found → Option Tables
  | .endpoints value =>
    match c.endpoints.unmarshal value with
    | none => some t
    | some se => some { t with cache := t.cache.insert se.serviceID se.endpoints }
  | .localInstances value order =>
    match c.localInstances.unmarshal value with
    | none => some t
    | some li => (t.localInstances.step (.apply li, order)).map fun l =>
        { t with localInstances := l }

/-- Bring the cache up to date. -/
def applyEndpointsMutation (c : Codec) (t : Tables) (m : Mutation) : Tables :=
  match m.kind with
  | .delete => { t with cache := t.cache.erase m.name }
  | .put =>
    match c.endpoints.unmarshal m.payload with
    | none => t
    | some se => { t with cache := t.cache.insert se.serviceID se.endpoints }

/-- Bring the table of instances up to date. -/
def applyLocalInstancesMutation (c : Codec) (t : Tables) (m : Mutation) (order : Visits) :
    Option Tables :=
  match m.kind with
  | .delete => (t.localInstances.step (.remove m.name, order)).map fun l =>
      { t with localInstances := l }
  | .put =>
    match c.localInstances.unmarshal m.payload with
    | none => some t
    | some li => (t.localInstances.step (.apply li, order)).map fun l =>
        { t with localInstances := l }

/-- Apply a mutation by its kind. -/
def applyMutation (c : Codec) (t : Tables) : Mutation × Visits → Option Tables
  | (m, order) =>
    match m.resourceType with
    | .endpoints => some (t.applyEndpointsMutation c m)
    | .localInstances => t.applyLocalInstancesMutation c m order

/-- Apply the mutations of an event in turn, with the orders of their rebuilds. -/
def applyEvent (c : Codec) (t : Tables) (ms : List Mutation) (orders : List Visits) :
    Option Tables :=
  if orders.length = ms.length then exec (applyMutation c) t (ms.zip orders) else none

end Tables

/-- A committed operation: what the keys hold after it, and the mutations of its event. -/
structure Entry where
  keys : Keys
  mutations : List Mutation

/-- How far the node has come. -/
inductive Phase
  | created
  /-- About to subscribe from its position. -/
  | connecting
  | watching
  /-- The log has been compacted beyond the position. -/
  | rehydrating
  /-- The first hydration failed, and the node does not start. -/
  | failed
  deriving DecidableEq

/-- The log and one node that follows it. -/
structure Node where
  /-- The committed operations. The event of the first one has sequence number 1. -/
  log : List Entry := []
  minSeq : ℕ := 0
  tables : Tables
  cur : ℕ := 0
  phase : Phase := .created

/-- What the keys hold at a sequence number. -/
def keysAt (log : List Entry) : ℕ → Keys
  | 0 => {}
  | n + 1 => (log[n]?.map Entry.keys).getD {}

namespace Node

/-- A node that has read nothing. -/
def new (localNodeID : String) : Node := { tables := { localInstances := { localNodeID } } }

/-- What the keys hold now. -/
def keys (n : Node) : Keys := keysAt n.log n.log.length

/-- Commit an operation, unless it is refused. -/
def propose (c : Codec) (n : Node) (op : Op) : Node :=
  match op.apply c n.keys with
  | .error _ => n
  | .ok (keys, mutations) =>
    { n with
      log := n.log ++ [⟨keys, mutations⟩]
      minSeq := if n.minSeq = 0 then n.log.length + 1 else n.minSeq }

/-- The records of a snapshot, in an order in which the two ranges may visit them. -/
structure Ranges where
  endpoints : List (Σ _ : String, Bytes)
  localInstances : List ((Σ _ : String, Bytes) × Visits)

/-- The ranges visit every key of the snapshot once. -/
def Ranges.Cover (r : Ranges) (k : Keys) : Prop :=
  r.endpoints.Perm k.endpoints.entries ∧
    (r.localInstances.map Prod.fst).Perm k.localInstances.entries

instance (r : Ranges) (k : Keys) : Decidable (r.Cover k) := by
  unfold Ranges.Cover
  infer_instance

/-- The endpoints come first. -/
def Ranges.found (r : Ranges) : List Found :=
  r.endpoints.map (fun e => Found.endpoints e.2) ++
    r.localInstances.map fun (e, order) => Found.localInstances e.2 order

/-- Fill the tables from a snapshot. A range may fail after some of the records, and the
tables then keep what has been set. -/
def hydrate (c : Codec) (n : Node) (r : Ranges) (failsAfter : Option ℕ) : Option Tables :=
  if r.Cover n.keys then
    exec (Tables.hydrateOne c) n.tables
      (match failsAfter with
      | none => r.found
      | some k => r.found.take k)
  else none

/-- What can happen. -/
inductive Action
  | propose (op : Op)
  | compact (minSeq : ℕ)
  /-- The hydration of `Start`, or the one after a compaction. -/
  | hydrate (r : Ranges) (failsAfter : Option ℕ)
  | watch
  | receive (orders : List Visits)
  | disconnect

/-- One step, if it is possible. -/
def step (c : Codec) (n : Node) : Action → Option Node
  | .propose op => some (n.propose c op)
  | .compact minSeq =>
    if n.minSeq ≤ minSeq ∧ minSeq ≤ n.log.length then some { n with minSeq } else none
  | .hydrate r failsAfter =>
    if n.phase = .created ∨ n.phase = .rehydrating then
      (n.hydrate c r failsAfter).map fun tables =>
        match failsAfter with
        | none => { n with tables, cur := n.log.length, phase := .connecting }
        | some _ => { n with tables, phase := if n.phase = .created then .failed else n.phase }
    else none
  | .watch =>
    if n.phase = .connecting then
      some { n with
        phase := if 0 < n.minSeq ∧ n.cur + 1 < n.minSeq then .rehydrating else .watching }
    else none
  | .receive orders =>
    if n.phase = .watching then
      n.log[n.cur]?.bind fun e =>
        (n.tables.applyEvent c e.mutations orders).map fun tables =>
          { n with tables, cur := n.cur + 1 }
    else none
  | .disconnect => if n.phase = .watching then some { n with phase := .connecting } else none

/-- The node has hydrated at its position or applied every event up to it. -/
def Settled (n : Node) : Prop := n.phase = .connecting ∨ n.phase = .watching

end Node

/-- The tables hold exactly what the keys say. -/
structure Tables.Hold (c : Codec) (t : Tables) (k : Keys) : Prop where
  cache : ∀ serviceID, t.cache.lookup serviceID = k.endpointsOf c serviceID
  nodes : ∀ nodeID, t.localInstances.nodes.lookup nodeID = k.instancesOf c nodeID
  index : ∃ order, t.localInstances.IndexedBy order

/-- Every service and every node that the tables know still has its key. -/
def Tables.Alive (t : Tables) (k : Keys) : Prop :=
  (∀ serviceID ∈ t.cache, serviceID ∈ k.endpoints) ∧
    ∀ nodeID ∈ t.localInstances.nodes, nodeID ∈ k.localInstances

/-- Nothing that the tables know is gone when they are filled anew. -/
def Node.NothingGone (n : Node) : Node.Action → Prop
  | .hydrate _ none => n.tables.Alive n.keys
  | _ => True

section Log

variable {c : Codec} {log : List Entry}

/-- Every entry of the log comes from an operation on the keys as they were. -/
def Committed (c : Codec) (log : List Entry) : Prop :=
  ∀ i e, log[i]? = some e → ∃ op : Op, op.apply c (keysAt log i) = .ok (e.keys, e.mutations)

theorem keysAt_succ {i : ℕ} {e : Entry} (h : log[i]? = some e) : keysAt log (i + 1) = e.keys := by
  simp [keysAt, h]

/-- What the log held at an earlier sequence number does not change. -/
theorem keysAt_append {i : ℕ} (hi : i ≤ log.length) (more : List Entry) :
    keysAt (log ++ more) i = keysAt log i := by
  cases i with
  | zero => rfl
  | succ i => simp only [keysAt, getElem?_append_left (show i < log.length by omega)]

/-- One more entry. -/
theorem Committed.concat {op : Op} {e : Entry} (hc : Committed c log)
    (h : op.apply c (keysAt log log.length) = .ok (e.keys, e.mutations)) :
    Committed c (log ++ [e]) := by
  intro i e' he
  rcases Nat.lt_or_ge i log.length with hi | hi
  · rw [getElem?_append_left hi] at he
    rw [keysAt_append hi.le]
    exact hc i e' he
  · obtain rfl : i = log.length := by
      have := (List.getElem?_eq_some_iff.mp he).1
      simp only [length_append, length_singleton] at this
      omega
    rw [keysAt_append le_rfl]
    obtain rfl : e = e' := by simpa using he
    exact ⟨op, h⟩

/-- Every state of the log is owned. -/
theorem Committed.owned (hc : Committed c log) {i : ℕ} (hi : i ≤ log.length) :
    (keysAt log i).Owned c := by
  induction i with
  | zero => exact ⟨nofun, nofun⟩
  | succ i ih =>
    have he : log[i]? = some log[i] := getElem?_eq_getElem hi
    obtain ⟨op, hop⟩ := hc i _ he
    rw [keysAt_succ he]
    exact (ih (Nat.le_of_succ_le hi)).apply hop

end Log

section Filling

variable {c : Codec} {t u : Tables} {k : Keys}

theorem nodes_step_apply {l l' : LocalInstancesTable} {li : LocalInstances} {order : Visits}
    (h : l.step (.apply li, order) = some l') (hne : li.nodeID ≠ "") :
    l'.nodes = l.nodes.insert li.nodeID li.instances := by
  rw [LocalInstancesTable.step, if_neg hne] at h
  obtain ⟨hperm, rfl⟩ := rebuilt_eq_some.mp h
  rfl

/-- A call leaves the index alone or rebuilds it. -/
theorem index_step {l : LocalInstancesTable} {call : TableCall} {order : Visits}
    (hindex : ∃ order, t.localInstances.IndexedBy order)
    (h : t.localInstances.step (call, order) = some l) : ∃ order, l.IndexedBy order := by
  rcases (step_cases h).2.1 with rfl | hindexed
  · exact hindex
  · exact ⟨order, hindexed⟩

theorem lookup_step_remove {l l' : LocalInstancesTable} {nodeID id : String} {order : Visits}
    (h : l.step (.remove nodeID, order) = some l') :
    l'.nodes.lookup id = (l.nodes.erase nodeID).lookup id := by
  simp only [LocalInstancesTable.step] at h
  split at h
  · obtain ⟨hperm, rfl⟩ := rebuilt_eq_some.mp h
    rfl
  · rename_i habsent
    cases h
    rw [lookup_erase_ite]
    split
    · subst_vars
      exact AList.lookup_eq_none.mpr habsent
    · rfl

/-- The endpoints of a snapshot are set over those in the cache. -/
theorem lookup_cache_hydrate {es : List (Σ _ : String, Bytes)} (hnodup : es.NodupKeys)
    (howned : ∀ e ∈ es, ∃ eps, c.endpoints.unmarshal e.2 = some ⟨e.1, eps⟩)
    (h : exec (Tables.hydrateOne c) t (es.map fun e => .endpoints e.2) = some u) :
    u.localInstances = t.localInstances ∧ ∀ id, u.cache.lookup id =
      ((es.dlookup id).bind fun v => (c.endpoints.unmarshal v).map
        ServiceEndpoints.endpoints).or (t.cache.lookup id) := by
  induction es generalizing t with
  | nil =>
    obtain rfl : t = u := by simpa using h
    exact ⟨rfl, fun id => rfl⟩
  | cons e es ih =>
    obtain ⟨i, v⟩ := e
    obtain ⟨s, hs, hrest⟩ := exec_cons.mp h
    obtain ⟨hnew, hnodup⟩ := nodupKeys_cons.mp hnodup
    obtain ⟨eps, heps⟩ := howned ⟨i, v⟩ mem_cons_self
    simp only [Tables.hydrateOne, heps] at hs
    cases hs
    obtain ⟨hl, hcache⟩ := ih hnodup (fun e he => howned e (mem_cons_of_mem _ he)) hrest
    refine ⟨hl, fun id => ?_⟩
    rw [hcache id]
    by_cases hid : id = i
    · subst hid
      simp [dlookup_eq_none.mpr hnew, heps]
    · rw [dlookup_cons_ne _ (⟨i, v⟩ : Σ _ : String, Bytes) hid, AList.lookup_insert_ne hid]

/-- The records of a snapshot are set over those in the table. -/
theorem lookup_nodes_hydrate {es : List ((Σ _ : String, Bytes) × Visits)}
    (hnodup : (es.map Prod.fst).NodupKeys)
    (howned : ∀ e ∈ es.map Prod.fst, e.1 ≠ "" ∧
      ∃ instances, c.localInstances.unmarshal e.2 = some ⟨e.1, instances⟩)
    (h : exec (Tables.hydrateOne c) t
      (es.map fun (e, order) => .localInstances e.2 order) = some u) :
    u.cache = t.cache ∧ ∀ id, u.localInstances.nodes.lookup id =
        (((es.map Prod.fst).dlookup id).bind fun v => (c.localInstances.unmarshal v).map
          LocalInstances.instances).or (t.localInstances.nodes.lookup id) := by
  induction es generalizing t with
  | nil =>
    obtain rfl : t = u := by simpa using h
    exact ⟨rfl, fun id => rfl⟩
  | cons e es ih =>
    obtain ⟨⟨i, v⟩, order⟩ := e
    obtain ⟨s, hs, hrest⟩ := exec_cons.mp h
    simp only [map_cons] at hnodup howned ⊢
    obtain ⟨hnew, hnodup⟩ := nodupKeys_cons.mp hnodup
    obtain ⟨hne, instances, hinst⟩ := howned ⟨i, v⟩ mem_cons_self
    simp only [Tables.hydrateOne, hinst] at hs
    obtain ⟨l, hl, rfl⟩ := Option.map_eq_some_iff.mp hs
    obtain ⟨hcache, hlookup⟩ :=
      ih hnodup (fun e he => howned e (mem_cons_of_mem _ he)) hrest
    refine ⟨hcache, fun id => ?_⟩
    rw [hlookup id]
    rw [nodes_step_apply hl hne]
    by_cases hid : id = i
    · subst hid
      simp [dlookup_eq_none.mpr hnew, hinst]
    · rw [dlookup_cons_ne _ (⟨i, v⟩ : Σ _ : String, Bytes) hid, AList.lookup_insert_ne hid]

/-- A complete hydration sets what the keys say over what the tables hold. -/
theorem lookup_hydrate {n : Node} {r : Node.Ranges} (howned : n.keys.Owned c)
    (h : n.hydrate c r none = some u) :
    (∀ id, u.cache.lookup id = (n.keys.endpointsOf c id).or (n.tables.cache.lookup id)) ∧
      ∀ id, u.localInstances.nodes.lookup id =
        (n.keys.instancesOf c id).or (n.tables.localInstances.nodes.lookup id) := by
  unfold Node.hydrate at h
  split at h
  case isFalse => cases h
  rename_i hcover
  obtain ⟨heps, hlocals⟩ := hcover
  obtain ⟨s, hs, hrest⟩ := exec_append.mp h
  have hnodup := (perm_nodupKeys heps).mpr n.keys.endpoints.nodupKeys
  have hnodup' := (perm_nodupKeys hlocals).mpr n.keys.localInstances.nodupKeys
  obtain ⟨hsame, hcache⟩ := lookup_cache_hydrate hnodup (fun e he =>
    (howned.endpoints e.1 e.2 (AList.mem_lookup_iff.mpr (heps.mem_iff.mp he))).2) hs
  obtain ⟨hsame', hnodes⟩ := lookup_nodes_hydrate hnodup' (fun e he =>
    howned.localInstances e.1 e.2 (AList.mem_lookup_iff.mpr (hlocals.mem_iff.mp he))) hrest
  refine ⟨fun id => ?_, fun id => ?_⟩
  · rw [hsame', hcache id, perm_dlookup id hnodup heps]
    rfl
  · rw [hnodes id, perm_dlookup id hnodup' hlocals, hsame]
    rfl

/-- A value of one map set over another adds nothing exactly if the one has every key
of the other. -/
theorem or_eq_left_iff {α : Type} {a b : Option α} :
    a.or b = a ↔ (b.isSome → a.isSome) := by
  cases a <;> cases b <;> simp

theorem isSome_endpointsOf (h : k.Owned c) (id : String) :
    (k.endpointsOf c id).isSome ↔ id ∈ k.endpoints := by
  rw [← AList.lookup_isSome, Keys.endpointsOf]
  cases hv : k.endpoints.lookup id with
  | none => simp
  | some v =>
    obtain ⟨_, eps, heps⟩ := h.endpoints id v hv
    simp [heps]

theorem isSome_instancesOf (h : k.Owned c) (id : String) :
    (k.instancesOf c id).isSome ↔ id ∈ k.localInstances := by
  rw [← AList.lookup_isSome, Keys.instancesOf]
  cases hv : k.localInstances.lookup id with
  | none => simp
  | some v =>
    obtain ⟨_, instances, hinst⟩ := h.localInstances id v hv
    simp [hinst]

/-- After a complete hydration the tables hold what the keys say exactly if nothing they
knew is gone. -/
theorem hold_hydrate_iff {n : Node} {r : Node.Ranges} (howned : n.keys.Owned c)
    (hindex : ∃ order, u.localInstances.IndexedBy order)
    (h : n.hydrate c r none = some u) : u.Hold c n.keys ↔ n.tables.Alive n.keys := by
  obtain ⟨hcache, hnodes⟩ := lookup_hydrate howned h
  have hcache' : (∀ id, u.cache.lookup id = n.keys.endpointsOf c id) ↔
      ∀ id ∈ n.tables.cache, id ∈ n.keys.endpoints := by
    refine forall_congr' fun id => ?_
    rw [hcache id, or_eq_left_iff, isSome_endpointsOf howned, AList.lookup_isSome]
  have hnodes' : (∀ id, u.localInstances.nodes.lookup id = n.keys.instancesOf c id) ↔
      ∀ id ∈ n.tables.localInstances.nodes, id ∈ n.keys.localInstances := by
    refine forall_congr' fun id => ?_
    rw [hnodes id, or_eq_left_iff, isSome_instancesOf howned, AList.lookup_isSome]
  constructor
  · intro hold
    exact ⟨hcache'.mp hold.cache, hnodes'.mp hold.nodes⟩
  · rintro ⟨hservices, hlocal⟩
    exact ⟨hcache'.mpr hservices, hnodes'.mpr hlocal, hindex⟩

/-- Records that a hydration sets keep the table indexed. -/
theorem index_hydrateOne {f : Found} (hindex : ∃ order, t.localInstances.IndexedBy order)
    (h : t.hydrateOne c f = some u) : ∃ order, u.localInstances.IndexedBy order := by
  revert h
  fun_cases t.hydrateOne c f <;> intro h <;> try (cases h; exact hindex)
  obtain ⟨l, hl, rfl⟩ := Option.map_eq_some_iff.mp h
  exact index_step hindex hl

/-- So do mutations. -/
theorem index_applyMutation {m : Mutation × Visits}
    (hindex : ∃ order, t.localInstances.IndexedBy order)
    (h : t.applyMutation c m = some u) : ∃ order, u.localInstances.IndexedBy order := by
  revert h
  fun_cases t.applyMutation c m <;> intro h
  · cases h
    fun_cases t.applyEndpointsMutation c _ <;> exact hindex
  · revert h
    fun_cases t.applyLocalInstancesMutation c _ _ <;> intro h
    · obtain ⟨l, hl, rfl⟩ := Option.map_eq_some_iff.mp h
      exact index_step hindex hl
    · cases h
      exact hindex
    · obtain ⟨l, hl, rfl⟩ := Option.map_eq_some_iff.mp h
      exact index_step hindex hl

theorem index_applyEvent {ms : List Mutation} {orders : List Visits}
    (hindex : ∃ order, t.localInstances.IndexedBy order)
    (h : t.applyEvent c ms orders = some u) : ∃ order, u.localInstances.IndexedBy order := by
  unfold Tables.applyEvent at h
  split at h
  · exact exec_invariant (fun _ _ _ hi => index_applyMutation hi) hindex h
  · cases h

end Filling

section Events

variable {c : Codec} {t u : Tables} {k k' : Keys} {op : Op} {ms : List Mutation}
  {orders : List Visits} {id : String}

theorem endpointsOf_insert (eps : List Endpoint) (i : String) :
    Keys.endpointsOf c
        { k with endpoints := k.endpoints.insert id (c.endpoints.marshal ⟨id, eps⟩) } i =
      if i = id then some eps else k.endpointsOf c i := by
  simp only [Keys.endpointsOf, lookup_insert_ite]
  split <;> simp

theorem endpointsOf_erase (i : String) :
    Keys.endpointsOf c { k with endpoints := k.endpoints.erase id } i =
      if i = id then none else k.endpointsOf c i := by
  simp only [Keys.endpointsOf, lookup_erase_ite]
  split <;> simp

theorem instancesOf_insert (instances : Idents) (i : String) :
    Keys.instancesOf c
        { k with
          localInstances :=
            k.localInstances.insert id (c.localInstances.marshal ⟨id, instances⟩) } i =
      if i = id then some instances else k.instancesOf c i := by
  simp only [Keys.instancesOf, lookup_insert_ite]
  split <;> simp

theorem instancesOf_erase (i : String) :
    Keys.instancesOf c { k with localInstances := k.localInstances.erase id } i =
      if i = id then none else k.instancesOf c i := by
  simp only [Keys.instancesOf, lookup_erase_ite]
  split <;> simp

/-- The event of an operation has one mutation. -/
theorem applyEvent_singleton {m : Mutation} (h : t.applyEvent c [m] orders = some u) :
    ∃ order, t.applyMutation c (m, order) = some u := by
  unfold Tables.applyEvent at h
  split at h
  case isFalse => cases h
  rename_i hlen
  obtain ⟨order, rfl⟩ := length_eq_one_iff.mp hlen
  obtain ⟨s, hs, hend⟩ := exec_cons.mp h
  obtain rfl : s = u := by simpa using hend
  exact ⟨order, hs⟩

/-- Applying the event of an operation does to the tables what the operation does to
the keys. -/
theorem Tables.Hold.applyEvent (hold : t.Hold c k) (hop : op.apply c k = .ok (k', ms))
    (h : t.applyEvent c ms orders = some u) : u.Hold c k' := by
  rcases Op.apply_cases hop with ⟨id, eps, hid, rfl, rfl⟩ | ⟨id, hid, rfl, rfl⟩ |
    ⟨id, instances, hid, rfl, rfl⟩ | ⟨id, hid, rfl, rfl⟩ <;>
    obtain ⟨order, h⟩ := applyEvent_singleton h
  · simp only [Tables.applyMutation, Tables.applyEndpointsMutation, Json.unmarshal_marshal] at h
    cases h
    refine ⟨fun i => ?_, hold.nodes, hold.index⟩
    rw [endpointsOf_insert, lookup_insert_ite, hold.cache i]
  · simp only [Tables.applyMutation, Tables.applyEndpointsMutation] at h
    cases h
    refine ⟨fun i => ?_, hold.nodes, hold.index⟩
    rw [endpointsOf_erase, lookup_erase_ite, hold.cache i]
  · simp only [Tables.applyMutation, Tables.applyLocalInstancesMutation,
      Json.unmarshal_marshal] at h
    obtain ⟨l, hl, rfl⟩ := Option.map_eq_some_iff.mp h
    refine ⟨hold.cache, fun i => ?_, index_step hold.index hl⟩
    rw [instancesOf_insert, nodes_step_apply hl hid, lookup_insert_ite, hold.nodes i]
  · obtain ⟨l, hl, rfl⟩ := Option.map_eq_some_iff.mp h
    refine ⟨hold.cache, fun i => ?_, index_step hold.index hl⟩
    rw [instancesOf_erase, lookup_step_remove hl, lookup_erase_ite, hold.nodes i]

end Events

section Runs

variable {c : Codec} {n m : Node} {a : Node.Action}

/-- The node is settled only on tables that are a replay of the log. -/
def Node.Replayed (c : Codec) (n : Node) : Prop :=
  n.Settled → n.tables.Hold c (keysAt n.log n.cur)

/-- What every run keeps: the log is a log of operations, the node's position is in it,
and its table is indexed. -/
structure Node.Sound (c : Codec) (n : Node) : Prop where
  committed : Committed c n.log
  cur_le : n.cur ≤ n.log.length
  index : ∃ order, n.tables.localInstances.IndexedBy order

/-- A new node. -/
theorem Node.sound_new (c : Codec) (localNodeID : String) : (Node.new localNodeID).Sound c where
  committed := fun i e he => by cases i <;> cases he
  cur_le := Nat.le_refl 0
  index := ⟨[], .refl _, rfl, rfl⟩

/-- What a step does to the parts that matter. -/
theorem Node.Sound.step (hs : n.Sound c) (h : n.step c a = some m) :
    m.Sound c ∧
      (n.Replayed c → (m.Replayed c ↔ n.NothingGone a)) := by
  revert h
  fun_cases n.step c a <;> intro h <;> try cases h
  · unfold Node.propose
    split
    · exact ⟨hs, fun hr => ⟨fun _ => trivial, fun _ => hr⟩⟩
    · rename_i keys mutations hop
      refine ⟨⟨hs.committed.concat hop, ?_, hs.index⟩, fun hr => ⟨fun _ => trivial, fun _ => ?_⟩⟩
      · exact hs.cur_le.trans (by simp)
      · intro hsettled
        simpa only [keysAt_append hs.cur_le] using hr hsettled
  · exact ⟨⟨hs.committed, hs.cur_le, hs.index⟩, fun hr => ⟨fun _ => trivial, fun _ => hr⟩⟩
  · rename_i r failsAfter hphase
    obtain ⟨u, hu, rfl⟩ := Option.map_eq_some_iff.mp h
    have hindex : ∃ order, u.localInstances.IndexedBy order := by
      unfold Node.hydrate at hu
      split at hu
      · exact exec_invariant (fun _ _ _ hi => index_hydrateOne hi) hs.index hu
      · cases hu
    cases failsAfter with
    | none =>
      refine ⟨⟨hs.committed, le_rfl, hindex⟩, fun _ => ?_⟩
      have hiff := hold_hydrate_iff (hs.committed.owned le_rfl) hindex hu
      exact ⟨fun hr => hiff.mp (hr (.inl rfl)), fun hgone _ => hiff.mpr hgone⟩
    | some k =>
      refine ⟨⟨hs.committed, hs.cur_le, hindex⟩, fun _ => ⟨fun _ => trivial, fun _ hset => ?_⟩⟩
      rcases hphase with hp | hp <;> simp [Node.Settled, hp] at hset
  · exact ⟨⟨hs.committed, hs.cur_le, hs.index⟩, fun hr =>
      ⟨fun _ => trivial, fun _ _ => hr (.inl ‹_›)⟩⟩
  · obtain ⟨e, he, h⟩ := Option.bind_eq_some_iff.mp h
    obtain ⟨u, hu, rfl⟩ := Option.map_eq_some_iff.mp h
    obtain ⟨op, hop⟩ := hs.committed n.cur e he
    refine ⟨⟨hs.committed, (List.getElem?_eq_some_iff.mp he).1, index_applyEvent hs.index hu⟩,
      fun hr => ⟨fun _ => trivial, fun _ _ => ?_⟩⟩
    have hnext := (hr (.inr ‹_›)).applyEvent hop hu
    rwa [← keysAt_succ he] at hnext
  · exact ⟨⟨hs.committed, hs.cur_le, hs.index⟩, fun hr =>
      ⟨fun _ => trivial, fun _ _ => hr (.inr ‹_›)⟩⟩

/-- The tables are a replay of the log after every step exactly if no record they hold has
lost its key when they are filled from a snapshot. -/
theorem replayed_iff_nothing_gone (c : Codec) (localNodeID : String) (run : List Node.Action) :
    Along (Node.step c) (fun n a => ∀ m, n.step c a = some m → m.Settled →
        m.tables.Hold c (keysAt m.log m.cur)) (Node.new localNodeID) run ↔
      Along (Node.step c) (fun n a => (n.step c a).isSome → n.NothingGone a)
        (Node.new localNodeID) run := by
  refine along_iff (fun n => n.Sound c ∧ n.Replayed c) ?_ ?_
    ⟨Node.sound_new c localNodeID, fun h => by rcases h with h | h <;> cases h⟩
  · rintro n a _ ⟨hs, hr⟩
    constructor
    · intro h hsome
      obtain ⟨m, hm⟩ := Option.isSome_iff_exists.mp hsome
      exact ((hs.step hm).2 hr).mp (h m hm)
    · intro h m hm
      exact ((hs.step hm).2 hr).mpr (h (by simp [hm]))
  · rintro n a _ m ⟨hs, hr⟩ h hm
    exact ⟨(hs.step hm).1, ((hs.step hm).2 hr).mpr (h (by simp [hm]))⟩

/-- Hydrating from a snapshot with a single endpoints key. -/
theorem step_hydrate_singleton {id : String} {eps : List Endpoint}
    (hphase : n.phase = .created ∨ n.phase = .rehydrating)
    (hkeys : n.keys.endpoints.entries = [⟨id, c.endpoints.marshal ⟨id, eps⟩⟩])
    (hlocal : n.keys.localInstances.entries = []) :
    n.step c (.hydrate ⟨[⟨id, c.endpoints.marshal ⟨id, eps⟩⟩], []⟩ none) =
      some { n with
        tables := { n.tables with cache := n.tables.cache.insert id eps }
        cur := n.log.length
        phase := .connecting } := by
  have hcover : Node.Ranges.Cover ⟨[⟨id, c.endpoints.marshal ⟨id, eps⟩⟩], []⟩ n.keys :=
    ⟨.of_eq hkeys.symm, .of_eq hlocal.symm⟩
  simp [Node.step, hphase, Node.hydrate, hcover, Node.Ranges.found, exec, Tables.hydrateOne]

/-- A service is removed while the node is away, and the log is compacted. -/
def awayRun (c : Codec) : List Node.Action :=
  [.propose (.updateEndpoints "web" []),
    .hydrate ⟨[⟨"web", c.endpoints.marshal ⟨"web", []⟩⟩], []⟩ none,
    .propose (.deleteEndpoints "web"),
    .propose (.updateEndpoints "api" []),
    .compact 3,
    .watch,
    .hydrate ⟨[⟨"api", c.endpoints.marshal ⟨"api", []⟩⟩], []⟩ none]

/-- The removed service stays in the cache, under every encoding. -/
theorem removed_service_stays : Nonempty Codec ∧ ∀ c : Codec,
    ∃ n, exec (Node.step c) (Node.new "a") (awayRun c) = some n ∧ n.Settled ∧ n.cur = 3 ∧
      (keysAt n.log 3).endpointsOf c "web" = none ∧ n.tables.cache.lookup "web" = some [] := by
  refine ⟨nonempty_codec, fun c => ?_⟩
  refine ⟨_, exec_cons.mpr ⟨_, rfl, exec_cons.mpr
    ⟨_, step_hydrate_singleton (.inl rfl) rfl rfl, exec_cons.mpr ⟨_, rfl, exec_cons.mpr ⟨_, rfl,
    exec_cons.mpr ⟨_, rfl, exec_cons.mpr ⟨_, rfl, exec_cons.mpr
    ⟨_, step_hydrate_singleton (.inr rfl) rfl rfl, rfl⟩⟩⟩⟩⟩⟩⟩, .inl rfl, rfl, rfl, rfl⟩

end Runs

end Rune.Dataplane
