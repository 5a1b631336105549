import Rune.Core.Overlay
import Rune.Core.Run

/-!
# Who a container is

The table of local instances keeps the record of each node and, derived from all of them, one flat
index from addresses to identities. The index is rebuilt by a loop over the records in an order
that the language leaves open. An address of this node's record is answered from it in every order
exactly if no other node's record has the address.
-/

namespace Rune.Dataplane

open Rune.Core

/-- Who an address belongs to. -/
structure InstanceIdentity where
  instanceID : String
  service : String
  ns : String
  deriving DecidableEq

/-- Container addresses and the identities behind them. -/
abbrev Idents := AList fun _ : String => InstanceIdentity

/-- The record of a node. -/
structure LocalInstances where
  nodeID : String
  instances : Idents

/-- The source of a connection. An address is the text that `String` gives it; a nil
address is `none`. -/
structure PeerInfo where
  ip : Option String := none
  identity : Option InstanceIdentity := none
  sameNode : Bool := false

/-- The records of all nodes and the index made of them. -/
structure LocalInstancesTable where
  localNodeID : String
  nodes : AList fun _ : String => Idents := ∅
  flat : Idents := ∅
  /-- The node whose entry is in the index. -/
  reverseNode : AList fun _ : String => String := ∅

/-- The calls that change the table. -/
inductive TableCall
  | apply (li : LocalInstances)
  | remove (nodeID : String)

/-- An order in which a loop visits the records of the nodes. -/
abbrev Visits := List (Σ _ : String, Idents)

namespace LocalInstancesTable

/-- Rebuild the index. One loop fills both maps. -/
def rebuildLocked (t : LocalInstancesTable) (order : Visits) : LocalInstancesTable :=
  { t with
    flat := overlay (fun _ id => id) order
    reverseNode := overlay (fun nodeID _ => nodeID) order }

/-- The loop of a rebuild visits each record once. -/
def rebuilt (t : LocalInstancesTable) (order : Visits) : Option LocalInstancesTable :=
  if order.Perm t.nodes.entries then some (t.rebuildLocked order) else none

/-- A call, and the order of the loop in case it rebuilds the index. -/
def step (t : LocalInstancesTable) : TableCall × Visits → Option LocalInstancesTable
  | (.apply li, order) =>
    if li.nodeID = "" then some t
    else { t with nodes := t.nodes.insert li.nodeID li.instances }.rebuilt order
  | (.remove nodeID, order) =>
    if nodeID ∈ t.nodes then { t with nodes := t.nodes.erase nodeID }.rebuilt order else some t

/-- The number of entries, which the calls return. -/
def size (t : LocalInstancesTable) : ℕ := t.flat.entries.length

/-- What is known about an address. -/
def peerInfoFor (t : LocalInstancesTable) : Option String → PeerInfo
  | none => {}
  | some ip =>
    { ip := some ip
      identity := t.flat.lookup ip
      sameNode := t.reverseNode.lookup ip = some t.localNodeID }

end LocalInstancesTable

/-- The record of a node after a call, given the one before it. -/
def supersede (nodeID : String) (before : Option Idents) : TableCall → Option Idents
  | .apply li => if li.nodeID = nodeID then some li.instances else before
  | .remove gone => if gone = nodeID then none else before

/-- The record of a node that was applied last, unless it has been removed since. -/
def latest (nodeID : String) (calls : List TableCall) : Option Idents :=
  calls.foldl (supersede nodeID) none

/-- Every address of the node's own record is answered from that record. -/
def ResolvesOwn (calls : List TableCall) (t : LocalInstancesTable) : Prop :=
  ∀ own ∈ latest t.localNodeID calls, ∀ ip id, own.lookup ip = some id →
    t.peerInfoFor (some ip) = ⟨some ip, some id, true⟩

/-- The node has an identity, and no other node's record has one of its addresses. -/
def Undisputed (localNodeID : String) (calls : List TableCall) : Prop :=
  ∀ own ∈ latest localNodeID calls, ∀ ip ∈ own, localNodeID ≠ "" ∧
    ∀ other, other ≠ "" → other ≠ localNodeID → ∀ record ∈ latest other calls, ip ∉ record

section Records

variable {t u : LocalInstancesTable} {call : TableCall} {order : Visits}
  {record : String → Option Idents}

/-- The table holds the given records, those without a node left out. -/
def LocalInstancesTable.Holds (t : LocalInstancesTable) (record : String → Option Idents) : Prop :=
  ∀ nodeID, t.nodes.lookup nodeID = if nodeID = "" then none else record nodeID

/-- The index has been built from the records in the given order. -/
structure LocalInstancesTable.IndexedBy (t : LocalInstancesTable) (order : Visits) : Prop where
  visits : order.Perm t.nodes.entries
  flat : t.flat = overlay (fun _ id => id) order
  reverse : t.reverseNode = overlay (fun nodeID _ => nodeID) order

theorem rebuilt_eq_some :
    t.rebuilt order = some u ↔ order.Perm t.nodes.entries ∧ t.rebuildLocked order = u := by
  unfold LocalInstancesTable.rebuilt
  split <;> simp_all

theorem step_apply (t : LocalInstancesTable) (li : LocalInstances) (hne : li.nodeID ≠ "")
    (hperm : order.Perm (t.nodes.insert li.nodeID li.instances).entries) :
    t.step (.apply li, order) = some
      ({ t with nodes := t.nodes.insert li.nodeID li.instances }.rebuildLocked order) := by
  rw [LocalInstancesTable.step, if_neg hne]
  exact rebuilt_eq_some.mpr ⟨hperm, rfl⟩

/-- A call replaces or removes the record of one node and rebuilds the index in the
given order, or leaves the table alone. -/
theorem step_cases (h : t.step (call, order) = some u) :
    u.localNodeID = t.localNodeID ∧
      (u = t ∨ u.IndexedBy order) ∧
      ∀ record, t.Holds record → u.Holds fun nodeID => supersede nodeID (record nodeID) call := by
  cases call with
  | apply li =>
    simp only [LocalInstancesTable.step] at h
    split at h
    · rename_i hempty
      cases h
      refine ⟨rfl, .inl rfl, fun record hr nodeID => ?_⟩
      rw [hr nodeID]
      split
      · rfl
      · rename_i hne
        have hk : ¬ li.nodeID = nodeID := fun he => hne (he ▸ hempty)
        simp only [supersede, if_neg hk]
    · rename_i hne
      obtain ⟨hperm, rfl⟩ := rebuilt_eq_some.mp h
      refine ⟨rfl, .inr ⟨hperm, rfl, rfl⟩, fun record hr nodeID => ?_⟩
      change (t.nodes.insert li.nodeID li.instances).lookup nodeID = _
      by_cases hk : nodeID = li.nodeID
      · subst hk
        simp [hne, supersede]
      · simp only [AList.lookup_insert_ne hk, hr nodeID, supersede, if_neg (Ne.symm hk)]
  | remove gone =>
    simp only [LocalInstancesTable.step] at h
    split at h
    · obtain ⟨hperm, rfl⟩ := rebuilt_eq_some.mp h
      refine ⟨rfl, .inr ⟨hperm, rfl, rfl⟩, fun record hr nodeID => ?_⟩
      change (t.nodes.erase gone).lookup nodeID = _
      by_cases hk : nodeID = gone
      · subst hk
        simp [supersede]
      · simp only [AList.lookup_erase_ne hk, hr nodeID, supersede, if_neg (Ne.symm hk)]
    · rename_i habsent
      cases h
      refine ⟨rfl, .inl rfl, fun record hr nodeID => ?_⟩
      by_cases hk : gone = nodeID
      · subst hk
        simp [AList.lookup_eq_none.mpr habsent, supersede]
      · simp only [hr nodeID, supersede, if_neg hk]

/-- After any calls the table holds the latest records, and its index has been built
from them in some order. -/
theorem indexed_of_exec {localNodeID : String} {run : List (TableCall × Visits)}
    (h : exec LocalInstancesTable.step { localNodeID } run = some t) :
    t.localNodeID = localNodeID ∧ t.Holds (fun nodeID => latest nodeID (run.map Prod.fst)) ∧
      ∃ order, t.IndexedBy order := by
  induction run using List.reverseRecOn generalizing t with
  | nil =>
    cases h
    exact ⟨rfl, fun nodeID => by simp [latest], [], .refl _, rfl, rfl⟩
  | append_singleton run last ih =>
    obtain ⟨s, hs, hlast⟩ := exec_append.mp h
    obtain ⟨hid, hholds, order, hindexed⟩ := ih hs
    obtain ⟨v, hv, hend⟩ := exec_cons.mp hlast
    obtain rfl : v = t := by simpa using hend
    obtain ⟨hid', hindex, hrecords⟩ := step_cases hv
    refine ⟨hid'.trans hid, fun nodeID => ?_, ?_⟩
    · simpa [latest, List.foldl_append] using hrecords _ hholds nodeID
    · rcases hindex with rfl | hindex
      · exact ⟨order, hindexed⟩
      · exact ⟨_, hindex⟩

/-- Whatever order is preferred for each set of records, some run of the calls rebuilds
the index in it. -/
theorem exists_exec_indexedBy (prefer : (AList fun _ : String => Idents) → Visits)
    (hprefer : ∀ nodes, (prefer nodes).Perm nodes.entries) (localNodeID : String)
    (calls : List TableCall) :
    ∃ run t, run.map Prod.fst = calls ∧
      exec LocalInstancesTable.step { localNodeID } run = some t ∧
      t.IndexedBy (prefer t.nodes) := by
  induction calls using List.reverseRecOn with
  | nil =>
    have hnil : prefer ∅ = [] := (hprefer ∅).eq_nil
    exact ⟨[], { localNodeID }, rfl, rfl, hprefer ∅, by rw [hnil]; rfl, by rw [hnil]; rfl⟩
  | append_singleton calls call ih =>
    obtain ⟨run, s, hrun, hs, hindexed⟩ := ih
    have hnext : ∃ order t, s.step (call, order) = some t ∧ t.IndexedBy (prefer t.nodes) := by
      have hrebuild : ∀ v : LocalInstancesTable, ∃ order t, v.rebuilt order = some t ∧
          t.IndexedBy (prefer t.nodes) := fun v =>
        ⟨prefer v.nodes, v.rebuildLocked (prefer v.nodes),
          rebuilt_eq_some.mpr ⟨hprefer v.nodes, rfl⟩, hprefer v.nodes, rfl, rfl⟩
      cases call with
      | apply li =>
        simp only [LocalInstancesTable.step]
        split
        · exact ⟨[], s, rfl, hindexed⟩
        · exact hrebuild _
      | remove gone =>
        simp only [LocalInstancesTable.step]
        split
        · exact hrebuild _
        · exact ⟨[], s, rfl, hindexed⟩
    obtain ⟨order, t, ht, hti⟩ := hnext
    refine ⟨run ++ [(call, order)], t, by simp [hrun], ?_, hti⟩
    exact exec_append.mpr ⟨s, hs, exec_cons.mpr ⟨t, ht, rfl⟩⟩

end Records

section Resolution

variable {t : LocalInstancesTable} {localNodeID : String} {calls : List TableCall}

/-- The records that a loop visits are those of the table, under their nodes. -/
theorem LocalInstancesTable.IndexedBy.mem_iff {order : Visits} (h : t.IndexedBy order)
    {nodeID : String} {record : Idents} :
    ⟨nodeID, record⟩ ∈ order ↔ t.nodes.lookup nodeID = some record := by
  rw [h.visits.mem_iff]
  exact AList.mem_lookup_iff.symm

theorem LocalInstancesTable.Holds.lookup_eq_some {record : String → Option Idents}
    (h : t.Holds record) {nodeID : String} {idents : Idents} :
    t.nodes.lookup nodeID = some idents ↔ nodeID ≠ "" ∧ record nodeID = some idents := by
  rw [h nodeID]
  by_cases hid : nodeID = "" <;> simp [hid]

/-- Without overlaps the order of the loop does not matter. -/
theorem resolvesOwn_of_undisputed {run : List (TableCall × Visits)}
    (hu : Undisputed localNodeID (run.map Prod.fst))
    (h : exec LocalInstancesTable.step { localNodeID } run = some t) :
    ResolvesOwn (run.map Prod.fst) t := by
  obtain ⟨rfl, hholds, order, hindexed⟩ := indexed_of_exec h
  intro own hown ip id hid
  have hmem : ip ∈ own := AList.lookup_isSome.mp (by simp [hid])
  obtain ⟨hlocal, hothers⟩ := hu own hown ip hmem
  have hvisited : (⟨t.localNodeID, own⟩ : Σ _ : String, Idents) ∈ order :=
    hindexed.mem_iff.mpr (hholds.lookup_eq_some.mpr ⟨hlocal, hown⟩)
  have hunique : ∀ other ∈ order, ip ∈ other.2 → other = ⟨t.localNodeID, own⟩ := by
    rintro ⟨other, record⟩ hother hip
    have hlookup := hindexed.mem_iff.mp hother
    obtain ⟨hne, hrecord⟩ := hholds.lookup_eq_some.mp hlookup
    by_cases hown' : other = t.localNodeID
    · subst hown'
      cases hrecord.symm.trans hown
      rfl
    · exact absurd hip (hothers other hne hown' record hrecord)
  simp only [LocalInstancesTable.peerInfoFor, hindexed.flat, hindexed.reverse,
    lookup_overlay_of_unique hvisited hid hunique, decide_true]

/-- Visit the record of one node after all the others. -/
def visitLast (nodeID : String) (nodes : AList fun _ : String => Idents) : Visits :=
  nodes.entries.filter (fun e => e.1 ≠ nodeID) ++ nodes.entries.filter (fun e => ¬ e.1 ≠ nodeID)

/-- An order a map iteration can take. -/
theorem visitLast_perm (nodeID : String) (nodes : AList fun _ : String => Idents) :
    (visitLast nodeID nodes).Perm nodes.entries := by
  simpa [visitLast] using List.filter_append_perm (fun e => decide (e.1 ≠ nodeID)) nodes.entries

/-- The node that is visited last owns all of its addresses. -/
theorem owner_of_visitLast {other : String} {record : Idents}
    (hindexed : t.IndexedBy (visitLast other t.nodes))
    (hrecord : t.nodes.lookup other = some record) {ip : String} (hip : ip ∈ record) :
    t.reverseNode.lookup ip = some other := by
  have hmem : (⟨other, record⟩ : Σ _ : String, Idents) ∈ t.nodes.entries :=
    AList.mem_lookup_iff.mp hrecord
  have honly : ∀ e ∈ t.nodes.entries, decide (¬ e.1 ≠ other) = decide (e = ⟨other, record⟩) := by
    intro e he
    by_cases hk : e.1 = other
    · have heq := t.nodes.nodupKeys.eq_of_fst_eq he hmem hk
      simp [heq]
    · have hne : e ≠ ⟨other, record⟩ := fun heq => hk (by rw [heq])
      simp [hk, hne]
  have hlast : t.nodes.entries.filter (fun e => ¬ e.1 ≠ other) = [⟨other, record⟩] := by
    rw [List.filter_congr honly, List.filter_eq,
      List.count_eq_one_of_mem t.nodes.nodupKeys.nodup hmem]
    rfl
  obtain ⟨id, hid⟩ := Option.isSome_iff_exists.mp (AList.lookup_isSome.mpr hip)
  rw [hindexed.reverse, visitLast, hlast, lookup_overlay_concat, hid]
  rfl

/-- Addresses of this node are answered from its own record in every order of the loops
exactly if the record is undisputed. -/
theorem resolvesOwn_iff (localNodeID : String) (calls : List TableCall) :
    (∀ run t, run.map Prod.fst = calls →
      exec LocalInstancesTable.step { localNodeID } run = some t → ResolvesOwn calls t) ↔
      Undisputed localNodeID calls := by
  constructor
  · intro h own hown ip hip
    obtain ⟨id, hid⟩ := Option.isSome_iff_exists.mp (AList.lookup_isSome.mpr hip)
    have howner : ∀ other, ∃ t : LocalInstancesTable,
        t.Holds (fun nodeID => latest nodeID calls) ∧ t.IndexedBy (visitLast other t.nodes) ∧
          t.reverseNode.lookup ip = some localNodeID := by
      intro other
      obtain ⟨run, t, rfl, hrun, hindexed⟩ :=
        exists_exec_indexedBy (visitLast other) (visitLast_perm other) localNodeID calls
      obtain ⟨rfl, hholds, -⟩ := indexed_of_exec hrun
      have hpeer := congrArg PeerInfo.sameNode (h run t rfl hrun own hown ip id hid)
      exact ⟨t, hholds, hindexed, by simpa [LocalInstancesTable.peerInfoFor] using hpeer⟩
    refine ⟨?_, fun other hne hother record hrecord hin => ?_⟩
    · rintro rfl
      obtain ⟨t, hholds, hindexed, hsame⟩ := howner ""
      rw [hindexed.reverse] at hsame
      obtain ⟨⟨nodeID, record⟩, hvisited, -, -, rfl⟩ := exists_of_lookup_overlay hsame
      have hlookup := hindexed.mem_iff.mp hvisited
      exact (hholds.lookup_eq_some.mp hlookup).1 rfl
    · obtain ⟨t, hholds, hindexed, hsame⟩ := howner other
      have hlookup := hholds.lookup_eq_some.mpr ⟨hne, hrecord⟩
      rw [owner_of_visitLast hindexed hlookup hin] at hsame
      exact hother (Option.some.inj hsame)
  · rintro hu run t rfl hrun
    exact resolvesOwn_of_undisputed hu hrun

/-- Whatever the calls and the orders of the loops, an address is known exactly if the record of
some node has it. Its identity and its place are then those of one and the same record. -/
theorem peerInfoFor_cases {localNodeID : String} {run : List (TableCall × Visits)}
    (h : exec LocalInstancesTable.step { localNodeID } run = some t) (ip : String) :
    (∃ nodeID record id, nodeID ≠ "" ∧ latest nodeID (run.map Prod.fst) = some record ∧
      record.lookup ip = some id ∧
      t.peerInfoFor (some ip) = ⟨some ip, some id, nodeID = localNodeID⟩) ∨
    (∀ nodeID record, nodeID ≠ "" → latest nodeID (run.map Prod.fst) = some record →
      ip ∉ record) ∧ t.peerInfoFor (some ip) = { ip := some ip } := by
  obtain ⟨rfl, hholds, order, hindexed⟩ := indexed_of_exec h
  simp only [LocalInstancesTable.peerInfoFor, hindexed.flat, hindexed.reverse]
  rw [lookup_overlay_eq_map, @lookup_overlay_eq_map _ _ _ String]
  cases hfound : (overlay Prod.mk order).lookup ip with
  | some p =>
    obtain ⟨⟨nodeID, record⟩, hvisited, id, hid, rfl⟩ := exists_of_lookup_overlay hfound
    obtain ⟨hne, hlatest⟩ := hholds.lookup_eq_some.mp (hindexed.mem_iff.mp hvisited)
    exact Or.inl ⟨nodeID, record, id, hne, hlatest, hid, by simp⟩
  | none =>
    refine Or.inr ⟨fun nodeID record hne hlatest => ?_, by simp⟩
    exact lookup_overlay_eq_none.mp hfound _
      (hindexed.mem_iff.mpr (hholds.lookup_eq_some.mpr ⟨hne, hlatest⟩))

end Resolution

/-- The record of a node with one container. -/
def oneContainer (nodeID service : String) : LocalInstances where
  nodeID := nodeID
  instances := AList.singleton "172.17.0.2" ⟨service, service, "prod"⟩

/-- Both hosts number their containers in the same way. -/
def repeatedSubnet : List TableCall :=
  [.apply (oneContainer "a" "worker"), .apply (oneContainer "b" "web")]

/-- The calls, the second of which visits the other node last. -/
def otherVisitedLast : List (TableCall × Visits) :=
  repeatedSubnet.zip [[⟨"a", (oneContainer "a" "worker").instances⟩],
    [⟨"a", (oneContainer "a" "worker").instances⟩, ⟨"b", (oneContainer "b" "web").instances⟩]]

/-- The example runs. -/
theorem otherVisitedLast_runs : ∃ t,
    exec LocalInstancesTable.step { localNodeID := "a" } otherVisitedLast = some t ∧
      t.peerInfoFor (some "172.17.0.2") =
        ⟨some "172.17.0.2", some ⟨"web", "web", "prod"⟩, false⟩ :=
  ⟨_, exec_cons.mpr ⟨_, step_apply _ _ (by decide) (.refl _),
    exec_cons.mpr ⟨_, step_apply _ _ (by decide) (.swap _ _ _), rfl⟩⟩, rfl⟩

/-- The address that both records have is known, and the next one, which neither has, is not. -/
theorem otherVisitedLast_known : ∃ t,
    exec LocalInstancesTable.step { localNodeID := "a" } otherVisitedLast = some t ∧
      (t.peerInfoFor (some "172.17.0.2")).identity ≠ none ∧
      t.peerInfoFor (some "172.17.0.3") = { ip := some "172.17.0.3" } := by
  obtain ⟨t, hrun, -⟩ := otherVisitedLast_runs
  refine ⟨t, hrun, ?_, ?_⟩
  · rcases peerInfoFor_cases hrun "172.17.0.2" with ⟨_, _, id, -, -, -, hpeer⟩ | ⟨hnone, -⟩
    · rw [hpeer]
      exact Option.some_ne_none id
    · exact absurd (by decide) (hnone "a" _ (by decide) rfl)
  · rcases peerInfoFor_cases hrun "172.17.0.3" with ⟨node, record, id, -, hlatest, hid, -⟩ | hnone
    · simp only [otherVisitedLast, repeatedSubnet, List.zip_cons_cons, List.zip_nil_right,
        List.map_cons, List.map_nil, latest, List.foldl_cons, List.foldl_nil, supersede] at hlatest
      split_ifs at hlatest <;> cases hlatest <;> cases hid
    · exact hnone.2

/-- The container of this node is taken for one of the other node. -/
theorem remote_record_hides_local :
    ∃ run t, run.map Prod.fst = repeatedSubnet ∧
      exec LocalInstancesTable.step { localNodeID := "a" } run = some t ∧
      t.peerInfoFor (some "172.17.0.2") =
        ⟨some "172.17.0.2", some ⟨"web", "web", "prod"⟩, false⟩ ∧
      ¬ ResolvesOwn repeatedSubnet t := by
  obtain ⟨t, hrun, hpeer⟩ := otherVisitedLast_runs
  refine ⟨otherVisitedLast, t, rfl, hrun, hpeer, fun h => ?_⟩
  have hown := h _ (by rw [(indexed_of_exec hrun).1]; rfl) "172.17.0.2" _ rfl
  rw [hpeer] at hown
  exact absurd (congrArg PeerInfo.sameNode hown) (by decide)

end Rune.Dataplane
