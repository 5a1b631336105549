import Mathlib.Data.List.Sort
import Rune.Core.Guard

/-!
# The three-way plan of a cast

A cast compares the resources it wants with the record of the previous revision
and with what is live. Resources are identified by the canonical key of their
reference throughout. The facts at the end say which resources a plan that can
be applied will own: the desired ones, except for the shared cluster kinds.
-/

namespace Rune.Cast

open Rune.Core

/-- The kinds of resources that a release is made of. -/
inductive ResourceType where
  | namespaceKind
  | storageClass
  | volume
  | configmap
  | secret
  | service
  | other (text : String)
  deriving DecidableEq

/-- The stored text of a kind. -/
def ResourceType.text : ResourceType → String
  | namespaceKind => "namespace"
  | storageClass => "storage_class"
  | volume => "volume"
  | configmap => "configmap"
  | secret => "secret"
  | service => "service"
  | other text => text

/-- A reference to a single resource. -/
structure OwnerRef where
  resourceType : ResourceType
  ns : String
  name : String
  deriving DecidableEq

/-- The canonical identity of a reference. -/
def OwnerRef.key (o : OwnerRef) : String := o.resourceType.text ++ "/" ++ o.ns ++ "/" ++ o.name

/-- The back-pointer stamped into an owned resource. -/
structure OwnedBy where
  release : String
  revision : ℕ
  manager : String
  deriving DecidableEq

/-- How a release stands. -/
inductive ReleaseStatus where
  | pending
  | deployed
  | failed
  | uninstalling
  | uninstalled
  deriving DecidableEq

/-- The stored record of a release. -/
structure Release where
  id : String
  name : String
  ns : String
  status : ReleaseStatus
  revision : ℕ
  owns : List OwnerRef
  references : List OwnerRef
  deriving DecidableEq

/-- The verb planned for a single resource. -/
inductive Action where
  | create
  | update
  | prune
  | adopt
  | reference
  deriving DecidableEq

/-- Why a planned change cannot be applied as it is. -/
structure Conflict where
  ownedBy : Option OwnedBy
  reason : String
  deriving DecidableEq

/-- What a plan does about a resource. -/
structure PlannedChange where
  ref : OwnerRef
  action : Action
  conflict : Option Conflict
  deriving DecidableEq

/-- The changes of a cast: desired resources in input order, then prunes. -/
structure Plan where
  release : String
  ns : String
  changes : List PlannedChange
  deriving DecidableEq

/-- The plan is free of unresolved conflicts. -/
def Plan.applyable (p : Plan) : Bool := p.changes.all fun c => c.conflict.isNone

/-- The plan deletes something. -/
def Plan.hasPrune (p : Plan) : Bool := p.changes.any fun c => c.action = .prune

/-- What a lookup reports of a live resource. -/
structure LiveState where
  exists? : Bool
  ownedBy : Option OwnedBy

/-- A lookup may fail with an error text. -/
abbrev LiveLookup := OwnerRef → Except String LiveState

/-- Kinds that are referenced and never owned. -/
def isSharedClusterKind : ResourceType → Bool
  | .storageClass => true
  | .namespaceKind => true
  | _ => false

/-- The conflict over a resource that exists and is not this release's. -/
def conflictOver (ownedBy : Option OwnedBy) : Conflict where
  ownedBy := ownedBy
  reason := match ownedBy with
    | none => "resource exists and is unmanaged; pass --adopt to take ownership"
    | some ob => "resource is owned by release \"" ++ ob.release ++
        "\"; pass --adopt to take ownership"

/-- The body of the planning loop: the change for one desired resource. -/
def planDesired (releaseName : String) (owned : List String) (live : LiveLookup) (adopt : Bool)
    (d : OwnerRef) : Except String PlannedChange :=
  if isSharedClusterKind d.resourceType then .ok ⟨d, .reference, none⟩
  else if d.key ∈ owned then .ok ⟨d, .update, none⟩
  else match live d with
    | .error e => .error e
    | .ok state =>
      if !state.exists? then .ok ⟨d, .create, none⟩
      else if state.ownedBy.any fun ob => ob.release = releaseName then .ok ⟨d, .update, none⟩
      else if adopt then .ok ⟨d, .adopt, none⟩
      else .ok ⟨d, .adopt, some (conflictOver state.ownedBy)⟩

/-- The planning loop, which stops at the first lookup that fails. -/
def planAll (releaseName : String) (owned : List String) (live : LiveLookup) (adopt : Bool) :
    List OwnerRef → Except String (List PlannedChange)
  | [] => .ok []
  | d :: ds => do
    let change ← planDesired releaseName owned live adopt d
    let changes ← planAll releaseName owned live adopt ds
    pure (change :: changes)

/-- The resources a record owns; none without a record. -/
def ownsOf (rel : Option Release) : List OwnerRef := (rel.map Release.owns).getD []

/-- The prunes: owned by the previous revision and no longer desired. -/
def planPrunes (current : Option Release) (desired : List OwnerRef) : List PlannedChange :=
  ((ownsOf current).filter fun ref => ref.key ∉ desired.map OwnerRef.key).map
    fun ref => ⟨ref, .prune, none⟩

/-- The three-way reconcile between the desired set, the record and live state. -/
def buildPlan (releaseName ns : String) (desired : List OwnerRef) (current : Option Release)
    (live : LiveLookup) (adopt : Bool) : Except String Plan := do
  let changes ← planAll releaseName ((ownsOf current).map OwnerRef.key) live adopt desired
  pure ⟨releaseName, ns, changes ++ planPrunes current desired⟩

/-- The change makes its resource one that the release owns. -/
def PlannedChange.owning (c : PlannedChange) : Bool :=
  match c.action with
  | .create | .update | .adopt => true
  | .reference | .prune => false

/-- The owned and the referenced resources of a plan. -/
def partitionOwnership (p : Plan) : List OwnerRef × List OwnerRef :=
  ((p.changes.filter PlannedChange.owning).map PlannedChange.ref,
    (p.changes.filter fun c => c.action = .reference).map PlannedChange.ref)

/-- The dependency rank of a kind; lower ranks are applied earlier. -/
def applyRank : ResourceType → ℕ
  | .namespaceKind => 0
  | .storageClass => 1
  | .volume => 2
  | .configmap => 3
  | .secret => 4
  | .service => 5
  | .other _ => 6

/-- The comparison of two changes by rank in the given order, then by key. -/
def changeLess (rankLess : ℕ → ℕ → Bool) (a b : PlannedChange) : Bool :=
  if applyRank a.ref.resourceType ≠ applyRank b.ref.resourceType then
    rankLess (applyRank a.ref.resourceType) (applyRank b.ref.resourceType)
  else a.ref.key < b.ref.key

/-- Applies in dependency order and prunes in the reverse of it. -/
def splitForExecution (p : Plan) : List PlannedChange × List PlannedChange :=
  ((p.changes.filter fun c => c.action ≠ .prune).insertionSort
      fun a b => changeLess (fun x y => x < y) b a = false,
    (p.changes.filter fun c => c.action = .prune).insertionSort
      fun a b => changeLess (fun x y => y < x) b a = false)

section Facts

variable {releaseName ns : String} {owned : List String} {live : LiveLookup} {adopt : Bool}

/-- A desired resource is planned under its own reference, and to be owned
unless its kind is shared; it is never pruned. -/
theorem planDesired_spec {d : OwnerRef} {c : PlannedChange}
    (h : planDesired releaseName owned live adopt d = .ok c) :
    c.ref = d ∧ c.owning = !isSharedClusterKind d.resourceType ∧ c.action ≠ .prune := by
  unfold planDesired at h
  by_cases hshared : isSharedClusterKind d.resourceType
  · rw [if_pos hshared] at h
    cases h
    simp [PlannedChange.owning, hshared]
  rw [if_neg hshared] at h
  by_cases howned : d.key ∈ owned
  · rw [if_pos howned] at h
    cases h
    simp [PlannedChange.owning, hshared]
  rw [if_neg howned] at h
  rcases hlive : live d with e | state
  · simp [hlive] at h
  · rw [hlive] at h
    simp only at h
    split_ifs at h <;> cases h <;> simp [PlannedChange.owning, hshared]

variable {cs : List PlannedChange} {ds : List OwnerRef}

theorem planAll_spec (h : planAll releaseName owned live adopt ds = .ok cs) :
    (cs.filter PlannedChange.owning).map PlannedChange.ref =
        ds.filter (fun d => !isSharedClusterKind d.resourceType) ∧
      ∀ c ∈ cs, c.action ≠ .prune := by
  induction ds generalizing cs with
  | nil =>
    cases h
    exact ⟨rfl, fun _ hc => absurd hc List.not_mem_nil⟩
  | cons d ds ih =>
    obtain ⟨c, hc, h⟩ := bind_eq_ok h
    obtain ⟨rest, hrest, h⟩ := bind_eq_ok h
    cases h
    obtain ⟨href, howning, hprune⟩ := planDesired_spec hc
    obtain ⟨hmap, hall⟩ := ih hrest
    refine ⟨?_, ?_⟩
    · cases hs : isSharedClusterKind d.resourceType <;>
        simp [howning, hs, href, hmap]
    · rintro x hx
      rcases List.mem_cons.mp hx with rfl | hx
      · exact hprune
      · exact hall x hx

/-- The planned changes are those of the desired resources. -/
theorem mem_planAll (h : planAll releaseName owned live adopt ds = .ok cs) (c : PlannedChange) :
    c ∈ cs ↔ ∃ d ∈ ds, planDesired releaseName owned live adopt d = .ok c := by
  induction ds generalizing cs with
  | nil =>
    cases h
    simp
  | cons d ds ih =>
    obtain ⟨c', hc', h⟩ := bind_eq_ok h
    obtain ⟨rest, hrest, h⟩ := bind_eq_ok h
    cases h
    simp [ih hrest, hc', eq_comm]

/-- The planned changes are in the order of the desired resources. -/
theorem planAll_refs (h : planAll releaseName owned live adopt ds = .ok cs) :
    cs.map PlannedChange.ref = ds := by
  induction ds generalizing cs with
  | nil =>
    cases h
    rfl
  | cons d ds ih =>
    obtain ⟨c, hc, h⟩ := bind_eq_ok h
    obtain ⟨rest, hrest, h⟩ := bind_eq_ok h
    cases h
    simp [(planDesired_spec hc).1, ih hrest]

/-- Planning fails only where a lookup does. -/
theorem planAll_isOk (h : ∀ d, ∃ c, planDesired releaseName owned live adopt d = .ok c) :
    ∃ cs, planAll releaseName owned live adopt ds = .ok cs := by
  induction ds with
  | nil => exact ⟨[], rfl⟩
  | cons d ds ih =>
    obtain ⟨c, hc⟩ := h d
    obtain ⟨cs, hcs⟩ := ih
    exact ⟨c :: cs, by simp [planAll, hc, hcs, bind, Except.bind, pure, Except.pure]⟩

/-- A plan owns the desired resources whose kind is not shared. -/
theorem partitionOwnership_buildPlan {want : List OwnerRef} {current : Option Release} {p : Plan}
    (h : buildPlan releaseName ns want current live adopt = .ok p) :
    (partitionOwnership p).1 = want.filter fun d => !isSharedClusterKind d.resourceType := by
  obtain ⟨cs, hcs, h⟩ := bind_eq_ok h
  cases h
  have hprunes : (planPrunes current want).filter PlannedChange.owning = [] := by
    refine List.filter_eq_nil_iff.mpr fun c hc => ?_
    obtain ⟨ref, _, rfl⟩ := List.mem_map.mp hc
    simp [PlannedChange.owning]
  rw [partitionOwnership, List.filter_append, hprunes, List.append_nil, (planAll_spec hcs).1]

/-- The changes applied are those of the plan that are not prunes. -/
theorem mem_applies {p : Plan} {c : PlannedChange} :
    c ∈ (splitForExecution p).1 ↔ c ∈ p.changes ∧ c.action ≠ .prune := by
  simp [splitForExecution]

/-- The changes pruned are the prunes of the plan. -/
theorem mem_prunes {p : Plan} {c : PlannedChange} :
    c ∈ (splitForExecution p).2 ↔ c ∈ p.changes ∧ c.action = .prune := by
  simp [splitForExecution]

end Facts

end Rune.Cast
