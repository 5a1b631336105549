import Rune.Models.Cast.Casting

/-!
# Generations of the services that casts write

A cast replaces a service record when it applies the rendered service, reverts to
the pre-image, or recreates a service it had torn down. A controller notices a
change by the generation alone, and an instance is replaced only when its generation
falls behind the template's. The revert decides whether to move the counters before
it puts the discovery block back, so it can miss a change of that block.
-/

namespace Rune.Cast

open Rune.Core
open Rune.Services

/-- The writes of a cast that replace a service record. A service is recreated
from the record that the prune of this cast found. -/
inductive ServiceWrite where
  | apply (key : String) (rendered : Service)
  | revert (preImage : Service) (pruned : Bool)
  | recreate (fresh : Uuid)

/-- The record that a write puts in the place of the old one. -/
def ServiceWrite.write (old : Service) : ServiceWrite → Except String Service
  | apply key rendered => appliedService key rendered old
  | revert preImage pruned => revertedService preImage old pruned
  | recreate fresh =>
    .ok (recreatedService fresh old { image := some (.service old), pruned := true })

/-- The counters tell about the write: a change of the hash raises the generation, and the
template's generation is put above every instance's exactly by a change of the template. -/
structure MovesGenerations (old new : Service) (instances : List ℤ) : Prop where
  generation : old.calculateHash ≠ new.calculateHash →
    old.metadata.generation < new.metadata.generation
  template : old.calculateTemplateHash ≠ new.calculateTemplateHash →
    ∀ g ∈ instances, g < new.metadata.templateGeneration
  kept : old.calculateTemplateHash = new.calculateTemplateHash →
    new.metadata.templateGeneration = old.metadata.templateGeneration

/-- No instance is ahead of the record that a changed template replaces. A block to restore that
differs from the live one only in what it leaves out is lost in the merge. A record that is
recreated has a counter. -/
def ServiceWrite.Noticed (old : Service) (instances : List ℤ) : ServiceWrite → Prop
  | apply _ rendered =>
    old.calculateTemplateHash ≠ rendered.calculateTemplateHash →
      ∀ g ∈ instances, g ≤ old.metadata.generation
  | revert preImage _ =>
    (old.calculateTemplateHash ≠ preImage.calculateTemplateHash →
      ∀ g ∈ instances, g ≤ old.metadata.generation) ∧
    (old.spec.calculateHash none = preImage.spec.calculateHash none →
      discoveryWithoutVIP old.discovery =
        discoveryWithoutVIP (mergeServiceDiscovery old.discovery preImage.discovery) →
      discoveryWithoutVIP old.discovery = discoveryWithoutVIP preImage.discovery)
  | recreate _ => 0 < old.metadata.templateGeneration

section Writes

variable {old new rendered preImage : Service} {instances : List ℤ} {fresh : Uuid}

/-- The counters after the server's state has been carried over. -/
theorem carried_counters (h : carryServerState old rendered = .ok new) :
    new.metadata.generation =
        (if old.calculateHash ≠ new.calculateHash then old.metadata.generation + 1
          else old.metadata.generation) ∧
      new.metadata.templateGeneration =
        (if old.calculateTemplateHash ≠ rendered.calculateTemplateHash then
          old.metadata.generation + 1 else old.metadata.templateGeneration) := by
  obtain ⟨hmax, rfl⟩ := carryServerState_eq_ok.mp h
  have htemplate : old.calculateTemplateHash ≠ rendered.calculateTemplateHash →
      old.calculateHash ≠ (carriedFields old rendered).calculateHash :=
    fun hne heq => hne (calculateTemplateHash_eq heq)
  refine ⟨?_, ?_⟩
  · simp only [carriedMetadata, increment_of_ne hmax]
    rfl
  · have hcarried : (carriedFields old rendered).calculateTemplateHash =
        rendered.calculateTemplateHash := rfl
    simp only [carriedMetadata, increment_of_ne hmax, hcarried]
    by_cases hne : old.calculateTemplateHash = rendered.calculateTemplateHash
    · simp [hne]
    · simp [hne, htemplate hne]

/-- An apply moves the counters, unless an instance is ahead of the record. -/
theorem apply_moves_iff (h : carryServerState old rendered = .ok new) :
    MovesGenerations old new instances ↔
      (old.calculateTemplateHash ≠ rendered.calculateTemplateHash →
        ∀ g ∈ instances, g ≤ old.metadata.generation) := by
  obtain ⟨hgen, htg⟩ := carried_counters h
  have hsame : new.calculateTemplateHash = rendered.calculateTemplateHash := by
    obtain ⟨-, rfl⟩ := carryServerState_eq_ok.mp h
    rfl
  constructor
  · intro hmoves hne g hg
    have hlt := hmoves.template (by rwa [hsame]) g hg
    rw [htg, if_pos hne] at hlt
    omega
  · intro hbound
    refine ⟨fun hne => ?_, fun hne g hg => ?_, fun heq => ?_⟩
    · rw [hgen, if_pos hne]
      omega
    · rw [hsame] at hne
      rw [htg, if_pos hne]
      have hle := hbound hne g hg
      omega
    · rw [hsame] at heq
      rw [htg, if_neg (not_not.mpr heq)]

/-- A revert stores the counters that the merged record got. -/
theorem reverted_fields {pruned : Bool} (h : revertedService preImage old pruned = .ok new) :
    ∃ carried, carryServerState old preImage = .ok carried ∧
      new.metadata.generation = carried.metadata.generation ∧
      new.metadata.templateGeneration = carried.metadata.templateGeneration ∧
      new.spec = preImage.spec ∧
      new.discovery = restoreDiscovery preImage.discovery (vipOf old.discovery) := by
  obtain ⟨carried, hcarry, h⟩ := bind_eq_ok h
  refine ⟨carried, hcarry, ?_⟩
  obtain ⟨-, rfl⟩ := carryServerState_eq_ok.mp hcarry
  cases pruned <;> cases h <;> exact ⟨rfl, rfl, rfl, rfl⟩

/-- A revert moves the counters under the same condition, if it sees the discovery
block that it restores. -/
theorem revert_moves_iff {pruned : Bool} (h : revertedService preImage old pruned = .ok new) :
    MovesGenerations old new instances ↔
      (ServiceWrite.revert preImage pruned).Noticed old instances := by
  obtain ⟨carried, hcarry, hgen, htg, hspec, hdisc⟩ := reverted_fields h
  have htemplate : new.calculateTemplateHash = carried.calculateTemplateHash := by
    obtain ⟨-, rfl⟩ := carryServerState_eq_ok.mp hcarry
    simp only [Service.calculateTemplateHash, hspec]
    rfl
  have hmerged : old.calculateHash = carried.calculateHash ↔
      old.spec.calculateHash none = preImage.spec.calculateHash none ∧
        discoveryWithoutVIP old.discovery =
          discoveryWithoutVIP (mergeServiceDiscovery old.discovery preImage.discovery) := by
    obtain ⟨-, rfl⟩ := carryServerState_eq_ok.mp hcarry
    exact calculateHash_eq_iff
  have hstored : old.calculateHash = new.calculateHash ↔
      old.spec.calculateHash none = preImage.spec.calculateHash none ∧
        discoveryWithoutVIP old.discovery = discoveryWithoutVIP preImage.discovery := by
    rw [Service.calculateHash, Service.calculateHash, hspec, hdisc, calculateHash_eq_iff,
      discoveryWithoutVIP_restoreDiscovery]
  have hmoves : (old.calculateHash ≠ new.calculateHash →
        old.metadata.generation < new.metadata.generation) ↔
      (old.calculateHash = carried.calculateHash → old.calculateHash = new.calculateHash) := by
    rw [hgen, (carried_counters hcarry).1]
    by_cases hsame : old.calculateHash = carried.calculateHash
    · simp [hsame]
    · refine iff_of_true (fun _ => ?_) fun heq => absurd heq hsame
      rw [if_pos hsame]
      exact Int.lt_succ _
  have happly := @apply_moves_iff old carried preImage instances hcarry
  constructor
  · intro hm
    refine ⟨happly.mp ⟨fun hne => ?_, ?_, ?_⟩, fun hsame hblock => ?_⟩
    · rw [(carried_counters hcarry).1, if_pos hne]
      omega
    · simpa only [htemplate, htg] using hm.template
    · simpa only [htemplate, htg] using hm.kept
    · exact (hstored.mp (hmoves.mp hm.generation (hmerged.mpr ⟨hsame, hblock⟩))).2
  · rintro ⟨hbound, hseen⟩
    have hm := happly.mpr hbound
    refine ⟨hmoves.mpr fun heq => ?_, ?_, ?_⟩
    · obtain ⟨hsame, hblock⟩ := hmerged.mp heq
      exact hstored.mpr ⟨hsame, hseen hsame hblock⟩
    · simpa only [htemplate, htg] using hm.template
    · simpa only [htemplate, htg] using hm.kept

/-- A service that is recreated has the hash it had. -/
theorem recreated_hash (pi : PreImage) :
    (recreatedService fresh old pi).calculateHash = old.calculateHash := by
  have hblock : discoveryWithoutVIP (old.discovery.map fun d => { d with vip := "" }) =
      discoveryWithoutVIP old.discovery := by
    cases old.discovery <;> rfl
  exact calculateHash_eq_iff.mpr ⟨rfl, hblock⟩

/-- A service that is recreated keeps the counter of its template, if it had one. -/
theorem recreate_moves_iff
    (h : (ServiceWrite.recreate fresh).write old = .ok new) :
    MovesGenerations old new instances ↔ 0 < old.metadata.templateGeneration := by
  cases h
  set new := recreatedService fresh old { image := some (.service old), pruned := true } with hnew
  have hhash : old.calculateHash = new.calculateHash := (recreated_hash _).symm
  have htemplate : old.calculateTemplateHash = new.calculateTemplateHash :=
    calculateTemplateHash_eq hhash
  have htg : new.metadata.templateGeneration = old.metadata.templateGeneration ↔
      0 < old.metadata.templateGeneration := by
    simp only [hnew, recreatedService, seedMetadata, maxInt64]
    split_ifs <;> omega
  rw [← htg]
  exact ⟨fun hm => hm.kept htemplate,
    fun hkept => ⟨fun hne => absurd hhash hne, fun hne => absurd htemplate hne, fun _ => hkept⟩⟩

/-- A write of a cast moves the counters of a service exactly where it is noticed. -/
theorem ServiceWrite.movesGenerations_iff {write : ServiceWrite} (h : write.write old = .ok new) :
    MovesGenerations old new instances ↔ write.Noticed old instances := by
  cases write with
  | apply key rendered => exact apply_moves_iff (appliedService_eq_ok h).2
  | revert preImage pruned => exact revert_moves_iff h
  | recreate fresh => exact recreate_moves_iff h

variable {a : Applier} {key : String} {f : Fault} {pi : PreImage}

/-- A write over a record leaves the record, or what the call arrived at. -/
theorem commit_service_cases {x : Except String Service}
    (h : (commit f (some (.service old)) (x.map .service)).1 = some (.service new)) :
    new = old ∨ x = .ok new := by
  rcases commit_row f (some (.service old)) (x.map .service) with hrow | ⟨r, hr, hrow⟩
  · rw [hrow] at h
    cases h
    exact Or.inl rfl
  · obtain ⟨s, hs, rfl⟩ := map_eq_ok hr
    rw [hrow] at h
    cases h
    exact Or.inr hs

/-- An apply over a record is an apply write. -/
theorem applyService_writes
    (h : (applyService a key f (some (.service old))).row = some (.service new)) :
    new = old ∨ ∃ rendered, (ServiceWrite.apply key rendered).write old = .ok new := by
  simp only [applyService, Option.bind_some, Row.service?] at h
  split at h
  · cases h
    exact Or.inl rfl
  rename_i svc _
  split_ifs at h
  · cases h
    exact Or.inl rfl
  rcases hnext : appliedService key (stampedService a.stamp svc) old with e | next
  · simp only [hnext] at h
    cases h
    exact Or.inl rfl
  · simp only [hnext] at h
    have hrow : (commit f (some (.service old))
        ((Except.ok next : Except String Service).map .service)).1 = some (.service new) := by
      split at h <;> exact h
    refine (commit_service_cases hrow).imp id fun hok => ⟨stampedService a.stamp svc, ?_⟩
    rw [ServiceWrite.write, hnext, hok]

/-- A revert over a record is a revert write. -/
theorem revertService_writes (himage : pi.image = some (.service preImage))
    (h : (revertService fresh pi f (some (.service old))).1 = some (.service new)) :
    new = old ∨ (ServiceWrite.revert preImage pi.pruned).write old = .ok new := by
  simp only [revertService, himage, Row.service?, Option.bind_some] at h
  split_ifs at h
  · cases h
    exact Or.inl rfl
  · exact commit_service_cases h

/-- A revert of a prune whose teardown has completed is a recreate write. -/
theorem revertService_recreates
    (hprune : remember none (pruneService .none (some (.service old))) = some pi)
    (h : (revertService fresh pi f none).1 = some (.service new)) :
    (ServiceWrite.recreate fresh).write old = .ok new := by
  have hpi : pi.image = some (.service old) ∧ pi.appliedGeneration = 0 ∧
      pi.appliedTemplateGeneration = 0 := by
    cases hprune
    exact ⟨rfl, rfl, rfl⟩
  simp only [revertService, hpi.1, Row.service?, Option.bind_none] at h
  split_ifs at h
  rcases commit_row f none (unlessTaken none
    (.ok (.service (recreatedService fresh old pi)))) with hrow | ⟨r, hr, hrow⟩
  · rw [hrow] at h
    cases h
  · rw [hrow] at h
    cases h
    cases (unlessTaken_eq_ok hr).1
    simp only [ServiceWrite.write, recreatedService, hpi.2.1, hpi.2.2]

end Writes

/-- A service with one replica, as it is stored. -/
def storedWeb : Service where
  id := "svc"
  ns := "prod"
  name := "web"
  spec := { image := "web:1", scale := 1 }
  status := .running
  metadata := { generation := 1, templateGeneration := 1, observedGeneration := 1 }

/-- The next revision of the service changes the image. -/
theorem movesGenerations_of_new_image :
    ∃ new, (ServiceWrite.apply "service/prod/web"
        { storedWeb with spec := { image := "web:2", scale := 1 } }).write storedWeb = .ok new ∧
      MovesGenerations storedWeb new [1] := by
  refine ⟨_, rfl, ?_⟩
  exact (@ServiceWrite.movesGenerations_iff storedWeb _ [1] (.apply "service/prod/web"
    { storedWeb with spec := { image := "web:2", scale := 1 } }) rfl).mpr fun _ => by decide

/-- A cast that only adds a discovery mode is reverted. The record goes back to
the mode it had, and its generation stays. -/
theorem reverted_discovery_unnoticed :
    ∃ new, (ServiceWrite.revert storedWeb false).write
        { storedWeb with discovery := some { mode := "headless" } } = .ok new ∧
      ¬ MovesGenerations { storedWeb with discovery := some { mode := "headless" } } new [] := by
  refine ⟨_, rfl, fun h => ?_⟩
  have hmoved := h.generation (by decide)
  revert hmoved
  decide

end Rune.Cast
