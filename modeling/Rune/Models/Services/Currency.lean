import Rune.Core.Run
import Rune.Models.Services.Writers

/-!
# Instances that count as current

An instance is stamped with the template generation of the service it was built
from, and counts as current while the stored template generation is not above its
stamp. Under writers that change the record in one transaction a template generation
is handed out for one template only. An update request that stores what it made of
an old copy may hand out a number that is taken, unless the record still has the
generation that it read.
-/

namespace Rune.Services

open Rune.Core

/-- An instance: the stamps it has had, newest first, and the hash of the template
it was built from. -/
structure Built where
  stamps : List ℤ
  template : ServiceTemplate

/-- The last stamp. -/
def Built.serviceGeneration (i : Built) : ℤ := i.stamps.headD 0

/-- By its stamp the instance runs an older template than that of the service. -/
def isOutdated (stamp : ℤ) (s : Service) : Bool :=
  if stamp ≠ 0 then stamp < s.metadata.templateGeneration else 0 < s.metadata.templateGeneration

/-- Build an instance from the record. -/
def createInstance (s : Service) : Built where
  stamps := [s.metadata.templateGeneration]
  template := s.calculateTemplateHash

/-- Update an instance in place, going by one copy of it and one of the service. It has to be
running and fit the service in all else; `synced` says whether another field had to be brought up
to date. -/
def Built.updateInstance (i : Built) (copy : ℤ) (s : Service) (fits synced : Bool) : Built :=
  if !fits || isOutdated copy s then i
  else if copy ≠ s.metadata.templateGeneration ∨ synced = true then
    { i with stamps := s.metadata.templateGeneration :: i.stamps }
  else i

/-- The stored record, all copies of it that have been read, and the instances. -/
structure Board where
  service : Service
  copies : List Service := []
  instances : List Built := []

/-- What can happen. -/
inductive Action
  /-- Someone reads the record. -/
  | read
  /-- An update request lands that has read the given copy. -/
  | updateService (copy : ℕ) (request : UpdateRequest)
  | restartService
  | executeImmediateScaling (target : ℤ)
  | processScalingStep (op : ScalingOperation) (copy : ℕ)
  /-- A release applies a rendered service. -/
  | apply (key : String) (rendered : Service)
  | createInstance (copy : ℕ)
  | updateInstance (inst stamp copy : ℕ) (fits synced : Bool)

namespace Board

/-- A transaction that may refuse. -/
def transact (b : Board) (r : Except String Service) : Board :=
  match r with
  | .ok s => { b with service := s }
  | .error _ => b

/-- One step, if it is possible. -/
def step (b : Board) : Action → Option Board
  | .read => some { b with copies := b.copies ++ [b.service] }
  | .updateService copy request =>
    b.copies[copy]?.map fun seen => { b with service := request.updateService seen }
  | .restartService => some (b.transact (Services.restartService b.service))
  | .executeImmediateScaling target =>
    some { b with service := Services.executeImmediateScaling target b.service }
  | .processScalingStep op copy =>
    b.copies[copy]?.map fun seen =>
      { b with service := Services.processScalingStep op seen b.service }
  | .apply key rendered => some (b.transact (Cast.appliedService key rendered b.service))
  | .createInstance copy =>
    b.copies[copy]?.map fun seen =>
      { b with instances := b.instances ++ [Services.createInstance seen] }
  | .updateInstance inst stamp copy fits synced => do
    let i ← b.instances[inst]?
    let old ← i.stamps[stamp]?
    let seen ← b.copies[copy]?
    return { b with instances := b.instances.set inst (i.updateInstance old seen fits synced) }

/-- Every instance that counts as current was built from the stored template. -/
def Current (b : Board) : Prop :=
  ∀ i ∈ b.instances, b.service.metadata.templateGeneration ≤ i.serviceGeneration →
    i.template = b.service.calculateTemplateHash

/-- An update request finds the generation that it read, and the counter of a record
that is about to move is not exhausted. -/
def Undisturbed (b : Board) : Action → Prop
  | .updateService copy _ => b.service.metadata.generation ≠ maxInt64 ∧
      ∀ seen ∈ b.copies[copy]?, seen.metadata.generation = b.service.metadata.generation
  | .restartService | .executeImmediateScaling _ | .processScalingStep _ _ =>
    b.service.metadata.generation ≠ maxInt64
  | .read | .apply _ _ | .createInstance _ | .updateInstance _ _ _ _ _ => True

instance (b : Board) (a : Action) : Decidable (b.Undisturbed a) := by
  cases a <;> unfold Undisturbed <;> infer_instance

/-- A copy tells the past: its counters are not ahead of the record, and what it says
with the same counters the record still says. -/
structure Precedes (old s : Service) : Prop where
  ordered : old.metadata.templateGeneration ≤ old.metadata.generation
  generation : old.metadata.generation ≤ s.metadata.generation
  unmoved : old.metadata.generation = s.metadata.generation →
    old.metadata.templateGeneration = s.metadata.templateGeneration ∧
      old.calculateTemplateHash = s.calculateTemplateHash
  template : s.metadata.templateGeneration ≤ old.metadata.templateGeneration →
    old.calculateTemplateHash = s.calculateTemplateHash

theorem Precedes.refl {s : Service}
    (h : s.metadata.templateGeneration ≤ s.metadata.generation) : Precedes s s :=
  ⟨h, le_rfl, fun _ => ⟨rfl, rfl⟩, fun _ => rfl⟩

theorem Precedes.advance {old s new : Service} (h : Precedes old s) (ha : Advances s new) :
    Precedes old new := by
  have hord := h.ordered
  have hgen := h.generation
  rcases ha with ⟨hg, ht, hs⟩ | ⟨hg, ht, hs⟩ | ⟨hg, ht⟩
  · exact ⟨hord, hg ▸ hgen, fun he => by rw [ht, hs]; exact h.unmoved (he.trans hg),
      fun hle => by rw [hs]; exact h.template (ht ▸ hle)⟩
  · exact ⟨hord, by omega, fun he => by omega, fun hle => by rw [hs]; exact h.template (ht ▸ hle)⟩
  · exact ⟨hord, by omega, fun he => by omega, fun hle => by omega⟩

theorem ordered_of_advances {s new : Service}
    (h : s.metadata.templateGeneration ≤ s.metadata.generation) (ha : Advances s new) :
    new.metadata.templateGeneration ≤ new.metadata.generation := by
  rcases ha with ⟨hg, ht, -⟩ | ⟨hg, ht, -⟩ | ⟨hg, ht⟩ <;> omega

/-- Every copy precedes the record, and every instance was built from a copy whose
template generation none of its stamps exceeds. -/
structure Sound (b : Board) : Prop where
  ordered : b.service.metadata.templateGeneration ≤ b.service.metadata.generation
  copies : ∀ c ∈ b.copies, Precedes c b.service
  instances : ∀ i ∈ b.instances, ∃ c ∈ b.copies, i.template = c.calculateTemplateHash ∧
    ∀ g ∈ i.stamps, g ≤ c.metadata.templateGeneration
  stamped : ∀ i ∈ b.instances, i.stamps ≠ []

variable {b c : Board}

/-- What soundness gives. -/
theorem Sound.current (h : b.Sound) : b.Current := by
  intro i hi hle
  obtain ⟨c, hc, ht, hstamps⟩ := h.instances i hi
  have hhead : i.serviceGeneration ∈ i.stamps := by
    cases hs : i.stamps with
    | nil => exact absurd hs (h.stamped i hi)
    | cons g gs => simp [Built.serviceGeneration, hs]
  rw [ht]
  exact (h.copies c hc).template (hle.trans (hstamps _ hhead))

/-- What a request makes of a copy with the stored generation advances the record. -/
theorem Precedes.advances {old s : Service} (h : Precedes old s)
    (hg : old.metadata.generation = s.metadata.generation) {new : Service}
    (ha : Advances old new) : Advances s new := by
  obtain ⟨ht, hs⟩ := h.unmoved hg
  rcases ha with ⟨hg', ht', hs'⟩ | ⟨hg', ht', hs'⟩ | ⟨hg', ht'⟩
  · exact .kept (hg'.trans hg) (ht'.trans ht) (hs'.trans hs)
  · exact .moved (hg'.trans (by rw [hg])) (ht'.trans ht) (hs'.trans hs)
  · exact .stamped (hg'.trans (by rw [hg])) (ht'.trans (by rw [hg]))

/-- An in-place update never raises a stamp. -/
theorem stamps_updateInstance {i : Built} {copy : ℤ} {s : Service} {fits synced : Bool} {g : ℤ}
    (hcopy : copy ∈ i.stamps) (hg : g ∈ (i.updateInstance copy s fits synced).stamps) :
    ∃ g' ∈ i.stamps, g ≤ g' := by
  unfold Built.updateInstance at hg
  split_ifs at hg with hskip hwrite
  · exact ⟨g, hg, le_rfl⟩
  · rcases List.mem_cons.mp hg with rfl | hg
    · refine ⟨copy, hcopy, ?_⟩
      have hcur : isOutdated copy s = false := by
        cases ho : isOutdated copy s with
        | false => rfl
        | true => simp [ho] at hskip
      unfold isOutdated at hcur
      split at hcur
      · simpa using hcur
      · simp_all
    · exact ⟨g, hg, le_rfl⟩
  · exact ⟨g, hg, le_rfl⟩

theorem template_updateInstance (i : Built) (copy : ℤ) (s : Service) (fits synced : Bool) :
    (i.updateInstance copy s fits synced).template = i.template := by
  unfold Built.updateInstance
  split_ifs <;> rfl

theorem stamps_updateInstance_ne_nil {i : Built} (h : i.stamps ≠ []) (copy : ℤ) (s : Service)
    (fits synced : Bool) : (i.updateInstance copy s fits synced).stamps ≠ [] := by
  unfold Built.updateInstance
  split_ifs
  · exact h
  · exact List.cons_ne_nil _ _
  · exact h

/-- What a step does to the board: it writes the record, copies it, adds an instance
built from a copy, or updates one in place. -/
inductive Moves (b : Board) : Board → Prop
  | write {s : Service} (h : Advances b.service s) : Moves b { b with service := s }
  | read : Moves b { b with copies := b.copies ++ [b.service] }
  | create {seen : Service} (h : seen ∈ b.copies) :
      Moves b { b with instances := b.instances ++ [Services.createInstance seen] }
  | update {inst : ℕ} {i : Built} {old : ℤ} (hi : i ∈ b.instances) (hold : old ∈ i.stamps)
      (seen : Service) (fits synced : Bool) :
      Moves b { b with
        instances := b.instances.set inst (i.updateInstance old seen fits synced) }

/-- A transaction that refuses writes the record back as it is. -/
theorem Moves.transact {r : Except String Service} (h : ∀ s, r = .ok s → Advances b.service s) :
    Moves b (b.transact r) := by
  cases r with
  | ok s => exact .write (h s rfl)
  | error e => exact .write (.refl b.service)

/-- Every undisturbed step is a move. -/
theorem moves_of_step (h : b.Sound) {a : Action} (hc : b.Undisturbed a)
    (hs : b.step a = some c) : Moves b c := by
  cases a with
  | read =>
    cases hs
    exact .read
  | updateService copy request =>
    obtain ⟨seen, hseen, rfl⟩ := Option.map_eq_some_iff.mp hs
    have hgen := hc.2 seen hseen
    exact .write ((h.copies seen (List.mem_of_getElem? hseen)).advances hgen
      (advances_updateService request (hgen ▸ hc.1)))
  | restartService =>
    cases hs
    exact .transact fun s hr => advances_restartService hc hr
  | executeImmediateScaling target =>
    cases hs
    exact .write (advances_executeImmediateScaling target hc)
  | processScalingStep op copy =>
    obtain ⟨seen, -, rfl⟩ := Option.map_eq_some_iff.mp hs
    exact .write (advances_processScalingStep op seen hc)
  | apply key rendered =>
    cases hs
    refine .transact fun s hr => ?_
    obtain ⟨-, -, hcarry⟩ := bind_eq_ok hr
    exact advances_carryServerState hcarry
  | createInstance copy =>
    obtain ⟨seen, hseen, rfl⟩ := Option.map_eq_some_iff.mp hs
    exact .create (List.mem_of_getElem? hseen)
  | updateInstance inst stamp copy fits synced =>
    simp only [Board.step, Option.bind_eq_bind, Option.bind_eq_some_iff] at hs
    obtain ⟨i, hi, old, hold, seen, -, hs⟩ := hs
    cases hs
    exact .update (List.mem_of_getElem? hi) (List.mem_of_getElem? hold) seen fits synced

theorem Moves.generation_le (h : Moves b c) :
    b.service.metadata.generation ≤ c.service.metadata.generation := by
  cases h with
  | write ha => exact ha.generation_le
  | _ => exact le_rfl

/-- One move. -/
theorem Sound.moves (h : b.Sound) (hm : Moves b c) : c.Sound := by
  cases hm with
  | write ha =>
    exact ⟨ordered_of_advances h.ordered ha, fun c hc => (h.copies c hc).advance ha, h.instances,
      h.stamped⟩
  | read =>
    refine ⟨h.ordered, fun c hc => ?_, fun i hi => ?_, h.stamped⟩
    · rcases List.mem_append.mp hc with hc | hc
      · exact h.copies c hc
      · obtain rfl := List.mem_singleton.mp hc
        exact .refl h.ordered
    · obtain ⟨c, hc, hrest⟩ := h.instances i hi
      exact ⟨c, List.mem_append_left _ hc, hrest⟩
  | @create seen hseen =>
    refine ⟨h.ordered, h.copies, fun i hi => ?_, fun i hi => ?_⟩
    · rcases List.mem_append.mp hi with hi | hi
      · exact h.instances i hi
      · obtain rfl := List.mem_singleton.mp hi
        exact ⟨seen, hseen, rfl, fun g hg => le_of_eq (List.mem_singleton.mp hg)⟩
    · rcases List.mem_append.mp hi with hi | hi
      · exact h.stamped i hi
      · obtain rfl := List.mem_singleton.mp hi
        exact List.cons_ne_nil _ _
  | @update _ i old hi hold seen fits synced =>
    refine ⟨h.ordered, h.copies, fun j hj => ?_, fun j hj => ?_⟩
    · rcases List.mem_or_eq_of_mem_set hj with hj | rfl
      · exact h.instances j hj
      · obtain ⟨c, hc, ht, hstamps⟩ := h.instances i hi
        refine ⟨c, hc, (template_updateInstance i old seen fits synced).trans ht, fun g hg => ?_⟩
        obtain ⟨g', hg', hle⟩ := stamps_updateInstance hold hg
        exact hle.trans (hstamps g' hg')
    · rcases List.mem_or_eq_of_mem_set hj with hj | rfl
      · exact h.stamped j hj
      · exact stamps_updateInstance_ne_nil (h.stamped i hi) old seen fits synced

/-- In every run in which no update request lands on a record that has moved on since it was read,
current instances run the current template and generations never decrease. -/
theorem current_along_run {s : Service}
    (hs : s.metadata.templateGeneration ≤ s.metadata.generation) {first rest : List Action}
    (hc : Along step Undisturbed { service := s } (first ++ rest))
    (hfirst : exec step { service := s } first = some b) (hrest : exec step b rest = some c) :
    b.service.metadata.generation ≤ c.service.metadata.generation ∧ c.Current := by
  obtain ⟨hcfirst, hcrest⟩ := hc.split hfirst
  have hstart : Sound { service := s } :=
    ⟨hs, fun _ h => (nomatch h), fun _ h => (nomatch h), fun _ h => (nomatch h)⟩
  have hb : b.Sound := exec_invariant_along
    (fun _ _ _ h hcond hst => Sound.moves h (moves_of_step h hcond hst)) hstart hcfirst hfirst
  have hstep : ∀ (d : Board) (a : Action) (e : Board),
      d.Sound ∧ b.service.metadata.generation ≤ d.service.metadata.generation →
        d.Undisturbed a → d.step a = some e →
          e.Sound ∧ b.service.metadata.generation ≤ e.service.metadata.generation := by
    intro d a e h hcond hst
    have hm := moves_of_step h.1 hcond hst
    exact ⟨h.1.moves hm, h.2.trans hm.generation_le⟩
  obtain ⟨hsound, hle⟩ := exec_invariant_along hstep ⟨hb, le_rfl⟩ hcrest hrest
  exact ⟨hle, hsound.current⟩

end Board

/-- A service as it is stored. -/
def storedApi : Service where
  id := "svc"
  ns := "prod"
  name := "api"
  spec := { image := "api:1", scale := 1 }
  status := .running
  metadata := { generation := 1, templateGeneration := 1, observedGeneration := 1 }

/-- A request for another image. -/
def imageRequest (image : String) : UpdateRequest where
  payload := { storedApi with spec := { image := image, scale := 1 } }
  force := false
  vip := none

/-- Two requests, the second of which reads what the first one stored. -/
def sequentialUpdates : List Action :=
  [.read, .updateService 0 (imageRequest "api:2"), .read, .createInstance 1,
    .updateService 1 (imageRequest "api:3")]

/-- Updates one after another. -/
theorem Board.current_of_sequential_updates :
    ∃ c, exec Board.step { service := storedApi } sequentialUpdates = some c ∧
      storedApi.metadata.generation ≤ c.service.metadata.generation ∧ c.Current := by
  have hundisturbed : Along Board.step Board.Undisturbed { service := storedApi }
      ([] ++ sequentialUpdates) := by decide
  exact ⟨_, rfl, Board.current_along_run (by decide) hundisturbed rfl rfl⟩

/-- Two requests read the same record and both store the template generation `2`. The instance
built for the first one counts as current under the second. -/
theorem Board.overlapping_updates_share_generation :
    ∃ c, exec Board.step { service := storedApi }
        [.read, .updateService 0 (imageRequest "api:2"), .read, .createInstance 1,
          .updateService 0 (imageRequest "api:3")] = some c ∧
      c.service.spec.image = "api:3" ∧
      c.instances.map Built.serviceGeneration = [c.service.metadata.templateGeneration] ∧
      ¬ c.Current := by
  refine ⟨_, rfl, rfl, by decide, fun h => ?_⟩
  have hsame := h _ (.head _) (by decide)
  revert hsame
  decide

end Rune.Services
