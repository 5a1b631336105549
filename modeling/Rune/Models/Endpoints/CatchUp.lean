import Rune.Models.Endpoints.Machine

/-!
# Published endpoints catch up with the store

The signature is recorded in a critical section of its own after the publish. As long as no call
finds a new set while another one is between its comparison and its recording, the recorded
signature is that of the published set, and the next call publishes what the store has by then.
Two calls that overlap there can leave the set of one and the signature of the other, and later
calls see nothing to do.
-/

namespace Rune.Endpoints

open Rune.Core Rune.Services List
open Endpoint (face Face)

namespace Shared

/-- The running instances of the service that have an address. -/
def serving (s : Shared) : List Instance :=
  s.instances.filter fun inst =>
    inst.serviceName = s.service.name ∧ inst.status = .running ∧ s.instanceEndpointIP inst ≠ ""

/-- How an instance should be published. -/
def faceOf (s : Shared) (ports : List ServicePort) (inst : Instance) : Face where
  instanceID := inst.id
  ip := s.instanceEndpointIP inst
  port := primaryPort ports
  protocol := primaryProto ports
  healthy := inst.isReady

/-- The endpoints are those of exactly the serving instances. -/
def UpToDate (s : Shared) (ports : List ServicePort) (eps : List Dataplane.Endpoint) : Prop :=
  (eps.map face).Perm (s.serving.map (s.faceOf ports))

theorem map_face_filterMap_endpointOf (s : Shared) (ports : List ServicePort) :
    (s.instances.filterMap (s.endpointOf ports)).map face = s.serving.map (s.faceOf ports) := by
  unfold serving
  induction s.instances with
  | nil => rfl
  | cons inst rest ih =>
    by_cases h : inst.serviceName = s.service.name ∧ inst.status = .running ∧
        s.instanceEndpointIP inst ≠ ""
    · rw [filter_cons_of_pos (by simpa using h), map_cons, ← ih]
      simp [endpointOf, h, face, faceOf]
    · rw [filter_cons_of_neg (by simpa using h), ← ih]
      have hnone : s.endpointOf ports inst = none := by
        rw [endpointOf, if_pos (by tauto)]
      rw [filterMap_cons_none hnone]

end Shared

/-- The publisher holds the lock. -/
def Republish.inSection : Republish → Bool
  | .publishing _ | .recording _ => true
  | .list _ | .building _ _ _ | .comparing _ => false

/-- The goroutine has found a new set and has not yet recorded its signature. -/
def Thread.inSection (t : Thread) : Bool :=
  t.republish.any Republish.inSection

/-- The comparison that the action makes, by the index of the goroutine. -/
def World.comparing? (w : World) : Action → Option (ℕ × List Dataplane.Endpoint)
  | .step i _ =>
    match (w.threads[i]?).bind Thread.republish with
    | some (.comparing eps) => some (i, eps)
    | _ => none
  | _ => none

/-- A set that is compared has no separators in its texts, and no other goroutine is
between its comparison and its recording if the set is new. -/
def World.Serial (w : World) (a : Action) : Prop :=
  ∀ p ∈ w.comparing? a, Plain p.2 ∧
    (w.shared.lastPublished ≠ some (endpointsSignature p.2) →
      ∀ j < w.threads.length, j ≠ p.1 → (w.threads[j]?).any Thread.inSection = false)

instance (w : World) (a : Action) : Decidable (w.Serial a) :=
  inferInstanceAs (Decidable (∀ p ∈ w.comparing? a, _))

/-- What is recorded is the signature of what was last published, except while a goroutine
is between the two. -/
structure World.Coherent (w : World) : Prop where
  named : w.shared.service.id ≠ ""
  recorded : (∀ (i : ℕ) (t : Thread) eps, w.threads[i]? = some t →
      t.republish ≠ some (.recording eps)) →
    ∀ sig, w.shared.lastPublished = some sig →
      sig = endpointsSignature w.shared.endpoints ∧ Plain w.shared.endpoints
  publishing : ∀ (i : ℕ) (t : Thread) eps, w.threads[i]? = some t →
    t.republish = some (.publishing eps) → Plain eps
  recording : ∀ (i : ℕ) (t : Thread) eps, w.threads[i]? = some t →
    t.republish = some (.recording eps) → Plain eps ∧ w.shared.endpoints = eps
  single : ∀ (i j : ℕ) (t u : Thread), w.threads[i]? = some t → w.threads[j]? = some u →
    t.inSection = true → u.inSection = true → i = j

namespace World.Coherent

variable {w : World} {i : ℕ} {t t' : Thread} {s' : Shared} {eps : List Dataplane.Endpoint}

theorem not_recording (h : t.inSection = false) : t.republish ≠ some (.recording eps) := by
  rintro hr
  rw [Thread.inSection, hr] at h
  cases h

theorem not_publishing (h : t.inSection = false) : t.republish ≠ some (.publishing eps) := by
  rintro hr
  rw [Thread.inSection, hr] at h
  cases h

/-- Nothing changes but goroutines outside of the section, and what is neither published
nor recorded. -/
theorem environment (h : w.Coherent) (hsame : w.shared.SamePublished s') {threads : List Thread}
    (hthreads : ∀ (j : ℕ) (u : Thread), threads[j]? = some u →
      w.threads[j]? = some u ∨ u.inSection = false)
    (hkept : ∀ (j : ℕ) (u : Thread), w.threads[j]? = some u →
      threads[j]? = some u ∨ u.inSection = false) : World.Coherent ⟨s', threads⟩ where
  named := hsame.serviceID ▸ h.named
  recorded hnone sig hsig := by
    rw [hsame.endpoints]
    exact h.recorded (fun j u eps hj => (hkept j u hj).elim (hnone j u eps) not_recording) sig
      (hsame.lastPublished ▸ hsig)
  publishing j u eps hj hu := by
    rcases hthreads j u hj with hj | hout
    · exact h.publishing j u eps hj hu
    · exact absurd hu (not_publishing hout)
  recording j u eps hj hu := by
    rw [hsame.endpoints]
    rcases hthreads j u hj with hj | hout
    · exact h.recording j u eps hj hu
    · exact absurd hu (not_recording hout)
  single j k u v hj hk hu hv := by
    have hold : ∀ {j : ℕ} {u : Thread}, threads[j]? = some u → u.inSection = true →
        w.threads[j]? = some u :=
      fun hj hu => (hthreads _ _ hj).resolve_right (by simp [hu])
    exact h.single j k u v (hold hj hu) (hold hk hv) hu hv

/-- A goroutine moves outside of the section. -/
theorem outside (h : w.Coherent) (hi : w.threads[i]? = some t)
    (hsame : w.shared.SamePublished s') (hout : t.inSection = false)
    (hout' : t'.inSection = false) : World.Coherent ⟨s', w.threads.set i t'⟩ := by
  refine h.environment hsame (fun j u hj => ?_) fun j u hj => ?_
  · rcases getElem?_set_cases hj with ⟨-, rfl⟩ | ⟨-, hj⟩
    · exact Or.inr hout'
    · exact Or.inl hj
  · by_cases hij : j = i
    · subst hij
      cases hi.symm.trans hj
      exact Or.inr hout
    · exact Or.inl (by rwa [getElem?_set_ne (Ne.symm hij)])

/-- The goroutine in the section is the only one, wherever it moves. -/
theorem alone {i : ℕ} {threads : List Thread} {t' : Thread}
    (hothers : ∀ (j : ℕ) (u : Thread), j ≠ i → threads[j]? = some u → u.inSection = false)
    {j k : ℕ} {u v : Thread} (hj : (threads.set i t')[j]? = some u)
    (hk : (threads.set i t')[k]? = some v) (hu : u.inSection = true) (hv : v.inSection = true) :
    j = k := by
  rcases getElem?_set_cases hj with ⟨rfl, -⟩ | ⟨hne, hj⟩
  · rcases getElem?_set_cases hk with ⟨rfl, -⟩ | ⟨hne, hk⟩
    · rfl
    · rw [hothers k v hne hk] at hv
      cases hv
  · rw [hothers j u hne hj] at hu
    cases hu

theorem others (h : w.Coherent) (hi : w.threads[i]? = some t) (hin : t.inSection = true) :
    ∀ (j : ℕ) (u : Thread), j ≠ i → w.threads[j]? = some u → u.inSection = false := by
  intro j u hne hj
  by_contra hu
  exact hne (h.single j i u t hj hi (by simpa using hu) hin)

/-- Another set is to be published, and nobody else is in the section. -/
theorem differ (h : w.Coherent) (hi : w.threads[i]? = some t)
    (hr : t.republish = some (.comparing eps)) (hplain : Plain eps)
    (hothers : ∀ (j : ℕ) (u : Thread), j ≠ i → w.threads[j]? = some u → u.inSection = false) :
    World.Coherent
      ⟨w.shared, w.threads.set i { t with republish := some (.publishing eps) }⟩ where
  named := h.named
  recorded hnone sig hsig := by
    refine h.recorded (fun j u eps' hj => ?_) sig hsig
    by_cases hij : j = i
    · subst hij
      cases hi.symm.trans hj
      simp [hr]
    · exact hnone j u eps' (by rwa [getElem?_set_ne (Ne.symm hij)])
  publishing j u eps' hj hu := by
    rcases getElem?_set_cases hj with ⟨-, rfl⟩ | ⟨-, hj⟩
    · cases hu
      exact hplain
    · exact h.publishing j u eps' hj hu
  recording j u eps' hj hu := by
    rcases getElem?_set_cases hj with ⟨-, rfl⟩ | ⟨-, hj⟩
    · cases hu
    · exact h.recording j u eps' hj hu
  single _ _ _ _ hj hk hu hv := alone hothers hj hk hu hv

/-- A thread publishes. -/
theorem publish (h : w.Coherent) (hi : w.threads[i]? = some t)
    (hr : t.republish = some (.publishing eps)) :
    World.Coherent ⟨w.shared.publishService eps,
      w.threads.set i { t with republish := some (.recording eps) }⟩ := by
  have hothers := h.others hi (by rw [Thread.inSection, hr]; rfl)
  have hpublished : w.shared.publishService eps = { w.shared with endpoints := eps } :=
    if_neg h.named
  rw [hpublished]
  refine ⟨h.named, fun hnone => ?_, ?_, ?_, fun _ _ _ _ => alone hothers⟩
  · have hlen := (List.getElem?_eq_some_iff.mp hi).1
    exact absurd rfl (hnone i _ eps (getElem?_set_self hlen))
  · intro j u eps' hj hu
    rcases getElem?_set_cases hj with ⟨-, rfl⟩ | ⟨-, hj⟩
    · cases hu
    · exact h.publishing j u eps' hj hu
  · intro j u eps' hj hu
    rcases getElem?_set_cases hj with ⟨-, rfl⟩ | ⟨hne, hj⟩
    · cases hu
      exact ⟨h.publishing i t eps hi hr, rfl⟩
    · exact absurd hu (not_recording (hothers j u hne hj))

/-- A thread records the signature. -/
theorem record (h : w.Coherent) (hi : w.threads[i]? = some t)
    (hr : t.republish = some (.recording eps)) :
    World.Coherent ⟨{ w.shared with lastPublished := some (endpointsSignature eps) },
      w.threads.set i { t with republish := none }⟩ := by
  have hothers := h.others hi (by rw [Thread.inSection, hr]; rfl)
  obtain ⟨hplain, hendpoints⟩ := h.recording i t eps hi hr
  refine ⟨h.named, fun _ sig hsig => ?_, ?_, ?_, fun _ _ _ _ => alone hothers⟩
  · cases hsig
    exact ⟨by rw [hendpoints], hendpoints ▸ hplain⟩
  · intro j u eps' hj hu
    rcases getElem?_set_cases hj with ⟨-, rfl⟩ | ⟨-, hj⟩
    · cases hu
    · exact h.publishing j u eps' hj hu
  · intro j u eps' hj hu
    rcases getElem?_set_cases hj with ⟨-, rfl⟩ | ⟨hne, hj⟩
    · cases hu
    · exact absurd hu (not_recording (hothers j u hne hj))

/-- One move of a thread. -/
theorem move (h : w.Coherent) {fails : Bool} (hserial : w.Serial (.step i fails))
    (hi : w.threads[i]? = some t) (hmove : t.Moves w.shared s' t') :
    World.Coherent ⟨s', w.threads.set i t'⟩ := by
  have hout : ∀ {t : Thread} {r : Republish}, t.republish = some r → r.inSection = false →
      t.inSection = false := by
    intro t r hr hsection
    rw [Thread.inSection, hr]
    exact hsection
  have hnone : ∀ {t : Thread}, t.republish = none → t.inSection = false := by
    intro t hr
    rw [Thread.inSection, hr]
    rfl
  cases hmove with
  | @instr hr instr rest htodo fails =>
    obtain ⟨hsame, hnext⟩ := instr.step_frame w.shared fails rest
    refine h.outside hi hsame (hnone hr) ?_
    cases hrep : (instr.step w.shared fails rest).2.republish with
    | none => exact hnone hrep
    | some r =>
      obtain ⟨ports, rfl⟩ := hnext r hrep
      exact hout hrep rfl
  | list hr => exact h.outside hi (.refl _) (hout hr rfl) (hout rfl rfl)
  | skip hr => exact h.outside hi (.refl _) (hout hr rfl) (hout rfl rfl)
  | add hr => exact h.outside hi ⟨rfl, rfl, rfl⟩ (hout hr rfl) (hout rfl rfl)
  | built hr => exact h.outside hi (.refl _) (hout hr rfl) (hout rfl rfl)
  | same hr => exact h.outside hi (.refl _) (hout hr rfl) (hnone rfl)
  | @differ eps hr hdiffer =>
    have hcompare : w.comparing? (.step i fails) = some (i, eps) := by
      simp [World.comparing?, hi, hr]
    obtain ⟨hplain, hothers⟩ := hserial _ hcompare
    refine h.differ hi hr hplain fun j u hne hj => ?_
    have hlen := (List.getElem?_eq_some_iff.mp hj).1
    simpa [hj] using hothers hdiffer j hlen hne
  | publish hr => exact h.publish hi hr
  | record hr => exact h.record hi hr

/-- One serial step. -/
theorem step (h : w.Coherent) {a : Action} (hserial : w.Serial a) {v : World}
    (hstep : w.step a = some v) : v.Coherent := by
  have hquiet : ∀ (j : ℕ) (u : Thread), w.threads[j]? = some u →
      w.threads[j]? = some u ∨ u.inSection = false := fun _ _ => Or.inl
  cases a with
  | call c =>
    cases hstep
    refine h.environment (.refl _) (fun j u hj => ?_) fun j u hj => ?_
    · rcases lt_or_ge j w.threads.length with hlt | hge
      · exact Or.inl (by rwa [getElem?_append_left hlt] at hj)
      · rw [getElem?_append_right hge] at hj
        rw [mem_singleton.mp (mem_of_getElem? hj)]
        exact Or.inr rfl
    · exact Or.inl (by rwa [getElem?_append_left (List.getElem?_eq_some_iff.mp hj).1])
  | step i fails =>
    obtain ⟨t, s', t', hi, hmove, rfl⟩ := World.moves_of_step hstep
    exact h.move hserial hi hmove
  | _ =>
    cases hstep
    exact h.environment (by exact ⟨rfl, rfl, rfl⟩) hquiet hquiet

end World.Coherent

/-- A controller that has just been started: no goroutine, and no signature recorded,
whatever was published before. -/
structure World.Fresh (w : World) : Prop where
  named : w.shared.service.id ≠ ""
  threads : w.threads = []
  lastPublished : w.shared.lastPublished = none

/-- Where a run starts. -/
theorem World.Fresh.coherent {w : World} (h : w.Fresh) : w.Coherent where
  named := h.named
  recorded _ sig hsig := by
    rw [h.lastPublished] at hsig
    cases hsig
  publishing i t eps hi := by simp [h.threads] at hi
  recording i t eps hi := by simp [h.threads] at hi
  single i j t u hi := by simp [h.threads] at hi

/-- Every goroutine has ended. -/
def World.Quiet (w : World) : Prop := ∀ t ∈ w.threads, t = {}

instance (w : World) : Decidable w.Quiet := inferInstanceAs (Decidable (∀ t ∈ w.threads, _))

/-- The action is a step of a goroutine. -/
def Action.isStep : Action → Bool
  | .step _ _ => true
  | .call _ | .write _ | .erase _ | .learn _ | .update _ _ => false

/-- What the one call that runs has seen and done so far: `s` was shared when it began. -/
inductive Catching (s : Shared) (ports : List ServicePort) : Shared → Thread → Prop
  | called : Catching s ports s { todo := [.publish ports] }
  | list : Catching s ports s { republish := some (.list ports) }
  | building {rows todo : List Instance} {eps : List Dataplane.Endpoint}
      (h : eps ++ todo.filterMap (s.endpointOf ports) =
        s.instances.filterMap (s.endpointOf ports)) :
    Catching s ports { s with instances := rows }
      { republish := some (.building ports todo eps) }
  | comparing {rows : List Instance} :
    Catching s ports { s with instances := rows }
      { republish := some (.comparing (s.instances.filterMap (s.endpointOf ports))) }
  | publishing {rows : List Instance} :
    Catching s ports { s with instances := rows }
      { republish := some (.publishing (s.instances.filterMap (s.endpointOf ports))) }
  | recording {s' : Shared} (h : s'.endpoints = s.instances.filterMap (s.endpointOf ports)) :
    Catching s ports s'
      { republish := some (.recording (s.instances.filterMap (s.endpointOf ports))) }
  | done {s' : Shared} (h : s.UpToDate ports s'.endpoints) : Catching s ports s' {}

variable {ports : List ServicePort}

/-- One move of the thread that catches up. -/
theorem Catching.move {s s' s'' : Shared} {t t' : Thread} (h : Catching s ports s' t)
    (hnamed : s.service.id ≠ "") (hrecorded : ∀ sig, s.lastPublished = some sig →
      sig = endpointsSignature s.endpoints ∧ Plain s.endpoints)
    (hplain : Plain (s.instances.filterMap (s.endpointOf ports))) (hmove : t.Moves s' s'' t') :
    Catching s ports s'' t' := by
  cases h with
  | called =>
    cases hmove with
    | instr hr htodo =>
      obtain ⟨rfl, rfl⟩ := cons.inj htodo
      exact .list
    | _ hr => cases hr
  | list =>
    cases hmove with
    | list hr =>
      cases hr
      exact .building rfl
    | instr hr => cases hr
    | _ hr => cases hr
  | building h =>
    cases hmove with
    | instr hr => cases hr
    | skip hr hep =>
      cases hr
      have hep : s.endpointOf ports _ = none := hep
      exact .building (by rwa [filterMap_cons_none hep] at h)
    | add hr hep =>
      cases hr
      have hep : s.endpointOf ports _ = some _ := hep
      refine .building ?_
      rwa [filterMap_cons_some hep, ← singleton_append, ← append_assoc] at h
    | built hr =>
      cases hr
      rw [filterMap_nil, append_nil] at h
      rw [h]
      exact .comparing
    | _ hr => cases hr
  | comparing =>
    cases hmove with
    | instr hr => cases hr
    | same hr hsame =>
      cases hr
      obtain ⟨hsig, hpublished⟩ := hrecorded _ hsame
      refine .done ?_
      rw [Shared.UpToDate, ← s.map_face_filterMap_endpointOf ports]
      exact (perm_of_endpointsSignature hplain hpublished hsig).symm
    | differ hr =>
      cases hr
      exact .publishing
    | _ hr => cases hr
  | publishing =>
    cases hmove with
    | instr hr => cases hr
    | publish hr =>
      cases hr
      refine .recording ?_
      rw [Shared.publishService, if_neg hnamed]
    | _ hr => cases hr
  | recording h =>
    cases hmove with
    | instr hr => cases hr
    | record hr =>
      cases hr
      refine .done ?_
      rw [Shared.UpToDate, ← s.map_face_filterMap_endpointOf ports]
      exact List.Perm.of_eq (congrArg (map face) h)
    | _ hr => cases hr
  | done =>
    cases hmove with
    | instr hr htodo => cases htodo
    | _ hr => cases hr

/-- What its end leaves published. -/
theorem Catching.upToDate {s s' : Shared} (h : Catching s ports s' {}) :
    s.UpToDate ports s'.endpoints := by
  cases h with
  | done hup => exact hup

/-- The accesses that a call still makes, at most. -/
def Republish.rank (s : Shared) : Republish → ℕ
  | .list _ => s.instances.length + 5
  | .building _ todo _ => todo.length + 4
  | .comparing _ => 3
  | .publishing _ => 2
  | .recording _ => 1

/-- Every step lowers the rank. -/
theorem Republish.rank_step (s : Shared) (r r' : Republish) (h : (r.step s).2 = some r') :
    r'.rank (r.step s).1 < r.rank s := by
  revert h
  fun_cases r.step s <;> rintro ⟨⟩ <;> exact Nat.lt_succ_self _

/-- A call that is left alone comes to its end. -/
theorem exists_finish {w : World} {i : ℕ} {r : Republish}
    (hi : w.threads[i]? = some { republish := some r }) :
    ∃ last v, exec World.step w last = some v ∧ (∀ a ∈ last, a.isStep = true) ∧
      v.threads = w.threads.set i {} := by
  induction hrank : r.rank w.shared using Nat.strong_induction_on generalizing w r with
  | _ n ih =>
    have hlen := (List.getElem?_eq_some_iff.mp hi).1
    have hstep : w.step (.step i false) =
        some ⟨(r.step w.shared).1, w.threads.set i { republish := (r.step w.shared).2 }⟩ := by
      simp [World.step, hi, Thread.step]
    cases hr : (r.step w.shared).2 with
    | none =>
      refine ⟨[.step i false], _, exec_cons.mpr ⟨_, hstep, rfl⟩, by simp [Action.isStep], ?_⟩
      rw [hr]
    | some r' =>
      have hlt := Republish.rank_step w.shared r r' hr
      rw [hr] at hstep
      obtain ⟨last, v, hrun, hlast, hthreads⟩ :=
        ih _ (hrank ▸ hlt) (w := ⟨(r.step w.shared).1, _⟩) (getElem?_set_self hlen) rfl
      refine ⟨.step i false :: last, v, exec_cons.mpr ⟨_, hstep, hrun⟩, ?_, ?_⟩
      · simpa [Action.isStep] using hlast
      · rw [hthreads, set_set]

/-- With the other goroutines at their end only the new call can move. -/
theorem Catching.exec {w u v : World} {s : Shared} {t : Thread} (hquiet : w.Quiet)
    (hthreads : u.threads = w.threads ++ [t]) (h : Catching s ports u.shared t)
    (hnamed : s.service.id ≠ "") (hrecorded : ∀ sig, s.lastPublished = some sig →
      sig = endpointsSignature s.endpoints ∧ Plain s.endpoints)
    (hplain : Plain (s.instances.filterMap (s.endpointOf ports))) {last : List Action}
    (hlast : ∀ a ∈ last, a.isStep = true) (hrun : exec World.step u last = some v) :
    ∃ t', v.threads = w.threads ++ [t'] ∧ Catching s ports v.shared t' := by
  induction last generalizing u t with
  | nil =>
    obtain rfl : u = v := by simpa using hrun
    exact ⟨t, hthreads, h⟩
  | cons a last ih =>
    obtain ⟨x, hstep, hrest⟩ := exec_cons.mp hrun
    have ha := hlast a mem_cons_self
    cases a with
    | step i fails =>
      obtain ⟨t', s'', t'', hi, hmove, rfl⟩ := World.moves_of_step hstep
      rw [hthreads] at hi
      rcases lt_or_ge i w.threads.length with hlt | hge
      · rw [getElem?_append_left hlt] at hi
        obtain rfl := hquiet t' (mem_of_getElem? hi)
        cases hmove with
        | instr hr htodo => cases htodo
        | _ hr => cases hr
      · rw [getElem?_append_right hge, getElem?_singleton] at hi
        split at hi
        next hzero =>
          cases hi
          refine ih (t := t'') ?_ (h.move hnamed hrecorded hplain hmove)
            (fun a ha => hlast a (mem_cons_of_mem _ ha)) hrest
          obtain rfl : i = w.threads.length := by omega
          simp [hthreads]
        next => cases hi
    | _ => cases ha

/-- After one further call that nothing interrupts, what was last published is up to date,
if no goroutine found a new set while another one was between its comparison and its
recording, and no text has a separator in it. -/
theorem published_catches_up {w₀ w : World} {run : List Action} {ports : List ServicePort}
    (hfresh : w₀.Fresh) (hrun : exec World.step w₀ run = some w)
    (hserial : Along World.step World.Serial w₀ run) (hquiet : w.Quiet)
    (hplain : Plain (w.shared.instances.filterMap (w.shared.endpointOf ports))) :
    (∃ last v, exec World.step w (.call (.republishService ports) :: last) = some v ∧
      (∀ a ∈ last, a.isStep = true) ∧ v.Quiet) ∧
    ∀ last v, exec World.step w (.call (.republishService ports) :: last) = some v →
      (∀ a ∈ last, a.isStep = true) → v.Quiet → w.shared.UpToDate ports v.shared.endpoints := by
  have hcoherent : w.Coherent :=
    exec_invariant_along (fun s a t hs ha hst => hs.step ha hst) hfresh.coherent hserial hrun
  have hrecorded := hcoherent.recorded fun i t eps hi hr => by
    rw [hquiet t (mem_of_getElem? hi)] at hr
    cases hr
  constructor
  · obtain ⟨last, v, hexec, hlast, hthreads⟩ := exists_finish (r := .list ports)
      (w := ⟨w.shared, w.threads ++ [{ republish := some (.list ports) }]⟩)
      (i := w.threads.length) (by simp)
    refine ⟨.step w.threads.length false :: last, v, ?_, by simpa [Action.isStep] using hlast, ?_⟩
    · refine exec_cons.mpr ⟨_, rfl, exec_cons.mpr ⟨_, ?_, hexec⟩⟩
      simp [World.step, Call.start, Thread.step, Instr.step]
    · intro t ht
      simp only [hthreads, set_append_right, Nat.le_refl, Nat.sub_self, set_cons_zero,
        mem_append, mem_singleton] at ht
      exact ht.elim (hquiet t) id
  · intro last v hexec hlast hdone
    obtain ⟨u, hcall, hrest⟩ := exec_cons.mp hexec
    cases hcall
    obtain ⟨t, hthreads, hcatching⟩ := Catching.exec (s := w.shared)
      (u := ⟨w.shared, w.threads ++ [{ todo := [.publish ports] }]⟩) hquiet rfl .called
      hcoherent.named hrecorded hplain hlast hrest
    obtain rfl : t = {} := hdone t (by simp [hthreads])
    exact hcatching.upToDate

/-- The ports of the service. -/
def webPorts : List ServicePort := [{ name := "http", port := 80 }]

/-- A service with one port. -/
def webService : Service where
  id := "5f0c"
  ns := "default"
  name := "web"
  spec := { ports := webPorts }

/-- A running instance that is ready, or not. -/
def webInstance (ready : Bool) : Instance where
  id := "a1"
  name := "web-0"
  status := .running
  ready := ready
  createdAt := 1
  lastTransitionAt := some 1
  readyChangedAt := some 1
  serviceName := "web"
  containerIP := "10.0.0.2"
  ip := "10.0.0.2"

/-- The endpoint of its instance. -/
def webEndpoint (healthy : Bool) : Dataplane.Endpoint where
  instanceID := "a1"
  ip := "10.0.0.2"
  port := 80
  protocol := "TCP"
  metadata := [("node_id", "n1")]
  healthy := healthy

/-- The shared state with the instance ready or not. -/
def webShared (ready : Bool) (endpoints : List Dataplane.Endpoint) (lastPublished : Option String) :
    Shared where
  service := webService
  nodeID := "n1"
  instances := [webInstance ready]
  runnerIP := fun _ => ""
  endpoints := endpoints
  lastPublished := lastPublished

/-- One call after the other, with a readiness probe that fails in between. -/
def oneByOne : List Action :=
  [Action.call (.republishService webPorts)] ++ List.replicate 7 (Action.step 0 false) ++
    [Action.write (webInstance false)]

/-- A run of one thread. -/
theorem published_catches_up_oneByOne :
    exec World.step ⟨webShared true [] none, []⟩ oneByOne =
      some ⟨webShared false [webEndpoint true] (some "a1|10.0.0.2|80|TCP|true"), [{}]⟩ ∧
    ∀ last v, exec World.step
        ⟨webShared false [webEndpoint true] (some "a1|10.0.0.2|80|TCP|true"), [{}]⟩
        (.call (.republishService webPorts) :: last) = some v →
      (∀ a ∈ last, a.isStep = true) → v.Quiet →
        (webShared false [webEndpoint true] none).UpToDate webPorts v.shared.endpoints := by
  have hrun : exec World.step ⟨webShared true [] none, []⟩ oneByOne =
      some ⟨webShared false [webEndpoint true] (some "a1|10.0.0.2|80|TCP|true"), [{}]⟩ := by
    rfl
  refine ⟨hrun, ?_⟩
  exact (published_catches_up ⟨by decide, rfl, rfl⟩ hrun (by decide) (by decide) (by decide)).2

/-- A call has built its set when the readiness probe fails; a second one publishes the new
set first, and records its signature last. -/
def overlapping : List Action :=
  [Action.call (.republishService webPorts)] ++ List.replicate 5 (Action.step 0 false) ++
    [Action.write (webInstance false), Action.call (.republishService webPorts)] ++
    List.replicate 6 (Action.step 1 false) ++
    [Action.step 0 false, Action.step 0 false, Action.step 1 false]

/-- The old set stays published: a further call finds its signature recorded. -/
theorem overlapping_leaves_stale :
    ∃ w v, exec World.step ⟨webShared true [] none, []⟩ overlapping = some w ∧ w.Quiet ∧
      exec World.step w (.call (.republishService webPorts) :: List.replicate 5 (.step 2 false)) =
        some v ∧ v.Quiet ∧ w.shared.serving = [webInstance false] ∧
      v.shared.endpoints = [webEndpoint true] ∧
      ¬ w.shared.UpToDate webPorts v.shared.endpoints := by
  refine ⟨_, _, rfl, by decide, rfl, by decide, rfl, rfl, ?_⟩
  unfold Shared.UpToDate
  decide

end Rune.Endpoints
