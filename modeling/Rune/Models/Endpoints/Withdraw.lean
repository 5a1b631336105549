import Rune.Models.Endpoints.CatchUp

/-!
# Withdraw before stop

A teardown of a running instance first writes a status that keeps the instance out of every later
set, then republishes the service, and then stops the container. The status that it has at hand
when it begins decides whether it does so. The instance is out of the published set at every stop
if calls of `republishService` do not overlap, a teardown that does not withdraw finds the
instance withdrawn, and no instance becomes running while it is torn down.
-/

namespace Rune.Endpoints

open Rune.Core Rune.Services List
open Endpoint (face Face)

/-- The instance that the access stops, now or later. -/
def Instr.target : Instr → Option String
  | .stop id _ => some id
  | .restartChecked _ copy _ => some copy.id
  | .publish _ | .publishStored | .store _ | .withdraw _ | .revert _ | .setStopped _
  | .markInstanceFailedInPlace _ | .restart _ _ | .withdrawAll _ _ _
  | .promoteToRunningOnReady _ _ | .setReady _ _ _ => none

/-- The goroutine is yet to take the instance down. -/
def Thread.TearsDown (t : Thread) (x : String) : Prop :=
  ∃ instr ∈ t.todo, instr.target = some x

/-- No stored record of the instance is running. -/
def Shared.NotRunning (s : Shared) (x : String) : Prop :=
  ∀ row ∈ s.instances, row.id = x → row.status ≠ .running

instance (s : Shared) (x : String) : Decidable (s.NotRunning x) :=
  inferInstanceAs (Decidable (∀ row ∈ s.instances, _))

/-- No endpoint is one of the instance. -/
def Without (x : String) (eps : List Dataplane.Endpoint) : Prop :=
  ∀ ep ∈ eps, ep.instanceID ≠ x

instance (x : String) (eps : List Dataplane.Endpoint) : Decidable (Without x eps) :=
  inferInstanceAs (Decidable (∀ ep ∈ eps, _))

/-- The set that the call is about to publish will not have the instance. -/
def Republish.Excludes (x : String) : Republish → Prop
  | .list _ => True
  | .building _ todo eps =>
    (∀ inst ∈ todo, inst.id = x → inst.status ≠ .running) ∧ Without x eps
  | .comparing eps | .publishing eps | .recording eps => Without x eps

instance (x : String) : ∀ r : Republish, Decidable (r.Excludes x)
  | .list _ => isTrue trivial
  | .building _ _ _ => inferInstanceAs (Decidable (_ ∧ _))
  | .comparing eps | .publishing eps | .recording eps => inferInstanceAs (Decidable (Without x eps))

/-- The instance is neither running nor published, and no call is going to publish it. -/
def World.Withdrawn (w : World) (x : String) : Prop :=
  w.shared.NotRunning x ∧ Without x w.shared.endpoints ∧
    ∀ t ∈ w.threads, ∀ r ∈ t.republish, r.Excludes x

instance (w : World) (x : String) : Decidable (w.Withdrawn x) :=
  inferInstanceAs (Decidable (_ ∧ _ ∧ _))

/-- The publication has listed the instances. -/
def Republish.inFlight : Republish → Bool
  | .list _ => false
  | .building _ _ _ | .comparing _ | .publishing _ | .recording _ => true

/-- The goroutine is in a call that has listed the instances. -/
def Thread.inFlight (t : Thread) : Bool := t.republish.any Republish.inFlight

/-- The goroutine that lists the instances in this step. -/
def World.listing? (w : World) : Action → Option ℕ
  | .step i _ =>
    match (w.threads[i]?).bind Thread.republish with
    | some (.list _) => some i
    | _ => none
  | _ => none

/-- The instance that a teardown decides in this step to stop without withdrawing it. -/
def World.unserved? (w : World) : Action → Option String
  | .call (.deleteInstance copy) | .call (.stopInstance copy) =>
    if copy.status = .running then none else some copy.id
  | .step i _ =>
    match w.threads[i]? with
    | some ⟨none, .restart copy _ :: _⟩ =>
      match w.shared.find copy.id with
      | none => none
      | some current => if current.status = .running then none else some copy.id
    | _ => none
  | _ => none

/-- The instance whose container is stopped in this step. -/
def World.stops? (w : World) : Action → Option String
  | .step i _ =>
    match w.threads[i]? with
    | some ⟨none, .stop id _ :: _⟩ => some id
    | _ => none
  | _ => none

/-- The calls of `republishService` do not overlap. -/
def World.Exclusive (w : World) (a : Action) : Prop :=
  ∀ i ∈ w.listing? a, ∀ j < w.threads.length, j ≠ i → (w.threads[j]?).any Thread.inFlight = false

/-- No instance becomes running while a goroutine tears it down. -/
def World.NoRise (w : World) (a : Action) : Prop :=
  ∀ v ∈ w.step a, ∀ t ∈ w.threads, ∀ instr ∈ t.todo, ∀ x ∈ instr.target,
    w.shared.NotRunning x → v.shared.NotRunning x

/-- The action is exclusive, its endpoints are plain, and nothing rises again. -/
def World.Careful (w : World) (a : Action) : Prop :=
  w.Exclusive a ∧ (∀ p ∈ w.comparing? a, Plain p.2) ∧ (∀ x ∈ w.unserved? a, w.Withdrawn x) ∧
    w.NoRise a

instance (w : World) (a : Action) : Decidable (w.Careful a) :=
  inferInstanceAs (Decidable
    ((∀ i ∈ w.listing? a, _) ∧ (∀ p ∈ w.comparing? a, _) ∧ (∀ x ∈ w.unserved? a, _) ∧
      ∀ v ∈ w.step a, _))

section Excludes

variable {x : String} {s s' : Shared} {t t' : Thread}

theorem instanceID_of_endpointOf {ports : List ServicePort} {inst : Instance}
    {ep : Dataplane.Endpoint} (h : s.endpointOf ports inst = some ep) :
    inst.status = .running ∧ ep.instanceID = inst.id := by
  unfold Shared.endpointOf at h
  split at h
  · cases h
  next hserving =>
    cases h
    exact ⟨by tauto, rfl⟩

/-- A call that excludes the instance goes on excluding it while it is not running. -/
theorem Thread.Moves.excludes (hmove : t.Moves s s' t') (hnot : s.NotRunning x)
    (h : ∀ r ∈ t.republish, r.Excludes x) : ∀ r ∈ t'.republish, r.Excludes x := by
  cases hmove with
  | @instr hr instr rest htodo fails =>
    intro r hr'
    obtain ⟨ports, rfl⟩ := (instr.step_frame s fails rest).2 r hr'
    trivial
  | list hr =>
    rintro r ⟨⟩
    exact ⟨hnot, nofun⟩
  | skip hr hep =>
    rintro r ⟨⟩
    obtain ⟨htodo, heps⟩ := h _ hr
    exact ⟨fun inst hinst => htodo inst (mem_cons_of_mem _ hinst), heps⟩
  | add hr hep =>
    rintro r ⟨⟩
    obtain ⟨htodo, heps⟩ := h _ hr
    obtain ⟨hrunning, hid⟩ := instanceID_of_endpointOf hep
    refine ⟨fun inst hinst => htodo inst (mem_cons_of_mem _ hinst), fun ep hmem => ?_⟩
    rcases mem_append.mp hmem with hold | hnew
    · exact heps ep hold
    · obtain rfl := mem_singleton.mp hnew
      exact fun hx => htodo _ mem_cons_self (hid.symm.trans hx) hrunning
  | built hr =>
    rintro r ⟨⟩
    exact (h _ hr).2
  | same hr => exact nofun
  | differ hr | publish hr =>
    rintro r ⟨⟩
    have heps := h _ hr
    exact heps
  | record hr => exact nofun

/-- What is published next is what a call was about to publish. -/
theorem Thread.Moves.without (hmove : t.Moves s s' t') (h : ∀ r ∈ t.republish, r.Excludes x)
    (hpublished : Without x s.endpoints) : Without x s'.endpoints := by
  cases hmove with
  | @instr hr instr rest htodo fails =>
    rw [(instr.step_frame s fails rest).1.endpoints]
    exact hpublished
  | publish hr =>
    unfold Shared.publishService
    split
    · exact hpublished
    · exact h _ hr
  | _ => exact hpublished

end Excludes

/-- One move of a thread. -/
theorem World.Withdrawn.move {w : World} {x : String} {i : ℕ} {t t' : Thread} {s' : Shared}
    (h : w.Withdrawn x) (hi : w.threads[i]? = some t) (hmove : t.Moves w.shared s' t')
    (hnot : s'.NotRunning x) : World.Withdrawn ⟨s', w.threads.set i t'⟩ x := by
  obtain ⟨hwas, hpublished, hthreads⟩ := h
  have ht := hthreads t (mem_of_getElem? hi)
  refine ⟨hnot, hmove.without ht hpublished, fun u hu => ?_⟩
  rcases mem_or_eq_of_mem_set hu with hold | rfl
  · exact hthreads u hold
  · exact hmove.excludes hwas ht

/-- An access after which the instance is not running. -/
def Instr.Withdraws (x : String) (instr : Instr) : Prop :=
  instr = .withdraw x ∨ ∃ inst, instr = .store inst ∧ inst.id = x ∧ inst.status ≠ .running

/-- The instruction publishes. -/
def Instr.Publishes (instr : Instr) : Prop :=
  instr = .publishStored ∨ ∃ ports, instr = .publish ports

/-- How far a teardown has come with taking the instance out of the published set. -/
inductive Stage (x : String) (w : World) : Thread → Prop
  | checked {copy : Instance} {reason : RestartReason} {rest : List Instr} (hid : copy.id = x) :
    Stage x w { todo := .restartChecked .running copy reason :: rest }
  | decided {flip publish : Instr} {rest : List Instr} (hflip : flip.Withdraws x)
      (hpublish : publish.Publishes) : Stage x w { todo := flip :: publish :: rest }
  | flipped {publish : Instr} {rest : List Instr} (hnot : w.shared.NotRunning x)
      (hpublish : publish.Publishes) : Stage x w { todo := publish :: rest }
  | publishing {r : Republish} {todo : List Instr} (hnot : w.shared.NotRunning x)
      (h : r.Excludes x) : Stage x w { republish := some r, todo := todo }
  | withdrawn {todo : List Instr} (h : w.Withdrawn x) : Stage x w { todo := todo }

/-- At most one call is in flight, the recorded signature is coherent, and every teardown
is at one of its stages. -/
structure World.Guarded (w : World) : Prop where
  coherent : w.Coherent
  exclusive : ∀ (i j : ℕ) (t u : Thread), w.threads[i]? = some t → w.threads[j]? = some u →
    t.inFlight = true → u.inFlight = true → i = j
  stages : ∀ (i : ℕ) (t : Thread), w.threads[i]? = some t → ∀ x, t.TearsDown x → Stage x w t

/-- The stage of a goroutine that did not move. -/
theorem Stage.other {x : String} {w v : World} {t : Thread} (h : Stage x w t)
    (hnot : w.shared.NotRunning x → v.shared.NotRunning x)
    (hwithdrawn : w.Withdrawn x → v.Withdrawn x) : Stage x v t := by
  cases h with
  | checked hid => exact .checked hid
  | decided hflip hpublish => exact .decided hflip hpublish
  | flipped h hpublish => exact .flipped (hnot h) hpublish
  | publishing h hr => exact .publishing (hnot h) hr
  | withdrawn h => exact .withdrawn (hwithdrawn h)

section Steps

variable {x : String} {s : Shared} {fails : Bool} {rest : List Instr} {instr : Instr}

theorem notRunning_update {mutate : Instance → Option Instance}
    (h : ∀ row, row.id = x → ((mutate row).getD row).status ≠ .running) :
    (s.update x mutate).NotRunning x := by
  intro row hrow hx
  obtain ⟨old, -, rfl⟩ := mem_map.mp hrow
  by_cases hmatch : old.id = x
  · rw [if_pos hmatch]
    exact h old hmatch
  · rw [if_neg hmatch] at hx
    exact absurd hx hmatch

/-- A withdrawing instruction. -/
theorem Instr.Withdraws.step (h : instr.Withdraws x) :
    (instr.step s fails rest).1.NotRunning x ∧ (instr.step s fails rest).2 = { todo := rest } := by
  obtain rfl | ⟨inst, rfl, rfl, hstatus⟩ := h
  · refine ⟨notRunning_update fun row _ => ?_, rfl⟩
    unfold flip
    split
    · assumption
    · simp
  · exact ⟨notRunning_update fun _ _ => hstatus, rfl⟩

/-- A publishing instruction. -/
theorem Instr.Publishes.step (h : instr.Publishes) :
    (instr.step s fails rest).1 = s ∧
      ∃ ports, (instr.step s fails rest).2 = { republish := some (.list ports), todo := rest } := by
  obtain rfl | ⟨ports, rfl⟩ := h
  · exact ⟨rfl, _, rfl⟩
  · exact ⟨rfl, _, rfl⟩

theorem mem_restartSteps {service : Service} {status : Rollout.InstanceStatus} {id : String}
    {reason : RestartReason} (h : ∃ instr ∈ restartSteps service status id reason,
      instr.target = some x) :
    id = x ∧ restartSteps service status id reason =
      (if status = .running then [.withdraw id, .publish service.spec.ports] else []) ++
        [.stop id .proceed, .markInstanceFailedInPlace id] := by
  revert h
  fun_cases restartSteps service status id reason
  · simp
  · simp
  · intro h
    refine ⟨?_, rfl⟩
    split at h <;> simpa [Instr.target] using h

/-- A goroutine tears down what it was going to, or a restart has just read the instance. -/
theorem Instr.tearsDown_step (h : (instr.step s fails rest).2.TearsDown x) :
    (∃ copy reason current, instr = .restart copy reason ∧ copy.id = x ∧
      s.find x = some current ∧ (instr.step s fails rest).1 = s ∧
      (instr.step s fails rest).2 = { todo := [.restartChecked current.status copy reason] }) ∨
    Thread.TearsDown { todo := instr :: rest } x := by
  have hrest : (∃ i ∈ rest, i.target = some x) → Thread.TearsDown { todo := instr :: rest } x :=
    fun ⟨i, hi, hx⟩ => ⟨i, mem_cons_of_mem _ hi, hx⟩
  revert h
  fun_cases Instr.step s fails rest instr <;> try exact fun h => .inr (hrest h)
  case case17 copy reason current hfind _ _ =>
    intro h
    obtain rfl : copy.id = x := by simpa [Thread.TearsDown, Instr.target] using h
    exact .inl ⟨copy, reason, current, rfl, rfl, hfind, rfl, rfl⟩
  case case18 =>
    intro h
    obtain ⟨rfl, -⟩ := mem_restartSteps h
    exact .inr ⟨_, mem_cons_self, rfl⟩
  case case20 anyServing ports =>
    intro h
    refine .inr (hrest ?_)
    cases anyServing <;> simpa [Thread.TearsDown, Instr.target] using h
  all_goals simp [Thread.TearsDown, Instr.target]

end Steps

namespace World.Guarded

variable {w : World} {x : String} {i : ℕ} {t t' : Thread} {s' : Shared}

theorem inFlight_of {r : Republish} (hr : t.republish = some r) (h : r.inFlight = true) :
    t.inFlight = true := by
  rw [Thread.inFlight, hr]
  exact h

/-- While a call is in flight no other one is going to publish anything that it has listed. -/
theorem others_exclude (h : w.Guarded) (hi : w.threads[i]? = some t) (hflight : t.inFlight = true) :
    ∀ j u, j ≠ i → w.threads[j]? = some u → ∀ r ∈ u.republish, r.Excludes x := by
  intro j u hne hj r hr
  have hout : u.inFlight ≠ true := fun hu => hne (h.exclusive j i u t hj hi hu hflight)
  cases r with
  | list ports => trivial
  | _ => exact absurd (inFlight_of hr rfl) hout

/-- A call that has ended without the instance leaves it withdrawn. -/
theorem withdrawn_of_end (h : w.Guarded) (hi : w.threads[i]? = some t)
    (hflight : t.inFlight = true) (hnot : s'.NotRunning x) (hpublished : Without x s'.endpoints)
    (hend : t'.republish = none) : World.Withdrawn ⟨s', w.threads.set i t'⟩ x := by
  refine ⟨hnot, hpublished, fun u hu r hr => ?_⟩
  obtain ⟨j, hj⟩ := mem_iff_getElem?.mp hu
  rcases getElem?_set_cases hj with ⟨-, rfl⟩ | ⟨hne, hj⟩
  · rw [hend] at hr
    cases hr
  · exact h.others_exclude hi hflight j u hne hj r hr

theorem not_recording_of_comparing (h : w.Guarded) (hi : w.threads[i]? = some t)
    {eps : List Dataplane.Endpoint} (hr : t.republish = some (.comparing eps)) :
    ∀ (j : ℕ) (u : Thread) eps', w.threads[j]? = some u →
      u.republish ≠ some (.recording eps') := by
  intro j u eps' hj hu
  obtain rfl := h.exclusive j i u t hj hi (inFlight_of hu rfl) (inFlight_of hr rfl)
  cases hi.symm.trans hj
  rw [hr] at hu
  cases hu

/-- A set without the instance that has the recorded signature is the one published. -/
theorem without_of_same (h : w.Guarded) (hi : w.threads[i]? = some t)
    {eps : List Dataplane.Endpoint} (hr : t.republish = some (.comparing eps))
    (hsame : w.shared.lastPublished = some (endpointsSignature eps)) (hplain : Plain eps)
    (heps : Without x eps) : Without x w.shared.endpoints := by
  obtain ⟨hsig, hpublished⟩ := h.coherent.recorded (h.not_recording_of_comparing hi hr) _ hsame
  have hperm := perm_of_endpointsSignature hplain hpublished hsig
  intro ep hep
  have hface := hperm.mem_iff.mpr (mem_map_of_mem hep)
  obtain ⟨ep', hep', heq⟩ := mem_map.mp hface
  have hid : ep'.instanceID = ep.instanceID := congrArg Face.instanceID heq
  exact hid ▸ heps ep' hep'

/-- The stage of a goroutine inside a call of `republishService`, after its next access. -/
theorem stage_of_publishing (h : w.Guarded) (hi : w.threads[i]? = some t)
    (hplain : ∀ eps, t.republish = some (.comparing eps) → Plain eps)
    (hmove : t.Moves w.shared s' t') {r : Republish} (hr : t.republish = some r)
    (hnot : w.shared.NotRunning x) (hexcludes : r.Excludes x) (hnot' : s'.NotRunning x) :
    Stage x ⟨s', w.threads.set i t'⟩ t' := by
  have ht : ∀ r ∈ t.republish, r.Excludes x := by
    intro r' hr'
    cases hr.symm.trans hr'
    exact hexcludes
  have hnext := hmove.excludes hnot ht
  have hgoes : ∀ r', t'.republish = some r' → Stage x ⟨s', w.threads.set i t'⟩ t' := by
    intro r' hr'
    obtain ⟨republish, todo⟩ := t'
    cases hr'
    exact .publishing hnot' (hnext r' rfl)
  cases hmove with
  | instr hnone =>
    rw [hr] at hnone
    cases hnone
  | list | skip | add | built | differ | publish => exact hgoes _ rfl
  | @same eps hcompare hsame =>
    refine .withdrawn (h.withdrawn_of_end hi (inFlight_of hcompare rfl) hnot' ?_ rfl)
    exact h.without_of_same hi hcompare hsame (hplain eps hcompare) (ht _ hcompare)
  | @record eps hrecord =>
    refine .withdrawn (h.withdrawn_of_end hi (inFlight_of hrecord rfl) hnot' ?_ rfl)
    have heps := (h.coherent.recording i t eps hi hrecord).2
    exact heps.symm ▸ ht _ hrecord

/-- The stage of a goroutine outside of such a call, after its next access. -/
theorem stage_of_instr (h : w.Guarded) {fails fails' : Bool} {instr : Instr} {rest : List Instr}
    (hi : w.threads[i]? = some { todo := instr :: rest })
    (hfound : ∀ x ∈ w.unserved? (.step i fails), w.Withdrawn x)
    (hrise : ∀ x, Thread.TearsDown { todo := instr :: rest } x → w.shared.NotRunning x →
      (instr.step w.shared fails' rest).1.NotRunning x)
    (htears : (instr.step w.shared fails' rest).2.TearsDown x) :
    Stage x ⟨(instr.step w.shared fails' rest).1,
      w.threads.set i (instr.step w.shared fails' rest).2⟩ (instr.step w.shared fails' rest).2 := by
  have hmove : Thread.Moves w.shared { todo := instr :: rest } _ _ := .instr rfl rfl fails'
  rcases Instr.tearsDown_step htears with
    ⟨copy, reason, current, rfl, rfl, hfind, hshared, hthread⟩ | hold
  · rw [hshared, hthread] at hmove ⊢
    by_cases hrunning : current.status = .running
    · rw [hrunning]
      exact .checked rfl
    · have hwithdrawn : w.Withdrawn copy.id :=
        hfound copy.id (by simp [World.unserved?, hi, hfind, hrunning])
      exact .withdrawn (hwithdrawn.move hi hmove hwithdrawn.1)
  · have hstage := h.stages i _ hi x hold
    cases hstage with
    | checked hid =>
      obtain ⟨-, hsteps⟩ := mem_restartSteps htears
      have hthread : (Instr.step w.shared fails' rest (.restartChecked .running _ _)).2 =
          { todo := _ } := congrArg (Thread.mk none) hsteps
      rw [hthread]
      exact .decided (Or.inl (congrArg Instr.withdraw hid)) (Or.inr ⟨_, rfl⟩)
    | decided hflip hpublish =>
      obtain ⟨hnot, hthread⟩ := @Instr.Withdraws.step x w.shared fails' _ instr hflip
      rw [hthread]
      exact .flipped hnot hpublish
    | flipped hnot hpublish =>
      obtain ⟨hshared, ports, hthread⟩ := @Instr.Publishes.step w.shared fails' _ instr hpublish
      rw [hshared, hthread]
      exact .publishing hnot trivial
    | withdrawn hwithdrawn =>
      have hafter := hwithdrawn.move hi hmove (hrise x hold hwithdrawn.1)
      have hnext := (instr.step_frame w.shared fails' rest).2
      generalize (instr.step w.shared fails' rest).2 = t' at hafter hnext ⊢
      obtain ⟨republish, todo⟩ := t'
      cases republish with
      | none => exact .withdrawn hafter
      | some r =>
        obtain ⟨ports, rfl⟩ := hnext r rfl
        exact .publishing hafter.1 trivial

theorem stage_of_move (h : w.Guarded) {fails : Bool} (hcareful : w.Careful (.step i fails))
    (hi : w.threads[i]? = some t) (hmove : t.Moves w.shared s' t')
    (hrise : ∀ x, t.TearsDown x → w.shared.NotRunning x → s'.NotRunning x)
    (htears : t'.TearsDown x) : Stage x ⟨s', w.threads.set i t'⟩ t' := by
  obtain ⟨-, hplain, hfound, -⟩ := hcareful
  have hplain : ∀ eps, t.republish = some (.comparing eps) → Plain eps := by
    intro eps hr
    exact hplain (i, eps) (by simp [World.comparing?, hi, hr])
  cases hrep : t.republish with
  | some r =>
    have hsame : t'.todo = t.todo := by
      cases hmove with
      | instr hnone =>
        rw [hrep] at hnone
        cases hnone
      | _ => rfl
    have hold : t.TearsDown x := by rwa [Thread.TearsDown, ← hsame]
    have hstage := h.stages i t hi x hold
    cases hstage with
    | publishing hnot hexcludes =>
      cases hrep
      exact h.stage_of_publishing hi hplain hmove rfl hnot hexcludes (hrise x hold hnot)
    | _ => cases hrep
  | none =>
    cases hmove with
    | @instr _ instr rest htodo fails' =>
      obtain ⟨republish, todo⟩ := t
      cases hrep
      cases htodo
      exact h.stage_of_instr hi hfound hrise htears
    | list hr | skip hr | add hr | built hr | same hr | differ hr | publish hr | record hr =>
      rw [hrep] at hr
      cases hr

/-- A guarded world steps serially. -/
theorem serial (h : w.Guarded) {a : Action} (hplain : ∀ p ∈ w.comparing? a, Plain p.2) :
    w.Serial a := by
  intro p hp
  refine ⟨hplain p hp, fun _ j hj hne => ?_⟩
  cases a with
  | step i fails =>
    simp only [World.comparing?] at hp
    split at hp
    case h_1 eps hr =>
      cases hp
      obtain ⟨t, hi, hr⟩ := Option.bind_eq_some_iff.mp hr
      rw [getElem?_eq_getElem hj, Option.any_some]
      by_contra hin
      have hflight : (w.threads[j]).inFlight = true := by
        revert hin
        unfold Thread.inSection Thread.inFlight
        cases (w.threads[j]).republish with
        | none => simp
        | some r => cases r <;> simp [Republish.inSection, Republish.inFlight]
      exact hne (h.exclusive j i _ t (getElem?_eq_getElem hj) hi hflight
        (inFlight_of hr rfl))
    case h_2 => cases hp
  | _ => cases hp

/-- Only the listing puts a call in flight. -/
theorem exclusive_of_move (h : w.Guarded) {fails : Bool} (hexclusive : w.Exclusive (.step i fails))
    (hi : w.threads[i]? = some t) (hmove : t.Moves w.shared s' t') :
    ∀ (j k : ℕ) (u v : Thread), (w.threads.set i t')[j]? = some u →
      (w.threads.set i t')[k]? = some v → u.inFlight = true → v.inFlight = true → j = k := by
  have hothers : t'.inFlight = true → ∀ j u, j ≠ i → w.threads[j]? = some u →
      u.inFlight = false := by
    intro ht' j u hne hj
    by_contra hu
    have hu : u.inFlight = true := by simpa using hu
    have hwas : t.inFlight = true → False :=
      fun ht => hne (h.exclusive j i u t hj hi hu ht)
    cases hmove with
    | @instr hr instr rest htodo fails' =>
      cases hrep : (instr.step w.shared fails' rest).2.republish with
      | none =>
        rw [Thread.inFlight, hrep] at ht'
        cases ht'
      | some r =>
        obtain ⟨ports, rfl⟩ := (instr.step_frame w.shared fails' rest).2 r hrep
        rw [Thread.inFlight, hrep] at ht'
        cases ht'
    | list hr =>
      have hlisting : w.listing? (.step i fails) = some i := by simp [World.listing?, hi, hr]
      have hlen := (List.getElem?_eq_some_iff.mp hj).1
      have hnone := hexclusive i hlisting j hlen hne
      rw [hj, Option.any_some, hu] at hnone
      cases hnone
    | same | record => cases ht'
    | skip hr | add hr | built hr | differ hr | publish hr => exact hwas (inFlight_of hr rfl)
  intro j k u v hj hk hu hv
  rcases getElem?_set_cases hj with ⟨rfl, rfl⟩ | ⟨hjne, hj'⟩
  · rcases getElem?_set_cases hk with ⟨rfl, -⟩ | ⟨hkne, hk'⟩
    · rfl
    · rw [hothers hu k v hkne hk'] at hv
      cases hv
  · rcases getElem?_set_cases hk with ⟨rfl, rfl⟩ | ⟨-, hk'⟩
    · rw [hothers hv j u hjne hj'] at hu
      cases hu
    · exact h.exclusive j k u v hj' hk' hu hv

/-- One move of a thread. -/
theorem move (h : w.Guarded) {fails : Bool} (hcareful : w.Careful (.step i fails))
    (hi : w.threads[i]? = some t) (hmove : t.Moves w.shared s' t')
    (hstep : w.step (.step i fails) = some ⟨s', w.threads.set i t'⟩) :
    World.Guarded ⟨s', w.threads.set i t'⟩ := by
  have ⟨hexclusive, hplain, _, hrise⟩ := hcareful
  have hrise : ∀ u ∈ w.threads, ∀ x, u.TearsDown x → w.shared.NotRunning x → s'.NotRunning x :=
    fun u hu x ⟨instr, hinstr, hx⟩ => hrise _ hstep u hu instr hinstr x hx
  refine ⟨h.coherent.move (h.serial hplain) hi hmove, h.exclusive_of_move hexclusive hi hmove,
    fun j u hj x htears => ?_⟩
  rcases getElem?_set_cases hj with ⟨-, rfl⟩ | ⟨-, hj⟩
  · exact h.stage_of_move hcareful hi hmove (hrise t (mem_of_getElem? hi)) htears
  · have hnot := hrise u (mem_of_getElem? hj) x htears
    exact (h.stages j u hj x htears).other hnot fun hw => hw.move hi hmove (hnot hw.1)

/-- The environment writes the store. -/
theorem environment (h : w.Guarded) (hsame : w.shared.SamePublished s')
    (hrise : ∀ t ∈ w.threads, ∀ x, t.TearsDown x → w.shared.NotRunning x → s'.NotRunning x) :
    World.Guarded ⟨s', w.threads⟩ := by
  refine ⟨h.coherent.environment hsame (fun _ _ => Or.inl) fun _ _ => Or.inl,
    h.exclusive, fun i t hi x htears => ?_⟩
  have hnot := hrise t (mem_of_getElem? hi) x htears
  refine (h.stages i t hi x htears).other hnot fun hw => ⟨hnot hw.1, ?_, hw.2.2⟩
  rw [hsame.endpoints]
  exact hw.2.1

/-- The stage at which a teardown begins. -/
theorem stage_of_call {c : Call} {v : World}
    (hfound : ∀ x ∈ w.unserved? (.call c), v.Withdrawn x)
    (htears : Thread.TearsDown { todo := c.start } x) : Stage x v { todo := c.start } := by
  cases c with
  | deleteInstance copy =>
    by_cases hrunning : copy.status = .running
    · obtain rfl : copy.id = x := by
        simpa [Call.start, hrunning, Thread.TearsDown, Instr.target] using htears
      simp only [Call.start, hrunning, reduceCtorEq, or_self, if_false, if_true]
      refine .decided (Or.inr ⟨_, rfl, ?_⟩) (Or.inl rfl)
      simp [terminatingCopy, hrunning]
    · obtain rfl : copy.id = x := by
        simp only [Call.start, hrunning, if_false, append_nil, Thread.TearsDown] at htears
        split at htears <;> simpa [Instr.target] using htears
      exact .withdrawn (hfound _ (by simp [World.unserved?, hrunning]))
  | stopInstance copy =>
    by_cases hrunning : copy.status = .running
    · obtain rfl : copy.id = x := by
        simpa [Call.start, hrunning, Thread.TearsDown, Instr.target] using htears
      simp only [Call.start, hrunning, if_true]
      exact .decided (Or.inl rfl) (Or.inl rfl)
    · obtain rfl : copy.id = x := by
        simpa [Call.start, hrunning, Thread.TearsDown, Instr.target] using htears
      exact .withdrawn (hfound _ (by simp [World.unserved?, hrunning]))
  | _ =>
    simp [Call.start, Thread.TearsDown, Instr.target] at htears

/-- A new call. -/
theorem call (h : w.Guarded) {c : Call} (hserial : w.Serial (.call c))
    (hfound : ∀ x ∈ w.unserved? (.call c), w.Withdrawn x) :
    World.Guarded { w with threads := w.threads ++ [{ todo := c.start }] } := by
  have hkept : ∀ {x : String}, w.Withdrawn x →
      World.Withdrawn { w with threads := w.threads ++ [{ todo := c.start }] } x := by
    intro x hw
    refine ⟨hw.1, hw.2.1, forall_mem_append.mpr ⟨hw.2.2, ?_⟩⟩
    exact forall_mem_singleton.mpr nofun
  refine ⟨h.coherent.step hserial rfl, fun i j t u hi hj ht hu => ?_, fun i t hi x htears => ?_⟩
  · rcases getElem?_concat_cases hi with hi | ⟨-, rfl⟩
    · rcases getElem?_concat_cases hj with hj | ⟨-, rfl⟩
      · exact h.exclusive i j t u hi hj ht hu
      · cases hu
    · cases ht
  · rcases getElem?_concat_cases hi with hi | ⟨-, rfl⟩
    · exact (h.stages i t hi x htears).other id hkept
    · exact stage_of_call (fun y hy => hkept (hfound y hy)) htears

/-- One careful step. -/
theorem step (h : w.Guarded) {a : Action} (hcareful : w.Careful a) {v : World}
    (hstep : w.step a = some v) : v.Guarded := by
  have ⟨_, hplain, hfound, hrise⟩ := hcareful
  have hrise : ∀ t ∈ w.threads, ∀ x, t.TearsDown x → w.shared.NotRunning x →
      v.shared.NotRunning x :=
    fun t ht x ⟨instr, hinstr, hx⟩ => hrise v hstep t ht instr hinstr x hx
  cases a with
  | call c =>
    cases hstep
    exact h.call (h.serial hplain) hfound
  | step i fails =>
    obtain ⟨t, s', t', hi, hmove, rfl⟩ := World.moves_of_step hstep
    exact h.move hcareful hi hmove hstep
  | _ =>
    cases hstep
    exact h.environment (by exact ⟨rfl, rfl, rfl⟩) hrise

/-- Where a container is about to be stopped, the instance is withdrawn. -/
theorem withdrawn_of_stops (h : w.Guarded) {a : Action} (hstop : w.stops? a = some x) :
    w.Withdrawn x := by
  cases a with
  | step i fails =>
    simp only [World.stops?] at hstop
    split at hstop
    case h_1 onError rest hi =>
      cases hstop
      have hstage := h.stages i _ hi _ ⟨_, mem_cons_self, rfl⟩
      cases hstage with
      | withdrawn hw => exact hw
      | decided hflip => obtain hflip | ⟨_, hflip, -⟩ := hflip <;> cases hflip
      | flipped _ hpublish => obtain hpublish | ⟨_, hpublish⟩ := hpublish <;> cases hpublish
    case h_2 => cases hstop
  | _ => cases hstop

end World.Guarded

/-- Where a run starts. -/
theorem World.Fresh.guarded {w : World} (h : w.Fresh) : w.Guarded where
  coherent := h.coherent
  exclusive i j t u hi := by simp [h.threads] at hi
  stages i t hi := by simp [h.threads] at hi

/-- Whenever a container is stopped in a careful run, the set last published for the
service does not have its instance. -/
theorem withdrawn_before_stop {w₀ w : World} {run : List Action} {a : Action} {x : String}
    (hfresh : w₀.Fresh) (hrun : exec World.step w₀ run = some w)
    (hcareful : Along World.step World.Careful w₀ run) (hstop : w.stops? a = some x) :
    Without x w.shared.endpoints := by
  have hguarded : w.Guarded :=
    exec_invariant_along (fun s a t hs ha hst => hs.step ha hst) hfresh.guarded hcareful hrun
  exact (hguarded.withdrawn_of_stops hstop).2.1

/-- The instance is published, and then deleted with a copy that says it is running. -/
def deletedRunning : List Action :=
  [Action.call (.republishService webPorts)] ++ List.replicate 7 (Action.step 0 false) ++
    [Action.call (.deleteInstance (webInstance true))] ++ List.replicate 8 (Action.step 1 false)

/-- A running instance is deleted. -/
theorem withdrawn_before_stop_deletedRunning :
    ∃ w, exec World.step ⟨webShared true [] none, []⟩ deletedRunning = some w ∧
      w.stops? (.step 1 false) = some "a1" ∧ Without "a1" w.shared.endpoints := by
  have hrun : ∃ w, exec World.step ⟨webShared true [] none, []⟩ deletedRunning = some w ∧
      w.stops? (.step 1 false) = some "a1" := ⟨_, rfl, rfl⟩
  obtain ⟨w, hrun, hstop⟩ := hrun
  exact ⟨w, hrun, hstop,
    withdrawn_before_stop ⟨by decide, rfl, rfl⟩ hrun (by decide) hstop⟩

/-- The instance as it was before its first readiness probe passed. -/
def startingInstance : Instance :=
  { webInstance false with
    toInstance := { (webInstance false).toInstance with
      status := .starting
      readyChangedAt := none } }

/-- The instance is promoted and published after the deletion has read it. -/
def promotedMeanwhile : List Action :=
  [Action.call (.promoteToRunningOnReady "a1" 2)] ++ List.replicate 8 (Action.step 0 false) ++
    [Action.call (.deleteInstance startingInstance), Action.step 1 false]

/-- The deletion takes the instance for one that was never published, and stops its
container with the endpoint published and healthy. -/
theorem stopped_while_published :
    ∃ w, exec World.step
        ⟨{ webShared false [] none with instances := [startingInstance] }, []⟩
        promotedMeanwhile = some w ∧
      w.stops? (.step 1 false) = some "a1" ∧ w.shared.endpoints = [webEndpoint true] ∧
      ¬ Without "a1" w.shared.endpoints := by
  refine ⟨_, rfl, rfl, rfl, ?_⟩
  decide

end Rune.Endpoints
