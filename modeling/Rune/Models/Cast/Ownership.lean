import Rune.Models.Cast.Execution

/-!
# Conservation of ownership

A resource that the release created should be in the owned set of its record while
it is live and not adopted: what is not in the record is never pruned. A cast makes
the owned set from the desired resources alone. So the law holds in every state of a
run exactly if no recorded cast leaves out a resource of the release's own.
-/

namespace Rune.Cast

open Rune.Core

/-- The key is in the owned set of the record. -/
def World.Records (w : World) (key : String) : Prop :=
  key ∈ (ownsOf w.record).map OwnerRef.key

instance (w : World) (key : String) : Decidable (w.Records key) :=
  inferInstanceAs (Decidable (_ ∈ _))

/-- The resource is live, created by the release and not adopted by another. -/
def World.Mine (w : World) (key : String) : Prop :=
  ∃ r, w.live key = some r ∧ r.mine = true

/-- Every resource of the release's own is in its record. -/
def World.Conserved (w : World) : Prop := ∀ key, w.Mine key → w.Records key

/-- The resources that a cast will own: shared kinds are only referenced. -/
def ReleaseSpec.ownable (spec : ReleaseSpec) : List OwnerRef :=
  spec.resources.filter fun d => !isSharedClusterKind d.resourceType

/-- If the step prepares a cast and the cast is recorded, its desired resources
include all that the release has of its own. -/
def World.CastKeeps (w : World) : Step → Prop
  | .prepare spec env => ∀ e, w.running = none → spec.name = w.name → spec.ns = w.ns →
      prepare spec env w.record w.live = .ok e →
      ∀ key, w.Mine key → key ∈ spec.ownable.map OwnerRef.key
  | _ => True

/-- The cast a step prepares, if it prepares one, is not atomic. -/
def Step.NonAtomic : Step → Prop
  | .prepare spec _ => spec.atomic = false
  | _ => True

theorem owning_of_ne {c : PlannedChange} (hr : c.action ≠ .reference) (hp : c.action ≠ .prune) :
    c.owning = true := by
  unfold PlannedChange.owning
  cases h : c.action <;> simp_all

variable {e : Execution} {env : Surroundings} {live : Cluster} {record : Option Release}
  {spec : ReleaseSpec} {w : World} {a : Step}

/-- A prepared cast comes from a plan against the record as it was read. -/
theorem prepare_spec (h : prepare spec env record live = .ok e) :
    ∃ prev p, readRecord env.read record = .ok prev ∧
      buildPlan spec.name spec.ns spec.resources prev (lookupIn live env.lookupError) spec.adopt =
        .ok p ∧
      e = ⟨spec, pendingRelease spec prev p, prev, [], [],
        .applying (splitForExecution p).1 (splitForExecution p).2⟩ := by
  obtain ⟨prev, hread, h⟩ := bind_eq_ok h
  obtain ⟨p, hplan, h⟩ := bind_eq_ok h
  obtain ⟨_, _, h⟩ := bind_eq_ok h
  obtain ⟨_, _, h⟩ := bind_eq_ok h
  obtain ⟨_, _, h⟩ := bind_eq_ok h
  obtain ⟨_, _, h⟩ := bind_eq_ok h
  refine ⟨prev, p, hread, ?_, (Except.ok.inj h).symm⟩
  rcases hb : buildPlan spec.name spec.ns spec.resources prev (lookupIn live env.lookupError)
    spec.adopt with err | p'
  · rw [hb] at hplan
    cases hplan
  · rw [hb] at hplan
    cases hplan
    rfl

/-- A cast owns what it desires, but for the shared kinds, whatever it found. -/
theorem prepare_owns (h : prepare spec env record live = .ok e) : e.rel.owns = spec.ownable := by
  obtain ⟨prev, p, _, hplan, rfl⟩ := prepare_spec h
  exact partitionOwnership_buildPlan hplan

/-- The cast is on the path without rollback, and owns what it still has to apply. -/
def Execution.Sound (e : Execution) : Prop :=
  e.spec.atomic = false ∧
    match e.phase with
    | .applying todo _ => ∀ c ∈ todo, c.action ≠ .reference → c.ref ∈ e.rel.owns
    | .reverting _ _ => False
    | _ => True

theorem Execution.Sound.owns_todo {todo prunes : List PlannedChange} (hs : e.Sound)
    (hphase : e.phase = .applying todo prunes) :
    ∀ c ∈ todo, c.action ≠ .reference → c.ref ∈ e.rel.owns := by
  have htodo := hs.2
  rwa [hphase] at htodo

/-- A cast that is not atomic reverts nothing. -/
theorem Execution.Sound.not_reverting {todo : List PlannedChange} {clean : Bool} (hs : e.Sound)
    (hphase : e.phase = .reverting todo clean) : False := by
  have hfalse := hs.2
  rwa [hphase] at hfalse

/-- The cast in progress is sound, and its owned set is the recorded one. -/
def World.InStep (w : World) : Prop :=
  ∀ e, w.running = some e → e.rel.owns = ownsOf w.record ∧ e.Sound

/-- Where an execution starts. -/
theorem Execution.sound_of_prepare (hna : spec.atomic = false)
    (h : prepare spec env record live = .ok e) : e.Sound := by
  obtain ⟨prev, p, _, hplan, rfl⟩ := prepare_spec h
  refine ⟨hna, fun c hc hr => ?_⟩
  obtain ⟨hmem, hp⟩ := mem_applies.mp hc
  exact List.mem_map_of_mem (List.mem_filter.mpr ⟨hmem, owning_of_ne hr hp⟩)

/-- Going on with a step, or failing it, leaves the record and the kind of cast alone. -/
theorem Execution.Sound.proceed (e : Execution) (phase : Phase) (o : Outcome)
    (hna : e.spec.atomic = false) (hphase : ({ e with phase := phase } : Execution).Sound) :
    (e.proceed phase o).rel = e.rel ∧ (e.proceed phase o).Sound := by
  cases o with
  | ok => exact ⟨rfl, hphase⟩
  | failed landed =>
    have hfail : e.proceed phase (.failed landed) = { e with phase := .failing } := by
      simp [Execution.proceed, Execution.fail, hna]
    rw [hfail]
    exact ⟨rfl, hna, trivial⟩

theorem World.InStep.proceed (phase : Phase) (o : Outcome) (live : Cluster)
    (howns : e.rel.owns = ownsOf w.record) (hna : e.spec.atomic = false)
    (hphase : ({ e with phase := phase } : Execution).Sound) :
    ({ w with live := live, running := some (e.proceed phase o) } : World).InStep := by
  rintro e' he'
  cases he'
  obtain ⟨hrel, hs⟩ := Execution.Sound.proceed e phase o hna hphase
  exact ⟨hrel ▸ howns, hs⟩

/-- Without rollback a cast ends with the owned set it was prepared with. -/
theorem Execution.Sound.final_owns {rel : Release} (hs : e.Sound) (h : e.final = some rel) :
    rel.owns = e.rel.owns := by
  unfold Execution.final at h
  split at h
  · cases h
    rfl
  · cases h
    rfl
  · rename_i hphase
    exact (hs.not_reverting hphase).elim
  · cases h
    rfl
  · cases h

/-- Every step of a run without atomic casts keeps the cast in progress in step
with the record. -/
theorem World.InStep.step {w' : World} (hw : w.InStep) (hna : a.NonAtomic)
    (h : w.step a = some w') : w'.InStep := by
  cases World.step_moves h with
  | refused => exact hw
  | prepared hrun hname hns hp =>
    rintro e' he'
    cases he'
    exact ⟨rfl, Execution.sound_of_prepare hna hp⟩
  | @applied o e c todo prunes he hphase =>
    obtain ⟨howns, hsound⟩ := hw e he
    have htodo : ∀ d ∈ todo, d.action ≠ .reference → d.ref ∈ e.rel.owns := fun d hd =>
      hsound.owns_todo hphase d (List.mem_cons_of_mem _ hd)
    exact .proceed (e := e.capture w.live c) _ o _ howns hsound.1 ⟨hsound.1, htodo⟩
  | @verified o e prunes he hphase =>
    obtain ⟨howns, hsound⟩ := hw e he
    exact .proceed _ o w.live howns hsound.1 ⟨hsound.1, trivial⟩
  | @pruned o e c todo he hphase =>
    obtain ⟨howns, hsound⟩ := hw e he
    exact .proceed (e := e.capture w.live c) _ o _ howns hsound.1 ⟨hsound.1, trivial⟩
  | reverted he hphase hr => exact ((hw _ he).2.not_reverting hphase).elim
  | saved he hf =>
    intro e' he'
    cases he'
  | crashed =>
    intro e' he'
    cases he'
  | adopted hother => exact hw
  | removed => exact hw

/-- A resource of the release's own that stands after an update of one key stood
before it, or is the updated one. -/
theorem mine_update {key k : String} {v : Option Resource} {r : Resource}
    (h : Function.update live k v key = some r) : live key = some r ∨ key = k ∧ v = some r := by
  by_cases hk : key = k
  · subst hk
    exact Or.inr ⟨rfl, by simpa using h⟩
  · exact Or.inl (by simpa [hk] using h)

/-- What is the release's own after a step was so before, or has just been
applied by the cast in progress and is in the record. -/
theorem World.mine_of_step {w' : World} {key : String} (hw : w.InStep) (h : w.step a = some w')
    (hmine : w'.Mine key) : w.Mine key ∨ w'.Records key := by
  obtain ⟨r, hr, hm⟩ := hmine
  cases World.step_moves h with
  | refused | prepared _ _ _ _ | verified _ _ | saved _ _ | crashed => exact Or.inl ⟨r, hr, hm⟩
  | @applied o e c todo prunes he hphase =>
    obtain ⟨howns, hsound⟩ := hw e he
    simp only [Execution.land] at hr
    split_ifs at hr with hlands href
    · exact Or.inl ⟨r, hr, hm⟩
    · rcases mine_update hr with hr | ⟨rfl, _⟩
      · exact Or.inl ⟨r, hr, hm⟩
      · have hc := hsound.owns_todo hphase c List.mem_cons_self href
        rw [howns] at hc
        exact Or.inr (List.mem_map_of_mem hc)
    · exact Or.inl ⟨r, hr, hm⟩
  | pruned he hphase =>
    split_ifs at hr
    · rcases mine_update hr with hr | ⟨_, hv⟩
      · exact Or.inl ⟨r, hr, hm⟩
      · cases hv
    · exact Or.inl ⟨r, hr, hm⟩
  | reverted he hphase _ => exact ((hw _ he).2.not_reverting hphase).elim
  | adopted hother =>
    rcases mine_update hr with hr | ⟨_, hv⟩
    · exact Or.inl ⟨r, hr, hm⟩
    · cases hv
      cases hm
  | removed =>
    rcases mine_update hr with hr | ⟨_, hv⟩
    · exact Or.inl ⟨r, hr, hm⟩
    · cases hv

/-- A step writes another owned set only where it records a prepared cast. -/
theorem World.record_of_step {w' : World} (hw : w.InStep) (h : w.step a = some w') :
    ownsOf w'.record = ownsOf w.record ∨
      ∃ spec env e, a = .prepare spec env ∧ w.running = none ∧ spec.name = w.name ∧
        spec.ns = w.ns ∧ prepare spec env w.record w.live = .ok e ∧
        w' = { w with record := some e.rel, running := some e } := by
  cases World.step_moves h with
  | @prepared spec env e hrun hname hns hp =>
    exact Or.inr ⟨spec, env, e, rfl, hrun, hname, hns, hp, rfl⟩
  | @saved ok e rel he hf =>
    obtain ⟨howns, hsound⟩ := hw e he
    left
    cases ok with
    | false => rfl
    | true => exact (hsound.final_owns hf).trans howns
  | refused | applied _ _ | verified _ _ | pruned _ _ | reverted _ _ _ | crashed | adopted _
  | removed => exact Or.inl rfl

/-- One step of the world. -/
theorem World.Conserved.step {w' : World} (hw : w.InStep) (hc : w.Conserved)
    (hkeeps : w.CastKeeps a) (h : w.step a = some w') : w'.Conserved := by
  intro key hmine
  rcases World.mine_of_step hw h hmine with hbefore | hrecorded
  · rcases World.record_of_step hw h with hsame | ⟨spec, env, e, rfl, hrun, hname, hns, hp, rfl⟩
    · rw [World.Records, hsame]
      exact hc key hbefore
    · have hkept := hkeeps e hrun hname hns hp key hbefore
      rwa [← prepare_owns hp] at hkept
  · exact hrecorded

/-- A recorded cast that breaks no law has kept what the release has of its own. -/
theorem World.castKeeps_of_conserved (h : ∀ w', w.step a = some w' → w'.Conserved) :
    w.CastKeeps a := by
  cases a with
  | prepare spec env =>
    intro e hrun hname hns hp key hmine
    have hstep : w.step (.prepare spec env) =
        some { w with record := some e.rel, running := some e } := by
      simp [World.step, hrun, hname, hns, hp]
    have hkey := h _ hstep key hmine
    rwa [World.Records, ownsOf, Option.map_some, prepare_owns hp] at hkey
  | apply o | verify o | prune o | revert o | save ok | crash | adopted k stamp | removed k =>
    trivial

/-- A release that has not been cast yet. -/
def World.start (name ns : String) (live : Cluster) : World := ⟨name, ns, live, none, none⟩

/-- Over every run of casts without rollback, the law holds in every state
exactly if every recorded cast desires all that the release has of its own. -/
theorem ownership_conserved_iff (name ns : String) {live : Cluster}
    (hlive : ∀ key r, live key = some r → r.mine = false) {steps : List Step}
    (hna : ∀ a ∈ steps, a.NonAtomic) :
    (World.start name ns live).Conserved ∧
    (Along World.step (fun w a => ∀ w', w.step a = some w' → w'.Conserved)
        (World.start name ns live) steps ↔
      Along World.step World.CastKeeps (World.start name ns live) steps) := by
  have hinit : (World.start name ns live).InStep ∧ (World.start name ns live).Conserved := by
    refine ⟨fun e he => (by cases he), fun key hmine => ?_⟩
    obtain ⟨r, hr, hm⟩ := hmine
    rw [hlive key r hr] at hm
    cases hm
  refine ⟨hinit.2, along_iff (fun w => w.InStep ∧ w.Conserved) ?_ ?_ hinit⟩
  · rintro w a _ ⟨hw, hc⟩
    exact ⟨World.castKeeps_of_conserved, fun hkeeps w' h => hc.step hw hkeeps h⟩
  · rintro w a ha w' ⟨hw, hc⟩ hkeeps h
    exact ⟨hw.step (hna a ha) h, hc.step hw hkeeps h⟩

/-- Surroundings in which preparing a cast meets no error. -/
def calm : Surroundings := ⟨.stored, fun _ => none, fun _ => none, none⟩

/-- A release of a service and, where asked for, its settings. -/
def shopSpec (withSettings : Bool) : ReleaseSpec where
  name := "shop"
  ns := "default"
  resources := ⟨.service, "default", "web"⟩ ::
    if withSettings then [⟨.configmap, "default", "settings"⟩] else []
  adopt := false
  detach := false
  atomic := false

/-- A first cast that crashes between its two applies loses nothing: the law
holds after every one of its steps. -/
theorem ownership_conserved_iff_firstCast :
    Along World.step (fun w a => ∀ w', w.step a = some w' → w'.Conserved)
      (World.start "shop" "default" fun _ => none)
      [.prepare (shopSpec true) calm, .apply .ok, .crash] ∧
    (exec World.step (World.start "shop" "default" fun _ => none)
      [.prepare (shopSpec true) calm, .apply .ok, .crash]).isSome = true := by
  have hna : ∀ a ∈ [Step.prepare (shopSpec true) calm, .apply .ok, .crash], a.NonAtomic := by
    intro a ha
    simp only [List.mem_cons, List.not_mem_nil, or_false] at ha
    rcases ha with rfl | rfl | rfl
    · rfl
    · trivial
    · trivial
  have hlive : ∀ key r, (fun _ => none : Cluster) key = some r → r.mine = false :=
    fun _ _ h => by cases h
  have hiff := (ownership_conserved_iff "shop" "default" hlive hna).2
  refine ⟨hiff.mpr ⟨?_, fun _ _ => ⟨trivial, fun _ _ => ⟨trivial, fun _ _ => trivial⟩⟩⟩, rfl⟩
  rintro e _ _ _ _ key ⟨r, hr, _⟩
  cases hr

/-- A cast that drops the settings and fails in its only apply: the settings stay
live and are in no record, and the same cast made again does not prune them. -/
theorem ownership_lost_failedApply :
    ∃ w : World,
      exec World.step (World.start "shop" "default" fun _ => none)
        [.prepare (shopSpec true) calm, .apply .ok, .apply .ok, .verify .ok, .save true,
          .prepare (shopSpec false) calm, .apply (.failed false), .save true] = some w ∧
      w.running = none ∧ w.Mine "configmap/default/settings" ∧
      ¬ w.Records "configmap/default/settings" ∧
      (buildPlan "shop" "default" (shopSpec false).resources w.record
        (lookupIn w.live fun _ => none) false).toOption.map Plan.hasPrune = some false := by
  refine ⟨_, rfl, rfl, ⟨_, rfl, rfl⟩, ?_, ?_⟩
  · decide
  · decide

end Rune.Cast
