import Rune.Core.Run
import Rune.Models.Services.Writers

/-!
# What is left of a deleted service

A tombstone lists the cleanups that remain, and reconcile passes work the list off before the last
one removes the record. The list is made once, from the copy that the deletion request read, and a
cleanup goes by one listing. So volumes of an earlier spec are forgotten, and what a restart
creates behind the listing. Apart from these the record outlives everything the service owns,
through passes that stop at any point.
-/

namespace Rune.Services

open Rune.Core

/-- A row that an instance brings with it. -/
inductive Create
  | inst (id : String)
  | volume (name : String)

/-- The cleanup that is responsible for a row. -/
def Create.cleanup : Create → FinalizerType
  | inst _ => .instanceCleanup
  | volume _ => .volumeCleanup

/-- A new instance, with how far the resolution of its mounts gets and which of the
names are taken by volumes of others. -/
structure NewInstance where
  id : String
  ordinal : ℕ
  resolved : ℕ
  taken : String → Bool

/-- The volumes that the claim templates of a service give one replica. -/
def claimTemplateVolumes (s : Service) (ordinal : ℕ) : List String :=
  (s.spec.volumes.filter fun m => m.claimTemplate.isSome).map fun m =>
    m.name ++ "-" ++ s.name ++ "-" ++ toString ordinal

/-- The rows that creating an instance adds, in order. -/
def NewInstance.creates (s : Service) (new : NewInstance) : List Create :=
  .inst new.id :: (((claimTemplateVolumes s new.ordinal).take new.resolved).filter
    fun name => !new.taken name).map .volume

/-- A reconcile pass under way, at the access it makes next. -/
inductive Pass
  | creating (todo : List Create)
  | listInstances
  | removeInstances (todo : List String) (failed : Bool)
  | relistInstances
  | listVolumes
  | removeVolumes (todo : List String) (failed : Bool)
  /-- Take the completed finalizer off the list. -/
  | advance (head : FinalizerType)
  | removeRecord

/-- The row that the pass creates next. -/
def Pass.next? : Pass → Option Create
  | creating todo => todo.head?
  | _ => none

/-- Where a pass begins that reads this record. -/
def Pass.begin (r : Service) (new : List NewInstance) : Pass :=
  if r.metadata.deletionTimestamp then
    match r.metadata.finalizers with
    | [] => .removeRecord
    | .instanceCleanup :: _ => .listInstances
    | .volumeCleanup :: _ => .listVolumes
    | .other text :: _ => .advance (.other text)
  else .creating (new.flatMap (NewInstance.creates r))

/-- The record of the service and what it owns: the instances of its name and the
volumes with it as their owner. -/
structure Estate where
  record : Option Service
  instances : List String := []
  volumes : List String := []
  /-- The copies that deletion requests have read. -/
  requests : List Service := []
  /-- The pass under way; there is one at a time. -/
  pass : Option Pass := none
  /-- The restarts past their checks, with the rows they will create. -/
  restarts : List (List Create) := []

/-- What can happen. -/
inductive EstateAction
  | cast (key : String) (rendered : Service)
  /-- A deletion request reads the service. -/
  | beginDeletion
  | handleRealDeletion (request : ℕ)
  | beginPass (new : List NewInstance)
  /-- The pass makes its next access, which may fail. -/
  | pass (ok : Bool)
  | crash
  /-- A restart reads the service and goes on unless it is being deleted. -/
  | beginRestart (new : NewInstance)
  | restart (thread : ℕ)

namespace Estate

/-- Add a row. Identifiers are new; a volume that exists is left alone. -/
def create (w : Estate) : Create → Option Estate
  | .inst id => if id ∈ w.instances then none
      else some { w with instances := w.instances ++ [id] }
  | .volume name => some { w with
      volumes := if name ∈ w.volumes then w.volumes else w.volumes ++ [name] }

/-- The pass goes on at another access, or ends. -/
def goOn (w : Estate) (p : Option Pass) : Estate := { w with pass := p }

/-- An instance is gone. -/
def removeInstance (w : Estate) (x : String) : Estate :=
  { w with instances := w.instances.filter (· ≠ x) }

/-- A volume is gone. -/
def removeVolume (w : Estate) (x : String) : Estate :=
  { w with volumes := w.volumes.filter (· ≠ x) }

/-- A finalizer is done. -/
def pop (w : Estate) (f : FinalizerType) : Estate :=
  { w with record := w.record.map (popFinalizer f) }

/-- The next access of a pass. -/
def passStep (w : Estate) (ok : Bool) : Pass → Option Estate
  | .creating [] => some (w.goOn none)
  | .creating (c :: todo) => (w.create c).map fun w => w.goOn (some (.creating todo))
  | .listInstances =>
    if ok = false then some (w.goOn none)
    else if w.instances = [] then some (w.goOn (some (.advance .instanceCleanup)))
    else some (w.goOn (some (.removeInstances w.instances false)))
  | .removeInstances [] failed =>
    if failed then some (w.goOn (some .relistInstances))
    else some (w.goOn (some (.advance .instanceCleanup)))
  | .removeInstances (x :: todo) failed =>
    if ok = true ∧ x ∈ w.instances then
      some ((w.removeInstance x).goOn (some (.removeInstances todo failed)))
    else some (w.goOn (some (.removeInstances todo true)))
  | .relistInstances =>
    if ok = true ∧ w.instances = [] then some (w.goOn (some (.advance .instanceCleanup)))
    else some (w.goOn none)
  | .listVolumes =>
    if ok then some (w.goOn (some (.removeVolumes w.volumes false))) else some (w.goOn none)
  | .removeVolumes [] failed =>
    if failed then some (w.goOn none) else some (w.goOn (some (.advance .volumeCleanup)))
  | .removeVolumes (x :: todo) failed =>
    if ok = true ∧ x ∈ w.volumes then
      some ((w.removeVolume x).goOn (some (.removeVolumes todo failed)))
    else some (w.goOn (some (.removeVolumes todo true)))
  | .advance head =>
    if ok then some ((w.pop head).goOn none) else some (w.goOn none)
  | .removeRecord =>
    if ok then some ({ w with record := none }.goOn none) else some (w.goOn none)

/-- A transaction on the record that may refuse. -/
def transact (w : Estate) (f : Service → Except String Service) : Estate :=
  { w with record := w.record.map fun r => (f r).toOption.getD r }

/-- One step, if it is possible. -/
def step (w : Estate) : EstateAction → Option Estate
  | .cast key rendered => some (w.transact (Cast.appliedService key rendered))
  | .beginDeletion => some { w with requests := w.requests ++ w.record.toList }
  | .handleRealDeletion request => w.requests[request]?.map fun seen =>
      w.transact (Services.handleRealDeletion seen)
  | .beginPass new =>
    match w.pass, w.record with
    | none, some r => some (w.goOn (some (.begin r new)))
    | _, _ => none
  | .pass ok => w.pass.bind (w.passStep ok)
  | .crash => some (w.goOn none)
  | .beginRestart new =>
    match w.record with
    | none => some w
    | some r =>
      if r.metadata.deletionTimestamp then some w
      else some { w with restarts := w.restarts ++ [new.creates r] }
  | .restart thread =>
    match w.restarts[thread]? with
    | some (c :: todo) => (w.create c).map fun w =>
        { w with restarts := w.restarts.set thread todo }
    | _ => none

/-- A removed record leaves nothing behind. -/
def Orphanless (w : Estate) : Prop := w.record = none → w.instances = [] ∧ w.volumes = []

/-- A pass is past the listing of a cleanup, and nothing will make it list again. -/
def Sweeps (w : Estate) (f : FinalizerType) : Prop :=
  match w.pass with
  | some (.removeInstances _ false) => f = .instanceCleanup
  | some (.removeVolumes _ false) => f = .volumeCleanup
  | some (.advance head) => f = head
  | _ => False

instance (w : Estate) (f : FinalizerType) : Decidable (w.Sweeps f) := by
  unfold Sweeps
  split <;> infer_instance

/-- The service is stored, and if it is being deleted then the cleanup for the new row
is still to come. -/
def Admits (w : Estate) (c : Create) : Prop :=
  ∃ r ∈ w.record, r.metadata.deletionTimestamp = true →
    c.cleanup ∈ r.metadata.finalizers ∧ ¬ w.Sweeps c.cleanup

instance (w : Estate) (c : Create) : Decidable (w.Admits c) :=
  inferInstanceAs (Decidable (∃ r ∈ w.record, _))

/-- A deletion that finds volumes of the service goes by a copy with claim templates,
and neither a restart nor the volumes of a pass come behind the cleanup. -/
def Tidy (w : Estate) : EstateAction → Prop
  | .handleRealDeletion request =>
    w.volumes ≠ [] → ∀ seen ∈ w.requests[request]?, serviceHasClaimTemplate seen = true
  | .pass _ => ∀ p ∈ w.pass, ∀ c ∈ p.next?, c.cleanup = .volumeCleanup → w.Admits c
  | .restart thread => ∀ todo ∈ w.restarts[thread]?, ∀ c ∈ todo.head?, w.Admits c
  | .cast _ _ | .beginDeletion | .beginPass _ | .crash | .beginRestart _ => True

instance (w : Estate) (a : EstateAction) : Decidable (w.Tidy a) := by
  cases a <;> unfold Tidy <;> infer_instance

/-- The record is a tombstone with this cleanup next. -/
def At (w : Estate) (f : FinalizerType) : Prop :=
  ∃ r, w.record = some r ∧ r.metadata.deletionTimestamp = true ∧
    r.metadata.finalizers.head? = some f

/-- What holds while a pass is at an access. -/
def Stage (w : Estate) : Pass → Prop
  | .creating _ => ∃ r, w.record = some r ∧ (r.metadata.deletionTimestamp = true →
      .instanceCleanup ∈ r.metadata.finalizers)
  | .listInstances | .relistInstances | .removeInstances _ true => w.At .instanceCleanup
  | .removeInstances todo false => w.At .instanceCleanup ∧ w.instances ⊆ todo
  | .listVolumes | .removeVolumes _ true => w.At .volumeCleanup
  | .removeVolumes todo false => w.At .volumeCleanup ∧ w.volumes ⊆ todo
  | .advance .instanceCleanup => w.At .instanceCleanup ∧ w.instances = []
  | .advance .volumeCleanup => w.At .volumeCleanup ∧ w.volumes = []
  | .advance (.other _) => False
  | .removeRecord => ∃ r, w.record = some r ∧ r.metadata.deletionTimestamp = true ∧
      r.metadata.finalizers = []

/-- What a tombstone has no cleanup for is gone. -/
structure Settled (w : Estate) (r : Service) : Prop where
  finalizers : r.metadata.finalizers.Sublist [.instanceCleanup, .volumeCleanup]
  instances : .instanceCleanup ∉ r.metadata.finalizers → w.instances = []
  volumes : .volumeCleanup ∉ r.metadata.finalizers → w.volumes = []

/-- Nothing is left without a record that tells of it. -/
structure Accounted (w : Estate) : Prop where
  orphanless : w.Orphanless
  settled : ∀ r, w.record = some r → r.metadata.deletionTimestamp = true → w.Settled r
  stage : ∀ p, w.pass = some p → w.Stage p

variable {w v : Estate} {p : Pass} {r : Service}

/-- A pass may go wherever what is needed there holds. -/
theorem Accounted.goOn (h : w.Accounted) (hp : w.Stage p) : (w.goOn (some p)).Accounted := by
  refine ⟨h.orphanless, fun r hr hd => { h.settled r hr hd with }, ?_⟩
  rintro _ ⟨⟩
  exact hp

/-- A pass may end anywhere. -/
theorem Accounted.stopped (h : w.Accounted) : (w.goOn none).Accounted :=
  ⟨h.orphanless, fun r hr hd => { h.settled r hr hd with }, nofun⟩

/-- A pass that reads a tombstone begins with what is first on its list. -/
theorem Accounted.begin (h : w.Accounted) (hr : w.record = some r) (new : List NewInstance) :
    w.Stage (.begin r new) := by
  cases hd : r.metadata.deletionTimestamp with
  | false =>
    simp only [Pass.begin, hd, Bool.false_eq_true, if_false]
    exact ⟨r, hr, fun h => absurd h (by simp [hd])⟩
  | true =>
    have hsub := (h.settled r hr hd).finalizers
    cases hf : r.metadata.finalizers with
    | nil =>
      simp only [Pass.begin, hd, if_true, hf]
      exact ⟨r, hr, hd, hf⟩
    | cons f fs =>
      have hat : w.At f := ⟨r, hr, hd, by simp [hf]⟩
      have hmem : f ∈ [.instanceCleanup, .volumeCleanup] :=
        hsub.subset (hf ▸ List.mem_cons_self)
      simp only [Pass.begin, hd, if_true, hf]
      rcases List.mem_pair.mp hmem with rfl | rfl
      · exact hat
      · exact hat

/-- The record of a tombstone that is at a cleanup. -/
theorem Accounted.at_settled (h : w.Accounted) {f : FinalizerType} (hat : w.At f) :
    ∃ r fs, w.record = some r ∧ r.metadata.deletionTimestamp = true ∧
      r.metadata.finalizers = f :: fs ∧ w.Settled r := by
  obtain ⟨r, hr, hd, hf⟩ := hat
  cases hfs : r.metadata.finalizers with
  | nil => simp [hfs] at hf
  | cons g fs =>
    obtain rfl : g = f := by simpa [hfs] using hf
    exact ⟨r, fs, hr, hd, hfs, h.settled r hr hd⟩

/-- Rows that are removed are not missed. -/
theorem Accounted.remove (h : w.Accounted) {instances volumes : List String}
    (hi : instances ⊆ w.instances) (hv : volumes ⊆ w.volumes)
    (hp : Stage { w with instances := instances, volumes := volumes } p) :
    Accounted { w with instances := instances, volumes := volumes, pass := some p } := by
  have hnil : ∀ {l m : List String}, l ⊆ m → m = [] → l = [] :=
    fun hl hm => List.subset_nil.mp (hm ▸ hl)
  refine ⟨fun hr => ?_, fun r hr hd => ?_, ?_⟩
  · obtain ⟨hin, hvn⟩ := h.orphanless hr
    exact ⟨hnil hi hin, hnil hv hvn⟩
  · have hs := h.settled r hr hd
    exact ⟨hs.finalizers, fun hf => hnil hi (hs.instances hf), fun hf => hnil hv (hs.volumes hf)⟩
  · rintro _ ⟨⟩
    exact hp

/-- What is left of a list without its first row is among the others. -/
theorem filter_ne_subset {l todo : List String} {x : String} (h : l ⊆ x :: todo) :
    l.filter (· ≠ x) ⊆ todo := by
  intro y hy
  obtain ⟨hmem, hne⟩ := List.mem_filter.mp hy
  exact (List.mem_cons.mp (h hmem)).resolve_left (by simpa using hne)

/-- Taking a completed finalizer off the list. -/
theorem Accounted.advance (h : w.Accounted) {f : FinalizerType} (hat : w.At f)
    (hi : f = .instanceCleanup → w.instances = []) (hv : f = .volumeCleanup → w.volumes = []) :
    ((w.pop f).goOn none).Accounted := by
  obtain ⟨r, fs, hr, hd, hf, hs⟩ := h.at_settled hat
  have hpop : (w.pop f).record =
      some { r with metadata := { r.metadata with finalizers := fs } } := by
    simp [pop, hr, popFinalizer, hf]
  refine ⟨fun hn => (nomatch hpop.symm.trans hn), fun q hq _ => ?_, nofun⟩
  cases hpop.symm.trans hq
  have hsub : (f :: fs).Sublist [.instanceCleanup, .volumeCleanup] := hf ▸ hs.finalizers
  refine ⟨(List.sublist_cons_self f fs).trans hsub, fun hn => ?_, fun hn => ?_⟩
  · by_cases he : f = .instanceCleanup
    · exact hi he
    · exact hs.instances (by simpa [hf, Ne.symm he] using hn)
  · by_cases he : f = .volumeCleanup
    · exact hv he
    · exact hs.volumes (by simpa [hf, Ne.symm he] using hn)

/-- A new instance does not disturb a pass that has not listed the instances. -/
theorem Stage.add_instance (h : w.Stage p) (hp : w.pass = some p) {l : List String}
    (hs : w.At .instanceCleanup → ¬ w.Sweeps .instanceCleanup) :
    Stage { w with instances := l } p := by
  unfold Stage at h ⊢
  split
  all_goals try exact h
  · exact absurd (by simp [Sweeps, hp]) (hs h.1)
  · exact absurd (by simp [Sweeps, hp]) (hs h.1)

theorem Stage.add_volume (h : w.Stage p) (hp : w.pass = some p) {l : List String}
    (hs : w.At .volumeCleanup → ¬ w.Sweeps .volumeCleanup) : Stage { w with volumes := l } p := by
  unfold Stage at h ⊢
  split
  all_goals try exact h
  · exact absurd (by simp [Sweeps, hp]) (hs h.1)
  · exact absurd (by simp [Sweeps, hp]) (hs h.1)

theorem Admits.not_sweeps {c : Create} (h : w.Admits c) {f : FinalizerType} (hat : w.At f) :
    ¬ w.Sweeps c.cleanup := by
  obtain ⟨r, hr, hc⟩ := h
  obtain ⟨q, hq, hd, -⟩ := hat
  cases hr.symm.trans hq
  exact (hc hd).2

/-- A row that is admitted is accounted for. -/
theorem Accounted.create (h : w.Accounted) {c : Create} (hc : w.Admits c)
    (hv : w.create c = some v) : v.Accounted := by
  obtain ⟨r, hr, hadm⟩ := id hc
  cases c with
  | inst id =>
    have hmem : id ∉ w.instances := fun hmem => by simp [Estate.create, hmem] at hv
    obtain rfl : _ = v := by simpa [Estate.create, hmem] using hv
    refine ⟨fun hn => (nomatch hr.symm.trans hn), fun q hq hd => ?_, fun p hp => ?_⟩
    · cases hr.symm.trans hq
      exact { h.settled r hr hd with instances := fun hn => absurd (hadm hd).1 hn }
    · exact (h.stage p hp).add_instance hp fun hat => hc.not_sweeps hat
  | volume name =>
    cases hv
    refine ⟨fun hn => (nomatch hr.symm.trans hn), fun q hq hd => ?_, fun p hp => ?_⟩
    · cases hr.symm.trans hq
      exact { h.settled r hr hd with volumes := fun hn => absurd (hadm hd).1 hn }
    · exact (h.stage p hp).add_volume hp fun hat => hc.not_sweeps hat

theorem record_create {c : Create} (h : w.create c = some v) : v.record = w.record := by
  cases c with
  | inst id =>
    by_cases hmem : id ∈ w.instances
    · simp [Estate.create, hmem] at h
    · obtain rfl : _ = v := by simpa [Estate.create, hmem] using h
      rfl
  | volume name =>
    cases h
    rfl

/-- A pass that creates an instance while the tombstone is written is still before
the cleanup. -/
theorem Accounted.creating (h : w.Accounted) {c : Create} {todo : List Create}
    (hp : w.pass = some (.creating (c :: todo)))
    (hc : c.cleanup = .volumeCleanup → w.Admits c) (hv : w.create c = some v) :
    (v.goOn (some (.creating todo))).Accounted := by
  obtain ⟨r, hr, hfin⟩ := h.stage _ hp
  have hadm : w.Admits c := by
    cases c with
    | inst id => exact ⟨r, hr, fun hd => ⟨hfin hd, by simp [Sweeps, hp]⟩⟩
    | volume name => exact hc rfl
  exact (h.create hadm hv).goOn ⟨r, (record_create hv).trans hr, hfin⟩

/-- Until a removal has failed, what is left is on the list. -/
theorem stage_removeInstances {todo : List String} {failed : Bool} :
    w.Stage (.removeInstances todo failed) ↔
      w.At .instanceCleanup ∧ (failed = false → w.instances ⊆ todo) := by
  cases failed <;> simp [Stage]

theorem stage_removeVolumes {todo : List String} {failed : Bool} :
    w.Stage (.removeVolumes todo failed) ↔
      w.At .volumeCleanup ∧ (failed = false → w.volumes ⊆ todo) := by
  cases failed <;> simp [Stage]

/-- One access of a pass. -/
theorem Accounted.passStep (h : w.Accounted) (hp : w.pass = some p) {ok : Bool}
    (hc : ∀ c ∈ p.next?, c.cleanup = .volumeCleanup → w.Admits c) (hv : w.passStep ok p = some v) :
    v.Accounted := by
  have hstage := h.stage p hp
  revert hv
  fun_cases w.passStep ok p <;> intro hv <;> try cases hv
  case case2 c todo =>
    obtain ⟨u, hu, rfl⟩ := Option.map_eq_some_iff.mp hv
    exact h.creating hp (hc c rfl) hu
  case case4 hnil => exact h.goOn ⟨hstage, hnil⟩
  case case5 => exact h.goOn ⟨hstage, List.Subset.refl _⟩
  case case6 => exact h.goOn (stage_removeInstances.mp hstage).1
  case case7 hfailed =>
    obtain ⟨hat, hsub⟩ := stage_removeInstances.mp hstage
    exact h.goOn ⟨hat, List.subset_nil.mp (hsub (Bool.eq_false_iff.mpr hfailed))⟩
  case case8 =>
    obtain ⟨hat, hsub⟩ := stage_removeInstances.mp hstage
    refine h.remove List.filter_sublist.subset (List.Subset.refl _) ?_
    exact stage_removeInstances.mpr ⟨hat, fun hf => filter_ne_subset (hsub hf)⟩
  case case9 => exact h.goOn (stage_removeInstances.mp hstage).1
  case case10 hok => exact h.goOn ⟨hstage, hok.2⟩
  case case12 => exact h.goOn ⟨hstage, List.Subset.refl _⟩
  case case15 hfailed =>
    obtain ⟨hat, hsub⟩ := stage_removeVolumes.mp hstage
    exact h.goOn ⟨hat, List.subset_nil.mp (hsub (Bool.eq_false_iff.mpr hfailed))⟩
  case case16 =>
    obtain ⟨hat, hsub⟩ := stage_removeVolumes.mp hstage
    refine h.remove (List.Subset.refl _) List.filter_sublist.subset ?_
    exact stage_removeVolumes.mpr ⟨hat, fun hf => filter_ne_subset (hsub hf)⟩
  case case17 => exact h.goOn (stage_removeVolumes.mp hstage).1
  case case18 head _ =>
    cases head with
    | instanceCleanup => exact h.advance hstage.1 (fun _ => hstage.2) nofun
    | volumeCleanup => exact h.advance hstage.1 (fun he => nomatch he) fun _ => hstage.2
    | other text => exact hstage.elim
  case case20 =>
    obtain ⟨r, hr, hd, hf⟩ := hstage
    have hs := h.settled r hr hd
    refine ⟨fun _ => ⟨hs.instances (by simp [hf]), hs.volumes (by simp [hf])⟩, ?_, ?_⟩
    · rintro _ ⟨⟩
    · rintro _ ⟨⟩
  all_goals exact h.stopped

/-- A pass that is not creating has read a tombstone. -/
theorem Stage.tombstoned (h : w.Stage p) (hp : ∀ todo, p ≠ .creating todo) :
    ∃ r, w.record = some r ∧ r.metadata.deletionTimestamp = true := by
  have hat : ∀ f, w.At f → ∃ r, w.record = some r ∧ r.metadata.deletionTimestamp = true :=
    fun f ⟨r, hr, hd, _⟩ => ⟨r, hr, hd⟩
  unfold Stage at h
  split at h
  case h_1 todo => exact absurd rfl (hp todo)
  case h_11 => exact h.elim
  case h_12 =>
    obtain ⟨r, hr, hd, -⟩ := h
    exact ⟨r, hr, hd⟩
  all_goals first
    | exact hat _ h
    | exact hat _ h.1

/-- A write of a live record may make a tombstone that lists what there is to clean up. -/
theorem Accounted.write (h : w.Accounted) {q : Service} (hr : w.record = some r)
    (hlive : r.metadata.deletionTimestamp = false) (hq : q.metadata.deletionTimestamp = true →
      w.Settled q ∧ .instanceCleanup ∈ q.metadata.finalizers) :
    Accounted { w with record := some q } := by
  refine ⟨nofun, fun s hs hd => ?_, fun p hp => ?_⟩
  · cases hs
    obtain ⟨hf, hi, hv⟩ := (hq hd).1
    exact ⟨hf, hi, hv⟩
  · by_cases hcreating : ∃ todo, p = .creating todo
    · obtain ⟨todo, rfl⟩ := hcreating
      exact ⟨q, rfl, fun hd => (hq hd).2⟩
    · obtain ⟨s, hs, hd⟩ := (h.stage p hp).tombstoned fun todo he => hcreating ⟨todo, he⟩
      cases hr.symm.trans hs
      rw [hlive] at hd
      cases hd

/-- A transaction that only writes live records. -/
theorem Accounted.transact (h : w.Accounted) {f : Service → Except String Service}
    (hf : ∀ r q, w.record = some r → f r = .ok q → q = r ∨
      r.metadata.deletionTimestamp = false ∧ (q.metadata.deletionTimestamp = true →
        w.Settled q ∧ .instanceCleanup ∈ q.metadata.finalizers)) :
    (w.transact f).Accounted := by
  have hsame : ∀ {q : Option Service}, w.record = q → Accounted { w with record := q } := by
    rintro _ rfl
    exact h
  cases hr : w.record with
  | none =>
    rw [Estate.transact, hr]
    exact hsame hr
  | some r =>
    rw [Estate.transact, hr]
    cases hq : f r with
    | error e => exact hsame (by simp [hr, hq, Except.toOption])
    | ok q =>
      have hrec : (some r).map (fun r => (f r).toOption.getD r) = some q := by
        simp [hq, Except.toOption]
      rw [hrec]
      rcases hf r q hr hq with rfl | ⟨hlive, htomb⟩
      · exact hsame hr
      · exact h.write hr hlive htomb

/-- A cast is refused by a tombstone and does not make one. -/
theorem appliedService_live {key : String} {rendered q : Service}
    (h : Cast.appliedService key rendered r = .ok q) :
    r.metadata.deletionTimestamp = false ∧ q.metadata.deletionTimestamp = false := by
  obtain ⟨u, hrefuse, hcarry⟩ := bind_eq_ok h
  have hlive : r.metadata.deletionTimestamp = false := by
    simpa using refuseIf_eq_ok.mp hrefuse
  obtain ⟨-, rfl⟩ := carryServerState_eq_ok.mp hcarry
  exact ⟨hlive, hlive⟩

theorem handleRealDeletion_eq_ok {seen q : Service} (h : handleRealDeletion seen r = .ok q) :
    q = r ∨ r.metadata.deletionTimestamp = false ∧
      q = r.tombstone (deletionFinalizerList seen) := by
  unfold Services.handleRealDeletion at h
  split_ifs at h with hseen hdeleted hstored
  · exact .inl (Except.ok.inj h).symm
  · exact .inl (Except.ok.inj h).symm
  · exact .inr ⟨by simpa using hstored, (Except.ok.inj h).symm⟩

/-- The tombstone of a deletion that knows about the volumes lists every cleanup. -/
theorem settled_tombstone {seen : Service}
    (hv : w.volumes ≠ [] → serviceHasClaimTemplate seen = true) :
    w.Settled (r.tombstone (deletionFinalizerList seen)) ∧
      .instanceCleanup ∈ (r.tombstone (deletionFinalizerList seen)).metadata.finalizers := by
  cases hc : serviceHasClaimTemplate seen with
  | true =>
    have hlist : deletionFinalizerList seen = [.instanceCleanup, .volumeCleanup] := by
      simp [deletionFinalizerList, hc]
    rw [hlist]
    exact ⟨⟨.refl _, fun hn => absurd (.head _) hn, fun hn => absurd (.tail _ (.head _)) hn⟩,
      .head _⟩
  | false =>
    have hlist : deletionFinalizerList seen = [.instanceCleanup] := by
      simp [deletionFinalizerList, hc]
    have hnone : w.volumes = [] := by
      by_contra hne
      rw [hv hne] at hc
      cases hc
    rw [hlist]
    exact ⟨⟨.cons_cons _ (List.nil_sublist _), fun hn => absurd (.head _) hn, fun _ => hnone⟩,
      .head _⟩

/-- Restarts are not part of what is accounted for. -/
theorem Accounted.restarting (h : w.Accounted) (l : List (List Create)) :
    Accounted { w with restarts := l } :=
  { h with settled := fun r hr hd => { h.settled r hr hd with } }

/-- One tidy step. -/
theorem Accounted.step (h : w.Accounted) {a : EstateAction} (hc : w.Tidy a)
    (hs : w.step a = some v) : v.Accounted := by
  cases a with
  | cast key rendered =>
    cases hs
    refine h.transact fun r q _ hq => .inr ?_
    obtain ⟨hr, hq⟩ := appliedService_live hq
    exact ⟨hr, fun hd => by rw [hq] at hd; cases hd⟩
  | beginDeletion =>
    cases hs
    exact { h with settled := fun r hr hd => { h.settled r hr hd with } }
  | handleRealDeletion request =>
    obtain ⟨seen, hseen, rfl⟩ := Option.map_eq_some_iff.mp hs
    refine h.transact fun r q _ hq => ?_
    rcases handleRealDeletion_eq_ok hq with he | ⟨hlive, rfl⟩
    · exact .inl he
    · exact .inr ⟨hlive, fun _ => settled_tombstone fun hne => hc hne seen hseen⟩
  | beginPass new =>
    simp only [Estate.step] at hs
    split at hs
    · rename_i r hp hr
      cases hs
      exact h.goOn (h.begin hr new)
    · cases hs
  | pass ok =>
    obtain ⟨p, hp, hstep⟩ := Option.bind_eq_some_iff.mp hs
    exact h.passStep hp (hc p hp) hstep
  | crash =>
    cases hs
    exact h.stopped
  | beginRestart new =>
    simp only [Estate.step] at hs
    repeat' split at hs
    all_goals cases hs
    · exact h
    · exact h
    · exact h.restarting _
  | restart thread =>
    simp only [Estate.step] at hs
    split at hs
    · rename_i c todo hthread
      obtain ⟨u, hu, rfl⟩ := Option.map_eq_some_iff.mp hs
      exact (h.create (hc _ hthread c rfl) hu).restarting _
    · cases hs

/-- In every run that keeps to the condition, a service that is gone has left nothing
behind. -/
theorem orphanless_along_run {s : Service} (hs : s.metadata.deletionTimestamp = false)
    {run : List EstateAction} (hc : Along step Tidy { record := some s } run)
    (h : exec step { record := some s } run = some w) : w.Orphanless := by
  have hstart : Accounted { record := some s } := by
    refine ⟨nofun, fun r hr hd => ?_, nofun⟩
    cases hr
    rw [hs] at hd
    cases hd
  exact (exec_invariant_along (fun _ _ _ h hcond hst => Accounted.step h hcond hst) hstart hc
    h).orphanless

end Estate

/-- A service with one claim template. -/
def storedDb : Service where
  id := "svc"
  ns := "prod"
  name := "db"
  spec := {
    image := "db:1"
    scale := 1
    volumes := [{ name := "data", mountPath := "/data", claimTemplate := some { size := "1Gi" } }] }
  status := .running
  metadata := { generation := 1, templateGeneration := 1, observedGeneration := 1 }

/-- The first replica of a service. -/
def firstReplica (id : String) : NewInstance := ⟨id, 0, 1, fun _ => false⟩

/-- A pass creates the replica and its volume. -/
def creation : List EstateAction :=
  [.beginPass [firstReplica "a"], .pass true, .pass true, .pass true]

/-- A deletion request. -/
def deletion : List EstateAction := [.beginDeletion, .handleRealDeletion 0]

/-- A pass for a tombstone with one row to clean up: it lists, removes the row and
takes the finalizer off. -/
def cleanupPass : List EstateAction :=
  [.beginPass [], .pass true, .pass true, .pass true, .pass true]

/-- A pass that finds nothing to do. -/
def recordPass : List EstateAction := [.beginPass [], .pass true]

/-- A teardown whose first pass crashes. -/
def resumedTeardown : List EstateAction :=
  creation ++ deletion ++ [.beginPass [], .pass true, .crash] ++ cleanupPass ++ cleanupPass ++
    recordPass

/-- A teardown that is resumed. -/
theorem Estate.orphanless_of_resumed_teardown :
    ∃ w, exec Estate.step { record := some storedDb } resumedTeardown = some w ∧
      w.record = none ∧ w.Orphanless :=
  ⟨_, rfl, rfl, Estate.orphanless_along_run (s := storedDb) rfl
    (by decide : Along Estate.step Estate.Tidy { record := some storedDb } resumedTeardown) rfl⟩

/-- A cast drops the claim template before the service is deleted. -/
def droppedTemplate : List EstateAction :=
  creation ++ [.cast "service/prod/db" { storedDb with spec := { image := "db:1", scale := 1 } }] ++
    deletion ++ cleanupPass ++ recordPass

/-- A restart is past its check when the tombstone is written. -/
def lateRestart : List EstateAction :=
  creation ++ [.beginRestart (firstReplica "b")] ++ deletion ++ cleanupPass ++ [.restart 0] ++
    cleanupPass ++ recordPass

/-- The volume of the dropped template stays, and so does the instance of the restart. -/
theorem Estate.teardown_leaves_orphans :
    (∃ w, exec Estate.step { record := some storedDb } droppedTemplate = some w ∧
      w.volumes = ["data-db-0"] ∧ ¬ w.Orphanless) ∧
    (∃ w, exec Estate.step { record := some storedDb } lateRestart = some w ∧
      w.instances = ["b"] ∧ ¬ w.Orphanless) := by
  refine ⟨⟨_, rfl, by decide, fun h => ?_⟩, ⟨_, rfl, by decide, fun h => ?_⟩⟩
  · exact absurd (h rfl).2 (by decide)
  · exact absurd (h rfl).1 (by decide)

end Rune.Services
