import Rune.Core.Run
import Rune.Models.Services.Writers

/-!
# Whether a requested deletion stays requested

The tombstone is one transaction, and so is every write that goes by the stored record: none of
them takes it back. An update request and a backfill store a copy that was read before. The
deletion is undone exactly where such a write lands on a tombstone that its copy does not carry,
or where a request moves the generation of a service being deleted.
-/

namespace Rune.Services

open Rune.Core

/-- The stored record, as long as there is one, and all copies of it that have been
read or carried by a watch event. -/
structure Shelf where
  record : Option Service
  copies : List Service := []

/-- What can happen. -/
inductive ShelfAction
  /-- Someone reads the record, or a watch event carries it. -/
  | read
  | handleRealDeletion (copy : ℕ)
  /-- An update request lands that has read the given copy. -/
  | updateService (copy : ℕ) (request : UpdateRequest)
  /-- The dataplane handles the watch event with the given copy. -/
  | backfill (copy : ℕ) (vip : Option String)
  | executeImmediateScaling (target : ℤ)
  | processScalingStep (op : ScalingOperation) (copy : ℕ)
  | updateServiceStatus (report : StatusReport)
  /-- A pass has done the work of the first finalizer of its copy, if there is one. -/
  | reconcileDeletion (copy : ℕ)

namespace Shelf

/-- Write the record, if it is still there. -/
def write (s : Shelf) (f : Service → Service) : Shelf := { s with record := s.record.map f }

/-- What a pass for a tombstoned copy does to the record in the end. -/
def finalize (s : Shelf) (seen : Service) : Shelf :=
  match seen.metadata.finalizers with
  | [] => { s with record := none }
  | head :: _ => s.write (popFinalizer head)

/-- One step, if it is possible. -/
def step (s : Shelf) : ShelfAction → Option Shelf
  | .read => some { s with copies := s.copies ++ s.record.toList }
  | .handleRealDeletion copy => s.copies[copy]?.map fun seen =>
      s.write fun r => (Services.handleRealDeletion seen r).toOption.getD r
  | .updateService copy request => s.copies[copy]?.map fun seen =>
      s.write fun _ => request.updateService seen
  | .backfill copy vip => s.copies[copy]?.map fun event =>
      s.write fun r => (Services.backfill vip event).getD r
  | .executeImmediateScaling target => some (s.write (Services.executeImmediateScaling target))
  | .processScalingStep op copy => s.copies[copy]?.map fun seen =>
      s.write (Services.processScalingStep op seen)
  | .updateServiceStatus report => some (s.write (Services.updateServiceStatus report))
  | .reconcileDeletion copy => s.copies[copy]?.bind fun seen =>
      if seen.metadata.deletionTimestamp then some (s.finalize seen) else none

/-- The new record carries the tombstone of the old one, and no finalizer more. -/
def Keeps (old new : Service) : Prop :=
  new.IsTombstoned ∧ new.metadata.finalizers.Sublist old.metadata.finalizers

/-- Once the tombstone is stored, every later record carries it and its finalizers
only get fewer, until the record is removed. -/
def NeverUndone (start : Shelf) (run : List ShelfAction) : Prop :=
  ∀ first middle rest a b old new, run = first ++ middle ++ rest →
    exec step start first = some a → exec step a middle = some b →
      a.record = some old → old.IsTombstoned → b.record = some new → Keeps old new

/-- What lands on a tombstone carries it: a request has read it with no other
finalizers and does not move the generation, and no backfill writes. -/
def Respects (s : Shelf) : ShelfAction → Prop
  | .updateService copy request => ∀ old ∈ s.record, old.IsTombstoned →
      ∀ seen ∈ s.copies[copy]?, Keeps old seen ∧ request.needsGenUpdate seen = false
  | .backfill copy vip => ∀ old ∈ s.record, old.IsTombstoned →
      ∀ event ∈ s.copies[copy]?, ¬ NeedsBackfill vip event
  | .read | .handleRealDeletion _ | .executeImmediateScaling _ | .processScalingStep _ _
  | .updateServiceStatus _ | .reconcileDeletion _ => True

instance (old new : Service) : Decidable (Keeps old new) := inferInstanceAs (Decidable (_ ∧ _))

instance (s : Shelf) (a : ShelfAction) : Decidable (s.Respects a) := by
  cases a <;> unfold Respects <;> infer_instance

section Writes

variable {s t : Shelf} {old new : Service}

/-- An untouched record. -/
theorem Keeps.refl (h : old.IsTombstoned) : Keeps old old := ⟨h, List.Sublist.refl _⟩

/-- Writes compose. -/
theorem Keeps.trans {next : Service} (h : Keeps old new) (h' : Keeps new next) : Keeps old next :=
  ⟨h'.1, h'.2.trans h.2⟩

/-- A request keeps the tombstone that its copy carries, unless it moves the
generation. -/
theorem keeps_updateService_iff {seen : Service} {request : UpdateRequest} :
    Keeps old (request.updateService seen) ↔
      Keeps old seen ∧ request.needsGenUpdate seen = false := by
  cases hgen : request.needsGenUpdate seen with
  | true => simp [Keeps, Service.IsTombstoned, UpdateRequest.updateService, hgen]
  | false =>
    simp [Keeps, Service.IsTombstoned, UpdateRequest.updateService, UpdateRequest.updated, hgen]

/-- What a backfill writes is not deleted. -/
theorem status_backfill {vip : Option String} {event r : Service}
    (h : backfill vip event = some r) : r.status ≠ .deleted := by
  revert h
  fun_cases Services.backfill vip event <;> rintro ⟨⟩
  rename_i hskip _ _
  exact fun hs => hskip (.inl hs)

theorem keeps_setScale (h : old.IsTombstoned) (next lastNonZero : ℤ) :
    Keeps old (setScale next lastNonZero old) := by
  unfold setScale
  split
  · exact .refl h
  · exact ⟨h, List.Sublist.refl _⟩

theorem keeps_processScalingStep (h : old.IsTombstoned) (op : ScalingOperation) (seen : Service) :
    Keeps old (processScalingStep op seen old) := by
  unfold Services.processScalingStep
  split
  · exact .refl h
  · exact keeps_setScale h _ _

theorem keeps_updateServiceStatus (h : old.IsTombstoned) (report : StatusReport) :
    Keeps old (updateServiceStatus report old) := by
  rw [Services.updateServiceStatus, if_pos h.2]
  exact .refl h

theorem keeps_handleRealDeletion (h : old.IsTombstoned) (seen : Service) :
    Keeps old ((handleRealDeletion seen old).toOption.getD old) := by
  unfold Services.handleRealDeletion
  split_ifs with hseen hdeleted hstored
  · exact .refl h
  · exact .refl h
  · exact .refl h
  · exact absurd h.1 hstored

theorem keeps_popFinalizer (h : old.IsTombstoned) (head : FinalizerType) :
    Keeps old (popFinalizer head old) := by
  unfold popFinalizer
  split
  · exact ⟨h, List.tail_sublist _⟩
  · exact .refl h

/-- A record that has been removed does not come back. -/
theorem step_of_removed (hs : s.record = none) {a : ShelfAction} (h : s.step a = some t) :
    t.record = none := by
  have hwrite : ∀ f, (s.write f).record = none := fun f => by simp [write, hs]
  cases a with
  | read =>
    cases h
    exact hs
  | handleRealDeletion copy | updateService copy request | backfill copy vip
  | processScalingStep op copy =>
    obtain ⟨seen, -, rfl⟩ := Option.map_eq_some_iff.mp h
    exact hwrite _
  | executeImmediateScaling target | updateServiceStatus report =>
    cases h
    exact hwrite _
  | reconcileDeletion copy =>
    obtain ⟨seen, -, h⟩ := Option.bind_eq_some_iff.mp h
    split at h
    · cases h
      unfold finalize
      split
      · rfl
      · exact hwrite _
    · cases h

/-- A step keeps the tombstone exactly if what lands on it carries it. -/
theorem keeps_step_iff (hs : s.record = some old) (hold : old.IsTombstoned) {a : ShelfAction}
    (h : s.step a = some t) : (∀ new, t.record = some new → Keeps old new) ↔ s.Respects a := by
  have hwrite : ∀ f : Service → Service,
      (∀ new, (s.write f).record = some new → Keeps old new) ↔ Keeps old (f old) :=
    fun f => by simp [write, hs]
  cases a with
  | read =>
    cases h
    refine iff_of_true (fun new hn => ?_) trivial
    cases hs.symm.trans hn
    exact .refl hold
  | handleRealDeletion copy =>
    obtain ⟨seen, -, rfl⟩ := Option.map_eq_some_iff.mp h
    exact iff_of_true ((hwrite _).mpr (keeps_handleRealDeletion hold seen)) trivial
  | updateService copy request =>
    obtain ⟨seen, hseen, rfl⟩ := Option.map_eq_some_iff.mp h
    rw [hwrite, keeps_updateService_iff]
    refine ⟨fun hk r hr _ c hc => ?_, fun hk => hk old hs hold seen hseen⟩
    cases hs.symm.trans hr
    cases hseen.symm.trans hc
    exact hk
  | backfill copy vip =>
    obtain ⟨event, hevent, rfl⟩ := Option.map_eq_some_iff.mp h
    rw [hwrite]
    constructor
    · intro hk _ _ _ c hc
      cases hevent.symm.trans hc
      rw [← backfill_eq_none_iff]
      cases hb : Services.backfill vip event with
      | none => rfl
      | some r =>
        rw [hb] at hk
        exact absurd hk.1.2 (status_backfill hb)
    · intro hk
      rw [backfill_eq_none_iff.mpr (hk old hs hold event hevent)]
      exact .refl hold
  | executeImmediateScaling target =>
    cases h
    exact iff_of_true ((hwrite _).mpr (keeps_setScale hold _ _)) trivial
  | processScalingStep op copy =>
    obtain ⟨seen, -, rfl⟩ := Option.map_eq_some_iff.mp h
    exact iff_of_true ((hwrite _).mpr (keeps_processScalingStep hold op seen)) trivial
  | updateServiceStatus report =>
    cases h
    exact iff_of_true ((hwrite _).mpr (keeps_updateServiceStatus hold report)) trivial
  | reconcileDeletion copy =>
    obtain ⟨seen, -, h⟩ := Option.bind_eq_some_iff.mp h
    split at h
    · cases h
      refine iff_of_true ?_ trivial
      unfold finalize
      split
      · exact fun new hn => nomatch hn
      · exact (hwrite _).mpr (keeps_popFinalizer hold _)
    · cases h

end Writes

section Runs

variable {start s t : Shelf} {run : List ShelfAction} {old : Service}

/-- Along a run that respects the tombstone every record keeps it. -/
theorem keeps_along (hold : old.IsTombstoned) (hs : s.record = some old)
    (hc : Along step Respects s run) (h : exec step s run = some t) :
    ∀ new, t.record = some new → Keeps old new := by
  have hstep : ∀ (b : Shelf) (a : ShelfAction) (c : Shelf),
      (∀ new, b.record = some new → Keeps old new) → b.Respects a → b.step a = some c →
        ∀ new, c.record = some new → Keeps old new := by
    intro b a c hb hr hst new hn
    cases hrec : b.record with
    | none => rw [step_of_removed hrec hst] at hn; cases hn
    | some r =>
      have hk := hb r hrec
      exact hk.trans ((keeps_step_iff hrec hk.1 hst).mpr hr new hn)
  refine exec_invariant_along hstep (fun new hn => ?_) hc h
  cases hs.symm.trans hn
  exact .refl hold

/-- Everything may land where there is no tombstone. -/
theorem respects_of_live (h : ∀ old, s.record = some old → ¬ old.IsTombstoned)
    {a : ShelfAction} : s.Respects a := by
  cases a with
  | updateService copy request => exact fun old hold htomb => absurd htomb (h old hold)
  | backfill copy vip => exact fun old hold htomb => absurd htomb (h old hold)
  | _ => trivial

/-- The rest of a run undoes nothing that the whole run does not. -/
theorem NeverUndone.tail {a : ShelfAction} (h : NeverUndone start (a :: run))
    (ha : start.step a = some s) : NeverUndone s run := by
  intro first middle rest b c old new hrun hfirst
  exact h (a :: first) middle rest b c old new (by rw [hrun]; rfl) (exec_cons.mpr ⟨s, ha, hfirst⟩)

/-- A deletion is never undone exactly in the runs in which everything that lands
on the tombstone carries it. -/
theorem neverUndone_iff (h : exec step start run = some t) :
    NeverUndone start run ↔ Along step Respects start run := by
  constructor
  · intro hnever
    induction run generalizing start with
    | nil => trivial
    | cons a run ih =>
      obtain ⟨s, hs, hrest⟩ := exec_cons.mp h
      refine ⟨?_, fun u hu => ?_⟩
      · by_cases hdel : ∃ old, start.record = some old ∧ old.IsTombstoned
        · obtain ⟨old, hold, htomb⟩ := hdel
          refine (keeps_step_iff hold htomb hs).mp fun new hn => ?_
          exact hnever [] [a] run start s old new rfl rfl (exec_cons.mpr ⟨s, hs, rfl⟩) hold htomb hn
        · exact respects_of_live fun old hold htomb => hdel ⟨old, hold, htomb⟩
      · cases hs.symm.trans hu
        exact ih hrest (hnever.tail hs)
  · rintro hc first middle rest a b old new rfl hfirst hmiddle hold htomb hn
    rw [List.append_assoc] at hc
    obtain ⟨-, hrest⟩ := hc.split hfirst
    exact keeps_along htomb hold (hrest.split hmiddle).1 hmiddle new hn

end Runs

end Shelf

/-- A service that runs. -/
def runningJob : Service where
  id := "svc"
  ns := "prod"
  name := "job"
  spec := { image := "job:1", scale := 1 }
  status := .running
  metadata := { generation := 1, templateGeneration := 1, observedGeneration := 1 }

/-- The teardown of a service that is scaled meanwhile. -/
theorem Shelf.neverUndone_of_teardown :
    Shelf.NeverUndone { record := some runningJob }
      [.read, .handleRealDeletion 0, .executeImmediateScaling 0, .read, .reconcileDeletion 1] := by
  exact (Shelf.neverUndone_iff rfl).mpr (by decide)

/-- A request for another image. -/
def newImage : UpdateRequest where
  payload := { runningJob with spec := { image := "job:2", scale := 1 } }
  force := false
  vip := none

/-- The request reads the service before it is deleted and lands afterwards. -/
def lateUpdate : List ShelfAction :=
  [.read, .handleRealDeletion 0, .updateService 0 newImage]

/-- The service is stored alive again, with no trace of its deletion. -/
theorem Shelf.update_undoes_deletion :
    (∃ t new, exec Shelf.step { record := some runningJob } lateUpdate = some t ∧
      t.record = some new ∧ new.status = .deploying ∧
      new.metadata.deletionTimestamp = false ∧ new.metadata.finalizers = []) ∧
    ¬ Shelf.NeverUndone { record := some runningJob } lateUpdate := by
  refine ⟨⟨_, _, rfl, rfl, by decide, by decide, by decide⟩, fun h => ?_⟩
  have hkeeps := h [.read, .handleRealDeletion 0] [.updateService 0 newImage] [] _ _ _ _ rfl rfl rfl
    rfl (by decide) rfl
  exact absurd hkeeps.1.1 (by decide)

end Rune.Services
