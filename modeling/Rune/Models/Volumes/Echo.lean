import Rune.Core.Run
import Rune.Models.Volumes.Row

/-!
# Telling the controller's own writes from those of others

Before it writes a status the controller sets a flag for the volume, and the next update event of
the volume that the watch loop takes clears the flag and is passed over. Flag and event belong
together as long as every write that was announced takes place.
-/

namespace Rune.Volumes.Echo

open Rune.Core

/-- A write of the row: somebody creates it or updates it, or the controller does. -/
inductive Origin where
  | create
  | update
  | self
  deriving DecidableEq

/-- An event carries the row. `revision` numbers the writes in the order of the commits; of
`origin` the controller sees only whether the event is a creation. -/
structure WatchEvent where
  origin : Origin
  vol : Volume
  revision : ℕ

/-- One volume: the last write, the events not yet taken, the flag, the status writes that are
announced and not yet made, whether the loop is inside `reconcile`, and the revisions that it was
called with. -/
structure World where
  last : Option WatchEvent := none
  events : List WatchEvent := []
  internalUpdate : Bool := false
  announced : List Volume := []
  handling : Bool := false
  reconciled : List ℕ := []

/-- What can happen. -/
inductive Step where
  /-- Anybody but the controller writes the row. -/
  | create (vol : Volume)
  | write (vol : Volume)
  /-- The first half of `updateStatus`, by the watch loop or by the goroutine of a timer. -/
  | markSelfUpdate (vol : Volume)
  /-- The second half, which the store carries out or refuses. -/
  | update (vol : Volume) (stored : Bool)
  /-- The watch loop takes an event. -/
  | take
  /-- `reconcile` returns to the watch loop. -/
  | done

namespace World

variable (w : World)

/-- The revision of the next write. -/
def nextRevision : ℕ := (w.last.map fun e => e.revision + 1).getD 0

/-- The store commits a write and sends the event to those who watch. -/
def commit (origin : Origin) (vol : Volume) : World :=
  let e := ⟨origin, vol, w.nextRevision⟩
  { w with last := some e, events := w.events ++ [e] }

/-- The event is taken for one of the controller's own. -/
def isSelfUpdate (e : WatchEvent) : Bool := e.origin ≠ .create && w.internalUpdate

/-- One step. Which statuses `reconcile` writes on its way is left open. -/
def step : Step → Option World
  | .create vol => some (w.commit .create vol)
  | .write vol => some (w.commit .update vol)
  | .markSelfUpdate vol => some { w with internalUpdate := true, announced := vol :: w.announced }
  | .update vol stored =>
    if vol ∈ w.announced then
      let rest := { w with announced := w.announced.erase vol }
      some (if stored then rest.commit .self vol else rest)
    else none
  | .take =>
    match w.handling, w.events with
    | false, e :: rest =>
      if w.isSelfUpdate e then some { w with events := rest, internalUpdate := false }
      else some { w with
        events := rest, handling := true, reconciled := e.revision :: w.reconciled }
    | _, _ => none
  | .done => if w.handling then some { w with handling := false } else none

/-- The watch loop waits for an event, and no status write is on its way. -/
structure Idle : Prop where
  handling : w.handling = false
  events : w.events = []
  announced : w.announced = []

/-- A set flag belongs to a write that is announced or whose event is to come, and the last write,
if it is another's, is handled, or its event is to come, or it will be written over. -/
structure Inv : Prop where
  flag : w.internalUpdate = true → w.announced ≠ [] ∨ ∃ e ∈ w.events, e.origin = .self
  last : ∀ e, w.last = some e → e.origin ≠ .self →
    e.revision ∈ w.reconciled ∨ w.events.getLast? = some e ∨ w.announced ≠ []

variable {w} {w' : World}

/-- A write. -/
theorem Inv.commit (h : w.Inv) (origin : Origin) (vol : Volume) : (w.commit origin vol).Inv where
  flag hflag := (h.flag hflag).imp_right fun ⟨e, he, hown⟩ => ⟨e, List.mem_append_left _ he, hown⟩
  last e he _ := by
    cases he
    exact .inr (.inl List.getLast?_concat)

/-- The event of the write keeps the flag company. -/
theorem Inv.update (vol : Volume) : (w.commit .self vol).Inv where
  flag _ := .inr ⟨_, List.mem_append_right _ (List.mem_singleton_self _), rfl⟩
  last e he hown := by
    cases he
    exact absurd rfl hown

/-- The event that is taken belongs to the last write only where no flag is set, or where a write
is on its way. -/
theorem Inv.last_of_events (h : w.Inv) {e l : WatchEvent} {rest : List WatchEvent}
    (hev : w.events = e :: rest) (hl : w.last = some l) (hown : l.origin ≠ .self) :
    l.revision ∈ w.reconciled ∨ rest.getLast? = some l ∨ w.announced ≠ [] ∨
      l = e ∧ w.internalUpdate = false := by
  rcases h.last l hl hown with hdone | hlate | hann
  · exact .inl hdone
  · cases rest with
    | cons e' rest =>
      rw [hev] at hlate
      exact .inr (.inl hlate)
    | nil =>
      rw [hev] at hlate
      cases hlate
      cases hflag : w.internalUpdate with
      | false => exact .inr (.inr (.inr ⟨rfl, rfl⟩))
      | true =>
        refine .inr (.inr (.inl ((h.flag hflag).resolve_right fun ⟨e', he', hself⟩ => hown ?_)))
        obtain rfl := List.mem_singleton.mp (hev ▸ he')
        exact hself
  · exact .inr (.inr (.inl hann))

/-- The next event. -/
theorem Inv.take (h : w.Inv) (hstep : w.step .take = some w') : w'.Inv := by
  simp only [step] at hstep
  split at hstep
  · rename_i e rest _ hev
    split_ifs at hstep with hself <;> cases hstep
    · refine ⟨Bool.noConfusion, fun l hl hown => ?_⟩
      obtain hdone | hlate | hann | ⟨-, hflag⟩ := h.last_of_events hev hl hown
      · exact .inl hdone
      · exact .inr (.inl hlate)
      · exact .inr (.inr hann)
      · simp [isSelfUpdate, hflag] at hself
    · refine ⟨fun hf => ?_, fun l hl hown => ?_⟩
      · have hflag : w.internalUpdate = true := hf
        have hcreate : e.origin = .create := by simpa [isSelfUpdate, hflag] using hself
        refine (h.flag hf).imp_right fun ⟨e', he', hself'⟩ => ⟨e', ?_, hself'⟩
        rcases List.mem_cons.mp (hev ▸ he') with rfl | he'
        · exact nomatch hcreate.symm.trans hself'
        · exact he'
      · obtain hdone | hlate | hann | ⟨rfl, -⟩ := h.last_of_events hev hl hown
        · exact .inl (List.mem_cons_of_mem _ hdone)
        · exact .inr (.inl hlate)
        · exact .inr (.inr hann)
        · exact .inl List.mem_cons_self
  · cases hstep

/-- One step. -/
theorem Inv.step {a : Step} (h : w.Inv) (hok : ∀ vol, a ≠ .update vol false)
    (hstep : w.step a = some w') : w'.Inv := by
  cases a with
  | create vol | write vol =>
    cases hstep
    exact h.commit _ vol
  | markSelfUpdate vol =>
    cases hstep
    exact ⟨fun _ => .inl (List.cons_ne_nil _ _), fun _ _ _ => .inr (.inr (List.cons_ne_nil _ _))⟩
  | update vol stored =>
    obtain rfl : stored = true := Bool.of_not_eq_false fun h => hok vol (h ▸ rfl)
    obtain ⟨-, h⟩ := Option.ite_none_right_eq_some.mp hstep
    cases h
    exact .update vol
  | take => exact h.take hstep
  | done =>
    obtain ⟨-, h'⟩ := Option.ite_none_right_eq_some.mp hstep
    cases h'
    exact ⟨h.flag, h.last⟩

end World

/-- Where the store carries out the status writes, and none is on its way, `reconcile` was called
with every write of another that is still what is stored. -/
theorem retry_reconciled {acts : List Step} {w : World} (hrun : exec World.step {} acts = some w)
    (hok : ∀ vol, .update vol false ∉ acts) (hidle : w.Idle) {e : WatchEvent}
    (hlast : w.last = some e) (hother : e.origin ≠ .self) : e.revision ∈ w.reconciled := by
  have hstored : ∀ a ∈ acts, World → ∀ vol, a ≠ .update vol false :=
    fun a ha _ vol h => hok vol (h ▸ ha)
  have hstart : World.Inv {} := ⟨Bool.noConfusion, fun _ h => nomatch (h : none = _)⟩
  have hinv : w.Inv :=
    exec_invariant_along (fun _ _ _ h hok hstep => World.Inv.step h hok hstep) hstart
      (Along.of_forall hstored _) hrun
  refine (hinv.last e hlast hother).resolve_right ?_
  simp [hidle.events, hidle.announced]

/-- A row by its status. -/
def row (status : VolumeStatus) : Volume := { ns := "default", name := "data", status := status }

/-- The volume is created and provisioned; then it is asked for once more. -/
def retried : List Step :=
  [.create (row .pending), .take,
    .markSelfUpdate (row .provisioning), .update (row .provisioning) true,
    .markSelfUpdate (row .stalled), .update (row .stalled) true, .done, .take, .take, .done,
    .write (row .pending), .take, .done]

/-- A retry. -/
theorem retry_reconciled_retried :
    ∃ w, exec World.step {} retried = some w ∧
      w.last = some ⟨.update, row .pending, 3⟩ ∧ 3 ∈ w.reconciled := by
  obtain ⟨w, hrun, hidle, hlast⟩ : ∃ w, exec World.step {} retried = some w ∧ w.Idle ∧
      w.last = some ⟨.update, row .pending, 3⟩ := ⟨_, rfl, ⟨rfl, rfl, rfl⟩, rfl⟩
  exact ⟨w, hrun, hlast, retry_reconciled hrun (by simp [retried]) hidle hlast (by decide)⟩

/-- The first status write fails, so that its flag is left for the retry of the operator. -/
theorem retry_passed_over :
    ∃ w, exec World.step {}
        [.create (row .pending), .take, .markSelfUpdate (row .provisioning),
          .update (row .provisioning) false, .done, .write (row .pending), .take] = some w ∧
      w.Idle ∧ w.last = some ⟨.update, row .pending, 1⟩ ∧ 1 ∉ w.reconciled :=
  ⟨_, rfl, ⟨rfl, rfl, rfl⟩, rfl, by decide⟩

end Rune.Volumes.Echo
