import Rune.Models.Volumes.Controller

/-!
# Snapshots

A snapshot is deleted in one of two ways. Where the row that the API reads has a handle and is
neither pending nor failed, it is marked and the controller deletes the snapshot and then the row;
otherwise the API deletes the row. The controller has one event at a time under way, and others
write while it calls the driver.
-/

namespace Rune.Snapshots

open Rune.Core List
open Rune.Services (Entries)
open Rune.Volumes (Volume VolumeStatus StorageClass SnapshotPhase mergeParameters)

/-- A stored snapshot. -/
structure Row where
  ns : String
  name : String
  sourceVolume : String
  driver : String := ""
  handle : String := ""
  phase : SnapshotPhase := .pending
  reason : String := ""
  message : String := ""
  deriving DecidableEq

/-- Its namespace and name. -/
def Row.key (row : Row) : String × String := (row.ns, row.name)

/-- What the controller finds outside the table of snapshots, and what the driver answers. -/
structure Backend where
  volume : String → String → Except String Volume
  storageClass : String → Except String StorageClass
  driverFor : String → Except String Unit
  snapshots : String → Bool
  resolve : Entries → String → Except String Entries
  snapshot : Except String String
  deleteSnapshot : Except String Unit

/-- The status of a volume as text. -/
def statusText : VolumeStatus → String
  | .unset => ""
  | .pending => "Pending"
  | .provisioning => "Provisioning"
  | .available => "Available"
  | .bound => "Bound"
  | .released => "Released"
  | .stalled => "Stalled"
  | .failed => "Failed"

/-- The first half of `create`: the row with its driver, or the reason and the message of the
failure. -/
def prepare (b : Backend) (row : Row) : Except (String × String) (Row × Volume × StorageClass) := do
  let source := "source volume " ++ row.ns ++ "/" ++ row.sourceVolume
  let src ← (b.volume row.ns row.sourceVolume).mapError fun e =>
    ("SourceVolumeMissing", source ++ " not found: " ++ e)
  refuseIf (src.handle = "") ("SourceVolumeNotProvisioned",
    source ++ " has no handle (status=" ++ statusText src.status ++ ")")
  refuseIf (src.storageClassName = "")
    ("StorageClassMissing", "source volume has empty storageClassName")
  let cls ← (b.storageClass src.storageClassName).mapError fun e =>
    ("StorageClassMissing", "get storage class \"" ++ src.storageClassName ++ "\": " ++ e)
  (b.driverFor cls.driver).mapError fun e => ("DriverUnavailable", e)
  refuseIf (b.snapshots cls.driver = false)
    ("SnapshotsUnsupported", "driver \"" ++ cls.driver ++ "\" does not support snapshots")
  pure ({ row with driver := if row.driver = "" then cls.driver else row.driver }, src, cls)

/-- The parameters of `snapshotOpContext`. -/
def opParameters (b : Backend) (row : Row) : Entries :=
  match b.volume row.ns row.sourceVolume with
  | .error _ => []
  | .ok src =>
    match src.storageClassName, b.storageClass src.storageClassName with
    | "", _ | _, .error _ => mergeParameters src.driverParameters src.parameters
    | _, .ok cls => mergeParameters cls.parameters src.parameters

/-- What `delete` does before it calls the driver. -/
def checkDelete (b : Backend) (row : Row) : Except (String × String) Unit := do
  (b.driverFor row.driver).mapError fun e => ("DriverUnavailable", e)
  let _ ← (b.resolve (opParameters b row) row.ns).mapError fun e => ("InvalidParameters", e)

/-- What the controller learns of a write. -/
structure Event where
  created : Bool
  row : Row

/-- The controller acts on the event, if it takes it for another's. -/
def Event.Active (e : Event) : Prop := e.row.phase = .pending ∨ e.row.phase = .deleting

/-- How far the controller has got with an event: about to take the snapshot, to write its handle,
to delete the snapshot, or to remove the row. -/
inductive Handling where
  | create (row : Row) (src : Volume) (cls : StorageClass)
  | ready (row : Row)
  | delete (row : Row)
  | remove (row : Row)

/-- The row that is handled. -/
def Handling.row : Handling → Row
  | .create row _ _ | .ready row | .delete row | .remove row => row

/-- The handle that the controller has yet to write. -/
def Handling.handed : Handling → Option String
  | .ready row => some row.handle
  | _ => none

/-- The rows, the events not yet taken, the rows under which the controller expects an event of
its own, its handling, the rows that a deletion has read, and the handles that were returned and
deleted. -/
structure World where
  rows : String × String → Option Row := fun _ => none
  events : List Event := []
  internalUpdates : List (String × String) := []
  handling : Option Handling := none
  reads : List Row := []
  returned : List String := []
  removed : List String := []

/-- What can happen. -/
inductive Step where
  | createSnapshot (row : Row)
  /-- The first half of `DeleteSnapshot`. -/
  | read (key : String × String)
  /-- The second half. -/
  | deleteSnapshot (snap : Row)
  | take (b : Backend)
  | advance (b : Backend)

namespace World

variable (w : World)

/-- Write a row and tell of it. -/
def put (created : Bool) (row : Row) : World :=
  { w with
    rows := Function.update w.rows row.key (some row), events := w.events ++ [⟨created, row⟩] }

/-- Announce a write and make it. Where the row is gone it fails, which ends the handling. -/
def updateStatus (row : Row) (phase : SnapshotPhase) (reason message : String)
    (next : Row → Option Handling) : World :=
  let row := { row with phase := phase, reason := reason, message := message }
  let w := { w with internalUpdates := row.key :: w.internalUpdates }
  if (w.rows row.key).isSome then { w.put false row with handling := next row }
  else { w with handling := none }

/-- End with a failure. -/
def markFailed (row : Row) (failure : String × String) : World :=
  w.updateStatus row .failed failure.1 failure.2 fun _ => none

/-- Start with an event that is not the controller's own. -/
def reconcile (b : Backend) (row : Row) : World :=
  match row.phase with
  | .pending =>
    match prepare b row with
    | .error failure => w.markFailed row failure
    | .ok (row, src, cls) =>
      w.updateStatus row .creating "" "" fun row => some (.create row src cls)
  | .deleting =>
    let handling := if row.handle = "" ∨ row.driver = "" then Handling.remove row else .delete row
    { w with handling := some handling }
  | _ => w

/-- The event is of a write of the controller. -/
def isSelfUpdate (e : Event) : Bool := !e.created && decide (e.row.key ∈ w.internalUpdates)

/-- Go on with a handling. A handle is a new one. -/
def advance (b : Backend) : Handling → Option World
  | .create row src cls =>
    match b.resolve (mergeParameters cls.parameters src.parameters) src.ns, b.snapshot with
    | .error e, _ => some (w.markFailed row ("InvalidParameters", e))
    | .ok _, .error e => some (w.markFailed row ("SnapshotFailed", e))
    | .ok _, .ok handle =>
      if handle ≠ "" ∧ handle ∉ w.returned then
        some { w with
          returned := handle :: w.returned
          handling := some (.ready { row with handle := handle }) }
      else none
  | .ready row => some (w.updateStatus row .ready "" "" fun _ => none)
  | .delete row =>
    match checkDelete b row, b.deleteSnapshot with
    | .error failure, _ => some (w.markFailed row failure)
    | .ok _, .error e => some (w.markFailed row ("DeleteSnapshotFailed", e))
    | .ok _, .ok _ => some { w with
        removed := row.handle :: w.removed, handling := some (.remove row) }
  | .remove row =>
    some { w with rows := Function.update w.rows row.key none, handling := none }

/-- The row is deleted at once. -/
def hard (snap : Row) : Prop := snap.handle = "" ∨ snap.phase = .pending ∨ snap.phase = .failed

instance (snap : Row) : Decidable (hard snap) := inferInstanceAs (Decidable (_ ∨ _ ∨ _))

/-- One step, if it is possible. -/
def step : Step → Option World
  | .createSnapshot row => if (w.rows row.key).isSome then none else some (w.put true row)
  | .read key => (w.rows key).map fun row => { w with reads := row :: w.reads }
  | .deleteSnapshot snap =>
    if snap ∈ w.reads then
      let w := { w with reads := w.reads.erase snap }
      if (w.rows snap.key).isNone then some w
      else if hard snap then some { w with rows := Function.update w.rows snap.key none }
      else some (w.put false { snap with phase := .deleting, reason := "", message := "" })
    else none
  | .take b =>
    match w.handling, w.events with
    | none, e :: rest =>
      let w := { w with events := rest }
      if w.isSelfUpdate e then some { w with
        internalUpdates := w.internalUpdates.filter (· ≠ e.row.key) }
      else some (w.reconcile b e.row)
    | _, _ => none
  | .advance b => w.handling.bind (w.advance b)

/-- The controller has handled every event. -/
structure Idle : Prop where
  handling : w.handling = none
  events : w.events = []

/-- A snapshot is created without a handle. It is deleted while the controller is idle, with the
row as it was read, not at once where it has a handle. No driver has the empty name. -/
def Orderly : Step → Prop
  | .createSnapshot row => row.handle = ""
  | .deleteSnapshot snap => w.Idle ∧ w.rows snap.key = some snap ∧ (hard snap → snap.handle = "")
  | .take b => b.driverFor "" ≠ .ok ()
  | _ => True

/-- An event on which the controller acts tells of the row as it is stored; `own` is the row that
is being handled, of which there is no event. -/
structure Sound (own : Option (String × String)) : Prop where
  active : ∀ e ∈ w.events, e.Active → w.rows e.row.key = some e.row ∧
    (e.row.phase = .pending → e.row.handle = "") ∧
    (e.created = true ∨ e.row.key ∉ w.internalUpdates) ∧ own ≠ some e.row.key
  apart : w.events.Pairwise fun e e' => e.Active → e'.Active → e.row.key ≠ e'.row.key
  expected : ∀ k ∈ w.internalUpdates, ∃ e ∈ w.events, e.row.key = k ∧ e.created = false
  driven : ∀ k row, w.rows k = some row → row.handle ≠ "" → row.driver ≠ ""
  deleting : ∀ k row, w.rows k = some row → row.phase = .deleting →
    own = some k ∨ ∃ e ∈ w.events, e.Active ∧ e.row.key = k

/-- Every snapshot is deleted or stored, or its handle is about to be. -/
def Held (handed : Option String) : Prop :=
  ∀ h ∈ w.returned, h ≠ "" ∧
    (h ∈ w.removed ∨ (∃ k row, w.rows k = some row ∧ row.handle = h) ∨ handed = some h)

/-- What is stored while the controller is at this point. -/
def Stage : Handling → Prop
  | .create row _ _ => row.driver ≠ "" ∧ ∃ r, w.rows row.key = some r ∧ r.handle = ""
  | .ready row => row.driver ≠ "" ∧ ∃ r, w.rows row.key = some r ∧ r.handle = ""
  | .delete row => w.rows row.key = some row
  | .remove row => w.rows row.key = some row ∧ (row.handle = "" ∨ row.handle ∈ w.removed)

/-- What holds between two steps. -/
structure Inv : Prop where
  sound : w.Sound (w.handling.map fun h => h.row.key)
  held : w.Held (w.handling.bind Handling.handed)
  stage : ∀ h, w.handling = some h → w.Stage h

variable {w} {w' : World} {own : Option (String × String)} {handed : Option String} {row : Row}

theorem Inv.of_none (hfree : w.handling = none) (hsound : w.Sound none) (hheld : w.Held none) :
    w.Inv :=
  ⟨by rwa [hfree], by rwa [hfree], by simp [hfree]⟩

theorem Inv.of_some {h : Handling} (hsound : w.Sound (some h.row.key)) (hheld : w.Held h.handed)
    (hstage : w.Stage h) : Inv { w with handling := some h } := by
  refine ⟨{ hsound with }, hheld, ?_⟩
  rintro _ ⟨⟩
  cases h <;> exact hstage

theorem Inv.free (hinv : w.Inv) (hfree : w.handling = none) : w.Sound none ∧ w.Held none := by
  obtain ⟨hsound, hheld, -⟩ := hinv
  rw [hfree] at hsound hheld
  exact ⟨hsound, hheld⟩

theorem update_eq_some {k : String × String} {r : Row}
    (hk : Function.update w.rows row.key (some row) k = some r) :
    k = row.key ∧ r = row ∨ k ≠ row.key ∧ w.rows k = some r := by
  by_cases he : k = row.key
  · subst he
    rw [Function.update_self] at hk
    exact .inl ⟨rfl, (Option.some.inj hk).symm⟩
  · rw [Function.update_of_ne he] at hk
    exact .inr ⟨he, hk⟩

/-- A row is written and its event sent, while no event of it is to come on which the controller
acts. -/
theorem Sound.put {created : Bool} {own' : Option (String × String)}
    {expected : List (String × String)} (h : w.Sound own)
    (hown : ∀ k, k ≠ row.key → (own' = some k ↔ own = some k))
    (halone : ∀ e ∈ w.events, e.Active → e.row.key ≠ row.key)
    (hnew : Event.Active ⟨created, row⟩ → (row.phase = .pending → row.handle = "") ∧
      (created = true ∨ row.key ∉ expected) ∧ own' ≠ some row.key)
    (hexpected : ∀ k ∈ expected, k ∈ w.internalUpdates ∨ k = row.key ∧ created = false)
    (hdriver : row.handle ≠ "" → row.driver ≠ "") :
    Sound { w.put created row with internalUpdates := expected } own' := by
  refine ⟨?_, ?_, fun k hk => ?_, fun k r hk => ?_, fun k r hk hdel => ?_⟩
  · refine forall_mem_append.mpr
      ⟨fun e he hact => ?_, forall_mem_singleton.mpr fun hact => ?_⟩
    · obtain ⟨hstored, hpending, hflag, hne⟩ := h.active e he hact
      have hkey := halone e he hact
      refine ⟨(Function.update_of_ne hkey _ _).trans hstored, hpending, ?_, ?_⟩
      · exact hflag.imp_right (mt fun hk => (hexpected _ hk).resolve_right fun h => hkey h.1)
      · rwa [Ne, hown _ hkey]
    · exact ⟨Function.update_self .., hnew hact⟩
  · refine pairwise_append.mpr ⟨h.apart, pairwise_singleton .., ?_⟩
    intro e he e' he' hact _
    rw [mem_singleton.mp he']
    exact halone e he hact
  · rcases hexpected k hk with hk | ⟨rfl, hold⟩
    · obtain ⟨e, he, hkey⟩ := h.expected k hk
      exact ⟨e, mem_append_left _ he, hkey⟩
    · exact ⟨_, mem_append_right _ (mem_singleton_self _), rfl, hold⟩
  · rcases update_eq_some hk with ⟨-, rfl⟩ | ⟨-, hk⟩
    · exact hdriver
    · exact h.driven k r hk
  · rcases update_eq_some hk with ⟨rfl, rfl⟩ | ⟨hne, hk⟩
    · exact .inr ⟨_, mem_append_right _ (mem_singleton_self _), .inr hdel, rfl⟩
    · exact (h.deleting k r hk hdel).imp (hown k hne).mpr fun ⟨e, he, hact⟩ =>
        ⟨e, mem_append_left _ he, hact⟩

/-- The controller writes the row that it handles, which is then one on which it does not act. -/
theorem Sound.write (h : w.Sound (some row.key)) (hphase : row.phase ≠ .pending)
    (hphase' : row.phase ≠ .deleting) (hdriver : row.handle ≠ "" → row.driver ≠ "")
    (hown : own = none ∨ own = some row.key) :
    Sound { w.put false row with internalUpdates := row.key :: w.internalUpdates } own := by
  refine h.put (fun k hk => ?_) (fun e he hact hkey => ?_)
    (fun hact => absurd hact fun h => h.elim hphase hphase')
    (forall_mem_cons.mpr ⟨.inr ⟨rfl, rfl⟩, fun _ => .inl⟩) hdriver
  · rcases hown with rfl | rfl <;> simp [Ne.symm hk]
  · exact (h.active e he hact).2.2.2 (congrArg some hkey.symm)

/-- A write that takes no handle away. -/
theorem Held.put (h : w.Held handed) (created : Bool)
    (hsame : ∀ r, w.rows row.key = some r → r.handle = "" ∨ r.handle = row.handle)
    {handed' : Option String} (hhanded : ∀ x, handed = some x → row.handle = x ∨ handed' = some x) :
    (w.put created row).Held handed' := by
  intro x hx
  have hnew : row.handle = x → ∃ k r, (w.put created row).rows k = some r ∧ r.handle = x :=
    fun he => ⟨row.key, row, Function.update_self .., he⟩
  obtain ⟨hne, hrem | ⟨k, r, hk, hhandle⟩ | hx⟩ := h x hx
  · exact ⟨hne, .inl hrem⟩
  · refine ⟨hne, .inr (.inl ?_)⟩
    by_cases hkey : k = row.key
    · subst hkey
      exact hnew (((hsame r hk).resolve_left fun h => hne (hhandle ▸ h)).symm.trans hhandle)
    · exact ⟨k, r, (Function.update_of_ne hkey _ _).trans hk, hhandle⟩
  · exact ⟨hne, .inr ((hhanded x hx).imp_left hnew)⟩

theorem updateStatus_eq {r : Row} (hr : w.rows row.key = some r) (phase : SnapshotPhase)
    (reason message : String) (next : Row → Option Handling) :
    ∃ row' : Row, row' = { row with phase := phase, reason := reason, message := message } ∧
      w.updateStatus row phase reason message next =
        { { w.put false row' with internalUpdates := row'.key :: w.internalUpdates } with
          handling := next row' } := by
  refine ⟨_, rfl, if_pos ?_⟩
  change (w.rows row.key).isSome = true
  rw [hr]
  rfl

/-- A write that ends the handling. -/
theorem Inv.updateStatus (hsound : w.Sound (some row.key)) (hheld : w.Held handed) {r : Row}
    (hr : w.rows row.key = some r) (hsame : r.handle = "" ∨ r.handle = row.handle)
    (hhanded : ∀ x, handed = some x → row.handle = x)
    (hdriver : row.handle ≠ "" → row.driver ≠ "") {phase : SnapshotPhase}
    (hphase : phase = .failed ∨ phase = .ready) (reason message : String) :
    (w.updateStatus row phase reason message fun _ => none).Inv := by
  obtain ⟨row', hrow', hw⟩ := updateStatus_eq hr phase reason message fun _ => none
  rw [hw]
  have hsound' : w.Sound (some row'.key) := hrow' ▸ hsound
  have hdone := hsound'.write ?_ ?_ (hrow' ▸ hdriver) (.inl rfl)
  · refine .of_none rfl { hdone with } ?_
    subst hrow'
    refine hheld.put false (fun r' hr' => ?_) fun x hx => .inl (hhanded x hx)
    rwa [← Option.some.inj (hr.symm.trans hr')]
  all_goals
    rw [hrow']
    rintro rfl
    exact hphase.elim nofun nofun

/-- An event is taken. Where the controller acts on it, its row is the one that is handled. -/
theorem Sound.pop (h : w.Sound none) {e : Event} {rest : List Event} (hev : w.events = e :: rest)
    (hown : own = none ∧ ¬ e.Active ∨ own = some e.row.key ∧ e.Active)
    {expected : List (String × String)} (hsub : ∀ k ∈ expected, k ∈ w.internalUpdates)
    (hgone : e.created = false → e.row.key ∉ expected) :
    Sound { w with events := rest, internalUpdates := expected } own := by
  have hactive := h.active
  have hexpected := h.expected
  have hdeleting := h.deleting
  have hapart := h.apart
  rw [hev] at hactive hexpected hdeleting hapart
  obtain ⟨hapart, hrest⟩ := pairwise_cons.mp hapart
  refine ⟨?_, hrest, ?_, h.driven, ?_⟩
  · intro e' he' hact'
    obtain ⟨hstored, hpending, hflag, -⟩ := hactive e' (mem_cons_of_mem _ he') hact'
    refine ⟨hstored, hpending, hflag.imp_right (mt (hsub _)), ?_⟩
    rcases hown with ⟨rfl, -⟩ | ⟨rfl, hact⟩
    · exact nofun
    · exact fun he => hapart e' he' hact hact' (Option.some.inj he)
  · intro k hk
    obtain ⟨e', he', hkey, hold⟩ := hexpected k (hsub k hk)
    rcases mem_cons.mp he' with rfl | he'
    · exact absurd (hkey ▸ hk) (hgone hold)
    · exact ⟨e', he', hkey, hold⟩
  · intro k r hk hdel
    obtain hnone | ⟨e', he', hact', hkey⟩ := hdeleting k r hk hdel
    · cases hnone
    · rcases mem_cons.mp he' with rfl | he'
      · exact .inl (hkey ▸ (hown.resolve_left fun h => h.2 hact').1)
      · exact .inr ⟨e', he', hact', hkey⟩

theorem prepare_eq_ok {b : Backend} {row' : Row} {src : Volume} {cls : StorageClass}
    (h : prepare b row = .ok (row', src, cls)) (hnone : b.driverFor "" ≠ .ok ()) :
    row'.key = row.key ∧ row'.handle = row.handle ∧ row'.driver ≠ "" := by
  obtain ⟨src', -, h⟩ := bind_eq_ok h
  obtain ⟨-, -, h⟩ := bind_eq_ok h
  obtain ⟨-, -, h⟩ := bind_eq_ok h
  obtain ⟨cls', -, h⟩ := bind_eq_ok h
  obtain ⟨⟨⟩, hdriver, h⟩ := bind_eq_ok h
  obtain ⟨-, -, h⟩ := bind_eq_ok h
  obtain ⟨rfl, -⟩ := Prod.mk.inj (Except.ok.inj h)
  refine ⟨rfl, rfl, ?_⟩
  dsimp only
  split_ifs with hempty
  · rintro he
    rw [he] at hdriver
    cases hb : b.driverFor "" with
    | ok => exact hnone hb
    | error e => rw [hb] at hdriver; cases hdriver
  · exact hempty

/-- The controller starts with an event. -/
theorem Inv.take {b : Backend} (hinv : w.Inv) (hnone : b.driverFor "" ≠ .ok ())
    (hstep : w.step (.take b) = some w') : w'.Inv := by
  simp only [step] at hstep
  split at hstep
  · rename_i e rest hfree hev
    obtain ⟨hsound, hheld⟩ := hinv.free hfree
    have hactive := hsound.active e (hev ▸ mem_cons_self)
    split_ifs at hstep with hself
    · obtain ⟨hold, hflag⟩ : e.created = false ∧ e.row.key ∈ w.internalUpdates := by
        simpa [isSelfUpdate] using hself
      have hinert : ¬ e.Active := fun hact =>
        (hactive hact).2.2.1.elim (by simp [hold]) fun h => h hflag
      have hpop : Sound { w with
          events := rest, internalUpdates := w.internalUpdates.filter (· ≠ e.row.key) } none :=
        hsound.pop hev (.inl ⟨rfl, hinert⟩) (fun k hk => (mem_filter.mp hk).1)
          fun _ hk => by simp at hk
      cases hstep
      exact .of_none hfree hpop hheld
    · have hgone : e.created = false → e.row.key ∉ w.internalUpdates := by
        simpa [isSelfUpdate] using hself
      have hpop : ∀ own, own = none ∧ ¬ e.Active ∨ own = some e.row.key ∧ e.Active →
          Sound { w with events := rest } own :=
        fun own hown => hsound.pop hev hown (fun _ h => h) hgone
      cases hstep
      unfold reconcile
      split
      · rename_i hphase
        obtain ⟨hstored, hbare, -⟩ := hactive (.inl hphase)
        have hown := hpop _ (.inr ⟨rfl, .inl hphase⟩)
        have hempty : e.row.handle = "" := hbare hphase
        split
        · exact .updateStatus hown hheld hstored (.inr rfl) nofun (fun h => absurd hempty h)
            (.inl rfl) ..
        · rename_i row src cls hprep
          obtain ⟨hkey, hhandle, hdriver⟩ := prepare_eq_ok hprep hnone
          rw [← hkey] at hown hstored
          obtain ⟨row', rfl, hw⟩ := updateStatus_eq (w := { w with events := rest }) hstored
            .creating "" "" fun row => some (.create row src cls)
          rw [hw]
          have hsound' : Sound { w with events := rest } (some { row with
            phase := .creating, reason := "", message := "" : Row }.key) := hown
          have hbare' : row.handle = "" := hhandle.trans hempty
          refine .of_some (hsound'.write nofun nofun (fun h => absurd hbare' h) (.inr rfl)) ?_ ?_
          · refine Held.put hheld false (fun r hr => .inl ?_) nofun
            rwa [← Option.some.inj (hstored.symm.trans hr)]
          · exact ⟨hdriver, _, Function.update_self .., hbare'⟩
      · rename_i hphase
        obtain ⟨hstored, -⟩ := hactive (.inr hphase)
        have hown := hpop _ (.inr ⟨rfl, .inr hphase⟩)
        split_ifs with hnothing
        · refine .of_some hown hheld ⟨hstored, .inl ?_⟩
          by_contra hhandle
          exact hnothing.elim hhandle (hsound.driven _ _ hstored hhandle)
        · exact .of_some hown hheld hstored
      · rename_i hpending hdeleting
        exact .of_none hfree (hpop none (.inl ⟨rfl, fun h => h.elim hpending hdeleting⟩)) hheld
  · cases hstep

/-- The row that is handled is removed, with no handle or after its snapshot. -/
theorem Inv.remove (hsound : w.Sound (some row.key)) (hheld : w.Held none)
    (hr : w.rows row.key = some row) (hgone : row.handle = "" ∨ row.handle ∈ w.removed)
    (reads : List Row) :
    Inv { w with
      rows := Function.update w.rows row.key none, handling := none, reads := reads } := by
  have hrow : ∀ {k r}, Function.update w.rows row.key none k = some r →
      k ≠ row.key ∧ w.rows k = some r := by
    intro k r hk
    have hne : k ≠ row.key := fun he => by simp [he] at hk
    exact ⟨hne, by rwa [Function.update_of_ne hne] at hk⟩
  refine .of_none rfl ⟨?_, hsound.apart, hsound.expected, ?_, ?_⟩ ?_
  · intro e he hact
    obtain ⟨hstored, hpending, hflag, hne⟩ := hsound.active e he hact
    have hne' : e.row.key ≠ row.key := fun he => hne (congrArg some he.symm)
    exact ⟨(Function.update_of_ne hne' _ _).trans hstored, hpending, hflag, nofun⟩
  · exact fun k r hk => hsound.driven k r (hrow hk).2
  · intro k r hk hdel
    obtain ⟨hne, hk⟩ := hrow hk
    exact (hsound.deleting k r hk hdel).imp_left fun h => absurd (Option.some.inj h).symm hne
  · intro x hx
    obtain ⟨hne, hrem | ⟨k, r, hk, hhandle⟩ | hx⟩ := hheld x hx
    · exact ⟨hne, .inl hrem⟩
    · by_cases hkey : k = row.key
      · subst hkey
        cases hr.symm.trans hk
        exact ⟨hne, .inl (hhandle ▸ hgone.resolve_left fun h => hne (hhandle ▸ h))⟩
      · exact ⟨hne, .inr (.inl ⟨k, r, (Function.update_of_ne hkey _ _).trans hk, hhandle⟩)⟩
    · cases hx

/-- The controller goes on. -/
theorem Inv.advance {b : Backend} (hinv : w.Inv) (hstep : w.step (.advance b) = some w') :
    w'.Inv := by
  obtain ⟨h, hhandling, hadv⟩ := Option.bind_eq_some_iff.mp hstep
  obtain ⟨hsound, hheld, hstage⟩ := hinv
  rw [hhandling] at hsound hheld
  replace hstage := hstage h hhandling
  cases h with
  | create row src cls =>
    obtain ⟨hdriver, r, hr, hbare⟩ := hstage
    have hfail : ∀ failure, (w.markFailed row failure).Inv := fun failure =>
      .updateStatus hsound hheld hr (.inl hbare) nofun (fun _ => hdriver) (.inl rfl) ..
    simp only [World.advance] at hadv
    split at hadv
    · exact Option.some.inj hadv ▸ hfail _
    · exact Option.some.inj hadv ▸ hfail _
    · obtain ⟨⟨hne, -⟩, hadv⟩ := Option.ite_none_right_eq_some.mp hadv
      cases hadv
      refine .of_some (w := { w with returned := _ :: w.returned }) { hsound with } ?_
        ⟨hdriver, r, hr, hbare⟩
      refine forall_mem_cons.mpr ⟨⟨hne, .inr (.inr rfl)⟩, fun x hx => ?_⟩
      exact (hheld x hx).imp_right (Or.imp_right (Or.imp_right nofun))
  | ready row =>
    obtain ⟨hdriver, r, hr, hbare⟩ := hstage
    cases hadv
    exact .updateStatus hsound hheld hr (.inl hbare) (fun _ => Option.some.inj) (fun _ => hdriver)
      (.inr rfl) ..
  | delete row =>
    have hfail : ∀ failure, (w.markFailed row failure).Inv := fun failure =>
      .updateStatus hsound hheld hstage (.inr rfl) nofun (hsound.driven _ _ hstage)
        (.inl rfl) ..
    simp only [World.advance] at hadv
    split at hadv
    · exact Option.some.inj hadv ▸ hfail _
    · exact Option.some.inj hadv ▸ hfail _
    · cases hadv
      refine .of_some (w := { w with removed := row.handle :: w.removed }) { hsound with } ?_
        ⟨hstage, .inr mem_cons_self⟩
      exact fun x hx => (hheld x hx).imp_right (Or.imp_left (mem_cons_of_mem _))
  | remove row =>
    obtain ⟨hr, hgone⟩ := hstage
    cases hadv
    exact .remove hsound hheld hr hgone w.reads

theorem Stage.stored {h : Handling} (hstage : w.Stage h) : ∃ r, w.rows h.row.key = some r := by
  cases h with
  | create | ready =>
    obtain ⟨-, r, hr, -⟩ := hstage
    exact ⟨r, hr⟩
  | delete => exact ⟨_, hstage⟩
  | remove => exact ⟨_, hstage.1⟩

/-- A row is created under a name that is free. -/
theorem Inv.createSnapshot (hinv : w.Inv) (hnew : w.rows row.key = none) (hbare : row.handle = "") :
    (w.put true row).Inv := by
  have hne : ∀ {k r}, w.rows k = some r → k ≠ row.key := by
    rintro k r hk rfl
    cases hnew.symm.trans hk
  refine ⟨?_, ?_, fun h hh => ?_⟩
  · refine hinv.sound.put (fun _ _ => .rfl) (fun e he hact => ?_)
      (fun _ => ⟨fun _ => hbare, .inl rfl, fun hown => ?_⟩) (fun _ => .inl) (absurd hbare)
    · exact hne (hinv.sound.active e he hact).1
    · obtain ⟨h, hh, hkey⟩ := Option.map_eq_some_iff.mp hown
      obtain ⟨r, hr⟩ := (hinv.stage h hh).stored
      exact hne hr hkey
  · exact hinv.held.put true (fun r hr => absurd rfl (hne hr)) fun _ => .inr
  · have hstage := hinv.stage h hh
    obtain ⟨r, hr⟩ := hstage.stored
    have hsame : (w.put true row).rows h.row.key = w.rows h.row.key :=
      Function.update_of_ne (hne hr) ..
    cases h with
    | create | ready =>
      obtain ⟨hdriver, r, hr, hempty⟩ := hstage
      exact ⟨hdriver, r, hsame.trans hr, hempty⟩
    | delete => exact hsame.trans hstage
    | remove => exact ⟨hsame.trans hstage.1, hstage.2⟩

/-- A snapshot is deleted while the controller is idle. -/
theorem Inv.deleteSnapshot (hinv : w.Inv) (hidle : w.Idle) (hrow : w.rows row.key = some row)
    (hhard : hard row → row.handle = "") (hstep : w.step (.deleteSnapshot row) = some w') :
    w'.Inv := by
  obtain ⟨hsound, hheld⟩ := hinv.free hidle.handling
  have hfree : w.internalUpdates = [] := eq_nil_iff_forall_not_mem.mpr fun k hk => by
    obtain ⟨e, he, -⟩ := hsound.expected k hk
    simp [hidle.events] at he
  obtain ⟨-, hstep⟩ := Option.ite_none_right_eq_some.mp hstep
  rw [if_neg (by simp [hrow])] at hstep
  split_ifs at hstep with hroute <;> cases hstep
  · have hsound' : w.Sound (some row.key) := { hsound with
      active := by simp [hidle.events]
      deleting := fun k r hk hdel => .inr ((hsound.deleting k r hk hdel).resolve_left nofun) }
    rw [hidle.handling]
    exact .remove hsound' hheld hrow (.inl (hhard hroute)) _
  · have hw : Sound { w with reads := w.reads.erase row } none := { hsound with }
    have hdriver : row.handle ≠ "" → row.driver ≠ "" := hsound.driven _ _ hrow
    refine .of_none hidle.handling (hw.put (fun _ _ => .rfl) (by simp [hidle.events])
      (fun _ => ⟨nofun, .inr (by simp [hfree]), nofun⟩) (fun _ => .inl) hdriver) ?_
    refine Held.put hheld false (fun r hr => .inr ?_) fun _ => .inr
    rw [← Option.some.inj (hrow.symm.trans hr)]

/-- One orderly step. -/
theorem Inv.step {a : Step} (hinv : w.Inv) (hok : w.Orderly a) (hstep : w.step a = some w') :
    w'.Inv := by
  cases a with
  | createSnapshot row =>
    obtain ⟨hnew, hstep⟩ := Option.ite_none_left_eq_some.mp hstep
    cases hstep
    exact hinv.createSnapshot (by simpa using hnew) hok
  | read key =>
    obtain ⟨row, -, rfl⟩ := Option.map_eq_some_iff.mp hstep
    obtain ⟨h, hheld, hstage⟩ := hinv
    refine ⟨{ h with }, hheld, fun h hh => ?_⟩
    have := hstage h hh
    cases h <;> exact this
  | deleteSnapshot snap => exact hinv.deleteSnapshot hok.1 hok.2.1 hok.2.2 hstep
  | take b => exact hinv.take hok hstep
  | advance b => exact hinv.advance hstep

end World

/-- Where snapshots are deleted between the handlings, and not at once while they have a handle,
every snapshot taken and not deleted is stored in the end, and no row is left marked. -/
theorem snapshots_accounted_for {acts : List Step} {w : World}
    (hrun : exec World.step {} acts = some w) (hok : Along World.step World.Orderly {} acts)
    (hidle : w.Idle) :
    (∀ h ∈ w.returned, h ∉ w.removed → ∃ k row, w.rows k = some row ∧ row.handle = h) ∧
      ∀ k row, w.rows k = some row → row.phase ≠ .deleting := by
  have hstart : World.Inv {} := .of_none rfl
    ⟨by simp, .nil, by simp, nofun, nofun⟩ (by simp [World.Held])
  have hinv : w.Inv :=
    exec_invariant_along (fun _ _ _ h hok hstep => World.Inv.step h hok hstep) hstart hok hrun
  obtain ⟨hsound, hheld⟩ := hinv.free hidle.handling
  refine ⟨fun h hh hrem => ?_, fun k row hk hdel => ?_⟩
  · exact ((hheld h hh).2.resolve_left hrem).resolve_right nofun
  · obtain hnone | ⟨e, he, -⟩ := hsound.deleting k row hk hdel
    · cases hnone
    · simp [hidle.events] at he

/-- The snapshot is taken and deleted. -/
def working : Backend where
  volume _ _ := .ok
    { ns := "default", name := "data", handle := "disk-1", storageClassName := "fast" }
  storageClass _ := .ok { name := "fast", driver := "do-volume" }
  driverFor name := if name = "" then .error "unknown driver" else .ok ()
  snapshots _ := true
  resolve params _ := .ok params
  snapshot := .ok "snap-1"
  deleteSnapshot := .ok ()

/-- A snapshot that is asked for. -/
def daily : Row := { ns := "default", name := "daily", sourceVolume := "data" }

/-- The snapshot once it is taken. -/
def taken : Row := { daily with driver := "do-volume", handle := "snap-1", phase := .ready }

/-- Create a snapshot and handle its events. -/
def takeSnapshot (b : Backend) (row : Row) : List Step :=
  [.createSnapshot row, .take b, .advance b, .advance b, .take b, .take b]

/-- Two snapshots are taken and the deletion of the first is asked for. -/
def takeTwo : List Step :=
  takeSnapshot working daily ++
    takeSnapshot { working with snapshot := .ok "snap-2" } { daily with name := "weekly" } ++
    [.read daily.key]

/-- The deletion, and its handling. -/
def deleteTaken : List Step :=
  [.deleteSnapshot taken, .take working, .advance working, .advance working]

/-- The example's steps are orderly. -/
theorem takeTwo_deleteTaken_orderly :
    Along World.step World.Orderly {} (takeTwo ++ deleteTaken) := by
  refine Along.append (Along.of_forall ?_ _) fun w hw => ?_
  · simp [takeTwo, takeSnapshot, World.Orderly, working, daily]
  · obtain rfl := Option.some.inj hw
    refine ⟨⟨⟨rfl, rfl⟩, rfl, by decide⟩, fun w _ => Along.of_forall ?_ w⟩
    simp [World.Orderly, working]

/-- Two snapshots, one deleted. -/
theorem snapshots_accounted_for_taken :
    ∃ w, exec World.step {} (takeTwo ++ deleteTaken) = some w ∧
      w.returned = ["snap-2", "snap-1"] ∧ w.removed = ["snap-1"] ∧
      ∃ k row, w.rows k = some row ∧ row.handle = "snap-2" := by
  obtain ⟨w, hrun, hidle, hret, hrem⟩ : ∃ w,
      exec World.step {} (takeTwo ++ deleteTaken) = some w ∧ w.Idle ∧
        w.returned = ["snap-2", "snap-1"] ∧ w.removed = ["snap-1"] :=
    ⟨_, rfl, ⟨rfl, rfl⟩, rfl, rfl⟩
  have hkept := (snapshots_accounted_for hrun takeTwo_deleteTaken_orderly hidle).1
  exact ⟨w, hrun, hret, hrem, hkept _ (by simp [hret]) (by simp [hrem])⟩

/-- The driver fails to delete the snapshot, and the second deletion takes the failed row for one
that has none. -/
theorem snapshot_stranded :
    ∃ w, exec World.step {} (takeSnapshot working daily ++
        [.read daily.key, .deleteSnapshot taken, .take working,
          .advance { working with deleteSnapshot := .error "busy" }, .take working,
          .read daily.key, .deleteSnapshot { taken with
            phase := .failed, reason := "DeleteSnapshotFailed", message := "busy" }]) = some w ∧
      w.Idle ∧ w.returned = ["snap-1"] ∧ w.removed = [] ∧ ∀ k, w.rows k = none := by
  refine ⟨_, rfl, ⟨rfl, rfl⟩, rfl, rfl, fun k => ?_⟩
  by_cases hk : k = daily.key
  · rw [hk]
    rfl
  · exact (Function.update_of_ne hk ..).trans <| (Function.update_of_ne hk ..).trans <|
      (Function.update_of_ne hk ..).trans <| (Function.update_of_ne hk ..).trans <|
      (Function.update_of_ne hk ..).trans <| Function.update_of_ne hk ..

end Rune.Snapshots
