import Rune.Models.Volumes.Restart

/-!
# The disks that were provisioned

The watch loop and the goroutines of the timers handle copies of the row. A handling writes its
copy back whole, which fails where the row is gone by then. The event of a deletion carries no
row in this store, so that the controller passes it over.
-/

namespace Rune.Volumes

open Rune.Core List
open Rune.Services (Entries)

/-- What the controller learns of a write. -/
structure Notice where
  created : Bool
  vol : Volume

/-- The timers that the table has no entry of: those that still run after the goroutine of another
one took their entry out, those whose goroutine has begun, which nothing stops any more, and those
whose goroutine has taken the entry out and reads the row next. -/
structure Timers where
  loose : ℕ := 0
  fired : ℕ := 0
  reading : ℕ := 0

/-- The table, whose row is stored or gone, the notices not yet taken, the handlings of the loop
and of the timers, the deleted rows, and the handles that the driver returned. -/
structure Site where
  stored : Bool
  table : Table
  notices : List Notice := []
  timers : Timers := {}
  loop : Option Handling := none
  retry : List Handling := []
  deleted : List Volume := []
  returned : List String := []

/-- What can happen. -/
inductive Site.Step where
  | create (vol : Volume)
  | update (vol : Volume)
  | delete
  | takeEvent (b : Backend)
  | advanceLoop (b : Backend)
  /-- The timer of the table's entry fires. -/
  | expire
  | expireLoose
  /-- The first half of `retryProvision`, which deletes whatever entry there is. -/
  | removeTimer
  /-- The second half. -/
  | retryProvision (b : Backend)
  | advanceRetry (i : ℕ) (b : Backend)

/-- The handle that the handling has yet to write. -/
def Handling.handed : Handling → Option String
  | .resolved _ _ _ => none
  | .made vol => some vol.handle

namespace Site

variable (tune : Tuning) (w : Site)

/-- All handlings under way. -/
def handlings : List Handling := w.loop.toList ++ w.retry

/-- Somebody else writes the row. -/
def put (created : Bool) (vol : Volume) : Site :=
  { w with
    stored := true, table := { w.table with row := vol }, notices := w.notices ++ [⟨created, vol⟩] }

/-- Bring what a part of a handling made of the table to the store. Where the row is gone a write
fails and the handling ends. -/
def commit : Table × Option Handling → Site × Option Handling
  | (t, h) =>
    let notices := w.notices ++ t.events.map (⟨false, ·⟩)
    if t.events = [] then ({ w with table := t }, h)
    else if w.stored then ({ w with table := { t with events := [] }, notices := notices }, h)
    else ({ w with table := { t with events := [], row := w.table.row } }, none)

/-- Go on with a handling. A handle that the driver returns is a new one. -/
def advance (b : Backend) (h : Handling) : Option (Site × Option Handling) :=
  match h, w.commit (w.table.advance tune b h) with
  | .resolved _ _ _, (w, some (.made vol)) =>
    if vol.handle ≠ "" ∧ vol.handle ∉ w.returned then
      some ({ w with returned := vol.handle :: w.returned }, some (.made vol))
    else none
  | _, p => some p

/-- One step, if it is possible. -/
def step : Step → Option Site
  | .create vol => if w.stored then none else some (w.put true vol)
  | .update vol => if w.stored then some (w.put false vol) else none
  | .delete =>
    if w.stored then some { w with stored := false, deleted := w.table.row :: w.deleted } else none
  | .takeEvent b =>
    match w.loop, w.notices with
    | none, e :: rest =>
      let w := { w with notices := rest }
      if !e.created && w.table.selfUpdate then
        some { w with table := { w.table with selfUpdate := false } }
      else
        let (w, h) := w.commit (w.table.reconcile b e.vol)
        some { w with loop := h }
    | _, _ => none
  | .advanceLoop b => do
    let (w, h) ← w.advance tune b (← w.loop)
    some { w with loop := h }
  | .expire =>
    if w.table.timer then some { w with
      table := { w.table with timer := false }
      timers := { w.timers with fired := w.timers.fired + 1 } }
    else none
  | .expireLoose =>
    if 0 < w.timers.loose then some { w with
      timers := { w.timers with loose := w.timers.loose - 1, fired := w.timers.fired + 1 } }
    else none
  | .removeTimer =>
    if 0 < w.timers.fired then some { w with
      table := { w.table with timer := false }
      timers := ⟨w.timers.loose + w.table.timer.toNat, w.timers.fired - 1,
        w.timers.reading + 1⟩ }
    else none
  | .retryProvision b =>
    if 0 < w.timers.reading then
      let w := { w with timers := ⟨w.timers.loose, w.timers.fired, w.timers.reading - 1⟩ }
      if w.stored ∧ w.table.row.status = .failed then
        let (w, h) := w.commit (w.table.reconcile b { w.table.row with status := .provisioning })
        some { w with retry := w.retry ++ h.toList }
      else some w
    else none
  | .advanceRetry i b => do
    let (w, h) ← w.advance tune b (← w.retry[i]?)
    some { w with retry := w.retry.take i ++ h.toList ++ w.retry.drop (i + 1) }

/-- The row was deleted and its disk is to be kept. -/
def Kept (h : String) : Prop := h ≠ "" ∧ ∃ v ∈ w.deleted, v.handle = h ∧ v.reclaimPolicy ≠ .delete

/-- No timer runs and no goroutine of one has begun. -/
structure Quiet : Prop where
  timer : w.table.timer = false
  timers : w.timers = {}

/-- Nothing is under way and nothing is left to be done. -/
structure Idle : Prop where
  handlings : w.handlings = []
  quiet : w.Quiet
  notices : w.notices = []

/-- Others write and delete the row only while the controller is idle. They leave the handle, ask
for a disk only where there is none, and do not delete a row with a handle whose disk is to be
deleted. -/
def Orderly : Step → Prop
  | .create vol => w.Idle ∧ (vol.status.waits = true → vol.handle = "")
  | .update vol => w.Idle ∧ vol.handle = w.table.row.handle ∧
      (vol.status.waits = true → vol.handle = "")
  | .delete => w.Idle ∧ (w.table.row.handle ≠ "" → w.table.row.reclaimPolicy ≠ .delete)
  | _ => True

end Site

namespace Table

/-- The table has been written, with this handle. -/
structure Wrote (t : Table) (handle : String) : Prop where
  events : t.events = [t.row]
  handle : t.row.handle = handle
  flag : t.selfUpdate = true

/-- The handling has ended, and what it wrote does not wait for a disk. -/
def Failed (handle : String) (p : Table × Option Handling) : Prop :=
  p.2 = none ∧ p.1.Wrote handle ∧ p.1.row.status.waits = false

variable {t : Table} {b : Backend} {vol : Volume} {tune : Tuning}

theorem wrote_updateStatus (hev : t.events = []) (status : VolumeStatus)
    (reason message : String) :
    (t.updateStatus vol status reason message).Wrote vol.handle :=
  ⟨congrArg (· ++ _) hev, rfl, rfl⟩

/-- The first half fails the row, or leaves the handling to call the driver. -/
theorem begin_cases (t : Table) (b : Backend) (vol : Volume) (hev : t.events = []) :
    ∃ t' h, t.begin b vol = (t', h) ∧ t'.timer = t.timer ∧ (Failed vol.handle (t', h) ∨
      ∃ v cls merged, h = some (.resolved v cls merged) ∧ v.handle = vol.handle ∧
        (t' = t ∨ vol.status ≠ .provisioning ∧ t'.Wrote vol.handle)) := by
  fun_cases t.begin b vol
  · exact ⟨_, _, rfl, rfl, .inl ⟨rfl, wrote_updateStatus hev .., rfl⟩⟩
  · exact ⟨_, _, rfl, rfl, .inl ⟨rfl, wrote_updateStatus hev .., rfl⟩⟩
  · exact ⟨_, _, rfl, rfl, .inr ⟨_, _, _, rfl, rfl, .inr ⟨‹_›, wrote_updateStatus hev ..⟩⟩⟩
  · exact ⟨_, _, rfl, rfl, .inr ⟨_, _, _, rfl, rfl, .inl rfl⟩⟩

theorem failed_handleProvisionFail (hev : t.events = []) (e : String) :
    Failed vol.handle (t.handleProvisionFail tune vol e, none) := by
  unfold Table.handleProvisionFail
  dsimp only
  split_ifs
  · exact ⟨rfl, ⟨congrArg (· ++ _) hev, rfl, rfl⟩, rfl⟩
  · exact ⟨rfl, ⟨congrArg (· ++ _) hev, rfl, rfl⟩, rfl⟩

/-- The second half writes how it failed, or has a handle. -/
theorem provision_cases (hev : t.events = []) (cls : StorageClass) (merged : Entries) :
    Failed vol.handle (t.provision tune b vol cls merged) ∨
      ∃ v calls,
        t.provision tune b vol cls merged = ({ t with calls := calls }, some (.made v)) := by
  have hcall : ∀ c adopt, Failed vol.handle (t.callDriver tune b vol c adopt) ∨
      ∃ v calls, t.callDriver tune b vol c adopt = ({ t with calls := calls }, some (.made v)) := by
    intro c adopt
    fun_cases t.callDriver tune b vol c adopt
    · refine .inl (failed_handleProvisionFail ?_ _)
      exact hev
    · exact .inr ⟨_, _, rfl⟩
  fun_cases t.provision tune b vol cls merged
  · exact .inl (failed_handleProvisionFail hev _)
  · exact hcall _ _
  · exact .inl ⟨rfl, wrote_updateStatus hev .., rfl⟩
  · exact .inl ⟨rfl, wrote_updateStatus hev .., rfl⟩
  · exact hcall _ _

end Table

namespace Site

variable (w : Site)

/-- No notice that is still to come makes the controller act. -/
def Calm : Prop :=
  (∀ e ∈ w.notices, e.vol.status.waits = false) ∨
    ∃ vol rest, w.notices = ⟨false, vol⟩ :: rest ∧ w.table.selfUpdate = true ∧
      ∀ e ∈ rest, e.vol.status.waits = false

/-- Every handle is that of the stored row or of a row whose disk is to be kept. -/
def Held : Prop :=
  ∀ h ∈ w.returned, h ≠ "" ∧ w.stored = true ∧ w.table.row.handle = h ∨ w.Kept h

/-- The row waits for a disk or has failed to get one, and none is lost. -/
structure Ready : Prop where
  buffer : w.table.events = []
  stored : w.stored = true
  row : w.table.row.handle = ""
  calm : w.Calm

/-- There is one timer at most, in the table or with its goroutine. -/
structure OneTimer : Prop where
  loose : w.timers.loose = 0
  one : w.table.timer.toNat + w.timers.fired + w.timers.reading ≤ 1

/-- The controller has nothing to do, has been asked for a disk, has failed and may wait for its
timer, or has one handling under way. -/
inductive Inv : Prop
  | resting (hbuf : w.table.events = []) (hfree : w.handlings = []) (hquiet : w.Quiet)
      (hcalm : w.Calm) (hheld : w.Held)
  | asked (e : Notice) (hready : Ready { w with notices := [] }) (hfree : w.handlings = [])
      (hquiet : w.Quiet) (hnotice : w.notices = [e]) (hbare : e.vol.handle = "")
      (hkept : ∀ h ∈ w.returned, w.Kept h)
  | delayed (hready : w.Ready) (hfree : w.handlings = []) (htimer : w.OneTimer)
      (hkept : ∀ h ∈ w.returned, w.Kept h)
  | busy (p : Handling) (hready : w.Ready) (hone : w.handlings = [p]) (hquiet : w.Quiet)
      (hbare : ∀ vol cls merged, p = .resolved vol cls merged → vol.handle = "")
      (hkept : ∀ h ∈ w.returned, w.Kept h ∨ h ≠ "" ∧ p.handed = some h)

variable {w} {w' : Site} {tune : Tuning} {t : Table} {h : Option Handling}

theorem commit_of_nil (hev : t.events = []) : w.commit (t, h) = ({ w with table := t }, h) :=
  if_pos hev

theorem commit_of_wrote {handle : String} (hw : t.Wrote handle) (hstored : w.stored = true) :
    w.commit (t, h) = ({ w with
      table := { t with events := [] }, notices := w.notices ++ [⟨false, t.row⟩] }, h) := by
  simp [commit, hw.events, hstored]

theorem commit_handlings (p : Table × Option Handling) :
    (w.commit p).1.loop = w.loop ∧ (w.commit p).1.retry = w.retry := by
  unfold commit
  dsimp only
  split_ifs <;> exact ⟨rfl, rfl⟩

theorem OneTimer.of_timers (htimers : w.timers = {}) : w.OneTimer := by
  refine ⟨by rw [htimers], ?_⟩
  rw [htimers]
  exact Bool.toNat_le _

/-- A row that does not wait is passed over. -/
theorem Calm.append (hcalm : w.Calm) {e : Notice} (he : e.vol.status.waits = false)
    (hflag : t.selfUpdate = true) :
    Calm { w with table := t, notices := w.notices ++ [e] } := by
  rcases hcalm with hcalm | ⟨vol, rest, hnotices, -, hrest⟩
  · exact .inl (forall_mem_append.mpr ⟨hcalm, forall_mem_singleton.mpr he⟩)
  · exact .inr ⟨vol, rest ++ [e], congrArg (· ++ [e]) hnotices, hflag,
      forall_mem_append.mpr ⟨hrest, forall_mem_singleton.mpr he⟩⟩

/-- Where there is nothing to do every handle is where it belongs. -/
theorem Inv.of_idle (hinv : w.Inv) (hidle : w.Idle) : w.table.events = [] ∧ w.Held := by
  cases hinv with
  | resting hbuf _ _ _ hheld => exact ⟨hbuf, hheld⟩
  | asked e _ _ _ hnotice => exact absurd (hidle.notices.symm.trans hnotice) (by simp)
  | delayed hready _ _ hkept => exact ⟨hready.buffer, fun h hh => .inr (hkept h hh)⟩
  | busy p _ hone => exact absurd (hidle.handlings.symm.trans hone) (by simp)

variable {loop : Option Handling} {retry : List Handling} {b : Backend} {vol : Volume}

/-- A handling that fails leaves the row without a handle, as it was. -/
theorem Ready.failed (hready : w.Ready) (htimers : w.timers = {})
    (hfail : Table.Failed "" (t, h)) (hkept : ∀ h ∈ w.returned, w.Kept h)
    (hone : loop.toList ++ retry = (w.commit (t, h)).2.toList) :
    Inv { (w.commit (t, h)).1 with loop := loop, retry := retry } := by
  obtain ⟨rfl, hwrote, hwaits⟩ : h = none ∧ t.Wrote "" ∧ t.row.status.waits = false := hfail
  rw [commit_of_wrote hwrote hready.stored] at hone ⊢
  exact .delayed ⟨rfl, hready.stored, hwrote.handle, hready.calm.append hwaits hwrote.flag⟩ hone
    (.of_timers htimers) hkept

/-- The first half of the only handling. -/
theorem Ready.begin (hready : w.Ready) (htimers : w.timers = {}) (ht : t.timer = false)
    (hbuf : t.events = [])
    (hrow : t.row = w.table.row) (hself : t.selfUpdate = w.table.selfUpdate)
    (hvol : vol.handle = "")
    (hlone : vol.status = .provisioning ∨ w.notices = []) (hkept : ∀ h ∈ w.returned, w.Kept h)
    (hone : loop.toList ++ retry = (w.commit (t.begin b vol)).2.toList) :
    Inv { (w.commit (t.begin b vol)).1 with loop := loop, retry := retry } := by
  obtain ⟨t', h, hbegin, htime, hcases⟩ := t.begin_cases b vol hbuf
  rw [hbegin] at hone ⊢
  rw [hvol] at hcases
  have hbare : ∀ {v : Volume} {cls merged}, v.handle = "" → ∀ vol cls' merged',
      Handling.resolved v cls merged = .resolved vol cls' merged' → vol.handle = "" :=
    fun hv _ _ _ he => (Handling.resolved.inj he).1 ▸ hv
  rcases hcases with hfail | ⟨v, cls, merged, rfl, hv, rfl | ⟨hnew, hwrote⟩⟩
  · exact hready.failed htimers hfail hkept hone
  · rw [commit_of_nil hbuf] at hone ⊢
    refine .busy _ ⟨hbuf, hready.stored, hrow ▸ hready.row, ?_⟩ hone ⟨ht, htimers⟩ (hbare hv)
      fun h hh => .inl (hkept h hh)
    simpa only [Calm, hself] using hready.calm
  · rw [commit_of_wrote hwrote hready.stored] at hone ⊢
    have hnil : w.notices = [] := hlone.resolve_left hnew
    have hcalm : ∃ vol rest, w.notices ++ [⟨false, t'.row⟩] = ⟨false, vol⟩ :: rest ∧
        t'.selfUpdate = true ∧ ∀ e ∈ rest, e.vol.status.waits = false :=
      ⟨t'.row, [], congrArg (· ++ [_]) hnil, hwrote.flag, by simp⟩
    exact .busy _ ⟨rfl, hready.stored, hwrote.handle, .inr hcalm⟩ hone
      ⟨htime.trans ht, htimers⟩ (hbare hv) fun h hh => .inl (hkept h hh)

/-- The handling that is under way goes on. -/
theorem Inv.advance {p : Handling} (hready : w.Ready) (hquiet : w.Quiet)
    (hbare : ∀ vol cls merged, p = .resolved vol cls merged → vol.handle = "")
    (hkept : ∀ h ∈ w.returned, w.Kept h ∨ h ≠ "" ∧ p.handed = some h)
    (hadv : w.advance tune b p = some (w', h)) (hone : loop.toList ++ retry = h.toList) :
    Inv { w' with loop := loop, retry := retry } := by
  cases p with
  | made vol =>
    have hwrote : (w.table.clearRetry.updateStatus vol .available "" "").Wrote vol.handle :=
      Table.wrote_updateStatus (t := w.table.clearRetry) hready.buffer ..
    simp only [Site.advance, Table.advance, commit_of_wrote hwrote hready.stored] at hadv
    cases hadv
    refine .resting rfl hone ⟨rfl, hquiet.timers⟩ (hready.calm.append rfl rfl) fun h hh => ?_
    refine (hkept h hh).symm.imp_left fun ⟨hne, he⟩ => ⟨hne, hready.stored, ?_⟩
    exact Option.some.inj he
  | resolved vol cls merged =>
    have hvol := hbare vol cls merged rfl
    have hkept' : ∀ h ∈ w.returned, w.Kept h :=
      fun h hh => (hkept h hh).resolve_right fun he => nomatch he.2
    obtain hfail | ⟨v, calls, hmade⟩ :
        Table.Failed vol.handle (w.table.provision tune b vol cls merged) ∨ _ :=
      Table.provision_cases hready.buffer cls merged
    · obtain ⟨t, h', hp⟩ : ∃ t h', w.table.provision tune b vol cls merged = (t, h') :=
        ⟨_, _, rfl⟩
      rw [hp, hvol] at hfail
      obtain rfl : h' = none := hfail.1
      have hcommit : w.commit (t, none) = (w', h) := by
        simpa only [Site.advance, Table.advance, hp, commit_of_wrote hfail.2.1 hready.stored,
          Option.some.injEq] using hadv
      have := hready.failed hquiet.timers hfail hkept' (hone.trans (by rw [hcommit]))
      rwa [hcommit] at this
    · have hbuf : ({ w.table with calls := calls } : Table).events = [] := hready.buffer
      simp only [Site.advance, Table.advance, hmade, commit_of_nil hbuf] at hadv
      obtain ⟨⟨hne, -⟩, hadv⟩ := Option.ite_none_right_eq_some.mp hadv
      cases hadv
      refine .busy _ ⟨hready.buffer, hready.stored, hready.row, hready.calm⟩ hone
        ⟨hquiet.timer, hquiet.timers⟩ (fun _ _ _ h => nomatch h) ?_
      exact forall_mem_cons.mpr ⟨.inr ⟨hne, rfl⟩, fun h hh => .inl (hkept' h hh)⟩

theorem advance_handlings {p : Handling} (hadv : w.advance tune b p = some (w', h)) :
    w'.loop = w.loop ∧ w'.retry = w.retry := by
  have hcommit := w.commit_handlings (w.table.advance tune b p)
  unfold Site.advance at hadv
  split at hadv
  · rename_i heq
    obtain ⟨-, hadv⟩ := Option.ite_none_right_eq_some.mp hadv
    cases hadv
    rwa [heq] at hcommit
  · rwa [Option.some.inj hadv] at hcommit

/-- Where a handling is under way it is the only one. -/
theorem Inv.busy_of_mem (hinv : w.Inv) {p : Handling} (hp : p ∈ w.handlings) :
    w.handlings = [p] ∧ ∀ {w' h loop retry}, w.advance tune b p = some (w', h) →
      loop.toList ++ retry = h.toList → Inv { w' with loop := loop, retry := retry } := by
  cases hinv with
  | resting _ hfree => simp [hfree] at hp
  | asked _ _ hfree => simp [hfree] at hp
  | delayed _ hfree => simp [hfree] at hp
  | busy p' hready hone hquiet hbare hkept =>
    obtain rfl := mem_singleton.mp (hone ▸ hp)
    exact ⟨hone, fun hadv hone' => .advance hready hquiet hbare hkept hadv hone'⟩

theorem handlings_eq_nil (h : w.handlings = []) : w.loop = none ∧ w.retry = [] := by
  obtain ⟨hloop, hretry⟩ := append_eq_nil_iff.mp h
  exact ⟨Option.toList_eq_nil_iff.mp hloop, hretry⟩

/-- A notice that is passed over. -/
theorem Calm.cons {e : Notice} {rest : List Notice} (hcalm : w.Calm)
    (hnotices : w.notices = e :: rest) :
    (¬ (e.created = false ∧ w.table.selfUpdate = true) → e.vol.status.waits = false) ∧
      ∀ e ∈ rest, e.vol.status.waits = false := by
  rcases hcalm with hcalm | ⟨vol, rest', hrest', hflag, hcalm⟩
  · rw [hnotices] at hcalm
    exact ⟨fun _ => hcalm e mem_cons_self, fun e he => hcalm e (mem_cons_of_mem _ he)⟩
  · obtain ⟨rfl, rfl⟩ := cons.inj (hnotices.symm.trans hrest')
    exact ⟨fun h => absurd ⟨rfl, hflag⟩ h, hcalm⟩

/-- The loop takes an event. -/
theorem Calm.takeEvent (hcalm : w.Calm) (hbuf : w.table.events = [])
    (hstep : w.step tune (.takeEvent b) = some w') :
    ∃ rest self, w' = { w with notices := rest, table := { w.table with selfUpdate := self } } ∧
      w'.Calm := by
  simp only [step] at hstep
  split at hstep
  · rename_i e rest hloop hnotices
    obtain ⟨hpass, hrest⟩ := hcalm.cons hnotices
    split_ifs at hstep with hself
    · cases hstep
      exact ⟨rest, false, rfl, .inl hrest⟩
    · rw [Controller.reconcile_of_not_waits (hpass (by simpa using hself)),
        commit_of_nil hbuf, ← hloop] at hstep
      cases hstep
      exact ⟨rest, w.table.selfUpdate, rfl, .inl hrest⟩
  · cases hstep

/-- The row that was written is taken up. -/
theorem Inv.takeAsked {e : Notice} (hready : Ready { w with notices := [] })
    (hfree : w.handlings = []) (hquiet : w.Quiet) (hnotice : w.notices = [e])
    (hbare : e.vol.handle = "") (hkept : ∀ h ∈ w.returned, w.Kept h)
    (hstep : w.step tune (.takeEvent b) = some w') : w'.Inv := by
  obtain ⟨hloop, hretry⟩ := handlings_eq_nil hfree
  have hone : ∀ p, (commit { w with notices := [] } p).2.toList ++
      (commit { w with notices := [] } p).1.retry = (commit { w with notices := [] } p).2.toList :=
    fun p => by rw [(commit_handlings p).2, hretry, append_nil]
  have hbegin : ∀ t : Table, t.timer = false → t.events = [] → t.row = w.table.row →
      t.selfUpdate = w.table.selfUpdate → Inv
        { (commit { w with notices := [] } (t.begin b e.vol)).1 with
          loop := (commit { w with notices := [] } (t.begin b e.vol)).2 } :=
    fun t ht hev hrow hself =>
      hready.begin hquiet.timers ht hev hrow hself hbare (.inr rfl) hkept (hone _)
  simp only [step] at hstep
  split at hstep
  · rename_i e' rest _ hnotice'
    obtain ⟨rfl, rfl⟩ := cons.inj (hnotice.symm.trans hnotice')
    split_ifs at hstep <;> cases hstep
    · exact .delayed ⟨hready.buffer, hready.stored, hready.row, .inl (by simp)⟩ hfree
        (.of_timers hquiet.timers) hkept
    · simp only [Table.reconcile]
      split
      · exact hbegin _ rfl hready.buffer rfl rfl
      · exact hbegin _ rfl hready.buffer rfl rfl
      · exact hbegin _ hquiet.timer hready.buffer rfl rfl
      · rw [commit_of_nil hready.buffer]
        exact .delayed ⟨hready.buffer, hready.stored, hready.row, .inl (by simp)⟩
          (by simp [handlings, hretry]) (.of_timers hquiet.timers) hkept
  · cases hstep

/-- Where a timer is left, the controller has failed and waits for it alone. -/
theorem Inv.delayed_of_timer (hinv : w.Inv)
    (hleft : w.table.timer = true ∨ w.timers ≠ {}) :
    w.Ready ∧ w.handlings = [] ∧ w.OneTimer ∧ ∀ h ∈ w.returned, w.Kept h := by
  have hnot : ¬ w.Quiet := fun hquiet =>
    hleft.elim (fun h => absurd (h.symm.trans hquiet.timer) Bool.noConfusion) fun h =>
      h hquiet.timers
  cases hinv with
  | resting _ _ hquiet => exact absurd hquiet hnot
  | asked _ _ _ hquiet => exact absurd hquiet hnot
  | busy _ _ _ hquiet => exact absurd hquiet hnot
  | delayed hready hfree htimer hkept => exact ⟨hready, hfree, htimer, hkept⟩

/-- The goroutine of the only timer takes the row up again. -/
theorem Inv.retryProvision (hinv : w.Inv) (hstep : w.step tune (.retryProvision b) = some w') :
    w'.Inv := by
  obtain ⟨hreading, hstep⟩ := Option.ite_none_right_eq_some.mp hstep
  obtain ⟨hready, hfree, ⟨hloose, hsum⟩, hkept⟩ := hinv.delayed_of_timer
    (.inr fun h => absurd hreading (by rw [h]; decide))
  obtain ⟨hloop, hretry⟩ := handlings_eq_nil hfree
  have htimer : w.table.timer = false := Bool.toNat_eq_zero.mp (by omega)
  have hready' : Ready { w with timers := {} } :=
    ⟨hready.buffer, hready.stored, hready.row, hready.calm⟩
  dsimp only at hstep
  rw [hloose, show w.timers.fired = 0 by omega, show w.timers.reading - 1 = 0 by omega] at hstep
  split_ifs at hstep <;> cases hstep
  · refine hready'.begin rfl htimer hready.buffer rfl rfl hready.row (.inl rfl) hkept ?_
    rw [(commit_handlings _).1, (commit_handlings _).2, hloop, hretry]
    rfl
  · exact .delayed hready' hfree (.of_timers rfl) hkept

/-- A row is written. -/
theorem Inv.put {created : Bool} (hinv : w.Inv) (hidle : w.Idle)
    (hvol : vol.status.waits = true → vol.handle = "")
    (hsame : w.stored = true → vol.handle = w.table.row.handle) : (w.put created vol).Inv := by
  obtain ⟨hbuf, hheld⟩ := hinv.of_idle hidle
  have hnotices : (w.put created vol).notices = [⟨created, vol⟩] :=
    congrArg (· ++ [_]) hidle.notices
  by_cases hwaits : vol.status.waits = true
  · refine .asked ⟨created, vol⟩ ⟨hbuf, rfl, hvol hwaits, .inl (by simp)⟩ hidle.handlings
      ⟨hidle.quiet.timer, hidle.quiet.timers⟩ hnotices (hvol hwaits) fun h hh => ?_
    refine (hheld h hh).resolve_left fun ⟨hne, hstored, hrow⟩ => hne ?_
    rw [← hrow, ← hsame hstored, hvol hwaits]
  · refine .resting hbuf hidle.handlings ⟨hidle.quiet.timer, hidle.quiet.timers⟩ (.inl ?_)
      fun h hh => ?_
    · rw [hnotices]
      exact forall_mem_singleton.mpr (Bool.eq_false_iff.mpr hwaits)
    · exact (hheld h hh).imp_left fun ⟨hne, hstored, hrow⟩ => ⟨hne, rfl, (hsame hstored).trans hrow⟩

/-- A row is deleted. -/
theorem Inv.delete (hinv : w.Inv) (hidle : w.Idle)
    (hpolicy : w.table.row.handle ≠ "" → w.table.row.reclaimPolicy ≠ .delete) :
    Inv { w with stored := false, deleted := w.table.row :: w.deleted } := by
  obtain ⟨hbuf, hheld⟩ := hinv.of_idle hidle
  refine .resting hbuf hidle.handlings ⟨hidle.quiet.timer, hidle.quiet.timers⟩
    (.inl (by simp [hidle.notices])) fun h hh => ?_
  refine .inr ((hheld h hh).elim (fun ⟨hne, _, hrow⟩ => ?_) fun ⟨hne, v, hv, hkept⟩ => ?_)
  · exact ⟨hne, w.table.row, mem_cons_self, hrow, hpolicy (hrow ▸ hne)⟩
  · exact ⟨hne, v, mem_cons_of_mem _ hv, hkept⟩

/-- The loop takes an event. -/
theorem Inv.takeEvent (hinv : w.Inv) (hstep : w.step tune (.takeEvent b) = some w') : w'.Inv := by
  cases hinv with
  | asked e hready hfree hquiet hnotice hbare hkept =>
    exact .takeAsked hready hfree hquiet hnotice hbare hkept hstep
  | resting hbuf hfree hquiet hcalm hheld =>
    obtain ⟨rest, self, rfl, hcalm⟩ := hcalm.takeEvent hbuf hstep
    exact .resting hbuf hfree ⟨hquiet.timer, hquiet.timers⟩ hcalm hheld
  | delayed hready hfree htimer hkept =>
    obtain ⟨rest, self, rfl, hcalm⟩ := hready.calm.takeEvent hready.buffer hstep
    exact .delayed ⟨hready.buffer, hready.stored, hready.row, hcalm⟩ hfree
      ⟨htimer.loose, htimer.one⟩ hkept
  | busy p hready hone hquiet hbare hkept =>
    obtain ⟨rest, self, rfl, hcalm⟩ := hready.calm.takeEvent hready.buffer hstep
    exact .busy p ⟨hready.buffer, hready.stored, hready.row, hcalm⟩ hone
      ⟨hquiet.timer, hquiet.timers⟩ hbare hkept

/-- The handling of the loop goes on. -/
theorem Inv.advanceLoop (hinv : w.Inv) (hstep : w.step tune (.advanceLoop b) = some w') :
    w'.Inv := by
  obtain ⟨p, hp, hstep⟩ := Option.bind_eq_some_iff.mp hstep
  obtain ⟨⟨w₁, h⟩, hadv, hstep⟩ := Option.bind_eq_some_iff.mp hstep
  cases hstep
  obtain ⟨hone, hnext⟩ := hinv.busy_of_mem (mem_append_left _ (Option.mem_toList.mpr hp))
  have hretry : w.retry = [] := by simpa [handlings, hp] using hone
  refine hnext hadv ?_
  rw [(advance_handlings hadv).2, hretry, append_nil]

/-- The handling of a retry goes on; it is the only one. -/
theorem Inv.advanceRetry {i : ℕ} (hinv : w.Inv)
    (hstep : w.step tune (.advanceRetry i b) = some w') : w'.Inv := by
  obtain ⟨p, hp, hstep⟩ := Option.bind_eq_some_iff.mp hstep
  obtain ⟨⟨w₁, h⟩, hadv, hstep⟩ := Option.bind_eq_some_iff.mp hstep
  cases hstep
  have hmem : p ∈ w.retry := mem_of_getElem? hp
  obtain ⟨hone, hnext⟩ := hinv.busy_of_mem (mem_append_right _ hmem)
  obtain ⟨hloop, hretry⟩ : w.loop = none ∧ w.retry = [p] := by
    obtain ⟨q, rest, hq⟩ := exists_cons_of_ne_nil (ne_nil_of_mem hmem)
    cases hl : w.loop with
    | none => exact ⟨rfl, by simpa [handlings, hl] using hone⟩
    | some l => simp [handlings, hl, hq] at hone
  obtain rfl : i = 0 := by
    have := (List.getElem?_eq_some_iff.mp hp).1
    simpa [hretry] using this
  refine hnext hadv ?_
  simp [advance_handlings hadv, hloop, hretry]

/-- One orderly step. -/
theorem Inv.step {a : Step} (hinv : w.Inv) (hok : w.Orderly a) (hstep : w.step tune a = some w') :
    w'.Inv := by
  cases a with
  | create vol =>
    obtain ⟨hgone, hstep⟩ := Option.ite_none_left_eq_some.mp hstep
    cases hstep
    exact hinv.put hok.1 hok.2 fun h => absurd h hgone
  | update vol =>
    obtain ⟨-, hstep⟩ := Option.ite_none_right_eq_some.mp hstep
    cases hstep
    exact hinv.put hok.1 hok.2.2 fun _ => hok.2.1
  | delete =>
    obtain ⟨-, hstep⟩ := Option.ite_none_right_eq_some.mp hstep
    cases hstep
    exact hinv.delete hok.1 hok.2
  | takeEvent b => exact hinv.takeEvent hstep
  | expire =>
    obtain ⟨htimer, hstep⟩ := Option.ite_none_right_eq_some.mp hstep
    cases hstep
    obtain ⟨hready, hfree, ⟨hloose, hsum⟩, hkept⟩ := hinv.delayed_of_timer (.inl htimer)
    rw [htimer] at hsum
    refine .delayed ⟨hready.buffer, hready.stored, hready.row, hready.calm⟩ hfree ⟨hloose, ?_⟩ hkept
    dsimp only [Bool.toNat_false, Bool.toNat_true] at hsum ⊢
    omega
  | expireLoose =>
    obtain ⟨hpos, -⟩ := Option.ite_none_right_eq_some.mp hstep
    obtain ⟨-, -, htimer, -⟩ := hinv.delayed_of_timer
      (.inr fun h => absurd hpos (by rw [h]; decide))
    exact absurd htimer.loose hpos.ne'
  | removeTimer =>
    obtain ⟨hpos, hstep⟩ := Option.ite_none_right_eq_some.mp hstep
    cases hstep
    obtain ⟨hready, hfree, ⟨hloose, hsum⟩, hkept⟩ := hinv.delayed_of_timer
      (.inr fun h => absurd hpos (by rw [h]; decide))
    refine .delayed ⟨hready.buffer, hready.stored, hready.row, hready.calm⟩ hfree ⟨?_, ?_⟩ hkept
    · dsimp only
      omega
    · dsimp only [Bool.toNat_false]
      omega
  | retryProvision b => exact hinv.retryProvision hstep
  | advanceLoop b => exact hinv.advanceLoop hstep
  | advanceRetry i b => exact hinv.advanceRetry hstep

end Site

/-- Where others write and delete the row only between the handlings, at most one driver call is
under way, and whenever none is, every provisioned disk is that of the stored row or of a deleted
one that keeps its disk. -/
theorem disks_accounted_for {tune : Tuning} {acts : List Site.Step} {w : Site} {row : Volume}
    (hrun : exec (Site.step tune) { stored := false, table := { row := row } } acts = some w)
    (hok : Along (Site.step tune) Site.Orderly { stored := false, table := { row := row } } acts) :
    w.handlings.length ≤ 1 ∧ (w.handlings = [] → ∀ h ∈ w.returned,
      w.stored = true ∧ w.table.row.handle = h ∨
        ∃ v ∈ w.deleted, v.handle = h ∧ v.reclaimPolicy ≠ .delete) := by
  have hstart : Site.Inv { stored := false, table := { row := row } } :=
    .resting rfl rfl ⟨rfl, rfl⟩ (.inl (by simp)) (by simp [Site.Held])
  have hinv : w.Inv :=
    exec_invariant_along (fun _ _ _ h hok hstep => Site.Inv.step h hok hstep) hstart hok hrun
  have hkept : (∀ h ∈ w.returned, w.Kept h) → ∀ h ∈ w.returned,
      w.stored = true ∧ w.table.row.handle = h ∨
        ∃ v ∈ w.deleted, v.handle = h ∧ v.reclaimPolicy ≠ .delete :=
    fun hkept h hh => .inr (hkept h hh).2
  cases hinv with
  | resting _ hfree _ _ hheld =>
    exact ⟨by simp [hfree], fun _ h hh => (hheld h hh).imp And.right And.right⟩
  | asked _ _ hfree _ _ _ hk => exact ⟨by simp [hfree], fun _ => hkept hk⟩
  | delayed _ hfree _ hk => exact ⟨by simp [hfree], fun _ => hkept hk⟩
  | busy _ _ hone => exact ⟨by simp [hone], fun h => by simp [hone] at h⟩

/-- The driver makes the disk. -/
def workingDriver : Backend := { brokenDriver with call := fun _ => .ok "disk-1" }

/-- A row is created, gets its disk and is deleted. -/
def provisionAndDelete (vol : Volume) : List Site.Step :=
  [.create vol, .takeEvent workingDriver, .advanceLoop workingDriver, .advanceLoop workingDriver,
    .takeEvent workingDriver, .takeEvent workingDriver, .delete]

/-- A volume that is deleted. -/
theorem disks_accounted_for_deleted :
    ∃ w, exec (Site.step twice) { stored := false, table := { row := pendingRow } }
        (provisionAndDelete pendingRow) = some w ∧ w.returned = ["disk-1"] ∧
      (w.stored = true ∧ w.table.row.handle = "disk-1" ∨
        ∃ v ∈ w.deleted, v.handle = "disk-1" ∧ v.reclaimPolicy ≠ .delete) := by
  obtain ⟨w, hrun, hfree, hret⟩ : ∃ w, exec (Site.step twice)
      { stored := false, table := { row := pendingRow } } (provisionAndDelete pendingRow) = some w ∧
        w.handlings = [] ∧ w.returned = ["disk-1"] := ⟨_, rfl, rfl, rfl⟩
  have hok : Along (Site.step twice) Site.Orderly
      { stored := false, table := { row := pendingRow } } (provisionAndDelete pendingRow) := by
    have hown (site : Site) : Along (Site.step twice) Site.Orderly site
        [.takeEvent workingDriver, .advanceLoop workingDriver, .advanceLoop workingDriver,
          .takeEvent workingDriver, .takeEvent workingDriver] :=
      Along.of_forall (by simp [Site.Orderly]) site
    refine ⟨⟨⟨rfl, ⟨rfl, rfl⟩, rfl⟩, fun _ => rfl⟩, ?_⟩
    rintro _ ⟨⟩
    refine (hown _).append ?_
    rintro _ ⟨⟩
    exact ⟨⟨⟨rfl, ⟨rfl, rfl⟩, rfl⟩, fun _ => by decide⟩, fun _ _ => trivial⟩
  exact ⟨w, hrun, hret, (disks_accounted_for hrun hok).2 hfree _ (by simp [hret])⟩

/-- The row is deleted while the driver makes its disk. -/
theorem disk_orphaned :
    ∃ w, exec (Site.step twice) { stored := false, table := { row := pendingRow } }
        [.create pendingRow, .takeEvent workingDriver, .delete, .advanceLoop workingDriver,
          .advanceLoop workingDriver] = some w ∧
      w.handlings = [] ∧ w.returned = ["disk-1"] ∧ w.stored = false ∧
        ∀ v ∈ w.deleted, v.handle = "" :=
  ⟨_, rfl, rfl, rfl, rfl, by decide⟩

end Rune.Volumes
