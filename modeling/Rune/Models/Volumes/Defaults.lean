import Rune.Core.Run

/-!
# The default storage class

The controller watches the storage classes. When a class turns up with the flag `Default` it lists
the classes and takes the flag away from the others, one at a time; the event of such a write is
told from the others by a mark that is kept under the name of the class. The passes of the start
leave marks too, and since the watch is opened after them, their events never come.
-/

namespace Rune.Volumes.Defaults

open Rune.Core List

/-- An event of a class, with the flag that was written. -/
structure WatchEvent where
  created : Bool
  name : String
  isDefault : Bool

/-- The classes, those that have the flag, the events not yet taken, the names under which the
controller expects an event of its own, the classes it is about to demote, and the last write of
somebody else that changed a flag. -/
structure World where
  classes : List String := []
  defaults : List String := []
  events : List WatchEvent := []
  internalSCUpdates : List String := []
  demoting : List String := []
  asked : Option (String × Bool) := none

/-- What can happen once the watch is open. -/
inductive Step where
  /-- Somebody creates or updates a class. -/
  | write (name : String) (isDefault : Bool)
  /-- The watch loop takes an event. The listing that it may need for it succeeds or fails. -/
  | take (listed : Bool)
  /-- The watch loop demotes the next class of its listing. An update that fails ends the pass. -/
  | demote (ok : Bool)

namespace World

variable (w : World)

/-- The store commits a write. -/
def commit (created : Bool) (name : String) (isDefault : Bool) : World :=
  { w with
    classes := if created then name :: w.classes else w.classes
    defaults :=
      if isDefault then if name ∈ w.defaults then w.defaults else name :: w.defaults
      else w.defaults.filter (· ≠ name)
    events := w.events ++ [⟨created, name, isDefault⟩] }

/-- The classes that lose the flag in favour of the winner. -/
def enforceDefaultStorageClassUniqueness (winner : String) : List String :=
  if w.defaults.length ≤ 1 then [] else w.defaults.filter (· ≠ winner)

/-- Expect an event under the name. -/
def markSelfStorageClassUpdate (name : String) : World :=
  { w with internalSCUpdates := name :: w.internalSCUpdates }

/-- The event is one of a write of the controller. -/
def isSelfStorageClassUpdate (e : WatchEvent) : Bool :=
  !e.created && decide (e.name ∈ w.internalSCUpdates)

/-- One step of the store and the watch loop. -/
def step : Step → Option World
  | .write name isDefault => some { w.commit (name ∉ w.classes) name isDefault with
      asked := if decide (name ∈ w.defaults) = isDefault then w.asked
        else some (name, isDefault) }
  | .take listed =>
    match w.demoting, w.events with
    | [], e :: rest =>
      if w.isSelfStorageClassUpdate e then
        some { w with events := rest, internalSCUpdates := w.internalSCUpdates.filter (· ≠ e.name) }
      else if e.isDefault ∧ listed then
        some { w with
          events := rest, demoting := w.enforceDefaultStorageClassUniqueness e.name }
      else some { w with events := rest }
    | _, _ => none
  | .demote ok =>
    match w.demoting with
    | [] => none
    | name :: rest =>
      if ok then some { (w.markSelfStorageClassUpdate name).commit false name false with
        demoting := rest }
      else some { w.markSelfStorageClassUpdate name with demoting := [] }

end World

/-- The configured default, when each class was written last, and which of the listings and updates
of the start succeed. -/
structure Boot where
  defaultStorageClass : Option String := none
  updatedAt : String → ℤ := fun _ => 0
  listed : Bool := true
  update : String → Bool := fun _ => true

namespace Boot

variable (b : Boot)

/-- Take the flag from the classes one by one, up to an update that fails. -/
def demoteAll : List String → World → World
  | [], w => w
  | name :: rest, w =>
    let marked := w.markSelfStorageClassUpdate name
    if b.update name then demoteAll rest { marked with defaults := w.defaults.filter (· ≠ name) }
    else marked

/-- Give the flag to the configured class, or take it from all where none is to have it. -/
def applyDefaultStorageClassConfig (w : World) : World :=
  match b.defaultStorageClass with
  | none => w
  | some target =>
    if target = "" then if b.listed then b.demoteAll w.defaults w else w
    else if target ∉ w.classes ∨ target ∈ w.defaults then w
    else
      let marked := w.markSelfStorageClassUpdate target
      if b.update target then { marked with defaults := target :: w.defaults } else marked

/-- Of the default classes the one that was written last, by name among equals. -/
def latest (defaults : List String) : String :=
  (defaults.foldl (fun w sc => match w with
    | none => some sc
    | some w => if b.updatedAt w < b.updatedAt sc ∨ b.updatedAt sc = b.updatedAt w ∧ sc < w
      then some sc else some w) none).getD ""

/-- What `Start` does before it opens the watch. -/
def start (classes defaults : List String) : World :=
  let w := b.applyDefaultStorageClassConfig { classes, defaults }
  let keep := b.defaultStorageClass.getD ""
  let winner := if keep = "" then b.latest w.defaults else keep
  if b.listed then b.demoteAll (w.enforceDefaultStorageClassUniqueness winner) w else w

/-- Nothing but flags and marks is left by the start. -/
structure Fresh (w : World) : Prop where
  events : w.events = []
  demoting : w.demoting = []
  asked : w.asked = none

theorem fresh_demoteAll {names : List String} {w : World} (h : Fresh w) :
    Fresh (b.demoteAll names w) := by
  induction names generalizing w with
  | nil => exact h
  | cons name rest ih =>
    unfold demoteAll
    dsimp only
    split
    · exact ih ⟨h.events, h.demoting, h.asked⟩
    · exact ⟨h.events, h.demoting, h.asked⟩

/-- Where a run starts. -/
theorem fresh_start (classes defaults : List String) : Fresh (b.start classes defaults) := by
  have hconfig : Fresh (b.applyDefaultStorageClassConfig { classes, defaults }) := by
    have hfirst : Fresh { classes, defaults } := ⟨rfl, rfl, rfl⟩
    unfold applyDefaultStorageClassConfig
    repeat' split
    all_goals first
      | exact hfirst
      | exact b.fresh_demoteAll hfirst
      | exact ⟨rfl, rfl, rfl⟩
  unfold start
  dsimp only
  split
  · exact b.fresh_demoteAll hconfig
  · exact hconfig

end Boot

namespace World

variable (w : World)

/-- The watch loop is idle and every event has been handled. -/
structure Quiet : Prop where
  events : w.events = []
  demoting : w.demoting = []

/-- A write with the flag is made only when the controller has come to an end with the others and
has no mark left under the name of an existing class; and no call of the watch loop fails. -/
def Spaced : Step → Prop
  | .write name true => w.Quiet ∧ (name ∈ w.classes → name ∉ w.internalSCUpdates)
  | .write _ false => True
  | .take listed => listed = true
  | .demote ok => ok = true

/-- The class that was asked for last has the flag. -/
def Granted (k : Option String) : Prop :=
  ∀ n, w.asked = some (n, true) → k = some n ∧ n ∈ w.defaults

/-- The event of the class that was asked for is the first to be taken, or what still has the flag
besides `k` is about to lose it. -/
inductive Inv : Prop
  | waiting (e : WatchEvent) (rest : List WatchEvent) (hev : w.events = e :: rest)
      (hset : e.isDefault = true) (hrest : ∀ e ∈ rest, e.isDefault = false)
      (hdem : w.demoting = []) (hself : w.isSelfStorageClassUpdate e = false)
      (hasked : w.Granted (some e.name))
  | working (k : Option String) (hev : ∀ e ∈ w.events, e.isDefault = false)
      (hdem : ∀ n ∈ w.demoting, k ≠ some n)
      (hdef : ∀ n ∈ w.defaults, k = some n ∨ n ∈ w.demoting) (hasked : w.Granted k)

variable {w} {w' : World} {n : String}

/-- A class that loses the flag is not the one that was asked for last. -/
theorem Granted.clear {k : Option String} (h : w.Granted k)
    (hstep : w.step (.write n false) = some w') : w'.Granted k := by
  cases hstep
  intro m hm
  by_cases hn : n ∈ w.defaults
  · simp [hn] at hm
  · obtain ⟨hk, hm'⟩ := h m (by simpa [hn] using hm)
    exact ⟨hk, mem_filter.mpr ⟨hm', decide_eq_true fun he => hn (he ▸ hm')⟩⟩

/-- A class that is no default. -/
theorem Inv.clear (h : w.Inv) (hstep : w.step (.write n false) = some w') : w'.Inv := by
  cases h with
  | waiting e rest hev hset hrest hdem hself hasked =>
    have hg := hasked.clear hstep
    cases hstep
    refine .waiting e (rest ++ [⟨_, n, false⟩]) (congrArg (· ++ _) hev) hset ?_ hdem hself hg
    exact forall_mem_append.mpr ⟨hrest, forall_mem_singleton.mpr rfl⟩
  | working k hev hdem hdef hasked =>
    have hg := hasked.clear hstep
    cases hstep
    refine .working k ?_ hdem ?_ hg
    · exact forall_mem_append.mpr ⟨hev, forall_mem_singleton.mpr rfl⟩
    · intro m hm
      exact hdef m (mem_filter.mp hm).1

/-- A new default. -/
theorem Inv.set (h : w.Inv) (hspaced : w.Spaced (.write n true))
    (hstep : w.step (.write n true) = some w') : w'.Inv := by
  obtain ⟨hquiet, hmark⟩ := hspaced
  cases h with
  | waiting e rest hev => exact absurd (hquiet.events.symm.trans hev) (cons_ne_nil _ _).symm
  | working k _ _ hdef hasked =>
    cases hstep
    refine .waiting ⟨_, n, true⟩ [] (congrArg (· ++ _) hquiet.events) rfl (by simp)
      hquiet.demoting (by simpa [isSelfStorageClassUpdate, commit] using hmark) fun m hm => ?_
    by_cases hn : n ∈ w.defaults
    · obtain ⟨hk, hm'⟩ := hasked m (by simpa [hn] using hm)
      have hkn : k = some n := (hdef n hn).resolve_right (by simp [hquiet.demoting])
      exact ⟨hkn.symm.trans hk, by simpa [commit, hn] using hm'⟩
    · obtain rfl : n = m := by simpa [hn] using hm
      exact ⟨rfl, by simp [commit, hn]⟩

/-- An old default. -/
theorem Inv.demote (h : w.Inv) (hstep : w.step (.demote true) = some w') : w'.Inv := by
  simp only [step] at hstep
  split at hstep
  · cases hstep
  · rename_i n rest hdem'
    cases hstep
    cases h with
    | waiting _ _ _ _ _ hdem => exact absurd (hdem.symm.trans hdem') (cons_ne_nil _ _).symm
    | working k hev hdem hdef hasked =>
      rw [hdem'] at hdem hdef
      refine .working k ?_ (fun m hm => hdem m (mem_cons_of_mem _ hm)) ?_ ?_
      · exact forall_mem_append.mpr ⟨hev, forall_mem_singleton.mpr rfl⟩
      · intro m hm
        obtain ⟨hm, hne⟩ := mem_filter.mp hm
        exact (hdef m hm).imp_right fun h => (mem_cons.mp h).resolve_left (by simpa using hne)
      · intro m hm
        obtain ⟨hk, hm'⟩ := hasked m hm
        refine ⟨hk, mem_filter.mpr ⟨hm', ?_⟩⟩
        exact decide_eq_true fun he => hdem n mem_cons_self (he ▸ hk)

/-- Where the flag is left to one class or to none, nothing else has to be done. -/
theorem Granted.alone {k : Option String} (h : w.Granted k) (hlen : w.defaults.length ≤ 1) :
    w.Granted w.defaults.head? ∧ ∀ n ∈ w.defaults, w.defaults.head? = some n := by
  have hhead : ∀ n ∈ w.defaults, w.defaults.head? = some n := by
    intro n hn
    obtain ⟨a, ha⟩ := length_eq_one_iff.mp
      (hlen.antisymm (length_pos_of_mem hn))
    rw [ha] at hn ⊢
    rw [mem_singleton.mp hn, head?_cons]
  exact ⟨fun n hn => ⟨hhead n (h n hn).2, (h n hn).2⟩, hhead⟩

/-- The next event. -/
theorem Inv.take (h : w.Inv) (hstep : w.step (.take true) = some w') : w'.Inv := by
  simp only [step] at hstep
  split at hstep
  · rename_i e rest hdem' hev'
    cases h with
    | waiting e' rest' hev hset hrest hdem hself hasked =>
      obtain ⟨rfl, rfl⟩ := cons.inj (hev'.symm.trans hev)
      rw [hself, if_neg Bool.false_ne_true, if_pos ⟨hset, trivial⟩] at hstep
      cases hstep
      simp only [enforceDefaultStorageClassUniqueness]
      split_ifs with hlen
      · obtain ⟨hg, hhead⟩ := hasked.alone hlen
        exact .working _ hrest (by simp) (fun n hn => .inl (hhead n hn)) hg
      · refine .working (some e.name) hrest ?_ ?_ hasked
        · intro n hn he
          simp [← Option.some.inj he] at hn
        · intro n hn
          by_cases he : n = e.name
          · exact .inl (he ▸ rfl)
          · exact .inr (mem_filter.mpr ⟨hn, decide_eq_true he⟩)
    | working k hev hdem hdef hasked =>
      rw [hev'] at hev
      obtain ⟨hclear, hrest⟩ := forall_mem_cons.mp hev
      rw [hclear] at hstep
      split_ifs at hstep with hskip hset
      · cases hstep
        exact .working k hrest hdem hdef hasked
      · exact hset.1.elim
      · cases hstep
        exact .working k hrest hdem hdef hasked
  · cases hstep

/-- One spaced step. -/
theorem Inv.step {a : Step} (h : w.Inv) (hspaced : w.Spaced a) (hstep : w.step a = some w') :
    w'.Inv := by
  cases a with
  | write n isDefault =>
    cases isDefault with
    | false => exact h.clear hstep
    | true => exact h.set hspaced hstep
  | take listed =>
    cases hspaced
    exact h.take hstep
  | demote ok =>
    cases hspaced
    exact h.demote hstep

end World

/-- The configured default is `slow`, which the start gives the flag and takes it from `old`. -/
def slowConfigured : World := Boot.start { defaultStorageClass := some "slow" }
  ["fast", "slow", "old"] ["old"]

end Rune.Volumes.Defaults
