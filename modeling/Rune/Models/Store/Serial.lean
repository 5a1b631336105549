import Rune.Models.Store.Machine

/-!
# Commits are serial

A committed transaction does at its place in the order of the commits what it did on its
snapshot. For every call the store keeps one of three things: it has neither committed
nor been heard of, or it has committed once and is telling the subscriptions, or it has
committed once and told them all.
-/

namespace Rune.Store

open Rune.Core List

variable {R : Type} {enc : Encoding R}

section Frame

variable {db db' : String → Option Bytes} {reads : List String} {changes : List (Change R)}

theorem TxState.reads_noted_subset (s : TxState R) (key : String) :
    s.reads ⊆ (s.noted key).reads := by
  unfold TxState.noted
  split
  · exact List.Subset.refl _
  · exact subset_append_left _ _

variable {s : TxState R}

/-- What a transaction finds under a key is the same in two stores that agree on its reads. -/
theorem TxState.get_congr {key : String} (h : ∀ k ∈ (s.noted key).reads, db k = db' k) :
    s.get db key = s.get db' key := by
  unfold TxState.noted at h
  split at h
  · rename_i hwritten
    refine replay_of_written ?_
    simpa [writes, Function.comp_def] using hwritten
  · rename_i hunwritten
    have hne : ∀ w ∈ writes s.changes, w.1 ≠ key := by
      intro w hw hkey
      obtain ⟨ch, hch, rfl⟩ := mem_map.mp hw
      exact hunwritten (mem_map.mpr ⟨ch, hch, hkey⟩)
    rw [TxState.get, TxState.get, replay_of_unwritten hne, replay_of_unwritten hne]
    exact h key (by simp)

/-- An operation of a transaction that keeps the earlier reads, and does the same in two
stores that agree on the reads after it. -/
def TxState.Framed (s : TxState R) (f : (String → Option Bytes) → Option Failure × TxState R) :
    Prop :=
  ∀ db db', s.reads ⊆ (f db).2.reads ∧ ((∀ k ∈ (f db).2.reads, db k = db' k) → f db' = f db)

theorem TxState.frame_of_get (key : String)
    {f : (String → Option Bytes) → Option Failure × TxState R}
    (hreads : ∀ db, (f db).2.reads = (s.noted key).reads)
    (hget : ∀ db db', s.get db key = s.get db' key → f db = f db') : s.Framed f := by
  intro db db'
  rw [hreads]
  exact ⟨s.reads_noted_subset key, fun h => (hget db db' (TxState.get_congr h)).symm⟩

theorem TxState.create_frame (s : TxState R) (coord : Coord) (resource : R) :
    s.Framed fun db => s.create enc db coord resource := by
  cases hm : enc.marshal resource with
  | none =>
    simp only [TxState.create, hm]
    exact fun _ _ => ⟨List.Subset.refl _, fun _ => rfl⟩
  | some data =>
    refine TxState.frame_of_get (makeKey coord) (fun db => ?_) fun db db' h => ?_
    · simp only [TxState.create, hm]
      split <;> rfl
    · simp only [TxState.create, hm, h]

theorem TxState.update_frame (s : TxState R) (coord : Coord) (resource : R) :
    s.Framed fun db => s.update enc db coord resource := by
  cases hm : enc.marshal resource with
  | none =>
    simp only [TxState.update, hm]
    exact fun _ _ => ⟨List.Subset.refl _, fun _ => rfl⟩
  | some data =>
    refine TxState.frame_of_get (makeKey coord) (fun db => ?_) fun db db' h => ?_
    · simp only [TxState.update, hm]
      split <;> rfl
    · simp only [TxState.update, hm, h]

theorem TxState.delete_frame (s : TxState R) (coord : Coord) :
    s.Framed fun db => s.delete enc db coord := by
  refine TxState.frame_of_get (makeKey coord) (fun db => ?_) fun db db' h => ?_
  · simp only [TxState.delete]
    split <;> rfl
  · simp only [TxState.delete, h]

/-- A transaction never forgets a read. -/
theorem Tx.reads_subset {tx : Tx R} (h : tx.attempt enc db s = .commits reads changes) :
    s.reads ⊆ reads := by
  induction tx generalizing s with
  | ret failed =>
    simp only [Tx.attempt] at h
    split at h
    · cases h
    · obtain ⟨rfl, rfl⟩ := Attempt.commits.inj h
      exact List.Subset.refl _
  | get coord next ih => exact List.Subset.trans (s.reads_noted_subset _) (ih _ h)
  | create coord resource next ih =>
    exact List.Subset.trans (s.create_frame coord resource db db).1 (ih _ h)
  | update coord resource next ih =>
    exact List.Subset.trans (s.update_frame coord resource db db).1 (ih _ h)
  | delete coord next ih =>
    exact List.Subset.trans (s.delete_frame coord db db).1 (ih _ h)

/-- An attempt depends on what it read. -/
theorem Tx.attempt_congr {tx : Tx R} (h : tx.attempt enc db s = .commits reads changes)
    (hagree : ∀ k ∈ reads, db k = db' k) : tx.attempt enc db' s = .commits reads changes := by
  induction tx generalizing s with
  | ret failed => exact h
  | get coord next ih =>
    simp only [Tx.attempt] at h
    have hsame : s.get db (makeKey coord) = s.get db' (makeKey coord) :=
      TxState.get_congr fun k hk => hagree k (Tx.reads_subset h hk)
    simp only [Tx.attempt, ← hsame]
    exact ih _ h
  | create coord resource next ih =>
    simp only [Tx.attempt] at h
    have hsame := (s.create_frame coord resource db db').2 fun k hk =>
      hagree k (Tx.reads_subset h hk)
    simp only [Tx.attempt, hsame]
    exact ih _ h
  | update coord resource next ih =>
    simp only [Tx.attempt] at h
    have hsame := (s.update_frame coord resource db db').2 fun k hk =>
      hagree k (Tx.reads_subset h hk)
    simp only [Tx.attempt, hsame]
    exact ih _ h
  | delete coord next ih =>
    simp only [Tx.attempt] at h
    have hsame := (s.delete_frame coord db db').2 fun k hk => hagree k (Tx.reads_subset h hk)
    simp only [Tx.attempt, hsame]
    exact ih _ h

/-- The keys that a call other than a transaction reads and changes. -/
def Call.coord? : Call R → Option Coord
  | .create coord _ => some coord
  | .update coord _ _ => some coord
  | .updateFunc coord _ _ _ _ => some coord
  | .delete coord => some coord
  | .transaction _ => none

/-- A call other than a transaction commits one change of its key, which it has read. -/
theorem Call.attempt_single {call : Call R} {target t : Option R}
    (hcall : call.isTransaction = false)
    (h : call.attempt enc db target = (.commits reads changes, t)) :
    ∃ ch, changes = [ch] ∧ reads = [ch.key] ∧ call.coord? = some ch.event.coord := by
  cases call with
  | create | update | updateFunc | delete =>
    simp only [Call.attempt, Call.createAttempt, Call.updateAttempt, Call.updateFuncAttempt,
      Call.deleteAttempt] at h
    repeat' split at h
    all_goals cases h
    exact ⟨_, rfl, rfl, rfl⟩
  | transaction fn => cases hcall

/-- A call that commits does the same in every store that agrees on its reads. -/
theorem Call.attempt_congr {call : Call R} {target t : Option R}
    (h : call.attempt enc db target = (.commits reads changes, t))
    (hagree : ∀ k ∈ reads, db k = db' k) :
    call.attempt enc db' target = (.commits reads changes, t) := by
  by_cases hcall : call.isTransaction
  · cases call with
    | transaction fn =>
      obtain ⟨hfn, rfl⟩ := Prod.mk.inj h
      exact Prod.ext (Tx.attempt_congr hfn hagree) rfl
    | _ => cases hcall
  · obtain ⟨ch, rfl, rfl, hcoord⟩ := Call.attempt_single (by simpa using hcall) h
    have hkey : db (makeKey ch.event.coord) = db' (makeKey ch.event.coord) :=
      hagree _ mem_cons_self
    rw [← h]
    cases call with
    | transaction fn => cases hcoord
    | _ =>
      cases hcoord
      simp only [Call.attempt, Call.createAttempt, Call.updateAttempt, Call.updateFuncAttempt,
        Call.deleteAttempt, hkey]

end Frame

section Lists

variable {α β : Type*} {l : List α} {f : α → β} {j : ℕ}

theorem map_modify_of_same {g : α → α} (h : ∀ x, f (g x) = f x) :
    (l.modify j g).map f = l.map f := by
  refine ext_getElem? fun m => ?_
  simp only [getElem?_map, getElem?_modify, Option.map_eq_map, Option.map_map]
  refine congrArg (Option.map · _) (funext fun x => ?_)
  split
  · exact h x
  · rfl

theorem map_set_of_same {x y : α} (hx : l[j]? = some x) (h : f y = f x) :
    (l.set j y).map f = l.map f := by
  obtain ⟨hj, rfl⟩ := List.getElem?_eq_some_iff.mp hx
  have hlen : j < (l.map f).length := by simpa using hj
  rw [map_set, h, ← getElem_map f (h := hlen), set_getElem_self]

end Lists

/-- The events of a call at a subscription. -/
def WatchSub.eventsOf (s : WatchSub R) (i : ℕ) : List (Tagged R) :=
  s.enqueued.filter fun ev => ev.1 = i

namespace World

/-- The events of a call, subscription by subscription. -/
def heard (w : World R) (i : ℕ) : List (List (Tagged R)) := w.subs.map (·.eventsOf i)

/-- The call has changed nothing and emitted nothing. -/
structure Silent (w : World R) (i : ℕ) : Prop where
  commits : ∀ c ∈ w.commits, c.call ≠ i
  events : ∀ evs ∈ w.heard i, evs = []

/-- The call has committed once, at the given place, what it does to the store as it
was just before that place. -/
structure Landed (enc : Encoding R) (w : World R) (i : ℕ) (call : Call R) (n : ℕ)
    (changes : List (Change R)) : Prop where
  here : w.commits[n]? = some ⟨i, changes⟩
  once : ∀ m c, w.commits[m]? = some c → c.call = i → m = n
  serial : changes ≠ [] → ∃ reads target target',
    call.attempt enc (view w.init (w.commits.take n)) target = (.commits reads changes, target')

/-- The call has told its event, and only this, to every subscription as often as it is
dispatched there, except for the ones still to do. -/
def Telling (w : World R) (i : ℕ) (event : WatchEvent R) (todo : List ℕ) : Prop :=
  ∀ j evs, (w.heard i)[j]? = some evs → ∃ k, evs = List.replicate k (i, event) ∧
    k + todo.count j = (dispatch w.keys event.coord).count j

/-- A transaction is not told of; any other call has told its one event. -/
def Told (w : World R) (i : ℕ) (call : Call R) (changes : List (Change R)) : Prop :=
  if call.isTransaction then ∀ evs ∈ w.heard i, evs = []
  else ∃ ch, changes = [ch] ∧ w.Telling i ch.event []

/-- What a call has committed and told, by its phase. -/
def CallSound (enc : Encoding R) (w : World R) (i : ℕ) (r : Running R) : Prop :=
  match r.phase with
  | .ready | .inTxn _ | .done .skipped | .done (.failed _) => w.Silent i
  | .emitting event todo => r.call.isTransaction = false ∧
      ∃ n ch, w.Landed enc i r.call n [ch] ∧ ch.event = event ∧ w.Telling i event todo
  | .done .succeeded => ∃ n changes, w.Landed enc i r.call n changes ∧ w.Told i r.call changes

/-- The part of the store that says what has become of a call is the same. -/
structure SameFor (i : ℕ) (w v : World R) : Prop where
  init : v.init = w.init
  keys : v.keys = w.keys
  heard : v.heard i = w.heard i
  commits : ∃ more, v.commits = w.commits ++ more ∧ ∀ c ∈ more, c.call ≠ i

/-- What every run keeps. -/
structure Sound (enc : Encoding R) (w : World R) : Prop where
  calls : ∀ i r, w.running[i]? = some r → w.CallSound enc i r
  unborn : ∀ i, w.running.length ≤ i → w.Silent i

variable {w v : World R} {i n : ℕ} {r : Running R} {call : Call R} {changes : List (Change R)}

/-- A step that commits nothing leaves the part as it is if it leaves the events. -/
theorem SameFor.of_heard (hinit : v.init = w.init) (hcommits : v.commits = w.commits)
    (hkeys : v.keys = w.keys) (hheard : v.heard i = w.heard i) : SameFor i w v :=
  ⟨hinit, hkeys, hheard, [], by simp [hcommits], nofun⟩

theorem SameFor.of_set (w : World R) (i k : ℕ) (r : Running R) : SameFor k w (w.set i r) :=
  .of_heard rfl rfl rfl rfl

theorem SameFor.silent (hsame : SameFor i w v) (h : w.Silent i) : v.Silent i := by
  obtain ⟨more, hmore, hother⟩ := hsame.commits
  refine ⟨fun c hc => ?_, hsame.heard ▸ h.events⟩
  rcases mem_append.mp (hmore ▸ hc) with hc | hc
  · exact h.commits c hc
  · exact hother c hc

theorem SameFor.landed (hsame : SameFor i w v) (h : w.Landed enc i call n changes) :
    v.Landed enc i call n changes := by
  obtain ⟨more, hmore, hother⟩ := hsame.commits
  have hn : n < w.commits.length := (List.getElem?_eq_some_iff.mp h.here).1
  refine ⟨by rw [hmore, getElem?_append_left hn, h.here], fun m c hm hc => ?_, ?_⟩
  · rw [hmore] at hm
    rcases Nat.lt_or_ge m w.commits.length with hlt | hge
    · rw [getElem?_append_left hlt] at hm
      exact h.once m c hm hc
    · rw [getElem?_append_right hge] at hm
      exact absurd hc (hother c (mem_of_getElem? hm))
  · rw [hmore, hsame.init, take_append_of_le_length hn.le]
    exact h.serial

theorem SameFor.telling {event : WatchEvent R} {todo : List ℕ} (hsame : SameFor i w v)
    (h : w.Telling i event todo) : v.Telling i event todo := by
  unfold Telling
  rw [hsame.heard, hsame.keys]
  exact h

theorem SameFor.told (hsame : SameFor i w v) (h : w.Told i call changes) :
    v.Told i call changes := by
  unfold Told at h ⊢
  split
  · rename_i htx
    rw [if_pos htx] at h
    rw [hsame.heard]
    exact h
  · rename_i htx
    rw [if_neg htx] at h
    obtain ⟨ch, hch, htold⟩ := h
    exact ⟨ch, hch, hsame.telling htold⟩

/-- What has become of a call stays as it is while others move. -/
theorem SameFor.callSound (hsame : SameFor i w v) (h : w.CallSound enc i r) :
    v.CallSound enc i r := by
  unfold CallSound at h ⊢
  split at h
  case h_5 =>
    obtain ⟨htx, n, ch, hlanded, hevent, htelling⟩ := h
    exact ⟨htx, n, ch, hsame.landed hlanded, hevent, hsame.telling htelling⟩
  case h_6 =>
    obtain ⟨n, changes, hlanded, htold⟩ := h
    exact ⟨n, changes, hsame.landed hlanded, hsame.told htold⟩
  all_goals exact hsame.silent h

/-- A move of one call keeps the store sound if the call itself stays sound and every
other one finds its part unchanged. -/
theorem Sound.set {r' : Running R} (hs : w.Sound enc) (hr : w.running[i]? = some r)
    (hrunning : v.running = w.running.set i r') (hself : v.CallSound enc i r')
    (hothers : ∀ k, k ≠ i → SameFor k w v) : v.Sound enc := by
  have hi : i < w.running.length := (List.getElem?_eq_some_iff.mp hr).1
  refine ⟨fun k rk hk => ?_, fun k hk => ?_⟩
  · rw [hrunning] at hk
    by_cases hne : k = i
    · subst hne
      rw [getElem?_set_self hi] at hk
      cases hk
      exact hself
    · rw [getElem?_set_ne (Ne.symm hne)] at hk
      exact (hothers k hne).callSound (hs.calls k rk hk)
  · rw [hrunning, length_set] at hk
    have hne : k ≠ i := by omega
    exact (hothers k hne).silent (hs.unborn k hk)

theorem heard_modify_of_ne {j k : ℕ} (event : WatchEvent R) (hne : k ≠ i) :
    (w.subs.modify j (WatchSub.enqueue · (i, event))).map (·.eventsOf k) =
      w.subs.map (·.eventsOf k) :=
  map_modify_of_same fun s => by
    simp [WatchSub.eventsOf, WatchSub.enqueue, WatchSub.enqueued, Ne.symm hne]

/-- An event that is enqueued is one less to do. -/
theorem Telling.enqueue {event : WatchEvent R} {j : ℕ} {todo : List ℕ}
    (h : w.Telling i event (j :: todo))
    (hv : v.subs = w.subs.modify j (WatchSub.enqueue · (i, event))) :
    v.Telling i event todo := by
  intro m evs hm
  have hkeys : v.keys = w.keys := by
    rw [World.keys, hv]
    exact map_modify_of_same fun _ => rfl
  rw [heard, hv, getElem?_map, getElem?_modify] at hm
  rw [hkeys]
  obtain ⟨s, hs, rfl⟩ := Option.map_eq_some_iff.mp hm
  obtain ⟨s₀, hs₀, rfl⟩ := Option.map_eq_some_iff.mp hs
  obtain ⟨k, hk, hcount⟩ := h m (s₀.eventsOf i) (by simp [heard, hs₀])
  split
  · rename_i hjm
    subst hjm
    refine ⟨k + 1, ?_, ?_⟩
    · rw [replicate_succ', ← hk]
      simp [WatchSub.eventsOf, WatchSub.enqueue, WatchSub.enqueued]
    · rw [count_cons_self] at hcount
      omega
  · rename_i hjm
    refine ⟨k, hk, ?_⟩
    rw [count_cons_of_ne hjm] at hcount
    exact hcount

theorem Sound.silent (hs : w.Sound enc) (hr : w.running[i]? = some r)
    (hphase : r.phase = .ready ∨ ∃ snapshot, r.phase = .inTxn snapshot) : w.Silent i := by
  have hsound := hs.calls i r hr
  unfold CallSound at hsound
  rcases hphase with hphase | ⟨snapshot, hphase⟩ <;> rw [hphase] at hsound <;> exact hsound

/-- A call that commits lands at the end of the commits. -/
theorem landed_of_commit {snapshot : ℕ} {reads : List String} {target target' : Option R}
    (hsilent : w.Silent i)
    (hattempt : call.attempt enc (view w.init (w.commits.take snapshot)) target =
      (.commits reads changes, target'))
    (hvalid : changes = [] ∨
      Unchanged (fun c => writes (Commit.changes c)) w.commits snapshot reads)
    (hinit : v.init = w.init) (hcommits : v.commits = w.commits ++ [⟨i, changes⟩]) :
    v.Landed enc i call w.commits.length changes := by
  refine ⟨by rw [hcommits, getElem?_concat_length], fun m c hm hc => ?_, fun hne => ?_⟩
  · rw [hcommits] at hm
    rcases Nat.lt_or_ge m w.commits.length with hlt | hge
    · rw [getElem?_append_left hlt] at hm
      exact absurd hc (hsilent.commits c (mem_of_getElem? hm))
    · have hlen := (List.getElem?_eq_some_iff.mp hm).1
      simp only [length_append, length_singleton] at hlen
      omega
  · rw [hinit, hcommits, take_left]
    refine ⟨reads, target, target', Call.attempt_congr hattempt fun k hk => ?_⟩
    exact stored_take_of_unchanged (hvalid.resolve_left hne) hk

/-- After its commit a call has everything to tell, or as a transaction nothing. -/
theorem callSound_of_landed {r' : Running R} {reads : List String} {target target' : Option R}
    {db : String → Option Bytes} (hsilent : w.Silent i)
    (hattempt : r'.call.attempt enc db target = (.commits reads changes, target'))
    (hlanded : v.Landed enc i r'.call n changes) (hheard : v.heard i = w.heard i)
    (hphase : r'.phase = Running.afterCommit v.keys r'.call changes) :
    v.CallSound enc i r' := by
  have hnothing : ∀ evs ∈ v.heard i, evs = [] := hheard ▸ hsilent.events
  unfold CallSound
  cases htx : r'.call.isTransaction with
  | true =>
    have hdone : r'.phase = .done .succeeded := by
      rw [hphase]
      unfold Running.afterCommit
      split
      · rw [if_pos htx]
      · rfl
    rw [hdone]
    refine ⟨n, changes, hlanded, ?_⟩
    unfold Told
    rw [if_pos htx]
    exact hnothing
  | false =>
    obtain ⟨ch, rfl, -, -⟩ := Call.attempt_single htx hattempt
    have hemitting : r'.phase = .emitting ch.event (dispatch v.keys ch.event.coord) := by
      rw [hphase, Running.afterCommit, htx, if_neg Bool.false_ne_true]
    rw [hemitting]
    refine ⟨rfl, n, ch, hlanded, rfl, fun j evs hj => ⟨0, ?_, Nat.zero_add _⟩⟩
    exact hnothing evs (mem_of_getElem? hj)

/-- One move. -/
theorem Sound.move {a : Action R} (hs : w.Sound enc) (h : Moves enc w a v) : v.Sound enc := by
  cases h with
  | called call =>
    have hsame : ∀ k, SameFor k w
        { w with running := w.running ++ [{ call, target := call.passedTarget }] } := fun k =>
      .of_heard rfl rfl rfl rfl
    refine ⟨fun k rk hk => ?_, fun k hk => (hsame k).silent (hs.unborn k ?_)⟩
    · rcases Nat.lt_or_ge k w.running.length with hlt | hge
      · rw [getElem?_append_left hlt] at hk
        exact (hsame k).callSound (hs.calls k rk hk)
      · rw [getElem?_append_right hge] at hk
        obtain rfl := mem_singleton.mp (mem_of_getElem? hk)
        exact (hsame k).silent (hs.unborn k hge)
    · simp only [length_append] at hk
      omega
  | @began i r hr hphase =>
    refine hs.set hr rfl ?_ fun k _ => .of_set w i k _
    exact (SameFor.of_set w i i _).silent (hs.silent hr (.inl hphase))
  | @gaveUp i snapshot answer r r' hr hphase hcall hafter =>
    refine hs.set hr rfl ?_ fun k _ => .of_set w i k _
    have hsilent := (SameFor.of_set w i i r').silent (hs.silent hr (.inr ⟨snapshot, hphase⟩))
    unfold CallSound
    rcases hafter with hp | hp | ⟨e, hp⟩ <;> rw [hp] <;> exact hsilent
  | @committed i snapshot r reads changes target hr hphase hattempt hvalid =>
    have hsilent := hs.silent hr (.inr ⟨snapshot, hphase⟩)
    refine hs.set hr rfl ?_ fun k hk =>
      ⟨rfl, rfl, rfl, [⟨i, changes⟩], rfl, fun c hc => ?_⟩
    · exact callSound_of_landed hsilent hattempt
        (landed_of_commit hsilent hattempt hvalid rfl rfl) rfl rfl
    · obtain rfl := mem_singleton.mp hc
      exact Ne.symm hk
  | @enqueued i j r event todo hr hphase =>
    refine hs.set hr rfl ?_ fun k hk => .of_heard rfl rfl
      (map_modify_of_same fun _ => rfl) (heard_modify_of_ne event hk)
    have hsound := hs.calls i r hr
    unfold CallSound at hsound ⊢
    rw [hphase] at hsound
    obtain ⟨htx, n, ch, hlanded, hevent, htelling⟩ := hsound
    exact ⟨htx, n, ch, ⟨hlanded.here, hlanded.once, hlanded.serial⟩, hevent, htelling.enqueue rfl⟩
  | @returned i r event hr hphase =>
    refine hs.set hr rfl ?_ fun k _ => .of_set w i k _
    have hsound := hs.calls i r hr
    unfold CallSound at hsound ⊢
    rw [hphase] at hsound
    obtain ⟨htx, n, ch, hlanded, rfl, htelling⟩ := hsound
    have hsame := SameFor.of_set w i i { r with phase := .done .succeeded }
    refine ⟨n, [ch], hsame.landed hlanded, ?_⟩
    unfold Told
    rw [htx]
    exact ⟨ch, rfl, hsame.telling htelling⟩
  | @pumped _ j s s' _ hj hkey henqueued =>
    have hsame : ∀ k, SameFor k w { w with subs := w.subs.set j s' } := fun k =>
      .of_heard rfl rfl (map_set_of_same hj hkey)
        (map_set_of_same hj (by simp only [WatchSub.eventsOf, henqueued]))
    exact ⟨fun k rk hk => (hsame k).callSound (hs.calls k rk hk),
      fun k hk => (hsame k).silent (hs.unborn k hk)⟩

/-- Where a run starts. -/
theorem sound_start (enc : Encoding R) (init : String → Option Bytes)
    (subscribed : List (Option ResourceType × String)) :
    (World.start init subscribed).Sound enc := by
  refine ⟨fun i r hr => (nomatch hr), fun i _ => ⟨nofun, fun evs hevs => ?_⟩⟩
  simp only [heard, World.start, map_map, mem_map] at hevs
  obtain ⟨scope, _, rfl⟩ := hevs
  rfl

/-- Every run from a fresh store is sound. -/
theorem sound_of_exec {init : String → Option Bytes}
    {subscribed : List (Option ResourceType × String)} {run : List (Action R)}
    (h : exec (World.step enc) (World.start init subscribed) run = some w) : w.Sound enc :=
  moves_invariant (fun _ _ _ => Sound.move) (sound_start enc init subscribed) h

end World

end Rune.Store
