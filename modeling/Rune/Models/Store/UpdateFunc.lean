import Rune.Models.Store.Serial

/-!
# `UpdateFunc` loses no update

Each `UpdateFunc` call that returns nil without skipping has been applied once, to the
value stored immediately before it. Nothing of a rejected attempt is left in the result,
for every attempt decodes into a zeroed target. A call that skips or fails has written
nothing and emitted nothing.
-/

namespace Rune.Store

open Rune.Core

variable {R : Type} {enc : Encoding R}

/-- The change that applies a function to the decoded value. -/
structure Applied (enc : Encoding R) (coord : Coord) (zero : R)
    (mutate : R → R × Option MutateError) (source : String) (before : Option Bytes)
    (ch : Change R) : Prop where
  result : ∃ val decoded mutated, before = some val ∧ enc.unmarshal val zero = some decoded ∧
    mutate decoded = (mutated, none) ∧ enc.marshal mutated = ch.value ∧ ch.value.isSome ∧
    ch.event = ⟨.updated, coord, some mutated, source⟩

/-- Whatever a rejected attempt has left in the target, an attempt that commits starts
from the zero value. -/
theorem applied_of_attempt {coord : Coord} {zero : R} {passed target target' : Option R}
    {mutate : R → R × Option MutateError} {source : String} {db : String → Option Bytes}
    {reads : List String} {changes : List (Change R)}
    (h : (Call.updateFunc coord zero passed mutate source).attempt enc db target =
      (.commits reads changes, target')) :
    ∃ ch, changes = [ch] ∧ Applied enc coord zero mutate source (db (makeKey coord)) ch := by
  rw [Call.attempt] at h
  revert h
  fun_cases Call.updateFuncAttempt enc db coord zero mutate source target <;> rintro ⟨⟩
  rename_i val hval decoded hdecoded mutated hmutated data hdata
  refine ⟨_, rfl, val, decoded, mutated, hval, ?_, hmutated, hdata, rfl, rfl⟩
  cases target with
  | none => cases hdecoded
  | some old => exact hdecoded

/-- The value that a change leaves under its key. -/
theorem view_concat_single {init : String → Option Bytes} {commits : List (Commit R)} {i : ℕ}
    {ch : Change R} : view init (commits ++ [⟨i, [ch]⟩]) ch.key = ch.value := by
  simp [view, stored_concat, writes, replay]

/-- The function of the call returns the error in the transaction that the call is in. -/
structure MutateReturns (enc : Encoding R) (w : World R) (i : ℕ) (e : MutateError) : Prop where
  returns : ∃ r coord zero passed mutate source snapshot val old decoded mutated,
    w.running[i]? = some r ∧ r.call = .updateFunc coord zero passed mutate source ∧
    r.phase = .inTxn snapshot ∧
    view w.init (w.commits.take snapshot) (makeKey coord) = some val ∧ r.target = some old ∧
    enc.unmarshal val zero = some decoded ∧ mutate decoded = (mutated, some e)

/-- What an attempt does when the function returns the error. -/
def MutateError.attempt : MutateError → Attempt R
  | .skipUpdate => .skips
  | .conflict => .fails .conflict
  | .other => .fails .callback

section Errors

variable {w v : World R} {i : ℕ} {r : Running R} {e : MutateError} {answer : Answer}

/-- A call that has returned stays as it is. -/
theorem Moves.done {a : Action R} (h : Moves enc w a v) {result : Result}
    (hr : w.running[i]? = some r) (hdone : r.phase = .done result) : v.running[i]? = some r := by
  have hset : ∀ {k : ℕ} {s s' : Running R}, w.running[k]? = some s → s.phase ≠ .done result →
      (w.running.set k s')[i]? = some r := by
    intro k s s' hs hne
    have hki : k ≠ i := by
      rintro rfl
      cases hs.symm.trans hr
      exact hne hdone
    rw [List.getElem?_set_ne hki, hr]
  cases h with
  | called call => exact (List.getElem?_append_left (List.getElem?_eq_some_iff.mp hr).1).trans hr
  | began hs hp | gaveUp hs hp | committed hs hp | enqueued hs hp | returned hs hp =>
    exact hset hs (by simp [hp])
  | pumped => exact hr

/-- The call has not committed. -/
def Running.Uncommitted (r : Running R) : Prop :=
  r.phase ≠ .done .succeeded ∧ ∀ event todo, r.phase ≠ .emitting event todo

theorem Running.fail_uncommitted (r : Running R) (target : Option R) (f : Failure) :
    (r.fail target f).Uncommitted := by
  obtain ⟨-, hphase | ⟨f', hphase⟩⟩ := r.fail_spec target f <;>
    simp [Running.Uncommitted, hphase]

/-- Only the end of a transaction makes a call commit. -/
theorem Moves.uncommitted {a : Action R} (h : Moves enc w a v)
    (ha : ∀ answer, a ≠ .finish i answer)
    (hw : ∃ r, w.running[i]? = some r ∧ r.Uncommitted) :
    ∃ r, v.running[i]? = some r ∧ r.Uncommitted := by
  obtain ⟨r, hr, hphase⟩ := hw
  have hi : i < w.running.length := (List.getElem?_eq_some_iff.mp hr).1
  have hother : ∀ {k : ℕ} {s' : Running R}, k ≠ i →
      ∃ r, (w.running.set k s')[i]? = some r ∧ r.Uncommitted := fun hki =>
    ⟨r, by rw [List.getElem?_set_ne hki, hr], hphase⟩
  cases h with
  | called call => exact ⟨r, (List.getElem?_append_left hi).trans hr, hphase⟩
  | @began k s hs hp =>
    by_cases hki : k = i
    · subst hki
      exact ⟨_, List.getElem?_set_self hi, by simp [Running.Uncommitted]⟩
    · exact hother hki
  | gaveUp | committed => exact hother fun hki => ha _ (by rw [hki])
  | enqueued hs hp | returned hs hp =>
    refine hother ?_
    rintro rfl
    cases hs.symm.trans hr
    exact hphase.2 _ _ hp
  | pumped => exact ⟨r, hr, hphase⟩

/-- An error of the function ends the transaction without a commit, and the call too
unless it is the conflict error. -/
theorem MutateReturns.finish (h : MutateReturns enc w i e)
    (hstep : w.step enc (.finish i answer) = some v) :
    v.commits = w.commits ∧ v.subs = w.subs ∧ ∃ r, v.running[i]? = some r ∧ r.Uncommitted ∧
      (e ≠ .conflict → ∃ result, r.phase = .done result) := by
  obtain ⟨r, coord, zero, passed, mutate, source, snapshot, val, old, decoded, mutated, hr, hcall,
    hphase, hval, htarget, hdecoded, hmutate⟩ := h.returns
  have hi : i < w.running.length := (List.getElem?_eq_some_iff.mp hr).1
  have hattempt : r.call.attempt enc (view w.init (w.commits.take snapshot)) r.target =
      (e.attempt, some mutated) := by
    simp only [hcall, htarget, Call.attempt, Call.updateFuncAttempt, hval, Call.resetTarget,
      Option.map_some, Option.bind_some, hdecoded, hmutate]
    cases e <;> rfl
  have hfailed : ∀ target f, f ≠ .conflict → (r.fail target f).phase = .done (.failed f) := by
    intro target f hf
    unfold Running.fail
    rw [if_neg fun h => hf h.2.1]
  simp only [World.step, hr, hphase, World.finish, hattempt] at hstep
  cases answer with
  | error =>
    cases hstep
    exact ⟨rfl, rfl, _, List.getElem?_set_self hi, r.fail_uncommitted _ _,
      fun _ => ⟨_, hfailed _ _ (by decide)⟩⟩
  | ok | conflict =>
    cases e <;> cases hstep <;>
      refine ⟨rfl, rfl, _, List.getElem?_set_self hi, ?_⟩
    · exact ⟨by simp [Running.Uncommitted], fun _ => ⟨_, rfl⟩⟩
    · exact ⟨r.fail_uncommitted _ _, fun hne => absurd rfl hne⟩
    · exact ⟨r.fail_uncommitted _ _, fun _ => ⟨_, hfailed _ _ (by decide)⟩⟩

theorem silent_of_uncommitted (hs : w.Sound enc) (hr : w.running[i]? = some r)
    (hphase : r.Uncommitted) : w.Silent i := by
  have hsound := hs.calls i r hr
  unfold World.CallSound at hsound
  split at hsound
  case h_5 hp => exact absurd hp (hphase.2 _ _)
  case h_6 hp => exact absurd hp hphase.1
  all_goals exact hsound

/-- A call that has returned is found as it was after every further run. -/
theorem exec_done {run : List (Action R)} {result : Result} (hr : w.running[i]? = some r)
    (hdone : r.phase = .done result) (h : exec (World.step enc) w run = some v) :
    v.running[i]? = some r :=
  moves_invariant (fun _ _ _ hi hm => hm.done hi hdone) hr h

/-- A call that has not committed has not done so after a run in which none of its
transactions ends. -/
theorem exec_uncommitted {run : List (Action R)} (hrun : ∀ again, Action.finish i again ∉ run)
    (hw : ∃ r, w.running[i]? = some r ∧ r.Uncommitted)
    (h : exec (World.step enc) w run = some v) :
    ∃ r, v.running[i]? = some r ∧ r.Uncommitted := by
  have hcond : Along (World.step enc) (fun _ a => ∀ answer, a ≠ .finish i answer) w run := by
    refine Along.of_forall ?_ w
    rintro a ha _ answer rfl
    exact hrun answer ha
  exact exec_invariant_along (fun _ _ _ hi ha hs => (moves_of_step hs).uncommitted ha hi) hw hcond h

end Errors

/-- What the initial content of a run is. -/
theorem init_of_exec {init : String → Option Bytes}
    {subscribed : List (Option ResourceType × String)} {run : List (Action R)} {w : World R}
    (h : exec (World.step enc) (World.start init subscribed) run = some w) : w.init = init := by
  have hmove : ∀ (u : World R) a v, u.init = init → Moves enc u a v → v.init = init := by
    intro u a v hu hm
    cases hm <;> exact hu
  exact moves_invariant hmove rfl h

/-- Every `UpdateFunc` that returns nil without skipping has committed once, and stored the
function's result on the value stored immediately before it. One that skips or fails has changed
and emitted nothing. A transaction in which the function fails changes nothing, nor does the call,
unless the error is the conflict error and it tries again. -/
theorem updateFunc_exact {init : String → Option Bytes}
    {subscribed : List (Option ResourceType × String)} {run : List (Action R)} {w : World R}
    (h : exec (World.step enc) (World.start init subscribed) run = some w) :
    (∀ i r coord zero passed mutate source, w.running[i]? = some r →
      r.call = .updateFunc coord zero passed mutate source → r.phase = .done .succeeded →
      ∃ n ch, w.commits[n]? = some ⟨i, [ch]⟩ ∧
        (∀ m c, w.commits[m]? = some c → c.call = i → m = n) ∧
        Applied enc coord zero mutate source (view init (w.commits.take n) (makeKey coord)) ch ∧
        view init (w.commits.take (n + 1)) (makeKey coord) = ch.value) ∧
    (∀ i r, w.running[i]? = some r →
      (r.phase = .done .skipped ∨ ∃ e, r.phase = .done (.failed e)) → w.Silent i) ∧
    ∀ first rest i answer e u, run = first ++ .finish i answer :: rest →
      exec (World.step enc) (World.start init subscribed) first = some u →
      MutateReturns enc u i e →
      (∀ v, u.step enc (.finish i answer) = some v → v.commits = u.commits ∧ v.subs = u.subs) ∧
        ((e ≠ .conflict ∨ ∀ again, Action.finish i again ∉ rest) → w.Silent i) := by
  have hs := World.sound_of_exec h
  refine ⟨?_, fun i r hr hphase => silent_of_uncommitted hs hr ?_, ?_⟩
  · intro i r coord zero passed mutate source hr hcall hphase
    have hsound := hs.calls i r hr
    unfold World.CallSound at hsound
    rw [hphase] at hsound
    obtain ⟨n, changes, hlanded, htold⟩ := hsound
    have htx : r.call.isTransaction = false := by
      rw [hcall]
      rfl
    rw [World.Told, htx] at htold
    obtain ⟨ch, rfl, -⟩ := htold
    obtain ⟨reads, target, target', hattempt⟩ := hlanded.serial (by simp)
    rw [hcall, init_of_exec h] at hattempt
    obtain ⟨ch', hch, happlied⟩ := applied_of_attempt hattempt
    obtain rfl := List.singleton_inj.mp hch
    refine ⟨n, ch, hlanded.here, hlanded.once, happlied, ?_⟩
    obtain ⟨val, decoded, mutated, -, -, -, -, -, hevent⟩ := happlied.result
    have hkey : makeKey coord = ch.key := by rw [Change.key, hevent]
    have htake : w.commits.take (n + 1) = w.commits.take n ++ [⟨i, [ch]⟩] := by
      rw [List.take_add_one, hlanded.here]
      rfl
    rw [hkey, htake, view_concat_single]
  · rcases hphase with hphase | ⟨f, hphase⟩ <;> simp [Running.Uncommitted, hphase]
  · rintro first rest i answer e u rfl hfirst hreturns
    refine ⟨fun v hv => ⟨(hreturns.finish hv).1, (hreturns.finish hv).2.1⟩, fun hlast => ?_⟩
    obtain ⟨u', hu', hrest⟩ := exec_append.mp h
    cases hfirst.symm.trans hu'
    obtain ⟨v, hv, hend⟩ := exec_cons.mp hrest
    obtain ⟨-, -, r, hr, hphase, hdone⟩ := hreturns.finish hv
    rcases hlast with hne | hlast
    · obtain ⟨result, hresult⟩ := hdone hne
      exact silent_of_uncommitted hs (exec_done hr hresult hend) hphase
    · obtain ⟨r', hr', hphase'⟩ := exec_uncommitted hlast ⟨r, hr, hphase⟩ hend
      exact silent_of_uncommitted hs hr' hphase'

/-- Objects that are their own encoding. -/
def plainEncoding : Encoding Bytes := ⟨some, fun val _ => some val, some⟩

/-- A resource that is updated. -/
def counter : Coord := ⟨.configmap, "default", "counter"⟩

/-- Add a byte to what is stored. -/
def appendByte : Call Bytes := .updateFunc counter [] (some [7]) (fun val => (val ++ [1], none)) ""

/-- Two calls read the same value, and the second starts over. -/
def twoAppends : List (Action Bytes) :=
  [.call appendByte, .call appendByte, .begin 0, .begin 1, .finish 0 .ok, .finish 1 .conflict,
    .begin 1, .finish 1 .ok, .emit 0, .emit 1]

/-- Two appends at once. -/
theorem updateFunc_exact_twoAppends :
    ∃ w, exec (World.step plainEncoding) (World.start (fun _ => some []) []) twoAppends = some w ∧
      view w.init w.commits (makeKey counter) = some [1, 1] ∧
      ∃ n ch, w.commits[n]? = some ⟨1, [ch]⟩ ∧
        Applied plainEncoding counter [] (fun val => (val ++ [1], none)) ""
          (view w.init (w.commits.take n) (makeKey counter)) ch := by
  have hrun : ∃ w, exec (World.step plainEncoding) (World.start (fun _ => some []) []) twoAppends =
      some w ∧ view w.init w.commits (makeKey counter) = some [1, 1] ∧ ∃ r, w.running[1]? = some r ∧
      r.call = appendByte ∧ r.phase = .done .succeeded := ⟨_, rfl, rfl, _, rfl, rfl, rfl⟩
  obtain ⟨w, hw, hval, r, hr, hcall, hphase⟩ := hrun
  obtain ⟨n, ch, hn, _, happlied, _⟩ := (updateFunc_exact hw).1 1 r _ _ _ _ _ hr hcall hphase
  refine ⟨w, hw, hval, n, ch, hn, ?_⟩
  rw [init_of_exec hw]
  exact happlied

/-- Append a byte, but refuse an empty value with the conflict error. -/
def refuseEmpty : Call Bytes :=
  .updateFunc counter [] (some [])
    (fun val => (val ++ [7], if val = [] then some .conflict else none)) ""

/-- The function has refused the empty value. Another call stores a byte, and the attempt that
follows commits. -/
def retriedRefusal : List (Action Bytes) :=
  [.finish 0 .ok, .call (.update counter [1] ""), .begin 1, .finish 1 .ok, .emit 1,
    .begin 0, .finish 0 .ok, .emit 0]

/-- A call whose function has returned an error tries again, changes the value and returns nil. -/
theorem refused_update_lands : ∃ u w,
    exec (World.step plainEncoding) (World.start (fun _ => some []) [])
      [.call refuseEmpty, .begin 0] = some u ∧ MutateReturns plainEncoding u 0 .conflict ∧
      exec (World.step plainEncoding) u retriedRefusal = some w ∧
      w.running.map (fun r => r.phase) = [.done .succeeded, .done .succeeded] ∧
      view w.init w.commits (makeKey counter) = some [1, 7] ∧ ¬ w.Silent 0 := by
  refine ⟨_, _, rfl, ⟨_, _, _, _, _, _, _, _, _, _, _, rfl, rfl, rfl, rfl, rfl, rfl, rfl⟩, rfl, rfl,
    rfl, fun hsilent => ?_⟩
  exact hsilent.commits _ (List.mem_cons_of_mem _ List.mem_cons_self) rfl

theorem World.Sound.landed {w : World R} {i : ℕ} {r : Running R} (hs : w.Sound enc)
    (hr : w.running[i]? = some r) (hc : ¬ r.Uncommitted) :
    ∃ n changes, w.Landed enc i r.call n changes := by
  have hsound := hs.calls i r hr
  unfold World.CallSound at hsound
  split at hsound
  case h_5 =>
    obtain ⟨-, n, ch, hlanded, -⟩ := hsound
    exact ⟨n, [ch], hlanded⟩
  case h_6 =>
    obtain ⟨n, changes, hlanded, -⟩ := hsound
    exact ⟨n, changes, hlanded⟩
  all_goals
    refine absurd ?_ hc
    simp [Running.Uncommitted, *]

/-- The commits are a serial run of the calls. Each is the only commit of its call, which has done
there what it does alone on the store as the commits before it left it, and a call that has returned
nil without skipping has its commit among them. -/
theorem commits_serial {init : String → Option Bytes}
    {subscribed : List (Option ResourceType × String)} {run : List (Action R)} {w : World R}
    (h : exec (World.step enc) (World.start init subscribed) run = some w) :
    (∀ n i changes, w.commits[n]? = some ⟨i, changes⟩ →
      ∃ r, w.running[i]? = some r ∧ ¬ r.Uncommitted ∧ w.Landed enc i r.call n changes) ∧
    ∀ i r, w.running[i]? = some r → ¬ r.Uncommitted →
      ∃ n changes, w.Landed enc i r.call n changes := by
  have hs := World.sound_of_exec h
  refine ⟨fun n i changes hn => ?_, fun i r => hs.landed⟩
  have hspoken : ¬ w.Silent i := fun hsilent => hsilent.commits _ (List.mem_of_getElem? hn) rfl
  cases hr : w.running[i]? with
  | none => exact absurd (hs.unborn i (List.getElem?_eq_none_iff.mp hr)) hspoken
  | some r =>
    have hc : ¬ r.Uncommitted := fun hc => hspoken (silent_of_uncommitted hs hr hc)
    obtain ⟨m, changes', hlanded⟩ := hs.landed hr hc
    obtain rfl := hlanded.once n _ hn rfl
    cases hlanded.here.symm.trans hn
    exact ⟨r, rfl, hc, hlanded⟩

/-- The order of the two. -/
theorem commits_serial_twoAppends : ∃ w i r changes,
    exec (World.step plainEncoding) (World.start (fun _ => some []) []) twoAppends = some w ∧
      w.running[i]? = some r ∧ w.Landed plainEncoding i r.call 1 changes := by
  have hw : exec (World.step plainEncoding) (World.start (fun _ => some []) []) twoAppends =
    some _ := rfl
  obtain ⟨r, hr, -, hlanded⟩ := (commits_serial hw).1 1 _ _ rfl
  exact ⟨_, _, r, _, hw, hr, hlanded⟩

end Rune.Store
