import Rune.Core.Run
import Rune.Models.Store.Calls

/-!
# Concurrent calls of the store

A call opens a transaction, finishes it with a commit or an error, and after a commit
enqueues its event to the subscriptions one by one, with nothing held over these steps.
`UpdateFunc` starts over after a conflict. A subscription hands its backlog on in order.
-/

namespace Rune.Store

open Rune.Core

variable {R : Type}

/-- A committed transaction and the call that made it. -/
structure Commit (R : Type) where
  call : ℕ
  changes : List (Change R)

/-- What the database holds after the commits. -/
def view (init : String → Option Bytes) (commits : List (Commit R)) : String → Option Bytes :=
  stored (fun c => writes c.changes) init commits

/-- An event and the call it comes from. -/
abbrev Tagged (R : Type) := ℕ × WatchEvent R

/-- A subscription. -/
structure WatchSub (R : Type) where
  /-- The scope; `none` is every type, and the empty namespace every namespace. -/
  resourceType : Option ResourceType
  ns : String
  buf : List (Tagged R) := []
  /-- The event that the pump has taken out and is handing on. -/
  held : Option (Tagged R) := none
  delivered : List (Tagged R) := []

namespace WatchSub

/-- The text under which a scope is registered. -/
def scopeKey (resourceType : Option ResourceType) (ns : String) : String :=
  (resourceType.map ResourceType.text).getD "" ++ ":" ++ ns

/-- The scope under which it is filed. -/
def key (s : WatchSub R) : String := scopeKey s.resourceType s.ns

/-- All events that were enqueued, in order. -/
def enqueued (s : WatchSub R) : List (Tagged R) := s.delivered ++ s.held.toList ++ s.buf

/-- Append an event to the buffer. -/
def enqueue (s : WatchSub R) (ev : Tagged R) : WatchSub R := { s with buf := s.buf ++ [ev] }

/-- The pump takes the first event of the backlog. -/
def take (s : WatchSub R) : Option (WatchSub R) :=
  match s.held, s.buf with
  | none, ev :: rest => some { s with buf := rest, held := some ev }
  | _, _ => none

/-- The consumer receives the event. -/
def deliver (s : WatchSub R) : Option (WatchSub R) :=
  s.held.map fun ev => { s with held := none, delivered := s.delivered ++ [ev] }

end WatchSub

/-- The four scopes that an event is dispatched to. -/
def scopes (c : Coord) : List String :=
  [WatchSub.scopeKey (some c.resourceType) c.ns, WatchSub.scopeKey none c.ns,
    WatchSub.scopeKey (some c.resourceType) "", WatchSub.scopeKey none ""]

/-- The subscriptions registered under a key, given the keys of all. -/
def watchConns (keys : List String) (key : String) : List ℕ :=
  (List.range keys.length).filter fun j => keys[j]? = some key

/-- The subscriptions that an event is enqueued to, in order. -/
def dispatch (keys : List String) (c : Coord) : List ℕ := (scopes c).flatMap (watchConns keys)

/-- How a call ends. -/
inductive Result where
  | succeeded
  /-- `UpdateFunc` returned nil without a write. -/
  | skipped
  | failed (e : Failure)

/-- Where a call is. -/
inductive Phase (R : Type) where
  /-- About to open a transaction. -/
  | ready
  /-- In a transaction that reads the first commits. -/
  | inTxn (snapshot : ℕ)
  | emitting (event : WatchEvent R) (todo : List ℕ)
  | done (result : Result)

/-- A call in progress. -/
structure Running (R : Type) where
  call : Call R
  target : Option R
  attempt : ℕ := 0
  phase : Phase R := .ready

/-- The database, the calls and the subscriptions. -/
structure World (R : Type) where
  init : String → Option Bytes
  commits : List (Commit R) := []
  running : List (Running R) := []
  subs : List (WatchSub R)

/-- How the database answers a transaction. -/
inductive Answer where
  | ok
  | conflict
  | error
  deriving DecidableEq

/-- What can happen. -/
inductive Action (R : Type) where
  | call (call : Call R)
  | begin (i : ℕ)
  | finish (i : ℕ) (answer : Answer)
  | emit (i : ℕ)
  | take (j : ℕ)
  | deliver (j : ℕ)

/-- How often a conflict is retried. -/
def updateFuncMaxRetries : ℕ := 100

namespace Running

/-- The call has been given an error in its transaction. -/
def fail (r : Running R) (target : Option R) (e : Failure) : Running R :=
  if r.call.isUpdateFunc ∧ e = .conflict ∧ r.attempt < updateFuncMaxRetries then
    { r with target, attempt := r.attempt + 1, phase := .ready }
  else { r with target, phase := .done (.failed e) }

/-- The phase after a commit. A transaction of several operations emits nothing. -/
def afterCommit (keys : List String) (call : Call R) : List (Change R) → Phase R
  | [ch] => if call.isTransaction then .done .succeeded
      else .emitting ch.event (dispatch keys ch.event.coord)
  | _ => .done .succeeded

end Running

namespace World

/-- The keys of the subscriptions. -/
def keys (w : World R) : List String := w.subs.map WatchSub.key

/-- Change one call. -/
def set (w : World R) (i : ℕ) (r : Running R) : World R :=
  { w with running := w.running.set i r }

/-- End the transaction of a call. -/
def finish (enc : Encoding R) (w : World R) (i : ℕ) (r : Running R) (snapshot : ℕ)
    (answer : Answer) : Option (World R) :=
  match answer, r.call.attempt enc (view w.init (w.commits.take snapshot)) r.target with
  | .error, (_, target) => some (w.set i (r.fail target .database))
  | _, (.fails e, target) => some (w.set i (r.fail target e))
  | _, (.skips, target) => some (w.set i { r with target, phase := .done .skipped })
  | .conflict, (.commits _ _, target) => some (w.set i (r.fail target .conflict))
  | .ok, (.commits reads changes, target) =>
    if changes = [] ∨ Unchanged (fun c => writes (Commit.changes c)) w.commits snapshot reads then
      some { w.set i { r with target, phase := Running.afterCommit w.keys r.call changes } with
        commits := w.commits ++ [⟨i, changes⟩] }
    else none

/-- Enqueue the event to the next subscription, or return. -/
def emit (w : World R) (i : ℕ) (r : Running R) (event : WatchEvent R) :
    List ℕ → World R
  | [] => w.set i { r with phase := .done .succeeded }
  | j :: rest =>
    { w.set i { r with phase := .emitting event rest } with
      subs := w.subs.modify j (WatchSub.enqueue · (i, event)) }

/-- One step, if it is possible. -/
def step (enc : Encoding R) (w : World R) : Action R → Option (World R)
  | .call call => some { w with running := w.running ++ [{ call, target := call.passedTarget }] }
  | .begin i =>
    match w.running[i]? with
    | some r =>
      match r.phase with
      | .ready => some (w.set i { r with phase := .inTxn w.commits.length })
      | _ => none
    | none => none
  | .finish i answer =>
    match w.running[i]? with
    | some r =>
      match r.phase with
      | .inTxn snapshot => w.finish enc i r snapshot answer
      | _ => none
    | none => none
  | .emit i =>
    match w.running[i]? with
    | some r =>
      match r.phase with
      | .emitting event todo => some (w.emit i r event todo)
      | _ => none
    | none => none
  | .take j => do
    let s ← w.subs[j]?
    let s' ← s.take
    pure { w with subs := w.subs.set j s' }
  | .deliver j => do
    let s ← w.subs[j]?
    let s' ← s.deliver
    pure { w with subs := w.subs.set j s' }

/-- A store with the given content and subscriptions, before any call. -/
def start (init : String → Option Bytes) (subscribed : List (Option ResourceType × String)) :
    World R :=
  { init, subs := subscribed.map fun (resourceType, ns) => { resourceType, ns } }

end World

/-- The ways in which a step changes the store. -/
inductive Moves (enc : Encoding R) (w : World R) : Action R → World R → Prop where
  | called (call : Call R) :
      Moves enc w (.call call)
        { w with running := w.running ++ [{ call, target := call.passedTarget }] }
  | began {i : ℕ} {r : Running R} (hr : w.running[i]? = some r) (hphase : r.phase = .ready) :
      Moves enc w (.begin i) (w.set i { r with phase := .inTxn w.commits.length })
  /-- The transaction ended without a commit. -/
  | gaveUp {i snapshot : ℕ} {answer : Answer} {r r' : Running R} (hr : w.running[i]? = some r)
      (hphase : r.phase = .inTxn snapshot) (hcall : r'.call = r.call)
      (hafter : r'.phase = .ready ∨ r'.phase = .done .skipped ∨
        ∃ e, r'.phase = .done (.failed e)) :
      Moves enc w (.finish i answer) (w.set i r')
  | committed {i snapshot : ℕ} {r : Running R} {reads : List String} {changes : List (Change R)}
      {target : Option R} (hr : w.running[i]? = some r) (hphase : r.phase = .inTxn snapshot)
      (hattempt : r.call.attempt enc (view w.init (w.commits.take snapshot)) r.target =
        (.commits reads changes, target))
      (hvalid : changes = [] ∨
        Unchanged (fun c => writes (Commit.changes c)) w.commits snapshot reads) :
      Moves enc w (.finish i .ok) { w.set i { r with
        target, phase := Running.afterCommit w.keys r.call changes } with
        commits := w.commits ++ [⟨i, changes⟩] }
  | enqueued {i j : ℕ} {r : Running R} {event : WatchEvent R} {todo : List ℕ}
      (hr : w.running[i]? = some r) (hphase : r.phase = .emitting event (j :: todo)) :
      Moves enc w (.emit i) { w.set i { r with phase := .emitting event todo } with
        subs := w.subs.modify j (WatchSub.enqueue · (i, event)) }
  | returned {i : ℕ} {r : Running R} {event : WatchEvent R}
      (hr : w.running[i]? = some r) (hphase : r.phase = .emitting event []) :
      Moves enc w (.emit i) (w.set i { r with phase := .done .succeeded })
  /-- The pump of a subscription moves an event on. -/
  | pumped {a : Action R} {j : ℕ} {s s' : WatchSub R} (ha : a = .take j ∨ a = .deliver j)
      (hs : w.subs[j]? = some s) (hkey : s'.key = s.key) (henqueued : s'.enqueued = s.enqueued) :
      Moves enc w a { w with subs := w.subs.set j s' }

section Steps

variable {enc : Encoding R} {w v : World R} {a : Action R}

theorem WatchSub.take_spec {s s' : WatchSub R} (h : s.take = some s') :
    s'.key = s.key ∧ s'.enqueued = s.enqueued := by
  unfold WatchSub.take at h
  split at h
  · rename_i ev rest hheld hbuf
    cases h
    simp [WatchSub.key, WatchSub.enqueued, hheld, hbuf]
  · cases h

theorem WatchSub.deliver_spec {s s' : WatchSub R} (h : s.deliver = some s') :
    s'.key = s.key ∧ s'.enqueued = s.enqueued := by
  obtain ⟨ev, hheld, rfl⟩ := Option.map_eq_some_iff.mp h
  simp [WatchSub.key, WatchSub.enqueued, hheld]

theorem Running.fail_spec (r : Running R) (target : Option R) (e : Failure) :
    (r.fail target e).call = r.call ∧
      ((r.fail target e).phase = .ready ∨ ∃ e', (r.fail target e).phase = .done (.failed e')) := by
  unfold Running.fail
  split
  · exact ⟨rfl, .inl rfl⟩
  · exact ⟨rfl, .inr ⟨e, rfl⟩⟩

theorem moves_of_fail {i snapshot : ℕ} {r : Running R} (hr : w.running[i]? = some r)
    (hphase : r.phase = .inTxn snapshot) (answer : Answer) (target : Option R) (e : Failure) :
    Moves enc w (.finish i answer) (w.set i (r.fail target e)) := by
  obtain ⟨hcall, hafter⟩ := r.fail_spec target e
  exact .gaveUp hr hphase hcall (hafter.imp_right .inr)

theorem moves_of_finish {i snapshot : ℕ} {r : Running R} {answer : Answer}
    (hr : w.running[i]? = some r) (hphase : r.phase = .inTxn snapshot)
    (h : w.finish enc i r snapshot answer = some v) : Moves enc w (.finish i answer) v := by
  revert h
  fun_cases w.finish enc i r snapshot answer <;> rintro ⟨⟩
  · exact moves_of_fail hr hphase _ _ _
  · exact moves_of_fail hr hphase _ _ _
  · exact .gaveUp hr hphase rfl (.inr (.inl rfl))
  · exact moves_of_fail hr hphase _ _ _
  · exact .committed hr hphase ‹_› ‹_›

/-- Every step is a move. -/
theorem moves_of_step (h : w.step enc a = some v) : Moves enc w a v := by
  revert h
  fun_cases w.step enc a <;> intro h <;> try cases h
  · exact .called _
  · exact .began ‹_› ‹_›
  · exact moves_of_finish ‹_› ‹_› h
  · rename_i hr event todo hphase
    cases todo with
    | nil => exact .returned hr hphase
    | cons j rest => exact .enqueued hr hphase
  · obtain ⟨s, hs, h⟩ := Option.bind_eq_some_iff.mp h
    obtain ⟨s', hs', h⟩ := Option.bind_eq_some_iff.mp h
    cases h
    exact .pumped (.inl rfl) hs (WatchSub.take_spec hs').1 (WatchSub.take_spec hs').2
  · obtain ⟨s, hs, h⟩ := Option.bind_eq_some_iff.mp h
    obtain ⟨s', hs', h⟩ := Option.bind_eq_some_iff.mp h
    cases h
    exact .pumped (.inr rfl) hs (WatchSub.deliver_spec hs').1 (WatchSub.deliver_spec hs').2

/-- What every move keeps, every run keeps. -/
theorem moves_invariant {inv : World R → Prop}
    (hmove : ∀ w a v, inv w → Moves enc w a v → inv v) {run : List (Action R)} (hw : inv w)
    (h : exec (World.step enc) w run = some v) : inv v :=
  exec_invariant (fun w a v hi hs => hmove w a v hi (moves_of_step hs)) hw h

end Steps

end Rune.Store
