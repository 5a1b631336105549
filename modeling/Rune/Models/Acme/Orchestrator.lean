import Mathlib.Data.Rat.Floor
import Rune.Core.Run

/-!
# The certificate orchestrator

`Submit` registers a request, then looks whether the store has a certificate for the host, and
only later writes what it found into the state of the request. The run loop takes each request
that is due one transition further. No lock is held around the issuer and the store, so the steps
of `Submit`, `Forget` and the run loop interleave. States are shared by reference: a call goes on
with the state that it has, tracked or not.

Times are in nanoseconds. No next action is the clock's zero time, so the tests for it are left
out.
-/

namespace Rune.Acme

open Rune.Core

/-- A second, in nanoseconds. -/
def second : ℤ := 1000000000

/-- In nanoseconds. -/
def hour : ℤ := 3600 * second

/-- In nanoseconds. -/
def day : ℤ := 24 * hour

/-- The waits between attempts. -/
structure RetryPolicy where
  initial : ℤ
  max : ℤ
  multiplier : ℚ

/-- The values that stand for missing ones. -/
def RetryPolicy.defaults (rp : RetryPolicy) : RetryPolicy where
  initial := if rp.initial ≤ 0 then 30 * second else rp.initial
  max := if rp.max ≤ 0 then hour else rp.max
  multiplier := if rp.multiplier ≤ 1 then 2 else rp.multiplier

/-- What the orchestrator is set up with. -/
structure Config where
  retry : RetryPolicy
  renewBefore : ℤ
  /-- The floating-point number that stands for a number. -/
  float64 : ℚ → ℚ
  /-- The name under which the certificate of a host is stored. -/
  certNameFor : String → String

/-- The values that stand for missing ones. -/
def Config.defaults (cfg : Config) : Config :=
  { cfg with
    retry := cfg.retry.defaults
    renewBefore := if cfg.renewBefore ≤ 0 then 30 * day else cfg.renewBefore }

/-- The conversion of a floating-point number to an integer cuts off the fraction. -/
def truncate (d : ℚ) : ℤ := if 0 ≤ d then ⌊d⌋ else ⌈d⌉

/-- The loop of `nextDelay`; `none` where the cap is reached inside of it. -/
def Config.grow (cfg : Config) : ℕ → ℚ → Option ℚ
  | 0, d => some d
  | n + 1, d =>
    let d := cfg.float64 (d * cfg.retry.multiplier)
    if cfg.float64 cfg.retry.max ≤ d then none else cfg.grow n d

/-- The delay after the given number of failures in a row. -/
def Config.nextDelay (cfg : Config) (attempt : ℕ) : ℤ :=
  match cfg.grow (attempt - 1) (cfg.float64 cfg.retry.initial) with
  | none => cfg.retry.max
  | some d => if cfg.float64 cfg.retry.max < d then cfg.retry.max else truncate d

/-- A certificate that a service asks for. -/
structure Request where
  ns : String
  name : String
  host : String

/-- The name under which a request is tracked. -/
def Request.key (r : Request) : String := r.ns ++ "/" ++ r.name ++ "/" ++ r.host

/-- A certificate with its key, as far as the orchestrator can tell. -/
structure Bundle where
  /-- `none` where no certificate can be read from it. -/
  notAfter : Option ℤ
  /-- Neither the certificate nor the key is empty. -/
  complete : Bool := true
  deriving DecidableEq

/-- How far a request has come. -/
inductive CertState where
  | pending
  | issued
  | failed
  | unknown
  deriving DecidableEq

/-- A tracked request. -/
structure RequestState where
  req : Request
  state : CertState
  issuedAt : Option ℤ
  expiresAt : Option ℤ
  lastError : String
  nextRetry : Option ℤ
  failedCount : ℕ
  nextAction : ℤ

namespace RequestState

variable (cfg : Config)

/-- The state of a request that has just been registered. -/
def new (req : Request) (now : ℤ) : RequestState :=
  ⟨req, .pending, none, none, "", none, 0, now⟩

/-- `Submit` has found a certificate in the store. -/
def reuse (expiry : ℤ) (s : RequestState) : RequestState :=
  { s with
    state := .issued
    issuedAt := none
    expiresAt := some expiry
    lastError := ""
    nextRetry := none
    nextAction := expiry - cfg.renewBefore }

/-- An attempt has failed, in the issuer or in the store. -/
def fail (now : ℤ) (err : String) (s : RequestState) : RequestState :=
  let next := now + cfg.nextDelay (s.failedCount + 1)
  { s with
    failedCount := s.failedCount + 1
    state := .failed
    lastError := err
    nextRetry := some next
    nextAction := next }

/-- An attempt has succeeded. A certificate that cannot be read leaves `expiresAt` as it is. -/
def succeed (now : ℤ) (cert : Bundle) (s : RequestState) : RequestState :=
  { s with
    failedCount := 0
    state := .issued
    lastError := ""
    nextRetry := none
    issuedAt := some now
    expiresAt := match cert.notAfter with
      | some expiry => some expiry
      | none => s.expiresAt
    nextAction := match cert.notAfter with
      | some expiry =>
        if expiry - cfg.renewBefore < now + hour then now + hour else expiry - cfg.renewBefore
      | none => now + day }

/-- `maybeRenew`; the second component says that the run loop is woken. -/
def maybeRenew (now : ℤ) (s : RequestState) : RequestState × Bool :=
  match s.expiresAt with
  | none => ({ s with nextAction := now + day }, false)
  | some expiry =>
    if now < expiry - cfg.renewBefore then
      ({ s with nextAction := expiry - cfg.renewBefore }, false)
    else ({ s with state := .pending, nextAction := now }, true)

end RequestState

/-- A `Submit` that has registered a new request. -/
structure Submitting where
  ptr : ℕ
  now : ℤ
  /-- What the probe of the store has found, once it is made: the expiry of a certificate
  that is still good. -/
  probe : Option (Option ℤ) := none

/-- The `Submit` of the request has made its probe. -/
def Submitting.tell (ptr : ℕ) (found : Option ℤ) (sub : Submitting) : Submitting :=
  if sub.ptr = ptr then { sub with probe := some found } else sub

/-- Where the run loop is. The requests that are left of a tick come last. -/
inductive Loop where
  | awake
  | working (work : List ℕ)
  /-- `Issue` has been called. -/
  | issuing (ptr : ℕ) (work : List ℕ)
  /-- `Issue` has returned a certificate. -/
  | storing (ptr : ℕ) (cert : Bundle) (now : ℤ) (work : List ℕ)
  /-- `Set` has stored it. -/
  | recording (ptr : ℕ) (cert : Bundle) (now : ℤ) (work : List ℕ)
  | asleep (timer : Option ℤ)
  deriving DecidableEq

/-- The requests whose states the run loop is going to use. -/
def Loop.work : Loop → List ℕ
  | .working work => work
  | .issuing ptr work | .storing ptr _ _ work | .recording ptr _ _ work => ptr :: work
  | .awake | .asleep _ => []

/-- A call of `Issue`. -/
structure IssueCall where
  ptr : ℕ
  host : String
  time : ℤ
  /-- What the store has for the host at that moment. -/
  stored : Option Bundle
  /-- When the attempt before has failed, and how many in a row by then. -/
  after : Option (ℤ × ℕ)

/-- The orchestrator, its clock and the store of certificates. -/
structure System where
  clock : ℤ := 0
  certs : String → Option Bundle := fun _ => none
  /-- The states of the requests; those from `size` on are not in use. -/
  heap : ℕ → RequestState := fun _ => .new ⟨"", "", ""⟩ 0
  size : ℕ := 0
  tracked : List ℕ := []
  submits : List Submitting := []
  loop : Loop := .awake
  woken : Bool := false
  /-- The calls of `Issue`, the last one first. -/
  calls : List IssueCall := []
  /-- The certificate that was obtained last for a request. -/
  obtained : ℕ → Option Bundle := fun _ => none
  /-- The failure of the last attempt for a request, if it has failed. -/
  failure : ℕ → Option (ℤ × ℕ) := fun _ => none

/-- What can happen. -/
inductive Action where
  | submit (req : Request)
  /-- The probe of a `Submit` in progress; `ok` is false where the store fails. -/
  | probe (ptr : ℕ) (ok : Bool)
  /-- The end of a `Submit` in progress. -/
  | settle (ptr : ℕ)
  | forget (req : Request)
  /-- The run loop collects the requests that are due, in any order. -/
  | tick (work : List ℕ)
  /-- The run loop is not the leader. -/
  | standBy
  /-- The run loop turns to the next request. -/
  | process
  /-- `Issue` returns. -/
  | issued (outcome : Except String Bundle)
  /-- `Set` returns. -/
  | saved (err : Option String)
  | record
  | sleep
  | wake
  | timer
  | advance (now : ℤ)
  /-- A new process over the same store. -/
  | restart

namespace System

variable (cfg : Config)

/-- What `Get` returns for the host. -/
def stored (s : System) (host : String) : Option Bundle :=
  (s.certs (cfg.certNameFor host)).filter (·.complete)

/-- The requests to be worked on. -/
def due (s : System) : List ℕ := s.tracked.filter fun p => (s.heap p).nextAction ≤ s.clock

/-- The soonest next action of a tracked request. -/
def soonest (s : System) : Option ℤ := (s.tracked.map fun p => (s.heap p).nextAction).min?

/-- Change the state of a request. -/
def modify (s : System) (p : ℕ) (f : RequestState → RequestState) : System :=
  { s with heap := Function.update s.heap p (f (s.heap p)) }

/-- The `Submit` that works on a state. -/
def submitting (s : System) (p : ℕ) : Option Submitting := s.submits.find? (·.ptr = p)

/-- A new request is registered. -/
def register (s : System) (req : Request) : System :=
  { s with
    heap := Function.update s.heap s.size (.new req s.clock)
    size := s.size + 1
    tracked := s.tracked ++ [s.size]
    submits := s.submits ++ [⟨s.size, s.clock, none⟩] }

/-- The certificate that the probe of a `Submit` finds, if that is still good. -/
def find (s : System) (p : ℕ) (now : ℤ) (ok : Bool) : Option Bundle :=
  (if ok then s.stored cfg (s.heap p).req.host else none).filter fun cert =>
    ∃ expiry ∈ cert.notAfter, now + cfg.renewBefore < expiry

/-- The probe of a `Submit` is made. -/
def probed (s : System) (p : ℕ) (now : ℤ) (ok : Bool) : System :=
  let cert := s.find cfg p now ok
  { s with
    submits := s.submits.map (·.tell p (cert.bind (·.notAfter)))
    obtained := if cert.isSome then Function.update s.obtained p cert else s.obtained }

/-- A `Submit` returns. -/
def settled (s : System) (p : ℕ) (found : Option ℤ) : System :=
  { s with
    heap := match found with
      | some expiry => Function.update s.heap p ((s.heap p).reuse cfg expiry)
      | none => s.heap
    submits := s.submits.filter (·.ptr ≠ p)
    woken := true }

/-- An attempt fails. -/
def failed (s : System) (p : ℕ) (now : ℤ) (err : String) (work : List ℕ) : System :=
  { s.modify p (·.fail cfg now err) with
    loop := .working work
    failure := Function.update s.failure p (some (now, (s.heap p).failedCount + 1)) }

/-- `Issue` returns a certificate. -/
def received (s : System) (p : ℕ) (cert : Bundle) (work : List ℕ) : System :=
  { s with
    loop := .storing p cert s.clock work
    obtained := Function.update s.obtained p (some cert) }

/-- `Set` stores the certificate. -/
def keep (s : System) (p : ℕ) (cert : Bundle) (now : ℤ) (work : List ℕ) : System :=
  { s with
    certs := Function.update s.certs (cfg.certNameFor (s.heap p).req.host) (some cert)
    loop := .recording p cert now work }

/-- An attempt succeeds. -/
def succeeded (s : System) (p : ℕ) (cert : Bundle) (now : ℤ) (work : List ℕ) : System :=
  { s.modify p (·.succeed cfg now cert) with
    loop := .working work
    failure := Function.update s.failure p none }

/-- The state that a request is taken on from decides what the run loop does with it. -/
def process (s : System) (p : ℕ) (work : List ℕ) : System :=
  match (s.heap p).state with
  | .pending | .failed =>
    let host := (s.heap p).req.host
    { s with
      loop := .issuing p work
      calls := ⟨p, host, s.clock, s.stored cfg host, s.failure p⟩ :: s.calls }
  | .issued =>
    let r := (s.heap p).maybeRenew cfg s.clock
    { s.modify p fun _ => r.1 with loop := .working work, woken := s.woken || r.2 }
  | .unknown =>
    { s.modify p fun t => { t with state := .pending, nextAction := s.clock } with
      loop := .working work }

/-- One step, if it is possible. -/
def step (s : System) : Action → Option System
  | .submit req =>
    if req.host = "" ∨ ∃ p ∈ s.tracked, (s.heap p).req.key = req.key then some s
    else some (s.register req)
  | .probe p ok =>
    match s.submitting p with
    | some ⟨_, now, none⟩ => some (s.probed cfg p now ok)
    | _ => none
  | .settle p =>
    match s.submitting p with
    | some ⟨_, _, some found⟩ => some (s.settled cfg p found)
    | _ => none
  | .forget req => some { s with
      tracked := s.tracked.filter fun p => (s.heap p).req.key ≠ req.key }
  | .tick work =>
    if s.loop = .awake ∧ work.Perm s.due then some { s with loop := .working work } else none
  | .standBy =>
    if s.loop = .awake then some { s with loop := .asleep (some (s.clock + 5 * second)) }
    else none
  | .process =>
    match s.loop with
    | .working (p :: work) => some (s.process cfg p work)
    | _ => none
  | .issued outcome =>
    match s.loop, outcome with
    | .issuing p work, .error err => some (s.failed cfg p s.clock err work)
    | .issuing p work, .ok cert => some (s.received p cert work)
    | _, _ => none
  | .saved err =>
    match s.loop, err with
    | .storing p _ now work, some err => some (s.failed cfg p now ("store cert: " ++ err) work)
    | .storing p cert now work, none => some (s.keep cfg p cert now work)
    | _, _ => none
  | .record =>
    match s.loop with
    | .recording p cert now work => some (s.succeeded cfg p cert now work)
    | _ => none
  | .sleep =>
    if s.loop = .working [] then some { s with loop := .asleep s.soonest } else none
  | .wake =>
    match s.loop with
    | .asleep _ => if s.woken then some { s with loop := .awake, woken := false } else none
    | _ => none
  | .timer =>
    match s.loop with
    | .asleep (some d) => if d ≤ s.clock then some { s with loop := .awake } else none
    | _ => none
  | .advance now => if now < s.clock then none else some { s with clock := now }
  | .restart => some { s with tracked := [], submits := [], loop := .awake, woken := false }

/-- What each action does where it can be taken. -/
inductive Move (s : System) : Action → System → Prop
  | ignore {req : Request} : Move s (.submit req) s
  | register {req : Request} (hhost : req.host ≠ "")
      (hnew : ∀ p ∈ s.tracked, (s.heap p).req.key ≠ req.key) :
      Move s (.submit req) (s.register req)
  | probe {p : ℕ} {ok : Bool} {sub : Submitting} (hsub : s.submitting p = some sub) :
      Move s (.probe p ok) (s.probed cfg p sub.now ok)
  | settle {p : ℕ} {sub : Submitting} {found : Option ℤ} (hsub : s.submitting p = some sub)
      (hfound : sub.probe = some found) : Move s (.settle p) (s.settled cfg p found)
  | forget {req : Request} : Move s (.forget req)
      { s with tracked := s.tracked.filter fun p => (s.heap p).req.key ≠ req.key }
  | tick {work : List ℕ} (hloop : s.loop = .awake) (hwork : work.Perm s.due) :
      Move s (.tick work) { s with loop := .working work }
  | standBy (hloop : s.loop = .awake) :
      Move s .standBy { s with loop := .asleep (some (s.clock + 5 * second)) }
  | process {p : ℕ} {work : List ℕ} (hloop : s.loop = .working (p :: work)) :
      Move s .process (s.process cfg p work)
  | refuse {p : ℕ} {work : List ℕ} {err : String} (hloop : s.loop = .issuing p work) :
      Move s (.issued (.error err)) (s.failed cfg p s.clock err work)
  | receive {p : ℕ} {work : List ℕ} {cert : Bundle} (hloop : s.loop = .issuing p work) :
      Move s (.issued (.ok cert)) (s.received p cert work)
  | lose {p : ℕ} {cert : Bundle} {now : ℤ} {work : List ℕ} {err : String}
      (hloop : s.loop = .storing p cert now work) :
      Move s (.saved (some err)) (s.failed cfg p now ("store cert: " ++ err) work)
  | keep {p : ℕ} {cert : Bundle} {now : ℤ} {work : List ℕ}
      (hloop : s.loop = .storing p cert now work) :
      Move s (.saved none) (s.keep cfg p cert now work)
  | record {p : ℕ} {cert : Bundle} {now : ℤ} {work : List ℕ}
      (hloop : s.loop = .recording p cert now work) :
      Move s .record (s.succeeded cfg p cert now work)
  | sleep (hloop : s.loop = .working []) : Move s .sleep { s with loop := .asleep s.soonest }
  | wake {timer : Option ℤ} (hloop : s.loop = .asleep timer) (hwoken : s.woken = true) :
      Move s .wake { s with loop := .awake, woken := false }
  | timer {d : ℤ} (hloop : s.loop = .asleep (some d)) (hd : d ≤ s.clock) :
      Move s .timer { s with loop := .awake }
  | advance {now : ℤ} (hnow : s.clock ≤ now) : Move s (.advance now) { s with clock := now }
  | restart : Move s .restart
      { s with tracked := [], submits := [], loop := .awake, woken := false }

variable {cfg}

/-- Every step is one of the moves. -/
theorem step_move {s t : System} {a : Action} (h : s.step cfg a = some t) : Move cfg s a t := by
  revert h
  fun_cases s.step cfg a <;> rintro ⟨⟩
  · exact .ignore
  · rename_i hold
    obtain ⟨hhost, hnew⟩ := not_or.mp hold
    exact .register hhost fun p hp heq => hnew ⟨p, hp, heq⟩
  · rename_i hsub
    apply Move.probe hsub
  · exact .settle ‹_› rfl
  · exact .forget
  · rename_i hdue
    exact .tick hdue.1 hdue.2
  · exact .standBy ‹_›
  · exact .process ‹_›
  · exact .refuse ‹_›
  · exact .receive ‹_›
  · exact .lose ‹_›
  · exact .keep ‹_›
  · exact .record ‹_›
  · exact .sleep ‹_›
  · exact .wake ‹_› ‹_›
  · exact .timer ‹_› ‹_›
  · exact .advance (not_lt.mp ‹_›)
  · exact .restart

end System

end Rune.Acme
