import Rune.Models.Rollout.Params

/-!
# The update planner

`planUpdate` decides what may happen in one tick. It is a pure function: time
and readiness come in with the views. The steps of the source share one mutable
set of retired IDs; here each step takes the list of views retired so far and
returns it extended, in the order in which the source retires them.
-/

namespace Rune.Rollout

/-- Everything the planner reads. -/
structure UpdateInput where
  scale : Int
  params : UpdateParams
  instances : List InstanceView
  /-- The dependency gate holds creates: no replacement can start this tick. -/
  createsBlocked : Bool

/-- What may happen this tick. -/
structure UpdatePlan where
  create : Int
  retire : List Instance
  repair : List Instance
  holding : Bool
  reason : String

/-- The instance's ID is in the retired set. -/
def isRetired (retired : List InstanceView) (v : InstanceView) : Bool :=
  decide (v.id ∈ retired.map InstanceView.id)

/-- A loop that retires every eligible view not retired before. -/
def retireAll (eligible : InstanceView → Bool) :
    List InstanceView → List InstanceView → List InstanceView
  | retired, [] => retired
  | retired, v :: vs =>
    if eligible v && !isRetired retired v then retireAll eligible (retired ++ [v]) vs
    else retireAll eligible retired vs

/-- The same loop under a budget: it stops as soon as the budget is used up. -/
def retireUpTo (eligible : InstanceView → Bool) :
    Int → List InstanceView → List InstanceView → List InstanceView
  | _, retired, [] => retired
  | budget, retired, v :: vs =>
    if budget ≤ 0 then retired
    else if eligible v && !isRetired retired v then
      retireUpTo eligible (budget - 1) (retired ++ [v]) vs
    else retireUpTo eligible budget retired vs

/-- Split into the views that do not serve and those that do. -/
def splitByAvailability (vs : List InstanceView) : List InstanceView × List InstanceView :=
  (vs.filter fun v => !v.serving, vs.filter fun v => v.serving)

/-- Rank for scale-down, least valuable first: serving instances stand behind all others, and
within a tier the old template goes first. -/
def excessOrder (broken outdated current : List InstanceView) : List InstanceView :=
  let stale := splitByAvailability outdated
  let fresh := splitByAvailability current
  broken ++ sortOldestFirst stale.1 ++ sortOldestFirst fresh.1 ++ sortOldestFirst stale.2 ++
    sortOldestFirst fresh.2

namespace UpdateInput

variable (u : UpdateInput)

/-- Instances already tearing down are gone for every count. -/
def nonTerminating : List InstanceView := u.instances.filter fun v => !v.terminating

/-- All instances that are not tearing down. -/
def total : Int := u.nonTerminating.length

/-- Those to be repaired. -/
def broken : List InstanceView := u.nonTerminating.filter fun v => v.cls == .broken

/-- Those of an older template. -/
def outdated : List InstanceView := u.nonTerminating.filter fun v => v.cls == .outdated

/-- Those of the current template. -/
def current : List InstanceView := u.nonTerminating.filter fun v => v.cls == .ok

/-- The extra copy is allowed only while an update is in flight. -/
def allowance : Int := if 0 < u.outdated.length then u.params.extra else 0

/-- How many are too many. -/
def excess : Int := u.total - (u.scale + u.allowance)

/-- The ranking of this input's instances for scale-down. -/
def order : List InstanceView := excessOrder u.broken u.outdated u.current

/-- Step 1: retire the excess, least valuable first. -/
def retireExcess : List InstanceView := u.order.take u.excess.toNat

/-- Step 2: broken instances that step 1 did not retire are replaced unbudgeted. -/
def repair : List InstanceView := u.broken.filter fun v => !isRetired u.retireExcess v

/-- What survives step 1. -/
def survivors : List InstanceView :=
  u.instances.filter fun v => !(isRetired u.retireExcess v || v.terminating)

/-- What step 1 leaves. -/
def live : Int := u.survivors.length

/-- What of it serves. -/
def available : Int := u.survivors.countP InstanceView.serving

/-- What of it is outdated. -/
def liveOutdated : List InstanceView := u.survivors.filter fun v => v.cls == .outdated

/-- Step 3: outdated instances that the dataplane does not route to. -/
def retireUnrouted : List InstanceView :=
  retireAll (fun v => !v.routed) u.retireExcess u.liveOutdated

/-- Replacements in flight: current-template instances that do not serve yet. -/
def waiting : Int :=
  u.instances.countP fun v =>
    v.cls == .ok && !v.terminating && !isRetired u.retireUnrouted v && !v.serving

/-- Slots that an earlier retirement freed and this plan is about to fill. -/
def missing : Int := max (u.scale - u.live) 0

/-- How many more unready instances may be traded for replacements. -/
def unreadyBudget : Int := max u.params.dip 1 - u.missing - u.waiting

/-- Step 3b: outdated instances withdrawn by their readiness probe, paced on
replacements becoming ready and held while creates are blocked. -/
def retireUnready : List InstanceView :=
  if u.createsBlocked then u.retireUnrouted
  else retireUpTo (fun v => v.running && !v.ready) u.unreadyBudget u.retireUnrouted u.liveOutdated

/-- The outdated instances still standing, those inside the minimum-ready
window first. -/
def budgetedOutdated : List InstanceView :=
  let split := splitByAvailability (u.liveOutdated.filter fun v => !isRetired u.retireUnready v)
  sortOldestFirst split.1 ++ sortOldestFirst split.2

/-- How many may go without going below the floor. -/
def retireBudget : Int := u.available - (u.scale - u.params.dip)

/-- Step 4: the remaining outdated instances, up to the availability budget. -/
def retireBudgeted : List InstanceView :=
  u.retireUnready ++ u.budgetedOutdated.take u.retireBudget.toNat

/-- Current-template instances that the plan leaves standing. -/
def currentTemplate : Int :=
  u.instances.countP fun v => !isRetired u.retireBudgeted v && !v.terminating && v.cls == .ok

/-- How many the cap leaves room for. -/
def createBudget : Int := u.scale + u.allowance - u.live

/-- How many of the current template are missing. -/
def useful : Int := u.scale - u.currentTemplate - u.repair.length

/-- Step 5: the smaller of the two limits, and nothing below zero. -/
def create : Int :=
  let wanted := min u.createBudget u.useful
  if 0 < wanted then wanted else 0

/-- Recreate takes every outdated instance down before anything comes back. -/
def recreates : Bool := u.params.type == .recreate && !u.liveOutdated.isEmpty

end UpdateInput

/-- The sentence operators read about a plan. -/
def describePlan (plan : UpdatePlan) (outdated : Nat) : String :=
  let create := plan.create
  let retire := plan.retire.length
  let repair := plan.repair.length
  if plan.holding then "waiting for replacements to become ready"
  else if 0 < create ∧ 0 < retire then
    s!"creating {create} replacement(s), retiring {retire} instance(s)"
  else if 0 < create then
    s!"creating {create} replacement(s); {outdated} instance(s) still outdated"
  else if 0 < retire then s!"retiring {retire} instance(s)"
  else if 0 < repair then s!"replacing {repair} unhealthy instance(s)"
  else ""

/-- Decide what may happen this tick. -/
def planUpdate (u : UpdateInput) : UpdatePlan :=
  let repair := u.repair.map InstanceView.inst
  if u.recreates then
    let n := u.liveOutdated.length
    { create := 0
      retire := (u.retireExcess ++ u.liveOutdated).map InstanceView.inst
      repair
      holding := false
      reason := s!"recreate: retiring {n} instance(s) before replacing them" }
  else
    let retire := u.retireBudgeted.map InstanceView.inst
    let holding := !u.liveOutdated.isEmpty && u.create == 0 && retire.isEmpty
    let plan : UpdatePlan := { create := u.create, retire, repair, holding, reason := "" }
    { plan with reason := describePlan plan u.liveOutdated.length }

end Rune.Rollout
